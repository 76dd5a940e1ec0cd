import JobAtlas.Data.Basic
import JobAtlas.Transaction.Basic

/-!
# Connection settings

How the components that open and end connections are configured: when they
commit, in what batches, with how many threads and within which limits.
-/

namespace JobAtlas

/-- When a connection commits. -/
inductive CommitMode where
  | auto
  | batch
deriving DecidableEq, Inhabited

structure BatchSettings where
  commitInterval : Option UInt64 := none
  enabled : Option Bool := none
  size : Option UInt64 := none
deriving DecidableEq, Inhabited

structure ThreadSettings where
  enabled : Option Bool := none
  threads : Option UInt32 := none
deriving DecidableEq, Inhabited

/-- The settings of one component. -/
structure ConnectionSettings where
  commitMode : CommitMode
  batch : BatchSettings
  threads : ThreadSettings
  /-- Limits on memory, time and rows, as declared. -/
  limits : SortedMap String String
  autoCommit : Option Bool
deriving DecidableEq, Inhabited

namespace ConnectionSettings

/-- The commit interval, and the size of a batch, when the declared text is no number. -/
def defaultBatchSize : UInt64 := 1000

def defaultThreads : UInt32 := 4

/-- The parameters that limit resources, and the names of the limits. -/
def limitParameters : List (String × String) :=
  [("MAX_MEMORY", "max_memory"), ("TIMEOUT", "timeout"), ("MAX_ROWS", "max_rows")]

private def batchNumber (v : String) : UInt64 :=
  (Text.word64? (Transaction.settingText v)).getD defaultBatchSize

/-- The settings that a component declares. -/
def ofComponent (c : Component) : ConnectionSettings where
  commitMode := if (c.value? "COMMIT_EVERY").isSome then .batch else .auto
  batch :=
    { commitInterval := (c.value? "COMMIT_EVERY").map batchNumber
      enabled := if c.flag "USE_BATCH" then some true else none
      size := if c.flag "USE_BATCH" then (c.value? "BATCH_SIZE").map batchNumber else none }
  threads :=
    if c.flag "ENABLE_PARALLEL_EXECUTION" then
      { enabled := some true
        threads := (c.value? "NUMBER_OF_PARALLEL_EXECUTORS").map fun v =>
          (Text.word32? (Transaction.settingText v)).getD defaultThreads }
    else {}
  limits := .ofList <| limitParameters.filterMap fun p => (c.value? p.1).map (p.2, ·)
  autoCommit := (c.value? "AUTO_COMMIT").map fun v => v == "" || v == "true"

end ConnectionSettings

/-! ## Written forms -/

def CommitMode.label : CommitMode → String
  | auto => "auto"
  | batch => "batch"

instance : Coded CommitMode where
  toData m := .text m.label
  ofData? d := do
    let s ← d.label?
    [.auto, .batch].find? fun m => m.label == s

instance : Coded BatchSettings where
  toData b := .record <|
    Data.fieldIfSome "commit_interval" b.commitInterval ++
    Data.fieldIfSome "enabled" b.enabled ++ Data.fieldIfSome "size" b.size
  ofData? := Data.Reader.read? do
    return {
      commitInterval := ← Data.defaulted "commit_interval" none
      enabled := ← Data.defaulted "enabled" none
      size := ← Data.defaulted "size" none }

instance : Coded ThreadSettings where
  toData t := .record <|
    Data.fieldIfSome "enabled" t.enabled ++ Data.fieldIfSome "threads" t.threads
  ofData? := Data.Reader.read? do
    return {
      enabled := ← Data.defaulted "enabled" none
      threads := ← Data.defaulted "threads" none }

instance : Coded ConnectionSettings where
  toData s := .record <|
    Data.field "commit_mode" s.commitMode ++ Data.field "batch_settings" s.batch ++
    Data.field "parallel_hints" s.threads ++ Data.field "resource_limits" s.limits ++
    Data.fieldIfSome "auto_commit" s.autoCommit
  ofData? := Data.Reader.read? do
    return {
      commitMode := ← Data.required "commit_mode"
      batch := ← Data.required "batch_settings"
      threads := ← Data.required "parallel_hints"
      limits := ← Data.required "resource_limits"
      autoCommit := ← Data.defaulted "auto_commit" none }

end JobAtlas
