import JobAtlas.Data.Basic
import JobAtlas.Transaction.Basic

/-!
# Performance hints

The settings of a whole job that bear on its performance: memory, threads, and
flags. Every parameter of the job is looked at, and the last value of a setting
counts.
-/

namespace JobAtlas

structure MemorySettings where
  jvmArgs : Option String := none
  customJvm : Option Bool := none
deriving DecidableEq, Inhabited

structure Parallelism where
  enabled : Option Bool := none
  unitSize : Option UInt32 := none
deriving DecidableEq, Inhabited

/-- The performance settings of a job. -/
structure PerformanceHints where
  memory : Option MemorySettings := none
  parallelism : Option Parallelism := none
  flags : List String := []
deriving DecidableEq, Inhabited

namespace PerformanceHints

def isEmpty (h : PerformanceHints) : Bool :=
  h.memory.isNone && h.parallelism.isNone && h.flags.isEmpty

/-- The size of a unit when the declared text is no number. -/
def defaultUnitSize : UInt32 := 1

/-- Take one parameter in. -/
def note (h : PerformanceHints) (p : Parameter) : PerformanceHints :=
  match p.name with
  | "JOB_RUN_VM_ARGUMENTS" =>
    { h with memory := some { h.memory.getD {} with jvmArgs := some p.value } }
  | "JOB_RUN_VM_ARGUMENTS_OPTION" =>
    { h with memory := some { h.memory.getD {} with customJvm := some (p.value == "true") } }
  | "MULTI_THREAD_EXECUTION" =>
    { h with parallelism := some { h.parallelism.getD {} with enabled := some (p.value == "true") } }
  | "PARALLELIZE_UNIT_SIZE" =>
    let size := (Text.word32? (Transaction.settingText p.value)).getD defaultUnitSize
    { h with parallelism := some { h.parallelism.getD {} with unitSize := some size } }
  | "IMPLICIT_TCONTEXTLOAD" => { h with flags := h.flags ++ ["implicit_context_load"] }
  | "UPDATE_COMPONENTS" => { h with flags := h.flags ++ ["auto_update_components"] }
  | _ => h

/-- The performance settings of a job, if it declares any. -/
def ofJob? (j : Job) : Option PerformanceHints :=
  let h := j.allParameters.foldl note {}
  if h.isEmpty then none else some h

end PerformanceHints

instance : Coded MemorySettings where
  toData m := .record <|
    Data.fieldIfSome "jvm_args" m.jvmArgs ++ Data.fieldIfSome "custom_jvm" m.customJvm
  ofData? := Data.Reader.read? do
    return {
      jvmArgs := ← Data.defaulted "jvm_args" none
      customJvm := ← Data.defaulted "custom_jvm" none }

instance : Coded Parallelism where
  toData p := .record <|
    Data.fieldIfSome "enabled" p.enabled ++ Data.fieldIfSome "unit_size" p.unitSize
  ofData? := Data.Reader.read? do
    return {
      enabled := ← Data.defaulted "enabled" none
      unitSize := ← Data.defaulted "unit_size" none }

instance : Coded PerformanceHints where
  toData h := .record <|
    Data.fieldIfSome "memory_settings" h.memory ++
    Data.fieldIfSome "parallelism" h.parallelism ++
    Data.fieldIfAny "optimization_flags" h.flags
  ofData? := Data.Reader.read? do
    return {
      memory := ← Data.defaulted "memory_settings" none
      parallelism := ← Data.defaulted "parallelism" none
      flags := ← Data.defaulted "optimization_flags" [] }

end JobAtlas
