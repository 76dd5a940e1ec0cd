import JobAtlas.Component.Route
import JobAtlas.Job.Import
import JobAtlas.Sql.Clean
import JobAtlas.Sql.Operation
import JobAtlas.Sql.Reference

/-!
# Transactions

A connection opens a transaction, the components that read and write rows after
it belong to it, and a commit, a rollback or a close ends it. `spans` cuts the
components of a job into these spans; a connection that is opened while another
is open takes its place, and one still open at the end of the job is committed
there. `Summary.ofJob?` describes the spans.
-/

namespace JobAtlas.Transaction

/-! ## Spans -/

/-- A connection, the components that work on rows while it is open, and the
component that ends the span, if one does. -/
structure Span where
  connection : Component
  inside : List Component
  terminal? : Option Component
deriving DecidableEq, Inhabited

/-- The spans of the components that are left, when `current` is the open
connection with what is inside so far. -/
def spansFrom (current : Option (Component × List Component)) : List Component → List Span
  | [] =>
    match current with
    | none => []
    | some (connection, inside) => [⟨connection, inside, none⟩]
  | c :: cs =>
    match DatabaseRole.of? c.kind with
    | none => spansFrom current cs
    | some .connection => spansFrom (some (c, [])) cs
    | some role =>
      if role.isOperation then
        spansFrom (current.map fun s => (s.1, s.2 ++ [c])) cs
      else
        match current with
        | none => spansFrom none cs
        | some (connection, inside) => ⟨connection, inside, some c⟩ :: spansFrom none cs

/-- The spans of a row of components. -/
def spans (cs : List Component) : List Span := spansFrom none cs

/-! ## What components do -/

/-- The operation of an output component, by its declared action. -/
def outputOperation (action : List Char) : Sql.Operation :=
  let action := Text.upper action
  let has word := Text.occurs (String.toList word) action
  if has "INSERT" then .insert
  else if has "UPDATE" then .update
  else if has "DELETE" then .delete
  else if has "UPSERT" || has "MERGE" then .merge
  else .insert

/-- The operation of a database component in a role. -/
def operationOf (c : Component) : DatabaseRole → Sql.Operation
  | .input => .select
  | .output =>
    outputOperation (((c.value? "DATA_ACTION").filter (· ≠ "")).getD "INSERT").toList
  | .row =>
    match c.value? "QUERY" with
    | some query => Sql.Operation.detect (Sql.clean query)
    | none => .unknown
  | _ => .unknown

/-- The table that a setting names, without quotes and in lower case. -/
def namedTable? (c : Component) (parameter : String) : Option String := do
  let table := unquoted (← c.value? parameter)
  if table = "" ∨ table = "null" then none else some (Text.lowerCase table)

/-- The tables of a database component: those its settings name, and those of
its query. -/
def tableSet (c : Component) : SortedSet String :=
  .ofList (["TABLE", "DBTABLE"].filterMap (namedTable? c) ++
    match c.value? "QUERY" with
    | some query => Sql.tables (Sql.clean query)
    | none => [])

/-- The tables of a database component, in order. -/
def tablesOf (c : Component) : List String := (tableSet c).toList

/-! ## Groups -/

/-- How a transaction ends. -/
inductive Ending where
  | commit
  | rollback
  | close
  /-- At the end of the job. -/
  | implicitCommit
deriving DecidableEq, Inhabited

/-- The ending that a type of component brings about. -/
def Ending.ofKind (kind : String) : Ending :=
  if Text.contains kind "Commit" then commit
  else if Text.contains kind "Rollback" then rollback
  else close

/-- A component that works on rows in a transaction. -/
structure Step where
  name : String
  kind : String
  operation : Sql.Operation
  tables : List String
deriving DecidableEq, Inhabited

def Step.ofComponent (c : Component) : Step :=
  let operation := match DatabaseRole.of? c.kind with
    | some role => operationOf c role
    | none => .unknown
  ⟨c.name, c.kind, operation, tablesOf c⟩

/-- One transaction of a job. -/
structure Group where
  connection : String
  autoCommit : Bool
  useBatch : Bool
  batchSize : UInt64
  steps : List Step
  /-- The tables of the steps that change rows, in order. -/
  tablesModified : List String
  requiresAtomicity : Bool
  terminal : Option String
  ending : Ending
deriving DecidableEq, Inhabited

/-- A number in a setting, which may have blanks and then quotes around it. -/
def settingText (s : String) : List Char := Text.strip (· == '"') (Text.trim s.toList)

/-- Changes are committed one by one, unless a connection denies it. -/
def autoCommits (c : Component) : Bool :=
  match c.value? "AUTO_COMMIT" with
  | none => true
  | some value => value == "" || value == "true"

/-- The transaction of a span. -/
def Group.ofSpan (s : Span) : Group :=
  let steps := s.inside.map Step.ofComponent
  let modifying := steps.filter (·.operation.isModifying)
  { connection := s.connection.name
    autoCommit := autoCommits s.connection
    useBatch := s.connection.flag "USE_BATCH"
    batchSize := ((s.connection.value? "BATCH_SIZE").bind fun v => Text.word64? (settingText v)).getD 0
    steps
    tablesModified := (SortedSet.ofList (modifying.flatMap (·.tables))).toList
    requiresAtomicity := !modifying.isEmpty
    terminal := s.terminal?.map (·.name)
    ending := match s.terminal? with
      | some c => .ofKind c.kind
      | none => .implicitCommit }

/-- The transactions of a job. -/
structure Summary where
  groups : List Group
  /-- The number of groups that have to be atomic. -/
  atomicCount : Nat
  /-- The tables that are changed in any group, in order. -/
  atomicTables : List String
deriving DecidableEq, Inhabited

/-- The transactions of a job, if it has any. -/
def Summary.ofJob? (j : Job) : Option Summary :=
  let groups := (spans j.components).map Group.ofSpan
  if groups.isEmpty then none
  else some {
    groups
    atomicCount := groups.countP (·.requiresAtomicity)
    atomicTables := (SortedSet.ofList (groups.flatMap (·.tablesModified))).toList }

/-! ## Written forms -/

def Ending.label : Ending → String
  | commit => "COMMIT"
  | rollback => "ROLLBACK"
  | close => "CLOSE"
  | implicitCommit => "IMPLICIT_COMMIT"

instance : Coded Ending where
  toData e := .text e.label
  ofData? d := do
    let s ← d.label?
    [.commit, .rollback, .close, .implicitCommit].find? fun e => e.label == s

instance : Coded Step where
  toData s := .record <|
    Data.field "name" s.name ++ Data.field "type" s.kind ++
    Data.field "operation" s.operation ++ Data.field "tables" s.tables
  ofData? := Data.Reader.read? do
    return {
      name := ← Data.required "name"
      kind := ← Data.required "type"
      operation := ← Data.required "operation"
      tables := ← Data.required "tables" }

instance : Coded Group where
  toData g := .record <|
    Data.field "connection_component" g.connection ++ Data.field "auto_commit" g.autoCommit ++
    Data.field "use_batch" g.useBatch ++ Data.field "batch_size" g.batchSize ++
    Data.field "components" g.steps ++ Data.field "tables_modified" g.tablesModified ++
    Data.field "requires_atomicity" g.requiresAtomicity ++
    Data.field "end_component" g.terminal ++ Data.field "transaction_type" g.ending
  ofData? := Data.Reader.read? do
    return {
      connection := ← Data.required "connection_component"
      autoCommit := ← Data.required "auto_commit"
      useBatch := ← Data.required "use_batch"
      batchSize := ← Data.required "batch_size"
      steps := ← Data.required "components"
      tablesModified := ← Data.required "tables_modified"
      requiresAtomicity := ← Data.required "requires_atomicity"
      terminal := ← Data.optional "end_component"
      ending := ← Data.required "transaction_type" }

instance : Coded Summary where
  toData s := .record <|
    Data.field "transaction_groups" s.groups ++
    Data.field "atomic_operations_required" s.atomicCount ++
    Data.field "tables_requiring_atomicity" s.atomicTables
  ofData? := Data.Reader.read? do
    return {
      groups := ← Data.required "transaction_groups"
      atomicCount := ← Data.required "atomic_operations_required"
      atomicTables := ← Data.required "tables_requiring_atomicity" }

end JobAtlas.Transaction
