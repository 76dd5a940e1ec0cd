import JobAtlas.Sql.Statement

/-!
# Use of tables

Which operations work on a table, in which jobs, and in how many components.
Components are counted by their names alone.
-/

namespace JobAtlas

/-- How statements use a table. -/
structure TableUsage where
  /-- Labels of operations, in order. -/
  operations : List String := []
  /-- Names of jobs, in order. -/
  jobs : List String := []
  /-- The number of distinct names of components. -/
  componentCount : Nat := 0
deriving DecidableEq, Repr, Inhabited

/-- The statements that name a table. -/
def usersOf (ss : List Sql.Statement) (table : String) : List Sql.Statement :=
  ss.filter (·.tables.contains table)

def TableUsage.ofUsers (users : List Sql.Statement) : TableUsage where
  operations := (SortedSet.ofList (users.map (·.operation.label))).toList
  jobs := (SortedSet.ofList (users.map (·.job))).toList
  componentCount := (SortedSet.ofList (users.map (·.component))).size

/-- The use of every table that statements name. -/
def tableUsage (ss : List Sql.Statement) : SortedMap String TableUsage :=
  .ofList <| (SortedSet.ofList (ss.flatMap (·.tables))).toList.map fun table =>
    (table, .ofUsers (usersOf ss table))

/-- The tables of a corpus. -/
structure TableAnalysis where
  all : List String
  usage : SortedMap String TableUsage
deriving DecidableEq, Inhabited

instance : Coded TableUsage where
  toData u := .record <|
    Data.field "operations" u.operations ++ Data.field "used_in_jobs" u.jobs ++
    Data.field "component_count" u.componentCount
  ofData? := Data.Reader.read? do
    return {
      operations := ← Data.required "operations"
      jobs := ← Data.required "used_in_jobs"
      componentCount := ← Data.required "component_count" }

instance : Coded TableAnalysis where
  toData t := .record (Data.field "all_tables" t.all ++ Data.field "table_operations" t.usage)
  ofData? := Data.Reader.read? do
    return { all := ← Data.required "all_tables", usage := ← Data.required "table_operations" }

end JobAtlas
