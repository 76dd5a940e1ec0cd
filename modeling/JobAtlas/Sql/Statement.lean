import JobAtlas.Job.Basic
import JobAtlas.Sql.Clean
import JobAtlas.Sql.Operation
import JobAtlas.Sql.Reference

/-!
# Statements

A statement found in a job, with where it was found, its clean text and what
the text shows: the operation, the tables and the context variables.
-/

namespace JobAtlas.Sql

/-- A query or a table reference found in a parameter of a component. -/
structure Statement where
  job : String
  component : String
  componentKind : String
  operation : Operation
  /-- The parameter's value as it is stored. -/
  raw : String
  /-- The clean text, by which statements are told apart. -/
  cleaned : String
  /-- Tables in lower case, in order. -/
  tables : List String
  /-- Context variables in order. -/
  contextVariables : List String
deriving DecidableEq, Inhabited

/-- A statement as it is listed in the document of a corpus. -/
structure QueryEntry where
  /-- The component and, in parentheses, its type. -/
  component : String
  operation : Operation
  tables : List String
  contextVariables : List String
  sql : String
deriving DecidableEq, Inhabited

def QueryEntry.ofStatement (s : Statement) : QueryEntry where
  component := s.component ++ " (" ++ s.componentKind ++ ")"
  operation := s.operation
  tables := s.tables
  contextVariables := s.contextVariables
  sql := s.cleaned

namespace Statement

/-- The statement that a stored value holds. -/
def ofRaw (job : String) (c : Component) (raw : String) : Statement :=
  let cleaned := clean raw
  { job
    component := c.name
    componentKind := c.kind
    operation := Operation.detect cleaned
    raw
    cleaned
    tables := Sql.tables cleaned
    contextVariables := Sql.contextVariables cleaned }

/-- The parameters that hold queries or tables, in the order in which they are read. -/
def parameterNames : List String :=
  ["QUERY", "DBTABLE", "TABLE", "DBQUERY", "SQL_QUERY", "QUERY_BAND"]

/-- The statements of a component. -/
def ofComponent (job : String) (c : Component) : List Statement :=
  ((parameterNames.flatMap c.parametersNamed).filter fun p => !isBlankValue p.value).map fun p =>
    ofRaw job c p.value

end Statement

instance : Coded Statement where
  toData s := .record <|
    Data.field "job_name" s.job ++ Data.field "component_name" s.component ++
    Data.field "component_type" s.componentKind ++ Data.field "operation" s.operation ++
    Data.field "raw_sql" s.raw ++ Data.field "cleaned_sql" s.cleaned ++
    Data.field "tables" s.tables ++ Data.field "context_variables" s.contextVariables
  ofData? := Data.Reader.read? do
    return {
      job := ← Data.required "job_name"
      component := ← Data.required "component_name"
      componentKind := ← Data.required "component_type"
      operation := ← Data.required "operation"
      raw := ← Data.required "raw_sql"
      cleaned := ← Data.required "cleaned_sql"
      tables := ← Data.required "tables"
      contextVariables := ← Data.required "context_variables" }

instance : Coded QueryEntry where
  toData e := .record <|
    Data.field "component" e.component ++ Data.field "operation" e.operation ++
    Data.field "tables" e.tables ++ Data.field "context_vars" e.contextVariables ++
    Data.field "sql" e.sql
  ofData? := Data.Reader.read? do
    return {
      component := ← Data.required "component"
      operation := ← Data.required "operation"
      tables := ← Data.required "tables"
      contextVariables := ← Data.required "context_vars"
      sql := ← Data.required "sql" }

end JobAtlas.Sql
