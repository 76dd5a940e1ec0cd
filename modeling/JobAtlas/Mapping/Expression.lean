import JobAtlas.Data.Basic
import JobAtlas.Job.Basic

/-!
# Mapped fields

A mapping component computes output columns and variables by expressions.
`Expression.ofComponent` lists them: the columns of its schemas first, then the
variables of its mappers, each if its expression is not just its own name.
-/

namespace JobAtlas

/-- A value that is not empty. -/
def nonEmpty (s? : Option String) : Option String := s?.filter (· ≠ "")

namespace Mapping

/-- A column or a variable with the expression that computes it. -/
structure Expression where
  job : String
  component : String
  input : Option String
  output : String
  expression : String
  dataType : String
deriving DecidableEq, Inhabited

namespace Expression

/-- The input column, or else the output column, and the expression. -/
def mapping (e : Expression) : String :=
  (nonEmpty e.input).getD e.output ++ " = " ++ e.expression

/-- The expression of a column, unless it is missing or the column itself. -/
def ofColumn? (job component : String) (c : Column) : Option Expression := do
  let expression ← nonEmpty c.expression
  if expression = c.name then none
  else some ⟨job, component, nonEmpty c.databaseName, c.name, expression, c.dataType⟩

/-- The expression of a variable, unless it is missing or the variable itself. -/
def ofVariable? (job component : String) (v : VariableEntry) : Option Expression := do
  let expression ← nonEmpty v.expression
  if expression = v.name then none
  else some ⟨job, component, some v.name, v.name, expression, v.dataType.getD ""⟩

/-- The expressions of a component. -/
def ofComponent (job : String) (c : Component) : List Expression :=
  (c.schemas.flatMap (·.columns)).filterMap (ofColumn? job c.name) ++
    ((c.mappers.flatMap (·.variableTables)).flatMap (·.entries)).filterMap (ofVariable? job c.name)

end Expression

instance : Coded Expression where
  toData e := .record <|
    Data.field "job_name" e.job ++ Data.field "component_name" e.component ++
    Data.field "input_column" e.input ++ Data.field "output_column" e.output ++
    Data.field "expression" e.expression ++ Data.field "data_type" e.dataType
  ofData? := Data.Reader.read? do
    return {
      job := ← Data.required "job_name"
      component := ← Data.required "component_name"
      input := ← Data.optional "input_column"
      output := ← Data.required "output_column"
      expression := ← Data.required "expression"
      dataType := ← Data.required "data_type" }

/-- The cast to the target platform for a declared type, with a placeholder for
the column. Types without a numeric or temporal target stay as they are. -/
def safeCast (dataType : String) : String :=
  if dataType ∈ ["id_Integer", "id_Long", "id_Short", "id_Byte", "Integer", "Long"] then
    "SAFE_CAST(\x7bcolumn\x7d AS INT64)"
  else if dataType = "id_BigDecimal" then "SAFE_CAST(\x7bcolumn\x7d AS NUMERIC)"
  else if dataType ∈ ["id_Double", "id_Float", "Double"] then
    "SAFE_CAST(\x7bcolumn\x7d AS FLOAT64)"
  else if dataType ∈ ["id_Date", "id_Timestamp"] then
    "SAFE.PARSE_TIMESTAMP('%Y-%m-%d %H:%M:%S', \x7bcolumn\x7d)"
  else if dataType = "Date" then "SAFE.PARSE_DATE('%Y-%m-%d', \x7bcolumn\x7d)"
  else "\x7bcolumn\x7d"

/-- An expression as it is listed in the document of a corpus. -/
structure Entry where
  job : String
  component : String
  mapping : String
  dataType : String
  safeCast : String
deriving DecidableEq, Inhabited

def Entry.ofExpression (e : Expression) : Entry :=
  ⟨e.job, e.component, e.mapping, e.dataType, Mapping.safeCast e.dataType⟩

instance : Coded Entry where
  toData e := .record <|
    Data.field "job" e.job ++ Data.field "component" e.component ++
    Data.field "mapping" e.mapping ++ Data.field "type" e.dataType ++
    Data.field "safe_cast" e.safeCast
  ofData? := Data.Reader.read? do
    return {
      job := ← Data.required "job"
      component := ← Data.required "component"
      mapping := ← Data.required "mapping"
      dataType := ← Data.required "type"
      safeCast := ← Data.required "safe_cast" }

end Mapping

end JobAtlas
