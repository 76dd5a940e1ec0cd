import JobAtlas.Data.Basic
import JobAtlas.Job.Basic
import JobAtlas.Text.Search

/-!
# Validation rules

The settings of a quality component are tables of cells. `rows` groups the cells
of a table into rows: each cell has a kind, and a row is full when a kind would
repeat. Each row is a rule.
-/

namespace JobAtlas

/-- A rule that rows of data have to satisfy, or a computation over them. -/
inductive QualityRule where
  | schema (column dataType nullable : String)
  | filter (column function operator value : String)
  | aggregation (output function input ignoreNull : String)
deriving DecidableEq, Inhabited

/-- A row of a table: the values of some kinds of cells, earliest cell first. -/
abbrev Row := List (String × String)

/-- The kind of a cell: the first marker that its reference contains. -/
def Cell.kind? (kinds : List String) (c : Cell) : Option String :=
  kinds.find? fun k => Text.contains (c.reference.getD "") k

/-- The recognised cells of a table, each with its kind. -/
def recognised (kinds : List String) (cells : List Cell) : List (String × String) :=
  cells.filterMap fun c => (c.kind? kinds).map (·, c.value)

/-- Cut cells into rows, after the row `current` has begun. -/
def rowsFrom (current : Row) : List (String × String) → List Row
  | [] => if current.isEmpty then [] else [current]
  | (kind, value) :: cells =>
    if (current.lookup kind).isSome then current :: rowsFrom [(kind, value)] cells
    else rowsFrom (current ++ [(kind, value)]) cells

/-- The rows of a table whose cells are of the given kinds. -/
def rows (kinds : List String) (cells : List Cell) : List Row :=
  rowsFrom [] (recognised kinds cells)

/-- The value of a kind in a row; empty if it has none. -/
def Row.value (r : Row) (kind : String) : String := (r.lookup kind).getD ""

namespace QualityRule

/-- Every row of every table of columns to check. -/
def ofSchemaCheck (c : Component) : List QualityRule :=
  ((c.tables "SCHEMA_COLUMN").flatMap fun p => rows ["COLUMN", "TYPE", "NULL"] p.cells).map
    fun r => schema (r.value "COLUMN") (r.value "TYPE") (r.value "NULL")

/-- The rows of the first table with a name. -/
def firstTableRows (c : Component) (name : String) (kinds : List String) : List Row :=
  match c.tables name with
  | [] => []
  | p :: _ => rows kinds p.cells

/-- The conditions that name a column. -/
def ofFilter (c : Component) : List QualityRule :=
  ((firstTableRows c "CONDITIONS" ["COLUMN", "FUNCTION", "OPERATOR", "VALUE"]).filter
      fun r => r.value "COLUMN" ≠ "").map
    fun r => filter (r.value "COLUMN") (r.value "FUNCTION") (r.value "OPERATOR") (r.value "VALUE")

/-- The operations that name a function. -/
def ofAggregation (c : Component) : List QualityRule :=
  ((firstTableRows c "OPERATIONS" ["OUTPUT", "FUNCTION", "INPUT", "NULL"]).filter
      fun r => r.value "FUNCTION" ≠ "").map
    fun r => aggregation (r.value "OUTPUT") (r.value "FUNCTION") (r.value "INPUT")
      ((r.lookup "NULL").getD "false")

/-- The rules of a component. -/
def ofComponent (c : Component) : List QualityRule :=
  match c.kind with
  | "tSchemaComplianceCheck" => ofSchemaCheck c
  | "tFilterRow" => ofFilter c
  | "tAggregateRow" => ofAggregation c
  | _ => []

end QualityRule

instance : Coded QualityRule where
  toData
    | .schema column dataType nullable => .record <|
      Data.field "type" "schema_compliance" ++ Data.field "column" column ++
      Data.field "data_type" dataType ++ Data.field "nullable" nullable
    | .filter column function operator value => .record <|
      Data.field "type" "row_filter" ++ Data.field "column" column ++
      Data.field "function" function ++ Data.field "operator" operator ++
      Data.field "value" value
    | .aggregation output function input ignoreNull => .record <|
      Data.field "type" "aggregation" ++ Data.field "output_column" output ++
      Data.field "function" function ++ Data.field "input_column" input ++
      Data.field "ignore_null" ignoreNull
  ofData? d := do
    match ← d.tagged? with
    | ("schema_compliance", d) =>
      Data.Reader.read? (do
        return .schema (← Data.required "column") (← Data.required "data_type")
          (← Data.required "nullable")) d
    | ("row_filter", d) =>
      Data.Reader.read? (do
        return .filter (← Data.required "column") (← Data.required "function")
          (← Data.required "operator") (← Data.required "value")) d
    | ("aggregation", d) =>
      Data.Reader.read? (do
        return .aggregation (← Data.required "output_column") (← Data.required "function")
          (← Data.required "input_column") (← Data.required "ignore_null")) d
    | _ => none

end JobAtlas
