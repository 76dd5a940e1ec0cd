import JobAtlas.Corpus.Basic
import JobAtlas.Settings.Basic

/-!
# Checks

Sample queries against migrated data, in three sections: the rows of the first
tables, the schemas of the selections among the first statements, and the nulls
in the first columns that expressions compute. `checks` puts the sections one
after another.
-/

namespace JobAtlas

/-- A sample query on migrated data. -/
inductive Check where
  | rowCount (table query description : String)
  | schema (component query description : String)
  | nulls (column query description : String)
deriving DecidableEq, Repr, Inhabited

namespace Check

def ofTable (table : String) : Check :=
  rowCount table ("SELECT COUNT(*) as row_count FROM " ++ table)
    ("Validate row count for " ++ table)

def ofStatement (s : Sql.Statement) : Check :=
  schema s.component ("SELECT * FROM (" ++ s.cleaned ++ ") LIMIT 0")
    ("Validate schema for " ++ s.component)

def ofColumn (column : String) : Check :=
  nulls column ("SELECT COUNT(*) FROM target_table WHERE " ++ column ++ " IS NULL")
    ("Check for nulls in " ++ column)

end Check

/-- The row counts of the first tables. -/
def rowChecks (c : Corpus) (limit : Nat) : List Check := (c.tables.toList.take limit).map .ofTable

/-- The schemas of the selections among the first statements. -/
def schemaChecks (c : Corpus) (limit : Nat) : List Check :=
  ((c.statements.take limit).filter (·.operation = .select)).map .ofStatement

/-- The columns that expressions compute, each once. -/
def computedColumns (c : Corpus) : List String :=
  distinct ((c.expressions.map (·.output)).filter (· ≠ ""))

/-- The nulls in the first computed columns. -/
def nullChecks (c : Corpus) (limit : Nat) : List Check :=
  ((computedColumns c).take limit).map .ofColumn

/-- All checks. -/
def checks (c : Corpus) (s : Settings) : List Check :=
  rowChecks c s.validation.rowCounts ++ schemaChecks c s.validation.schemaProbes ++
    nullChecks c s.validation.nullChecks

instance : Coded Check where
  toData
    | .rowCount table query description => .record <|
      Data.field "type" "row_count" ++ Data.field "table" table ++
      Data.field "query" query ++ Data.field "description" description
    | .schema component query description => .record <|
      Data.field "type" "schema_validation" ++ Data.field "component" component ++
      Data.field "query" query ++ Data.field "description" description
    | .nulls column query description => .record <|
      Data.field "type" "null_check" ++ Data.field "column" column ++
      Data.field "query" query ++ Data.field "description" description
  ofData? d := do
    match ← d.tagged? with
    | ("row_count", d) =>
      Data.Reader.read? (do
        return .rowCount (← Data.required "table") (← Data.required "query")
          (← Data.required "description")) d
    | ("schema_validation", d) =>
      Data.Reader.read? (do
        return .schema (← Data.required "component") (← Data.required "query")
          (← Data.required "description")) d
    | ("null_check", d) =>
      Data.Reader.read? (do
        return .nulls (← Data.required "column") (← Data.required "query")
          (← Data.required "description")) d
    | _ => none

end JobAtlas
