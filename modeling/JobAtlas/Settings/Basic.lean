import JobAtlas.Data.Basic

/-!
# Settings

What an extraction can be told: which files are jobs, from which sizes on
something is worth a remark, how many checks to write, and how to label the
result. Every section and every field has a default.
-/

namespace JobAtlas

namespace Settings

/-- Which files hold jobs. -/
structure Discovery where
  /-- Extensions of files. -/
  extensions : List String := ["item"]
deriving DecidableEq, Repr, Inhabited

/-- Beyond these numbers a remark is made. -/
structure Thresholds where
  /-- Characters of a statement. -/
  queryLength : Nat := 1000
  /-- Statements that name one table. -/
  tableAccesses : Nat := 3
  /-- Characters of an expression. -/
  expressionLength : Nat := 100
  /-- Jobs that can be migrated in one phase. -/
  jobs : Nat := 10
  /-- Tables that need no documentation. -/
  tables : Nat := 20
deriving DecidableEq, Repr, Inhabited

/-- How many checks of each kind are written. -/
structure Validation where
  rowCounts : Nat := 10
  schemaProbes : Nat := 5
  nullChecks : Nat := 5
deriving DecidableEq, Repr, Inhabited

/-- Labels of the resulting document. -/
structure Output where
  /-- Whether the document tells when it was made. -/
  isStamped : Bool := false
  version : String := "3.0"
  sourcePlatform : String := "Talend"
  targetPlatform : String := "BigQuery"
deriving DecidableEq, Repr, Inhabited

end Settings

/-- The settings of an extraction. -/
structure Settings where
  discovery : Settings.Discovery := {}
  thresholds : Settings.Thresholds := {}
  validation : Settings.Validation := {}
  output : Settings.Output := {}
deriving DecidableEq, Repr, Inhabited

namespace Settings

/-! ## Written forms -/

def Discovery.reader : Data.Reader Discovery := do
  return { extensions := ← Data.defaulted "extensions" ({} : Discovery).extensions }

def Thresholds.reader : Data.Reader Thresholds := do
  let t : Thresholds := {}
  return {
    queryLength := ← Data.defaulted "large_query_chars" t.queryLength
    tableAccesses := ← Data.defaulted "table_access_count" t.tableAccesses
    expressionLength := ← Data.defaulted "complex_expression_chars" t.expressionLength
    jobs := ← Data.defaulted "phased_migration_jobs" t.jobs
    tables := ← Data.defaulted "documentation_tables" t.tables }

def Validation.reader : Data.Reader Validation := do
  let v : Validation := {}
  return {
    rowCounts := ← Data.defaulted "row_count_tables" v.rowCounts
    schemaProbes := ← Data.defaulted "schema_probe_queries" v.schemaProbes
    nullChecks := ← Data.defaulted "null_check_columns" v.nullChecks }

def Output.reader : Data.Reader Output := do
  let o : Output := {}
  return {
    isStamped := ← Data.defaulted "stamp_generated_at" o.isStamped
    version := ← Data.defaulted "version" o.version
    sourcePlatform := ← Data.defaulted "source_platform" o.sourcePlatform
    targetPlatform := ← Data.defaulted "target_platform" o.targetPlatform }

instance : Coded Discovery where
  toData d := .record (Data.field "extensions" d.extensions)
  ofData? := Discovery.reader.read?

instance : Coded Thresholds where
  toData t := .record <|
    Data.field "large_query_chars" t.queryLength ++
    Data.field "table_access_count" t.tableAccesses ++
    Data.field "complex_expression_chars" t.expressionLength ++
    Data.field "phased_migration_jobs" t.jobs ++
    Data.field "documentation_tables" t.tables
  ofData? := Thresholds.reader.read?

instance : Coded Validation where
  toData v := .record <|
    Data.field "row_count_tables" v.rowCounts ++
    Data.field "schema_probe_queries" v.schemaProbes ++
    Data.field "null_check_columns" v.nullChecks
  ofData? := Validation.reader.read?

instance : Coded Output where
  toData o := .record <|
    Data.field "stamp_generated_at" o.isStamped ++ Data.field "version" o.version ++
    Data.field "source_platform" o.sourcePlatform ++
    Data.field "target_platform" o.targetPlatform
  ofData? := Output.reader.read?

end Settings

instance : Coded Settings where
  toData s := .record <|
    Data.field "discovery" s.discovery ++ Data.field "thresholds" s.thresholds ++
    Data.field "validation" s.validation ++ Data.field "output" s.output
  ofData? := Data.Reader.read? do
    return {
      discovery := ← Data.defaulted "discovery" {}
      thresholds := ← Data.defaulted "thresholds" {}
      validation := ← Data.defaulted "validation" {}
      output := ← Data.defaulted "output" {} }

end JobAtlas
