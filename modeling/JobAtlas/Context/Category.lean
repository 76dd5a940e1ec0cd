import JobAtlas.Data.Basic
import JobAtlas.Text.Case
import JobAtlas.Text.Search

/-!
# Categories of context variables

The category of a variable follows from its name and its declared type, by the
first rule of a table that fits. With the category come the reference by which
the target platform sees the variable and a note on its valid values
(`Context.classify`).
-/

namespace JobAtlas.Context

/-- What a variable stands for. -/
inductive Category where
  | schema
  | dateFilter
  | timestamp
  | filePath
  | cloudStorage
  | environment
  | batch
  | threshold
  /-- The name begins with the name of an environment. -/
  | environmentSpecific
  | generic
deriving DecidableEq, Repr, Inhabited

namespace Category

def label : Category → String
  | schema => "schema"
  | dateFilter => "date_filter"
  | timestamp => "timestamp"
  | filePath => "file_path"
  | cloudStorage => "cloud_storage"
  | environment => "environment"
  | batch => "batch"
  | threshold => "threshold"
  | environmentSpecific => "environment_specific"
  | generic => "generic"

def all : List Category :=
  [schema, dateFilter, timestamp, filePath, cloudStorage, environment, batch, threshold,
    environmentSpecific, generic]

def ofLabel? (s : String) : Option Category := all.find? (·.label == s)

end Category

/-- How the target refers to a variable: by one expression for all variables,
or by the variable's name behind a word. -/
inductive Reference where
  | fixed (expression : String)
  | named (stem : String)
deriving DecidableEq, Repr

/-- A reference to a variable of the target. -/
def varOf (name : String) : String := "var('" ++ name ++ "')"

/-- The reference to the variable with a name in lower case. -/
def Reference.text (lowerName : String) : Reference → String
  | fixed expression => expression
  | named stem => varOf (stem ++ lowerName)

/-- A row of the table of categories. -/
structure Rule where
  category : Category
  /-- Words that select the category when the name contains them in any case. -/
  words : List String
  reference : Reference
  validation : String
  /-- Declared types that select the category whatever the name is. -/
  types : List String := []

/-- The rules in the order in which they are tried. -/
def rules : List Rule := [
  { category := .schema
    words := ["schema", "database", "dataset", "catalog"]
    reference := .fixed "target.dataset"
    validation := "Must be a valid database/schema identifier" },
  { category := .dateFilter
    words := ["date", "start_date", "end_date", "process_date", "run_date"]
    reference := .named ""
    validation := "Must be a valid date format (YYYY-MM-DD)"
    types := ["Date"] },
  { category := .timestamp
    words := ["timestamp", "created_at", "updated_at", "modified"]
    reference := .named ""
    validation := "Must be a valid timestamp format" },
  { category := .filePath
    words := ["path", "file", "dir", "folder", "location"]
    reference := .named "external_"
    validation := "Must be a valid file path" },
  { category := .cloudStorage
    words := ["s3", "bucket", "gcs", "azure", "blob"]
    reference := .named "cloud_"
    validation := "Must be a valid cloud storage path" },
  { category := .environment
    words := ["env", "environment", "stage", "tier"]
    reference := .fixed "target.name"
    validation := "Must match defined environments (dev, test, prod)" },
  { category := .batch
    words := ["batch", "job_id", "run_id", "execution"]
    reference := .named "batch_"
    validation := "Must be a valid batch identifier" },
  { category := .threshold
    words := ["threshold", "limit", "max", "min", "count"]
    reference := .named ""
    validation := "Must be a numeric value"
    types := ["Integer", "Long", "Double"] }]

/-- Whether a rule selects its category. -/
def Rule.fits (r : Rule) (lowerName baseType : String) : Bool :=
  r.types.contains baseType || r.words.any (Text.contains lowerName)

/-- The beginnings of names that belong to one environment. -/
def environmentStems : List String := ["dev_", "test_", "prod_", "qa_", "staging_"]

/-- A variable's category, with its reference and a note on its values. -/
structure Classification where
  category : Category
  reference : String
  validation : String
deriving DecidableEq, Repr, Inhabited

/-- A declared type without the marker `id_`. -/
def baseType (declaredType : String) : String :=
  (Text.dropStart? "id_" declaredType).getD declaredType

/-- The classification of a name that no rule fits. -/
def classifyByStem (lowerName : String) : Classification :=
  match environmentStems.findSome? fun stem => Text.dropStart? stem lowerName with
  | some rest =>
    { category := .environmentSpecific
      reference :=
        varOf ("\x7b\x7b'dev' if target.name == 'dev' else 'prod'\x7d\x7d_" ++ rest)
      validation := "Must be defined for each target environment" }
  | none =>
    { category := .generic
      reference := varOf lowerName
      validation := "No specific validation rules" }

/-- The classification of a variable by its name and its declared type. -/
def classify (name declaredType : String) : Classification :=
  let lowerName := Text.lowerCase name
  match rules.find? (·.fits lowerName (baseType declaredType)) with
  | some rule => ⟨rule.category, rule.reference.text lowerName, rule.validation⟩
  | none => classifyByStem lowerName

instance : Coded Category where
  toData c := .text c.label
  ofData? d := d.label?.bind Category.ofLabel?

instance : Coded Classification where
  toData c := .record <|
    Data.field "category" c.category ++ Data.field "reference" c.reference ++
    Data.field "validation" c.validation
  ofData? := Data.Reader.read? do
    return {
      category := ← Data.required "category"
      reference := ← Data.required "reference"
      validation := ← Data.required "validation" }

end JobAtlas.Context
