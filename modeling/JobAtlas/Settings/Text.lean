import JobAtlas.Settings.Basic
import JobAtlas.Toml.Document

/-!
# Settings as text

Settings are kept as a text in TOML with a table for each section.
`Settings.parse?` reads such a text, and `Settings.toText?` writes all settings,
unless a number is too large for an integer in TOML. The layout is that of the
pretty printer of version 0.8 of the `toml` library: a blank line before a header,
and a list with several items on lines of their own.
-/

namespace JobAtlas.Settings

/-! ## Reading -/

/-- A section of a document; a section that is written as an array gives its
fields in order, and what it holds beyond them is passed over. -/
def sectionOf {α : Type} (reader : Data.Reader α) (name : String) (default : α)
    (fields : List (String × Data)) : Option α :=
  match fields.lookup name with
  | none => some default
  | some d => reader.readLoosely? d

/-- The settings that the fields of a document give. -/
def ofFields? (fields : List (String × Data)) : Option Settings := do
  some {
    discovery := ← sectionOf Discovery.reader "discovery" {} fields
    thresholds := ← sectionOf Thresholds.reader "thresholds" {} fields
    validation := ← sectionOf Validation.reader "validation" {} fields
    output := ← sectionOf Output.reader "output" {} fields }

/-- Read settings from a text. -/
def parse? (text : String) : Option Settings := do ofFields? (← Toml.parse? text)

/-! ## Writing -/

/-- A value of a setting. -/
inductive Entry where
  | text (s : String)
  | texts (items : List String)
  | number (n : Nat)
  | flag (b : Bool)
deriving DecidableEq, Repr

/-- Two items or more stand on lines of their own, each with a comma behind it. -/
def writeTexts : List String → List Char
  | [] => ['[', ']']
  | [s] => '[' :: Toml.quote s.toList ++ [']']
  | items =>
    "[\n".toList ++ (items.flatMap fun s => "    ".toList ++ Toml.quote s.toList ++ ",\n".toList) ++
      [']']

/-- The largest number that is written. -/
def largestNumber : Nat := Nat.pow 2 63 - 1

def Entry.write? : Entry → Option (List Char)
  | text s => some (Toml.quote s.toList)
  | texts items => some (writeTexts items)
  | number n => if n ≤ largestNumber then some (toString n).toList else none
  | flag b => some (if b then "true".toList else "false".toList)

/-- A line with a key and its value. -/
def writeField? (field : String × Entry) : Option (List Char) := do
  some (field.1.toList ++ " = ".toList ++ (← field.2.write?) ++ ['\n'])

/-- A header and the fields of its table. -/
def writeSection? (part : String × List (String × Entry)) : Option (List Char) := do
  let fields ← part.2.mapM writeField?
  some ('[' :: part.1.toList ++ "]\n".toList ++ fields.flatten)

/-- The sections of settings with their fields, in the order in which they are written. -/
def sections (s : Settings) : List (String × List (String × Entry)) := [
  ("discovery", [("extensions", .texts s.discovery.extensions)]),
  ("thresholds", [
    ("large_query_chars", .number s.thresholds.queryLength),
    ("table_access_count", .number s.thresholds.tableAccesses),
    ("complex_expression_chars", .number s.thresholds.expressionLength),
    ("phased_migration_jobs", .number s.thresholds.jobs),
    ("documentation_tables", .number s.thresholds.tables)]),
  ("validation", [
    ("row_count_tables", .number s.validation.rowCounts),
    ("schema_probe_queries", .number s.validation.schemaProbes),
    ("null_check_columns", .number s.validation.nullChecks)]),
  ("output", [
    ("stamp_generated_at", .flag s.output.isStamped),
    ("version", .text s.output.version),
    ("source_platform", .text s.output.sourcePlatform),
    ("target_platform", .text s.output.targetPlatform)])]

/-- Settings as a text, with a blank line between sections. -/
def toText? (s : Settings) : Option String := do
  let parts ← (sections s).mapM writeSection?
  some (String.ofList (List.intercalate ['\n'] parts))

end JobAtlas.Settings
