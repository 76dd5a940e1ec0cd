import JobAtlas.Settings.Text
import JobAtlas.Source.Directory
import JobAtlas.Text.Blank
import JobAtlas.Text.Integer

/-!
# Settings of a workspace

A workspace may keep its settings in a file. Five variables of the environment
override what the file says; a variable with a value that makes no sense is
passed over.
-/

namespace JobAtlas

/-- The variables of the environment that override settings. -/
structure Environment where
  extensions : Option String := none
  queryLength : Option String := none
  isStamped : Option String := none
  sourcePlatform : Option String := none
  targetPlatform : Option String := none
deriving DecidableEq, Repr, Inhabited

namespace Environment

/-- The environment in which these variables are set. -/
def ofLookup (value? : String → Option String) : Environment where
  extensions := value? "ETL_EXTRACT_EXTENSIONS"
  queryLength := value? "ETL_EXTRACT_LARGE_QUERY_CHARS"
  isStamped := value? "ETL_EXTRACT_STAMP_GENERATED_AT"
  sourcePlatform := value? "ETL_EXTRACT_SOURCE_PLATFORM"
  targetPlatform := value? "ETL_EXTRACT_TARGET_PLATFORM"

/-- Extensions between commas, without blanks around them and without dots in
front. -/
def extensionList (s : String) : List String :=
  ((Text.splitAt ',' s.toList).map fun w =>
    Directory.extensionOf (String.ofList (Text.trim w))).filter (· ≠ "")

/-- The extensions that a variable gives, if there are any. -/
def extensions? (s : String) : Option (List String) :=
  match extensionList s with
  | [] => none
  | es => some es

/-- A count of 64 bits. -/
def count? (s : String) : Option Nat := Text.natural? (Nat.pow 2 64) s.toList

def flag? : String → Option Bool
  | "true" => some true
  | "false" => some false
  | _ => none

/-- Settings with the overrides of an environment. -/
def override (e : Environment) (s : Settings) : Settings where
  discovery := { extensions := (e.extensions.bind extensions?).getD s.discovery.extensions }
  thresholds :=
    { s.thresholds with
      queryLength := (e.queryLength.bind count?).getD s.thresholds.queryLength }
  validation := s.validation
  output :=
    { isStamped := (e.isStamped.bind flag?).getD s.output.isStamped
      version := s.output.version
      sourcePlatform := e.sourcePlatform.getD s.output.sourcePlatform
      targetPlatform := e.targetPlatform.getD s.output.targetPlatform }

end Environment

namespace Settings

/-- Why settings are not read or not written. -/
inductive Fault where
  /-- The file holds no text. -/
  | unreadable
  /-- The text gives no settings. -/
  | malformed
  /-- A number is too large to be written. -/
  | unwritable
deriving DecidableEq, Repr

/-- Read settings from a text. -/
def ofText (text : String) : Except Fault Settings :=
  match parse? text with
  | some s => .ok s
  | none => .error .malformed

/-- Write settings as a text. -/
def toText (s : Settings) : Except Fault String :=
  match s.toText? with
  | some text => .ok text
  | none => .error .unwritable

/-- The settings of a workspace with this file, if it has one, in an environment. -/
def load (e : Environment) : Option ByteArray → Except Fault Settings
  | none => .ok (e.override {})
  | some content =>
    match String.fromUTF8? content with
    | none => .error .unreadable
    | some text => (ofText text).map e.override

/-- A text to start from: all settings with their defaults, explained. -/
def sample : String :=
  "# ETL Extraction SDK Configuration\n" ++
  "\n" ++
  "[discovery]\n" ++
  "# Extensions of job definition files, searched recursively\n" ++
  "extensions = [\"item\"]\n" ++
  "\n" ++
  "[thresholds]\n" ++
  "# Cleaned SQL longer than this is reported as a complex query\n" ++
  "large_query_chars = 1000\n" ++
  "# Tables referenced more often than this are staging candidates\n" ++
  "table_access_count = 3\n" ++
  "# Transform expressions longer than this are reported as complex\n" ++
  "complex_expression_chars = 100\n" ++
  "# Recommend a phased migration above this many jobs\n" ++
  "phased_migration_jobs = 10\n" ++
  "# Recommend model documentation above this many tables\n" ++
  "documentation_tables = 20\n" ++
  "\n" ++
  "[validation]\n" ++
  "row_count_tables = 10\n" ++
  "schema_probe_queries = 5\n" ++
  "null_check_columns = 5\n" ++
  "\n" ++
  "[output]\n" ++
  "# Record the generation time (makes repeated runs differ)\n" ++
  "stamp_generated_at = false\n" ++
  "version = \"3.0\"\n" ++
  "source_platform = \"Talend\"\n" ++
  "target_platform = \"BigQuery\"\n"

end Settings

end JobAtlas
