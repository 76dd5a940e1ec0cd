import JobAtlas.Data.Basic
import JobAtlas.Path
import JobAtlas.Source.Basic
import JobAtlas.Text.Blank
import JobAtlas.Text.Integer

/-!
# Statistics

Sizes and token counts of texts. Sizes in larger units are written with two
decimal places; a half of the last place goes up.
-/

namespace JobAtlas

open scoped Counting

/-- Counts the tokens of a text. -/
abbrev Tokenizer := String → Nat

namespace Tokenizer

/-- Words between blanks. -/
def words : Tokenizer := fun s => Text.wordCount s.toList

/-- Characters. -/
def characters : Tokenizer := String.length

end Tokenizer

/-- A quotient in hundredths, the nearest one; a half goes up. -/
def hundredths (m n : Nat) : Nat := (200 * m + n) / (2 * n)

/-- A number of hundredths with two decimal places. -/
def hundredthsText (n : Nat) : String :=
  toString (n / 100) ++ "." ++ toString (n % 100 / 10) ++ toString (n % 10)

/-- Bytes in kilobytes. -/
def kilobytes (bytes : Nat) : String := hundredthsText (hundredths bytes 1024)

/-- Bytes in megabytes. -/
def megabytes (bytes : Nat) : String := hundredthsText (hundredths bytes (1024 * 1024))

/-- The measures of one text. -/
structure FileStatistics where
  /-- The last name of the path; empty if there is none. -/
  name : String
  path : Path
  bytes : Nat
  tokens : Nat
deriving DecidableEq, Repr, Inhabited

def FileStatistics.ofText (tokenizer : Tokenizer) (path : Path) (text : String) :
    FileStatistics where
  name := ((Path.fileName? path).map Text.lossy).getD ""
  path
  bytes := Text.byteLength text.toList
  tokens := tokenizer text

/-- The measures of many texts. -/
structure Statistics where
  label : String
  /-- The number of files, those that cannot be read among them. -/
  fileCount : Nat
  files : List FileStatistics
deriving DecidableEq, Repr, Inhabited

namespace Statistics

def bytes (s : Statistics) : Nat := (s.files.map (·.bytes)).sum

def tokens (s : Statistics) : Nat := (s.files.map (·.tokens)).sum

/-- The measures of texts, each with its path. -/
def ofTexts (label : String) (tokenizer : Tokenizer) (texts : List (Path × String)) :
    Statistics where
  label
  fileCount := texts.length
  files := texts.map fun t => .ofText tokenizer t.1 t.2

/-- The texts of a source that can be read. -/
def readable (s : Source) (paths : List Path) : List (Path × String) :=
  paths.filterMap fun path =>
    match s.read path with
    | .ok text => some (path, text)
    | .error _ => none

/-- The measures of a source. -/
def ofSource (label : String) (tokenizer : Tokenizer) (s : Source) :
    Except Source.Fault Statistics :=
  s.paths.map fun paths =>
    { ofTexts label tokenizer (readable s paths) with fileCount := paths.length }

end Statistics

/-- The written form of the measures of a text. There is none if the path is no text. -/
def FileStatistics.toData? (f : FileStatistics) : Option Data :=
  f.path.text?.map fun path => .record <|
    Data.field "name" f.name ++ Data.field "path" path ++ Data.field "size_bytes" f.bytes ++
    Data.field "size_kb" (kilobytes f.bytes) ++ Data.field "tokens" f.tokens

def Statistics.toData? (s : Statistics) : Option Data :=
  (s.files.mapM FileStatistics.toData?).map fun files => .record <|
    Data.field "label" s.label ++ Data.field "file_count" s.fileCount ++
    [("files", .list files)] ++
    Data.field "total_size_bytes" s.bytes ++ Data.field "total_tokens" s.tokens ++
    Data.field "total_size_kb" (kilobytes s.bytes) ++
    Data.field "total_size_mb" (megabytes s.bytes)

end JobAtlas
