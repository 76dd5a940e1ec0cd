import JobAtlas.Sorted.Set
import JobAtlas.Text.Blank
import JobAtlas.Text.Case
import JobAtlas.Text.Search

/-!
# References in statements

The tables that a statement names, and the context variables that it uses.
Tables are found by four patterns: an identifier behind a concatenated or an
interpolated schema and a dot, and an identifier behind a keyword, with a schema
in front of it or alone. Words of SQL and the labels of components are no
tables.
-/

namespace JobAtlas.Sql

open Text (Recogniser isBlank)

/-- The first character of an identifier: an ASCII letter, an underscore, or
one of the two characters beyond ASCII that are case variants of ASCII letters. -/
def isIdentStart (c : Char) : Bool := c.isAlpha || c == '_' || c == 'ſ' || c == '\u212A'

/-- The other characters of an identifier. -/
def isIdentChar (c : Char) : Bool := isIdentStart c || c.isDigit

/-- An identifier, as long as it goes on. -/
def identifier : Recogniser (List Char)
  | [] => none
  | c :: s =>
    if isIdentStart c then some (c :: s.takeWhile isIdentChar, s.dropWhile isIdentChar) else none

/-- A dot and an identifier, with blanks before each. -/
def dotted : Recogniser (List Char) := fun s => do
  let ((), s) ← Recogniser.literal ['.'] (Recogniser.skip isBlank s)
  identifier (Recogniser.skip isBlank s)

/-- The text between `start` and `stop`, the first character of which does not
occur in it. -/
def enclosed (start stop : List Char) : Recogniser (List Char) := fun s => do
  let ((), s) ← Recogniser.literal start s
  let (w, s) ← Recogniser.run (fun c => stop.head? != some c) s
  let ((), s) ← Recogniser.literal stop s
  some (w, s)

/-- A table behind a schema that is joined on, as in `"+schema+".table`. -/
def joinedTable : Recogniser (List Char) := fun s => do
  let (_, s) ← enclosed ['"', '+'] ['+', '"'] s
  dotted s

/-- A table behind an interpolated schema, as in `$\{schema}.table`. -/
def interpolatedTable : Recogniser (List Char) := fun s => do
  let (_, s) ← enclosed ['$', '\x7b'] ['\x7d'] s
  dotted s

/-- A keyword in any case. -/
def keyword (word : String) : Recogniser Unit := fun s =>
  if word.toList.isPrefixOf ((s.take word.length).map Char.toUpper) then
    some ((), s.drop word.length)
  else none

/-- One or more blanks. -/
def blanks : Recogniser (List Char) := Recogniser.run isBlank

/-- The keywords that a table follows. -/
def tableKeywords : List String := ["FROM", "JOIN", "INTO", "UPDATE"]

def anyKeyword (words : List String) : Recogniser Unit := fun s =>
  words.findSome? fun w => keyword w s

/-- `DELETE FROM`, with blanks between. -/
def deleteFrom : Recogniser Unit := fun s => do
  let ((), s) ← keyword "DELETE" s
  let (_, s) ← blanks s
  keyword "FROM" s

/-- An identifier behind a schema and a dot. -/
def schemaTable : Recogniser (List Char) := fun s => do
  let (_, s) ← Recogniser.run Text.isWord s
  let ((), s) ← Recogniser.literal ['.'] s
  identifier (Recogniser.skip isBlank s)

/-- A table behind a keyword, perhaps with a schema in front of it. -/
def qualifiedTable : Recogniser (List Char) := fun s => do
  let ((), s) ← (anyKeyword tableKeywords s).or (deleteFrom s)
  let (_, s) ← blanks s
  (schemaTable s).or (identifier s)

/-- The word behind a keyword. -/
def bareTable : Recogniser (List Char) := fun s => do
  let ((), s) ← anyKeyword (tableKeywords ++ ["DELETE"]) s
  let (_, s) ← blanks s
  identifier s

/-- The patterns of tables. -/
def tablePatterns : List (Recogniser (List Char)) :=
  [joinedTable, interpolatedTable, qualifiedTable, bareTable]

/-- The shape of a component's label, such as `tDBInput_1`. -/
def isComponentLabel : List Char → Bool
  | 't' :: c :: s =>
    let digits := s.dropWhile Char.isAlpha
    c.isUpper && !(s.takeWhile Char.isAlpha).isEmpty && digits.head? == some '_' &&
      !digits.tail.isEmpty && digits.tail.all Char.isDigit
  | _ => false

/-- Words that may stand where a table does, in lower case. -/
def stopWords : List String :=
  ["select", "from", "where", "join", "on", "as", "and", "or", "not", "null", "case", "when",
    "then", "else", "end", "using", "set", "values", "into"]

/-- The name of the table that an identifier stands for. -/
def tableName? (w : List Char) : Option String :=
  let name := String.ofList (Text.lower w)
  if isComponentLabel w || stopWords.contains name then none else some name

/-- The tables named in a text. -/
def tableSet (s : List Char) : SortedSet String :=
  .ofList (tablePatterns.flatMap fun p => (p.scan s).filterMap tableName?)

/-- The tables that a statement names, in lower case and in order. -/
def tables (sql : String) : List String := (tableSet sql.toList).toList

/-- The ways to refer to a context variable: interpolated, or joined on behind
either kind of quote. -/
def contextPatterns : List (Recogniser (List Char)) :=
  [enclosed "$\x7bcontext.".toList ['\x7d'], enclosed "\"+context.".toList ['+', '"'],
    enclosed "'+context.".toList ['+', '\'']]

/-- The context variables used in a text. -/
def contextSet (s : List Char) : SortedSet String :=
  .ofList (contextPatterns.flatMap fun p => (p.scan s).map String.ofList)

/-- The context variables that a statement uses, in order. -/
def contextVariables (sql : String) : List String := (contextSet sql.toList).toList

end JobAtlas.Sql
