import JobAtlas.Text.Blank
import JobAtlas.Text.Search

/-!
# Cleaning statements

A statement is stored as an expression of string literals. `clean` takes the
quotes at its ends away, resolves escapes, joins the literals and collapses
blanks; two statements are the same when their clean texts are.
-/

namespace JobAtlas.Sql

open Text (Recogniser)

/-- Whether a stored value stands for no statement at all. -/
def isBlankValue (raw : String) : Bool := raw == "" || raw == "\"\"" || raw == "null"

/-- Two adjacent literals: a quote, a plus sign among blanks, a quote. -/
def literalJoin : Recogniser Unit := fun s => do
  let ((), s) ← Recogniser.literal ['"'] s
  let ((), s) ← Recogniser.literal ['+'] (Recogniser.skip Text.isBlank s)
  Recogniser.literal ['"'] (Recogniser.skip Text.isBlank s)

/-- Resolve the escapes of quotes, line feeds and tabs, one after the other. -/
def resolveEscapes (s : List Char) : List Char :=
  let s := (Recogniser.literal ['\\', '"']).substitute ['"'] s
  let s := (Recogniser.literal ['\\', 'n']).substitute ['\n'] s
  (Recogniser.literal ['\\', 't']).substitute [' ', ' '] s

/-- The clean text of a stored value. -/
def cleanChars (s : List Char) : List Char :=
  let s := Text.trim (Text.strip (· == '"') s)
  Text.trim (Text.collapse (literalJoin.substitute [] (resolveEscapes s)))

/-- The clean text of a stored value. -/
def clean (raw : String) : String := String.ofList (cleanChars raw.toList)

end JobAtlas.Sql
