import JobAtlas.Text.Search

/-!
# Lines

What stands between the values of a text in TOML: blanks, line feeds and
comments. A line feed may have a carriage return before it, and nothing else
may be a carriage return. So it is in TOML 1.0, and in version 0.8 of the `toml`
library, which is followed here.
-/

namespace JobAtlas.Toml

open Text (Recogniser)

/-- A blank within a line. -/
def isBlank (c : Char) : Bool := c == ' ' || c == '\t'

/-- A character that may stand for itself: a tab, or one that is no control character. -/
def isPlain (c : Char) : Bool := c == '\t' || (0x20 ≤ c.toNat && c.toNat != 0x7F)

def skipBlanks (s : List Char) : List Char := Recogniser.skip isBlank s

/-- A line feed, perhaps with a carriage return before it. -/
def newline? : List Char → Option (List Char)
  | '\n' :: s => some s
  | '\r' :: '\n' :: s => some s
  | _ => none

/-- A comment up to the end of its line. -/
def skipComment : List Char → List Char
  | '#' :: s => Recogniser.skip isPlain s
  | s => s

/-- The end of a line: blanks, perhaps a comment, and a line feed or the end of
the text. -/
def lineEnd? (s : List Char) : Option (List Char) :=
  match skipComment (skipBlanks s) with
  | [] => some []
  | rest => newline? rest

/-- Skip blanks, line feeds and comments; `inComment` tells whether a comment
has begun. -/
def skipFillerFrom (inComment : Bool) : List Char → List Char
  | [] => []
  | '\n' :: s => skipFillerFrom false s
  | '\r' :: '\n' :: s => skipFillerFrom false s
  | c :: s =>
    if inComment then (if isPlain c then skipFillerFrom true s else c :: s)
    else if isBlank c then skipFillerFrom false s
    else if c = '#' then skipFillerFrom true s
    else c :: s

/-- Skip blanks, line feeds and comments. -/
def skipFiller (s : List Char) : List Char := skipFillerFrom false s

end JobAtlas.Toml
