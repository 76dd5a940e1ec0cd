import JobAtlas.Markup.Document

/-!
# Writing documents

A document is written plainly as a start tag with its attributes in order, their
values between double quotes, then what is in the element, then an end tag.
Comments and texts may stand between the tags inside the root. The parts carry
what makes them well-formed: names are words, keys are distinct, comments hold no
two dashes in a row, and texts no markup and no references.
-/

namespace JobAtlas.Markup

/-- A name of ASCII letters and digits that starts with a letter. -/
structure Name where
  first : Char
  rest : List Char
  letter : first.isAlpha
  alphanumeric : rest.all Char.isAlphanum
deriving DecidableEq

namespace Name

def chars (n : Name) : List Char := n.first :: n.rest

def string (n : Name) : String := String.ofList n.chars

end Name

/-- The name of a character that is not written as it is in an attribute value. -/
def entity? (c : Char) : Option (List Char) :=
  if c = '&' then some "amp".toList
  else if c = '<' then some "lt".toList
  else if c = '>' then some "gt".toList
  else if c = '"' then some "quot".toList
  else none

/-- A character of an attribute value as it is written. -/
def escapedChar (c : Char) : List Char :=
  match entity? c with
  | some name => '&' :: name ++ [';']
  | none => [c]

/-- An attribute value as it is written. -/
def escaped (value : String) : List Char := value.toList.flatMap escapedChar

/-- An attribute as it is written, with the space in front of it. -/
def writtenAttribute (a : Name × String) : List Char :=
  ' ' :: a.1.chars ++ '=' :: '"' :: escaped a.2 ++ ['"']

/-- The name of an element and its attributes. -/
structure StartTag where
  name : Name
  attributes : List (Name × String)
  distinct : (attributes.map Prod.fst).Nodup

namespace StartTag

/-- What is written between `<` and `>`. -/
def content (t : StartTag) : List Char := t.name.chars ++ t.attributes.flatMap writtenAttribute

/-- The tag that begins an element. -/
def opening (t : StartTag) : List Char := '<' :: t.content ++ ['>']

/-- The tag that ends it. -/
def closing (t : StartTag) : List Char := '<' :: '/' :: t.name.chars ++ ['>']

/-- The attributes as they are read. -/
def pairs (t : StartTag) : List (String × String) := t.attributes.map fun a => (a.1.string, a.2)

/-- The element with these children. -/
def element (t : StartTag) (children : List Element) : Element := ⟨t.name.string, t.pairs, children⟩

end StartTag

/-- What is written in an element. -/
inductive Piece where
  | element (tag : StartTag) (content : List Piece)
  | comment (words : List Char) (plain : ¬ ['-', '-'] <:+: words)
  | text (words : List Char) (plain : '<' ∉ words ∧ '&' ∉ words)

namespace Piece

mutual

def written : Piece → List Char
  | element tag content => tag.opening ++ writtenAll content ++ tag.closing
  | comment words _ => '<' :: ("!--".toList ++ words ++ "--".toList) ++ ['>']
  | text words _ => words

def writtenAll : List Piece → List Char
  | [] => []
  | piece :: pieces => piece.written ++ writtenAll pieces

end

mutual

/-- The elements that a piece stands for: one, or none. -/
def elements : Piece → List Element
  | element tag content => [tag.element (elementsAll content)]
  | comment .. | text .. => []

def elementsAll : List Piece → List Element
  | [] => []
  | piece :: pieces => piece.elements ++ elementsAll pieces

end

end Piece

end JobAtlas.Markup
