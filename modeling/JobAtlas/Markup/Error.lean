/-!
# Faults of markup

What can be wrong with a document, by cause, and the wording of each. Positions
are byte offsets: into the document for markup, into the tag for attributes,
and into the raw value for references. The causes other than those of the tree, and
their words, are those of version 0.36 of the `quick-xml` library.
-/

namespace JobAtlas.Markup

/-- A fault of markup itself. -/
inductive Fault where
  | unknownMarkup
  | unclosedTag
  | unclosedInstruction
  | unclosedCData
  | unclosedComment
  | unclosedDoctype
  | namelessDoctype
  | mismatchedEnd (expected found : String)
  | unmatchedEnd (found : String)
deriving DecidableEq, Repr

/-- Whether the nesting of tags, rather than their form, is at fault. -/
def Fault.isIllFormed : Fault → Bool
  | namelessDoctype | mismatchedEnd .. | unmatchedEnd .. => true
  | _ => false

private def unfinished (what close : String) : String :=
  what ++ " not closed: `" ++ close ++ "` not found before end of input"

def Fault.description : Fault → String
  | unknownMarkup => "unknown or missed symbol in markup"
  | unclosedTag => unfinished "tag" ">"
  | unclosedInstruction => unfinished "processing instruction or xml declaration" "?>"
  | unclosedCData => unfinished "CDATA" "]]>"
  | unclosedComment => unfinished "comment" "-->"
  | unclosedDoctype => unfinished "DOCTYPE" ">"
  | namelessDoctype => "`<!DOCTYPE>` declaration does not contain a name of a document type"
  | mismatchedEnd expected found =>
    "expected `</" ++ expected ++ ">`, but `</" ++ found ++ ">` was found"
  | unmatchedEnd found => "close tag `</" ++ found ++ ">` does not match any open tag"

def Fault.message (f : Fault) : String :=
  (if f.isIllFormed then "ill-formed document: " else "syntax error: ") ++ f.description

/-- A fault of an attribute in a tag. -/
inductive AttributeFault where
  | equalsExpected (position : Nat)
  | valueExpected (position : Nat)
  | quoteExpected (position : Nat)
  | unclosedQuote (position : Nat) (quote : Char)
  | duplicate (position previous : Nat)
deriving DecidableEq, Repr

def AttributeFault.message : AttributeFault → String
  | equalsExpected p =>
    "position " ++ toString p ++ ": attribute key must be directly followed by `=` or space"
  | valueExpected p => "position " ++ toString p ++ ": `=` must be followed by an attribute value"
  | quoteExpected p =>
    "position " ++ toString p ++ ": attribute value must be enclosed in `\"` or `'`"
  | unclosedQuote p q =>
    "position " ++ toString p ++ ": missing closing quote `" ++ String.ofList [q] ++
      "` in attribute value"
  | duplicate p previous =>
    "position " ++ toString p ++ ": duplicated attribute, previous declaration at position " ++
      toString previous

/-- A fault of a character reference by number. -/
inductive NumberFault where
  | sign
  | empty
  | digit
  | tooLarge
  | zero
  | notScalar (code : Nat)
deriving DecidableEq, Repr

def NumberFault.message : NumberFault → String
  | sign => "unexpected number sign"
  | empty => "cannot parse integer from empty string"
  | digit => "invalid digit found in string"
  | tooLarge => "number too large to fit in target type"
  | zero => "0x0 character is not permitted in XML"
  | notScalar code => "`" ++ toString code ++ "` is not a valid codepoint"

/-- A fault of a reference in an attribute value. -/
inductive ReferenceFault where
  | unterminated (start stop : Nat)
  | unknown (start stop : Nat) (name : String)
  | number (fault : NumberFault)
deriving DecidableEq, Repr

def ReferenceFault.message : ReferenceFault → String
  | unterminated start stop =>
    "Error while escaping character at range " ++ toString start ++ ".." ++ toString stop ++
      ": Cannot find ';' after '&'"
  | unknown start stop name =>
    "at " ++ toString start ++ ".." ++ toString stop ++ ": unrecognized entity `" ++ name ++ "`"
  | number fault => "invalid character reference: " ++ fault.message

/-- Why a document is not read. -/
inductive Error where
  | markup (position : Nat) (fault : Fault)
  | badAttribute (element : String) (fault : AttributeFault)
  | badValue (key : String) (fault : ReferenceFault)
  | unclosedElement (name : String)
  | secondRoot (name : String)
  | noRoot
deriving DecidableEq, Repr

/-- Whether the elements are read but do not form one tree. -/
def Error.isStructural : Error → Bool
  | unclosedElement _ | secondRoot _ | noRoot => true
  | _ => false

def Error.message : Error → String
  | markup position fault =>
    "XML parsing error at position " ++ toString position ++ ": " ++ fault.message
  | badAttribute element fault => "Invalid attribute on <" ++ element ++ ">: " ++ fault.message
  | badValue key fault => "Invalid value for " ++ key ++ ": " ++ fault.message
  | unclosedElement name => "Unclosed element <" ++ name ++ ">"
  | secondRoot name => "Multiple root elements (second is <" ++ name ++ ">)"
  | noRoot => "Document has no root element"

end JobAtlas.Markup
