import JobAtlas.Toml.Moment
import JobAtlas.Toml.Number
import JobAtlas.Toml.Table

/-!
# Documents

A text in TOML is read line by line: each line is blank, a header, or a key with
a value, which may go on over several lines. `parse?` reads the lines and builds
the tables that they describe.

What is read, what is refused and how deep values may be nested is as in version
0.8 of the `toml` library, which keeps to TOML 1.0. A text is refused here without
the library's words for what is wrong with it.
-/

namespace JobAtlas.Toml

open Text (Recogniser)

/-- How deep arrays and inline tables may be nested, and how many parts a
dotted key may have. -/
def depthLimit : Nat := 79

/-! ## Keys -/

/-- A character of a key that is not quoted. -/
def isKeyChar (c : Char) : Bool := c.isAlphanum || c == '_' || c == '-'

/-- One part of a dotted key. -/
def simpleKey (s : List Char) : Option (String × List Char) := do
  let (w, s) ← (quotedLine s).or (Recogniser.run isKeyChar s)
  some (String.ofList w, s)

/-- The parts of a dotted key, with blanks around each. -/
def keyParts (s : List Char) : Option (List String × List Char) := do
  let (key, s') ← simpleKey (skipBlanks s)
  match skipBlanks s' with
  | '.' :: rest =>
    if rest.length < s.length then do
      let (keys, rest) ← keyParts rest
      some (key :: keys, rest)
    else none
  | rest => some ([key], rest)
termination_by s.length

/-- A dotted key: the parts before its last one, and this. -/
structure Key where
  way : List String
  last : String
deriving DecidableEq, Repr

/-- A key with one part or more. -/
def Key.ofParts? (parts : List String) : Option Key :=
  match parts.getLast? with
  | some last => if parts.length ≤ depthLimit then some ⟨parts.dropLast, last⟩ else none
  | none => none

def Key.read : Recogniser Key := fun s => do
  let (parts, s) ← keyParts s
  some (← Key.ofParts? parts, s)

/-! ## Values -/

/-- A character of a number or a word. -/
def isBareChar (c : Char) : Bool := c.isAlphanum || c == '_' || c == '-' || c == '+' || c == '.'

/-- The value of a number or a word. -/
def bare? (w : List Char) : Option Data :=
  if w = ['t', 'r', 'u', 'e'] then some (.bool true)
  else if w = ['f', 'a', 'l', 's', 'e'] then some (.bool false)
  else
    match integer? w with
    | some n => some (.int n)
    | none => if isFloat w then some (.float (String.ofList w)) else none

/-- A value without parts. A moment is a record whose fields nobody reads. -/
def scalar : Recogniser Data := fun s =>
  match quoted s with
  | some (w, rest) => some (.text (String.ofList w), rest)
  | none =>
    match moment s with
    | some ((), rest) => some (.record [], rest)
    | none => (bare? (s.takeWhile isBareChar)).map (·, s.dropWhile isBareChar)

/-- The items of an array behind its bracket. A comma may follow the last one. -/
def elements (item : Recogniser Data) (s : List Char) : Option (List Data × List Char) :=
  match skipFiller s with
  | ']' :: rest => some ([], rest)
  | s' => do
    let (a, s') ← item s'
    match skipFiller s' with
    | ']' :: rest => some ([a], rest)
    | ',' :: rest =>
      if rest.length < s.length then do
        let (as, rest) ← elements item rest
        some (a :: as, rest)
      else none
    | _ => none
termination_by s.length

/-- A key, an equals sign and a value. -/
def keyValue (item : Recogniser Data) : Recogniser (Key × Data) := fun s => do
  let (key, s) ← Key.read s
  let ((), s) ← Recogniser.literal ['='] s
  let (value, s) ← item (skipBlanks s)
  some ((key, value), skipBlanks s)

/-- The fields of an inline table up to its brace, of which there is one at least. -/
def inlineFields (item : Recogniser Data) (s : List Char) :
    Option (List (Key × Data) × List Char) := do
  let (field, s') ← keyValue item s
  match s' with
  | '\x7d' :: rest => some ([field], rest)
  | ',' :: rest =>
    if rest.length < s.length then do
      let (fields, rest) ← inlineFields item rest
      some (field :: fields, rest)
    else none
  | _ => none
termination_by s.length

/-- The table that the fields of an inline table build. -/
def inlineTable? (fields : List (Key × Data)) : Option Data :=
  (fields.foldlM (fun t f => assign f.2 f.1.last f.1.way t) []).map fun t => .record (fieldsData t)

/-- A value in which arrays and inline tables may be nested to a depth. -/
def value : Nat → Recogniser Data
  | 0, s => scalar s
  | depth + 1, s =>
    match s with
    | '[' :: s => (elements (value depth) s).map fun p => (.list p.1, p.2)
    | '\x7b' :: s =>
      match skipBlanks s with
      | '\x7d' :: rest => some (.record [], rest)
      | s => do
        let (fields, rest) ← inlineFields (value depth) s
        some (← inlineTable? fields, rest)
    | s => scalar s

/-! ## Lines -/

/-- What a line says. -/
inductive Line where
  | blank
  /-- The header of a table. -/
  | header (key : Key)
  /-- The header of one table in a list of tables. -/
  | rowHeader (key : Key)
  | field (key : Key) (value : Data)

/-- A key between brackets. -/
def headerKey (start stop : List Char) : Recogniser Key := fun s => do
  let ((), s) ← Recogniser.literal start s
  let (key, s) ← Key.read s
  let ((), s) ← Recogniser.literal stop s
  some (key, s)

/-- A header or a field. -/
def statement (s : List Char) : Option (Line × List Char) :=
  if ['[', '['].isPrefixOf s then
    (headerKey ['[', '['] [']', ']'] s).map fun p => (.rowHeader p.1, p.2)
  else if ['['].isPrefixOf s then (headerKey ['['] [']'] s).map fun p => (.header p.1, p.2)
  else (keyValue (value depthLimit) s).map fun p => (.field p.1.1 p.1.2, p.2)

/-- A line with its end. -/
def line (s : List Char) : Option (Line × List Char) :=
  match lineEnd? s with
  | some rest => some (.blank, rest)
  | none => do
    let (l, s) ← statement (skipBlanks s)
    some (l, ← lineEnd? s)

/-- The lines of a text. -/
def lines (s : List Char) : Option (List Line) :=
  if s.isEmpty then some []
  else do
    let (l, rest) ← line s
    if rest.length < s.length then do
      let ls ← lines rest
      some (l :: ls)
    else none
termination_by s.length

/-! ## Documents -/

/-- The tables built so far, and the header under which fields now stand. -/
structure State where
  root : Fields := []
  header? : Option Key := none

/-- Take a line in. -/
def State.step (t : State) : Line → Option State
  | .blank => some t
  | .header key => do
    some ⟨← place openTable key.last key.way t.root, some key⟩
  | .rowHeader key => do
    some ⟨← place addRow key.last key.way t.root, some key⟩
  | .field key value => do
    match t.header? with
    | none => some { t with root := ← assign value key.last key.way t.root }
    | some h =>
      some { t with root := ← place (assignIn value key.last key.way) h.last h.way t.root }

/-- A mark of byte order at the start of a text does not belong to it. -/
def dropMark : List Char → List Char
  | '\ufeff' :: s => s
  | s => s

/-- The fields of the document that a text describes. -/
def parse? (text : String) : Option (List (String × Data)) := do
  let t ← (← lines (dropMark text.toList)).foldlM State.step {}
  some (fieldsData t.root)

end JobAtlas.Toml
