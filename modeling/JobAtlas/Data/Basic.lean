import JobAtlas.Sorted.Map

/-!
# Data trees

`Data` is the tree that every document is written as and read from: texts,
numbers, lists, and records with named fields. `Coded α` gives the written form
of a type (`toData`) and its reader (`ofData?`), and a `Data.Reader` reads the
fields of a record one after another, by name from a record or in order from a
list.

The instances of `Coded` have the forms that the `serde` library derives: a record
has a field for each part, under the name given there, and unknown fields are passed
over; a label is a text; a missing value is null, unless the field is left out. The
trees are those that `serde_json` reads and writes, and the `toml` library reads.
-/

namespace JobAtlas

/-- A tree of named fields, lists and scalars. A floating number is kept as it
is written; no integer is read from one. -/
inductive Data where
  | null
  | bool (b : Bool)
  | int (n : Int)
  | float (literal : String)
  | text (s : String)
  | list (items : List Data)
  | record (fields : List (String × Data))

/-- Types with a written form. -/
class Coded (α : Type u) where
  toData : α → Data
  ofData? : Data → Option α

export Coded (toData ofData?)

namespace Data

/-- An integer as it is read: one that fits neither 64 unsigned nor 64 signed
bits is taken for a floating number. -/
def ofInteger (n : Int) : Data :=
  if -Int.ofNat (Nat.pow 2 63) ≤ n ∧ n < Int.ofNat (Nat.pow 2 64) then .int n else .float (toString n)

/-- Where fields are read from: looked up by name, or taken in order. -/
inductive Fields where
  | named (fields : List (String × Data))
  | ordered (items : List Data)

def fields? : Data → Option Fields
  | .record fs => some (.named fs)
  | .list ds => some (.ordered ds)
  | _ => none

/-- Reads a part of the fields and leaves the others. -/
abbrev Reader (α : Type) := StateT Fields Option α

/-- A field that has to be there. -/
def required {α : Type} [Coded α] (name : String) : Reader α
  | .named fs => do
    let a ← ofData? (← fs.lookup name)
    some (a, .named fs)
  | .ordered [] => none
  | .ordered (d :: ds) => do
    let a ← ofData? d
    some (a, .ordered ds)

/-- A field that has the value `a` when it is missing. -/
def defaulted {α : Type} [Coded α] (name : String) (a : α) : Reader α
  | .named fs =>
    match fs.lookup name with
    | none => some (a, .named fs)
    | some d => do
      let b ← ofData? d
      some (b, .named fs)
  | .ordered [] => some (a, .ordered [])
  | .ordered (d :: ds) => do
    let b ← ofData? d
    some (b, .ordered ds)

/-- A field that may be missing from a record, but not from a list. -/
def optional {α : Type} [Coded (Option α)] (name : String) : Reader (Option α)
  | .ordered [] => none
  | fs => defaulted name none fs

/-- Read a record. Fields with other names are passed over; a list must hold
nothing beyond the fields. -/
def Reader.read? {α : Type} (r : Reader α) (d : Data) : Option α := do
  let (a, rest) ← r (← d.fields?)
  match rest with
  | .ordered (_ :: _) => none
  | _ => some a

/-- Read a record, passing over what a list holds beyond the fields. -/
def Reader.readLoosely? {α : Type} (r : Reader α) (d : Data) : Option α := do
  let (a, _) ← r (← d.fields?)
  some a

/-- One field. -/
def field {α : Type} [Coded α] (name : String) (a : α) : List (String × Data) := [(name, toData a)]

/-- A field that is left out when it has no value. -/
def fieldIfSome {α : Type} [Coded α] (name : String) : Option α → List (String × Data)
  | none => []
  | some a => field name a

/-- A field that is left out when its list is empty. -/
def fieldIfAny {α : Type} [Coded (List α)] (name : String) : List α → List (String × Data)
  | [] => []
  | as => field name as

/-- A label, which may also be written as the only field of a record without content. -/
def label? : Data → Option String
  | .text s => some s
  | .record [(s, .null)] => some s
  | _ => none

/-- The `type` label of a record, or the first item of a list, with what holds
the other fields. -/
def tagged? : Data → Option (String × Data)
  | .record fs =>
    match fs.lookup "type" with
    | some (.text tag) => some (tag, .record fs)
    | _ => none
  | .list (.text tag :: ds) => some (tag, .list ds)
  | _ => none

end Data

/-! ## Scalars and containers -/

instance : Coded Bool where
  toData := .bool
  ofData? | .bool b => some b | _ => none

instance : Coded String where
  toData := .text
  ofData? | .text s => some s | _ => none

/-- Counts are integers that are not negative. -/
instance : Coded Nat where
  toData n := .int n
  ofData? | .int (.ofNat n) => some n | _ => none

instance : Coded UInt32 where
  toData n := .int n.toNat
  ofData? | .int (.ofNat n) => if n < Nat.pow 2 32 then some (.ofNat n) else none | _ => none

instance : Coded UInt64 where
  toData n := .int n.toNat
  ofData? | .int (.ofNat n) => if n < Nat.pow 2 64 then some (.ofNat n) else none | _ => none

instance : Coded Int64 where
  toData n := .int n.toInt
  ofData?
    | .int n =>
      if -Int.ofNat (Nat.pow 2 63) ≤ n ∧ n < Int.ofNat (Nat.pow 2 63) then some (.ofInt n) else none
    | _ => none

/-- A missing value is written as null. -/
instance {α : Type u} [Coded α] : Coded (Option α) where
  toData | none => .null | some a => toData a
  ofData? | .null => some none | d => (ofData? d).map some

instance {α : Type u} [Coded α] : Coded (List α) where
  toData as := .list (as.map toData)
  ofData? | .list ds => ds.mapM ofData? | _ => none

/-- Maps are records, one field for each key. -/
instance {α : Type u} [Coded α] : Coded (SortedMap String α) where
  toData m := .record (m.entries.map fun e => (e.1, toData e.2))
  ofData?
    | .record fs => (fs.mapM fun f => (ofData? f.2).map (f.1, ·)).map SortedMap.ofList
    | _ => none

end JobAtlas
