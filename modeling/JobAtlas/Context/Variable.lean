import JobAtlas.Context.Category
import JobAtlas.Job.Basic

/-!
# Context variables

A `Register` remembers how each name was classified first, and every later
variable of that name keeps this classification, whatever type it declares.
`Register.declare` classifies the declaration of a variable, and `Register.run` answers
calls for both one after another; `Register.fst_call` and `Register.find?_snd_call` say
what one call gives and leaves.
-/

namespace JobAtlas.Context

/-- The first classification of every name met so far. -/
abbrev Register := SortedMap String Classification

namespace Register

/-- The classification of a name: the one on record, or else the one that is
put on record now. -/
def classify (r : Register) (name declaredType : String) : Classification × Register :=
  match r.find? name with
  | some c => (c, r)
  | none =>
    let c := Context.classify name declaredType
    (c, r.insert name c)

theorem fst_classify (r : Register) (name declaredType : String) :
    (r.classify name declaredType).1 =
      (r.find? name).getD (Context.classify name declaredType) := by
  rw [classify]
  cases r.find? name <;> rfl

/-- The classification that is given is the one on record from then on. -/
theorem find?_snd_classify (r : Register) (name declaredType n : String) :
    (r.classify name declaredType).2.find? n =
      if n = name then some (r.classify name declaredType).1 else r.find? n := by
  cases h : r.find? name with
  | none =>
    simp only [classify, h]
    exact SortedMap.find?_insert r name n _
  | some c =>
    simp only [classify, h]
    split
    · next hn => rw [hn, h]
    · rfl

end Register

/-- A classified context variable. -/
structure Variable where
  name : String
  declaredType : String
  defaultValue : String
  category : Category
  reference : String
  validation : String
deriving DecidableEq, Repr, Inhabited

/-- A declared variable with its classification. -/
def Variable.ofParameter (p : ContextParameter) (c : Classification) : Variable where
  name := p.name
  declaredType := p.declaredType
  defaultValue := p.value
  category := c.category
  reference := c.reference
  validation := c.validation

/-- Classify the declaration of a variable. -/
def Register.declare (r : Register) (p : ContextParameter) : Variable × Register :=
  let (c, r) := r.classify p.name p.declaredType
  (.ofParameter p c, r)

/-! ## Calls -/

/-- A call of a register: to classify a name, or to classify the declaration of a
variable. -/
inductive Call where
  | classify (name declaredType : String)
  | declare (p : ContextParameter)

inductive Answer where
  | classification (c : Classification)
  | variable (v : Variable)
deriving DecidableEq

namespace Call

def name : Call → String
  | classify name _ => name
  | declare p => p.name

def declaredType : Call → String
  | classify _ declaredType => declaredType
  | declare p => p.declaredType

/-- The answer to a call under a classification. A variable has the declared type
and the default value of this very call. -/
def answer (c : Classification) : Call → Answer
  | classify _ _ => .classification c
  | declare p => .variable (.ofParameter p c)

/-- The classification that a call asks for. -/
def requested (c : Call) : Classification := Context.classify c.name c.declaredType

end Call

namespace Register

/-- Answer a call. -/
def call (r : Register) : Call → Answer × Register
  | .classify name declaredType =>
    let (c, r) := r.classify name declaredType
    (.classification c, r)
  | .declare p =>
    let (v, r) := r.declare p
    (.variable v, r)

/-- Answer calls one after another. -/
def run (r : Register) : List Call → List Answer × Register
  | [] => ([], r)
  | c :: cs =>
    let (a, r) := r.call c
    let (as, r) := r.run cs
    (a :: as, r)

theorem call_eq (r : Register) (c : Call) :
    r.call c = (c.answer (r.classify c.name c.declaredType).1,
      (r.classify c.name c.declaredType).2) := by
  cases c with
  | classify name declaredType => rfl
  | declare p => rfl

/-- A call is answered by what is on record for its name, or else by what it asks
for. -/
theorem fst_call (r : Register) (c : Call) :
    (r.call c).1 = c.answer ((r.find? c.name).getD c.requested) := by
  rw [call_eq, fst_classify, Call.requested]

/-- A call puts its own name on record, if it is not there, and nothing else. -/
theorem find?_snd_call (r : Register) (c : Call) (name : String) :
    (r.call c).2.find? name =
      (r.find? name).or (if c.name = name then some c.requested else none) := by
  rw [call_eq, find?_snd_classify, fst_classify, ← Call.requested]
  by_cases hn : name = c.name
  · subst hn
    rw [if_pos rfl, if_pos rfl]
    cases r.find? c.name <;> rfl
  · rw [if_neg hn, if_neg (Ne.symm hn), Option.or_none]

end Register

/-! ## Listed variables -/

/-- A variable as it is listed in the document of a corpus, under its name. -/
structure MappingEntry where
  declaredType : String
  defaultValue : String
  reference : String
  category : Category
  validation : String
deriving DecidableEq, Repr, Inhabited

def MappingEntry.ofVariable (v : Variable) : MappingEntry where
  declaredType := v.declaredType
  defaultValue := v.defaultValue
  reference := v.reference
  category := v.category
  validation := v.validation

instance : Coded Variable where
  toData v := .record <|
    Data.field "name" v.name ++ Data.field "declared_type" v.declaredType ++
    Data.field "default_value" v.defaultValue ++ Data.field "category" v.category ++
    Data.field "reference" v.reference ++ Data.field "validation" v.validation
  ofData? := Data.Reader.read? do
    return {
      name := ← Data.required "name"
      declaredType := ← Data.required "declared_type"
      defaultValue := ← Data.required "default_value"
      category := ← Data.required "category"
      reference := ← Data.required "reference"
      validation := ← Data.required "validation" }

instance : Coded MappingEntry where
  toData e := .record <|
    Data.field "type" e.declaredType ++ Data.field "default" e.defaultValue ++
    Data.field "reference" e.reference ++ Data.field "category" e.category ++
    Data.field "validation" e.validation
  ofData? := Data.Reader.read? do
    return {
      declaredType := ← Data.required "type"
      defaultValue := ← Data.required "default"
      reference := ← Data.required "reference"
      category := ← Data.required "category"
      validation := ← Data.required "validation" }

end JobAtlas.Context
