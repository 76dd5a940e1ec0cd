/-!
# Element trees

An element has a name, attributes in the order in which they are written, and
child elements. `Element.descendants` lists what stands below an element by
walking with a stack of elements still to visit; `descendants_eq_listing` says
that this is the listing in document order, each child before its own
descendants and before its next sibling.
-/

namespace JobAtlas

/-- An element without its character data. The name is without a namespace
qualifier, attribute keys are as written. -/
structure Element where
  name : String
  attributes : List (String × String)
  children : List Element
deriving Inhabited

namespace Element

/-- The value of the first attribute with this key. -/
def attr? (e : Element) (key : String) : Option String := e.attributes.lookup key

def attrOrEmpty (e : Element) (key : String) : String := (e.attr? key).getD ""

/-- The attribute is the literal `true`. -/
def flag (e : Element) (key : String) : Bool := e.attr? key == some "true"

def childrenNamed (e : Element) (name : String) : List Element :=
  e.children.filter (·.name == name)

mutual

/-- The number of elements in a tree. -/
def weight : Element → Nat
  | ⟨_, _, children⟩ => weightAll children + 1

/-- The number of elements in a row of trees. -/
def weightAll : List Element → Nat
  | [] => 0
  | e :: es => e.weight + weightAll es

end

theorem weight_eq (e : Element) : e.weight = weightAll e.children + 1 := by
  cases e; rw [weight]

theorem weightAll_append (es fs : List Element) :
    weightAll (es ++ fs) = weightAll es + weightAll fs := by
  induction es with
  | nil => simp [weightAll]
  | cons e es ih => simp only [List.cons_append, weightAll, ih]; omega

mutual

/-- The descendants of an element in document order. -/
def listing : Element → List Element
  | ⟨_, _, children⟩ => listingAll children

/-- A row of trees in document order. -/
def listingAll : List Element → List Element
  | [] => []
  | e :: es => e :: e.listing ++ listingAll es

end

theorem listing_eq (e : Element) : e.listing = listingAll e.children := by
  cases e; rw [listing]

theorem listingAll_append (es fs : List Element) :
    listingAll (es ++ fs) = listingAll es ++ listingAll fs := by
  induction es with
  | nil => simp [listingAll]
  | cons e es ih => simp [listingAll, ih]

/-! ## Walking -/

/-- One step of a walk: the element on top of the stack, and the stack with its
children in its place. -/
def next? : List Element → Option (Element × List Element)
  | [] => none
  | e :: es => some (e, e.children ++ es)

theorem next?_eq_none_iff {es : List Element} : next? es = none ↔ es = [] := by
  cases es <;> simp [next?]

theorem next?_eq_some_iff {es fs : List Element} {e : Element} :
    next? es = some (e, fs) ↔ ∃ es', es = e :: es' ∧ e.children ++ es' = fs := by
  cases es with
  | nil => simp [next?]
  | cons e' es =>
    simp only [next?, Option.some.injEq, Prod.mk.injEq, List.cons.injEq]
    constructor
    · rintro ⟨rfl, rfl⟩
      exact ⟨es, ⟨rfl, rfl⟩, rfl⟩
    · rintro ⟨es', ⟨rfl, rfl⟩, rfl⟩
      exact ⟨rfl, rfl⟩

theorem weightAll_next {es fs : List Element} {e : Element} (h : next? es = some (e, fs)) :
    weightAll fs < weightAll es := by
  obtain ⟨es, rfl, rfl⟩ := next?_eq_some_iff.1 h
  rw [weightAll_append, weightAll, weight_eq]
  omega

/-- A step takes the first element off what is still to be listed. -/
theorem listingAll_next {es fs : List Element} {e : Element} (h : next? es = some (e, fs)) :
    listingAll es = e :: listingAll fs := by
  obtain ⟨es, rfl, rfl⟩ := next?_eq_some_iff.1 h
  rw [listingAll_append, listingAll, listing_eq, List.cons_append]

/-- The elements met on a walk from a stack. -/
def walk (stack : List Element) : List Element :=
  match _h : next? stack with
  | none => []
  | some (e, stack') => e :: walk stack'
termination_by weightAll stack
decreasing_by exact weightAll_next _h

/-- Everything below an element, in document order. -/
def descendants (e : Element) : List Element := walk e.children

/-- The descendants with a given name, in document order. -/
def descendantsNamed (e : Element) (name : String) : List Element :=
  e.descendants.filter (·.name == name)

theorem walk_eq_listingAll (stack : List Element) : walk stack = listingAll stack := by
  induction stack using walk.induct with
  | case1 stack h => rw [walk, h, next?_eq_none_iff.1 h, listingAll]
  | case2 stack e stack' h ih =>
    rw [walk, h, listingAll_next h]
    exact congrArg (e :: ·) ih

theorem descendants_eq_listing (e : Element) : e.descendants = e.listing := by
  rw [descendants, walk_eq_listingAll, listing_eq]

mutual

/-- An element and its descendants with their depths, the element at `depth`. -/
def outline (depth : Nat) : Element → List (Nat × Element)
  | e@⟨_, _, children⟩ => (depth, e) :: outlineAll (depth + 1) children

/-- A row of trees with their depths, the roots at `depth`. -/
def outlineAll (depth : Nat) : List Element → List (Nat × Element)
  | [] => []
  | e :: es => e.outline depth ++ outlineAll depth es

end

end Element

end JobAtlas
