import JobAtlas.Job.Import
import JobAtlas.Proofs.Data.Lookup
import JobAtlas.Sorted.Map

/-!
# What a job is read from

A job is read from elements of fifteen names and attributes of some thirty keys.
`Element.pruned` leaves nothing else of an element: attributes in a fixed order,
and in place of a child of another name what is left of its children.
`Job.ofElement_pruned` says that this leaves the job as it is.

Elements are found by their names in two ways, at any depth (`listing`) and
outermost (`outermost`). Pruning commutes with both (`KeptBy.filter_pruneAll`,
`KeptBy.outermostAll_pruneAll`), and every part of a job is read from an element by such
searches and by look-ups of attributes.
-/

namespace JobAtlas

namespace Element

/-- The names of the elements that a job is read from. -/
def readNames : List String :=
  ["node", "elementParameter", "elementValue", "metadata", "column", "nodeData", "inputTables",
    "globalMapKeysValues", "outputTables", "varTables", "mapperTableEntries",
    "filterIncomingConnections", "connection", "context", "contextParameter"]

/-- The keys of the attributes that a job is read from. -/
def readKeys : List String :=
  ["componentName", "uniqueName", "posX", "posY", "name", "field", "value", "elementRef", "type",
    "nullable", "expression", "originalDbColumnName", "connector", "key", "nullOption",
    "matchingMode", "lookupMode", "innerJoin", "persistent", "sequenceOrder", "cacheSizeHint",
    "preload", "expressionFilter", "lookupFailureExpression", "reject", "source", "target",
    "label", "connectorName"]

/-- The attributes that are read, in the order of their keys. -/
def pickAttributes (attributes : List (String × String)) : List (String × String) :=
  readKeys.filterMap fun key => (attributes.lookup key).map (key, ·)

mutual

/-- What is left of an element among its siblings. -/
def prune : Element → List Element
  | ⟨name, attributes, children⟩ =>
    if name ∈ readNames then [⟨name, pickAttributes attributes, pruneAll children⟩]
    else pruneAll children

/-- What is left of a row of elements. -/
def pruneAll : List Element → List Element
  | [] => []
  | e :: es => e.prune ++ pruneAll es

end

/-- The element itself with what is left in it. -/
def pruned (e : Element) : Element := ⟨e.name, pickAttributes e.attributes, pruneAll e.children⟩

theorem prune_of_mem {e : Element} (h : e.name ∈ readNames) : e.prune = [e.pruned] := by
  cases e
  rw [prune, if_pos h]
  rfl

theorem prune_of_not_mem {e : Element} (h : e.name ∉ readNames) :
    e.prune = pruneAll e.children := by
  cases e
  rw [prune, if_neg h]

theorem pruneAll_append (es fs : List Element) :
    pruneAll (es ++ fs) = pruneAll es ++ pruneAll fs := by
  induction es with
  | nil => rw [List.nil_append, pruneAll, List.nil_append]
  | cons e es ih => rw [List.cons_append, pruneAll, pruneAll, ih, List.append_assoc]

/-! ## Look-ups -/

theorem attr?_pruned {e : Element} {key : String} (h : key ∈ readKeys) :
    e.pruned.attr? key = e.attr? key := by
  show (pickAttributes e.attributes).lookup key = e.attributes.lookup key
  rw [pickAttributes, lookup_filterMap, if_pos h]

/-! ## Searches -/

/-- A search for elements that pruning keeps, by what it leaves of them. -/
structure KeptBy (p : Element → Bool) : Prop where
  mem_readNames : ∀ e, p e → e.name ∈ readNames
  pruned : ∀ e, p e.pruned = p e

theorem keptBy_name {name : String} (h : name ∈ readNames) : KeptBy (·.name == name) where
  mem_readNames _ he := beq_iff_eq.1 he ▸ h
  pruned _ := rfl

theorem keptBy_isPart : KeptBy Job.isPart where
  mem_readNames _ he := by
    simp only [Job.isPart, Bool.or_eq_true, beq_iff_eq] at he
    obtain ((h | h) | h) | h := he <;> rw [h] <;> decide
  pruned _ := rfl

theorem outermost_eq (p : Element → Bool) (e : Element) :
    e.outermost p = if p e then [e] else outermostAll p e.children := by
  cases e; rw [outermost]

theorem outermostAll_append (p : Element → Bool) (es fs : List Element) :
    outermostAll p (es ++ fs) = outermostAll p es ++ outermostAll p fs := by
  induction es with
  | nil => rw [List.nil_append, outermostAll, List.nil_append]
  | cons e es ih =>
    rw [List.cons_append, outermostAll, outermostAll, ih, List.append_assoc]

namespace KeptBy

variable {p : Element → Bool}

/-- An element that is dropped is not found, and what it holds is. -/
theorem filter_prune_of_children (h : KeptBy p) (e : Element)
    (ih : (listingAll (pruneAll e.children)).filter p =
      ((listingAll e.children).filter p).map Element.pruned) :
    (listingAll e.prune).filter p = ((e :: e.listing).filter p).map Element.pruned := by
  rw [listing_eq e]
  by_cases hr : e.name ∈ readNames
  · rw [prune_of_mem hr, listingAll, listingAll, List.append_nil, listing_eq, List.filter_cons,
      List.filter_cons, h.pruned]
    split
    · exact congrArg (e.pruned :: ·) ih
    · exact ih
  · have hn : ¬ p e := fun he => hr (h.mem_readNames e he)
    rw [prune_of_not_mem hr, List.filter_cons_of_neg hn]
    exact ih

theorem outermostAll_prune_of_children (h : KeptBy p) (e : Element)
    (ih : outermostAll p (pruneAll e.children) =
      (outermostAll p e.children).map Element.pruned) :
    outermostAll p e.prune = (e.outermost p).map Element.pruned := by
  rw [outermost_eq]
  by_cases hr : e.name ∈ readNames
  · rw [prune_of_mem hr, outermostAll, outermostAll, List.append_nil, outermost_eq, h.pruned]
    split
    · rfl
    · exact ih
  · have hn : ¬ p e := fun he => hr (h.mem_readNames e he)
    rw [prune_of_not_mem hr, if_neg hn]
    exact ih

mutual

theorem filter_prune (h : KeptBy p) : ∀ e : Element,
    (listingAll e.prune).filter p = ((e :: e.listing).filter p).map Element.pruned
  | ⟨_, _, children⟩ => h.filter_prune_of_children _ (filter_pruneAll h children)

theorem filter_pruneAll (h : KeptBy p) : ∀ es : List Element,
    (listingAll (pruneAll es)).filter p = ((listingAll es).filter p).map Element.pruned
  | [] => rfl
  | e :: es => by
    rw [pruneAll, listingAll_append, List.filter_append, filter_prune h e, filter_pruneAll h es,
      listingAll, List.filter_append, List.map_append]

end

mutual

theorem outermostAll_prune (h : KeptBy p) : ∀ e : Element,
    outermostAll p e.prune = (e.outermost p).map Element.pruned
  | ⟨_, _, children⟩ => h.outermostAll_prune_of_children _ (outermostAll_pruneAll h children)

theorem outermostAll_pruneAll (h : KeptBy p) : ∀ es : List Element,
    outermostAll p (pruneAll es) = (outermostAll p es).map Element.pruned
  | [] => rfl
  | e :: es => by
    rw [pruneAll, outermostAll_append, outermostAll_prune h e, outermostAll_pruneAll h es,
      outermostAll, List.map_append]

end

end KeptBy

theorem descendantsNamed_pruned {name : String} (h : name ∈ readNames) (e : Element) :
    e.pruned.descendantsNamed name = (e.descendantsNamed name).map pruned := by
  rw [descendantsNamed, descendants_eq_listing, listing_eq, descendantsNamed,
    descendants_eq_listing, listing_eq]
  exact (keptBy_name h).filter_pruneAll e.children

end Element

/-! ## Parts of a job -/

open Element

theorem Cell.ofElement_pruned (e : Element) : ofElement e.pruned = ofElement e := by
  simp (disch := decide) only [ofElement, attrOrEmpty, attr?_pruned]

theorem Parameter.ofElement_pruned (e : Element) : ofElement e.pruned = ofElement e := by
  simp (disch := decide) only [ofElement, attrOrEmpty, attr?_pruned, descendantsNamed_pruned,
    List.map_map, Function.comp_def, Cell.ofElement_pruned]

theorem Column.ofElement_pruned (e : Element) : ofElement e.pruned = ofElement e := by
  simp (disch := decide) only [ofElement, attrOrEmpty, attr?_pruned]

theorem Schema.ofElement_pruned (e : Element) : ofElement e.pruned = ofElement e := by
  simp (disch := decide) only [ofElement, attr?_pruned, descendantsNamed_pruned, List.map_map,
    Function.comp_def, Column.ofElement_pruned]

theorem JoinKey.ofElement_pruned (e : Element) : ofElement e.pruned = ofElement e := by
  simp (disch := decide) only [ofElement, attrOrEmpty, attr?_pruned]

theorem InputTable.ofElement_pruned (e : Element) : ofElement e.pruned = ofElement e := by
  simp (disch := decide) only [ofElement, attrOrEmpty, flag, attr?_pruned,
    descendantsNamed_pruned, List.map_map, Function.comp_def, JoinKey.ofElement_pruned]

theorem OutputTable.ofElement_pruned (e : Element) : ofElement e.pruned = ofElement e := by
  simp (disch := decide) only [ofElement, attrOrEmpty, flag, attr?_pruned]

theorem VariableEntry.ofElement_pruned (e : Element) : ofElement e.pruned = ofElement e := by
  simp (disch := decide) only [ofElement, attrOrEmpty, attr?_pruned]

theorem VariableTable.ofElement_pruned (e : Element) : ofElement e.pruned = ofElement e := by
  simp (disch := decide) only [ofElement, attrOrEmpty, attr?_pruned, descendantsNamed_pruned,
    List.map_map, Function.comp_def, VariableEntry.ofElement_pruned]

theorem Mapper.ofElement_pruned (e : Element) : ofElement e.pruned = ofElement e := by
  simp (disch := decide) only [ofElement, attrOrEmpty, attr?_pruned, descendantsNamed_pruned,
    List.map_map, Function.comp_def, InputTable.ofElement_pruned, OutputTable.ofElement_pruned,
    VariableTable.ofElement_pruned]

theorem Link.ofElement_pruned (e : Element) : ofElement e.pruned = ofElement e := by
  simp (disch := decide) only [ofElement, attr?_pruned]

theorem Component.ofElement_pruned (e : Element) : ofElement e.pruned = ofElement e := by
  simp (disch := decide) only [ofElement, nameOf, attrOrEmpty, coordinate, attr?_pruned,
    descendantsNamed_pruned, List.map_map, Function.comp_def, Parameter.ofElement_pruned,
    Schema.ofElement_pruned, Mapper.ofElement_pruned, Link.ofElement_pruned]

theorem ContextParameter.ofElement_pruned (e : Element) : ofElement e.pruned = ofElement e := by
  simp (disch := decide) only [ofElement, attrOrEmpty, attr?_pruned]

theorem ContextSet.ofElement_pruned (e : Element) : ofElement e.pruned = ofElement e := by
  simp (disch := decide) only [ofElement, attrOrEmpty, attr?_pruned, descendantsNamed_pruned,
    List.map_map, Function.comp_def, ContextParameter.ofElement_pruned]

namespace Job

theorem partsOf_pruned (e : Element) : partsOf e.pruned = (partsOf e).map pruned :=
  keptBy_isPart.outermostAll_pruneAll e.children

theorem partsNamed_pruned (e : Element) (name : String) :
    partsNamed e.pruned name = (partsNamed e name).map pruned := by
  rw [partsNamed, partsOf_pruned, List.filter_map]
  rfl

/-- A job is read from what pruning leaves of its document. -/
theorem ofElement_pruned (name : String) (e : Element) :
    ofElement name e.pruned = ofElement name e := by
  simp (disch := decide) only [ofElement, partsNamed_pruned, descendantsNamed_pruned,
    List.flatMap_map, List.map_map, List.map_cons, Function.comp_def,
    Component.ofElement_pruned, Parameter.ofElement_pruned, Link.ofElement_pruned,
    ContextSet.ofElement_pruned]

end Job

end JobAtlas
