import JobAtlas.Proofs.Job.Pruning
import Mathlib.Data.List.Basic
import Mathlib.Logic.Relation

/-!
# Changes of a document that leave the job alone

A document may be changed at any depth: the attributes of an element may come in
another order, an element may have more attributes than are read, and elements
may stand in a wrapper of a name that is not read. Such a change leaves what
pruning keeps of the document (`pruned_of_documentEdit`), so that any number of
them, made or undone, leaves the job (`Job.ofElement_eq_of_edits`).
-/

namespace JobAtlas

namespace Element

/-! ## Edits -/

/-- A change of the attributes of one element. -/
inductive AttributeEdit : List (String × String) → List (String × String) → Prop where
  /-- Attributes with distinct keys come in another order. -/
  | reorder {attributes attributes' : List (String × String)}
      (distinct : (attributes.map Prod.fst).Nodup) (perm : attributes.Perm attributes') :
      AttributeEdit attributes attributes'
  /-- An attribute that is not read is added. -/
  | insert (before after : List (String × String)) {key : String} (value : String)
      (unread : key ∉ readKeys) :
      AttributeEdit (before ++ after) (before ++ (key, value) :: after)

/-- A change at one place in a row of elements, at any depth. -/
inductive Edit : List Element → List Element → Prop where
  | attributes {name : String} {attributes attributes' : List (String × String)}
      {children : List Element} (siblings : List Element)
      (edit : AttributeEdit attributes attributes') :
      Edit (⟨name, attributes, children⟩ :: siblings) (⟨name, attributes', children⟩ :: siblings)
  /-- The children of an element take its place. -/
  | unwrap {e : Element} (siblings : List Element) (unread : e.name ∉ readNames) :
      Edit (e :: siblings) (e.children ++ siblings)
  | inside {name : String} {attributes : List (String × String)} {children children' : List Element}
      (siblings : List Element) (edit : Edit children children') :
      Edit (⟨name, attributes, children⟩ :: siblings) (⟨name, attributes, children'⟩ :: siblings)
  | beside (e : Element) {siblings siblings' : List Element} (edit : Edit siblings siblings') :
      Edit (e :: siblings) (e :: siblings')

/-- A change at one place in a document. The root stays, whatever its name. -/
inductive DocumentEdit : Element → Element → Prop where
  | attributes {name : String} {attributes attributes' : List (String × String)}
      {children : List Element} (edit : AttributeEdit attributes attributes') :
      DocumentEdit ⟨name, attributes, children⟩ ⟨name, attributes', children⟩
  | inside {name : String} {attributes : List (String × String)} {children children' : List Element}
      (edit : Edit children children') :
      DocumentEdit ⟨name, attributes, children⟩ ⟨name, attributes, children'⟩

/-! ## What edits keep -/

theorem pickAttributes_of_edit {attributes attributes' : List (String × String)}
    (h : AttributeEdit attributes attributes') :
    pickAttributes attributes' = pickAttributes attributes := by
  refine List.filterMap_congr fun key hkey => ?_
  cases h with
  | reorder distinct perm => rw [lookup_eq_of_perm distinct perm]
  | insert before after value unread =>
    rw [lookup_insert (ne_of_mem_of_not_mem hkey unread)]

theorem pruneAll_of_edit {es es' : List Element} (h : Edit es es') :
    pruneAll es' = pruneAll es := by
  induction h with
  | attributes siblings edit =>
    rw [pruneAll, pruneAll, prune, prune, pickAttributes_of_edit edit]
  | unwrap siblings unread =>
    rw [pruneAll_append, pruneAll, prune_of_not_mem unread]
  | inside siblings edit ih => rw [pruneAll, pruneAll, prune, prune, ih]
  | beside e edit ih => rw [pruneAll, pruneAll, ih]

theorem pruned_of_documentEdit {e e' : Element} (h : DocumentEdit e e') :
    e'.pruned = e.pruned := by
  cases h with
  | attributes edit => simp only [pruned, pickAttributes_of_edit edit]
  | inside edit => simp only [pruned, pruneAll_of_edit edit]

end Element

open Element

namespace Job

/-- Documents that differ by such changes only define the same job. -/
theorem ofElement_eq_of_edits {e e' : Element} (h : Relation.EqvGen DocumentEdit e e')
    (name : String) : ofElement name e' = ofElement name e := by
  have hp : e'.pruned = e.pruned := by
    induction h with
    | rel e e' edit => exact pruned_of_documentEdit edit
    | refl e => rfl
    | symm e e' _ ih => exact ih.symm
    | trans e e' e'' _ _ ih ih' => exact ih'.trans ih
  rw [← ofElement_pruned name e', hp, ofElement_pruned]

/-- A component in a wrapper, with its query in another one. -/
def wrappedDocument : Element :=
  ⟨"ProcessType", [],
    [⟨"subjob", [("label", "extract")],
      [⟨"node", [("componentName", "tDBInput"), ("uniqueName", "tDBInput_1")],
        [⟨"settings", [],
          [⟨"elementParameter", [("name", "QUERY"), ("value", "SELECT x FROM t")], []⟩]⟩]⟩]⟩]⟩

/-- The same without the wrappers, with attributes in another order and one more. -/
def plainDocument : Element :=
  ⟨"ProcessType", [],
    [⟨"node", [("uniqueName", "tDBInput_1"), ("offsetLabelX", "0"), ("componentName", "tDBInput")],
      [⟨"elementParameter", [("name", "QUERY"), ("value", "SELECT x FROM t")], []⟩]⟩]⟩

/-- Both documents are read as a job with one component that has a query. -/
theorem ofElement_eq_of_edits_plainDocument :
    Relation.EqvGen DocumentEdit wrappedDocument plainDocument ∧
      ofElement "Load" plainDocument = ofElement "Load" wrappedDocument ∧
      ofElement "Load" wrappedDocument =
        { name := "Load"
          components := [{
            kind := "tDBInput"
            name := "tDBInput_1"
            position := {}
            parameters := [⟨"QUERY", none, "SELECT x FROM t", []⟩]
            schemas := []
            mappers := []
            links := [] }]
          parameters := []
          links := []
          contexts := [] } := by
  have h : Relation.EqvGen DocumentEdit wrappedDocument plainDocument := by
    refine .trans _ _ _ (.rel _ _ (.inside (.unwrap [] (by decide)))) ?_
    refine .trans _ _ _ (.rel _ _ (.inside (.inside [] (.unwrap [] (by decide))))) ?_
    refine .trans _ _ _ (.rel _ _ (.inside (.attributes [] (.reorder ?_ (.swap _ _ _))))) ?_
    · decide
    exact .rel _ _ (.inside (.attributes [] (.insert [_] [_] "0" (by decide))))
  exact ⟨h, ofElement_eq_of_edits h "Load", by decide +kernel⟩

end Job

end JobAtlas
