import JobAtlas.Proofs.Markup.Address
import Mathlib.Data.Set.Card

/-!
# Walking through everything below an element

A walk keeps the elements still to visit on a stack, and what it has still to give is the
listing of that stack: a step gives the first element of it (`map_fst_next?`) and leaves the
others (`listingAll_afterStep`). So `n` steps leave the listing without its first `n` elements
(`listingAll_iterate_afterStep`), and the walk ends when nothing is left of it. Listed are the
elements at all addresses below the root, as many as there are addresses (`InOrder.ncard_eq`).
`walk_inOrder` puts the two together.
-/

namespace JobAtlas

/-- The addresses are finitely many, as many as the values read off them. -/
theorem InOrder.ncard_eq {α : Type} {P : Address → Prop} {R : Address → α → Prop}
    {values : List α} (h : InOrder P R values) : {p | P p}.ncard = values.length := by
  obtain ⟨ps, hlt, hP, hv⟩ := h
  have hset : {p | P p} = (ps.toFinset : Set Address) := by
    ext p
    simp [hP]
  rw [hset, Set.ncard_coe_finset, List.toFinset_card_of_nodup hlt.nodup, hv.length_eq]

namespace Element

/-! ## Steps -/

/-- The stack that a step of a walk leaves. At the end of the walk it stays empty. -/
def afterStep (stack : List Element) : List Element := ((next? stack).map Prod.snd).getD stack

/-- What a walk gives in the step behind `n` others, unless it has ended. -/
def given? (stack : List Element) (n : Nat) : Option Element :=
  (next? (afterStep^[n] stack)).map Prod.fst

theorem map_fst_next? (stack : List Element) :
    (next? stack).map Prod.fst = (listingAll stack).head? := by
  cases h : next? stack with
  | none => rw [next?_eq_none_iff.1 h, listingAll]; rfl
  | some s => rw [listingAll_next h]; rfl

theorem listingAll_afterStep (stack : List Element) :
    listingAll (afterStep stack) = (listingAll stack).tail := by
  rw [afterStep]
  cases h : next? stack with
  | none => rw [next?_eq_none_iff.1 h, listingAll]; rfl
  | some s => rw [listingAll_next h]; rfl

theorem listingAll_iterate_afterStep (stack : List Element) (n : Nat) :
    listingAll (afterStep^[n] stack) = (listingAll stack).drop n := by
  induction n with
  | zero => rfl
  | succ n ih => rw [Function.iterate_succ_apply', listingAll_afterStep, ih, List.tail_drop]

theorem given?_eq_getElem? (stack : List Element) (n : Nat) :
    given? stack n = (listingAll stack)[n]? := by
  rw [given?, map_fst_next?, listingAll_iterate_afterStep, List.head?_drop]

/-! ## Everything below an element -/

/-- There is an element at this address below the root. -/
def IsBelow (root : Element) (p : Address) : Prop := p ≠ [] ∧ ∃ e, root.at? p = some e

theorem inOrder_descendants (e : Element) : InOrder e.IsBelow (e.ReadAt id) e.descendants := by
  have h := inOrder_filter_descendants e (fun _ => true) id
  rw [List.filter_true, List.map_id] at h
  refine h.congr fun p => ?_
  simp only [and_true, IsBelow]

theorem listing_eq_flatMap (e : Element) :
    e.listing = e.children.flatMap fun c => c :: c.listing := by
  rw [listing_eq]
  induction e.children with
  | nil => rfl
  | cons c cs ih => rw [listingAll, ih, List.flatMap_cons]

/-- A walk below an element ends behind as many steps as there are addresses below it, and
gives what is at these addresses, in document order: a child, what is below it, and then the
next child. With a name asked for, only the addresses of that name are left. -/
theorem walk_inOrder (e : Element) (name : String) :
    (∀ n, given? e.children n = e.descendants[n]?) ∧
    (∀ n, given? e.children n = none ↔ {p | e.IsBelow p}.ncard ≤ n) ∧
    InOrder e.IsBelow (e.ReadAt id) e.descendants ∧
    e.descendants = e.listing ∧
    (e.listing = e.children.flatMap fun c => c :: c.listing) ∧
    e.descendantsNamed name = e.listing.filter (·.name == name) ∧
    InOrder (e.IsNamedAt name) (e.ReadAt id) (e.descendantsNamed name) := by
  have hgiven : ∀ n, given? e.children n = e.descendants[n]? := fun n => by
    rw [given?_eq_getElem?, descendants_eq_listing, listing_eq]
  refine ⟨hgiven, fun n => ?ends, inOrder_descendants e, descendants_eq_listing e,
    listing_eq_flatMap e, ?named, ?namedInOrder⟩
  case ends =>
    rw [hgiven, List.getElem?_eq_none_iff, (inOrder_descendants e).ncard_eq]
  case named =>
    rw [descendantsNamed, descendants_eq_listing]
  case namedInOrder =>
    have h := inOrder_descendantsNamed e name id
    rwa [List.map_id] at h

end Element

end JobAtlas
