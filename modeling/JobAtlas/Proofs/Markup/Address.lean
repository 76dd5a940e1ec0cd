import JobAtlas.Markup.Element
import Mathlib.Data.List.Forall2
import Mathlib.Data.List.Nodup
import Mathlib.Data.List.Perm.Subperm

/-!
# Addresses of elements

An address says which child to take at each step down from an element. Elements
with the same content may stand at several addresses, so what is read from a
tree is told apart by its address. The lexicographic order of addresses is
document order: an element comes before what is in it, and what is in it before
its next sibling.

* `at?`, `way?`: the element at an address, and the elements on the way down to it;
* `sites`: everything below an element with its address and what stands above it.
  This is the listing (`map_element_sites`), complete (`mem_sites_iff`) and in the
  order of addresses (`pairwise_sites`);
* `selected`: the sites chosen by the way to them, which `map_element_selected` takes
  apart at the children;
* `InOrder`: values read off the addresses with some property, one from each and in
  order, as those of a selection are (`inOrder_selected`).
-/

namespace JobAtlas

abbrev Address := List Nat

namespace Element

/-- The element at an address. -/
def at? (e : Element) : Address → Option Element
  | [] => some e
  | i :: p => e.children[i]?.bind fun c => c.at? p

/-- The elements on the way down to an address, the one at the address last. -/
def way? (e : Element) : Address → Option (List Element)
  | [] => some []
  | i :: p => e.children[i]?.bind fun c => (c.way? p).map (c :: ·)

theorem at?_append (e : Element) (p q : Address) :
    e.at? (p ++ q) = (e.at? p).bind (·.at? q) := by
  induction p generalizing e with
  | nil => rfl
  | cons i p ih =>
    simp only [List.cons_append, at?, Option.bind_assoc]
    exact Option.bind_congr fun c _ => ih c

theorem way?_cons_eq_some {e : Element} {i : Nat} {p : Address} {way : List Element} :
    e.way? (i :: p) = some way ↔
      ∃ c below, e.children[i]? = some c ∧ c.way? p = some below ∧ way = c :: below := by
  simp only [way?, Option.bind_eq_some_iff, Option.map_eq_some_iff]
  constructor
  · rintro ⟨c, hc, below, hb, rfl⟩
    exact ⟨c, below, hc, hb, rfl⟩
  · rintro ⟨c, below, hc, hb, rfl⟩
    exact ⟨c, hc, below, hb, rfl⟩

theorem length_way? {e : Element} {p : Address} {way : List Element} (h : e.way? p = some way) :
    way.length = p.length := by
  induction p generalizing e way with
  | nil => cases h; rfl
  | cons i p ih =>
    obtain ⟨c, below, -, hb, rfl⟩ := way?_cons_eq_some.1 h
    rw [List.length_cons, List.length_cons, ih hb]

/-- The way to an address begins with the way to each address on it. -/
theorem way?_mono {e : Element} {p q : Address} {way way' : List Element} (hpq : p <+: q)
    (hp : e.way? p = some way) (hq : e.way? q = some way') : way <+: way' := by
  induction p generalizing e q way way' with
  | nil =>
    cases hp
    exact List.nil_prefix
  | cons i p ih =>
    obtain ⟨r, rfl⟩ := hpq
    obtain ⟨c, below, hc, hb, rfl⟩ := way?_cons_eq_some.1 hp
    obtain ⟨c', below', hc', hb', rfl⟩ := way?_cons_eq_some.1 hq
    obtain rfl : c = c' := Option.some.inj (hc.symm.trans hc')
    exact List.cons_prefix_cons.2 ⟨rfl, ih (List.prefix_append p r) hb hb'⟩

/-- The element at an address is the last one on the way to it. -/
theorem at?_of_way? {e x : Element} {p : Address} {above : List Element}
    (h : e.way? p = some (above ++ [x])) : e.at? p = some x := by
  induction p generalizing e above with
  | nil => simp [way?] at h
  | cons i p ih =>
    obtain ⟨c, below, hc, hb, hw⟩ := way?_cons_eq_some.1 h
    rw [at?, hc, Option.bind_some]
    cases above with
    | nil =>
      obtain ⟨rfl, rfl⟩ := List.cons.inj hw
      obtain rfl := List.length_eq_zero_iff.1 (length_way? hb).symm
      rfl
    | cons a above =>
      obtain ⟨rfl, rfl⟩ := List.cons.inj hw
      exact ih hb

theorem exists_way?_of_at? {e x : Element} {p : Address} (hp : p ≠ []) (h : e.at? p = some x) :
    ∃ above, e.way? p = some (above ++ [x]) := by
  induction p generalizing e with
  | nil => exact absurd rfl hp
  | cons i p ih =>
    obtain ⟨c, hc, h⟩ := Option.bind_eq_some_iff.1 h
    cases p with
    | nil => exact ⟨[], way?_cons_eq_some.2 ⟨c, [], hc, rfl, by rw [Option.some.inj h]; rfl⟩⟩
    | cons j p =>
      obtain ⟨above, ha⟩ := ih (List.cons_ne_nil j p) h
      exact ⟨c :: above, way?_cons_eq_some.2 ⟨c, _, hc, ha, rfl⟩⟩

/-! ## Sites -/

/-- An element below another one, with what stands between the two. -/
structure Site where
  address : Address
  /-- The elements on the way, outermost first. -/
  above : List Element
  element : Element

/-- A site below a child, seen from its parent. -/
def Site.under (i : Nat) (c : Element) (s : Site) : Site where
  address := i :: s.address
  above := c :: s.above
  element := s.element

mutual

/-- Everything below an element, in document order. -/
def sites : Element → List Site
  | ⟨_, _, children⟩ => sitesFrom 0 children

/-- A row of children and everything below them, the first child at index `i`. -/
def sitesFrom (i : Nat) : List Element → List Site
  | [] => []
  | c :: cs => ⟨[i], [], c⟩ :: c.sites.map (Site.under i c) ++ sitesFrom (i + 1) cs

end

theorem sites_eq (e : Element) : e.sites = sitesFrom 0 e.children := by
  cases e; rw [sites]

mutual

theorem map_element_sites : ∀ e : Element, e.sites.map Site.element = e.listing
  | ⟨_, _, children⟩ => by rw [sites, listing, map_element_sitesFrom 0 children]

theorem map_element_sitesFrom : ∀ (i : Nat) (es : List Element),
    (sitesFrom i es).map Site.element = listingAll es
  | _, [] => by rw [sitesFrom, listingAll, List.map_nil]
  | i, c :: cs => by
    rw [sitesFrom, listingAll, List.map_append, List.map_cons, List.map_map,
      ← map_element_sites c, map_element_sitesFrom (i + 1) cs]
    rfl

end

theorem mem_sitesFrom_iff {i : Nat} {es : List Element} {s : Site} :
    s ∈ sitesFrom i es ↔ ∃ j c, es[j]? = some c ∧
      (s = ⟨[i + j], [], c⟩ ∨ ∃ t ∈ c.sites, t.under (i + j) c = s) := by
  induction es generalizing i with
  | nil => simp [sitesFrom]
  | cons c cs ih =>
    rw [sitesFrom, List.mem_append, List.mem_cons, List.mem_map, ih]
    constructor
    · rintro (h | ⟨j, d, hd, h⟩)
      · exact ⟨0, c, rfl, h⟩
      · exact ⟨j + 1, d, hd, by rwa [show i + 1 + j = i + (j + 1) by omega] at h⟩
    · rintro ⟨_ | j, d, hd, h⟩
      · cases hd
        exact .inl h
      · exact .inr ⟨j, d, hd, by rwa [show i + (j + 1) = i + 1 + j by omega] at h⟩

/-- The sites are the addresses below an element, each with the way to it. -/
theorem mem_sites_iff {e x : Element} {p : Address} {above : List Element} :
    ⟨p, above, x⟩ ∈ e.sites ↔ e.way? p = some (above ++ [x]) := by
  induction p generalizing e above with
  | nil =>
    rw [sites_eq, mem_sitesFrom_iff]
    simp [Site.under, way?]
  | cons i p ih =>
    rw [sites_eq, mem_sitesFrom_iff, way?_cons_eq_some]
    constructor
    · rintro ⟨j, c, hc, h | ⟨⟨q, between, y⟩, ht, h⟩⟩
      · cases h
        exact ⟨x, [], by rwa [Nat.zero_add], rfl, rfl⟩
      · cases h
        exact ⟨c, _, by rwa [Nat.zero_add], ih.1 ht, rfl⟩
    · rintro ⟨c, below, hc, hb, hw⟩
      refine ⟨i, c, hc, ?_⟩
      rw [Nat.zero_add]
      cases above with
      | nil =>
        obtain ⟨rfl, rfl⟩ := List.cons.inj hw
        obtain rfl := List.length_eq_zero_iff.1 (length_way? hb).symm
        exact .inl rfl
      | cons a above =>
        obtain ⟨rfl, rfl⟩ := List.cons.inj hw
        exact .inr ⟨⟨p, above, x⟩, ih.2 hb, rfl⟩

theorem address_eq_cons {i : Nat} {es : List Element} {s : Site} (h : s ∈ sitesFrom i es) :
    ∃ j p, s.address = j :: p ∧ i ≤ j := by
  obtain ⟨j, c, -, rfl | ⟨t, -, rfl⟩⟩ := mem_sitesFrom_iff.1 h
  · exact ⟨i + j, [], rfl, Nat.le_add_right i j⟩
  · exact ⟨i + j, t.address, rfl, Nat.le_add_right i j⟩

mutual

/-- Sites stand in the order of their addresses. -/
theorem pairwise_sites : ∀ e : Element, (e.sites.map Site.address).Pairwise (· < ·)
  | ⟨_, _, children⟩ => by
    rw [sites]
    exact pairwise_sitesFrom 0 children

theorem pairwise_sitesFrom : ∀ (i : Nat) (es : List Element),
    ((sitesFrom i es).map Site.address).Pairwise (· < ·)
  | _, [] => by
    rw [sitesFrom]
    exact .nil
  | i, c :: cs => by
    have later : ∀ p ∈ (sitesFrom (i + 1) cs).map Site.address, ∀ q, i :: q < p := by
      intro p hp q
      obtain ⟨s, hs, rfl⟩ := List.mem_map.1 hp
      obtain ⟨j, r, h, hj⟩ := address_eq_cons hs
      rw [h]
      exact List.Lex.rel hj
    rw [sitesFrom, List.map_append, List.map_cons, List.map_map, List.cons_append,
      List.pairwise_cons, List.pairwise_append]
    refine ⟨?child, ?below, pairwise_sitesFrom (i + 1) cs, ?next⟩
    case child =>
      intro p hp
      rcases List.mem_append.1 hp with hp | hp
      · obtain ⟨s, hs, rfl⟩ := List.mem_map.1 hp
        rw [sites_eq] at hs
        obtain ⟨j, q, h, -⟩ := address_eq_cons hs
        show [i] < i :: s.address
        rw [h]
        exact List.Lex.cons List.Lex.nil
      · exact later p hp []
    case below =>
      have h := pairwise_sites c
      rw [List.pairwise_map] at h ⊢
      exact h.imp fun h => List.Lex.cons h
    case next =>
      intro p hp q hq
      obtain ⟨s, -, rfl⟩ := List.mem_map.1 hp
      exact later q hq s.address

end

/-! ## Selections -/

/-- The sites that a selection by the way and the element keeps. -/
def selected (keep : List Element → Element → Bool) (e : Element) : List Site :=
  e.sites.filter fun s => keep s.above s.element

/-- What a selection keeps of an element and everything below it. -/
def kept (keep : List Element → Element → Bool) (e : Element) : List Element :=
  (if keep [] e then [e] else []) ++
    (e.selected fun above => keep (e :: above)).map Site.element

theorem map_element_filter_sitesFrom (keep : List Element → Element → Bool) (i : Nat)
    (es : List Element) :
    ((sitesFrom i es).filter fun s => keep s.above s.element).map Site.element =
      es.flatMap (kept keep) := by
  induction es generalizing i with
  | nil => rw [sitesFrom]; rfl
  | cons c cs ih =>
    rw [sitesFrom, List.filter_append, List.map_append, ih, List.flatMap_cons, List.filter_cons,
      List.filter_map]
    congr 1
    simp only [kept, selected]
    split <;> simp [Function.comp_def, Site.under]

theorem map_element_selected (keep : List Element → Element → Bool) (e : Element) :
    (e.selected keep).map Site.element = e.children.flatMap (kept keep) := by
  rw [selected, sites_eq, map_element_filter_sitesFrom]

/-- A choice among the elements below another one is a selection that does not look at the way. -/
theorem filter_descendants_eq_selected (e : Element) (q : Element → Bool) :
    e.descendants.filter q = (e.selected fun _ x => q x).map Site.element := by
  rw [descendants_eq_listing, ← map_element_sites, List.filter_map]
  rfl

theorem descendantsNamed_eq_selected (e : Element) (name : String) :
    e.descendantsNamed name = (e.selected fun _ x => x.name == name).map Site.element :=
  filter_descendants_eq_selected e (·.name == name)

end Element

/-- Values read off the addresses with a property, one from each and in their
order. -/
def InOrder {α : Type} (P : Address → Prop) (Reads : Address → α → Prop) (values : List α) : Prop :=
  ∃ ps : List Address, ps.Pairwise (· < ·) ∧ (∀ p, p ∈ ps ↔ P p) ∧ List.Forall₂ Reads ps values

theorem exists_of_forall₂ {α β : Type} {R : α → β → Prop} {as : List α} {bs : List β}
    (h : List.Forall₂ R as bs) {a : α} (ha : a ∈ as) : ∃ b ∈ bs, R a b := by
  obtain ⟨i, hi, rfl⟩ := List.getElem_of_mem ha
  obtain ⟨hl, hR⟩ := List.forall₂_iff_get.1 h
  exact ⟨_, List.getElem_mem (hl ▸ hi), hR i hi (hl ▸ hi)⟩

namespace InOrder

variable {α : Type} {P Q : Address → Prop} {R S : Address → α → Prop} {values : List α}

theorem imp (h : InOrder P R values) (hR : ∀ p v, P p → R p v → S p v) : InOrder P S values := by
  obtain ⟨ps, hlt, hP, hv⟩ := h
  refine ⟨ps, hlt, hP, ?_⟩
  rw [List.forall₂_iff_zip] at hv ⊢
  exact ⟨hv.1, fun {p v} hpv => hR p v ((hP p).1 (List.of_mem_zip hpv).1) (hv.2 hpv)⟩

theorem congr (h : InOrder P R values) (hPQ : ∀ p, P p ↔ Q p) : InOrder Q R values := by
  rwa [← funext fun p => propext (hPQ p)]

theorem exists_value (h : InOrder P R values) {p : Address} (hp : P p) :
    ∃ v ∈ values, R p v := by
  obtain ⟨ps, -, hP, hv⟩ := h
  exact exists_of_forall₂ hv ((hP p).2 hp)

theorem exists_address (h : InOrder P R values) {v : α} (hv : v ∈ values) : ∃ p, P p ∧ R p v := by
  obtain ⟨ps, -, hP, h⟩ := h
  obtain ⟨p, hp, hR⟩ := exists_of_forall₂ h.flip hv
  exact ⟨p, (hP p).1 hp, hR⟩

/-- The same values are read off no further addresses. -/
theorem of_subset (h : InOrder P R values) (h' : InOrder Q S values) (hPQ : ∀ p, P p → Q p)
    {p : Address} (hp : Q p) : P p := by
  obtain ⟨ps, hlt, hP, hv⟩ := h
  obtain ⟨qs, -, hQ, hv'⟩ := h'
  have hsub : ps ⊆ qs := fun p hp => (hQ p).2 (hPQ p ((hP p).1 hp))
  have hperm : ps.Perm qs := (List.Nodup.subperm hlt.nodup hsub).perm_of_length_le
    (Nat.le_of_eq (hv'.length_eq.trans hv.length_eq.symm))
  exact (hP p).1 (hperm.mem_iff.2 ((hQ p).2 hp))

/-- Values read off addresses of several kinds, none of two kinds, are read off
different addresses. -/
theorem exists_nodup_flatMap {β : Type} {K : Address → Address → Prop} {f : β → List α}
    {qs : List Address} {cs : List β} (hK : ∀ p q q', K q p → K q' p → q = q')
    (h : List.Forall₂ (fun q c => InOrder (K q) R (f c)) qs cs) (hq : qs.Nodup) :
    ∃ ps : List Address, ps.Nodup ∧ (∀ p, p ∈ ps ↔ ∃ q ∈ qs, K q p) ∧
      List.Forall₂ R ps (cs.flatMap f) := by
  induction h with
  | nil => exact ⟨[], List.nodup_nil, by simp, .nil⟩
  | @cons q c qs cs hc _ ih =>
    obtain ⟨hqs, hq⟩ := List.nodup_cons.1 hq
    obtain ⟨ps, hps, hmem, hv⟩ := ih hq
    obtain ⟨rs, hlt, hr, hw⟩ := hc
    refine ⟨rs ++ ps, ?_, fun p => ?_, ?_⟩
    · refine List.nodup_append.2 ⟨hlt.nodup, hps, ?_⟩
      rintro p hp _ hp' rfl
      obtain ⟨q', hq', hk⟩ := (hmem p).1 hp'
      exact hqs (hK p q q' ((hr p).1 hp) hk ▸ hq')
    · rw [List.mem_append, hr, hmem]
      simp
    · rw [List.flatMap_cons]
      exact List.rel_append hw hv

end InOrder

namespace Element

/-- An element with this name below the root. -/
def IsNamedAt (root : Element) (name : String) (p : Address) : Prop :=
  p ≠ [] ∧ ∃ e, root.at? p = some e ∧ e.name = name

/-- The value is what `read` gives for the element at an address. -/
def ReadAt {α : Type} (root : Element) (read : Element → α) (p : Address) (value : α) : Prop :=
  ∃ e, root.at? p = some e ∧ value = read e

theorem inOrder_selected {α : Type} (root : Element) (keep : List Element → Element → Bool)
    (read : Element → α) :
    InOrder (fun p => ∃ above e, root.way? p = some (above ++ [e]) ∧ keep above e)
      (root.ReadAt read) ((root.selected keep).map fun s => read s.element) := by
  refine ⟨(root.selected keep).map Site.address, ?_, fun p => ?_, ?_⟩
  · exact (pairwise_sites root).sublist (List.filter_sublist.map _)
  · simp only [selected, List.mem_map, List.mem_filter]
    constructor
    · rintro ⟨s, ⟨hs, hk⟩, rfl⟩
      exact ⟨s.above, s.element, mem_sites_iff.1 hs, hk⟩
    · rintro ⟨above, e, hw, hk⟩
      exact ⟨⟨p, above, e⟩, ⟨mem_sites_iff.2 hw, hk⟩, rfl⟩
  · rw [List.forall₂_map_left_iff, List.forall₂_map_right_iff, List.forall₂_same]
    intro s hs
    exact ⟨s.element, at?_of_way? (mem_sites_iff.1 (List.mem_filter.1 hs).1), rfl⟩

/-- An address below the root is one with a way to it. -/
theorem exists_at?_iff_way? {root : Element} {Q : Element → Prop} {p : Address} :
    (p ≠ [] ∧ ∃ e, root.at? p = some e ∧ Q e) ↔
      ∃ above e, root.way? p = some (above ++ [e]) ∧ Q e := by
  constructor
  · rintro ⟨hp, e, he, hn⟩
    obtain ⟨above, hw⟩ := exists_way?_of_at? hp he
    exact ⟨above, e, hw, hn⟩
  · rintro ⟨above, e, hw, hn⟩
    refine ⟨?_, e, at?_of_way? hw, hn⟩
    rintro rfl
    simp [way?] at hw

theorem isNamedAt_iff_way? {root : Element} {name : String} {p : Address} :
    root.IsNamedAt name p ↔ ∃ above e, root.way? p = some (above ++ [e]) ∧ e.name = name :=
  exists_at?_iff_way?

/-- What satisfies `q` below an element is found in order. -/
theorem inOrder_filter_descendants {α : Type} (e : Element) (q : Element → Bool)
    (read : Element → α) :
    InOrder (fun p => p ≠ [] ∧ ∃ x, e.at? p = some x ∧ q x) (e.ReadAt read)
      ((e.descendants.filter q).map read) := by
  rw [filter_descendants_eq_selected, List.map_map]
  exact (inOrder_selected e (fun _ x => q x) read).congr fun p => exists_at?_iff_way?.symm

theorem inOrder_descendantsNamed {α : Type} (e : Element) (name : String) (read : Element → α) :
    InOrder (e.IsNamedAt name) (e.ReadAt read) ((e.descendantsNamed name).map read) := by
  refine (inOrder_filter_descendants e (·.name == name) read).congr fun p => ?_
  simp only [beq_iff_eq, IsNamedAt]

/-- What is read below an element is read below each element above it. -/
theorem inOrder_below {α : Type} {root e : Element} {q : Address} {P : Address → Prop}
    {read : Element → α} {values : List α} (hq : root.at? q = some e)
    (h : InOrder P (e.ReadAt read) values) :
    InOrder (fun p => ∃ r, p = q ++ r ∧ P r) (root.ReadAt read) values := by
  obtain ⟨ps, hlt, hP, hv⟩ := h
  refine ⟨ps.map (q ++ ·), ?_, fun p => ?_, ?_⟩
  · exact hlt.map _ fun _ _ => List.append_left_lt
  · simp only [List.mem_map, hP, and_comm, eq_comm]
  · refine List.forall₂_map_left_iff.2 (hv.imp fun p v => ?_)
    rintro ⟨x, hx, rfl⟩
    exact ⟨x, by rw [at?_append, hq, Option.bind_some, hx], rfl⟩

theorem exists_isNamedAt_append_iff {root e : Element} {name : String} {q p : Address}
    (hq : root.at? q = some e) :
    (∃ r, p = q ++ r ∧ e.IsNamedAt name r) ↔ root.IsNamedAt name p ∧ q <+: p ∧ q ≠ p := by
  have ha (r : Address) : root.at? (q ++ r) = e.at? r := by
    rw [at?_append, hq, Option.bind_some]
  constructor
  · rintro ⟨r, rfl, hr, x, hx, hn⟩
    exact ⟨⟨by simp [hr], x, (ha r).trans hx, hn⟩, List.prefix_append q r, by simpa using hr⟩
  · rintro ⟨⟨-, x, hx, hn⟩, ⟨r, rfl⟩, hne⟩
    exact ⟨r, rfl, by simpa using hne, x, (ha r).symm.trans hx, hn⟩

end Element

end JobAtlas
