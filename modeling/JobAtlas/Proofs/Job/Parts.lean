import JobAtlas.Proofs.Job.Pruning
import JobAtlas.Proofs.Markup.Address

/-!
# Where the parts of a job stand

A job is collected by a walk that stops at the outermost elements of four kinds,
and by a second walk through each node that the first one finds. `ofElement_inOrder`
says at which addresses this leads, whatever stands around them: the components
are the nodes whose outermost part on the way is a node, and the other parts have
no part above them. Each is read once, in document order.

Both are selections by the way to an element (`isComponent`, `isOwnPart`) that see
nothing in front of the first part on the way. Such a selection goes through the
outermost parts (`map_element_selected_eq_partsOf`), and `kept_isComponent` and
`kept_isOwnPart` say what it keeps of each.
-/

namespace JobAtlas

namespace Element

/-! ## The outermost elements of a kind -/

theorem flatMap_outermost_of_children {α : Type} {p : Element → Bool} {f : Element → List α}
    (h : ∀ e, ¬ p e → f e = e.children.flatMap f) (e : Element)
    (ih : (outermostAll p e.children).flatMap f = e.children.flatMap f) :
    (e.outermost p).flatMap f = f e := by
  rw [outermost_eq]
  split
  · exact List.flatMap_singleton f e
  · next hp => rw [ih, h e hp]

theorem of_mem_outermost_of_children {p : Element → Bool} {x : Element} (e : Element)
    (ih : x ∈ outermostAll p e.children → p x) (hx : x ∈ e.outermost p) : p x := by
  rw [outermost_eq] at hx
  split at hx
  · next hp => rwa [List.mem_singleton.1 hx]
  · exact ih hx

mutual

/-- What goes through the elements that do not satisfy `p` is found at the
outermost elements that do. -/
theorem flatMap_outermost {α : Type} {p : Element → Bool} {f : Element → List α}
    (h : ∀ e, ¬ p e → f e = e.children.flatMap f) :
    ∀ e : Element, (e.outermost p).flatMap f = f e
  | ⟨_, _, children⟩ => flatMap_outermost_of_children h _ (flatMap_outermostAll h children)

theorem flatMap_outermostAll {α : Type} {p : Element → Bool} {f : Element → List α}
    (h : ∀ e, ¬ p e → f e = e.children.flatMap f) :
    ∀ es : List Element, (outermostAll p es).flatMap f = es.flatMap f
  | [] => by rw [outermostAll]
  | e :: es => by
    rw [outermostAll, List.flatMap_append, flatMap_outermost h e, flatMap_outermostAll h es,
      List.flatMap_cons]

end

mutual

theorem of_mem_outermost {p : Element → Bool} {x : Element} :
    ∀ e : Element, x ∈ e.outermost p → p x
  | ⟨_, _, children⟩ => of_mem_outermost_of_children _ (of_mem_outermostAll children)

theorem of_mem_outermostAll {p : Element → Bool} {x : Element} :
    ∀ es : List Element, x ∈ outermostAll p es → p x
  | [], h => by simp [outermostAll] at h
  | e :: es, h => by
    rw [outermostAll] at h
    rcases List.mem_append.1 h with h | h
    · exact of_mem_outermost e h
    · exact of_mem_outermostAll es h

end

end Element

open Element

namespace Job

/-! ## Parts and the way to them -/

/-- A node below the root such that the outermost part on the way, which may be
the node itself, is a node. -/
def IsComponentAt (root : Element) (p : Address) : Prop :=
  ∃ above e, root.way? p = some (above ++ [e]) ∧ e.name = "node" ∧
    ∃ o, (above ++ [e]).find? isPart = some o ∧ o.name = "node"

/-- An element with this name below the root that no part stands above. -/
def IsOwnPartAt (root : Element) (name : String) (p : Address) : Prop :=
  ∃ above e, root.way? p = some (above ++ [e]) ∧ e.name = name ∧ ∀ a ∈ above, ¬ isPart a

def isComponent (above : List Element) (e : Element) : Bool :=
  e.name == "node" && ((above ++ [e]).find? isPart).any (·.name == "node")

def isOwnPart (name : String) (above : List Element) (e : Element) : Bool :=
  e.name == name && !above.any isPart

theorem isComponent_iff {above : List Element} {e : Element} : isComponent above e ↔
    e.name = "node" ∧ ∃ o, (above ++ [e]).find? isPart = some o ∧ o.name = "node" := by
  rw [isComponent, Bool.and_eq_true, beq_iff_eq, Option.any_eq_true]
  simp only [beq_iff_eq]

theorem isOwnPart_iff {name : String} {above : List Element} {e : Element} :
    isOwnPart name above e ↔ e.name = name ∧ ∀ a ∈ above, ¬ isPart a := by
  simp [isOwnPart]

theorem isPart_of_name_eq_node {e : Element} (h : e.name = "node") : isPart e := by
  simp [isPart, h]

/-- An element that a selection does not see and does not keep is passed through. -/
theorem kept_of_unseen {keep : List Element → Element → Bool} {e : Element}
    (hs : keep [] e = false) (hu : ∀ above x, keep (e :: above) x = keep above x) :
    kept keep e = e.children.flatMap (kept keep) := by
  rw [kept, hs, funext fun above => funext (hu above), map_element_selected]
  rfl

/-- A selection that sees nothing in front of the first part on the way goes
through the parts of a job. -/
theorem map_element_selected_eq_partsOf {keep : List Element → Element → Bool} (root : Element)
    (hs : ∀ e, ¬ isPart e → keep [] e = false)
    (hu : ∀ e, ¬ isPart e → ∀ above x, keep (e :: above) x = keep above x) :
    (root.selected keep).map Site.element = (partsOf root).flatMap (kept keep) := by
  rw [map_element_selected, partsOf,
    flatMap_outermostAll fun e he => kept_of_unseen (hs e he) (hu e he)]

theorem name_of_mem_partsNamed {root e : Element} {name : String} (h : e ∈ partsNamed root name) :
    e.name = name := by
  rw [partsNamed, List.mem_filter] at h
  exact beq_iff_eq.1 h.2

theorem flatMap_filter_eq_flatMap {α : Type} {p : Element → Bool} {f : Element → List α}
    (es : List Element) (h : ∀ e ∈ es, ¬ p e → f e = []) :
    (es.filter p).flatMap f = es.flatMap f := by
  induction es with
  | nil => rfl
  | cons e es ih =>
    rw [List.forall_mem_cons] at h
    rw [List.filter_cons, List.flatMap_cons, ← ih h.2]
    split
    · rw [List.flatMap_cons]
    · next hp => rw [h.1 hp, List.nil_append]

theorem flatMap_partsNamed {α : Type} {f : Element → List α} {name : String} (root : Element)
    (h : ∀ o, isPart o → o.name ≠ name → f o = []) :
    (partsNamed root name).flatMap f = (partsOf root).flatMap f := by
  refine flatMap_filter_eq_flatMap _ fun o ho hn => h o (of_mem_outermostAll _ ho) ?_
  simpa using hn

/-! ## Components -/

theorem isComponent_cons {o : Element} (ho : isPart o) (above : List Element) :
    isComponent (o :: above) = fun e => e.name == "node" && o.name == "node" := by
  funext e
  rw [isComponent, List.cons_append, List.find?_cons_of_pos ho, Option.any_some]

theorem isComponent_nil {o : Element} (ho : isPart o) : isComponent [] o = (o.name == "node") := by
  rw [isComponent, List.nil_append, List.find?_cons_of_pos ho, Option.any_some, Bool.and_self]

theorem kept_isComponent {o : Element} (ho : o.name = "node") :
    kept isComponent o = o :: o.descendantsNamed "node" := by
  have hp : isPart o := isPart_of_name_eq_node ho
  rw [kept, descendantsNamed_eq_selected, isComponent_nil hp]
  simp [isComponent_cons hp, ho]

theorem kept_isComponent_of_ne {o : Element} (hp : isPart o) (ho : o.name ≠ "node") :
    kept isComponent o = [] := by
  simp [kept, selected, isComponent_nil hp, isComponent_cons hp, ho]

/-- The nodes that components are read from. -/
theorem map_element_isComponent (root : Element) :
    (root.selected isComponent).map Site.element =
      (partsNamed root "node").flatMap fun e => e :: e.descendantsNamed "node" := by
  rw [map_element_selected_eq_partsOf root ?self ?unseen,
    ← flatMap_partsNamed root fun o hp ho => kept_isComponent_of_ne hp ho]
  case self =>
    intro e he
    simp [isComponent, he]
  case unseen =>
    intro e he above x
    rw [isComponent, List.cons_append, List.find?_cons_of_neg he, isComponent]
  exact List.flatMap_congr fun o ho => kept_isComponent (name_of_mem_partsNamed ho)

/-! ## Parts of the job itself -/

theorem isOwnPart_cons {name : String} {o : Element} (ho : isPart o) (above : List Element) :
    isOwnPart name (o :: above) = fun _ => false := by
  funext e
  simp [isOwnPart, ho]

theorem kept_isOwnPart {name : String} {o : Element} (ho : isPart o) :
    kept (isOwnPart name) o = if o.name == name then [o] else [] := by
  rw [kept, funext (isOwnPart_cons ho), selected, List.filter_false, List.map_nil, List.append_nil]
  simp [isOwnPart]

/-- The elements that the parts with a name are read from. -/
theorem map_element_isOwnPart {name : String} (hn : ∀ e : Element, e.name = name → isPart e)
    (root : Element) :
    (root.selected (isOwnPart name)).map Site.element = partsNamed root name := by
  rw [map_element_selected_eq_partsOf root ?self ?unseen,
    ← flatMap_partsNamed root fun o hp ho => by rw [kept_isOwnPart hp, if_neg (by simpa using ho)]]
  case self =>
    intro e he
    simp [isOwnPart, mt (hn e) he]
  case unseen =>
    intro e he above x
    simp [isOwnPart, he]
  calc (partsNamed root name).flatMap (kept (isOwnPart name))
    _ = (partsNamed root name).flatMap fun o => [o] := by
      refine List.flatMap_congr fun o ho => ?_
      have h : o.name = name := name_of_mem_partsNamed ho
      rw [kept_isOwnPart (hn o h), if_pos (beq_iff_eq.2 h)]
    _ = partsNamed root name := List.flatMap_singleton' _

theorem inOrder_ownParts {α : Type} {name : String}
    (hn : ∀ e : Element, e.name = name → isPart e) (root : Element) (read : Element → α) :
    InOrder (IsOwnPartAt root name) (root.ReadAt read) ((partsNamed root name).map read) := by
  have h := inOrder_selected root (isOwnPart name) read
  simp only [isOwnPart_iff] at h
  rwa [← map_element_isOwnPart hn, List.map_map]

theorem inOrder_components (name : String) (root : Element) :
    InOrder (IsComponentAt root) (root.ReadAt Component.ofElement)
      (ofElement name root).components := by
  have h := inOrder_selected root isComponent Component.ofElement
  simp only [isComponent_iff] at h
  rw [ofElement, ← List.map_flatMap, ← map_element_isComponent, List.map_map]
  exact h

/-- The parts of a job are read off all addresses where they may stand, each once
and in document order: the components off the nodes whose outermost part on the way
is a node, and the job's own parameters, links and context sets off the elements of
their kind that no part stands above. -/
theorem ofElement_inOrder (name : String) (root : Element) :
    InOrder (IsComponentAt root) (root.ReadAt Component.ofElement)
      (ofElement name root).components ∧
    InOrder (IsOwnPartAt root "elementParameter") (root.ReadAt Parameter.ofElement)
      (ofElement name root).parameters ∧
    InOrder (IsOwnPartAt root "connection") (root.ReadAt Link.ofElement)
      (ofElement name root).links ∧
    InOrder (IsOwnPartAt root "context") (root.ReadAt ContextSet.ofElement)
      (ofElement name root).contexts := by
  refine ⟨inOrder_components name root, ?_, ?_, ?_⟩
  all_goals exact inOrder_ownParts (fun e he => by simp [isPart, he]) root _

/-- A node in a link is no component, one in a parameter of a node is. -/
example : (ofElement "Load" ⟨"job", [],
    [⟨"connection", [], [⟨"node", [("uniqueName", "a")], []⟩]⟩,
      ⟨"node", [("uniqueName", "b")],
        [⟨"elementParameter", [], [⟨"node", [("uniqueName", "c")], []⟩]⟩]⟩]⟩).components.map
      (·.name) = ["b", "c"] := by
  decide +kernel

end Job

end JobAtlas
