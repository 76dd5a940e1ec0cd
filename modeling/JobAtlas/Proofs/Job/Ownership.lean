import JobAtlas.Proofs.Job.Parts
import JobAtlas.Sql.Statement

/-!
# Whose a parameter is

A component is read with every parameter below its node, however deep, and so with
those of the components nested in it. `attributed_iff` says when this leaves every
parameter with the nearest node around it: if and only if no parameter stands in
two components. `not_attributed_nestedNode` is a job in which one does.
-/

namespace JobAtlas

open Element

namespace Job

/-- The node nearest to an address, of all nodes below the root that stand on the way. -/
def IsNearestNode (root : Element) (q p : Address) : Prop :=
  root.IsNamedAt "node" q ∧ q <+: p ∧
    ∀ q', root.IsNamedAt "node" q' → q' <+: p → q' <+: q

/-- A parameter whose nearest node is the one at `q`. -/
def IsParameterOf (root : Element) (q p : Address) : Prop :=
  root.IsNamedAt "elementParameter" p ∧ IsNearestNode root q p

/-- No parameter stands in two components. -/
def SingleOwners (root : Element) : Prop :=
  ∀ p q q', root.IsNamedAt "elementParameter" p → IsComponentAt root q → IsComponentAt root q' →
    q <+: p → q' <+: p → q = q'

/-- What is read off the component at `q`, from its own parameters only. -/
structure HoldsItsOwn (root : Element) (job : String) (q : Address) (c : Component) : Prop where
  reading : root.ReadAt Component.ofElement q c
  parameters : InOrder (IsParameterOf root q) (root.ReadAt Parameter.ofElement) c.parameters
  /-- A name that is not an attribute is one of the component's own parameters. -/
  name : ∀ e, root.at? q = some e → e.attr? "uniqueName" = none →
    (∃ p x, IsParameterOf root q p ∧ root.at? p = some x ∧
      x.attrOrEmpty "name" = "UNIQUE_NAME" ∧ c.name = unquoted (x.attrOrEmpty "value")) ∨
    (∀ p x, IsParameterOf root q p → root.at? p = some x →
      x.attrOrEmpty "name" ≠ "UNIQUE_NAME") ∧ c.name = ""
  statements : ∀ s ∈ Sql.Statement.ofComponent job c, ∃ p x, IsParameterOf root q p ∧
    root.at? p = some x ∧ s = Sql.Statement.ofRaw job c (x.attrOrEmpty "value")

/-- Every parameter is the job's own or belongs to the nearest node around it, and
to no other. -/
structure Attributed (root : Element) (job : Job) : Prop where
  own : InOrder (IsOwnPartAt root "elementParameter") (root.ReadAt Parameter.ofElement)
    job.parameters
  components : InOrder (IsComponentAt root) (HoldsItsOwn root job.name) job.components
  /-- No element is listed twice. -/
  all : ∃ ps : List Address, ps.Nodup ∧
    (∀ p, p ∈ ps ↔ IsOwnPartAt root "elementParameter" p ∨
      ∃ q, IsComponentAt root q ∧ IsParameterOf root q p) ∧
    List.Forall₂ (root.ReadAt Parameter.ofElement) ps job.allParameters

/-! ## Nodes on the way -/

theorem IsComponentAt.isNamedAt {root : Element} {q : Address} (h : IsComponentAt root q) :
    root.IsNamedAt "node" q := by
  obtain ⟨above, e, hw, hn, -⟩ := h
  exact isNamedAt_iff_way?.2 ⟨above, e, hw, hn⟩

theorem name_eq_of_isNamedAt {root : Element} {name name' : String} {p : Address}
    (h : root.IsNamedAt name p) (h' : root.IsNamedAt name' p) : name = name' := by
  obtain ⟨-, e, he, rfl⟩ := h
  obtain ⟨-, e', he', rfl⟩ := h'
  rw [Option.some.inj (he.symm.trans he')]

/-- On the way to an address in a component, every node is a component. -/
theorem isComponentAt_on_way {root : Element} {name : String} {p q q' : Address}
    (hp : root.IsNamedAt name p) (hq : IsComponentAt root q) (hq' : root.IsNamedAt "node" q')
    (h : q <+: p) (h' : q' <+: p) : IsComponentAt root q' := by
  obtain ⟨above, x, hw, -⟩ := isNamedAt_iff_way?.1 hp
  obtain ⟨aboveQ, e, hwq, -, o, ho, hn⟩ := hq
  obtain ⟨aboveQ', e', hwq', hn'⟩ := isNamedAt_iff_way?.1 hq'
  -- the node is a part, and so the outermost part on the way to it is that of the whole way
  obtain ⟨o', ho'⟩ : ∃ o', (aboveQ' ++ [e']).find? isPart = some o' := by
    rw [← Option.isSome_iff_exists, List.find?_isSome]
    exact ⟨e', by simp, isPart_of_name_eq_node hn'⟩
  have hwhole : (above ++ [x]).find? isPart = some o := (way?_mono h hwq hw).find?_eq_some ho
  have hwhole' : (above ++ [x]).find? isPart = some o' := (way?_mono h' hwq' hw).find?_eq_some ho'
  obtain rfl : o = o' := Option.some.inj (hwhole.symm.trans hwhole')
  exact ⟨aboveQ', e', hwq', hn', o, ho', hn⟩

/-- No node stands above a part of the job itself. -/
theorem not_isOwnPartAt_below_node {root : Element} {name : String} {p q : Address}
    (hq : root.IsNamedAt "node" q) (h : q <+: p) (hne : q ≠ p) : ¬ IsOwnPartAt root name p := by
  rintro ⟨above, e, hw, -, hclear⟩
  obtain ⟨above', n, hwq, hn⟩ := isNamedAt_iff_way?.1 hq
  rcases List.prefix_concat_iff.1 (way?_mono h hwq hw) with heq | hpre
  · have hlength : q.length = p.length := by
      rw [← length_way? hw, ← length_way? hwq, heq]
    exact hne (h.eq_of_length hlength)
  · have hmem : n ∈ above := hpre.subset (by simp)
    exact hclear n hmem (isPart_of_name_eq_node hn)

theorem IsNearestNode.eq {root : Element} {p q q' : Address} (h : IsNearestNode root q p)
    (h' : IsNearestNode root q' p) : q = q' := by
  have hle : q' <+: q := h.2.2 q' h'.1 h'.2.1
  exact (h'.2.2 q h.1 h.2.1).eq_of_length_le hle.length_le

/-! ## The parameters of a component -/

/-- A component is read with all parameters below its node. -/
theorem inOrder_parametersBelow {root e : Element} {q : Address} (hq : root.at? q = some e) :
    InOrder (fun p => root.IsNamedAt "elementParameter" p ∧ q <+: p ∧ q ≠ p)
      (root.ReadAt Parameter.ofElement) (Component.ofElement e).parameters :=
  (inOrder_below hq (inOrder_descendantsNamed e "elementParameter" Parameter.ofElement)).congr
    fun _ => exists_isNamedAt_append_iff hq

theorem IsParameterOf.below {root : Element} {p q : Address} (h : IsParameterOf root q p) :
    root.IsNamedAt "elementParameter" p ∧ q <+: p ∧ q ≠ p := by
  refine ⟨h.1, h.2.2.1, ?_⟩
  rintro rfl
  exact absurd (name_eq_of_isNamedAt h.2.1 h.1) (by decide)

theorem isParameterOf_of_below {root : Element} {p q : Address} (h : SingleOwners root)
    (hq : IsComponentAt root q) (hp : root.IsNamedAt "elementParameter" p) (hqp : q <+: p) :
    IsParameterOf root q p := by
  refine ⟨hp, hq.isNamedAt, hqp, fun q' hq' hqp' => ?_⟩
  have heq : q = q' := h p q q' hp hq (isComponentAt_on_way hp hq hq' hqp hqp') hqp hqp'
  exact heq ▸ List.prefix_rfl

/-- A name that is not an attribute comes from one of the parameters. -/
theorem nameOf_eq {e : Element} (ps : List Parameter) (h : e.attr? "uniqueName" = none) :
    (∃ v ∈ ps, v.name = "UNIQUE_NAME" ∧ Component.nameOf e ps = unquoted v.value) ∨
      (∀ v ∈ ps, v.name ≠ "UNIQUE_NAME") ∧ Component.nameOf e ps = "" := by
  rw [Component.nameOf, h]
  dsimp only
  split
  · next v hv =>
    exact .inl ⟨v, List.mem_of_find?_eq_some hv, by simpa using List.find?_some hv, rfl⟩
  · next hv => exact .inr ⟨by simpa using hv, rfl⟩

theorem exists_parameter_of_mem_ofComponent {job : String} {c : Component} {s : Sql.Statement}
    (h : s ∈ Sql.Statement.ofComponent job c) :
    ∃ v ∈ c.parameters, s = Sql.Statement.ofRaw job c v.value := by
  simp only [Sql.Statement.ofComponent, Component.parametersNamed, List.mem_map, List.mem_filter,
    List.mem_flatMap] at h
  obtain ⟨v, ⟨⟨_, -, hv, -⟩, -⟩, rfl⟩ := h
  exact ⟨v, hv, rfl⟩

/-- What else is read off a component is read off its parameters. -/
theorem holdsItsOwn_of_parameters {root : Element} {job : String} {q : Address} {c : Component}
    (hc : root.ReadAt Component.ofElement q c)
    (hp : InOrder (IsParameterOf root q) (root.ReadAt Parameter.ofElement) c.parameters) :
    HoldsItsOwn root job q c where
  reading := hc
  parameters := hp
  name := by
    intro e he hu
    obtain ⟨e', he', rfl⟩ := hc
    obtain rfl : e = e' := Option.some.inj (he.symm.trans he')
    rcases nameOf_eq (Component.ofElement e).parameters hu with ⟨v, hv, hn, h⟩ | ⟨hn, h⟩
    · obtain ⟨p, hpq, x, hx, rfl⟩ := hp.exists_address hv
      exact .inl ⟨p, x, hpq, hx, hn, h⟩
    · refine .inr ⟨fun p x hpq hx => ?_, h⟩
      obtain ⟨v, hv, x', hx', rfl⟩ := hp.exists_value hpq
      obtain rfl : x = x' := Option.some.inj (hx.symm.trans hx')
      exact hn _ hv
  statements := by
    intro s hs
    obtain ⟨v, hv, rfl⟩ := exists_parameter_of_mem_ofComponent hs
    obtain ⟨p, hpq, x, hx, rfl⟩ := hp.exists_address hv
    exact ⟨p, x, hpq, hx, rfl⟩

theorem holdsItsOwn {root : Element} {job : String} {q : Address} {c : Component}
    (h : SingleOwners root) (hq : IsComponentAt root q)
    (hc : root.ReadAt Component.ofElement q c) : HoldsItsOwn root job q c := by
  refine holdsItsOwn_of_parameters hc ?_
  obtain ⟨e, he, rfl⟩ := hc
  exact (inOrder_parametersBelow he).congr fun p =>
    ⟨fun hp => isParameterOf_of_below h hq hp.1 hp.2.1, IsParameterOf.below⟩

/-! ## The parameters of a job -/

/-- If each component holds its own parameters, none is listed twice. -/
theorem exists_nodup_allParameters {root : Element} {job : Job}
    (own : InOrder (IsOwnPartAt root "elementParameter") (root.ReadAt Parameter.ofElement)
      job.parameters)
    (components : InOrder (IsComponentAt root) (HoldsItsOwn root job.name) job.components) :
    ∃ ps : List Address, ps.Nodup ∧
      (∀ p, p ∈ ps ↔ IsOwnPartAt root "elementParameter" p ∨
        ∃ q, IsComponentAt root q ∧ IsParameterOf root q p) ∧
      List.Forall₂ (root.ReadAt Parameter.ofElement) ps job.allParameters := by
  obtain ⟨os, hos, ho, hv⟩ := own
  obtain ⟨qs, hqs, hq, hc⟩ := components
  obtain ⟨ps, hps, hp, hw⟩ := InOrder.exists_nodup_flatMap (f := (·.parameters))
    (fun p q q' h h' => IsNearestNode.eq h.2 h'.2) (hc.imp fun _ _ h => h.parameters) hqs.nodup
  refine ⟨os ++ ps, List.nodup_append.2 ⟨hos.nodup, hps, ?_⟩, fun p => ?_, List.rel_append hv hw⟩
  · rintro p hpo _ hpp rfl
    obtain ⟨q, -, hpq⟩ := (hp p).1 hpp
    exact not_isOwnPartAt_below_node hpq.2.1 hpq.2.2.1 hpq.below.2.2 ((ho p).1 hpo)
  · rw [List.mem_append, ho, hp]
    simp only [hq]

theorem attributed_of_singleOwners (name : String) {root : Element} (h : SingleOwners root) :
    Attributed root (ofElement name root) := by
  have own : InOrder (IsOwnPartAt root "elementParameter") (root.ReadAt Parameter.ofElement)
      (ofElement name root).parameters :=
    inOrder_ownParts (fun e he => by simp [isPart, he]) root Parameter.ofElement
  have components : InOrder (IsComponentAt root) (HoldsItsOwn root name)
      (ofElement name root).components :=
    (inOrder_components name root).imp fun q c => holdsItsOwn h
  exact ⟨own, components, exists_nodup_allParameters own components⟩

theorem singleOwners_of_attributed {name : String} {root : Element}
    (h : Attributed root (ofElement name root)) : SingleOwners root := by
  have key : ∀ p q q', root.IsNamedAt "elementParameter" p → IsComponentAt root q →
      IsComponentAt root q' → q <+: p → q' <+: p → q' <+: q := by
    intro p q q' hp hq hq' hqp hqp'
    obtain ⟨c, -, hc⟩ := h.components.exists_value hq
    obtain ⟨e, he, rfl⟩ := hc.reading
    have hne : q ≠ p := by
      rintro rfl
      exact absurd (name_eq_of_isNamedAt hq.isNamedAt hp) (by decide)
    -- everything below the node is listed, and as many values as there are own parameters
    have hown : IsParameterOf root q p :=
      hc.parameters.of_subset (inOrder_parametersBelow he) (fun _ => IsParameterOf.below)
        ⟨hp, hqp, hne⟩
    exact hown.2.2.2 q' hq'.isNamedAt hqp'
  intro p q q' hp hq hq' hqp hqp'
  have hle : q' <+: q := key p q q' hp hq hq' hqp hqp'
  exact (key p q' q hp hq' hq hqp' hqp).eq_of_length_le hle.length_le

/-- The parameters of a job are told apart by their nearest nodes if and only if no
parameter stands in two components. -/
theorem attributed_iff (name : String) (root : Element) :
    Attributed root (ofElement name root) ↔ SingleOwners root :=
  ⟨singleOwners_of_attributed, attributed_of_singleOwners name⟩

/-- A component with the name and the query of the component nested in it. -/
def nestedNode : Element :=
  ⟨"job", [], [⟨"node", [("componentName", "tRunJob")],
    [⟨"node", [("componentName", "tDBRow")],
      [⟨"elementParameter", [("name", "UNIQUE_NAME"), ("value", "inner")], []⟩,
        ⟨"elementParameter", [("name", "QUERY"), ("value", "SELECT x FROM t")], []⟩]⟩]⟩]⟩

theorem not_attributed_nestedNode :
    ¬ Attributed nestedNode (ofElement "Load" nestedNode) ∧
      (ofElement "Load" nestedNode).components.map (fun c => (c.kind, c.name)) =
        [("tRunJob", "inner"), ("tDBRow", "inner")] ∧
      (ofElement "Load" nestedNode).allParameters.map (·.name) =
        ["UNIQUE_NAME", "QUERY", "UNIQUE_NAME", "QUERY"] ∧
      (ofElement "Load" nestedNode).components.map
          (fun c => (Sql.Statement.ofComponent "Load" c).map (·.raw)) =
        [["SELECT x FROM t"], ["SELECT x FROM t"]] := by
  refine ⟨fun h => ?_, ?_, ?_, ?_⟩
  · have hp : nestedNode.IsNamedAt "elementParameter" [0, 0, 0] := ⟨by decide, _, rfl, rfl⟩
    have hq : IsComponentAt nestedNode [0] := ⟨[], _, rfl, rfl, _, rfl, rfl⟩
    have hq' : IsComponentAt nestedNode [0, 0] := ⟨[_], _, rfl, rfl, _, rfl, rfl⟩
    exact absurd (singleOwners_of_attributed h _ _ _ hp hq hq' (by decide) (by decide)) (by decide)
  all_goals decide +kernel

end Job

end JobAtlas
