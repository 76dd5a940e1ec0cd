import Mathlib.Data.List.Forall2
import JobAtlas.Proofs.Graph.Dependency

/-!
# What goes into components and out of them

The inputs of a component are the sources of the links to it that carry rows, and
its outputs are the targets of those from it and, before them, of the cells of its
own `CONNECTION` tables that carry rows. Where several components have one name,
the last one counts, but the edges that the others declare stay in the graph.

* `countP_dataFlows`: the links that carry rows, between two names;
* `count_outputsOf`: each name among the outputs of a component;
* `find?_ofList_last`: the component that a name stands for;
* `balances_ofJob`: what these say of the graph of a job.
-/

namespace JobAtlas.Graph

/-! ## Links and cells that carry rows -/

/-- The links of a job from one component to another that carry rows. -/
def linkCount (j : Job) (a b : String) : Nat :=
  j.links.countP fun l => l.source = some a ∧ l.target = some b ∧
    l.connector ∈ [some "FLOW", some "FLOW_MAIN", some "FLOW_MERGE", some "FLOW_REF"]

/-- The cells of the `CONNECTION` tables of a component that carry rows to another. -/
def cellCount (c : Component) (b : String) : Nat :=
  ((c.tables "CONNECTION").flatMap (·.cells)).countP fun cell =>
    cell.value = b ∧ cell.reference ∈ [some "FLOW", some "FLOW_MAIN"]

variable {j : Job} {c : Component} {a b : String}

theorem countP_dataFlows :
    (dataFlows j).countP (fun f => f.source == a && f.target == b) = linkCount j a b := by
  rw [dataFlows, flows, List.countP_filter, List.countP_filterMap, linkCount]
  refine List.countP_congr fun l _ => ?_
  obtain ⟨source, target, label, connector⟩ := l
  cases source <;> cases target <;> cases connector <;>
    simp [Flow.ofLink?, dataFlowKinds, and_assoc]

theorem count_inputsOf : (inputsOf j b).count a = linkCount j a b := by
  rw [inputsOf, List.count_eq_countP, List.countP_map, List.countP_filter, ← countP_dataFlows]
  rfl

/-- An edge that a component declares carries rows to another component, if this
has a name. -/
theorem count_declared :
    (((declaredEdges c).filter (dataEdgeKinds.contains ·.kind)).map (·.target)).count b =
      if b ≠ "" ∧ b ≠ c.name then cellCount c b else 0 := by
  rw [declaredEdges, List.count_eq_countP, List.countP_map, List.countP_filter, List.countP_map,
    List.countP_filter, cellCount]
  have hkind : ∀ reference : Option String,
      dataEdgeKinds.contains (reference.getD defaultEdgeKind) = true ↔
        reference ∈ [some "FLOW", some "FLOW_MAIN"] := by
    intro reference
    cases reference <;> simp [dataEdgeKinds, defaultEdgeKind]
  split
  · next hb =>
    refine List.countP_congr fun cell _ => ?_
    simp only [Function.comp_apply, Bool.and_eq_true, beq_iff_eq, decide_eq_true_eq, hkind]
    exact and_iff_left_of_imp fun h => h.1 ▸ hb
  · next hb =>
    refine List.countP_eq_zero.2 fun cell _ h => hb ?_
    simp only [Function.comp_apply, Bool.and_eq_true, beq_iff_eq, decide_eq_true_eq] at h
    exact h.1.1 ▸ h.2

theorem count_outputsOf : (outputsOf j c).count b =
    linkCount j c.name b + if b ≠ "" ∧ b ≠ c.name then cellCount c b else 0 := by
  rw [outputsOf, List.count_append, count_declared, Nat.add_comm, List.count_eq_countP,
    List.countP_map, List.countP_filter, ← countP_dataFlows]
  refine congrArg (· + _) (List.countP_congr fun f _ => ?_)
  rw [Function.comp_apply, Bool.and_comm]

/-! ## Components by name -/

/-- A component is the last one of its name. -/
def IsLastNamed (cs : List Component) (name : String) (c : Component) : Prop :=
  ∃ before after, cs = before ++ c :: after ∧ c.name = name ∧ ∀ x ∈ after, x.name ≠ name

theorem find?_ofList_last {α : Type} {f : Component → α} {cs : List Component} {x : α}
    (h : (SortedMap.ofList (cs.map fun c => (c.name, f c))).find? a = some x) :
    ∃ c, IsLastNamed cs a c ∧ x = f c := by
  induction cs with
  | nil => cases h
  | cons c cs ih =>
    rw [List.map_cons, ← List.singleton_append, SortedMap.find?_ofList_append,
      Option.or_eq_some_iff] at h
    rcases h with h | ⟨hnone, h⟩
    · obtain ⟨c', ⟨before, after, rfl, hn, ha⟩, hx⟩ := ih h
      exact ⟨c', ⟨c :: before, after, rfl, hn, ha⟩, hx⟩
    · obtain ⟨rfl, rfl⟩ : a = c.name ∧ f c = x := by
        simpa [SortedMap.find?_ofList, SortedMap.findIn] using h
      refine ⟨c, ⟨[], cs, rfl, rfl, fun x hx hn => ?_⟩, rfl⟩
      have hk : c.name ∈ (SortedMap.ofList (cs.map fun c => (c.name, f c))).keys :=
        SortedMap.mem_keys_ofList.2 (List.mem_map.2 ⟨_, List.mem_map_of_mem hx, hn⟩)
      rw [SortedMap.mem_keys_iff, hnone] at hk
      cases hk

/-! ## The graph of a job -/

/-- A flow has the ends of a link, and its texts where it has them. -/
structure Flow.IsOf (f : Flow) (l : Link) : Prop where
  source : l.source = some f.source
  target : l.target = some f.target
  kind : l.connector = some f.kind ∨ l.connector = none ∧ f.kind = ""
  label : l.label = some f.label ∨ l.label = none ∧ f.label = ""

/-- An edge leads from a component to what a cell of it names. -/
structure Edge.IsOf (e : Edge) (name : String) (cell : Cell) : Prop where
  source : e.source = name
  target : e.target = cell.value
  kind : cell.reference = some e.kind ∨ cell.reference = none ∧ e.kind = "CONNECTION_TYPE"

/-- The cells of a job's `CONNECTION` tables that name another component, each with
the name of its own. -/
def connectionCells (j : Job) : List (String × Cell) :=
  j.components.flatMap fun c =>
    (((c.tables "CONNECTION").flatMap (·.cells)).filter fun cell =>
      cell.value ≠ "" ∧ cell.value ≠ c.name).map fun cell => (c.name, cell)

/-- What goes into the components of a graph and out of them is what the job says. -/
structure Dependency.Balances (g : Dependency) (j : Job) : Prop where
  names : ∀ a, a ∈ g.components.keys ↔ ∃ c ∈ j.components, c.name = a
  vertices : ∀ a v, g.components.find? a = some v → ∃ c, IsLastNamed j.components a c ∧
    v.kind = c.kind ∧ v.position = c.position ∧
    ∀ b, v.inputs.count b = linkCount j b a ∧
      v.outputs.count b = linkCount j a b + if b ≠ "" ∧ b ≠ a then cellCount c b else 0
  flows : List.Forall₂ (fun l f => f.IsOf l)
    (j.links.filter fun l => l.source.isSome && l.target.isSome) g.flows
  connections : List.Forall₂ (fun p e => e.IsOf p.1 p.2) (connectionCells j) g.connections

theorem forall₂_flows (j : Job) : List.Forall₂ (fun l f => Flow.IsOf f l)
    (j.links.filter fun l => l.source.isSome && l.target.isSome) (flows j) := by
  rw [flows]
  induction j.links with
  | nil => exact .nil
  | cons l links ih =>
    obtain ⟨source, target, label, connector⟩ := l
    cases source <;> cases target
    case some.some a b =>
      refine .cons ⟨rfl, rfl, ?_, ?_⟩ ih
      · cases connector <;> simp
      · cases label <;> simp
    all_goals exact ih

theorem forall₂_connections (j : Job) :
    List.Forall₂ (fun p e => Edge.IsOf e p.1 p.2) (connectionCells j)
      (j.components.flatMap declaredEdges) := by
  have h : j.components.flatMap declaredEdges = (connectionCells j).map fun p =>
      ⟨p.1, p.2.value, p.2.reference.getD defaultEdgeKind⟩ := by
    rw [connectionCells, List.map_flatMap]
    simp only [List.map_map]
    rfl
  rw [h]
  refine List.forall₂_map_right_iff.2 (List.forall₂_same.2 fun p _ => ⟨rfl, rfl, ?_⟩)
  cases p.2.reference <;> simp [defaultEdgeKind]

/-- In the graph of a job each name stands for the last component that bears it. Its
inputs have each name as often as a link from there carries rows, and its outputs
have each name as often as a link or, unless the name is empty or its own, a cell of
the component carries rows there. The flows are the links with two ends, and the
edges the cells that name another component, all in document order. -/
theorem balances_ofJob (j : Job) : (Dependency.ofJob j).Balances j where
  names a := by
    show a ∈ (SortedMap.ofList _).keys ↔ _
    rw [SortedMap.mem_keys_ofList, List.map_map, List.mem_map]
    rfl
  vertices a v h := by
    obtain ⟨c, hc, rfl⟩ := find?_ofList_last h
    have hname : c.name = a := by
      obtain ⟨before, after, -, hn, -⟩ := hc
      exact hn
    subst hname
    exact ⟨c, hc, rfl, rfl, fun b => ⟨count_inputsOf, count_outputsOf⟩⟩
  flows := forall₂_flows j
  connections := forall₂_connections j

/-- A component with a cell that carries rows to the empty name, which is the name of
another component. -/
def unnamedJob : Job where
  name := "load"
  components :=
    [component "" [], component "read" [⟨"CONNECTION", some "TABLE", "", [⟨some "FLOW", ""⟩]⟩]]
  parameters := []
  links := []
  contexts := []
where
  component (name : String) (parameters : List Parameter) : Component :=
    { kind := "tMap", name, position := {}, parameters, schemas := [], mappers := [], links := [] }

/-- A cell does not carry rows to a component without a name. -/
theorem not_count_outputs_unnamed :
    ¬ ∀ (j : Job) (a b : String) (v : Vertex) (c : Component),
      (Dependency.ofJob j).components.find? a = some v →
      b ∈ (Dependency.ofJob j).components.keys → IsLastNamed j.components a c →
      v.outputs.count b = linkCount j a b + if b ≠ a then cellCount c b else 0 := by
  intro h
  have hc : IsLastNamed unnamedJob.components "read"
      (unnamedJob.component "read" [⟨"CONNECTION", some "TABLE", "", [⟨some "FLOW", ""⟩]⟩]) :=
    ⟨[unnamedJob.component "" []], [], rfl, rfl, fun _ hx => by cases hx⟩
  have hcount := h unnamedJob "read" "" ⟨"tMap", [], [], {}⟩ _ (by decide +kernel)
    (by decide +kernel) hc
  revert hcount
  decide +kernel

end JobAtlas.Graph
