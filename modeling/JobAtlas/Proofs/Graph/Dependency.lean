import JobAtlas.Graph.Dependency
import JobAtlas.Proofs.Graph.Order

/-!
# The graph of a job

The edges of a job's graph, read off its components and links (`Feeds`), and the
order in which its components are executed:

* `mem_edges_ofJob`: the graph has the edges of the job and no other;
* `order_ofJob`: the order has every component once, and the edges between
  components go forward in it unless they have a cycle.
-/

namespace JobAtlas.Graph

open Relation

/-! ## Edges -/

/-- The names of a job's components, in the order in which they come up first. -/
def registered (j : Job) : List String := distinct (j.components.map (·.name))

/-- An edge of a job leads from `a` to `b`. Each cell of a component's
`CONNECTION` tables that names another component is an edge, and so is each link
that has both ends, whatever its kind. -/
inductive Feeds (j : Job) : String → String → Prop where
  | declared {c : Component} {p : Parameter} {cell : Cell} (hc : c ∈ j.components)
      (hp : p ∈ c.parameters) (hn : p.name = "CONNECTION") (ht : p.field = some "TABLE")
      (hcell : cell ∈ p.cells) (hv : cell.value ≠ "") (hs : cell.value ≠ c.name) :
      Feeds j c.name cell.value
  | linked {l : Link} {a b : String} (hl : l ∈ j.links) (hs : l.source = some a)
      (ht : l.target = some b) : Feeds j a b

/-- The components of a job that an edge leads from and to. -/
def Precedes (j : Job) (a b : String) : Prop :=
  Feeds j a b ∧ a ∈ registered j ∧ b ∈ registered j

/-- The ends of a graph's edges: those that components declare, then the flows. -/
def Dependency.edges (g : Dependency) : List (String × String) :=
  g.connections.map (fun e => (e.source, e.target)) ++ g.flows.map fun f => (f.source, f.target)

theorem order_eq (j : Job) : (Dependency.ofJob j).order =
    executionOrder (registered j) (Dependency.ofJob j).edges := rfl

theorem mem_declaredEdges {c : Component} {e : Edge} : e ∈ declaredEdges c ↔
    ∃ p ∈ c.parameters, (p.name = "CONNECTION" ∧ p.field = some "TABLE") ∧
      ∃ cell ∈ p.cells, (cell.value ≠ "" ∧ cell.value ≠ c.name) ∧
        ⟨c.name, cell.value, cell.reference.getD defaultEdgeKind⟩ = e := by
  simp only [declaredEdges, Component.tables, Component.parametersNamed, Parameter.isTable,
    List.mem_map, List.mem_filter, List.mem_flatMap, beq_iff_eq, decide_eq_true_eq]
  constructor
  · rintro ⟨cell, ⟨⟨p, ⟨⟨hp, hn⟩, ht⟩, hcell⟩, hv⟩, e⟩
    exact ⟨p, hp, ⟨hn, ht⟩, cell, hcell, hv, e⟩
  · rintro ⟨p, hp, ⟨hn, ht⟩, cell, hcell, hv, e⟩
    exact ⟨cell, ⟨⟨p, ⟨⟨hp, hn⟩, ht⟩, hcell⟩, hv⟩, e⟩

theorem mem_flows {j : Job} {f : Flow} : f ∈ flows j ↔
    ∃ l ∈ j.links, l.source = some f.source ∧ l.target = some f.target ∧
      l.connector.getD "" = f.kind ∧ l.label.getD "" = f.label := by
  simp only [flows, List.mem_filterMap, Flow.ofLink?]
  refine exists_congr fun l => and_congr_right' ?_
  obtain ⟨a, b, kind, label⟩ := f
  simp only [bind, Option.bind_eq_some_iff, Option.some.injEq, Flow.mk.injEq]
  constructor
  · rintro ⟨a', ha, b', hb, rfl, rfl, hk, hl⟩
    exact ⟨ha, hb, hk, hl⟩
  · rintro ⟨ha, hb, hk, hl⟩
    exact ⟨a, ha, b, hb, rfl, rfl, hk, hl⟩

theorem mem_edges_ofJob {j : Job} {a b : String} :
    (a, b) ∈ (Dependency.ofJob j).edges ↔ Feeds j a b := by
  simp only [Dependency.edges, Dependency.ofJob, List.mem_append, List.mem_map, List.mem_flatMap,
    mem_declaredEdges, mem_flows, Prod.mk.injEq]
  constructor
  · rintro (⟨_, ⟨c, hc, p, hp, ⟨hn, ht⟩, cell, hcell, ⟨hv, hs⟩, rfl⟩, rfl, rfl⟩ |
      ⟨f, ⟨l, hl, hs, ht, -⟩, rfl, rfl⟩)
    · exact .declared hc hp hn ht hcell hv hs
    · exact .linked hl hs ht
  · rintro (⟨hc, hp, hn, ht, hcell, hv, hs⟩ | ⟨hl, hs, ht⟩)
    · exact .inl ⟨_, ⟨_, hc, _, hp, ⟨hn, ht⟩, _, hcell, ⟨hv, hs⟩, rfl⟩, rfl, rfl⟩
    · exact .inr ⟨⟨_, _, _, _⟩, ⟨_, hl, hs, ht, rfl, rfl⟩, rfl, rfl⟩

/-- The edges that count for the order. -/
theorem mem_innerEdges_ofJob {j : Job} {a b : String} :
    (a, b) ∈ innerEdges (registered j) (Dependency.ofJob j).edges ↔ Precedes j a b := by
  rw [mem_innerEdges, mem_edges_ofJob, Precedes]

/-! ## Order -/

/-- The order of a job's graph has every component's name once. Without a cycle
of edges between components, each of these edges goes forward; with a cycle, the
names keep the order in which they come up first. Two jobs with the same
components whose edges differ in nothing but edges to or from other names have
the same order. -/
theorem order_ofJob (j : Job) :
    ((Dependency.ofJob j).order.Nodup ∧
      ∀ a, a ∈ (Dependency.ofJob j).order ↔ ∃ c ∈ j.components, c.name = a) ∧
    ((∀ a, ¬ TransGen (Precedes j) a a) → ∀ a b, Precedes j a b →
      (Dependency.ofJob j).order.idxOf a < (Dependency.ofJob j).order.idxOf b) ∧
    ((∃ a, TransGen (Precedes j) a a) → (Dependency.ofJob j).order = registered j) ∧
    ∀ j', registered j' = registered j →
      innerEdges (registered j) (Dependency.ofJob j').edges =
        innerEdges (registered j) (Dependency.ofJob j).edges →
      (Dependency.ofJob j').order = (Dependency.ofJob j).order := by
  have hn : (registered j).Nodup := nodup_distinct _
  have hp : (Dependency.ofJob j).order.Perm (registered j) := executionOrder_perm hn
  have he : (fun a b => (a, b) ∈ innerEdges (registered j) (Dependency.ofJob j).edges) =
      Precedes j := by
    funext a b; exact propext mem_innerEdges_ofJob
  have hcycle : HasCycle (innerEdges (registered j) (Dependency.ofJob j).edges) ↔
      ∃ a, TransGen (Precedes j) a a := by
    rw [HasCycle, he]
  refine ⟨⟨hp.nodup_iff.2 hn, fun a => ?_⟩, fun hc a b hab => ?_, fun hc => ?_, fun j' hr hi => ?_⟩
  · rw [hp.mem_iff, registered, mem_distinct, List.mem_map]
  · have hc : ¬ HasCycle (innerEdges (registered j) (Dependency.ofJob j).edges) :=
      fun h => (hcycle.1 h).elim hc
    exact goesForward_executionOrder hn hc a b (mem_innerEdges_ofJob.2 hab)
  · exact executionOrder_of_cycle hn (hcycle.2 hc)
  · rw [order_eq, order_eq, hr]
    exact executionOrder_congr hi

end JobAtlas.Graph
