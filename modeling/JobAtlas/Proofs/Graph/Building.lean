import JobAtlas.Proofs.Fold
import JobAtlas.Proofs.Graph.Dependency

/-!
# Building a graph

The graph of a job is built in one pass over its components and one over its links.
A component is registered with the edges that it declares, in place of an earlier one
of its name, and a link that carries rows goes into the vertices at its ends. What
the passes have built so far is the draft of the job up to there (`register_draft`,
`connect_draft`), so that they build the graph that `Dependency.ofJob` describes
(`ofJob_eq_built`).
-/

namespace JobAtlas.Graph

/-- A graph that is being built. -/
structure Draft where
  components : SortedMap String Vertex := ∅
  connections : List Edge := []
  flows : List Flow := []
  /-- The names of the components, in the order in which they came up first. -/
  names : List String := []

namespace Draft

/-- Read a cell of a `CONNECTION` table of `c` into its vertex and the edges. -/
def declare (c : Component) (read : Vertex × List Edge) (cell : Cell) : Vertex × List Edge :=
  if cell.value = "" ∨ cell.value = c.name then read
  else
    let kind := cell.reference.getD defaultEdgeKind
    ({ read.1 with outputs := read.1.outputs ++
        if dataEdgeKinds.contains kind then [cell.value] else [] },
      read.2 ++ [⟨c.name, cell.value, kind⟩])

/-- Enter a component and the edges that it declares. -/
def register (d : Draft) (c : Component) : Draft :=
  let read := ((c.tables "CONNECTION").flatMap (·.cells)).foldl (declare c)
    (⟨c.kind, [], [], c.position⟩, d.connections)
  { d with
    components := d.components.insert c.name read.1
    connections := read.2
    names := if c.name ∈ d.names then d.names else d.names ++ [c.name] }

/-- Change the vertex of a name, if there is one. -/
def change (m : SortedMap String Vertex) (name : String) (f : Vertex → Vertex) :
    SortedMap String Vertex :=
  m.mapValues fun a v => if name = a then f v else v

/-- Enter a flow into the vertices at its ends. -/
def feed (m : SortedMap String Vertex) (f : Flow) : SortedMap String Vertex :=
  change (change m f.source fun v => { v with outputs := v.outputs ++ [f.target] }) f.target
    fun v => { v with inputs := v.inputs ++ [f.source] }

/-- Enter a link, if it has both ends. -/
def connect (d : Draft) (l : Link) : Draft :=
  match Flow.ofLink? l with
  | none => d
  | some f =>
    { d with
      components :=
        if dataFlowKinds.contains f.kind then feed d.components f else d.components
      flows := d.flows ++ [f] }

/-- The graph of a draft, with the order that its edges leave to its names. -/
def finish (d : Draft) : Dependency where
  components := d.components
  connections := d.connections
  flows := d.flows
  order := executionOrder d.names <|
    d.connections.map (fun e => (e.source, e.target)) ++ d.flows.map fun f => (f.source, f.target)

end Draft

/-- The graph that is built of a job. -/
def built (j : Job) : Dependency :=
  (j.links.foldl Draft.connect (j.components.foldl Draft.register {})).finish

/-! ## What has been built -/

/-- The draft of a job all of whose components and links have been read. -/
def draft (j : Job) : Draft where
  components := .ofList (j.components.map fun c => (c.name, .ofComponent j c))
  connections := j.components.flatMap declaredEdges
  flows := Graph.flows j
  names := registered j

/-- The cells of a component are read into its outputs and edges. -/
theorem foldl_declare (c : Component) (v : Vertex) (es : List Edge) (cells : List Cell) :
    cells.foldl (Draft.declare c) (v, es) =
      let declared := (cells.filter fun cell => cell.value ≠ "" ∧ cell.value ≠ c.name).map
        fun cell => (⟨c.name, cell.value, cell.reference.getD defaultEdgeKind⟩ : Edge)
      ({ v with outputs := v.outputs ++
          (declared.filter (dataEdgeKinds.contains ·.kind)).map (·.target) }, es ++ declared) := by
  induction cells generalizing v es with
  | nil => simp
  | cons cell cells ih =>
    rw [List.foldl_cons, Draft.declare]
    by_cases hcell : cell.value = "" ∨ cell.value = c.name
    · have hskip : ¬ (cell.value ≠ "" ∧ cell.value ≠ c.name) := by tauto
      rw [if_pos hcell, ih, List.filter_cons_of_neg (by simpa using hskip)]
    · have hkeep : cell.value ≠ "" ∧ cell.value ≠ c.name := by tauto
      rw [if_neg hcell, ih, List.filter_cons_of_pos (by simpa using hkeep)]
      by_cases hkind : cell.reference.getD defaultEdgeKind ∈ dataEdgeKinds <;> simp [hkind]

/-- Without links a component has the outputs that it declares. -/
theorem ofComponent_of_no_links {j : Job} (h : j.links = []) (c : Component) :
    Vertex.ofComponent j c =
      ⟨c.kind, [], ((declaredEdges c).filter (dataEdgeKinds.contains ·.kind)).map (·.target),
        c.position⟩ := by
  simp only [Vertex.ofComponent, inputsOf, outputsOf, dataFlows, flows, h, List.filterMap_nil,
    List.filter_nil, List.map_nil, List.append_nil]

/-- A component goes into the draft of those before it. -/
theorem register_draft (j : Job) (cs : List Component) (c : Component) :
    (draft { j with components := cs, links := [] }).register c =
      draft { j with components := cs ++ [c], links := [] } := by
  simp only [Draft.register, draft, foldl_declare, List.map_append, List.map_singleton,
    List.flatMap_append, List.flatMap_singleton, SortedMap.ofList_append_singleton,
    ofComponent_of_no_links, registered, mem_distinct, distinct_append_singleton]
  rfl

theorem flows_append (j : Job) (ls : List Link) (l : Link) :
    flows { j with links := ls ++ [l] } =
      flows { j with links := ls } ++ (Flow.ofLink? l).toList := by
  simp only [flows, List.filterMap_append]
  cases h : Flow.ofLink? l <;> simp [h]

/-- What the flow of a link adds to the vertex of a component. -/
def Vertex.fed (v : Vertex) (name : String) (f : Flow) : Vertex :=
  { v with
    inputs := v.inputs ++ if f.target = name then [f.source] else []
    outputs := v.outputs ++ if f.source = name then [f.target] else [] }

theorem ofComponent_append (j : Job) (ls : List Link) {l : Link} {f : Flow}
    (h : Flow.ofLink? l = some f) (c : Component) :
    Vertex.ofComponent { j with links := ls ++ [l] } c =
      if dataFlowKinds.contains f.kind then
        (Vertex.ofComponent { j with links := ls } c).fed c.name f
      else Vertex.ofComponent { j with links := ls } c := by
  have hflows : dataFlows { j with links := ls ++ [l] } =
      dataFlows { j with links := ls } ++ if dataFlowKinds.contains f.kind then [f] else [] := by
    rw [dataFlows, flows_append, h, List.filter_append, Option.toList_some, List.filter_singleton,
      dataFlows]
    cases dataFlowKinds.contains f.kind <;> rfl
  rw [Vertex.ofComponent, inputsOf, outputsOf, hflows]
  by_cases hk : dataFlowKinds.contains f.kind = true
  · rw [if_pos hk, if_pos hk, List.filter_append, List.filter_append, List.map_append,
      List.map_append, ← List.append_assoc]
    by_cases hs : f.source = c.name <;> by_cases ht : f.target = c.name <;>
      simp [Vertex.fed, Vertex.ofComponent, inputsOf, outputsOf, hs, ht]
  · rw [if_neg hk, if_neg hk, List.append_nil]
    rfl

theorem feed_ofList (vs : List (String × Vertex)) (f : Flow) :
    Draft.feed (.ofList vs) f = .ofList (vs.map fun e => (e.1, e.2.fed e.1 f)) := by
  rw [Draft.feed, Draft.change, Draft.change, SortedMap.mapValues_ofList,
    SortedMap.mapValues_ofList, List.map_map]
  refine congrArg SortedMap.ofList (List.map_congr_left fun e _ => ?_)
  by_cases hs : f.source = e.1 <;> by_cases ht : f.target = e.1 <;> simp [Vertex.fed, hs, ht]

/-- A link goes into the draft of those before it. -/
theorem connect_draft (j : Job) (ls : List Link) (l : Link) :
    (draft { j with links := ls }).connect l = draft { j with links := ls ++ [l] } := by
  cases h : Flow.ofLink? l with
  | none =>
    have hflows : flows { j with links := ls ++ [l] } = flows { j with links := ls } := by
      rw [flows_append, h, Option.toList_none, List.append_nil]
    simp only [Draft.connect, h, draft, Vertex.ofComponent, inputsOf, outputsOf, dataFlows, hflows]
    rfl
  | some f =>
    simp only [Draft.connect, h, draft, flows_append, Option.toList_some, feed_ofList,
      List.map_map, Function.comp_def, ofComponent_append j ls h]
    cases dataFlowKinds.contains f.kind <;> rfl

/-- The graph of a job is the one that is built of it. -/
theorem ofJob_eq_built (j : Job) : Dependency.ofJob j = built j := by
  have hregister (cs : List Component) :
      cs.foldl Draft.register {} = draft { j with components := cs, links := [] } :=
    foldl_upTo (register_draft j) [] cs
  have hconnect (ls : List Link) :
      ls.foldl Draft.connect (draft { j with links := [] }) = draft { j with links := ls } :=
    foldl_upTo (connect_draft j) [] ls
  rw [built, hregister, hconnect]
  rfl

end JobAtlas.Graph
