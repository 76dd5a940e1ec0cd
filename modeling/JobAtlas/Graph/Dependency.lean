import JobAtlas.Graph.Order
import JobAtlas.Job.Encoding

/-!
# Dependency graphs

The graph of one job: its components with the components that feed them and are
fed by them, the edges that components declare, the flows between components,
and an order of execution. A name stands for the last component that bears it,
and keeps the place of the first.
-/

namespace JobAtlas.Graph

/-- A component as a vertex of the graph. -/
structure Vertex where
  kind : String
  /-- Components that feed it, one for each flow of data. -/
  inputs : List String
  /-- Components that it feeds. -/
  outputs : List String
  position : Position
deriving DecidableEq, Inhabited

/-- An edge that a component declares. -/
structure Edge where
  source : String
  target : String
  kind : String
deriving DecidableEq, Inhabited

/-- A link of the job that has both ends. -/
structure Flow where
  source : String
  target : String
  kind : String
  label : String
deriving DecidableEq, Inhabited

/-- The kind of a declared edge that names none. -/
def defaultEdgeKind : String := "CONNECTION_TYPE"

/-- The kinds of flows that carry rows. -/
def dataFlowKinds : List String := ["FLOW", "FLOW_MAIN", "FLOW_MERGE", "FLOW_REF"]

/-- The kinds of declared edges that carry rows. -/
def dataEdgeKinds : List String := ["FLOW", "FLOW_MAIN"]

/-- The edges that a component declares, other than to itself. -/
def declaredEdges (c : Component) : List Edge :=
  (((c.tables "CONNECTION").flatMap (·.cells)).filter fun cell =>
    cell.value ≠ "" ∧ cell.value ≠ c.name).map fun cell =>
    ⟨c.name, cell.value, cell.reference.getD defaultEdgeKind⟩

/-- The flow of a link, if it has both ends. -/
def Flow.ofLink? (l : Link) : Option Flow := do
  some ⟨← l.source, ← l.target, l.connector.getD "", l.label.getD ""⟩

/-- The flows of a job. -/
def flows (j : Job) : List Flow := j.links.filterMap Flow.ofLink?

/-- The flows of a job that carry rows. -/
def dataFlows (j : Job) : List Flow := (flows j).filter (dataFlowKinds.contains ·.kind)

/-- The components that feed a component. -/
def inputsOf (j : Job) (name : String) : List String :=
  ((dataFlows j).filter (·.target == name)).map (·.source)

/-- The components that a component feeds: by edges that it declares, and by flows. -/
def outputsOf (j : Job) (c : Component) : List String :=
  ((declaredEdges c).filter (dataEdgeKinds.contains ·.kind)).map (·.target) ++
    ((dataFlows j).filter (·.source == c.name)).map (·.target)

def Vertex.ofComponent (j : Job) (c : Component) : Vertex :=
  ⟨c.kind, inputsOf j c.name, outputsOf j c, c.position⟩

/-- The graph of one job. -/
structure Dependency where
  components : SortedMap String Vertex
  connections : List Edge
  flows : List Flow
  order : List String
deriving DecidableEq, Inhabited

namespace Dependency

def empty : Dependency := ⟨∅, [], [], []⟩

def isEmpty (g : Dependency) : Bool := g.components.isEmpty

/-- The graph of a job. -/
def ofJob (j : Job) : Dependency :=
  let connections := j.components.flatMap declaredEdges
  let links := Graph.flows j
  { components := .ofList (j.components.map fun c => (c.name, .ofComponent j c))
    connections
    flows := links
    order := executionOrder (distinct (j.components.map (·.name))) <|
      connections.map (fun e => (e.source, e.target)) ++
        links.map fun f => (f.source, f.target) }

end Dependency

/-! ## Written forms -/

instance : Coded Vertex where
  toData v := .record <|
    Data.field "type" v.kind ++ Data.field "inputs" v.inputs ++
    Data.field "outputs" v.outputs ++ Data.field "position" v.position
  ofData? := Data.Reader.read? do
    return {
      kind := ← Data.required "type"
      inputs := ← Data.required "inputs"
      outputs := ← Data.required "outputs"
      position := ← Data.required "position" }

instance : Coded Edge where
  toData e := .record <|
    Data.field "from" e.source ++ Data.field "to" e.target ++ Data.field "type" e.kind
  ofData? := Data.Reader.read? do
    return {
      source := ← Data.required "from"
      target := ← Data.required "to"
      kind := ← Data.required "type" }

instance : Coded Flow where
  toData f := .record <|
    Data.field "from" f.source ++ Data.field "to" f.target ++ Data.field "type" f.kind ++
    Data.field "label" f.label
  ofData? := Data.Reader.read? do
    return {
      source := ← Data.required "from"
      target := ← Data.required "to"
      kind := ← Data.required "type"
      label := ← Data.required "label" }

instance : Coded Dependency where
  toData g := .record <|
    Data.field "components" g.components ++ Data.field "connections" g.connections ++
    Data.field "flows" g.flows ++ Data.field "execution_order" g.order
  ofData? := Data.Reader.read? do
    return {
      components := ← Data.required "components"
      connections := ← Data.required "connections"
      flows := ← Data.required "flows"
      order := ← Data.required "execution_order" }

end JobAtlas.Graph
