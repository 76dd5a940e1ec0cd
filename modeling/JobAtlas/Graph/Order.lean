import JobAtlas.Distinct

/-!
# Execution order

The vertices of a graph are put in order by a walk into depth: a vertex is
placed before those placed so far when all that follows it has been walked. The
order is then checked by walks against the edges. When one of these meets a
vertex that stands later, or an edge leads back to where it starts, the graph
has a cycle, and the vertices stay in the order in which they are given. The walks
are those of `toposort` in version 0.6 of the `petgraph` library, which takes both
vertices and edges as they are given.
-/

namespace JobAtlas.Graph

variable {κ : Type u} [DecidableEq κ]

/-- What is left to do on a walk. -/
inductive Task (κ : Type u) where
  | enter (v : κ)
  /-- All that follows the vertex has been walked. -/
  | leave (v : κ)
deriving DecidableEq

/-- Walk the tasks that are left. `fresh` holds the vertices not entered yet,
`placed` those that were left, the last one first. -/
def walk (next : κ → List κ) (fresh : List κ) : List (Task κ) → List κ → List κ
  | [], placed => placed
  | .leave v :: tasks, placed => walk next fresh tasks (v :: placed)
  | .enter v :: tasks, placed =>
    if v ∈ fresh then
      walk next (fresh.erase v) ((next v).map .enter ++ .leave v :: tasks) placed
    else walk next fresh tasks placed
termination_by tasks => (fresh.length, tasks.length)
decreasing_by
  · exact .right _ (Nat.lt_succ_self _)
  · next h =>
    have := List.length_erase_of_mem h
    have := List.length_pos_of_mem h
    exact .left _ _ (by omega)
  · exact .right _ (Nat.lt_succ_self _)

/-- The vertices that edges lead to from `v`, in the order of the edges. -/
def successors (edges : List (κ × κ)) (v : κ) : List κ :=
  (edges.filter fun e => e.1 = v).map Prod.snd

/-- The vertices that edges lead to `v` from, in the order of the edges. -/
def predecessors (edges : List (κ × κ)) (v : κ) : List κ :=
  (edges.filter fun e => e.2 = v).map Prod.fst

/-- The vertices in the order of the walk that enters them as they are given. -/
def walkOrder (vertices : List κ) (edges : List (κ × κ)) : List κ :=
  walk (successors edges) vertices (vertices.map .enter) []

/-- Whether each vertex is the only one that a walk from it meets, when the
vertices before it are left out. -/
def isSettled (next : κ → List κ) : List κ → Bool
  | [] => true
  | v :: vs => walk next (v :: vs) [.enter v] [] == [v] && isSettled next vs

/-- The edges between the vertices. -/
def innerEdges (vertices : List κ) (edges : List (κ × κ)) : List (κ × κ) :=
  edges.filter fun e => e.1 ∈ vertices ∧ e.2 ∈ vertices

/-- An order of the vertices in which every edge between them goes forward, or
the vertices as they are given if there is none. -/
def executionOrder (vertices : List κ) (edges : List (κ × κ)) : List κ :=
  let edges := innerEdges vertices edges
  let order := walkOrder vertices edges
  if edges.all (fun e => e.1 ≠ e.2) && isSettled (predecessors edges) order then order
  else vertices

end JobAtlas.Graph
