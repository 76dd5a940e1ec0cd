import JobAtlas.Proofs.Fold
import JobAtlas.Survey

/-!
# One pass over the components

A survey is filled in one pass over the components of a job, each of which adds what
its route asks for, and completed with what the job says as a whole. What a pass has
seen is the survey of the components so far (`enter_seen`), so that `Survey.ofJob` is
what it ends with (`ofJob_eq_filled`).
-/

namespace JobAtlas.Survey

/-- Enter what a counted component has. -/
def process (job : String) (s : Survey) (c : Component) (what : Processing) : Survey :=
  let statements := Sql.Statement.ofComponent job c
  { s with
    componentCount := s.componentCount + 1
    hasSubJob := s.hasSubJob || what.subJob
    statements := s.statements ++ statements
    tables := s.tables.insertAll (statements.flatMap (·.tables))
    structures :=
      if what.mapping then s.structures.insert c.name (.ofComponent c) else s.structures
    expressions :=
      s.expressions ++ if what.mapping then Mapping.Expression.ofComponent job c else []
    qualityRules :=
      match if what.quality then QualityRule.ofComponent c else [] with
      | [] => s.qualityRules
      | rules => s.qualityRules.insert c.name rules }

/-- Enter a component of a job. -/
def enter (j : Job) (s : Survey) (c : Component) : Survey :=
  match Route.of c.kind with
  | .errorHandling => { s with alerts := s.alerts ++ (Alert.ofComponent? j c).toList }
  | .lifecycle => { s with connections := s.connections.insert c.name (.ofComponent c) }
  | .excluded => s
  | .processing what => s.process j.name c what

/-- The survey that is filled of a job. -/
def filled (j : Job) : Survey :=
  { j.components.foldl (enter j) { name := j.name } with
    transactions := Transaction.Summary.ofJob? j
    performance := PerformanceHints.ofJob? j
    graph := .ofJob j
    contextParameters := (j.contexts.flatMap (·.parameters)).filter (·.name ≠ "") }

/-- The survey of the first components of a job, without what it says as a whole. -/
def seen (j : Job) (cs : List Component) : Survey :=
  { ofJob { j with components := cs } with
    transactions := none
    performance := none
    graph := .empty
    contextParameters := [] }

theorem processed_append (j : Job) (cs : List Component) (c : Component) :
    processed { j with components := cs ++ [c] } =
      processed { j with components := cs } ++
        match Route.of c.kind with
        | .processing what => [(c, what)]
        | _ => [] := by
  rw [processed, List.filterMap_append]
  cases h : Route.of c.kind <;> simp [processed, h]

theorem onRoute_append (j : Job) (cs : List Component) (c : Component) (route : Route) :
    onRoute { j with components := cs ++ [c] } route =
      onRoute { j with components := cs } route ++
        if Route.of c.kind = route then [c] else [] := by
  rw [onRoute, List.filter_append]
  by_cases h : Route.of c.kind = route <;> simp [onRoute, h]

/-- A component goes into the survey of those before it. -/
theorem enter_seen (j : Job) (cs : List Component) (c : Component) :
    (seen j cs).enter j c = seen j (cs ++ [c]) := by
  have halert (cs : List Component) :
      Alert.ofComponent? { j with components := cs } = Alert.ofComponent? j := rfl
  simp only [enter, seen, ofJob, mappings, qualityRulesOf, statementsOf, processed_append,
    onRoute_append, halert]
  cases h : Route.of c.kind with
  | errorHandling =>
    cases ha : Alert.ofComponent? j c <;> simp [ha]
  | lifecycle => simp [SortedMap.ofList_append_singleton]
  | excluded => simp
  | processing what =>
    obtain ⟨mapping, quality, subJob⟩ := what
    -- a component without rules leaves no entry among the rules
    cases mapping <;> cases quality <;> cases hq : QualityRule.ofComponent c <;>
      simp [process, hq, SortedSet.ofList_append, SortedMap.ofList_append_singleton]

theorem ofJob_eq_filled (j : Job) : ofJob j = filled j := by
  have h : j.components.foldl (enter j) { name := j.name } = seen j j.components :=
    foldl_upTo (enter_seen j) [] j.components
  rw [filled, h]
  rfl

end JobAtlas.Survey
