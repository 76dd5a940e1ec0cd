import JobAtlas.Component.Route
import JobAtlas.Connection.Settings
import JobAtlas.Graph.Dependency
import JobAtlas.Job.Performance
import JobAtlas.Mapping.Structure
import JobAtlas.Quality.Alert
import JobAtlas.Quality.Rule
import JobAtlas.Sql.Statement

/-!
# Surveys

The survey of a job holds all that is extracted from it. The route of a
component's type decides what the component contributes; no survey looks at
another job.
-/

namespace JobAtlas

/-- All that is extracted from one job. -/
structure Survey where
  name : String
  /-- The number of components that are not handled apart. -/
  componentCount : Nat := 0
  hasSubJob : Bool := false
  /-- Statements in the order of the components. -/
  statements : List Sql.Statement := []
  tables : SortedSet String := ∅
  expressions : List Mapping.Expression := []
  structures : SortedMap String Mapping.Structure := ∅
  transactions : Option Transaction.Summary := none
  alerts : List Alert := []
  /-- The rules of the components that have any. -/
  qualityRules : SortedMap String (List QualityRule) := ∅
  connections : SortedMap String ConnectionSettings := ∅
  performance : Option PerformanceHints := none
  graph : Graph.Dependency := .empty
  /-- The declarations of variables in all contexts, in order. -/
  contextParameters : List ContextParameter := []
deriving Inhabited

namespace Survey

/-- Whether a mapping of the job rejects rows into a flow of their own. -/
def hasRejects (s : Survey) : Bool := s.structures.values.any (!·.rejects.isEmpty)

/-- The components that are processed, with what is to be done with each. -/
def processed (j : Job) : List (Component × Processing) :=
  j.components.filterMap fun c =>
    match Route.of c.kind with
    | .processing what => some (c, what)
    | _ => none

/-- The components on a route that is not processing. -/
def onRoute (j : Job) (route : Route) : List Component :=
  j.components.filter (Route.of ·.kind = route)

/-- The mapping components. -/
def mappings (j : Job) : List Component :=
  ((processed j).filter (·.2.mapping)).map Prod.fst

/-- The quality components that have rules. -/
def qualityRulesOf (j : Job) : List (String × List QualityRule) :=
  ((processed j).filter (·.2.quality)).filterMap fun p =>
    match QualityRule.ofComponent p.1 with
    | [] => none
    | rules => some (p.1.name, rules)

/-- The statements of the processed components. -/
def statementsOf (j : Job) : List Sql.Statement :=
  (processed j).flatMap fun p => Sql.Statement.ofComponent j.name p.1

/-- The survey of a job. -/
def ofJob (j : Job) : Survey where
  name := j.name
  componentCount := (processed j).length
  hasSubJob := (processed j).any (·.2.subJob)
  statements := statementsOf j
  tables := .ofList ((statementsOf j).flatMap (·.tables))
  expressions := (mappings j).flatMap (Mapping.Expression.ofComponent j.name)
  structures := .ofList ((mappings j).map fun c => (c.name, .ofComponent c))
  transactions := Transaction.Summary.ofJob? j
  alerts := (onRoute j .errorHandling).filterMap (Alert.ofComponent? j)
  qualityRules := .ofList (qualityRulesOf j)
  connections := .ofList ((onRoute j .lifecycle).map fun c => (c.name, .ofComponent c))
  performance := PerformanceHints.ofJob? j
  graph := .ofJob j
  contextParameters := (j.contexts.flatMap (·.parameters)).filter (·.name ≠ "")

end Survey

end JobAtlas
