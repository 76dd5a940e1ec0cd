import Mathlib.Data.List.Basic
import JobAtlas.Survey

/-!
# Where components are counted

`Route.of` asks of a type one thing after another. No type answers to two of them,
so that the order of the questions does not matter, and each component of a job is
counted in one place. `accounts_ofJob` says which, and what a survey holds of each.

* `of_eq_errorHandling_iff`, `of_eq_lifecycle_iff`, `of_eq_excluded_iff`,
  `of_eq_processing_iff`: each route by the type alone;
* `length_eq_add_routes`: the routes divide the components among them;
* `processed_eq`, `mappings_eq`: the components that are processed, and those of
  them that map;
* `map_some_alerts`: the types that go the route of errors are those that an alert
  is made of.
-/

namespace JobAtlas

namespace Component

/-- A component that reports an error or writes an audit log. -/
def reports (c : Component) : Bool := c.kind ∈ errorKinds

/-- A component that opens, commits, rolls back or closes a connection. -/
def tendsConnection (c : Component) : Bool := (DatabaseRole.of? c.kind).any (·.isLifecycle)

/-- A component without anything to extract. -/
def isExcluded (c : Component) : Bool := c.kind ∈ excludedKinds

/-- A component that is none of these. -/
def isCounted (c : Component) : Bool := !(c.reports || c.tendsConnection || c.isExcluded)

end Component

/-! ## Routes by type -/

namespace Route

/-- Types that are handled apart by name have no role. -/
theorem of?_eq_none : ∀ kind ∈ errorKinds ++ excludedKinds, DatabaseRole.of? kind = none := by
  decide +kernel

theorem not_mem_excludedKinds : ∀ kind ∈ errorKinds, kind ∉ excludedKinds := by decide

variable {kind : String}

theorem of_eq_errorHandling_iff : of kind = .errorHandling ↔ kind ∈ errorKinds := by
  grind [Route.of]

theorem of_eq_lifecycle_iff :
    of kind = .lifecycle ↔ (DatabaseRole.of? kind).any (·.isLifecycle) = true := by
  have h := of?_eq_none kind
  grind [Route.of]

theorem of_eq_excluded_iff : of kind = .excluded ↔ kind ∈ excludedKinds := by
  have h := of?_eq_none kind
  have h' := not_mem_excludedKinds kind
  grind [Route.of]

/-- All other types are processed, and three kinds of them in a way of their own. -/
theorem of_eq_processing_iff {what : Processing} : of kind = .processing what ↔
    kind ∉ errorKinds ∧ ¬ (DatabaseRole.of? kind).any (·.isLifecycle) = true ∧
      kind ∉ excludedKinds ∧
      what = ⟨kind == mappingKind, qualityKinds.contains kind, kind == subJobKind⟩ := by
  grind [Route.of]

end Route

/-! ## Components by route -/

namespace Component

variable {c : Component}

theorem reports_eq : c.reports = decide (Route.of c.kind = .errorHandling) :=
  decide_eq_decide.2 Route.of_eq_errorHandling_iff.symm

theorem tendsConnection_eq : c.tendsConnection = decide (Route.of c.kind = .lifecycle) := by
  rw [Bool.eq_iff_iff, decide_eq_true_iff, Route.of_eq_lifecycle_iff]
  rfl

theorem isExcluded_eq : c.isExcluded = decide (Route.of c.kind = .excluded) :=
  decide_eq_decide.2 Route.of_eq_excluded_iff.symm

theorem isCounted_eq : c.isCounted = (Route.of c.kind).isCounted := by
  rw [isCounted, reports_eq, tendsConnection_eq, isExcluded_eq]
  cases Route.of c.kind <;> rfl

/-- The routes divide components among them. -/
theorem length_eq_add_routes (cs : List Component) :
    cs.length = (cs.filter isCounted).length + (cs.filter reports).length +
      (cs.filter tendsConnection).length + (cs.filter isExcluded).length := by
  induction cs with
  | nil => rfl
  | cons c cs ih =>
    simp only [List.filter_cons, List.length_cons, isCounted_eq (c := c), reports_eq (c := c),
      tendsConnection_eq (c := c), isExcluded_eq (c := c)]
    cases Route.of c.kind <;> simp [Route.isCounted] <;> omega

end Component

namespace Survey

variable {j : Job}

theorem onRoute_errorHandling : onRoute j .errorHandling = j.components.filter (·.reports) :=
  List.filter_congr fun _ _ => Component.reports_eq.symm

theorem onRoute_lifecycle : onRoute j .lifecycle = j.components.filter (·.tendsConnection) :=
  List.filter_congr fun _ _ => Component.tendsConnection_eq.symm

/-- What is to be done with a component that is counted. -/
def processingOf (c : Component) : Processing :=
  ⟨c.kind == mappingKind, qualityKinds.contains c.kind, c.kind == subJobKind⟩

theorem processed_eq :
    processed j = (j.components.filter (·.isCounted)).map fun c => (c, processingOf c) := by
  rw [processed, ← List.filterMap_eq_map, List.filterMap_filter]
  refine List.filterMap_congr fun c _ => ?_
  rw [Component.isCounted_eq]
  cases h : Route.of c.kind with
  | processing what =>
    obtain rfl := (Route.of_eq_processing_iff.1 h).2.2.2
    rfl
  | _ => rfl

/-- Components that map, or that run another job, are on no other route. -/
theorem isCounted_of_kind {c : Component} (h : c.kind ∈ [mappingKind, subJobKind]) :
    c.isCounted = true := by
  have hk : ∀ kind ∈ [mappingKind, subJobKind], (Route.of kind).isCounted = true := by
    decide +kernel
  rw [Component.isCounted_eq]
  exact hk c.kind h

theorem mappings_eq : mappings j = j.components.filter (·.kind == mappingKind) := by
  rw [mappings, processed_eq, List.filter_map, List.map_map, List.filter_filter]
  refine (List.map_id _).trans (List.filter_congr fun c _ => ?_)
  show ((c.kind == mappingKind) && c.isCounted) = (c.kind == mappingKind)
  by_cases h : c.kind = mappingKind
  · rw [isCounted_of_kind (List.mem_cons.2 (.inl h)), Bool.and_true]
  · rw [beq_false_of_ne h, Bool.false_and]

theorem statementsOf_eq : statementsOf j =
    (j.components.filter (·.isCounted)).flatMap (Sql.Statement.ofComponent j.name) := by
  rw [statementsOf, processed_eq, List.flatMap_map]

theorem hasSubJob_iff : (ofJob j).hasSubJob = true ↔ ∃ c ∈ j.components, c.kind = subJobKind := by
  show (processed j).any (·.2.subJob) = true ↔ _
  simp only [processed_eq, List.any_map, List.any_eq_true, List.mem_filter, Function.comp_apply,
    processingOf, beq_iff_eq]
  constructor
  · rintro ⟨c, ⟨hc, -⟩, hk⟩
    exact ⟨c, hc, hk⟩
  · rintro ⟨c, hc, hk⟩
    exact ⟨c, ⟨hc, isCounted_of_kind (List.mem_cons_of_mem _ (List.mem_singleton.2 hk))⟩, hk⟩

/-! ## Alerts -/

/-- An alert is made of the types that go the route of errors. -/
theorem isSome_ofComponent?_iff {c : Component} :
    (Alert.ofComponent? j c).isSome ↔ c.kind ∈ errorKinds := by
  unfold Alert.ofComponent? errorKinds
  split <;> simp_all

theorem component_of_ofComponent? {c : Component} {a : Alert} (h : Alert.ofComponent? j c = some a) :
    a.component = c.name := by
  unfold Alert.ofComponent? at h
  split at h <;> cases h <;> rfl

/-- Each component that reports has its alert, and there are no others. -/
theorem map_some_alerts : (ofJob j).alerts.map some =
    (j.components.filter (·.reports)).map (Alert.ofComponent? j) := by
  show ((onRoute j .errorHandling).filterMap (Alert.ofComponent? j)).map some = _
  rw [onRoute_errorHandling]
  have h : ∀ c ∈ j.components.filter (·.reports), (Alert.ofComponent? j c).isSome :=
    fun c hc => isSome_ofComponent?_iff.2 (of_decide_eq_true (List.mem_filter.1 hc).2)
  generalize j.components.filter (·.reports) = cs at h
  induction cs with
  | nil => rfl
  | cons c cs ih =>
    obtain ⟨a, ha⟩ := Option.isSome_iff_exists.1 (h c (List.mem_cons_self ..))
    rw [List.filterMap_cons_some ha, List.map_cons, List.map_cons, ha,
      ih fun c hc => h c (List.mem_cons_of_mem _ hc)]

theorem map_component_alerts :
    (ofJob j).alerts.map (·.component) = (j.components.filter (·.reports)).map (·.name) := by
  apply List.map_injective_iff.2 fun _ _ => Option.some.inj
  calc ((ofJob j).alerts.map (·.component)).map some
    _ = ((ofJob j).alerts.map some).map (Option.map (·.component)) := by
      rw [List.map_map, List.map_map]
      rfl
    _ = (j.components.filter (·.reports)).map
          (fun c => (Alert.ofComponent? j c).map (·.component)) := by
      rw [map_some_alerts, List.map_map]
      rfl
    _ = ((j.components.filter (·.reports)).map (·.name)).map some := by
      rw [List.map_map]
      refine List.map_congr_left fun c hc => ?_
      obtain ⟨a, ha⟩ := Option.isSome_iff_exists.1
        (isSome_ofComponent?_iff.2 (of_decide_eq_true (List.mem_filter.1 hc).2))
      rw [ha, Option.map_some, component_of_ofComponent? ha]
      rfl

/-! ## Accounts of a job -/

/-- The survey has each component of the job in one place. -/
structure Accounts (s : Survey) (j : Job) : Prop where
  components : j.components.length = s.componentCount + s.alerts.length +
    (j.components.filter (·.tendsConnection)).length + (j.components.filter (·.isExcluded)).length
  counted : s.componentCount = (j.components.filter (·.isCounted)).length
  alerts : s.alerts.map some = (j.components.filter (·.reports)).map (Alert.ofComponent? j)
  alertNames : s.alerts.map (·.component) = (j.components.filter (·.reports)).map (·.name)
  connections : ∀ name,
    name ∈ s.connections.keys ↔ ∃ c ∈ j.components, c.tendsConnection ∧ c.name = name
  statements : s.statements =
    (j.components.filter (·.isCounted)).flatMap (Sql.Statement.ofComponent j.name)
  expressions : s.expressions =
    (j.components.filter (·.kind == "tMap")).flatMap (Mapping.Expression.ofComponent j.name)
  tables : ∀ table, table ∈ s.tables ↔ ∃ a ∈ s.statements, table ∈ a.tables
  hasSubJob : s.hasSubJob ↔ ∃ c ∈ j.components, c.kind = "tRunJob"

theorem componentCount_ofJob :
    (ofJob j).componentCount = (j.components.filter (·.isCounted)).length := by
  show (processed j).length = _
  rw [processed_eq, List.length_map]

theorem length_alerts_ofJob :
    (ofJob j).alerts.length = (j.components.filter (·.reports)).length := by
  simpa only [List.length_map] using congrArg List.length (map_component_alerts (j := j))

theorem mem_keys_connections_ofJob {name : String} :
    name ∈ (ofJob j).connections.keys ↔ ∃ c ∈ j.components, c.tendsConnection ∧ c.name = name := by
  show name ∈ (SortedMap.ofList _).keys ↔ _
  rw [SortedMap.mem_keys_ofList, onRoute_lifecycle]
  simp only [List.map_map, List.mem_map, List.mem_filter, Function.comp_apply, and_assoc]

theorem accounts_ofJob (j : Job) : (ofJob j).Accounts j where
  components := by
    rw [componentCount_ofJob, length_alerts_ofJob]
    exact Component.length_eq_add_routes j.components
  counted := componentCount_ofJob
  alerts := map_some_alerts
  alertNames := map_component_alerts
  connections _ := mem_keys_connections_ofJob
  statements := statementsOf_eq
  expressions := by
    show (mappings j).flatMap _ = _
    rw [mappings_eq]
    rfl
  tables table := by
    show table ∈ SortedSet.ofList _ ↔ _
    rw [SortedSet.mem_ofList, List.mem_flatMap]
    rfl
  hasSubJob := hasSubJob_iff

/-- A job with a component for each part of a survey. -/
def everyPart : Job where
  name := "load"
  components :=
    [component "tDBConnection" "open" [],
      component "tDBInput" "read" [⟨"QUERY", none, "SELECT id FROM orders", []⟩],
      { component "tMap" "sum" [] with
        schemas := [⟨none, none, [⟨"total", "id_Double", true, some "row1.a + row1.b", none⟩]⟩] },
      component "tFilterRow" "check"
        [⟨"CONDITIONS", some "TABLE", "", [⟨some "INPUT_COLUMN", "id"⟩, ⟨some "OPERATOR", ">"⟩]⟩],
      component "tDBOutput" "write" [⟨"TABLE", none, "sums", []⟩],
      component "tRunJob" "report" [],
      component "tJava" "script" [],
      component "tDie" "stop" [],
      component "tDBCommit" "end" []]
  parameters := []
  links := []
  contexts := []
where
  component (kind name : String) (parameters : List Parameter) : Component :=
    { kind, name, position := {}, parameters, schemas := [], mappers := [], links := [] }

example :
    let s := ofJob everyPart
    everyPart.components.length = 9 ∧ s.componentCount = 5 ∧
      s.alerts.map (·.component) = ["stop"] ∧ s.connections.keys = ["end", "open"] ∧
      s.statements.map (·.cleaned) = ["SELECT id FROM orders", "sums"] ∧
      s.expressions.map (·.mapping) = ["total = row1.a + row1.b"] ∧
      s.tables.toList = ["orders"] ∧ s.hasSubJob = true := by
  decide +kernel

end Survey

end JobAtlas
