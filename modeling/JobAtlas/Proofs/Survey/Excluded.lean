import JobAtlas.Proofs.Survey.Routing
import JobAtlas.Proofs.Transaction.Spans

/-!
# Excluded components

A survey is read off a job in several passes, by routes, by roles and by the links of
the job, and none of them looks at an excluded component, whatever it holds and
whichever component shares its name. What is left is the graph, which has a vertex for
every component, and the hints on performance, which every parameter can give.

* `SameButExcluded.filter_eq`: what each pass looks at;
* `ofJob_of_sameButExcluded`: two jobs that differ in excluded components only have
  the same survey but for the graph and the hints;
* `ofJob_insert_excluded`: one more excluded component, anywhere in a job.
-/

namespace JobAtlas

namespace Component

variable {c : Component}

theorem not_isExcluded_of_isCounted (h : c.isCounted = true) : c.isExcluded = false := by
  rw [isCounted_eq] at h
  rw [isExcluded_eq, decide_eq_false_iff_not]
  intro hr
  rw [hr] at h
  cases h

theorem not_isExcluded_of_reports (h : c.reports = true) : c.isExcluded = false := by
  rw [reports_eq, decide_eq_true_iff] at h
  rw [isExcluded_eq, h]
  rfl

theorem not_isExcluded_of_tendsConnection (h : c.tendsConnection = true) :
    c.isExcluded = false := by
  rw [tendsConnection_eq, decide_eq_true_iff] at h
  rw [isExcluded_eq, h]
  rfl

/-- No transaction is made of excluded components. -/
theorem not_isExcluded_of_hasRole (h : Transaction.hasRole c = true) : c.isExcluded = false := by
  rw [isExcluded, decide_eq_false_iff_not]
  intro hk
  rw [Transaction.hasRole, Route.of?_eq_none c.kind (List.mem_append_right _ hk)] at h
  cases h

end Component

namespace Job

/-- Jobs that differ in their excluded components and in the parameters of the job only. -/
structure SameButExcluded (j j' : Job) : Prop where
  name : j.name = j'.name
  links : j.links = j'.links
  contexts : j.contexts = j'.contexts
  components : j.components.filter (!·.isExcluded) = j'.components.filter (!·.isExcluded)

/-- The job with one more component, in the place `i`. -/
def insert (j : Job) (i : Nat) (c : Component) : Job :=
  { j with components := j.components.insertIdx i c }

variable {j j' : Job}

/-- Whatever passes over excluded components finds the same in both jobs. -/
theorem SameButExcluded.filter_eq (h : j.SameButExcluded j') {p : Component → Bool}
    (hp : ∀ c : Component, p c = true → c.isExcluded = false) :
    j.components.filter p = j'.components.filter p := by
  have hf (cs : List Component) : cs.filter p = (cs.filter (!·.isExcluded)).filter p := by
    rw [List.filter_filter]
    refine List.filter_congr fun c _ => ?_
    cases hc : p c with
    | false => rfl
    | true => rw [hp c hc]; rfl
  rw [hf, h.components, ← hf]

theorem sameButExcluded_insert (j : Job) (i : Nat) {c : Component} (hc : c.isExcluded = true) :
    (j.insert i c).SameButExcluded j where
  name := rfl
  links := rfl
  contexts := rfl
  components := by
    show (j.components.insertIdx i c).filter _ = _
    generalize j.components = cs
    induction cs generalizing i with
    | nil => cases i <;> simp [hc]
    | cons d cs ih =>
      cases i with
      | zero => simp [hc]
      | succ i => rw [List.insertIdx_succ_cons, List.filter_cons, List.filter_cons, ih]

end Job

namespace Survey

variable {j j' : Job}

theorem alert_congr (h : j.links = j'.links) : Alert.ofComponent? j = Alert.ofComponent? j' := by
  funext c
  simp only [Alert.ofComponent?, Job.incoming, h]

/-- The survey of a job has nothing of its excluded components but their vertices and
what their parameters say on performance. -/
theorem ofJob_of_sameButExcluded (h : j.SameButExcluded j') :
    ofJob j = { ofJob j' with
      graph := .ofJob j
      performance := PerformanceHints.ofJob? j } := by
  have hprocessed : processed j = processed j' := by
    rw [processed_eq, processed_eq, h.filter_eq fun _ => Component.not_isExcluded_of_isCounted]
  have herrors : onRoute j .errorHandling = onRoute j' .errorHandling := by
    rw [onRoute_errorHandling, onRoute_errorHandling,
      h.filter_eq fun _ => Component.not_isExcluded_of_reports]
  have hlifecycle : onRoute j .lifecycle = onRoute j' .lifecycle := by
    rw [onRoute_lifecycle, onRoute_lifecycle,
      h.filter_eq fun _ => Component.not_isExcluded_of_tendsConnection]
  have hspans : Transaction.spans j.components = Transaction.spans j'.components := by
    rw [Transaction.spans, Transaction.spans, ← Transaction.spansFrom_filter none j.components,
      h.filter_eq fun _ => Component.not_isExcluded_of_hasRole, Transaction.spansFrom_filter]
  have htransactions : Transaction.Summary.ofJob? j = Transaction.Summary.ofJob? j' := by
    simp only [Transaction.Summary.ofJob?, hspans]
  simp only [ofJob, statementsOf, mappings, qualityRulesOf, hprocessed, herrors, hlifecycle,
    htransactions, alert_congr h.links, h.name, h.contexts]

/-- An excluded component leaves its mark on the graph and on the hints only, wherever
it is put in the job and whatever it holds: its name may be that of another component,
and it may have a query, a mapping or links of its own. -/
theorem ofJob_insert_excluded (j : Job) (i : Nat) {c : Component} (hc : c.kind ∈ excludedKinds) :
    ofJob (j.insert i c) = { ofJob j with
      graph := (ofJob (j.insert i c)).graph
      performance := (ofJob (j.insert i c)).performance } :=
  ofJob_of_sameButExcluded (j.sameButExcluded_insert i (decide_eq_true hc))

/-- A transaction in which an output hands over to a component that ends the job. -/
def endingJob : Job where
  name := "load"
  components :=
    [component "tDBConnection" "open" [], component "tDBOutput" "write" [("TABLE", "orders")],
      component "tDBCommit" "end" [], component "tDie" "stop" [("MESSAGE", "no rows")]]
  parameters := []
  links := [⟨some "write", some "stop", none, some "COMPONENT_ERROR"⟩]
  contexts := []
where
  /-- A component with texts for parameters. -/
  component (kind name : String) (parameters : List (String × String)) : Component :=
    { kind, name, position := {}, parameters := parameters.map fun p => ⟨p.1, none, p.2, []⟩
      schemas := [], mappers := [], links := [] }

/-- A script under the name of an output, with a query, a mapped column, a link and a
setting of the job. -/
def outputScript : Component where
  kind := "tJava"
  name := "write"
  position := {}
  parameters :=
    [⟨"QUERY", none, "\"DELETE FROM orders\"", []⟩, ⟨"UPDATE_COMPONENTS", none, "true", []⟩]
  schemas := [⟨none, none, [⟨"total", "id_Double", true, some "row1.a + row1.b", none⟩]⟩]
  mappers := []
  links := [⟨some "write", some "stop", none, none⟩]

theorem ofJob_insert_excluded_outputScript :
    outputScript.kind ∈ excludedKinds ∧
    (ofJob (endingJob.insert 2 outputScript) = { ofJob endingJob with
      graph := (ofJob (endingJob.insert 2 outputScript)).graph
      performance := (ofJob (endingJob.insert 2 outputScript)).performance }) ∧
    (ofJob endingJob).transactions.isSome ∧ (ofJob endingJob).alerts ≠ [] ∧
    (ofJob (endingJob.insert 2 outputScript)).performance ≠ (ofJob endingJob).performance := by
  have hk : outputScript.kind ∈ excludedKinds := by decide
  exact ⟨hk, ofJob_insert_excluded endingJob 2 hk, by decide +kernel, by decide +kernel,
    by decide +kernel⟩

end Survey

end JobAtlas
