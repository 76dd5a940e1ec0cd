import Mathlib.Algebra.BigOperators.Group.List.Basic
import JobAtlas.Corpus.Extraction
import JobAtlas.Proofs.Corpus.ByJob
import JobAtlas.Proofs.Corpus.TableUsage

/-!
# Agreement within a document

A document counts the same things in several places: over all jobs in its
overview, job by job in the summaries, and in the maps that hold only the jobs
with something to hold. `consistent_ofJobs` says that these agree for jobs with
different names, and that no job is named that has no summary.

* `Survey.labelled_ofJob`: what is found in a job bears its name;
* `sum_transactions_byJob`, `sum_alerts_byJob`, `sum_qualityRules_byJob`: the
  maps by job leave out only jobs that add nothing;
* `Document.consistent_merge`: agreement follows for labelled surveys.
-/

namespace JobAtlas

open scoped Counting

/-- A document of jobs with these names that agrees with itself. -/
structure Document.Consistent (d : Document) (names : List String) : Prop where
  jobNames : ∀ name, name ∈ d.jobs.keys ↔ name ∈ names
  jobCount : d.overview.jobs = d.jobs.size
  roleNames : d.roles.keys = d.jobs.keys
  roles : ∀ name s, d.jobs.find? name = some s → d.roles.find? name = some s.role
  expressionCount : d.overview.expressions = d.expressions.length
  expressionSum : d.expressions.length = (d.jobs.values.map (·.expressions)).sum
  tableCount : d.overview.tables = d.tables.all.length
  tables : d.tables.all = (SortedSet.ofList (d.jobs.values.flatMap (·.tables))).toList
  statementCount : d.overview.statements = d.queries.length
  statementSum : d.queries.length ≤ (d.jobs.values.map (·.statements)).sum
  transactionSum : d.overview.transactions = (d.transactions.values.map (·.groups.length)).sum
  alertSum : d.overview.alerts = (d.alerts.values.map (·.length)).sum
  qualityRuleSum : d.overview.qualityRules =
    (d.qualityRules.values.map fun m => (m.values.map (·.length)).sum).sum
  hasTransactions : ∀ name s, d.jobs.find? name = some s →
    (s.hasTransactions ↔ name ∈ d.transactions.keys)
  hasAlerts : ∀ name s, d.jobs.find? name = some s → (s.hasAlerts ↔ name ∈ d.alerts.keys)
  hasQualityRules : ∀ name s, d.jobs.find? name = some s →
    (s.hasQualityRules ↔ name ∈ d.qualityRules.keys)
  graphs : ∀ name g, d.graphs.find? name = some g ↔
    ∃ s, d.jobs.find? name = some s ∧ s.graph = g ∧ ¬ g.isEmpty
  expressionJobs : ∀ e ∈ d.expressions, e.job ∈ d.jobs.keys
  usageJobs : ∀ table u, d.tables.usage.find? table = some u → ∀ job ∈ u.jobs, job ∈ d.jobs.keys

/-! ## Names of jobs on what is found in them -/

/-- What is found in a job bears the job's name. -/
structure Survey.Labelled (s : Survey) : Prop where
  statements : ∀ a ∈ s.statements, a.job = s.name
  expressions : ∀ e ∈ s.expressions, e.job = s.name

/-- An expression bears the names of its job and of its component. -/
theorem Mapping.Expression.labels_of_mem_ofComponent {job : String} {c : Component}
    {e : Expression} (h : e ∈ ofComponent job c) : e.job = job ∧ e.component = c.name := by
  rcases List.mem_append.1 h with h | h
  · obtain ⟨col, -, h⟩ := List.mem_filterMap.1 h
    obtain ⟨x, -, h⟩ := Option.bind_eq_some_iff.1 h
    split at h
    · cases h
    · cases h; exact ⟨rfl, rfl⟩
  · obtain ⟨v, -, h⟩ := List.mem_filterMap.1 h
    obtain ⟨x, -, h⟩ := Option.bind_eq_some_iff.1 h
    split at h
    · cases h
    · cases h; exact ⟨rfl, rfl⟩

theorem Survey.labelled_ofJob (j : Job) : (ofJob j).Labelled where
  statements a ha := by
    obtain ⟨c, -, ha⟩ := List.mem_flatMap.1 ha
    obtain ⟨p, -, rfl⟩ := List.mem_map.1 ha
    rfl
  expressions e he := by
    obtain ⟨c, -, he⟩ := List.mem_flatMap.1 he
    exact (Mapping.Expression.labels_of_mem_ofComponent he).1

/-! ## Sums over the jobs -/

/-- No alerts are written for a job exactly if there are none to count. -/
theorem Survey.length_alerts?_getD (s : Survey) :
    (s.alerts?.map (·.length)).getD 0 = s.alerts.length := by
  unfold alerts?
  split
  · next h => rw [List.isEmpty_iff.1 h]; rfl
  · rfl

theorem SortedMap.sum_nonEmpty?_getD {α : Type} (m : SortedMap String α) (f : α → Nat) :
    (m.nonEmpty?.map fun m => (m.values.map f).sum).getD 0 = (m.values.map f).sum := by
  unfold nonEmpty?
  split
  · next h =>
    have hv : m.values = [] := by rw [values, List.isEmpty_iff.1 h, List.map_nil]
    rw [hv]; rfl
  · rfl

section Sums

variable {ss : List Survey} (hn : (ss.map (·.name)).Nodup)
include hn

theorem sum_transactions_byJob :
    ((byJob (·.transactions) ss).values.map (·.groups.length)).sum =
      ((ss.filterMap (·.transactions)).map (·.groups.length)).sum :=
  ((values_byJob_perm hn).map _).sum_nat

theorem sum_alerts_byJob : ((byJob (·.alerts?) ss).values.map (·.length)).sum =
    (ss.map (·.alerts.length)).sum := by
  rw [sum_values_byJob hn]
  simp only [Survey.length_alerts?_getD]

theorem sum_qualityRules_byJob :
    ((byJob (·.qualityRules.nonEmpty?) ss).values.map fun m =>
        (m.values.map (·.length)).sum).sum =
      ((ss.flatMap (·.qualityRules.values)).map (·.length)).sum := by
  rw [sum_values_byJob hn, List.map_flatMap, List.flatMap_def, List.sum_flatten, List.map_map]
  simp only [SortedMap.sum_nonEmpty?_getD]
  rfl

end Sums

/-! ## The document of labelled surveys -/

theorem length_expressions_merge (ss : List Survey) :
    (Corpus.merge ss).expressions.length = (ss.map (·.expressions.length)).sum :=
  List.length_flatMap

theorem length_statements_merge_le (ss : List Survey) :
    (Corpus.merge ss).statements.length ≤ (ss.map (·.statements.length)).sum := by
  rw [← List.length_flatMap]
  exact (distinctBy_sublist _ _).length_le

/-- A name has a summary if it is the name of a survey. -/
theorem mem_keys_jobs_merge {ss : List Survey} {s : Settings} {time name : String} :
    name ∈ (Document.ofCorpus (.merge ss) s time).jobs.keys ↔ name ∈ ss.map (·.name) := by
  simp only [Document.ofCorpus, Corpus.merge, mem_keys_byJob, Option.isSome_some, and_true,
    List.mem_map]

section Merge

variable {ss : List Survey} (hn : (ss.map (·.name)).Nodup)
include hn

theorem find?_roles_merge {a : Survey} (ha : a ∈ ss) :
    (Corpus.merge ss).roles.find? a.name = some (.infer a.name a.hasSubJob) := by
  have hk : ((ss.map fun a => (a.name, JobRole.infer a.name a.hasSubJob)).map Prod.fst).Nodup := by
    rwa [List.map_map]
  exact (SortedMap.find?_ofList_eq_some_iff hk).2 (List.mem_map.2 ⟨a, ha, rfl⟩)

/-- The summaries of a document are those of the surveys. -/
theorem find?_jobs_merge {s : Settings} {time name : String} {x : JobSummary} :
    (Document.ofCorpus (.merge ss) s time).jobs.find? name = some x ↔
      ∃ a ∈ ss, a.name = name ∧ JobSummary.ofSurvey (.merge ss) a = x := by
  simp only [Document.ofCorpus, Corpus.merge, find?_byJob_eq_some_iff hn, Option.some.injEq]

theorem values_jobs_merge_perm (s : Settings) (time : String) :
    (Document.ofCorpus (.merge ss) s time).jobs.values.Perm
      (ss.map (JobSummary.ofSurvey (.merge ss))) := by
  rw [← List.filterMap_eq_map']
  exact values_byJob_perm hn

theorem find?_graphs_merge {s : Settings} {time name : String} {g : Graph.Dependency} :
    (Document.ofCorpus (.merge ss) s time).graphs.find? name = some g ↔
      ∃ a ∈ ss, a.name = name ∧ a.graph = g ∧ ¬ g.isEmpty := by
  rw [Document.ofCorpus]
  refine (find?_byJob_eq_some_iff hn).trans (exists_congr fun a => and_congr_right fun _ =>
    and_congr_right fun _ => ?_)
  unfold Survey.graph?
  split
  · next h => exact ⟨nofun, fun ⟨e, hg⟩ => absurd (e ▸ h) hg⟩
  · next h => exact ⟨fun e => by cases e; exact ⟨rfl, h⟩, fun ⟨e, _⟩ => congrArg some e⟩

theorem Document.consistent_merge (hl : ∀ a ∈ ss, a.Labelled) (s : Settings) (time : String) :
    (ofCorpus (.merge ss) s time).Consistent (ss.map (·.name)) where
  jobNames name := mem_keys_jobs_merge
  jobCount := by
    have h := (values_jobs_merge_perm hn s time).length_eq
    rw [SortedMap.values, List.length_map, List.length_map] at h
    exact h.symm
  roleNames := SortedMap.keys_ext fun name => by
    rw [mem_keys_jobs_merge]
    simp [ofCorpus, Corpus.merge, SortedMap.mem_keys_ofList]
  roles name x hx := by
    obtain ⟨a, ha, rfl, rfl⟩ := (find?_jobs_merge hn).1 hx
    have hr := find?_roles_merge hn ha
    simp only [JobSummary.ofSurvey, hr, Option.getD_some]
    exact hr
  expressionCount := (List.length_map _).symm
  expressionSum := by
    rw [((values_jobs_merge_perm hn s time).map _).sum_nat, List.map_map]
    exact (List.length_map _).trans (length_expressions_merge ss)
  tableCount := rfl
  tables := by
    refine congrArg SortedSet.toList (SortedSet.ofList_eq_of_mem_iff fun table => ?_)
    rw [((values_jobs_merge_perm hn s time).flatMap_right _).mem_iff, List.flatMap_map]
    rfl
  statementCount := (List.length_map _).symm
  statementSum := by
    rw [((values_jobs_merge_perm hn s time).map _).sum_nat, List.map_map]
    exact Nat.le_trans (Nat.le_of_eq (List.length_map _)) (length_statements_merge_le ss)
  transactionSum := (sum_transactions_byJob hn).symm
  alertSum := (sum_alerts_byJob hn).symm
  qualityRuleSum := (sum_qualityRules_byJob hn).symm
  hasTransactions name x hx := by
    obtain ⟨a, -, rfl, rfl⟩ := (find?_jobs_merge hn).1 hx
    exact SortedMap.contains_iff
  hasAlerts name x hx := by
    obtain ⟨a, -, rfl, rfl⟩ := (find?_jobs_merge hn).1 hx
    exact SortedMap.contains_iff
  hasQualityRules name x hx := by
    obtain ⟨a, -, rfl, rfl⟩ := (find?_jobs_merge hn).1 hx
    exact SortedMap.contains_iff
  graphs name g := by
    rw [find?_graphs_merge hn]
    constructor
    · rintro ⟨a, ha, hname, hg, hne⟩
      exact ⟨_, (find?_jobs_merge hn).2 ⟨a, ha, hname, rfl⟩, hg, hne⟩
    · rintro ⟨x, hx, hg, hne⟩
      obtain ⟨a, ha, hname, rfl⟩ := (find?_jobs_merge hn).1 hx
      exact ⟨a, ha, hname, hg, hne⟩
  expressionJobs e he := by
    obtain ⟨x, hx, rfl⟩ := List.mem_map.1 he
    obtain ⟨a, ha, hx⟩ := List.mem_flatMap.1 hx
    rw [mem_keys_jobs_merge]
    exact List.mem_map.2 ⟨a, ha, ((hl a ha).expressions x hx).symm⟩
  usageJobs table u hu job hj := by
    obtain ⟨x, hx, hjob⟩ := exists_statement_of_mem_jobs hu hj
    obtain ⟨a, ha, hx⟩ := List.mem_flatMap.1 (deduplicate_subset _ hx)
    rw [mem_keys_jobs_merge]
    exact List.mem_map.2 ⟨a, ha, ((hl a ha).statements x hx).symm.trans hjob⟩

end Merge

/-- The document of jobs with different names agrees with itself. -/
theorem consistent_ofJobs (s : Settings) (time : String) (jobs : List Job)
    (hn : (jobs.map (·.name)).Nodup) :
    (Extraction.ofJobs s time jobs).document.Consistent (jobs.map (·.name)) := by
  have hs : (jobs.map Survey.ofJob).map (·.name) = jobs.map (·.name) := List.map_map
  have hl : ∀ a ∈ jobs.map Survey.ofJob, a.Labelled := fun a ha => by
    obtain ⟨j, -, rfl⟩ := List.mem_map.1 ha
    exact Survey.labelled_ofJob j
  exact hs ▸ Document.consistent_merge (hs ▸ hn) hl s time

/-- The summaries count a repeated statement twice. -/
theorem consistent_ofJobs_repeatingJobs :
    let d := (Extraction.ofJobs {} "" repeatingJobs).document
    (repeatingJobs.map (·.name)).Nodup ∧ d.Consistent ["load", "report"] ∧
    d.queries.length = 2 ∧ (d.jobs.values.map (·.statements)).sum = 3 := by
  have hn : (repeatingJobs.map (·.name)).Nodup := by decide
  exact ⟨hn, consistent_ofJobs {} "" repeatingJobs hn, by decide +kernel, by decide +kernel⟩

end JobAtlas
