import JobAtlas.Corpus.Extraction
import JobAtlas.Proofs.Corpus.ByJob
import JobAtlas.Proofs.Corpus.TableUsage

/-!
# The order of the jobs

Jobs with different names can be extracted in any order (`reordered_ofJobs`):
counts, maps, tables and remarks stay, statements and expressions are reordered.
What the order decides is which job and component a repeated statement is listed
under, and how a variable that several jobs declare is classified.

The jobs enter through their corpus: `reordered_merge` says what their order
leaves of it, and the lemmas after it take the parts of the document from there.
-/

namespace JobAtlas

/-- The same jobs, and what is known of them, in another order. -/
structure Corpus.Reordered (c c' : Corpus) : Prop where
  jobs : c.jobs.Perm c'.jobs
  names : (c.jobs.map (·.name)).Nodup
  roles : c.roles = c'.roles
  statements : (c.statements.map (·.reading)).Perm (c'.statements.map (·.reading))
  expressions : c.expressions.Perm c'.expressions
  tables : c.tables = c'.tables
  variableNames : c.contextVariables.keys = c'.contextVariables.keys

theorem map_name_declareAll (r : Context.Register) (ps : List ContextParameter) :
    (r.declareAll ps).1.map (·.name) = ps.map (·.name) := by
  induction ps generalizing r with
  | nil => rfl
  | cons p ps ih =>
    simp only [Context.Register.declareAll, List.map_cons, ih]
    rfl

theorem mem_keys_declaredVariables {ps : List ContextParameter} {name : String} :
    name ∈ (declaredVariables ps).keys ↔ name ∈ ps.map (·.name) := by
  rw [declaredVariables, SortedMap.mem_keys_ofList, List.map_map, ← map_name_declareAll ∅ ps]
  rfl

theorem Corpus.reordered_merge {jobs jobs' : List Job} (hp : jobs.Perm jobs')
    (hn : (jobs.map (·.name)).Nodup) (h : DigestsDiffer (foundStatements jobs)) :
    (merge (jobs.map .ofJob)).Reordered (merge (jobs'.map .ofJob)) := by
  have hs : (jobs.map Survey.ofJob).Perm (jobs'.map .ofJob) := hp.map _
  have hn : ((jobs.map Survey.ofJob).map (·.name)).Nodup := by rwa [List.map_map]
  refine
    { jobs := hs
      names := hn
      roles := SortedMap.ofList_eq_of_perm (hs.map _) (by rwa [List.map_map])
      statements := ?_
      expressions := hs.flatMap_right _
      tables := ?_
      variableNames := SortedMap.keys_ext fun name => ?_ }
  · rw [statements_merge, statements_merge]
    exact map_reading_deduplicate_perm hp h
  · rw [tables_merge, tables_merge]
    exact SortedSet.ofList_eq_of_mem_iff fun _ =>
      ((hp.flatMap_right _).flatMap_right _).mem_iff
  · simp only [merge, mem_keys_declaredVariables]
    exact ((hs.flatMap_right _).map _).mem_iff

/-! ## Parts of the document -/

namespace Corpus.Reordered

variable {c c' : Corpus} (h : c.Reordered c')
include h

theorem byJob {α : Type} (part? : Survey → Option α) :
    JobAtlas.byJob part? c.jobs = JobAtlas.byJob part? c'.jobs :=
  SortedMap.ofList_eq_of_perm (h.jobs.filterMap _) (h.names.sublist (names_byJob_sublist part? _))

theorem jobSummary (s : Survey) : JobSummary.ofSurvey c s = JobSummary.ofSurvey c' s := by
  simp only [JobSummary.ofSurvey, h.roles, h.byJob]

theorem contextVariables_size : c.contextVariables.size = c'.contextVariables.size := by
  simpa [SortedMap.keys, SortedMap.size] using congrArg List.length h.variableNames

theorem overview {s : Settings.Output} (hs : s.isStamped = false) (time time' : String) :
    Overview.ofCorpus c s time = Overview.ofCorpus c' s time' := by
  have hl : c.statements.length = c'.statements.length := by
    simpa using h.statements.length_eq
  have ht := ((h.jobs.filterMap (·.transactions)).map (·.groups.length)).sum_nat
  have ha := (h.jobs.map (·.alerts.length)).sum_nat
  have hq := ((h.jobs.flatMap_right (·.qualityRules.values)).map (·.length)).sum_nat
  simp only [Overview.ofCorpus, hs, Bool.false_eq_true, if_false, h.jobs.length_eq, hl,
    h.expressions.length_eq, h.tables, h.contextVariables_size, ht, ha, hq]

theorem busyTables (n : Nat) : JobAtlas.busyTables c n = JobAtlas.busyTables c' n := by
  have ha : (c.statements.flatMap (·.tables)).Perm (c'.statements.flatMap (·.tables)) := by
    have hr := h.statements.flatMap_right (·.tables)
    rwa [List.flatMap_map, List.flatMap_map] at hr
  simp only [JobAtlas.busyTables, SortedSet.ofList_eq_of_mem_iff fun _ => ha.mem_iff,
    ha.count_eq]

theorem longStatements (n : Nat) : JobAtlas.longStatements c n = JobAtlas.longStatements c' n := by
  have hr := h.statements.countP_eq fun r => n < r.sql.length
  rwa [List.countP_map, List.countP_map] at hr

theorem longExpressions (n : Nat) :
    JobAtlas.longExpressions c n = JobAtlas.longExpressions c' n := h.expressions.countP_eq _

theorem suggestions (s : Settings) : JobAtlas.suggestions c s = JobAtlas.suggestions c' s := by
  simp only [JobAtlas.suggestions, h.longStatements, h.busyTables, h.longExpressions,
    h.tables]

theorem recommendations (s : Settings) :
    JobAtlas.recommendations c s = JobAtlas.recommendations c' s := by
  have he : c.contextVariables.isEmpty = c'.contextVariables.isEmpty := by
    simpa [SortedMap.keys, SortedMap.isEmpty] using congrArg List.isEmpty h.variableNames
  simp only [JobAtlas.recommendations, h.jobs.length_eq, he, h.contextVariables_size,
    h.jobs.any_eq, h.tables]

end Corpus.Reordered

/-! ## Documents -/

def Check.isRowCount : Check → Bool
  | rowCount .. => true
  | _ => false

theorem filter_isRowCount_map {α : Type} {f : α → Check} {b : Bool}
    (h : ∀ a, (f a).isRowCount = b) (as : List α) :
    (as.map f).filter (·.isRowCount) = if b then as.map f else [] := by
  cases b with
  | false => simp [h]
  | true => simp [h]

theorem filter_isRowCount_checks (c : Corpus) (s : Settings) :
    (checks c s).filter (·.isRowCount) = rowChecks c s.validation.rowCounts := by
  rw [checks, rowChecks, schemaChecks, nullChecks, List.filter_append, List.filter_append,
    filter_isRowCount_map (f := Check.ofTable) (b := true) fun _ => rfl,
    filter_isRowCount_map (f := Check.ofStatement) (b := false) fun _ => rfl,
    filter_isRowCount_map (f := Check.ofColumn) (b := false) fun _ => rfl]
  simp

/-- What documents of the same jobs in another order share. -/
structure Document.Reordered (d d' : Document) : Prop where
  overview : d.overview = d'.overview
  roles : d.roles = d'.roles
  jobs : d.jobs = d'.jobs
  allTables : d.tables.all = d'.tables.all
  usedTables : d.tables.usage.keys = d'.tables.usage.keys
  operations : ∀ table, (d.tables.usage.find? table).map (·.operations) =
    (d'.tables.usage.find? table).map (·.operations)
  transactions : d.transactions = d'.transactions
  alerts : d.alerts = d'.alerts
  qualityRules : d.qualityRules = d'.qualityRules
  performance : d.performance = d'.performance
  connections : d.connections = d'.connections
  graphs : d.graphs = d'.graphs
  suggestions : d.suggestions = d'.suggestions
  recommendations : d.recommendations = d'.recommendations
  rowCounts : d.checks.filter (·.isRowCount) = d'.checks.filter (·.isRowCount)
  variableNames : d.contextVariables.keys = d'.contextVariables.keys
  /-- A statement may be listed under another component. -/
  queries : (d.queries.map (·.reading)).Perm (d'.queries.map (·.reading))
  expressions : d.expressions.Perm d'.expressions

theorem Document.reordered_ofCorpus {c c' : Corpus} (h : c.Reordered c') {s : Settings}
    (hs : s.output.isStamped = false) (time time' : String) :
    (ofCorpus c s time).Reordered (ofCorpus c' s time') where
  overview := h.overview hs time time'
  roles := h.roles
  jobs := (congrArg (byJob · c.jobs) (funext fun j => congrArg some (h.jobSummary j))).trans
    (h.byJob _)
  allTables := congrArg SortedSet.toList h.tables
  usedTables := keys_tableUsage_congr fun _ => h.statements.mem_iff
  operations := operations_tableUsage_congr fun _ => h.statements.mem_iff
  transactions := h.byJob _
  alerts := h.byJob _
  qualityRules := h.byJob _
  performance := h.byJob _
  connections := h.byJob _
  graphs := h.byJob _
  suggestions := h.suggestions s
  recommendations := h.recommendations s
  rowCounts := by
    rw [ofCorpus, ofCorpus, filter_isRowCount_checks, filter_isRowCount_checks, rowChecks,
      rowChecks, h.tables]
  variableNames := by
    rw [ofCorpus, ofCorpus, SortedMap.keys_mapValues, SortedMap.keys_mapValues]
    exact h.variableNames
  queries := by
    simp only [ofCorpus, List.map_map, Function.comp_def, Sql.QueryEntry.reading_ofStatement]
    exact h.statements
  expressions := h.expressions.map _

/-- Without a stamp, the order of jobs with different names leaves all as it is
but the order of statements and expressions and where a statement is listed. -/
theorem reordered_ofJobs (s : Settings) (time time' : String) (jobs jobs' : List Job)
    (hs : s.output.isStamped = false) (hn : (jobs.map (·.name)).Nodup) (hp : jobs.Perm jobs')
    (h : DigestsDiffer (foundStatements jobs)) :
    (Extraction.ofJobs s time jobs).document.Reordered
      (Extraction.ofJobs s time' jobs').document :=
  Document.reordered_ofCorpus (Corpus.reordered_merge hp hn h) hs time time'

theorem reordered_ofJobs_repeatingJobs :
    ({} : Settings).output.isStamped = false ∧ (repeatingJobs.map (·.name)).Nodup ∧
    repeatingJobs.Perm repeatingJobs.reverse ∧ DigestsDiffer (foundStatements repeatingJobs) ∧
    (Extraction.ofJobs {} "" repeatingJobs).document.Reordered
      (Extraction.ofJobs {} "" repeatingJobs.reverse).document := by
  have hn : (repeatingJobs.map (·.name)).Nodup := by decide
  have hp : repeatingJobs.Perm repeatingJobs.reverse := (List.reverse_perm _).symm
  have h : DigestsDiffer (foundStatements repeatingJobs) := by decide +kernel
  exact ⟨rfl, hn, hp, h, reordered_ofJobs {} "" "" _ _ rfl hn hp h⟩

end JobAtlas
