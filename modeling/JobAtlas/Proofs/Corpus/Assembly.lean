import Mathlib.Data.List.Induction
import JobAtlas.Proofs.Corpus.ByJob
import JobAtlas.Proofs.Fold

/-!
# Assembling a document

The maps by job of a document are filled in one pass over the jobs. Each job puts
what it has under its name, and its summary says which of the maps, as far as they
are filled then, have this name. The summary that stays is that of the last job of a
name, and no job behind it changes what the maps have under this name. So it says the
same of the maps when they are complete (`ofCorpus_eq_assembled`).
-/

namespace JobAtlas

/-- Put what there is under a key. -/
def SortedMap.putIfSome {α : Type} (m : SortedMap String α) (name : String) :
    Option α → SortedMap String α
  | none => m
  | some a => m.insert name a

namespace Document

/-- The document of a corpus, with nothing in its maps by job. -/
def blank (c : Corpus) (s : Settings) (time : String) : Document where
  overview := .ofCorpus c s.output time
  roles := c.roles
  jobs := ∅
  queries := c.statements.map .ofStatement
  expressions := c.expressions.map .ofExpression
  tables := ⟨c.tables.toList, tableUsage c.statements⟩
  contextVariables := c.contextVariables.mapValues fun _ v => .ofVariable v
  transactions := ∅
  alerts := ∅
  qualityRules := ∅
  performance := ∅
  connections := ∅
  suggestions := JobAtlas.suggestions c s
  graphs := ∅
  checks := JobAtlas.checks c s
  recommendations := JobAtlas.recommendations c s

/-- Put in what a job has, and then its summary. -/
def putJob (c : Corpus) (d : Document) (s : Survey) : Document :=
  let filled := { d with
    transactions := d.transactions.putIfSome s.name s.transactions
    alerts := d.alerts.putIfSome s.name s.alerts?
    qualityRules := d.qualityRules.putIfSome s.name s.qualityRules.nonEmpty?
    performance := d.performance.putIfSome s.name s.performance
    connections := d.connections.putIfSome s.name s.connections.nonEmpty?
    graphs := d.graphs.putIfSome s.name s.graph? }
  { filled with
    jobs := d.jobs.insert s.name {
      role := (c.roles.find? s.name).getD .processor
      components := s.componentCount
      statements := s.statements.length
      expressions := s.expressions.length
      tables := s.tables.toList
      graph := s.graph
      structures := s.structures
      complexity := s.complexity
      hasTransactions := filled.transactions.contains s.name
      hasAlerts := filled.alerts.contains s.name
      hasQualityRules := filled.qualityRules.contains s.name } }

/-- The document that is assembled of a corpus. -/
def assembled (c : Corpus) (s : Settings) (time : String) : Document :=
  c.jobs.foldl (putJob c) (blank c s time)

end Document

/-! ## One job more -/

section ByJob

variable {α : Type} {part? part'? : Survey → Option α} {ss : List Survey} {s : Survey}
  {name : String}

theorem byJob_append_singleton :
    byJob part? (ss ++ [s]) = (byJob part? ss).putIfSome s.name (part? s) := by
  rw [byJob, List.filterMap_append, byJob]
  cases h : part? s with
  | none => simp [h, SortedMap.putIfSome]
  | some a => simp [h, SortedMap.putIfSome, SortedMap.ofList_append_singleton]

theorem find?_byJob_append_of_ne (h : name ≠ s.name) :
    (byJob part? (ss ++ [s])).find? name = (byJob part? ss).find? name := by
  rw [byJob_append_singleton]
  cases part? s with
  | none => rfl
  | some a => rw [SortedMap.putIfSome, SortedMap.find?_insert, if_neg h]

/-- What stands under a name is up to the jobs of this name. -/
theorem find?_byJob_congr (h : ∀ s ∈ ss, s.name = name → part? s = part'? s) :
    (byJob part? ss).find? name = (byJob part'? ss).find? name := by
  induction ss using List.reverseRecOn with
  | nil => rfl
  | append_singleton ss s ih =>
    have ih := ih fun x hx => h x (List.mem_append_left _ hx)
    by_cases hn : name = s.name
    · have hs : part? s = part'? s :=
        h s (List.mem_append_right _ (List.mem_singleton_self s)) hn.symm
      rw [byJob_append_singleton, byJob_append_singleton, hs]
      cases part'? s with
      | none => exact ih
      | some a =>
        rw [SortedMap.putIfSome, SortedMap.putIfSome, SortedMap.find?_insert,
          SortedMap.find?_insert, ih]
    · rw [find?_byJob_append_of_ne hn, find?_byJob_append_of_ne hn, ih]

end ByJob

/-! ## What has been assembled -/

/-- The document of a corpus, with its first jobs in the maps by job. -/
def Document.upTo (c : Corpus) (s : Settings) (time : String) (ss : List Survey) : Document :=
  { blank c s time with
    jobs := byJob (fun j => some (.ofSurvey { c with jobs := ss } j)) ss
    transactions := byJob (·.transactions) ss
    alerts := byJob (·.alerts?) ss
    qualityRules := byJob (·.qualityRules.nonEmpty?) ss
    performance := byJob (·.performance) ss
    connections := byJob (·.connections.nonEmpty?) ss
    graphs := byJob (·.graph?) ss }

/-- The jobs of other names do not change the summary of a job. -/
theorem ofSurvey_append (c : Corpus) (ss : List Survey) {s t : Survey} (h : t.name ≠ s.name) :
    JobSummary.ofSurvey { c with jobs := ss ++ [s] } t = .ofSurvey { c with jobs := ss } t := by
  simp only [JobSummary.ofSurvey, SortedMap.contains, find?_byJob_append_of_ne h]

theorem putJob_upTo (c : Corpus) (settings : Settings) (time : String) (ss : List Survey)
    (s : Survey) :
    (Document.upTo c settings time ss).putJob c s = .upTo c settings time (ss ++ [s]) := by
  have hjobs :
      byJob (fun j => some (JobSummary.ofSurvey { c with jobs := ss ++ [s] } j)) (ss ++ [s]) =
        (byJob (fun j => some (JobSummary.ofSurvey { c with jobs := ss } j)) ss).insert s.name
          (.ofSurvey { c with jobs := ss ++ [s] } s) := by
    rw [byJob_append_singleton, SortedMap.putIfSome]
    refine SortedMap.ext_find? fun name => ?_
    rw [SortedMap.find?_insert, SortedMap.find?_insert]
    by_cases hn : name = s.name
    · rw [if_pos hn, if_pos hn]
    · rw [if_neg hn, if_neg hn]
      exact find?_byJob_congr fun t _ ht => by rw [ofSurvey_append c ss (ht.trans_ne hn)]
  simp only [Document.upTo, hjobs]
  simp only [Document.putJob, JobSummary.ofSurvey, byJob_append_singleton]

/-- The document of a corpus is the one that is assembled of it. -/
theorem ofCorpus_eq_assembled (c : Corpus) (s : Settings) (time : String) :
    Document.ofCorpus c s time = .assembled c s time := by
  have h : c.jobs.foldl (Document.putJob c) (.blank c s time) = .upTo c s time c.jobs :=
    foldl_upTo (putJob_upTo c s time) [] c.jobs
  rw [Document.assembled, h]
  rfl

end JobAtlas
