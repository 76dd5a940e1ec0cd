import JobAtlas.Proofs.Corpus.Batches
import JobAtlas.Proofs.Fold

/-!
# Merging jobs one after another

The surveys of jobs are merged in one pass, with a register that classifies the
variables of all of them. What has been merged is the corpus of the jobs so far
(`mergeJob_mergedUpTo`); their statements are deduplicated at the end
(`merge_eq_merged`).
-/

namespace JobAtlas.Corpus

open Context (Register)

/-- A corpus in the making, with the register of its variables. -/
structure Merging where
  register : Register := ∅
  corpus : Corpus := {}

/-- Merge what a survey has beside variables. -/
def mergeParts (c : Corpus) (s : Survey) : Corpus :=
  { c with
    roles := c.roles.insert s.name (.infer s.name s.hasSubJob)
    tables := c.tables.union s.tables
    expressions := c.expressions ++ s.expressions }

namespace Merging

/-- Classify and enter a variable. -/
def declare (m : Merging) (p : ContextParameter) : Merging :=
  let (v, register) := m.register.declare p
  ⟨register, { m.corpus with contextVariables := m.corpus.contextVariables.insert p.name v }⟩

/-- Merge the survey of a job. -/
def mergeJob (m : Merging) (s : Survey) : Merging :=
  s.contextParameters.foldl declare { m with corpus := m.corpus.mergeParts s }

end Merging

/-- The corpus that comes of merging jobs one after another. -/
def merged (jobs : List Survey) : Corpus :=
  { (jobs.foldl Merging.mergeJob {}).corpus with
    jobs
    statements := deduplicate (jobs.flatMap (·.statements)) }

/-! ## What has been merged -/

/-- A corpus with the variables that are declared. -/
def Merging.withDeclared (c : Corpus) (ps : List ContextParameter) : Merging where
  register := (Register.declareAll ∅ ps).2
  corpus := { c with contextVariables := declaredVariables ps }

theorem declare_withDeclared (c : Corpus) (ps : List ContextParameter) (p : ContextParameter) :
    (Merging.withDeclared c ps).declare p = .withDeclared c (ps ++ [p]) := by
  rw [Merging.withDeclared, Merging.withDeclared, declaredVariables_append_singleton,
    declareAll_append]
  rfl

theorem mergeJob_withDeclared (c : Corpus) (ps : List ContextParameter) (s : Survey) :
    (Merging.withDeclared c ps).mergeJob s =
      .withDeclared (c.mergeParts s) (ps ++ s.contextParameters) :=
  foldl_upTo (declare_withDeclared (c.mergeParts s)) ps s.contextParameters

/-- What has been merged of jobs, without what is known only of all of them. -/
def mergedUpTo (jobs : List Survey) : Merging :=
  .withDeclared { merge jobs with jobs := [], statements := [] }
    (jobs.flatMap (·.contextParameters))

/-- A job is merged into the corpus of those before it. -/
theorem mergeJob_mergedUpTo (jobs : List Survey) (s : Survey) :
    (mergedUpTo jobs).mergeJob s = mergedUpTo (jobs ++ [s]) := by
  rw [mergedUpTo, mergeJob_withDeclared, mergedUpTo, List.flatMap_append, List.flatMap_singleton]
  simp only [Merging.withDeclared, mergeParts, merge, List.map_append, List.map_singleton,
    List.flatMap_append, List.flatMap_singleton, SortedMap.ofList_append_singleton,
    SortedSet.ofList_append, SortedSet.union]

theorem merge_eq_merged (jobs : List Survey) : merge jobs = merged jobs := by
  have h : jobs.foldl Merging.mergeJob {} = mergedUpTo jobs :=
    foldl_upTo mergeJob_mergedUpTo [] jobs
  rw [merged, h]
  rfl

end JobAtlas.Corpus
