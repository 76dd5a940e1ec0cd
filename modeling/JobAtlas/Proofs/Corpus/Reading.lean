import JobAtlas.Corpus.Basic

/-!
# Readings of statements

A statement says what its clean text says: the operation, the tables and the
context variables are read off the text (`reading_of_mem_statementsOf`). So the
statements that are left of those with one clean text say as much as all of
them, whichever they are:

* `mem_map_reading_deduplicate`: the readings of a corpus are those of all
  statements of its jobs;
* `map_reading_deduplicate_perm`: each of them is there once, whatever the order
  of the jobs.
-/

namespace JobAtlas

open Sql (Statement)

namespace Sql

/-- What a statement says, apart from where it was found. -/
structure Reading where
  operation : Operation
  tables : List String
  contextVariables : List String
  sql : String
deriving DecidableEq

def Reading.ofText (text : String) : Reading :=
  ⟨Operation.detect text, Sql.tables text, Sql.contextVariables text, text⟩

def Statement.reading (s : Statement) : Reading :=
  ⟨s.operation, s.tables, s.contextVariables, s.cleaned⟩

/-- A listed statement without the label of its component. -/
def QueryEntry.reading (q : QueryEntry) : Reading :=
  ⟨q.operation, q.tables, q.contextVariables, q.sql⟩

theorem QueryEntry.reading_ofStatement (s : Statement) :
    (QueryEntry.ofStatement s).reading = s.reading := rfl

end Sql

/-- The statements of jobs, each as often as it is found. -/
def foundStatements (jobs : List Job) : List Statement := jobs.flatMap Survey.statementsOf

/-- Statements with different clean texts have different digests. -/
def DigestsDiffer (ss : List Statement) : Prop :=
  ∀ a ∈ ss, ∀ b ∈ ss, a.cleaned ≠ b.cleaned → a.digest ≠ b.digest

instance (ss : List Statement) : Decidable (DigestsDiffer ss) :=
  inferInstanceAs (Decidable (∀ a ∈ ss, ∀ b ∈ ss, a.cleaned ≠ b.cleaned → a.digest ≠ b.digest))

theorem Sql.Statement.reading_ofRaw (job : String) (c : Component) (raw : String) :
    (ofRaw job c raw).reading = .ofText (ofRaw job c raw).cleaned := by
  simp only [reading, ofRaw, Reading.ofText]

theorem reading_of_mem_statementsOf {j : Job} {s : Statement} (h : s ∈ Survey.statementsOf j) :
    s.reading = .ofText s.cleaned := by
  simp only [Survey.statementsOf, Statement.ofComponent, List.mem_flatMap, List.mem_map] at h
  obtain ⟨c, -, p, -, rfl⟩ := h
  exact Statement.reading_ofRaw _ _ _

theorem statements_merge (jobs : List Job) :
    (Corpus.merge (jobs.map .ofJob)).statements = deduplicate (foundStatements jobs) := by
  rw [Corpus.merge, List.flatMap_map]
  rfl

/-- The tables are collected before repeated statements are dropped. -/
theorem tables_merge (jobs : List Job) : (Corpus.merge (jobs.map .ofJob)).tables =
    .ofList ((foundStatements jobs).flatMap (·.tables)) := by
  refine SortedSet.ofList_eq_of_mem_iff fun table => ?_
  simp only [foundStatements, List.flatMap_map, List.flatMap_assoc, List.mem_flatMap,
    Survey.ofJob, ← SortedSet.mem_def, SortedSet.mem_ofList]

variable {jobs jobs' : List Job}

theorem map_reading_eq {ss : List Statement} (h : ss ⊆ foundStatements jobs) :
    ss.map (·.reading) = (ss.map (·.cleaned)).map .ofText := by
  rw [List.map_map]
  refine List.map_congr_left fun s hs => ?_
  obtain ⟨j, -, hs⟩ := List.mem_flatMap.1 (h hs)
  exact reading_of_mem_statementsOf hs

theorem deduplicate_subset (ss : List Statement) : deduplicate ss ⊆ ss :=
  (distinctBy_sublist _ ss).subset

/-- Statements are told apart by their clean texts. -/
theorem deduplicate_eq {ss : List Statement} (h : DigestsDiffer ss) :
    deduplicate ss = distinctBy (·.cleaned) ss := by
  refine distinctBy_congr fun a ha b hb => ⟨fun hd => ?_, fun hc => ?_⟩
  · exact Decidable.byContradiction fun hc => h a ha b hb hc hd
  · rw [Statement.digest, Statement.digest, hc]

theorem mem_map_reading_deduplicate (h : DigestsDiffer (foundStatements jobs)) {r : Sql.Reading} :
    r ∈ (deduplicate (foundStatements jobs)).map (·.reading) ↔
      r ∈ (foundStatements jobs).map (·.reading) := by
  rw [map_reading_eq (deduplicate_subset _), map_reading_eq (List.Subset.refl _),
    deduplicate_eq h]
  simp only [List.mem_map (f := Sql.Reading.ofText), mem_map_distinctBy]

theorem map_reading_deduplicate_perm (hp : jobs.Perm jobs')
    (h : DigestsDiffer (foundStatements jobs)) :
    ((deduplicate (foundStatements jobs)).map (·.reading)).Perm
      ((deduplicate (foundStatements jobs')).map (·.reading)) := by
  have hf : (foundStatements jobs).Perm (foundStatements jobs') := hp.flatMap_right _
  have h' : DigestsDiffer (foundStatements jobs') :=
    fun a ha b hb => h a (hf.mem_iff.2 ha) b (hf.mem_iff.2 hb)
  rw [map_reading_eq (deduplicate_subset _), map_reading_eq (deduplicate_subset _),
    deduplicate_eq h, deduplicate_eq h']
  exact (map_distinctBy_perm fun t => (hf.map _).mem_iff).map _

/-! ## A repeated statement -/

/-- A job whose components run one query each. -/
def Job.ofQueries (name : String) (queries : List (String × String)) : Job where
  name
  components := queries.map fun q =>
    { kind := "tDBRow", name := q.1, position := {}
      parameters := [⟨"QUERY", none, q.2, []⟩], schemas := [], mappers := [], links := [] }
  parameters := []
  links := []
  contexts := []

/-- Two jobs, the second of which repeats a statement of the first. -/
def repeatingJobs : List Job :=
  [.ofQueries "load" [("read", "SELECT x FROM t"), ("clear", "DELETE FROM u")],
    .ofQueries "report" [("list", "\"SELECT  x FROM t\"")]]

end JobAtlas
