import JobAtlas.Corpus.Extraction
import JobAtlas.Proofs.Corpus.TableUsage

/-!
# What the repeated statements said

Tables are collected from all statements that are found, their use from the
first of each clean text. The two agree (`tables_ofJobs`): a statement that is
dropped says what the one that is kept says. Only where a statement was found is
lost, so that fewer jobs may be named.
-/

namespace JobAtlas

variable {xs ys : List Sql.Statement}

theorem jobs_tableUsage_subset (h : xs ⊆ ys) {table : String} {u : TableUsage}
    (hu : (tableUsage xs).find? table = some u) :
    ∃ u', (tableUsage ys).find? table = some u' ∧ u.jobs ⊆ u'.jobs := by
  rw [find?_tableUsage, Option.ite_none_right_eq_some, Option.some.injEq] at hu
  obtain ⟨⟨s, hs, ht⟩, rfl⟩ := hu
  refine ⟨.ofUsers (usersOf ys table), ?_, fun job hj => ?_⟩
  · rw [find?_tableUsage, if_pos ⟨s, h hs, ht⟩]
  · simp only [TableUsage.ofUsers, ← SortedSet.mem_def, SortedSet.mem_ofList, List.mem_map,
      mem_usersOf] at hj ⊢
    obtain ⟨s, ⟨hs, ht⟩, rfl⟩ := hj
    exact ⟨s, ⟨h hs, ht⟩, rfl⟩

/-- The tables in use are all tables, with the operations and the variables of
all statements that are found. -/
theorem tables_ofJobs (s : Settings) (time : String) (jobs : List Job)
    (h : DigestsDiffer (foundStatements jobs)) :
    let d := (Extraction.ofJobs s time jobs).document
    let found := tableUsage (foundStatements jobs)
    d.tables.usage.keys = d.tables.all ∧
    (∀ table, (d.tables.usage.find? table).map (·.operations) =
      (found.find? table).map (·.operations)) ∧
    (∀ v, (∃ q ∈ d.queries, v ∈ q.contextVariables) ↔
      ∃ a ∈ foundStatements jobs, v ∈ a.contextVariables) ∧
    ∀ table u, d.tables.usage.find? table = some u →
      ∃ u', found.find? table = some u' ∧ u.jobs ⊆ u'.jobs := by
  intro d found
  have hs : d.tables.usage = tableUsage (deduplicate (foundStatements jobs)) :=
    congrArg tableUsage (statements_merge jobs)
  have ha : d.tables.all = (SortedSet.ofList ((foundStatements jobs).flatMap (·.tables))).toList :=
    congrArg SortedSet.toList (tables_merge jobs)
  have hq : d.queries = (deduplicate (foundStatements jobs)).map .ofStatement :=
    congrArg (List.map Sql.QueryEntry.ofStatement) (statements_merge jobs)
  have hr : ∀ r, r ∈ (deduplicate (foundStatements jobs)).map (·.reading) ↔
      r ∈ (foundStatements jobs).map (·.reading) := fun r => mem_map_reading_deduplicate h
  refine ⟨?_, fun table => ?_, fun v => ?_, fun table u hu => ?_⟩
  · rw [hs, ha, keys_tableUsage_congr hr, keys_tableUsage]
  · rw [hs, operations_tableUsage_congr hr]
  · simp only [hq, List.mem_map, exists_exists_and_eq_and]
    exact exists_reading_iff hr fun r => v ∈ r.contextVariables
  · rw [hs] at hu
    exact jobs_tableUsage_subset (deduplicate_subset _) hu

theorem tables_ofJobs_repeatingJobs :
    let d := (Extraction.ofJobs {} "" repeatingJobs).document
    DigestsDiffer (foundStatements repeatingJobs) ∧ d.tables.usage.keys = d.tables.all ∧
    (d.tables.usage.find? "t").map (·.jobs) = some ["load"] := by
  have h : DigestsDiffer (foundStatements repeatingJobs) := by decide +kernel
  exact ⟨h, (tables_ofJobs {} "" repeatingJobs h).1, by decide +kernel⟩

end JobAtlas
