import Mathlib.Logic.Basic
import JobAtlas.Corpus.TableUsage
import JobAtlas.Proofs.Corpus.Reading

/-!
# Use of tables

* `find?_tableUsage`: a table is used if a statement names it, by the statements
  that name it;
* `keys_tableUsage_congr`, `operations_tableUsage_congr`: the tables in use and
  the operations on each follow from what the statements say.
-/

namespace JobAtlas

open Sql (Statement)

variable {ss xs ys : List Statement} {table : String}

theorem mem_usersOf {s : Statement} : s ∈ usersOf ss table ↔ s ∈ ss ∧ table ∈ s.tables := by
  simp [usersOf]

theorem find?_tableUsage (ss : List Statement) (table : String) :
    (tableUsage ss).find? table =
      if ∃ s ∈ ss, table ∈ s.tables then some (.ofUsers (usersOf ss table)) else none := by
  have hn : (((SortedSet.ofList (ss.flatMap (·.tables))).toList.map fun table =>
      (table, TableUsage.ofUsers (usersOf ss table))).map Prod.fst).Nodup := by
    rw [List.map_map]
    simpa [Function.comp_def] using SortedSet.nodup_toList _
  refine Option.ext fun u => ?_
  rw [tableUsage, SortedMap.find?_ofList_eq_some_iff hn, Option.ite_none_right_eq_some,
    Option.some.injEq]
  simp only [List.mem_map, Prod.mk.injEq, ← SortedSet.mem_def, SortedSet.mem_ofList,
    List.mem_flatMap]
  constructor
  · rintro ⟨t, ht, rfl, rfl⟩
    exact ⟨ht, rfl⟩
  · rintro ⟨ht, rfl⟩
    exact ⟨table, ht, rfl, rfl⟩

theorem mem_keys_tableUsage : table ∈ (tableUsage ss).keys ↔ ∃ s ∈ ss, table ∈ s.tables := by
  rw [SortedMap.mem_keys_iff, find?_tableUsage]
  split <;> simp_all

theorem keys_tableUsage (ss : List Statement) :
    (tableUsage ss).keys = (SortedSet.ofList (ss.flatMap (·.tables))).toList :=
  StrictTotal.pairwise_ext (tableUsage ss).sorted (SortedSet.sorted _) fun table => by
    rw [← SortedSet.mem_def, SortedSet.mem_ofList, List.mem_flatMap]
    exact mem_keys_tableUsage

/-- A job is named for a table if one of its statements names the table. -/
theorem exists_statement_of_mem_jobs {u : TableUsage} (hu : (tableUsage ss).find? table = some u)
    {job : String} (hj : job ∈ u.jobs) : ∃ s ∈ ss, s.job = job := by
  rw [find?_tableUsage, Option.ite_none_right_eq_some, Option.some.injEq] at hu
  obtain ⟨-, rfl⟩ := hu
  simp only [TableUsage.ofUsers, ← SortedSet.mem_def, SortedSet.mem_ofList, List.mem_map,
    mem_usersOf] at hj
  obtain ⟨s, ⟨hs, -⟩, rfl⟩ := hj
  exact ⟨s, hs, rfl⟩

/-! ## What the statements say -/

section Congr

variable (h : ∀ r, r ∈ xs.map (·.reading) ↔ r ∈ ys.map (·.reading))
include h

theorem exists_reading_iff (p : Sql.Reading → Prop) :
    (∃ s ∈ xs, p s.reading) ↔ ∃ s ∈ ys, p s.reading := by
  have hr : (∃ r ∈ xs.map (·.reading), p r) ↔ ∃ r ∈ ys.map (·.reading), p r :=
    exists_congr fun r => and_congr (h r) Iff.rfl
  simpa only [List.mem_map, exists_exists_and_eq_and] using hr

theorem keys_tableUsage_congr : (tableUsage xs).keys = (tableUsage ys).keys :=
  SortedMap.keys_ext fun table => by
    rw [mem_keys_tableUsage, mem_keys_tableUsage]
    exact exists_reading_iff h fun r => table ∈ r.tables

theorem operations_tableUsage_congr (table : String) :
    ((tableUsage xs).find? table).map (·.operations) =
      ((tableUsage ys).find? table).map (·.operations) := by
  have ht : (∃ s ∈ xs, table ∈ s.tables) ↔ ∃ s ∈ ys, table ∈ s.tables :=
    exists_reading_iff h fun r => table ∈ r.tables
  have ho : (TableUsage.ofUsers (usersOf xs table)).operations =
      (TableUsage.ofUsers (usersOf ys table)).operations := by
    refine congrArg SortedSet.toList (SortedSet.ofList_eq_of_mem_iff fun label => ?_)
    simp only [List.mem_map, mem_usersOf, and_assoc]
    exact exists_reading_iff h fun r => table ∈ r.tables ∧ r.operation.label = label
  rw [find?_tableUsage, find?_tableUsage]
  by_cases hx : ∃ s ∈ xs, table ∈ s.tables
  · rw [if_pos hx, if_pos (ht.1 hx), Option.map_some, Option.map_some, ho]
  · rw [if_neg hx, if_neg fun hy => hx (ht.2 hy)]

end Congr

end JobAtlas
