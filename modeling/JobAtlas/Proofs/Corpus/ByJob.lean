import JobAtlas.Corpus.Document

/-!
# What jobs have, by their names

Among jobs with different names each keeps what it has under its own name
(`find?_byJob_eq_some_iff`), and nothing else is there (`values_byJob_perm`). So a
sum over what is kept is a sum over the jobs, where a job that has nothing adds
nothing (`sum_values_byJob`).
-/

namespace JobAtlas

open scoped Counting

theorem names_byJob_sublist {α : Type} (part? : Survey → Option α) (ss : List Survey) :
    ((ss.filterMap fun s => (part? s).map (s.name, ·)).map Prod.fst).Sublist
      (ss.map (·.name)) := by
  induction ss with
  | nil => exact .slnil
  | cons s ss ih =>
    cases h : part? s with
    | none => simpa [h] using ih.cons s.name
    | some a => simpa [h] using ih

variable {α : Type} {part? : Survey → Option α} {ss : List Survey} {name : String}

theorem mem_keys_byJob :
    name ∈ (byJob part? ss).keys ↔ ∃ s ∈ ss, s.name = name ∧ (part? s).isSome := by
  simp only [byJob, SortedMap.mem_keys_ofList, List.mem_map, List.mem_filterMap,
    Option.map_eq_some_iff, Option.isSome_iff_exists]
  constructor
  · rintro ⟨-, ⟨s, hs, a, ha, rfl⟩, rfl⟩
    exact ⟨s, hs, rfl, a, ha⟩
  · rintro ⟨s, hs, rfl, a, ha⟩
    exact ⟨(s.name, a), ⟨s, hs, a, ha, rfl⟩, rfl⟩

section Distinct

variable (hn : (ss.map (·.name)).Nodup)
include hn

theorem entries_byJob_perm :
    (byJob part? ss).entries.Perm (ss.filterMap fun s => (part? s).map (s.name, ·)) :=
  SortedMap.entries_ofList_perm (hn.sublist (names_byJob_sublist part? ss))

theorem find?_byJob_eq_some_iff {a : α} :
    (byJob part? ss).find? name = some a ↔ ∃ s ∈ ss, s.name = name ∧ part? s = some a := by
  rw [SortedMap.find?_eq_some_iff, (entries_byJob_perm hn).mem_iff, List.mem_filterMap]
  simp only [Option.map_eq_some_iff, Prod.mk.injEq]
  constructor
  · rintro ⟨s, hs, b, hb, rfl, rfl⟩
    exact ⟨s, hs, rfl, hb⟩
  · rintro ⟨s, hs, rfl, ha⟩
    exact ⟨s, hs, a, ha, rfl, rfl⟩

theorem values_byJob_perm : (byJob part? ss).values.Perm (ss.filterMap part?) := by
  have h : (byJob part? ss).values.Perm _ := (entries_byJob_perm hn).map Prod.snd
  simpa [List.map_filterMap, Function.comp_def] using h

/-- A job that has nothing adds nothing to a sum over what jobs have. -/
theorem sum_values_byJob (f : α → Nat) :
    ((byJob part? ss).values.map f).sum = (ss.map fun s => ((part? s).map f).getD 0).sum := by
  rw [((values_byJob_perm hn).map f).sum_nat]
  clear hn
  induction ss with
  | nil => rfl
  | cons s ss ih => cases h : part? s <;> simp [h, ih]

end Distinct

end JobAtlas
