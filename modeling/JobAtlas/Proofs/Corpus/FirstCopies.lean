import Mathlib.Data.List.Induction
import JobAtlas.Corpus.Basic

/-!
# Which copy of a statement stays

Statements are dropped in one pass that knows the digests it has seen. Seen from the whole
list, a statement stays where no earlier one has its digest (`firsts`), whatever was dropped
in between. So the pass may be made again or made in parts (`deduplicate_firsts`). Digests are
compared and nothing else is asked of them, so this is said of texts that collide as well.

* `distinctBy_eq_firsts`: the pass keeps the first place of each key;
* `mem_firsts_iff`: what stands before an element that is kept.
-/

namespace JobAtlas

open Sql (Statement)

variable {α : Type u} {κ : Type v} [DecidableEq κ]

/-- The elements whose keys no earlier element has, place by place. -/
def firsts (key : α → κ) (as : List α) : List α :=
  (as.zipIdx.filter fun p => key p.1 ∉ (as.take p.2).map key).map Prod.fst

theorem firsts_append_singleton (key : α → κ) (as : List α) (a : α) :
    firsts key (as ++ [a]) =
      if key a ∈ as.map key then firsts key as else firsts key as ++ [a] := by
  have htake : ∀ p ∈ as.zipIdx, (as ++ [a]).take p.2 = as.take p.2 := fun p hp =>
    List.take_append_of_le_length (Nat.le_of_lt (List.snd_lt_of_mem_zipIdx hp))
  -- What comes behind a place does not bear on it.
  have hold : (as.zipIdx.filter fun p => key p.1 ∉ ((as ++ [a]).take p.2).map key) =
      as.zipIdx.filter fun p => key p.1 ∉ (as.take p.2).map key :=
    List.filter_congr fun p hp => by rw [htake p hp]
  rw [firsts, List.zipIdx_append, List.filter_append, hold, List.map_append, ← firsts]
  by_cases h : key a ∈ as.map key <;> simp [h]

/-- A pass keeps an element where its key comes first. -/
theorem distinctBy_eq_firsts (key : α → κ) (as : List α) : distinctBy key as = firsts key as := by
  induction as using List.reverseRecOn with
  | nil => rfl
  | append_singleton as a ih => rw [distinctBy_append_singleton, firsts_append_singleton, ih]

theorem mem_firsts_iff {key : α → κ} {as : List α} {a : α} :
    a ∈ firsts key as ↔ ∃ before after, as = before ++ a :: after ∧ key a ∉ before.map key := by
  have hplace : a ∈ firsts key as ↔ ∃ i, as[i]? = some a ∧ key a ∉ (as.take i).map key := by
    simp only [firsts, List.mem_map (f := Prod.fst), List.mem_filter, decide_eq_true_eq,
      Prod.exists, exists_and_right, exists_eq_right, List.mem_zipIdx_iff_getElem?]
  rw [hplace]
  constructor
  · rintro ⟨i, hi, hk⟩
    obtain ⟨hl, ha⟩ := List.getElem?_eq_some_iff.1 hi
    refine ⟨as.take i, as.drop (i + 1), ?_, hk⟩
    rw [← ha, List.getElem_cons_drop, List.take_append_drop]
  · rintro ⟨before, after, rfl, hk⟩
    refine ⟨before.length, by simp, ?_⟩
    rwa [List.take_left' rfl]

/-- The statements that are left are those whose digest no earlier one has, in their order.
Each digest is left once. Doing it again changes nothing, and behind other statements those
are left whose digests are new. -/
theorem deduplicate_firsts (xs ys : List Statement) :
    deduplicate xs = firsts (·.digest) xs ∧
    (deduplicate xs).Sublist xs ∧
    (∀ s, s ∈ deduplicate xs ↔
      ∃ before after, xs = before ++ s :: after ∧ ∀ t ∈ before, t.digest ≠ s.digest) ∧
    ((deduplicate xs).map (·.digest)).Nodup ∧
    (∀ d, d ∈ (deduplicate xs).map (·.digest) ↔ d ∈ xs.map (·.digest)) ∧
    deduplicate (deduplicate xs) = deduplicate xs ∧
    deduplicate (xs ++ ys) =
      deduplicate xs ++ (deduplicate ys).filter fun s => s.digest ∉ xs.map (·.digest) := by
  have hfirsts : deduplicate xs = firsts (·.digest) xs := distinctBy_eq_firsts _ xs
  have hnodup : ((deduplicate xs).map (·.digest)).Nodup := nodup_distinctBy _ xs
  refine ⟨hfirsts, distinctBy_sublist _ xs, fun s => ?kept, hnodup, fun d => mem_map_distinctBy,
    distinctBy_eq_self hnodup, distinctBy_append _ xs ys⟩
  case kept =>
    rw [hfirsts, mem_firsts_iff]
    simp only [List.mem_map, not_exists, not_and, ne_eq]

end JobAtlas
