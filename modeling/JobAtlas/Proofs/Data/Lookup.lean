import Mathlib.Data.List.Basic

/-!
# Look-ups in rows of pairs

A look-up finds the first pair with a key. Under distinct keys it is membership
(`lookup_eq_some_iff_mem`), so that the order of the pairs does not matter
(`lookup_eq_of_perm`).
-/

namespace JobAtlas

variable {α β : Type} {pairs pairs' : List (String × α)} {key : String} {a : α}

theorem mem_of_lookup (h : pairs.lookup key = some a) : (key, a) ∈ pairs := by
  obtain ⟨before, after, rfl, -⟩ := List.lookup_eq_some_iff.1 h
  exact List.mem_append_right _ List.mem_cons_self

theorem isSome_lookup_iff : (pairs.lookup key).isSome ↔ key ∈ pairs.map Prod.fst := by
  rw [List.lookup_isSome_iff, List.mem_map]
  exact exists_congr fun _ => and_congr_right' (beq_iff_eq.trans eq_comm)

/-- Under distinct keys a look-up is membership. -/
theorem lookup_eq_some_iff_mem (h : (pairs.map Prod.fst).Nodup) :
    pairs.lookup key = some a ↔ (key, a) ∈ pairs := by
  refine ⟨mem_of_lookup, fun hm => ?_⟩
  obtain ⟨before, after, rfl⟩ := List.append_of_mem hm
  refine List.lookup_eq_some_iff.2 ⟨before, after, rfl, fun p hp => bne_iff_ne.2 fun hk => ?_⟩
  rw [List.map_append, List.nodup_append] at h
  exact h.2.2 _ (List.mem_map_of_mem hp) key List.mem_cons_self hk.symm

theorem lookup_eq_of_perm (h : (pairs.map Prod.fst).Nodup) (hp : pairs.Perm pairs')
    (key : String) : pairs'.lookup key = pairs.lookup key := by
  refine Option.ext fun a => ?_
  rw [lookup_eq_some_iff_mem h, lookup_eq_some_iff_mem ((hp.map Prod.fst).nodup h), hp.mem_iff]

theorem lookup_insert {key' : String} (h : key ≠ key') (before after : List (String × α)) (a : α) :
    (before ++ (key', a) :: after).lookup key = (before ++ after).lookup key := by
  have hb : (key == key') = false := by simpa using h
  simp [List.lookup_append, List.lookup_cons, hb]

theorem lookup_map (g : α → β) (pairs : List (String × α)) (key : String) :
    (pairs.map fun p => (p.1, g p.2)).lookup key = (pairs.lookup key).map g := by
  induction pairs with
  | nil => rfl
  | cons p pairs ih =>
    rw [List.map_cons, List.lookup_cons, List.lookup_cons]
    cases key == p.1 with
    | true => rfl
    | false => exact ih

theorem lookup_filterMap (keys : List String) (f : String → Option α) (key : String) :
    (keys.filterMap fun k => (f k).map (k, ·)).lookup key =
      if key ∈ keys then f key else none := by
  induction keys with
  | nil => rfl
  | cons k keys ih =>
    cases hf : f k with
    | none =>
      by_cases hk : key = k
      · subst hk
        simp [hf, ih]
      · simp [hf, ih, hk]
    | some v =>
      by_cases hk : key = k
      · subst hk
        simp [hf]
      · have hb : (key == k) = false := by simpa using hk
        simp [hf, ih, hk, List.lookup_cons, hb]

end JobAtlas
