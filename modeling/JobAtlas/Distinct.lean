/-!
# First occurrences

`distinctBy key` keeps of all elements with one key the first. It filters a list
by the keys seen so far, and `distinctBy_cons` and `distinctBy_append` say the
same without them. The keys that are left are distinct (`nodup_distinctBy`) and
cover those that were there (`mem_map_distinctBy`). Keys that tell the same
elements apart keep the same ones (`distinctBy_congr`), and the keys that are kept
are the same for every order of the elements (`map_distinctBy_perm`).
-/

namespace JobAtlas

variable {α : Type u} {κ : Type v} [DecidableEq κ]

/-- The elements whose keys are neither seen before nor repeated. -/
def distinctFrom (key : α → κ) (seen : List κ) : List α → List α
  | [] => []
  | a :: as =>
    let k := key a
    if k ∈ seen then distinctFrom key seen as else a :: distinctFrom key (k :: seen) as

/-- Of the elements with one key, the first is kept. -/
def distinctBy (key : α → κ) (as : List α) : List α := distinctFrom key [] as

/-- The first occurrences of a list's elements. -/
def distinct (ks : List κ) : List κ := distinctBy id ks

theorem distinctFrom_eq_filter (key : α → κ) (seen : List κ) (as : List α) :
    distinctFrom key seen as = (distinctBy key as).filter fun a => key a ∉ seen := by
  induction as generalizing seen with
  | nil => rfl
  | cons a as ih =>
    simp only [distinctBy, distinctFrom, List.not_mem_nil, if_false]
    rw [ih [key a]]
    split
    · next h =>
      rw [ih, List.filter_cons_of_neg (by simpa using h), List.filter_filter]
      refine List.filter_congr fun b _ => ?_
      by_cases hb : key b = key a <;> simp [hb, h]
    · next h =>
      rw [ih, List.filter_cons_of_pos (by simpa using h), List.filter_filter]
      refine congrArg _ (List.filter_congr fun b _ => ?_)
      by_cases hb : key b = key a <;> simp [hb]

theorem distinctBy_nil (key : α → κ) : distinctBy key [] = [] := rfl

theorem distinctBy_cons (key : α → κ) (a : α) (as : List α) :
    distinctBy key (a :: as) = a :: (distinctBy key as).filter fun b => key b ≠ key a := by
  simp only [distinctBy, distinctFrom, List.not_mem_nil, if_false]
  rw [distinctFrom_eq_filter]
  simp [distinctBy]

theorem distinctBy_sublist (key : α → κ) (as : List α) : (distinctBy key as).Sublist as := by
  induction as with
  | nil => exact .slnil
  | cons a as ih =>
    rw [distinctBy_cons]
    exact .cons_cons a (List.filter_sublist.trans ih)

theorem nodup_distinctBy (key : α → κ) (as : List α) : ((distinctBy key as).map key).Nodup := by
  induction as with
  | nil => exact .nil
  | cons a as ih =>
    simp only [distinctBy_cons, List.map_cons, List.nodup_cons]
    refine ⟨fun h => ?_, ih.sublist (List.filter_sublist.map key)⟩
    obtain ⟨b, hb, e⟩ := List.mem_map.1 h
    simp [e] at hb

theorem mem_map_distinctBy {key : α → κ} {as : List α} {k : κ} :
    k ∈ (distinctBy key as).map key ↔ k ∈ as.map key := by
  induction as with
  | nil => rfl
  | cons a as ih =>
    by_cases hk : k = key a
    · simp [distinctBy_cons, hk]
    · simp only [distinctBy_cons, List.map_cons, List.mem_cons, hk, false_or, ← ih, List.mem_map,
        List.mem_filter]
      exact ⟨fun ⟨b, hb, e⟩ => ⟨b, hb.1, e⟩, fun ⟨b, hb, e⟩ => ⟨b, ⟨hb, by simp [e, hk]⟩, e⟩⟩

/-- Of a second list the elements stay whose keys are not in the first. -/
theorem distinctBy_append (key : α → κ) (as bs : List α) :
    distinctBy key (as ++ bs) =
      distinctBy key as ++ (distinctBy key bs).filter fun b => key b ∉ as.map key := by
  induction as with
  | nil =>
    rw [List.nil_append, distinctBy_nil, List.nil_append, List.filter_eq_self.2 fun b _ => by simp]
  | cons a as ih =>
    rw [List.cons_append, distinctBy_cons, distinctBy_cons, ih, List.filter_append, List.cons_append,
      List.filter_filter]
    refine congrArg (fun l => a :: (_ ++ l)) (List.filter_congr fun b _ => ?_)
    simp only [List.map_cons, List.mem_cons, not_or, Bool.decide_and, decide_not]

/-- A last element stays if its key is new. -/
theorem distinctBy_append_singleton (key : α → κ) (as : List α) (a : α) :
    distinctBy key (as ++ [a]) =
      if key a ∈ as.map key then distinctBy key as else distinctBy key as ++ [a] := by
  have hone : distinctBy key [a] = [a] := rfl
  rw [distinctBy_append, hone]
  split
  · next h => rw [List.filter_cons_of_neg (by simpa using h), List.filter_nil, List.append_nil]
  · next h => rw [List.filter_cons_of_pos (by simpa using h), List.filter_nil]

theorem distinctBy_eq_self {key : α → κ} {as : List α} (h : (as.map key).Nodup) :
    distinctBy key as = as := by
  induction as with
  | nil => rfl
  | cons a as ih =>
    rw [List.map_cons, List.nodup_cons] at h
    rw [distinctBy_cons, ih h.2, List.filter_eq_self.2]
    intro b hb
    have hk : key b ≠ key a := fun e => h.1 (e ▸ List.mem_map_of_mem hb)
    simp [hk]

/-- Dropping repetitions in the parts first makes no difference. -/
theorem distinctBy_append_distinctBy (key : α → κ) (as bs : List α) :
    distinctBy key (distinctBy key as ++ distinctBy key bs) = distinctBy key (as ++ bs) := by
  rw [distinctBy_append, distinctBy_append, distinctBy_eq_self (nodup_distinctBy key as),
    distinctBy_eq_self (nodup_distinctBy key bs)]
  simp only [mem_map_distinctBy]

/-- Two keys that tell the same elements apart keep the same elements. -/
theorem distinctBy_congr {μ : Type w} [DecidableEq μ] {key : α → κ} {key' : α → μ}
    {as : List α} (h : ∀ a ∈ as, ∀ b ∈ as, key a = key b ↔ key' a = key' b) :
    distinctBy key as = distinctBy key' as := by
  induction as with
  | nil => rfl
  | cons a as ih =>
    rw [distinctBy_cons, distinctBy_cons,
      ← ih fun b hb c hc => h b (List.mem_cons_of_mem _ hb) c (List.mem_cons_of_mem _ hc)]
    refine congrArg _ (List.filter_congr fun b hb => ?_)
    have hb : b ∈ as := (distinctBy_sublist key as).subset hb
    have hk := h b (List.mem_cons_of_mem _ hb) a List.mem_cons_self
    simp [hk]

theorem map_distinctBy_perm {key : α → κ} {as bs : List α}
    (h : ∀ k, k ∈ as.map key ↔ k ∈ bs.map key) :
    ((distinctBy key as).map key).Perm ((distinctBy key bs).map key) :=
  (List.perm_ext_iff_of_nodup (nodup_distinctBy key as) (nodup_distinctBy key bs)).2 fun k => by
    rw [mem_map_distinctBy, mem_map_distinctBy, h]

theorem mem_distinct {ks : List κ} {k : κ} : k ∈ distinct ks ↔ k ∈ ks := by
  simpa [distinct] using @mem_map_distinctBy _ _ _ id ks k

theorem nodup_distinct (ks : List κ) : (distinct ks).Nodup := by
  simpa [distinct] using nodup_distinctBy id ks

/-- A last element stays if it is new. -/
theorem distinct_append_singleton (ks : List κ) (k : κ) :
    distinct (ks ++ [k]) = if k ∈ ks then distinct ks else distinct ks ++ [k] := by
  rw [distinct, distinctBy_append_singleton, List.map_id]
  rfl

end JobAtlas
