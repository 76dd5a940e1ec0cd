import JobAtlas.Sorted.Order

/-!
# Sorted sets

A `SortedSet κ` is a strictly increasing list of keys, and two sets with the
same members are equal (`SortedSet.ext_mem`).
-/

namespace JobAtlas

/-- Keys in strictly increasing order. -/
structure SortedSet (κ : Type u) [LT κ] where
  toList : List κ
  sorted : toList.Pairwise (· < ·)

namespace SortedSet

variable {κ : Type u} [LT κ]

theorem ext {s t : SortedSet κ} (h : s.toList = t.toList) : s = t := by
  cases s; cases t; cases h; rfl

theorem sorted_nil : ([] : List κ).Pairwise (· < ·) := List.Pairwise.nil

def empty : SortedSet κ := ⟨[], sorted_nil⟩

instance : EmptyCollection (SortedSet κ) := ⟨empty⟩
instance : Inhabited (SortedSet κ) := ⟨empty⟩
instance : Membership κ (SortedSet κ) := ⟨fun s k => k ∈ s.toList⟩

instance [DecidableEq κ] (k : κ) (s : SortedSet κ) : Decidable (k ∈ s) :=
  inferInstanceAs (Decidable (k ∈ s.toList))

instance [DecidableEq κ] : DecidableEq (SortedSet κ) := fun s t =>
  decidable_of_iff (s.toList = t.toList) ⟨ext, fun h => h ▸ rfl⟩

def size (s : SortedSet κ) : Nat := s.toList.length

def isEmpty (s : SortedSet κ) : Bool := s.toList.isEmpty

theorem mem_def {k : κ} {s : SortedSet κ} : k ∈ s ↔ k ∈ s.toList := Iff.rfl

theorem not_mem_empty (k : κ) : k ∉ (∅ : SortedSet κ) := List.not_mem_nil

variable [StrictTotal κ]

theorem nodup_toList (s : SortedSet κ) : s.toList.Nodup := s.sorted.imp StrictTotal.ne_of_lt

/-- Sets with the same members are equal. -/
theorem ext_mem {s t : SortedSet κ} (h : ∀ k, k ∈ s ↔ k ∈ t) : s = t :=
  ext (StrictTotal.pairwise_ext s.sorted t.sorted h)

variable [DecidableLT κ]

/-- Put a key in its place, unless it is there. -/
def insertIn (k : κ) : List κ → List κ
  | [] => [k]
  | j :: ks => if k < j then k :: j :: ks else if j < k then j :: insertIn k ks else j :: ks

theorem mem_insertIn {k k' : κ} {ks : List κ} : k' ∈ insertIn k ks ↔ k' = k ∨ k' ∈ ks := by
  induction ks with
  | nil => simp [insertIn]
  | cons j ks ih =>
    simp only [insertIn]
    split
    · simp
    · split
      · simp only [List.mem_cons, ih]
        exact ⟨fun h => h.elim (fun h => .inr (.inl h)) (fun h => h.elim .inl fun h => .inr (.inr h)),
          fun h => h.elim (fun h => .inr (.inl h)) fun h => h.elim .inl fun h => .inr (.inr h)⟩
      · next h h' =>
        have e := StrictTotal.eq_of_not_lt h h'
        subst e
        simp

theorem pairwise_insertIn (k : κ) (ks : List κ) (h : ks.Pairwise (· < ·)) :
    (insertIn k ks).Pairwise (· < ·) := by
  induction ks with
  | nil => simp [insertIn]
  | cons j ks ih =>
    rw [List.pairwise_cons] at h
    simp only [insertIn]
    split
    · next hk =>
      simp only [List.pairwise_cons, List.mem_cons]
      exact ⟨fun x hx => hx.elim (· ▸ hk) fun hx => StrictTotal.trans hk (h.1 x hx), h.1, h.2⟩
    · split
      · next hk =>
        rw [List.pairwise_cons]
        exact ⟨fun x hx => (mem_insertIn.1 hx).elim (· ▸ hk) (h.1 x), ih h.2⟩
      · rw [List.pairwise_cons]
        exact h

def insert (s : SortedSet κ) (k : κ) : SortedSet κ :=
  ⟨insertIn k s.toList, pairwise_insertIn k _ s.sorted⟩

/-- Add every key of a list. -/
def insertAll (s : SortedSet κ) (ks : List κ) : SortedSet κ := ks.foldl insert s

def ofList (ks : List κ) : SortedSet κ := insertAll ∅ ks

def union (s t : SortedSet κ) : SortedSet κ := s.insertAll t.toList

theorem ofList_append (ks js : List κ) : ofList (ks ++ js) = (ofList ks).insertAll js :=
  List.foldl_append

theorem mem_insert {s : SortedSet κ} {k k' : κ} : k' ∈ s.insert k ↔ k' = k ∨ k' ∈ s :=
  mem_insertIn

theorem mem_insertAll {s : SortedSet κ} {ks : List κ} {k : κ} :
    k ∈ s.insertAll ks ↔ k ∈ s ∨ k ∈ ks := by
  induction ks generalizing s with
  | nil => simp [insertAll]
  | cons j ks ih =>
    have : k ∈ insertAll (s.insert j) ks ↔ k ∈ s.insert j ∨ k ∈ ks := ih
    show k ∈ insertAll (s.insert j) ks ↔ _
    rw [this, mem_insert, List.mem_cons]
    exact ⟨fun h => h.elim (fun h => h.elim (fun h => .inr (.inl h)) .inl) fun h => .inr (.inr h),
      fun h => h.elim (fun h => .inl (.inr h)) fun h => h.elim (fun h => .inl (.inl h)) .inr⟩

theorem mem_ofList {ks : List κ} {k : κ} : k ∈ ofList ks ↔ k ∈ ks := by
  simp [ofList, mem_insertAll, not_mem_empty]

/-- Neither order nor repetition of the keys matters. -/
theorem ofList_eq_of_mem_iff {ks js : List κ} (h : ∀ k, k ∈ ks ↔ k ∈ js) :
    ofList ks = ofList js :=
  ext_mem fun k => by rw [mem_ofList, mem_ofList, h]

theorem mem_union {s t : SortedSet κ} {k : κ} : k ∈ s.union t ↔ k ∈ s ∨ k ∈ t := mem_insertAll

end SortedSet

end JobAtlas
