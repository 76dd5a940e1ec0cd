import JobAtlas.Sorted.Order

/-!
# Sorted maps

A `SortedMap κ α` is a list of entries whose keys increase strictly. Two maps
with the same look-ups are equal (`SortedMap.ext_find?`), and `find?_insert`
says what an insertion does to every look-up.
-/

namespace JobAtlas

/-- Entries in strictly increasing order of their keys. -/
structure SortedMap (κ : Type u) (α : Type v) [LT κ] where
  entries : List (κ × α)
  sorted : (entries.map Prod.fst).Pairwise (· < ·)

namespace SortedMap

variable {κ : Type u} {α : Type v} {β : Type w} [LT κ]

theorem ext {m n : SortedMap κ α} (h : m.entries = n.entries) : m = n := by
  cases m; cases n; cases h; rfl

def empty : SortedMap κ α := ⟨[], .nil⟩

instance : EmptyCollection (SortedMap κ α) := ⟨empty⟩
instance : Inhabited (SortedMap κ α) := ⟨empty⟩

instance [DecidableEq κ] [DecidableEq α] : DecidableEq (SortedMap κ α) := fun m n =>
  decidable_of_iff (m.entries = n.entries) ⟨ext, fun h => h ▸ rfl⟩

def keys (m : SortedMap κ α) : List κ := m.entries.map Prod.fst

def values (m : SortedMap κ α) : List α := m.entries.map Prod.snd

def size (m : SortedMap κ α) : Nat := m.entries.length

def isEmpty (m : SortedMap κ α) : Bool := m.entries.isEmpty

/-- Change every value, with its key at hand. -/
def mapValues (f : κ → α → β) (m : SortedMap κ α) : SortedMap κ β :=
  ⟨m.entries.map fun e => (e.1, f e.1 e.2), by simpa [Function.comp_def] using m.sorted⟩

theorem keys_mapValues (f : κ → α → β) (m : SortedMap κ α) : (m.mapValues f).keys = m.keys := by
  simp [keys, mapValues]

/-- Keep the entries that satisfy `p`. -/
def filter (p : κ → α → Bool) (m : SortedMap κ α) : SortedMap κ α :=
  ⟨m.entries.filter fun e => p e.1 e.2, m.sorted.sublist (List.filter_sublist.map _)⟩

section Find

variable [DecidableEq κ]

/-- The value of the first entry with key `k`. -/
def findIn (k : κ) : List (κ × α) → Option α
  | [] => none
  | (k', a) :: es => if k = k' then some a else findIn k es

def find? (m : SortedMap κ α) (k : κ) : Option α := findIn k m.entries

def contains (m : SortedMap κ α) (k : κ) : Bool := (m.find? k).isSome

/-- Remove the entry with key `k`, if there is one. -/
def erase (m : SortedMap κ α) (k : κ) : SortedMap κ α := m.filter fun k' _ => k' ≠ k

end Find

section Insert

variable [DecidableLT κ]

/-- Put an entry in its place; an entry with the same key is replaced. -/
def insertIn (k : κ) (a : α) : List (κ × α) → List (κ × α)
  | [] => [(k, a)]
  | (k', a') :: es =>
    if k < k' then (k, a) :: (k', a') :: es
    else if k' < k then (k', a') :: insertIn k a es
    else (k, a) :: es

variable [StrictTotal κ]

theorem mem_keys_insertIn {k k' : κ} {a : α} {es : List (κ × α)} :
    k' ∈ (insertIn k a es).map Prod.fst ↔ k' = k ∨ k' ∈ es.map Prod.fst := by
  induction es with
  | nil => simp [insertIn]
  | cons e es ih =>
    obtain ⟨j, b⟩ := e
    simp only [insertIn]
    split
    · simp
    · split
      · simp only [List.map_cons, List.mem_cons, ih]
        exact ⟨fun h => h.elim (fun h => .inr (.inl h)) (fun h => h.elim .inl fun h => .inr (.inr h)),
          fun h => h.elim (fun h => .inr (.inl h)) fun h => h.elim .inl fun h => .inr (.inr h)⟩
      · next h h' =>
        have e := StrictTotal.eq_of_not_lt h h'
        subst e
        simp

theorem pairwise_insertIn (k : κ) (a : α) (es : List (κ × α))
    (h : (es.map Prod.fst).Pairwise (· < ·)) :
    ((insertIn k a es).map Prod.fst).Pairwise (· < ·) := by
  induction es with
  | nil => simp [insertIn]
  | cons e es ih =>
    obtain ⟨j, b⟩ := e
    rw [List.map_cons, List.pairwise_cons] at h
    simp only [insertIn]
    split
    · next hk =>
      simp only [List.map_cons, List.pairwise_cons, List.mem_cons]
      exact ⟨fun x hx => hx.elim (· ▸ hk) fun hx => StrictTotal.trans hk (h.1 x hx), h.1, h.2⟩
    · split
      · next hk =>
        rw [List.map_cons, List.pairwise_cons]
        refine ⟨fun x hx => ?_, ih h.2⟩
        exact (mem_keys_insertIn.1 hx).elim (· ▸ hk) (h.1 x)
      · next hk hk' =>
        have e := StrictTotal.eq_of_not_lt hk hk'
        subst e
        rw [List.map_cons, List.pairwise_cons]
        exact h

/-- Add an entry, replacing the value of an equal key. -/
def insert (m : SortedMap κ α) (k : κ) (a : α) : SortedMap κ α :=
  ⟨insertIn k a m.entries, pairwise_insertIn k a _ m.sorted⟩

/-- Entries added from left to right, so that the last value of a key stays. -/
def ofList (es : List (κ × α)) : SortedMap κ α := es.foldl (fun m e => m.insert e.1 e.2) ∅

/-- Replace the value of `k` by `f` of what was there. -/
def update [DecidableEq κ] (m : SortedMap κ α) (k : κ) (f : Option α → α) : SortedMap κ α :=
  m.insert k (f (m.find? k))

/-- The entries of both maps, the values of a key that both have joined by `f`. -/
def mergeWith [DecidableEq κ] (f : α → α → α) (m n : SortedMap κ α) : SortedMap κ α :=
  n.entries.foldl (fun m e => m.update e.1 fun a? => (a?.map (f · e.2)).getD e.2) m

end Insert

/-! ## Look-ups determine the map -/

section Lemmas

variable [DecidableEq κ]

theorem find?_empty (k : κ) : (∅ : SortedMap κ α).find? k = none := rfl

omit [LT κ] in
theorem mem_of_findIn {k : κ} {a : α} {es : List (κ × α)} (h : findIn k es = some a) :
    (k, a) ∈ es := by
  induction es with
  | nil => simp [findIn] at h
  | cons e es ih =>
    obtain ⟨j, b⟩ := e
    simp only [findIn] at h
    split at h
    · next hk =>
      cases h
      simp [hk]
    · exact List.mem_cons_of_mem _ (ih h)

omit [LT κ] in
theorem findIn_of_mem {k : κ} {a : α} {es : List (κ × α)} (hn : (es.map Prod.fst).Nodup)
    (h : (k, a) ∈ es) : findIn k es = some a := by
  induction es with
  | nil => simp at h
  | cons e es ih =>
    obtain ⟨j, b⟩ := e
    rw [List.map_cons, List.nodup_cons] at hn
    simp only [findIn]
    rcases List.mem_cons.1 h with e | h
    · cases e; simp
    · have hk : k ∈ es.map Prod.fst := List.mem_map_of_mem (f := Prod.fst) h
      have hj : k ≠ j := fun e => hn.1 (e ▸ hk)
      rw [if_neg hj]
      exact ih hn.2 h

omit [LT κ] in
theorem findIn_append {k : κ} {es fs : List (κ × α)} :
    findIn k (es ++ fs) = (findIn k es).or (findIn k fs) := by
  induction es with
  | nil => rfl
  | cons e es ih =>
    obtain ⟨j, b⟩ := e
    simp only [List.cons_append, findIn]
    split
    · rfl
    · exact ih

omit [LT κ] in
theorem isSome_findIn {k : κ} {es : List (κ × α)} :
    (findIn k es).isSome ↔ k ∈ es.map Prod.fst := by
  induction es with
  | nil => simp [findIn]
  | cons e es ih =>
    obtain ⟨j, b⟩ := e
    by_cases hk : k = j <;> simp [findIn, hk, ih]

omit [DecidableEq κ] in
theorem nodup_keys [StrictTotal κ] (m : SortedMap κ α) : m.keys.Nodup :=
  m.sorted.imp StrictTotal.ne_of_lt

theorem find?_eq_some_iff [StrictTotal κ] {m : SortedMap κ α} {k : κ} {a : α} :
    m.find? k = some a ↔ (k, a) ∈ m.entries :=
  ⟨mem_of_findIn, findIn_of_mem m.nodup_keys⟩

theorem mem_keys_iff {m : SortedMap κ α} {k : κ} : k ∈ m.keys ↔ (m.find? k).isSome :=
  isSome_findIn.symm

theorem contains_iff {m : SortedMap κ α} {k : κ} : m.contains k ↔ k ∈ m.keys :=
  mem_keys_iff.symm

omit [DecidableEq κ] in
/-- Maps with the same keys list them in the same order. -/
theorem keys_ext [StrictTotal κ] {m : SortedMap κ α} {n : SortedMap κ β}
    (h : ∀ k, k ∈ m.keys ↔ k ∈ n.keys) : m.keys = n.keys :=
  StrictTotal.pairwise_ext m.sorted n.sorted h

/-- Maps with the same look-ups are equal. -/
theorem ext_find? [StrictTotal κ] {m n : SortedMap κ α} (h : ∀ k, m.find? k = n.find? k) :
    m = n := by
  have hk : m.keys = n.keys := keys_ext fun k => by rw [mem_keys_iff, mem_keys_iff, h]
  apply ext
  apply List.ext_getElem
  · simpa [keys] using congrArg List.length hk
  · intro i hi hj
    have he : m.entries[i].1 = n.entries[i].1 := by
      have h1 : m.keys[i]? = n.keys[i]? := by rw [hk]
      simpa [keys, hi, hj] using h1
    have h₁ : m.find? m.entries[i].1 = some m.entries[i].2 :=
      find?_eq_some_iff.2 (List.getElem_mem hi)
    have h₂ : n.find? n.entries[i].1 = some n.entries[i].2 :=
      find?_eq_some_iff.2 (List.getElem_mem hj)
    rw [he, h, h₂, Option.some.injEq] at h₁
    exact Prod.ext he h₁.symm

omit [LT κ] in
theorem findIn_map (f : κ → α → β) (es : List (κ × α)) (k : κ) :
    findIn k (es.map fun e => (e.1, f e.1 e.2)) = (findIn k es).map (f k) := by
  induction es with
  | nil => rfl
  | cons e es ih =>
    obtain ⟨j, b⟩ := e
    by_cases hk : k = j
    · subst hk; simp [findIn]
    · simp [findIn, hk, ih]

theorem find?_mapValues (f : κ → α → β) (m : SortedMap κ α) (k : κ) :
    (m.mapValues f).find? k = (m.find? k).map (f k) :=
  findIn_map f m.entries k

theorem find?_filter [StrictTotal κ] (p : κ → α → Bool) (m : SortedMap κ α) (k : κ) :
    (m.filter p).find? k = (m.find? k).filter (p k) := by
  refine Option.ext fun a => ?_
  rw [find?_eq_some_iff, Option.filter_eq_some_iff, find?_eq_some_iff]
  exact List.mem_filter

variable [DecidableLT κ] [StrictTotal κ]

/-- A new key goes between the entries below it and those above it. -/
theorem exists_entries_insert {m : SortedMap κ α} {k : κ} (h : m.find? k = none) (a : α) :
    ∃ before after, m.entries = before ++ after ∧
      (m.insert k a).entries = before ++ (k, a) :: after := by
  show ∃ before after, m.entries = before ++ after ∧
    insertIn k a m.entries = before ++ (k, a) :: after
  have h : findIn k m.entries = none := h
  generalize m.entries = es at h
  induction es with
  | nil => exact ⟨[], [], rfl, rfl⟩
  | cons e es ih =>
    obtain ⟨j, b⟩ := e
    simp only [findIn] at h
    split at h
    · cases h
    · next hk =>
      simp only [insertIn]
      split
      · exact ⟨[], (j, b) :: es, rfl, rfl⟩
      · next hkj =>
        have hjk : j < k := by
          rcases StrictTotal.trichotomy k j with h' | h' | h'
          · exact absurd h' hkj
          · exact absurd h' hk
          · exact h'
        obtain ⟨before, after, he, hi⟩ := ih h
        rw [if_pos hjk, hi, he]
        exact ⟨(j, b) :: before, after, rfl, rfl⟩

/-- An insertion changes the look-up of its own key only. -/
theorem find?_insert (m : SortedMap κ α) (k k' : κ) (a : α) :
    (m.insert k a).find? k' = if k' = k then some a else m.find? k' := by
  show findIn k' (insertIn k a m.entries) = if k' = k then some a else findIn k' m.entries
  generalize m.entries = es
  induction es with
  | nil => simp [insertIn, findIn]
  | cons e es ih =>
    obtain ⟨j, b⟩ := e
    simp only [insertIn]
    split
    · simp [findIn]
    · split
      · next h h' =>
        simp only [findIn, ih]
        by_cases hj : k' = j
        · simp [hj, StrictTotal.ne_of_lt h']
        · simp [hj]
      · next h h' =>
        have e := StrictTotal.eq_of_not_lt h h'
        subst e
        simp only [findIn]
        split <;> rfl

/-- The last entry of a list counts. -/
theorem find?_ofList (es : List (κ × α)) (k : κ) : (ofList es).find? k = findIn k es.reverse := by
  have h : ∀ m : SortedMap κ α, (es.foldl (fun m e => m.insert e.1 e.2) m).find? k =
      (findIn k es.reverse).or (m.find? k) := by
    induction es with
    | nil => exact fun m => rfl
    | cons e es ih =>
      intro m
      rw [List.foldl_cons, ih, List.reverse_cons, findIn_append, find?_insert, Option.or_assoc]
      congr 1
      simp only [findIn]
      split <;> rfl
  rw [ofList, h, find?_empty, Option.or_none]

omit [DecidableEq κ] in
theorem ofList_append_singleton (es : List (κ × α)) (e : κ × α) :
    ofList (es ++ [e]) = (ofList es).insert e.1 e.2 := by
  rw [ofList, List.foldl_append, List.foldl_cons, List.foldl_nil, ofList]

theorem mapValues_ofList (f : κ → α → β) (es : List (κ × α)) :
    (ofList es).mapValues f = ofList (es.map fun e => (e.1, f e.1 e.2)) := by
  refine ext_find? fun k => ?_
  rw [find?_mapValues, find?_ofList, find?_ofList, ← List.map_reverse, findIn_map]

theorem find?_ofList_append (es fs : List (κ × α)) (k : κ) :
    (ofList (es ++ fs)).find? k = ((ofList fs).find? k).or ((ofList es).find? k) := by
  rw [find?_ofList, find?_ofList, find?_ofList, List.reverse_append, findIn_append]

theorem find?_mergeWith (f : α → α → α) (m n : SortedMap κ α) (k : κ) :
    (mergeWith f m n).find? k = Option.merge f (m.find? k) (n.find? k) := by
  obtain ⟨es, hs⟩ := n
  show (es.foldl (fun m e => m.update e.1 fun a? => (a?.map (f · e.2)).getD e.2) m).find? k =
    Option.merge f (m.find? k) (findIn k es)
  have hn : (es.map Prod.fst).Nodup := hs.imp StrictTotal.ne_of_lt
  clear hs
  induction es generalizing m with
  | nil => cases h : m.find? k <;> simp [findIn, h]
  | cons e es ih =>
    obtain ⟨j, b⟩ := e
    rw [List.map_cons, List.nodup_cons] at hn
    rw [List.foldl_cons, ih _ hn.2, update, find?_insert, findIn]
    split
    · next hk =>
      -- the key does not come again
      have hnone : findIn k es = none := by
        rw [← Option.not_isSome_iff_eq_none, isSome_findIn, hk]
        exact hn.1
      rw [hnone, hk]
      cases m.find? j <;> rfl
    · rfl

theorem mem_keys_ofList {es : List (κ × α)} {k : κ} :
    k ∈ (ofList es).keys ↔ k ∈ es.map Prod.fst := by
  rw [mem_keys_iff, find?_ofList, isSome_findIn, List.map_reverse, List.mem_reverse]

theorem find?_ofList_eq_some_iff {es : List (κ × α)} (hn : (es.map Prod.fst).Nodup) {k : κ}
    {a : α} : (ofList es).find? k = some a ↔ (k, a) ∈ es := by
  have hn : (es.reverse.map Prod.fst).Nodup := by
    rw [List.map_reverse]
    exact (List.reverse_perm _).nodup_iff.2 hn
  rw [find?_ofList, ← List.mem_reverse]
  exact ⟨mem_of_findIn, findIn_of_mem hn⟩

/-- The order of entries with distinct keys does not matter. -/
theorem ofList_eq_of_perm {es fs : List (κ × α)} (h : es.Perm fs)
    (hn : (es.map Prod.fst).Nodup) : ofList es = ofList fs := by
  refine ext_find? fun k => Option.ext fun a => ?_
  rw [find?_ofList_eq_some_iff hn, find?_ofList_eq_some_iff ((h.map _).nodup_iff.1 hn), h.mem_iff]

/-- Entries with distinct keys are all there. -/
theorem entries_ofList_perm {es : List (κ × α)} (hn : (es.map Prod.fst).Nodup) :
    (ofList es).entries.Perm es := by
  have hnodup {fs : List (κ × α)} (h : (fs.map Prod.fst).Nodup) : fs.Nodup :=
    List.Pairwise.of_map Prod.fst (fun _ _ hk e => hk (congrArg Prod.fst e)) h
  refine (List.perm_ext_iff_of_nodup (hnodup (ofList es).nodup_keys) (hnodup hn)).2 fun ⟨k, a⟩ => ?_
  rw [← find?_eq_some_iff, find?_ofList_eq_some_iff hn]

/-- The entries of a map make up the map. -/
theorem ofList_entries (m : SortedMap κ α) : ofList m.entries = m :=
  ext_find? fun k => Option.ext fun a => by
    rw [find?_ofList_eq_some_iff m.nodup_keys, find?_eq_some_iff]

end Lemmas

end SortedMap

end JobAtlas
