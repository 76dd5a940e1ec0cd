/-!
# Searching texts

A `Recogniser` reads a match at the start of a text. `scan` lists the values of
the leftmost matches that do not overlap, and `substitute` replaces those
matches. A recogniser returns what follows its match, so both go on from there.
Recognisers stand for patterns of the `regex` library: of several ways to match, the
first counts.
-/

namespace JobAtlas.Text

/-- Reads a match at the start of a text: its value, and the text that follows. -/
abbrev Recogniser (α : Type) := List Char → Option (α × List Char)

namespace Recogniser

variable {α β : Type}

/-- The given characters. -/
def literal (w : List Char) : Recogniser Unit := fun s =>
  if w.isPrefixOf s then some ((), s.drop w.length) else none

/-- Skip characters satisfying `p`, perhaps none. -/
def skip (p : Char → Bool) (s : List Char) : List Char := s.dropWhile p

/-- One or more characters satisfying `p`, as many as there are. -/
def run (p : Char → Bool) : Recogniser (List Char) := fun s =>
  match s.takeWhile p with
  | [] => none
  | w => some (w, s.dropWhile p)

/-- Matches from left to right, after `n` more characters are passed over. -/
def scanFrom (m : Recogniser α) : Nat → List Char → List α
  | _, [] => []
  | n + 1, _ :: s => scanFrom m n s
  | 0, c :: s =>
    match m (c :: s) with
    | none => scanFrom m 0 s
    | some (a, rest) => a :: scanFrom m (s.length - rest.length) s

/-- The values of the leftmost matches that do not overlap. -/
def scan (m : Recogniser α) (s : List Char) : List α := scanFrom m 0 s

/-- Replace matches by `new`, after `n` more characters are passed over. -/
def substituteFrom (m : Recogniser α) (new : List Char) : Nat → List Char → List Char
  | _, [] => []
  | n + 1, _ :: s => substituteFrom m new n s
  | 0, c :: s =>
    match m (c :: s) with
    | none => c :: substituteFrom m new 0 s
    | some (_, rest) => new ++ substituteFrom m new (s.length - rest.length) s

/-- Replace the leftmost matches that do not overlap. -/
def substitute (m : Recogniser α) (new : List Char) (s : List Char) : List Char :=
  substituteFrom m new 0 s

/-- Whether some position starts a match. -/
def occursIn (m : Recogniser α) : List Char → Bool
  | [] => (m []).isSome
  | c :: s => (m (c :: s)).isSome || occursIn m s

end Recogniser

/-- Whether `w` stands somewhere in the text. -/
def occurs (w : List Char) : List Char → Bool
  | [] => w.isEmpty
  | c :: s => w.isPrefixOf (c :: s) || occurs w s

/-- Whether the string `w` stands somewhere in the string `s`. -/
def contains (s w : String) : Bool := occurs w.toList s.toList

/-- Whether the string `s` begins with `w`. -/
def startsWith (s w : String) : Bool := w.toList.isPrefixOf s.toList

/-- What follows `w` at the start of `s`. -/
def dropStart? (w s : String) : Option String :=
  if startsWith s w then some (String.ofList (s.toList.drop w.toList.length)) else none

/-- The pieces between separators; there is one more of them than separators. -/
def splitAt {α : Type} [DecidableEq α] (sep : α) : List α → List (List α)
  | [] => [[]]
  | c :: s =>
    match splitAt sep s with
    | [] => [[c]]
    | piece :: pieces => if c = sep then [] :: piece :: pieces else (c :: piece) :: pieces

/-- Texts one after another with `sep` between neighbours. -/
def joined (sep : String) : List String → String
  | [] => ""
  | [s] => s
  | s :: rest => s ++ sep ++ joined sep rest

/-! ## Pieces -/

section Pieces

variable {α : Type} [DecidableEq α] {sep : α} {s : List α}

theorem splitAt_ne_nil (sep : α) (s : List α) : splitAt sep s ≠ [] := by
  cases s with
  | nil => simp [splitAt]
  | cons c s =>
    rw [splitAt]
    split
    · simp
    · split <;> simp

theorem splitAt_sep (sep : α) (s : List α) : splitAt sep (sep :: s) = [] :: splitAt sep s := by
  obtain ⟨piece, pieces, h⟩ := List.exists_cons_of_ne_nil (splitAt_ne_nil sep s)
  rw [splitAt, h]
  exact if_pos rfl

/-- The pieces of a text, cut at one of its separators, are those of both parts. -/
theorem splitAt_append (sep : α) (s t : List α) :
    splitAt sep (s ++ sep :: t) = splitAt sep s ++ splitAt sep t := by
  induction s with
  | nil => exact splitAt_sep sep t
  | cons c s ih =>
    obtain ⟨piece, pieces, h⟩ := List.exists_cons_of_ne_nil (splitAt_ne_nil sep s)
    rw [h] at ih
    simp only [List.cons_append, splitAt, ih, h]
    split <;> rfl

theorem eq_nil_of_splitAt (h : splitAt sep s = [[]]) : s = [] := by
  cases s with
  | nil => rfl
  | cons c s =>
    obtain ⟨piece, pieces, hs⟩ := List.exists_cons_of_ne_nil (splitAt_ne_nil sep s)
    rw [splitAt, hs] at h
    dsimp only at h
    split at h <;> simp at h

theorem splitAt_of_not_mem (h : sep ∉ s) : splitAt sep s = [s] := by
  induction s with
  | nil => rfl
  | cons c s ih =>
    rw [List.mem_cons, not_or] at h
    rw [splitAt, ih h.2]
    exact if_neg (Ne.symm h.1)

/-- Pieces with separators between them are cut out again, if no separator is in them. -/
theorem splitAt_intercalate {pieces : List (List α)} (hne : pieces ≠ [])
    (h : ∀ s ∈ pieces, sep ∉ s) : splitAt sep ([sep].intercalate pieces) = pieces := by
  induction pieces with
  | nil => exact absurd rfl hne
  | cons s pieces ih =>
    have hs := splitAt_of_not_mem (h s List.mem_cons_self)
    cases pieces with
    | nil => rw [List.intercalate_singleton, hs]
    | cons t pieces =>
      rw [List.intercalate_cons_cons, List.append_assoc, List.singleton_append, splitAt_append, hs,
        ih (List.cons_ne_nil t pieces) fun u hu => h u (List.mem_cons_of_mem _ hu)]
      rfl

end Pieces

theorem mem_toList_joined {sep : String} {ss : List String} {c : Char}
    (h : c ∈ (joined sep ss).toList) : c ∈ sep.toList ∨ ∃ s ∈ ss, c ∈ s.toList := by
  fun_induction joined sep ss with
  | case1 => cases h
  | case2 s => exact .inr ⟨s, List.mem_singleton_self s, h⟩
  | case3 s rest _ ih =>
    rw [String.toList_append, String.toList_append, List.mem_append, List.mem_append] at h
    rcases h with (h | h) | h
    · exact .inr ⟨s, List.mem_cons_self, h⟩
    · exact .inl h
    · exact (ih h).imp_right fun ⟨t, ht, hc⟩ => ⟨t, List.mem_cons_of_mem _ ht, hc⟩

/-! ## What is recognised -/

/-- A character of a class is none outside it. -/
theorem ne_of_class {p : Char → Bool} {c d : Char} (hc : p c = true) (hd : p d = false) : c ≠ d := by
  rintro rfl
  exact Bool.false_ne_true (hd.symm.trans hc)

theorem takeWhile_append_of_boundary {p : Char → Bool} {w r : List Char} (hw : ∀ c ∈ w, p c = true)
    (hr : ∀ c ∈ r.head?, p c = false) : (w ++ r).takeWhile p = w := by
  rw [List.takeWhile_append_of_pos hw]
  cases r with
  | nil => simp
  | cons c r => simp [hr c rfl]

theorem dropWhile_append_of_boundary {p : Char → Bool} {w r : List Char} (hw : ∀ c ∈ w, p c = true)
    (hr : ∀ c ∈ r.head?, p c = false) : (w ++ r).dropWhile p = r := by
  rw [List.dropWhile_append_of_pos hw]
  cases r with
  | nil => rfl
  | cons c r => simp [hr c rfl]

namespace Recogniser

variable {α : Type}

theorem literal_eq_some_iff {w s r : List Char} : literal w s = some ((), r) ↔ s = w ++ r := by
  simp only [literal, List.isPrefixOf_iff_prefix, Option.ite_none_right_eq_some,
    Option.some.injEq, Prod.mk.injEq, true_and]
  constructor
  · rintro ⟨⟨t, rfl⟩, rfl⟩
    rw [List.drop_left]
  · rintro rfl
    exact ⟨List.prefix_append w r, List.drop_left⟩

/-- A run goes as far as it can. -/
theorem run_eq_some_iff {p : Char → Bool} {s w r : List Char} :
    run p s = some (w, r) ↔
      w ≠ [] ∧ s = w ++ r ∧ (∀ c ∈ w, p c = true) ∧ ∀ c ∈ r.head?, p c = false := by
  constructor
  · intro h
    simp only [run] at h
    split at h
    · cases h
    · next hne =>
      cases h
      refine ⟨hne, List.takeWhile_append_dropWhile.symm, fun c hc => ?_, fun c hc => ?_⟩
      · exact (List.all_eq_true.1 List.all_takeWhile) c hc
      · have hd := List.head?_dropWhile_not p s
        rw [hc] at hd
        simpa using hd
  · rintro ⟨hne, rfl, hw, hr⟩
    rw [run, takeWhile_append_of_boundary hw hr, dropWhile_append_of_boundary hw hr]
    obtain ⟨c, w, rfl⟩ := List.exists_cons_of_ne_nil hne
    rfl

/-- Every value of a scan is that of a match at some place of the text. -/
theorem exists_of_mem_scan {m : Recogniser α} {s : List Char} {x : α} (h : x ∈ m.scan s) :
    ∃ t r, t <:+ s ∧ m t = some (x, r) := by
  have hfrom : ∀ n, x ∈ scanFrom m n s → ∃ t r, t <:+ s ∧ m t = some (x, r) := by
    clear h
    intro n h
    fun_induction scanFrom m n s with
    | case1 => cases h
    | case2 n c s ih | case3 c s _ ih =>
      obtain ⟨t, r, ht, hm⟩ := ih h
      exact ⟨t, r, ht.trans (List.suffix_cons c s), hm⟩
    | case4 c s a rest hm ih =>
      rcases List.mem_cons.1 h with rfl | h
      · exact ⟨c :: s, rest, List.suffix_rfl, hm⟩
      · obtain ⟨t, r, ht, hm⟩ := ih h
        exact ⟨t, r, ht.trans (List.suffix_cons c s), hm⟩
  exact hfrom 0 h

/-- The first match of a text is found behind any other text in which no match
begins that goes beyond it, but such a one of the same value. -/
theorem mem_scan_append {m : Recogniser α} {s : List Char} (hne : s ≠ []) {x : α} {r : List Char}
    (hs : m s = some (x, r)) {a : List Char}
    (h : ∀ v, v <:+ a → v ≠ [] → ∀ y r', m (v ++ s) = some (y, r') → s.length ≤ r'.length ∨ y = x) :
    x ∈ m.scan (a ++ s) := by
  have hfrom : ∀ n ≤ a.length, x ∈ scanFrom m n (a ++ s) := by
    induction a with
    | nil =>
      intro n hn
      obtain ⟨c, s, rfl⟩ := List.exists_cons_of_ne_nil hne
      cases Nat.le_zero.1 hn
      simp only [List.nil_append, scanFrom, hs, List.mem_cons_self]
    | cons c a ih =>
      have ih := ih fun v hv => h v (hv.trans (List.suffix_cons c a))
      intro n hn
      cases n with
      | succ n => exact ih n (Nat.le_of_succ_le_succ hn)
      | zero =>
        rw [List.cons_append, scanFrom]
        cases hm : m (c :: (a ++ s)) with
        | none => exact ih 0 (Nat.zero_le _)
        | some match? =>
          obtain ⟨y, r'⟩ := match?
          rcases h (c :: a) List.suffix_rfl (List.cons_ne_nil c a) y r' hm with hl | rfl
          · refine List.mem_cons_of_mem _ (ih _ ?_)
            rw [List.length_append]
            omega
          · exact List.mem_cons_self
  exact hfrom 0 (Nat.zero_le _)

theorem scanFrom_eq (m : Recogniser α) (n : Nat) (s : List Char) :
    scanFrom m n s = scan m (s.drop n) := by
  induction s generalizing n with
  | nil => simp [scanFrom, scan]
  | cons c s ih =>
    cases n with
    | zero => rfl
    | succ n => exact ih n

/-- The first match of a text is found, and the scan goes on behind it. -/
theorem scan_append_of_some {m : Recogniser α} {w r : List Char} {x : α} (hw : w ≠ [])
    (h : m (w ++ r) = some (x, r)) : scan m (w ++ r) = x :: scan m r := by
  obtain ⟨c, w, rfl⟩ := List.exists_cons_of_ne_nil hw
  rw [List.cons_append] at h ⊢
  rw [scan, scanFrom, h]
  show x :: scanFrom m ((w ++ r).length - r.length) (w ++ r) = _
  rw [scanFrom_eq, List.length_append, Nat.add_sub_cancel, List.drop_left]

/-- A text in which no match begins is passed over. -/
theorem scan_append_of_none {m : Recogniser α} {v s : List Char}
    (h : ∀ t, t <:+ v → t ≠ [] → m (t ++ s) = none) : scan m (v ++ s) = scan m s := by
  induction v with
  | nil => rfl
  | cons c v ih =>
    have hnone : m (c :: (v ++ s)) = none := h (c :: v) List.suffix_rfl (List.cons_ne_nil c v)
    rw [List.cons_append, scan, scanFrom, hnone]
    exact ih fun t ht => h t (ht.trans (List.suffix_cons c v))

/-! ## What is replaced -/

section Substitution

variable {m : Recogniser α} {new s : List Char} {c : Char}

theorem substituteFrom_eq (m : Recogniser α) (new : List Char) (n : Nat) (s : List Char) :
    substituteFrom m new n s = substitute m new (s.drop n) := by
  induction s generalizing n with
  | nil => simp [substituteFrom, substitute]
  | cons c s ih =>
    cases n with
    | zero => rfl
    | succ n => exact ih n

theorem substitute_of_none (h : m (c :: s) = none) :
    substitute m new (c :: s) = c :: substitute m new s := by
  rw [substitute, substituteFrom, h]
  rfl

theorem substitute_of_some {a : α} {w r : List Char} (hw : w ≠ [])
    (h : m (w ++ r) = some (a, r)) : substitute m new (w ++ r) = new ++ substitute m new r := by
  obtain ⟨c, w, rfl⟩ := List.exists_cons_of_ne_nil hw
  rw [List.cons_append] at h ⊢
  rw [substitute, substituteFrom, h]
  show new ++ substituteFrom m new ((w ++ r).length - r.length) (w ++ r) = _
  rw [substituteFrom_eq, List.length_append, Nat.add_sub_cancel, List.drop_left]

theorem occursIn_iff : occursIn m s = true ↔ ∃ t, t <:+ s ∧ (m t).isSome := by
  induction s with
  | nil => simp [occursIn, List.suffix_nil]
  | cons c s ih =>
    simp only [occursIn, Bool.or_eq_true, ih, List.suffix_cons_iff, or_and_right, exists_or,
      exists_eq_left]

theorem occursIn_literal_iff {w : List Char} : (literal w).occursIn s = true ↔ w <:+: s := by
  simp only [occursIn_iff, List.infix_iff_prefix_suffix, literal, Option.isSome_ite,
    List.isPrefixOf_iff_prefix, and_comm]

theorem substitute_of_not_occursIn (h : occursIn m s = false) : substitute m new s = s := by
  induction s with
  | nil => rfl
  | cons c s ih =>
    obtain ⟨hm, hs⟩ := Bool.or_eq_false_iff.1 h
    rw [substitute_of_none (Option.isSome_eq_false_iff.1 hm |> Option.isNone_iff_eq_none.1), ih hs]

/-- A text gets no longer if no match is shorter than what replaces it. -/
theorem length_substitute_le
    (hm : ∀ s a r, m s = some (a, r) → new.length + r.length ≤ s.length) :
    (substitute m new s).length ≤ s.length := by
  have hfrom : ∀ n, (substituteFrom m new n s).length ≤ s.length - n := by
    intro n
    fun_induction substituteFrom m new n s with
    | case1 => exact Nat.zero_le _
    | case2 n c s ih =>
      rw [List.length_cons]
      omega
    | case3 c s h ih =>
      rw [List.length_cons, List.length_cons]
      omega
    | case4 c s a rest h ih =>
      have hl := hm _ _ _ h
      rw [List.length_cons] at hl
      rw [List.length_append, List.length_cons]
      omega
  exact hfrom 0

/-- A text with a match gets shorter if every match is longer than what replaces it. -/
theorem length_substitute_lt
    (hm : ∀ s a r, m s = some (a, r) → new.length + r.length < s.length)
    (h : occursIn m s = true) : (substitute m new s).length < s.length := by
  induction s with
  | nil =>
    obtain ⟨⟨a, r⟩, hs⟩ := Option.isSome_iff_exists.1 h
    exact absurd (hm _ _ _ hs) (Nat.not_lt_zero _)
  | cons c s ih =>
    cases hs : m (c :: s) with
    | none =>
      rw [occursIn, hs, Option.isSome_none, Bool.false_or] at h
      rw [substitute_of_none hs, List.length_cons, List.length_cons]
      exact Nat.succ_lt_succ (ih h)
    | some match? =>
      obtain ⟨a, r⟩ := match?
      have hl := hm _ _ _ hs
      have hr : (substitute m new (s.drop (s.length - r.length))).length ≤ _ :=
        length_substitute_le fun s a r h => Nat.le_of_lt (hm s a r h)
      rw [List.length_drop] at hr
      rw [List.length_cons] at hl
      rw [substitute, substituteFrom, hs]
      show (new ++ substituteFrom m new (s.length - r.length) s).length < _
      rw [substituteFrom_eq, List.length_append, List.length_cons]
      omega

/-- What replaces a match stands in the text afterwards. -/
theorem infix_substitute (hm : m [] = none) (h : occursIn m s = true) :
    new <:+: substitute m new s := by
  induction s with
  | nil =>
    rw [occursIn, hm] at h
    cases h
  | cons c s ih =>
    cases hs : m (c :: s) with
    | none =>
      rw [occursIn, hs, Option.isSome_none, Bool.false_or] at h
      rw [substitute_of_none hs]
      exact List.infix_cons (ih h)
    | some match? =>
      rw [substitute, substituteFrom, hs]
      exact (List.prefix_append new _).isInfix

end Substitution

end Recogniser

theorem occurs_iff {w s : List Char} : occurs w s = true ↔ w <:+: s := by
  induction s with
  | nil => cases w <;> simp [occurs]
  | cons c s ih =>
    simp only [occurs, Bool.or_eq_true, List.isPrefixOf_iff_prefix, ih]
    exact List.infix_cons_iff.symm

theorem dropStart?_eq_some_iff {w s t : String} : dropStart? w s = some t ↔ s = w ++ t := by
  simp only [dropStart?, startsWith, List.isPrefixOf_iff_prefix, Option.ite_none_right_eq_some,
    Option.some.injEq]
  constructor
  · rintro ⟨⟨r, hr⟩, rfl⟩
    rw [← hr, List.drop_left, ← String.toList_inj, String.toList_append, String.toList_ofList, hr]
  · rintro rfl
    simp

end JobAtlas.Text
