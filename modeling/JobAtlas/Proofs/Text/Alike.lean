import JobAtlas.Proofs.Text.Spacing
import JobAtlas.Text.Case

/-!
# Texts that are alike

Two texts are alike if they differ in the case of ASCII letters and in blanks at
their ends only. Such texts have one upper case when they are trimmed
(`Alike.trim_upper`), and in lower case the same words without blanks stand in
both (`Alike.infix_iff`).
-/

namespace JobAtlas.Text

/-- The texts have the same characters between blanks, up to the case of ASCII letters. -/
inductive Alike : List Char → List Char → Prop
  | intro {a b a' b' s s' : List Char} (hblank : ∀ c ∈ a ++ b, isBlank c = true)
      (hblank' : ∀ c ∈ a' ++ b', isBlank c = true) (hcase : s.map Char.toLower = s'.map Char.toLower) :
      Alike (a ++ (s ++ b)) (a' ++ (s' ++ b'))

/-! ## Case -/

variable {c : Char} {a b s t w : List Char}

theorem toLower_of_not_ascii (h : ¬ c.toNat < 128) : c.toLower = c := by
  have hc : ¬ (65 ≤ c.toNat ∧ c.toNat ≤ 90) := by omega
  exact dif_neg hc

/-- Only on ASCII may the case of a letter make a difference. -/
theorem apply_toLower {α : Type} (f : Char → α)
    (h : ∀ n < 128, f (Char.ofNat n).toLower = f (.ofNat n)) (c : Char) : f c.toLower = f c := by
  by_cases hc : c.toNat < 128
  · have hn := h c.toNat hc
    rwa [Char.ofNat_toNat] at hn
  · rw [toLower_of_not_ascii hc]

theorem upperChar_toLower (c : Char) : upperChar c.toLower = upperChar c :=
  apply_toLower upperChar (by decide +kernel) c

theorem isBlank_toLower (c : Char) : isBlank c.toLower = isBlank c :=
  apply_toLower isBlank (by decide +kernel) c

theorem isWord_toLower (c : Char) : isWord c.toLower = isWord c :=
  apply_toLower isWord (by decide +kernel) c

theorem upper_map_toLower (s : List Char) : upper (s.map Char.toLower) = upper s := by
  simp only [upper, List.flatMap_map, upperChar_toLower]

/-! ## Blanks at the ends -/

/-- The code points of blanks. -/
def blankCodes : List Nat :=
  [9, 10, 11, 12, 13, 0x20, 0x85, 0xA0, 0x1680] ++ (List.range 11).map (0x2000 + ·) ++
    [0x2028, 0x2029, 0x202F, 0x205F, 0x3000]

theorem toNat_mem_blankCodes (h : isBlank c = true) : c.toNat ∈ blankCodes := by
  simp only [isBlank, Bool.or_eq_true, Bool.and_eq_true, decide_eq_true_eq, beq_iff_eq] at h
  simp only [blankCodes, List.mem_append, List.mem_map, List.mem_range, List.mem_cons,
    List.not_mem_nil, or_false]
  by_cases hr : 0x2000 ≤ c.toNat ∧ c.toNat ≤ 0x200A
  · exact .inl (.inr ⟨c.toNat - 0x2000, by omega, by omega⟩)
  · omega

theorem isWord_of_isBlank (h : isBlank c = true) : isWord c = false := by
  have hall : ∀ n ∈ blankCodes, isWord (.ofNat n) = false := by decide +kernel
  have hn := hall c.toNat (toNat_mem_blankCodes h)
  rwa [Char.ofNat_toNat] at hn

theorem upperChar_of_isBlank (h : isBlank c = true) : upperChar c = [c] := by
  have hall : ∀ n ∈ blankCodes, upperChar (.ofNat n) = [.ofNat n] := by decide +kernel
  have hn := hall c.toNat (toNat_mem_blankCodes h)
  rwa [Char.ofNat_toNat] at hn

theorem upper_of_blanks (h : ∀ c ∈ s, isBlank c = true) : upper s = s := by
  induction s with
  | nil => rfl
  | cons c s ih =>
    rw [upper, List.flatMap_cons, ← upper, upperChar_of_isBlank (h c List.mem_cons_self),
      ih fun d hd => h d (List.mem_cons_of_mem _ hd)]
    rfl

theorem trim_append_blanks (ha : ∀ c ∈ a, isBlank c = true) (hb : ∀ c ∈ b, isBlank c = true) :
    trim (a ++ (s ++ b)) = trim s := by
  obtain ⟨x, y, hs, hx, hy⟩ := exists_eq_strip isBlank s
  have hsplit : a ++ (s ++ b) = (a ++ x) ++ (strip isBlank s ++ (y ++ b)) := by
    conv_lhs => rw [hs]
    simp only [List.append_assoc]
  rw [hsplit]
  exact strip_append (List.forall_mem_append.2 ⟨ha, hx⟩) (List.forall_mem_append.2 ⟨hy, hb⟩)
    (fun c hc => head?_strip hc) fun c hc => getLast?_strip hc

/-- A word without blanks reaches into none. -/
theorem infix_append_blanks (hw : ∀ c ∈ w, isBlank c = false) (ha : ∀ c ∈ a, isBlank c = true) :
    w <:+: a ++ s ↔ w <:+: s := by
  induction a with
  | nil => rfl
  | cons c a ih =>
    have hc : isBlank c = true := ha c List.mem_cons_self
    have hprefix : w <+: c :: (a ++ s) → w <:+: a ++ s := by
      intro hp
      cases w with
      | nil => exact List.nil_infix
      | cons d w =>
        obtain ⟨rfl, -⟩ := List.cons_prefix_cons.1 hp
        rw [hw d List.mem_cons_self] at hc
        cases hc
    rw [List.cons_append, List.infix_cons_iff, or_iff_right_of_imp hprefix,
      ih fun d hd => ha d (List.mem_cons_of_mem _ hd)]

theorem infix_blanks_append (hw : ∀ c ∈ w, isBlank c = false) (hb : ∀ c ∈ b, isBlank c = true) :
    w <:+: s ++ b ↔ w <:+: s := by
  rw [← List.reverse_infix, List.reverse_append, infix_append_blanks, List.reverse_infix]
  · exact fun c hc => hw c (List.mem_reverse.1 hc)
  · exact fun c hc => hb c (List.mem_reverse.1 hc)

/-! ## Alike -/

theorem Alike.trim_upper (h : Alike s t) : trim (upper s) = trim (upper t) := by
  obtain ⟨hblank, hblank', hcase⟩ := h
  obtain ⟨ha, hb⟩ := List.forall_mem_append.1 hblank
  obtain ⟨ha', hb'⟩ := List.forall_mem_append.1 hblank'
  rw [upper_append, upper_append, upper_of_blanks ha, upper_of_blanks hb, trim_append_blanks ha hb,
    upper_append, upper_append, upper_of_blanks ha', upper_of_blanks hb',
    trim_append_blanks ha' hb', ← upper_map_toLower, hcase, upper_map_toLower]

theorem infix_map_toLower (hw : ∀ c ∈ w, isBlank c = false) (hblank : ∀ c ∈ a ++ b, isBlank c = true) :
    w <:+: (a ++ (s ++ b)).map Char.toLower ↔ w <:+: s.map Char.toLower := by
  have hlower : ∀ {u : List Char}, (∀ c ∈ u, isBlank c = true) →
      ∀ c ∈ u.map Char.toLower, isBlank c = true := by
    intro u hu c hc
    obtain ⟨d, hd, rfl⟩ := List.mem_map.1 hc
    rw [isBlank_toLower, hu d hd]
  obtain ⟨ha, hb⟩ := List.forall_mem_append.1 hblank
  rw [List.map_append, List.map_append, infix_append_blanks hw (hlower ha),
    infix_blanks_append hw (hlower hb)]

theorem Alike.infix_iff (h : Alike s t) (hw : ∀ c ∈ w, isBlank c = false) :
    w <:+: s.map Char.toLower ↔ w <:+: t.map Char.toLower := by
  obtain ⟨hblank, hblank', hcase⟩ := h
  rw [infix_map_toLower hw hblank, infix_map_toLower hw hblank', hcase]

end JobAtlas.Text
