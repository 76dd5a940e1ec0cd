import JobAtlas.Proofs.Toml.Quoting
import JobAtlas.Toml.Document

/-!
# Reading scalars

A quoted text, a number and a flag are read as they were written
(`scalar_quote`, `scalar_digits`, `scalar_flag`). Digits at the end of a line are no
moment, since a moment goes on behind its first digits (`moment_digits`), and their
value is the number that they were made from (`integer?_toDigits`).
-/

namespace JobAtlas.Toml

open Text (Recogniser ne_of_class)

/-! ## Digits -/

theorem toNat_of_isDigit {c : Char} (h : c.isDigit = true) : 48 ≤ c.toNat ∧ c.toNat < 58 := by
  simp only [Char.isDigit, Bool.and_eq_true, decide_eq_true_eq, ge_iff_le,
    UInt32.le_iff_toNat_le] at h
  exact ⟨h.1, Nat.lt_succ_of_le h.2⟩

theorem isDigit_toDigits (n : Nat) : ∀ c ∈ Nat.toDigits 10 n, c.isDigit = true := fun _ =>
  Nat.isDigit_of_mem_toDigits (by decide) (by decide)

theorem hexValue?_of_isDigit {c : Char} (h : c.isDigit = true) :
    (hexValue? c).filter (· < 10) = some (c.toNat - 48) := by
  have hc := toNat_of_isDigit h
  rw [hexValue?, if_pos h, Option.filter_some, if_pos (decide_eq_true (by omega))]

theorem digits?_of_isDigit {w : List Char} (hne : w ≠ []) (hw : ∀ c ∈ w, c.isDigit = true) :
    digits? 10 w = some (w.map fun c => c.toNat - 48) := by
  induction w with
  | nil => exact absurd rfl hne
  | cons c w ih =>
    have hc := hexValue?_of_isDigit (hw c List.mem_cons_self)
    cases w with
    | nil => simp [digits?, hc]
    | cons d w =>
      have hd : d ≠ '_' := ne_of_class (hw d (by simp)) (by decide)
      have ih := ih (by simp) fun e he => hw e (List.mem_cons_of_mem _ he)
      rw [digits?]
      · rw [hc, ih]
        rfl
      · exact nofun
      · exact fun s h => absurd (List.cons.inj h).1 hd

theorem digitsValue_map (w : List Char) :
    digitsValue 10 (w.map fun c => c.toNat - 48) = Nat.ofDigitChars 10 w 0 := by
  rw [digitsValue, List.foldl_map, Nat.ofDigitChars_eq_foldl]
  rfl

/-- A number other than zero does not begin with the digit zero. -/
theorem head?_toDigits {n : Nat} (hn : 0 < n) :
    ∃ c, (Nat.toDigits 10 n).head? = some c ∧ c.toNat ≠ 48 := by
  induction n using Nat.strongRecOn with
  | ind n ih =>
    by_cases h : n < 10
    · rw [Nat.toDigits_of_lt_base h]
      refine ⟨n.digitChar, rfl, ?_⟩
      have hd : ∀ n < 10, 0 < n → n.digitChar.toNat ≠ 48 := by decide
      exact hd n h hn
    · obtain ⟨c, hc, hne⟩ := ih (n / 10) (by omega) (by omega)
      rw [Nat.toDigits_of_base_le (by decide) (Nat.le_of_not_lt h), List.head?_append, hc]
      exact ⟨c, rfl, hne⟩

theorem decimal?_toDigits (n : Nat) : decimal? (Nat.toDigits 10 n) = some n := by
  have hw := isDigit_toDigits n
  rw [decimal?, digits?_of_isDigit Nat.toDigits_ne_nil hw, Option.bind_eq_bind, Option.bind_some,
    digitsValue_map, Nat.ofDigitChars_ten_toDigits, if_neg]
  rintro ⟨hl, hh⟩
  rcases Nat.eq_zero_or_pos n with rfl | hn
  · exact hl rfl
  · obtain ⟨c, hc, hne⟩ := head?_toDigits hn
    have hv := toNat_of_isDigit (hw c (List.mem_of_head? hc))
    rw [List.head?_map, hc, Option.map_some, Option.some.injEq] at hh
    omega

theorem integer?_toDigits {n : Nat} (hn : n < Nat.pow 2 63) :
    integer? (Nat.toDigits 10 n) = some (n : Int) := by
  have hw := isDigit_toDigits n
  have hd := decimal?_toDigits n
  obtain ⟨c, w, hcw⟩ := List.exists_cons_of_ne_nil (Nat.toDigits_ne_nil (n := n) (b := 10))
  rw [hcw] at hw hd ⊢
  have hc := hw c List.mem_cons_self
  have hu : unsigned (c :: w) = (false, c :: w) := by
    rw [unsigned]
    · exact fun s h => ne_of_class hc (by decide) (List.cons.inj h).1
    · exact fun s h => ne_of_class hc (by decide) (List.cons.inj h).1
  have hbase : ∀ b s, b.isDigit = false → c :: w ≠ '0' :: b :: s := fun b s hb h =>
    ne_of_class (hw b (by simp [(List.cons.inj h).2])) hb rfl
  rw [integer?]
  · simp [hu, hd, hn]
  · exact fun s => hbase 'x' s (by decide)
  · exact fun s => hbase 'o' s (by decide)
  · exact fun s => hbase 'b' s (by decide)

/-! ## No moments -/

section Moment

variable {ds : List Char} (hds : ∀ c ∈ ds, c.isDigit = true) (r : List Char)
include hds

/-- Of digits at the end of a line, those that are not read are left. -/
theorem exists_of_digitsWithin {n low high v : Nat} {t : List Char}
    (h : digitsWithin n low high (ds ++ '\n' :: r) = some (v, t)) :
    ∃ ds', (∀ c ∈ ds', c.isDigit = true) ∧ t = ds' ++ '\n' :: r := by
  simp only [digitsWithin, Option.ite_none_right_eq_some, Option.some.injEq, Prod.mk.injEq] at h
  obtain ⟨⟨-, hd, -⟩, -, rfl⟩ := h
  have hn : n ≤ ds.length := by
    refine Nat.le_of_not_lt fun hlt => ?_
    obtain ⟨k, hk⟩ := Nat.exists_eq_add_of_lt hlt
    have hm : '\n' ∈ (ds ++ '\n' :: r).take n := by
      rw [hk, Nat.add_assoc, List.take_length_add_append, List.take_succ_cons]
      exact List.mem_append_right _ List.mem_cons_self
    exact absurd (List.all_eq_true.1 hd _ hm) (by decide)
  exact ⟨ds.drop n, fun c hc => hds c (List.mem_of_mem_drop hc), List.drop_append_of_le_length hn⟩

theorem literal_digits {c : Char} (hc : c.isDigit = false) (hl : c ≠ '\n') :
    Recogniser.literal [c] (ds ++ '\n' :: r) = none := by
  rw [Option.eq_none_iff_forall_ne_some]
  rintro ⟨⟨⟩, t⟩ h
  rw [Recogniser.literal_eq_some_iff] at h
  cases ds with
  | nil => exact hl (List.cons.inj h).1.symm
  | cons d ds => exact ne_of_class (hds d List.mem_cons_self) hc (List.cons.inj h).1

theorem moment_digits : moment (ds ++ '\n' :: r) = none := by
  have hdate : date (ds ++ '\n' :: r) = none := by
    rw [date]
    cases h : digitsWithin 4 0 9999 (ds ++ '\n' :: r) with
    | none => rfl
    | some p =>
      obtain ⟨ds', hds', hp⟩ := exists_of_digitsWithin hds r (v := p.1) (t := p.2) h
      simp [hp, literal_digits hds' r (c := '-') (by decide) (by decide)]
  have htime : time (ds ++ '\n' :: r) = none := by
    rw [time]
    cases h : digitsWithin 2 0 23 (ds ++ '\n' :: r) with
    | none => rfl
    | some p =>
      obtain ⟨ds', hds', hp⟩ := exists_of_digitsWithin hds r (v := p.1) (t := p.2) h
      simp [hp, literal_digits hds' r (c := ':') (by decide) (by decide)]
  rw [moment, hdate, htime]

end Moment

/-! ## Scalars -/

theorem scalar_quote {r : List Char} (hr : ∀ q ∈ r.head?, q ≠ '"' ∧ q ≠ '\'') (s : String) :
    scalar (quote s.toList ++ r) = some (.text s, r) := by
  rw [scalar, quoted_quote hr]
  simp

theorem quoted_eq_none {c : Char} (hb : c ≠ '"') (hl : c ≠ '\'') (s : List Char) :
    quoted (c :: s) = none := by
  rw [quoted, quotedLine]
  all_goals
    intro u h
    first
    | exact hb (List.cons.inj h).1
    | exact hl (List.cons.inj h).1

/-- A word at the end of a line is read as such unless it begins like another value. -/
theorem scalar_bare {w : List Char} {d : Data} (hw : ∀ c ∈ w, isBareChar c = true)
    (hd : bare? w = some d) (r : List Char) (hm : moment (w ++ '\n' :: r) = none) :
    scalar (w ++ '\n' :: r) = some (d, '\n' :: r) := by
  have hr : ∀ c ∈ ('\n' :: r).head?, isBareChar c = false := by simp; decide
  have hq : quoted (w ++ '\n' :: r) = none := by
    cases w with
    | nil => exact quoted_eq_none (by decide) (by decide) r
    | cons c w =>
      have hc := hw c List.mem_cons_self
      refine quoted_eq_none ?_ ?_ _ <;> (rintro rfl; revert hc; decide)
  rw [scalar, hq]
  simp only [hm]
  rw [Text.takeWhile_append_of_boundary hw hr, Text.dropWhile_append_of_boundary hw hr, hd]
  rfl

theorem scalar_digits {n : Nat} (hn : n < Nat.pow 2 63) (r : List Char) :
    scalar ((toString n).toList ++ '\n' :: r) = some (.int n, '\n' :: r) := by
  have hs : (toString n).toList = Nat.toDigits 10 n := by
    rw [Nat.toString_eq_ofList_toDigits, String.toList_ofList]
  have hw := isDigit_toDigits n
  have hword : ∀ c w, c.isDigit = false → Nat.toDigits 10 n ≠ c :: w := fun c w hc h =>
    ne_of_class (hw c (h ▸ List.mem_cons_self)) hc rfl
  have hb : bare? (Nat.toDigits 10 n) = some (.int n) := by
    rw [bare?, if_neg (hword 't' _ (by decide)), if_neg (hword 'f' _ (by decide)),
      integer?_toDigits hn]
  rw [hs]
  refine scalar_bare (fun c hc => ?_) hb r (moment_digits hw r)
  simp [isBareChar, Char.isAlphanum, hw c hc]

theorem scalar_flag (b : Bool) (r : List Char) :
    scalar ((if b then "true".toList else "false".toList) ++ '\n' :: r) =
      some (.bool b, '\n' :: r) := by
  cases b <;> exact scalar_bare (List.all_eq_true.1 (by decide)) rfl r rfl

end JobAtlas.Toml
