import Mathlib.Data.Option.Basic
import JobAtlas.Toml.Quoted

/-!
# Reading quoted texts

`quoted` undoes `quote` (`quoted_quote`), whatever text it is and whatever follows it
other than a quote. An escape is a backslash and what `escape` reads as the character,
which never continues a line (`escaped_cases`). A basic form on one line goes character
by character (`basicBody_escapedInLine`). On several lines quotes may stand before the
three that end the text, so the induction carries the quotes that have been written
last: these are read as such if something else follows, and by `closing` if the end
does.
-/

namespace JobAtlas.Toml

/-- Put characters in front of what is read. -/
def prepend (w : List Char) (p : List Char × List Char) : List Char × List Char := (w ++ p.1, p.2)

/-! ## Escapes -/

theorem hexValue?_hexDigit : ∀ n < 16, hexValue? (hexDigit n) = some n := by decide

theorem toNat_of_not_isPlain {c : Char} (h : isPlain c = false) : c.toNat < 128 := by
  simp only [isPlain, Bool.or_eq_false_iff, Bool.and_eq_false_iff, decide_eq_false_iff_not,
    bne_eq_false_iff_eq] at h
  omega

theorem codedChar_hexDigits {c : Char} (h : c.toNat < 128) (t : List Char) :
    codedChar 4 ('0' :: '0' :: hexDigit (c.toNat / 16) :: hexDigit (c.toNat % 16) :: t) =
      some (c, t) := by
  have h₁ := hexValue?_hexDigit (c.toNat / 16) (by omega)
  have h₂ := hexValue?_hexDigit (c.toNat % 16) (by omega)
  have h₀ : hexValue? '0' = some 0 := rfl
  have hv : digitsValue 16 [0, 0, c.toNat / 16, c.toNat % 16] = c.toNat := by
    simp only [digitsValue, List.foldl_cons, List.foldl_nil]
    omega
  have hc : c.toNat.isValidChar := c.valid
  simp [codedChar, h₀, h₁, h₂, hv, hc, Char.ofNat_toNat]

/-- A carriage return never stands for itself. -/
theorem ne_return {c : Char} (h : isPlain c = true ∨ c = '\n') : c ≠ '\r' := by
  rintro rfl
  revert h
  decide

/-- What stands behind a backslash for the character `c`. -/
structure IsEscape (c : Char) (w : List Char) : Prop where
  escape_eq : ∀ t, escape (w ++ t) = some (c, t)
  continuation?_eq : ∀ t, continuation? (w ++ t) = none

/-- A character other than a backslash stands for itself, or an escape for it. -/
theorem escaped_cases (c : Char) :
    escaped c = [c] ∧ isPlain c = true ∧ c ≠ '\\' ∨ ∃ w, escaped c = '\\' :: w ∧ IsEscape c w := by
  unfold escaped
  split
  case h_6 =>
    split
    · next h => exact .inl ⟨rfl, h, by assumption⟩
    · next h =>
      rw [Bool.not_eq_true] at h
      exact .inr ⟨_, rfl, codedChar_hexDigits (toNat_of_not_isPlain h), fun t => rfl⟩
  all_goals exact .inr ⟨_, rfl, fun t => rfl, fun t => rfl⟩

/-! ## One line -/

theorem basicBody_char {c : Char} (hp : isPlain c = true) (hq : c ≠ '"') (hb : c ≠ '\\')
    (t : List Char) : basicBody (c :: t) = (basicBody t).map (prepend [c]) := by
  rw [basicBody]
  · rw [if_pos hp]
    rfl
  · exact hq
  · exact hb

theorem basicBody_escape {c : Char} {w : List Char} (hw : IsEscape c w) (t : List Char) :
    basicBody ('\\' :: (w ++ t)) = (basicBody t).map (prepend [c]) := by
  rw [basicBody, hw.escape_eq]
  rfl

theorem escapedInLine_cases (c : Char) :
    escapedInLine c = [c] ∧ isPlain c = true ∧ c ≠ '"' ∧ c ≠ '\\' ∨
      ∃ w, escapedInLine c = '\\' :: w ∧ IsEscape c w := by
  rw [escapedInLine]
  split
  · next hq =>
    subst hq
    exact .inr ⟨_, rfl, fun t => rfl, fun t => rfl⟩
  · next hq =>
    split
    · next hl =>
      subst hl
      exact .inr ⟨_, rfl, fun t => rfl, fun t => rfl⟩
    · exact (escaped_cases c).imp_left fun ⟨he, hp, hb⟩ => ⟨he, hp, hq, hb⟩

theorem basicBody_escapedInLine (c : Char) (t : List Char) :
    basicBody (escapedInLine c ++ t) = (basicBody t).map (prepend [c]) := by
  obtain ⟨he, hp, hq, hb⟩ | ⟨w, he, hw⟩ := escapedInLine_cases c
  · rw [he]
    exact basicBody_char hp hq hb t
  · rw [he]
    exact basicBody_escape hw t

theorem basicBody_flatMap (s r : List Char) :
    basicBody (s.flatMap escapedInLine ++ '"' :: r) = some (s, r) := by
  induction s with
  | nil => rw [List.flatMap_nil, List.nil_append, basicBody]
  | cons c s ih =>
    rw [List.flatMap_cons, List.append_assoc, basicBody_escapedInLine, ih]
    rfl

theorem literalBody_append {s : List Char} (hp : ∀ c ∈ s, isPlain c = true) (hq : '\'' ∉ s)
    (r : List Char) : literalBody (s ++ '\'' :: r) = some (s, r) := by
  induction s with
  | nil => rfl
  | cons c s ih =>
    rw [List.mem_cons, not_or] at hq
    rw [List.cons_append, literalBody, if_pos (hp c List.mem_cons_self),
      ih (fun d hd => hp d (List.mem_cons_of_mem _ hd)) hq.2]
    · rfl
    · exact fun h => hq.1 h.symm

/-! ## Several lines -/

theorem replicate_append_cons {α : Type} (n : Nat) (a : α) (l : List α) :
    List.replicate n a ++ a :: l = List.replicate (n + 1) a ++ l := by
  rw [List.replicate_succ', List.append_assoc, List.singleton_append]

section Quotes

variable {q : Char} {n : Nat} (hn : n ≤ 2)
include hn

/-- Quotes and the three that end a text make up the three and the others. -/
theorem replicate_append_three (r : List Char) :
    List.replicate n q ++ q :: q :: q :: r = q :: q :: q :: (List.replicate n q ++ r) := by
  match n with
  | 0 | 1 | 2 => rfl

theorem closing_replicate {r : List Char} (hr : r.head? ≠ some q) :
    closing q (List.replicate n q ++ r) = (List.replicate n q, r) := by
  match n, r with
  | 0, [] | 1, [] | 2, [] => simp [closing]
  | 0, [_] | 1, [_] | 2, [_] | 0, _ :: _ :: _ | 1, _ :: _ :: _ | 2, _ :: _ :: _ =>
    simp_all [closing]

/-- A reader that takes a quote as it stands unless it is the first of three takes up to
two of them if something else follows. -/
theorem read_replicate {read : List Char → Option (List Char × List Char)}
    (hread : ∀ t, ¬ [q, q] <+: t → read (q :: t) = (read t).map (prepend [q]))
    {t w r : List Char} (ht : t.head? ≠ some q) (h : read t = some (w, r)) :
    read (List.replicate n q ++ t) = some (List.replicate n q ++ w, r) := by
  have h₁ : ¬ [q, q] <+: t := fun h => by
    obtain ⟨u, rfl⟩ := h
    exact ht rfl
  have h₂ : ¬ [q, q] <+: q :: t := fun h => by
    obtain ⟨u, hu⟩ := (List.cons_prefix_cons.1 h).2
    exact ht (hu ▸ rfl)
  match n with
  | 0 => exact h
  | 1 =>
    show read (q :: t) = _
    rw [hread _ h₁, h]
    rfl
  | 2 =>
    show read (q :: q :: t) = _
    rw [hread _ h₂, hread _ h₁, h]
    rfl

end Quotes

theorem basicLines_char {c : Char} (hp : isPlain c = true ∨ c = '\n') (hb : c ≠ '\\')
    {t : List Char} (ht : c = '"' → ¬ ['"', '"'] <+: t) :
    basicLines (c :: t) = (basicLines t).map (prepend [c]) := by
  rw [basicLines]
  · rw [if_pos hp]
    rfl
  · rintro u rfl rfl
    exact ht rfl ⟨u, rfl⟩
  · exact fun u h => absurd h (ne_return hp)
  · exact hb

theorem basicLines_escape {c : Char} {w : List Char} (hw : IsEscape c w) (t : List Char) :
    basicLines ('\\' :: (w ++ t)) = (basicLines t).map (prepend [c]) := by
  rw [basicLines, hw.continuation?_eq, hw.escape_eq]
  rfl

/-- A text is read behind the quotes that were written last, of which there are two at most. -/
theorem basicLines_escapedLines {n : Nat} (hn : n ≤ 2) (s : List Char) {r : List Char}
    (hr : r.head? ≠ some '"') :
    basicLines (List.replicate n '"' ++ (escapedLines n s ++ '"' :: '"' :: '"' :: r)) =
      some (List.replicate n '"' ++ s, r) := by
  have hquote : ∀ t, ¬ ['"', '"'] <+: t →
      basicLines ('"' :: t) = (basicLines t).map (prepend ['"']) :=
    fun t ht => basicLines_char (.inl rfl) (by decide) fun _ => ht
  induction s generalizing n with
  | nil =>
    rw [escapedLines, List.nil_append, replicate_append_three hn, basicLines,
      closing_replicate hn hr, List.append_nil]
  | cons c s ih =>
    have ih₀ : basicLines (escapedLines 0 s ++ '"' :: '"' :: '"' :: r) = some (s, r) :=
      ih (Nat.zero_le 2)
    rw [escapedLines]
    split
    · next hc =>
      subst hc
      split
      -- the run of quotes goes on
      · next hlt =>
        rw [List.cons_append, replicate_append_cons, replicate_append_cons]
        exact ih hlt
      -- the third quote is escaped, and ends the run
      · refine read_replicate hn hquote (by simp) ?_
        have he : IsEscape '"' ['"'] := ⟨fun t => rfl, fun t => rfl⟩
        exact (basicLines_escape he _).trans (congrArg (Option.map (prepend ['"'])) ih₀)
    · next hc =>
      split
      · next hl =>
        subst hl
        refine read_replicate hn hquote (by simp) ?_
        rw [List.cons_append, basicLines_char (.inr rfl) (by decide) (fun e => absurd e hc), ih₀]
        rfl
      · obtain ⟨he, hp, hb⟩ | ⟨w, he, hw⟩ := escaped_cases c
        · refine read_replicate hn hquote (by simpa [he] using hc) ?_
          rw [he, List.append_assoc, List.singleton_append,
            basicLines_char (.inl hp) hb (fun e => absurd e hc), ih₀]
          rfl
        · refine read_replicate hn hquote (by simp [he]) ?_
          rw [he, List.append_assoc, List.cons_append, basicLines_escape hw, ih₀]
          rfl

theorem literalLines_char {c : Char} (hp : isPlain c = true ∨ c = '\n')
    {t : List Char} (ht : c = '\'' → ¬ ['\'', '\''] <+: t) :
    literalLines (c :: t) = (literalLines t).map (prepend [c]) := by
  rw [literalLines]
  · rw [if_pos hp]
    rfl
  · rintro u rfl rfl
    exact ht rfl ⟨u, rfl⟩
  · exact fun u h => absurd h (ne_return hp)

/-- The same for literal texts, in which three quotes never stand in a row. -/
theorem literalLines_append {n : Nat} (hn : n ≤ 2) {s : List Char}
    (hp : ∀ c ∈ s, isPlain c = true ∨ c = '\n')
    (h : ¬ ['\'', '\'', '\''] <:+: List.replicate n '\'' ++ s) {r : List Char}
    (hr : r.head? ≠ some '\'') :
    literalLines (List.replicate n '\'' ++ (s ++ '\'' :: '\'' :: '\'' :: r)) =
      some (List.replicate n '\'' ++ s, r) := by
  have hquote : ∀ t, ¬ ['\'', '\''] <+: t →
      literalLines ('\'' :: t) = (literalLines t).map (prepend ['\'']) :=
    fun t ht => literalLines_char (.inl rfl) fun _ => ht
  induction s generalizing n with
  | nil =>
    rw [List.nil_append, replicate_append_three hn, literalLines, closing_replicate hn hr,
      List.append_nil]
  | cons c s ih =>
    have hp' := fun d hd => hp d (List.mem_cons_of_mem _ hd)
    by_cases hc : c = '\''
    · subst hc
      have hlt : n + 1 ≤ 2 := by
        refine Nat.lt_of_le_of_ne hn ?_
        rintro rfl
        exact h ⟨[], s, rfl⟩
      rw [replicate_append_cons] at h
      rw [List.cons_append, replicate_append_cons, replicate_append_cons]
      exact ih hlt hp' h
    · have h' : ¬ ['\'', '\'', '\''] <:+: List.replicate 0 '\'' ++ s := fun hi =>
        h (hi.trans ((List.suffix_cons c s).isInfix.trans (List.suffix_append _ _).isInfix))
      have ih₀ : literalLines (s ++ '\'' :: '\'' :: '\'' :: r) = some (s, r) :=
        ih (Nat.zero_le 2) hp' h'
      refine read_replicate hn hquote (by simpa using hc) ?_
      rw [List.cons_append, literalLines_char (hp c List.mem_cons_self) (fun e => absurd e hc), ih₀]
      rfl

/-! ## All forms -/

theorem quoted_basicBody {t : List Char} (ht : ¬ ['"', '"'] <+: t) :
    quoted ('"' :: t) = basicBody t := by
  rw [quoted]
  · rfl
  · rintro u h
    cases h
    exact ht ⟨u, rfl⟩
  · exact nofun

theorem quoted_literalBody {t : List Char} (ht : ¬ ['\'', '\''] <+: t) :
    quoted ('\'' :: t) = literalBody t := by
  rw [quoted]
  · rfl
  · exact nofun
  · rintro u h
    cases h
    exact ht ⟨u, rfl⟩

theorem newline?_eq_none {c : Char} (hl : c ≠ '\n') (hp : isPlain c = true) (t : List Char) :
    newline? (c :: t) = none := by
  rw [newline?]
  · exact fun u h => absurd (List.cons.inj h).1 hl
  · exact fun u h => absurd (List.cons.inj h).1 (ne_return (.inl hp))

/-- What stands behind an opening is read from its first character on. -/
theorem dropNewline_opening {q : Char} {s t : List Char} (ht : '\n' ∉ s → newline? t = none) :
    ∃ u, opening q s ++ t = q :: q :: q :: u ∧ dropNewline u = t := by
  by_cases hs : '\n' ∈ s
  · exact ⟨'\n' :: t, by simp [opening, hs], rfl⟩
  · exact ⟨t, by simp [opening, hs], by rw [dropNewline, ht hs]; rfl⟩

theorem newline?_escapedLines {s : List Char} (hs : '\n' ∉ s) (t : List Char) :
    newline? (escapedLines 0 s ++ '"' :: t) = none := by
  cases s with
  | nil => rfl
  | cons c s =>
    have hl : c ≠ '\n' := fun h => hs (h ▸ List.mem_cons_self)
    by_cases hq : c = '"'
    · subst hq
      rfl
    · rw [escapedLines, if_neg hq, if_neg hl]
      obtain ⟨he, hp, -⟩ | ⟨w, he, -⟩ := escaped_cases c
      · rw [he]
        exact newline?_eq_none hl hp _
      · rw [he]
        rfl

variable {s r : List Char}

/-- No character of a text in a literal form needs an escape. -/
theorem isPlain_of_not_isControl (h : s.any isControl = false) {c : Char} (hc : c ∈ s) :
    isPlain c = true ∨ c = '\n' := by
  have := List.any_eq_false.1 h c hc
  simpa [isControl, or_iff_not_imp_left] using this

section Rest

variable (hr : ∀ q ∈ r.head?, q ≠ '"' ∧ q ≠ '\'')
include hr

theorem quoted_basic (s : List Char) : quoted (Quoting.basic.write s ++ r) = some (s, r) := by
  have ht : ¬ ['"', '"'] <+: s.flatMap escapedInLine ++ '"' :: r := by
    rintro ⟨u, hu⟩
    cases s with
    | nil =>
      have hu' : r = '"' :: u := (List.cons.inj hu).2.symm
      exact (hr '"' (by rw [hu']; rfl)).1 rfl
    | cons c s =>
      rw [List.flatMap_cons, List.append_assoc] at hu
      obtain ⟨he, -, hq, -⟩ | ⟨w, he, -⟩ := escapedInLine_cases c
      · rw [he] at hu
        exact hq (List.cons.inj hu).1.symm
      · rw [he] at hu
        exact absurd (List.cons.inj hu).1 (by decide)
  rw [Quoting.write, List.cons_append, List.cons_append, List.append_assoc, List.singleton_append,
    quoted_basicBody ht, basicBody_flatMap]

theorem quoted_literal (h : Quoting.literal.fits s = true) :
    quoted (Quoting.literal.write s ++ r) = some (s, r) := by
  simp only [Quoting.fits, Bool.not_eq_true', Bool.or_eq_false_iff, List.contains_eq_mem,
    decide_eq_false_iff_not] at h
  obtain ⟨⟨hc, hq⟩, hl⟩ := h
  have hp : ∀ c ∈ s, isPlain c = true := fun c hm =>
    (isPlain_of_not_isControl hc hm).resolve_right fun e => hl (e ▸ hm)
  have ht : ¬ ['\'', '\''] <+: s ++ '\'' :: r := by
    rintro ⟨u, hu⟩
    cases s with
    | nil =>
      have hu' : r = '\'' :: u := (List.cons.inj hu).2.symm
      exact (hr '\'' (by rw [hu']; rfl)).2 rfl
    | cons c s => exact hq ((List.cons.inj hu).1 ▸ List.mem_cons_self)
  rw [Quoting.write, List.cons_append, List.cons_append, List.append_assoc, List.singleton_append,
    quoted_literalBody ht, literalBody_append hp hq]

theorem quoted_basicLines (s : List Char) :
    quoted (Quoting.basicLines.write s ++ r) = some (s, r) := by
  have hr' : r.head? ≠ some '"' := fun h => (hr '"' h).1 rfl
  obtain ⟨u, hu, hd⟩ := dropNewline_opening (q := '"') fun hs =>
    newline?_escapedLines hs ('"' :: '"' :: r)
  rw [Quoting.write, List.append_assoc, List.append_assoc]
  refine (congrArg quoted hu).trans ?_
  rw [quoted, hd]
  exact basicLines_escapedLines (Nat.zero_le 2) s hr'

theorem quoted_literalLines (h : Quoting.literalLines.fits s = true) :
    quoted (Quoting.literalLines.write s ++ r) = some (s, r) := by
  simp only [Quoting.fits, Bool.not_eq_true', Bool.or_eq_false_iff] at h
  have hr' : r.head? ≠ some '\'' := fun h => (hr '\'' h).2 rfl
  have hp : ∀ c ∈ s, isPlain c = true ∨ c = '\n' := fun c => isPlain_of_not_isControl h.1
  have h₃ : ¬ ['\'', '\'', '\''] <:+: s := by
    rw [← Text.occurs_iff, Bool.not_eq_true]
    exact h.2
  have hn : '\n' ∉ s → newline? (s ++ '\'' :: '\'' :: '\'' :: r) = none := by
    intro hl
    cases s with
    | nil => rfl
    | cons c s =>
      have hc : c ≠ '\n' := fun e => hl (e ▸ List.mem_cons_self)
      exact newline?_eq_none hc ((hp c List.mem_cons_self).resolve_right hc) _
  obtain ⟨u, hu, hd⟩ := dropNewline_opening (q := '\'') hn
  rw [Quoting.write, List.append_assoc, List.append_assoc]
  refine (congrArg quoted hu).trans ?_
  rw [quoted, hd]
  exact literalLines_append (Nat.zero_le 2) hp h₃ hr'

/-- What is quoted is read as it was. -/
theorem quoted_quote (s : List Char) : quoted (quote s ++ r) = some (s, r) := by
  have hfits : ∀ f, Quoting.of s = f → f = .basic ∨ f = .basicLines ∨ f.fits s = true := by
    rintro f rfl
    rw [Quoting.of]
    cases hf : [Quoting.basic, .literal, .basicLines, .literalLines].find? (Quoting.fits s) with
    | some f => exact .inr (.inr (List.find?_some hf))
    | none =>
      rw [Option.getD_none]
      split
      · exact .inr (.inl rfl)
      · exact .inl rfl
  rw [quote]
  cases hf : Quoting.of s with
  | basic => exact quoted_basic hr s
  | basicLines => exact quoted_basicLines hr s
  | literal => exact quoted_literal hr (by simpa using hfits _ hf)
  | literalLines => exact quoted_literalLines hr (by simpa using hfits _ hf)

end Rest

end JobAtlas.Toml
