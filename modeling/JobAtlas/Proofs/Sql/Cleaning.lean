import JobAtlas.Proofs.Text.Spacing
import JobAtlas.Sql.Clean

/-!
# Clean texts

What a clean text looks like, and which texts are clean as they are. No pass of
`clean` makes a text longer, so a text that comes out as it was lost nothing on
the way. The escape of a tab alone is resolved without loss; it leaves two
spaces, one of which is lost when blanks collapse.

* `literalJoin_eq_some_iff`, `occursIn_literalJoin_iff`: what is read between two
  literals;
* `length_resolveEscapes_le`, `infix_resolveEscapes`: what escapes leave when they
  are resolved;
* `clean_eq`: the passes one after another, the last two as `Text.spaced`;
* `clean_of_isClean`, `isClean_of_clean`: which texts are left as they are.
-/

namespace JobAtlas.Sql

open Text (Recogniser isBlank)

/-! ## Joints -/

/-- The end of a literal, a plus sign among blanks, and the beginning of the next one. -/
def joint (before after : List Char) : List Char := '"' :: (before ++ '+' :: (after ++ ['"']))

theorem joint_append (before after s : List Char) :
    joint before after ++ s = '"' :: (before ++ '+' :: (after ++ '"' :: s)) := by
  simp [joint]

theorem literalJoin_eq_some_iff {s r : List Char} : literalJoin s = some ((), r) ↔
    ∃ before after, (∀ c ∈ before ++ after, isBlank c = true) ∧ s = joint before after ++ r := by
  simp only [literalJoin, Option.bind_eq_bind, Option.bind_eq_some_iff, Prod.exists, joint_append]
  constructor
  · rintro ⟨⟨⟩, s₁, h, ⟨⟩, s₂, h₁, h₂⟩
    obtain rfl := Recogniser.literal_eq_some_iff.1 h
    have h₁ : s₁.dropWhile isBlank = '+' :: s₂ := Recogniser.literal_eq_some_iff.1 h₁
    have h₂ : s₂.dropWhile isBlank = '"' :: r := Recogniser.literal_eq_some_iff.1 h₂
    refine ⟨s₁.takeWhile isBlank, s₂.takeWhile isBlank, ?_, ?_⟩
    · exact List.forall_mem_append.2
        ⟨List.all_eq_true.1 List.all_takeWhile, List.all_eq_true.1 List.all_takeWhile⟩
    · rw [← h₂, List.takeWhile_append_dropWhile, ← h₁, List.takeWhile_append_dropWhile]
      rfl
  · rintro ⟨before, after, hblank, rfl⟩
    obtain ⟨hb, ha⟩ := List.forall_mem_append.1 hblank
    have h₁ : (before ++ '+' :: (after ++ '"' :: r)).dropWhile isBlank = '+' :: (after ++ '"' :: r) :=
      Text.dropWhile_append_of_boundary hb fun c hc => by cases hc; decide
    have h₂ : (after ++ '"' :: r).dropWhile isBlank = '"' :: r :=
      Text.dropWhile_append_of_boundary ha fun c hc => by cases hc; decide
    exact ⟨(), _, Recogniser.literal_eq_some_iff.2 rfl, (), _,
      Recogniser.literal_eq_some_iff.2 h₁, Recogniser.literal_eq_some_iff.2 h₂⟩

theorem occursIn_literalJoin_iff {s : List Char} : literalJoin.occursIn s = true ↔
    ∃ before after, (∀ c ∈ before ++ after, isBlank c = true) ∧ joint before after <:+: s := by
  simp only [Recogniser.occursIn_iff, List.infix_iff_prefix_suffix]
  constructor
  · rintro ⟨t, ht, h⟩
    obtain ⟨⟨⟨⟩, r⟩, h⟩ := Option.isSome_iff_exists.1 h
    obtain ⟨before, after, hblank, rfl⟩ := literalJoin_eq_some_iff.1 h
    exact ⟨before, after, hblank, _, List.prefix_append _ r, ht⟩
  · rintro ⟨before, after, hblank, t, ⟨r, rfl⟩, ht⟩
    have h : literalJoin (joint before after ++ r) = some ((), r) :=
      literalJoin_eq_some_iff.2 ⟨before, after, hblank, rfl⟩
    exact ⟨_, ht, Option.isSome_iff_exists.2 ⟨_, h⟩⟩

theorem length_literalJoin {s r : List Char} {a : Unit} (h : literalJoin s = some (a, r)) :
    ([] : List Char).length + r.length < s.length := by
  obtain ⟨before, after, -, rfl⟩ := literalJoin_eq_some_iff.1 h
  rw [List.length_append]
  exact Nat.add_lt_add_right (Nat.succ_pos _) _

/-! ## Escapes -/

theorem length_literal {w s r : List Char} {a : Unit} (h : Recogniser.literal w s = some (a, r)) :
    w.length + r.length = s.length := by
  rw [Recogniser.literal_eq_some_iff.1 h, List.length_append]

section Literal

variable {w new s : List Char}

theorem substitute_literal (h : ¬ w <:+: s) : (Recogniser.literal w).substitute new s = s := by
  refine Recogniser.substitute_of_not_occursIn (Bool.eq_false_iff.2 fun ho => h ?_)
  exact Recogniser.occursIn_literal_iff.1 ho

theorem length_substitute_literal_le (hw : new.length ≤ w.length) (s : List Char) :
    ((Recogniser.literal w).substitute new s).length ≤ s.length := by
  refine Recogniser.length_substitute_le fun s a r h => ?_
  rw [← length_literal h]
  exact Nat.add_le_add_right hw _

theorem le_length_of_substitute_literal {n : Nat} (hw : new.length ≤ w.length)
    (h : n ≤ ((Recogniser.literal w).substitute new s).length) : n ≤ s.length :=
  Nat.le_trans h (length_substitute_literal_le hw s)

theorem not_infix_of_length (hw : new.length < w.length)
    (h : s.length ≤ ((Recogniser.literal w).substitute new s).length) : ¬ w <:+: s := by
  intro hi
  refine absurd h (Nat.not_le.2 ?_)
  refine Recogniser.length_substitute_lt (fun s a r h => ?_) (Recogniser.occursIn_literal_iff.2 hi)
  rw [← length_literal h]
  exact Nat.add_lt_add_right hw _

end Literal

/-- The text has one of the escapes that are resolved. -/
def HasEscape (s : List Char) : Prop := ∃ c ∈ ['"', 'n', 't'], ['\\', c] <:+: s

theorem resolveEscapes_of_not_hasEscape {s : List Char} (h : ¬ HasEscape s) :
    resolveEscapes s = s := by
  simp only [HasEscape, List.mem_cons, List.not_mem_nil, or_false, exists_eq_or_imp,
    exists_eq_left, not_or] at h
  simp only [resolveEscapes, substitute_literal h.1, substitute_literal h.2.1,
    substitute_literal h.2.2]

theorem length_resolveEscapes_le (s : List Char) : (resolveEscapes s).length ≤ s.length := by
  refine Nat.le_trans (length_substitute_literal_le (by decide) _) ?_
  refine Nat.le_trans (length_substitute_literal_le (by decide) _) ?_
  exact length_substitute_literal_le (by decide) _

/-- Among the escapes only that of a tab leaves a text as long as it is, and it
leaves two spaces. -/
theorem infix_resolveEscapes {s : List Char} (h : HasEscape s)
    (hl : s.length ≤ (resolveEscapes s).length) : [' ', ' '] <:+: resolveEscapes s := by
  rw [resolveEscapes] at hl ⊢
  have hfeed := le_length_of_substitute_literal (by decide) hl
  have hquote := not_infix_of_length (by decide) (le_length_of_substitute_literal (by decide) hfeed)
  rw [substitute_literal hquote] at hfeed ⊢
  have hfeed := not_infix_of_length (by decide) hfeed
  rw [substitute_literal hfeed]
  obtain ⟨c, hc, hi⟩ := h
  simp only [List.mem_cons, List.not_mem_nil, or_false] at hc
  rcases hc with rfl | rfl | rfl
  · exact absurd hi hquote
  · exact absurd hi hfeed
  · exact Recogniser.infix_substitute rfl (Recogniser.occursIn_literal_iff.2 hi)

/-! ## All passes -/

/-- The text between the quotes and blanks at its ends. -/
def unwrapped (s : List Char) : List Char := Text.trim (Text.strip (· == '"') s)

theorem clean_eq (raw : String) : (clean raw).toList =
    Text.spaced (literalJoin.substitute [] (resolveEscapes (unwrapped raw.toList))) := by
  rw [clean, String.toList_ofList, cleanChars, Text.trim_collapse]
  rfl

theorem length_substitute_literalJoin_le (s : List Char) :
    (literalJoin.substitute [] s).length ≤ s.length :=
  Recogniser.length_substitute_le fun _ _ _ h => Nat.le_of_lt (length_literalJoin h)

theorem unwrapped_eq_self_iff {s : List Char} : unwrapped s = s ↔
    Text.strip (· == '"') s = s ∧ Text.trim s = s := by
  constructor
  · intro h
    have hle : s.length ≤ (Text.strip (· == '"') s).length := by
      conv_lhs => rw [← h]
      exact Text.length_strip_le isBlank _
    have hq : Text.strip (· == '"') s = s :=
      (Text.strip_isInfix (· == '"') s).sublist.eq_of_length_le hle
    exact ⟨hq, by rwa [unwrapped, hq] at h⟩
  · rintro ⟨hq, ht⟩
    rw [unwrapped, hq, ht]

theorem unwrapped_isInfix (s : List Char) : unwrapped s <:+: s :=
  List.IsInfix.trans (Text.strip_isInfix isBlank _) (Text.strip_isInfix (· == '"') s)

/-- No pass finds anything in the text. -/
structure IsClean (s : List Char) : Prop where
  spaced : Text.IsSpaced s
  head : s.head? ≠ some '"'
  last : s.getLast? ≠ some '"'
  escape : ¬ HasEscape s
  joint : ∀ before after, (∀ c ∈ before ++ after, isBlank c = true) → ¬ joint before after <:+: s

theorem unwrapped_of_isClean {s : List Char} (h : IsClean s) : unwrapped s = s := by
  refine unwrapped_eq_self_iff.2 ⟨Text.strip_eq_self_iff.2 ⟨fun c hc => ?_, fun c hc => ?_⟩,
    Text.strip_eq_self_iff.2 ⟨h.spaced.head, h.spaced.last⟩⟩
  · exact beq_false_of_ne fun hq => h.head (hq ▸ hc)
  · exact beq_false_of_ne fun hq => h.last (hq ▸ hc)

theorem clean_of_isClean {raw : String} (h : IsClean raw.toList) : clean raw = raw := by
  have hjoint : literalJoin.occursIn raw.toList = false := Bool.eq_false_iff.2 fun ho => by
    obtain ⟨before, after, hblank, hi⟩ := occursIn_literalJoin_iff.1 ho
    exact h.joint before after hblank hi
  rw [← String.toList_inj, clean_eq, unwrapped_of_isClean h, resolveEscapes_of_not_hasEscape h.escape,
    Recogniser.substitute_of_not_occursIn hjoint, Text.spaced_of_isSpaced h.spaced]

/-- A text that comes out of the passes as it was went through each of them unchanged. -/
theorem isClean_of_clean {raw : String} (h : clean raw = raw) : IsClean raw.toList := by
  have hs : Text.spaced (literalJoin.substitute [] (resolveEscapes (unwrapped raw.toList))) =
      raw.toList := by rw [← clean_eq, h]
  generalize raw.toList = s at hs
  -- No pass may take anything away, since none gives it back.
  have hjoined : s.length ≤ (literalJoin.substitute [] (resolveEscapes (unwrapped s))).length := by
    conv_lhs => rw [← hs]
    exact Text.length_spaced_le _
  have hresolved : s.length ≤ (resolveEscapes (unwrapped s)).length :=
    Nat.le_trans hjoined (length_substitute_literalJoin_le _)
  have hunwrapped : unwrapped s = s := (unwrapped_isInfix s).sublist.eq_of_length_le
    (Nat.le_trans hresolved (length_resolveEscapes_le _))
  rw [hunwrapped] at hjoined hresolved hs
  have hle := length_resolveEscapes_le s
  have hjoint : literalJoin.occursIn (resolveEscapes s) = false := Bool.eq_false_iff.2 fun ho => by
    have hlt : (literalJoin.substitute [] (resolveEscapes s)).length < _ :=
      Recogniser.length_substitute_lt (fun _ _ _ => length_literalJoin) ho
    omega
  rw [Recogniser.substitute_of_not_occursIn hjoint] at hs
  have hescape : ¬ HasEscape s := fun he => by
    have hlt := Text.length_spaced_lt (infix_resolveEscapes he hresolved)
    rw [hs] at hlt
    omega
  rw [resolveEscapes_of_not_hasEscape hescape] at hjoint hs
  have hends := Text.strip_eq_self_iff.1 (unwrapped_eq_self_iff.1 hunwrapped).1
  exact {
    spaced := hs ▸ Text.isSpaced_spaced s
    head := fun hq => absurd (hends.1 _ hq) (by decide)
    last := fun hq => absurd (hends.2 _ hq) (by decide)
    escape := hescape
    joint := fun before after hblank hi => Bool.eq_false_iff.1 hjoint
      (occursIn_literalJoin_iff.2 ⟨before, after, hblank, hi⟩) }

/-- A clean text has no blanks but single spaces between other characters, and is
no longer than the text that it is made of. A text is left as it is if and only
if it is clean. -/
theorem isSpaced_clean_and_eq_iff (raw : String) :
    Text.IsSpaced (clean raw).toList ∧ (clean raw).length ≤ raw.length ∧
      (clean raw = raw ↔ IsClean raw.toList) := by
  refine ⟨?_, ?_, isClean_of_clean, clean_of_isClean⟩
  · rw [clean_eq]
    exact Text.isSpaced_spaced _
  · rw [← String.length_toList, ← String.length_toList, clean_eq]
    calc (Text.spaced (literalJoin.substitute [] (resolveEscapes (unwrapped raw.toList)))).length
      _ ≤ (literalJoin.substitute [] (resolveEscapes (unwrapped raw.toList))).length :=
        Text.length_spaced_le _
      _ ≤ (resolveEscapes (unwrapped raw.toList)).length := length_substitute_literalJoin_le _
      _ ≤ (unwrapped raw.toList).length := length_resolveEscapes_le _
      _ ≤ raw.toList.length := (unwrapped_isInfix _).length_le

end JobAtlas.Sql
