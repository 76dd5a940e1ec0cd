import JobAtlas.Corpus.Basic
import JobAtlas.Proofs.Sql.Cleaning

/-!
# Statements cut into literals

A statement is stored as a sum of string literals. However it is cut into them,
its clean text is that of the whole (`clean_written`).

* `Joins`: a text that is joints and other characters, and what is left of it
  without the joints; `Joins.append`, `Joins.reverse` and `Joins.of_append` put
  such texts together and take them apart;
* `Joins.substitute_eq`: joining literals leaves just that;
* `Literals.joins_body`: the literals of a statement are such a text.
-/

namespace JobAtlas.Sql

open Text (Recogniser isBlank)

/-! ## Texts with joints -/

/-- Quotes occur in `s` only in joints, and `t` is `s` without the joints. -/
inductive Joins : List Char → List Char → Prop
  | nil : Joins [] []
  | char {c : Char} {s t : List Char} (hc : c ≠ '"') (h : Joins s t) : Joins (c :: s) (c :: t)
  | joint {before after s t : List Char} (hblank : ∀ c ∈ before ++ after, isBlank c = true)
      (h : Joins s t) : Joins ('"' :: (before ++ '+' :: (after ++ '"' :: s))) t

namespace Joins

variable {s s' t t' a b : List Char}

theorem of_joint_append {before after : List Char}
    (hblank : ∀ c ∈ before ++ after, isBlank c = true) (h : Joins s t) :
    Joins (Sql.joint before after ++ s) t :=
  joint_append before after s ▸ .joint hblank h

theorem of_plain (h : ∀ c ∈ s, c ≠ '"') : Joins s s := by
  induction s with
  | nil => exact .nil
  | cons c s ih =>
    exact .char (h c List.mem_cons_self) (ih fun d hd => h d (List.mem_cons_of_mem _ hd))

theorem append (h : Joins s t) (h' : Joins s' t') : Joins (s ++ s') (t ++ t') := by
  induction h with
  | nil => exact h'
  | char hc _ ih => exact .char hc ih
  | @joint before after s t hblank _ ih =>
    rw [← joint_append, List.append_assoc]
    exact of_joint_append hblank ih

theorem reverse (h : Joins s t) : Joins s.reverse t.reverse := by
  induction h with
  | nil => exact .nil
  | char hc _ ih =>
    rw [List.reverse_cons, List.reverse_cons]
    exact ih.append (.char hc .nil)
  | @joint before after s t hblank _ ih =>
    have hb : ∀ c ∈ after.reverse ++ before.reverse, isBlank c = true := fun c hc =>
      hblank c (List.mem_reverse.1 (List.reverse_append ▸ hc))
    have hj : (Sql.joint before after).reverse = Sql.joint after.reverse before.reverse := by
      simp [Sql.joint]
    rw [← joint_append, List.reverse_append, hj, ← t.reverse.append_nil]
    have hend := of_joint_append hb .nil
    rw [List.append_nil] at hend
    exact ih.append hend

theorem of_cons {c : Char} (h : Joins (c :: s) t) (hc : c ≠ '"') : ∃ t', t = c :: t' ∧ Joins s t' := by
  generalize hu : c :: s = u at h
  cases h with
  | nil => cases hu
  | char _ h =>
    obtain ⟨rfl, rfl⟩ := List.cons.inj hu
    exact ⟨_, rfl, h⟩
  | joint => exact absurd (List.cons.inj hu).1 hc

/-- Characters at the start that are no quotes belong to the text. -/
theorem of_append (h : Joins (a ++ s) t) (ha : ∀ c ∈ a, c ≠ '"') :
    ∃ t', t = a ++ t' ∧ Joins s t' := by
  induction a generalizing t with
  | nil => exact ⟨t, rfl, h⟩
  | cons c a ih =>
    obtain ⟨t₁, rfl, h₁⟩ := of_cons h (ha c List.mem_cons_self)
    obtain ⟨t', rfl, h'⟩ := ih h₁ fun d hd => ha d (List.mem_cons_of_mem _ hd)
    exact ⟨t', rfl, h'⟩

theorem of_append_right (h : Joins (s ++ b) t) (hb : ∀ c ∈ b, c ≠ '"') :
    ∃ t', t = t' ++ b ∧ Joins s t' := by
  have hr := h.reverse
  rw [List.reverse_append] at hr
  obtain ⟨t', ht, hs⟩ := hr.of_append fun c hc => hb c (List.mem_reverse.1 hc)
  refine ⟨t'.reverse, ?_, ?_⟩
  · rw [← t.reverse_reverse, ht, List.reverse_append, List.reverse_reverse]
  · simpa using hs.reverse

/-- Joining literals takes the joints away and leaves all else. -/
theorem substitute_eq (h : Joins s t) : literalJoin.substitute [] s = t := by
  induction h with
  | nil => rfl
  | @char c s t hc _ ih =>
    have hnone : literalJoin (c :: s) = none := by
      rw [Option.eq_none_iff_forall_ne_some]
      rintro ⟨⟨⟩, r⟩ hs
      obtain ⟨before, after, -, heq⟩ := literalJoin_eq_some_iff.1 hs
      exact hc (List.cons.inj heq).1
    rw [Recogniser.substitute_of_none hnone, ih]
  | @joint before after s t hblank _ ih =>
    have hsome : literalJoin (Sql.joint before after ++ s) = some ((), s) :=
      literalJoin_eq_some_iff.2 ⟨before, after, hblank, rfl⟩
    have hne : Sql.joint before after ≠ [] := List.cons_ne_nil _ _
    rw [← joint_append, Recogniser.substitute_of_some hne hsome, ih]
    rfl

/-- Blanks at the ends are no part of joints. -/
theorem trim (h : Joins s t) : ∃ t', Joins (Text.trim s) t' ∧ Text.spaced t' = Text.spaced t := by
  have hquote : ∀ {u : List Char}, (∀ c ∈ u, isBlank c = true) → ∀ c ∈ u, c ≠ '"' :=
    fun hu c hc => Text.ne_of_class (hu c hc) (by decide)
  obtain ⟨a, b, hs, ha, hb⟩ := Text.exists_eq_strip isBlank s
  rw [hs] at h
  obtain ⟨t₁, rfl, h₁⟩ := h.of_append (hquote ha)
  obtain ⟨t', rfl, h'⟩ := h₁.of_append_right (hquote hb)
  exact ⟨t', h', by rw [Text.spaced, Text.spaced, Text.words_append_blanks ha hb]⟩

end Joins

/-! ## Literals -/

/-- A character that stands for itself in a literal. -/
def IsPlain (c : Char) : Prop := c ≠ '"' ∧ c ≠ '\\'

theorem isPlain_of_all {w : List Char} (h : w.all (fun c => c != '"' && c != '\\') = true) :
    ∀ c ∈ w, IsPlain c := fun c hc => by
  simpa only [IsPlain, Bool.and_eq_true, bne_iff_ne] using List.all_eq_true.1 h c hc

/-- A literal that is added to those before it, and the blanks around the plus sign. -/
structure Addend where
  before : List Char
  after : List Char
  fragment : List Char
  blank : ∀ c ∈ before ++ after, isBlank c = true
  plain : ∀ c ∈ fragment, IsPlain c

/-- A statement cut into literals. If there are several, neither the first nor
the last one is empty. -/
structure Literals where
  first : List Char
  rest : List Addend
  plain : ∀ c ∈ first, IsPlain c
  first_ne_nil : rest ≠ [] → first ≠ []
  last_ne_nil : ∀ a ∈ rest.getLast?, a.fragment ≠ []

/-- The literal as it is added, without its last quote. -/
def Addend.written (a : Addend) : List Char := joint a.before a.after ++ a.fragment

theorem Addend.joins_written (a : Addend) : Joins a.written a.fragment :=
  .of_joint_append a.blank (.of_plain fun c hc => (a.plain c hc).1)

theorem Addend.not_mem_written (a : Addend) : '\\' ∉ a.written := by
  have hblank : '\\' ∉ a.before ++ a.after := fun h => absurd (a.blank _ h) (by decide)
  have hfragment : '\\' ∉ a.fragment := fun h => (a.plain _ h).2 rfl
  simp only [List.mem_append, not_or] at hblank
  simp [Addend.written, joint, hblank, hfragment]

namespace Literals

/-- The statement in one piece. -/
def text (l : Literals) : List Char := l.first ++ l.rest.flatMap (·.fragment)

/-- What stands between the first quote and the last one. -/
def body (l : Literals) : List Char := l.first ++ l.rest.flatMap (·.written)

/-- The sum of literals as it is stored. -/
def written (l : Literals) : String := String.ofList ('"' :: (l.body ++ ['"']))

variable (l : Literals)

theorem joins_body : Joins l.body l.text := by
  refine (Joins.of_plain fun c hc => (l.plain c hc).1).append ?_
  induction l.rest with
  | nil => exact .nil
  | cons a rest ih => exact a.joins_written.append ih

theorem not_mem_body : '\\' ∉ l.body := by
  intro h
  rcases List.mem_append.1 h with h | h
  · exact (l.plain _ h).2 rfl
  · obtain ⟨a, -, h⟩ := List.mem_flatMap.1 h
    exact a.not_mem_written h

theorem head?_body : l.body.head? ≠ some '"' := by
  intro h
  have hmem : '"' ∈ l.first := by
    by_cases hrest : l.rest = []
    · rw [body, hrest, List.flatMap_nil, List.append_nil] at h
      exact List.mem_of_mem_head? h
    · rw [body, List.head?_append_of_ne_nil _ (l.first_ne_nil hrest)] at h
      exact List.mem_of_mem_head? h
  exact (l.plain _ hmem).1 rfl

theorem getLast?_body : l.body.getLast? ≠ some '"' := by
  intro h
  rcases List.eq_nil_or_concat l.rest with hrest | ⟨init, a, hrest⟩
  · rw [body, hrest, List.flatMap_nil, List.append_nil] at h
    exact (l.plain _ (List.mem_of_getLast? h)).1 rfl
  · have hne : a.fragment ≠ [] := l.last_ne_nil a (by rw [hrest]; simp)
    rw [body, hrest] at h
    simp only [List.concat_eq_append, List.flatMap_append, List.flatMap_singleton,
      Addend.written, ← List.append_assoc] at h
    rw [List.getLast?_append_of_ne_nil _ hne] at h
    exact (a.plain _ (List.mem_of_getLast? h)).1 rfl

theorem unwrapped_written : unwrapped l.written.toList = Text.trim l.body := by
  have hq : ∀ c ∈ ['"'], (c == '"') = true := List.all_eq_true.1 (by decide)
  have hbody : Text.strip (· == '"') (['"'] ++ (l.body ++ ['"'])) = l.body :=
    Text.strip_append hq hq (fun c hc => beq_false_of_ne fun e => l.head?_body (e ▸ hc))
      fun c hc => beq_false_of_ne fun e => l.getLast?_body (e ▸ hc)
  rw [unwrapped, written, String.toList_ofList]
  exact congrArg Text.trim hbody

theorem resolveEscapes_trim_body : resolveEscapes (Text.trim l.body) = Text.trim l.body := by
  refine resolveEscapes_of_not_hasEscape fun ⟨c, _, h⟩ => l.not_mem_body ?_
  exact Text.mem_of_mem_strip (h.subset List.mem_cons_self)

theorem clean_eq_spaced : clean l.written = String.ofList (Text.spaced l.text) := by
  obtain ⟨t, ht, heq⟩ := l.joins_body.trim
  rw [← String.toList_inj, String.toList_ofList, clean_eq, unwrapped_written,
    resolveEscapes_trim_body, ht.substitute_eq, heq]

/-- A statement has the clean text of the whole, however it is cut into literals:
its words with single spaces between. So all ways to cut it have one digest. -/
theorem clean_written : clean l.written = String.ofList (Text.spaced l.text) ∧
    ∀ l' : Literals, l'.text = l.text → ∀ job job' c c',
      (Statement.ofRaw job' c' l'.written).digest = (Statement.ofRaw job c l.written).digest := by
  refine ⟨l.clean_eq_spaced, fun l' h job job' c c' => ?_⟩
  show Digest.ofText (clean l'.written) = Digest.ofText (clean l.written)
  rw [clean_eq_spaced, clean_eq_spaced, h]

/-- A statement with fragments that are blank, empty or look like a joint. -/
def inPieces : Literals where
  first := [' ']
  rest :=
    [⟨[' '], ['\t'], "SELECT a ".toList, List.all_eq_true.1 (by decide), isPlain_of_all (by decide)⟩,
      ⟨[], ['\n'], " + ".toList, List.all_eq_true.1 (by decide), isPlain_of_all (by decide)⟩,
      ⟨[], [], [], nofun, nofun⟩,
      ⟨[' '], [' '], "b\n".toList, List.all_eq_true.1 (by decide), isPlain_of_all (by decide)⟩]
  plain := isPlain_of_all (by decide)
  first_ne_nil _ := by decide
  last_ne_nil := by decide

/-- The same statement in one literal. -/
def inOnePiece : Literals where
  first := " SELECT a  + b\n".toList
  rest := []
  plain := isPlain_of_all (by decide)
  first_ne_nil h := absurd rfl h
  last_ne_nil _ h := nomatch h

theorem clean_written_inPieces :
    inPieces.written = "\" \" +\t\"SELECT a \"+\n\" + \"+\"\" + \"b\n\"" ∧
      clean inPieces.written = "SELECT a + b" ∧
      ∀ job c, (Statement.ofRaw job c inOnePiece.written).digest =
        (Statement.ofRaw job c inPieces.written).digest :=
  ⟨by decide, inPieces.clean_written.1.trans (by decide),
    fun job c => inPieces.clean_written.2 inOnePiece (by decide) job job c c⟩

end Literals

end JobAtlas.Sql
