import Mathlib.Data.List.Chain
import Mathlib.Data.List.DropRight
import JobAtlas.Text.Blank
import JobAtlas.Text.Search

/-!
# Spaces between words

A text is brought to single spaces in two steps: runs of blanks collapse, and
the ends are trimmed. What comes of it are the words of the text with one space
between neighbours (`spaced`).

* `exists_eq_strip`, `strip_append`: what is stripped from the ends of a text, and
  what is left;
* `blanksApart_collapse`, `length_collapse_lt`: collapsed blanks stand alone, and
  two blanks side by side make a text shorter;
* `trim_collapse`: collapsing and trimming gives `spaced`;
* `words_append_blanks`: blanks at the ends of a text are in no word;
* `isSpaced_spaced`, `spaced_of_isSpaced`: which texts are left as they are.
-/

namespace JobAtlas.Text

variable {p : Char → Bool} {c : Char} {s : List Char}

/-! ## Stripping -/

theorem dropWhile_eq_strip_append (p : Char → Bool) (s : List Char) :
    s.dropWhile p = strip p s ++ ((s.dropWhile p).reverse.takeWhile p).reverse := by
  rw [strip, ← List.reverse_append, List.takeWhile_append_dropWhile, List.reverse_reverse]

theorem exists_eq_strip (p : Char → Bool) (s : List Char) : ∃ a b, s = a ++ (strip p s ++ b) ∧
    (∀ c ∈ a, p c = true) ∧ ∀ c ∈ b, p c = true := by
  refine ⟨s.takeWhile p, ((s.dropWhile p).reverse.takeWhile p).reverse, ?_, ?_, ?_⟩
  · rw [← dropWhile_eq_strip_append, List.takeWhile_append_dropWhile]
  · exact List.all_eq_true.1 List.all_takeWhile
  · intro c hc
    exact List.all_eq_true.1 List.all_takeWhile c (List.mem_reverse.1 hc)

theorem strip_isInfix (p : Char → Bool) (s : List Char) : strip p s <:+: s := by
  obtain ⟨a, b, h, -, -⟩ := exists_eq_strip p s
  exact ⟨a, b, by rw [List.append_assoc, ← h]⟩

theorem head?_strip (h : (strip p s).head? = some c) : p c = false := by
  have hd := List.head?_dropWhile_not p s
  rw [dropWhile_eq_strip_append, List.head?_append, h] at hd
  simpa using hd

theorem getLast?_strip (h : (strip p s).getLast? = some c) : p c = false := by
  have hd := List.head?_dropWhile_not p (s.dropWhile p).reverse
  rw [strip, List.getLast?_reverse] at h
  rw [h] at hd
  simpa using hd

theorem strip_append {a b : List Char} (ha : ∀ c ∈ a, p c = true) (hb : ∀ c ∈ b, p c = true)
    (hs : ∀ c ∈ s.head?, p c = false) (hl : ∀ c ∈ s.getLast?, p c = false) :
    strip p (a ++ (s ++ b)) = s := by
  cases s with
  | nil =>
    have hall : ∀ c ∈ a ++ b, p c = true := List.forall_mem_append.2 ⟨ha, hb⟩
    rw [List.nil_append, strip, List.dropWhile_eq_nil_iff.2 hall]
    rfl
  | cons c s =>
    rw [strip, dropWhile_append_of_boundary (r := c :: s ++ b) ha hs, List.reverse_append,
      dropWhile_append_of_boundary, List.reverse_reverse]
    · intro c hc
      exact hb c (List.mem_reverse.1 hc)
    · intro c hc
      exact hl c (List.head?_reverse ▸ hc)

theorem strip_eq_self_iff : strip p s = s ↔
    (∀ c ∈ s.head?, p c = false) ∧ ∀ c ∈ s.getLast?, p c = false := by
  constructor
  · intro h
    exact ⟨fun c hc => head?_strip (h.symm ▸ hc), fun c hc => getLast?_strip (h.symm ▸ hc)⟩
  · rintro ⟨hs, hl⟩
    have h := strip_append (a := []) (b := []) (fun _ h => nomatch h) (fun _ h => nomatch h) hs hl
    rwa [List.append_nil] at h

theorem trim_blank_cons (hc : isBlank c = true) : trim (c :: s) = trim s := by
  rw [trim, trim, strip, strip, List.dropWhile_cons_of_pos hc]

theorem trim_eq_rdropWhile (hs : startsBlank s = false) : trim s = s.rdropWhile isBlank := by
  cases s with
  | nil => rfl
  | cons c s =>
    have hc : ¬ isBlank c = true := Bool.eq_false_iff.1 hs
    rw [trim, strip, List.dropWhile_cons_of_neg hc]
    rfl

theorem rdropWhile_cons (p : Char → Bool) (c : Char) (s : List Char) : (c :: s).rdropWhile p =
    if s.rdropWhile p = [] ∧ p c then [] else c :: s.rdropWhile p := by
  simp only [List.rdropWhile, List.reverse_cons, List.dropWhile_append, List.isEmpty_iff,
    List.reverse_eq_nil_iff]
  by_cases h : s.reverse.dropWhile p = []
  · cases hc : p c <;> simp [h, hc]
  · simp [h]

/-! ## Collapsing -/

/-- No two blanks are side by side. -/
def BlanksApart (s : List Char) : Prop := s.IsChain fun a b => ¬ (isBlank a ∧ isBlank b)

theorem blanksApart_cons :
    BlanksApart (c :: s) ↔ ¬ (isBlank c ∧ startsBlank s) ∧ BlanksApart s := by
  cases s <;> simp [BlanksApart, startsBlank]

theorem BlanksApart.of_isInfix {t : List Char} (h : BlanksApart s) (ht : t <:+: s) :
    BlanksApart t :=
  List.IsChain.infix h ht

theorem not_blanksApart (h : [' ', ' '] <:+: s) : ¬ BlanksApart s := fun hs =>
  (blanksApart_cons.1 (hs.of_isInfix h)).1 (by decide)

/-- Where spaces are the only blanks, it takes two of them. -/
theorem blanksApart_iff (hs : ∀ c ∈ s, isBlank c = true → c = ' ') :
    BlanksApart s ↔ ¬ [' ', ' '] <:+: s := by
  constructor
  · exact fun h hi => not_blanksApart hi h
  · intro h
    induction s with
    | nil => exact .nil
    | cons c s ih =>
      refine blanksApart_cons.2 ⟨fun ⟨hc, hd⟩ => h ?_, ih ?_ fun hi => h (List.infix_cons hi)⟩
      · cases s with
        | nil => cases hd
        | cons d s =>
          rw [hs c List.mem_cons_self hc, hs d (List.mem_cons_of_mem _ List.mem_cons_self) hd]
          exact (List.prefix_append [' ', ' '] s).isInfix
      · exact fun d hd => hs d (List.mem_cons_of_mem _ hd)

theorem startsBlank_collapse (s : List Char) : startsBlank (collapse s) = startsBlank s := by
  induction s with
  | nil => rfl
  | cons c s ih =>
    rw [collapse]
    split
    · next hc =>
      split
      · next hs => rw [ih, hs, startsBlank, hc]
      · rw [startsBlank, startsBlank, hc]
        decide
    · rfl

/-- Collapsed blanks stand alone. -/
theorem blanksApart_collapse (s : List Char) : BlanksApart (collapse s) := by
  induction s with
  | nil => exact .nil
  | cons c s ih =>
    rw [collapse]
    split
    · split
      · exact ih
      · next hs =>
        rw [blanksApart_cons, startsBlank_collapse]
        exact ⟨fun h => hs h.2, ih⟩
    · next hc =>
      rw [blanksApart_cons]
      exact ⟨fun h => hc h.1, ih⟩

/-- Two blanks side by side become one. -/
theorem length_collapse_lt (h : ¬ BlanksApart s) : (collapse s).length < s.length := by
  induction s with
  | nil => exact absurd .nil h
  | cons c s ih =>
    have hle := length_collapse_le s
    rw [blanksApart_cons, not_and_or, not_not] at h
    rw [collapse]
    rcases h with ⟨hc, hs⟩ | h
    · rw [if_pos hc, if_pos hs, List.length_cons]
      omega
    · have ih := ih h
      split
      · split <;> simp only [List.length_cons] <;> omega
      · simp only [List.length_cons]
        omega

theorem collapse_of_blanksApart (h : BlanksApart s) (hs : ∀ c ∈ s, isBlank c = true → c = ' ') :
    collapse s = s := by
  induction s with
  | nil => rfl
  | cons c s ih =>
    rw [blanksApart_cons] at h
    have ih := ih h.2 fun d hd => hs d (List.mem_cons_of_mem _ hd)
    rw [collapse, ih]
    split
    · next hc => rw [if_neg fun h' => h.1 ⟨hc, h'⟩, hs c List.mem_cons_self hc]
    · rfl

/-- A text that begins with blanks begins with one of them when it is collapsed. -/
theorem exists_collapse_eq (hs : startsBlank s = true) :
    ∃ t, collapse s = ' ' :: t ∧ startsBlank t = false := by
  have hb := startsBlank_collapse s
  have ha := blanksApart_collapse s
  have he : ∀ c ∈ collapse s, isBlank c = true → c = ' ' := fun c => eq_space_of_mem_collapse
  cases ht : collapse s with
  | nil =>
    rw [ht, hs] at hb
    cases hb
  | cons d t =>
    rw [ht] at hb ha he
    have hd : isBlank d = true := hb.trans hs
    obtain rfl := he d List.mem_cons_self hd
    have hn := (blanksApart_cons.1 ha).1
    exact ⟨t, rfl, Bool.eq_false_iff.2 fun h => hn ⟨hd, h⟩⟩

/-! ## Words -/

/-- The runs of characters that are not blank. -/
def words (s : List Char) : List (List Char) := (s.splitOnP isBlank).filter (· ≠ [])

/-- The words of a text with one space between neighbours. -/
def spaced (s : List Char) : List Char := [' '].intercalate (words s)

theorem words_append_blank (hc : isBlank c = true) (s t : List Char) :
    words (s ++ c :: t) = words s ++ words t := by
  rw [words, List.splitOnP_append_cons s t hc, List.filter_append]
  rfl

theorem words_blank_cons (hc : isBlank c = true) : words (c :: s) = words s :=
  words_append_blank hc [] s

theorem words_eq_nil (h : ∀ c ∈ s, isBlank c = true) : words s = [] := by
  induction s with
  | nil => rfl
  | cons c s ih =>
    rw [words_blank_cons (h c List.mem_cons_self), ih fun d hd => h d (List.mem_cons_of_mem _ hd)]

/-- Blanks at the ends of a text are in no word. -/
theorem words_append_blanks {a b : List Char} (ha : ∀ c ∈ a, isBlank c = true)
    (hb : ∀ c ∈ b, isBlank c = true) : words (a ++ (s ++ b)) = words s := by
  induction a with
  | nil =>
    cases b with
    | nil => rw [List.nil_append, List.append_nil]
    | cons c b =>
      rw [List.nil_append, words_append_blank (hb c List.mem_cons_self),
        words_eq_nil fun d hd => hb d (List.mem_cons_of_mem _ hd), List.append_nil]
  | cons c a ih =>
    rw [List.cons_append, words_blank_cons (ha c List.mem_cons_self),
      ih fun d hd => ha d (List.mem_cons_of_mem _ hd)]

/-- In front of blanks a character is a word. -/
theorem words_cons_of_startsBlank (hc : isBlank c = false) (hs : startsBlank s = true) :
    words (c :: s) = [c] :: words s := by
  cases s with
  | nil => cases hs
  | cons d s =>
    have h : words (c :: d :: s) = words [c] ++ words s := words_append_blank hs [c] s
    rw [words_blank_cons hs, h]
    simp [words, List.splitOnP_cons_eq_if_modifyHead, hc]

/-- Elsewhere it begins the first word, or the only one. -/
theorem words_cons (hc : isBlank c = false) (hs : startsBlank s = false) :
    words (c :: s) = (c :: (words s).headD []) :: (words s).tail := by
  cases s with
  | nil => simp [words, List.splitOnP_cons_eq_if_modifyHead, hc]
  | cons d s =>
    rw [startsBlank] at hs
    obtain ⟨w, ws, h⟩ := List.exists_cons_of_ne_nil (List.splitOnP_ne_nil isBlank s)
    simp [words, List.splitOnP_cons_eq_if_modifyHead, hc, hs, h]

theorem spaced_eq_nil_iff : spaced s = [] ↔ words s = [] := by
  constructor
  · intro h
    cases hw : words s with
    | nil => rfl
    | cons w ws =>
      have hm : w ∈ words s := hw ▸ List.mem_cons_self
      have hne : w ≠ [] := of_decide_eq_true (List.mem_filter.1 hm).2
      rw [spaced, hw] at h
      cases ws <;> simp [List.intercalate, hne] at h
  · intro h
    rw [spaced, h]
    rfl

theorem spaced_cons_of_startsBlank (hc : isBlank c = false) (hs : startsBlank s = true) :
    spaced (c :: s) = c :: if spaced s = [] then [] else ' ' :: spaced s := by
  simp only [spaced_eq_nil_iff]
  rw [spaced, spaced, words_cons_of_startsBlank hc hs]
  cases words s <;> simp [List.intercalate]

theorem spaced_cons (hc : isBlank c = false) (hs : startsBlank s = false) :
    spaced (c :: s) = c :: spaced s := by
  rw [spaced, spaced, words_cons hc hs]
  cases words s with
  | nil => rfl
  | cons w ws => cases ws <;> simp [List.intercalate]

/-- A collapsed and trimmed text is its words with single spaces between. -/
theorem trim_collapse (s : List Char) : trim (collapse s) = spaced s := by
  induction s with
  | nil => rfl
  | cons c s ih =>
    by_cases hc : isBlank c = true
    · have h : trim (collapse (c :: s)) = trim (collapse s) := by
        rw [collapse, if_pos hc]
        split
        · rfl
        · exact trim_blank_cons (by decide)
      rw [h, ih, spaced, spaced, words_blank_cons hc]
    · have hn : isBlank c = false := Bool.eq_false_iff.2 hc
      rw [collapse, if_neg hc, trim_eq_rdropWhile (s := c :: _) hn, rdropWhile_cons,
        if_neg fun h => hc h.2]
      cases hs : startsBlank s with
      | true =>
        -- One space is left of the blanks behind `c`; it stays if a word comes after it.
        obtain ⟨t, ht, hn'⟩ := exists_collapse_eq hs
        rw [ht, trim_blank_cons (by decide), trim_eq_rdropWhile hn'] at ih
        rw [spaced_cons_of_startsBlank hn hs, ht, rdropWhile_cons, ih]
        simp only [show isBlank ' ' = true by decide, and_true]
      | false =>
        rw [spaced_cons hn hs, ← trim_eq_rdropWhile (startsBlank_collapse s ▸ hs), ih]

example : spaced " \tSELECT  a,\n b ".toList = "SELECT a, b".toList := by decide

/-! ## Texts that are spaced -/

/-- Blanks stand between other characters only, and are single spaces. -/
structure IsSpaced (s : List Char) : Prop where
  head : ∀ c ∈ s.head?, isBlank c = false
  last : ∀ c ∈ s.getLast?, isBlank c = false
  space : ∀ c ∈ s, isBlank c = true → c = ' '
  single : ¬ [' ', ' '] <:+: s

theorem isSpaced_spaced (s : List Char) : IsSpaced (spaced s) := by
  have hspace : ∀ c ∈ spaced s, isBlank c = true → c = ' ' := by
    intro c hc
    rw [← trim_collapse] at hc
    exact eq_space_of_mem_collapse (mem_of_mem_strip hc)
  have hapart : BlanksApart (spaced s) := by
    rw [← trim_collapse]
    exact (blanksApart_collapse s).of_isInfix (strip_isInfix isBlank _)
  exact {
    head := fun c hc => head?_strip (trim_collapse s ▸ hc)
    last := fun c hc => getLast?_strip (trim_collapse s ▸ hc)
    space := hspace
    single := (blanksApart_iff hspace).1 hapart }

theorem spaced_of_isSpaced (h : IsSpaced s) : spaced s = s := by
  have ht : trim s = s := strip_eq_self_iff.2 ⟨h.head, h.last⟩
  rw [← trim_collapse, collapse_of_blanksApart ((blanksApart_iff h.space).2 h.single) h.space, ht]

theorem length_spaced_le (s : List Char) : (spaced s).length ≤ s.length := by
  rw [← trim_collapse]
  exact Nat.le_trans (length_strip_le isBlank _) (length_collapse_le s)

theorem length_spaced_lt (h : [' ', ' '] <:+: s) : (spaced s).length < s.length := by
  rw [← trim_collapse]
  exact Nat.lt_of_le_of_lt (length_strip_le isBlank _) (length_collapse_lt (not_blanksApart h))

end JobAtlas.Text
