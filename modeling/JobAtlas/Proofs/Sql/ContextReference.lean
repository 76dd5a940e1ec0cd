import Mathlib.Logic.Basic
import JobAtlas.Proofs.Sql.Keyword
import JobAtlas.Proofs.Text.ByteOrder

/-!
# References to context variables

A text refers to a context variable in one of three markings. In a text of such
references and segments between them, the patterns find the references and
nothing else (`contextVariables_passage`): every match begins with the mark of a
reference and the word `context.`, which no segment has and which no boundary
can complete, since no mark is in it.

* `pattern_eq_none_of_ne`, `pattern_eq_none_of_free`: where no match begins;
* `pattern_written`: what is read at a reference;
* `scan_pattern`: each pattern finds the references of its own marking, in order.
-/

namespace JobAtlas.Sql

open Text (Recogniser)

/-! ## References -/

/-- How a reference is marked: interpolated, or joined on behind either kind of quote. -/
inductive Marking where
  | interpolated
  | quoted
  | apostrophes
deriving DecidableEq

namespace Marking

/-- The character that a reference begins with. -/
def mark : Marking → Char
  | interpolated => '$'
  | quoted => '"'
  | apostrophes => '\''

/-- The other character in front of the word. -/
def second : Marking → Char
  | interpolated => '\x7b'
  | quoted | apostrophes => '+'

/-- What stands behind the name. -/
def closing : Marking → List Char
  | interpolated => ['\x7d']
  | quoted => ['+', '"']
  | apostrophes => ['+', '\'']

/-- The word in front of every name. -/
def word : List Char := ['c', 'o', 'n', 't', 'e', 'x', 't', '.']

/-- All that stands in front of the name. -/
def opening (m : Marking) : List Char := m.mark :: m.second :: word

/-- The pattern of the references marked so. -/
def pattern (m : Marking) : Recogniser (List Char) := enclosed m.opening m.closing

end Marking

/-- A character that may be in the name of a context variable. -/
def IsVariableChar (c : Char) : Prop := c.isAlphanum = true ∨ c = '_'

instance (c : Char) : Decidable (IsVariableChar c) :=
  inferInstanceAs (Decidable (_ ∨ _))

theorem isVariableChar_of_all {s : List Char} (h : s.all (decide <| IsVariableChar ·) = true) :
    ∀ c ∈ s, IsVariableChar c :=
  fun c hc => of_decide_eq_true (List.all_eq_true.1 h c hc)

/-- A reference to a context variable. -/
structure ContextReference where
  marking : Marking
  name : List Char
  ne_nil : name ≠ []
  plain : ∀ c ∈ name, IsVariableChar c

/-- The reference as it stands in a text. -/
def ContextReference.written (r : ContextReference) : List Char :=
  r.marking.opening ++ (r.name ++ r.marking.closing)

/-- A text of references, each with the segment behind it, and a segment in front of them. -/
structure Passage where
  first : List Char
  rest : List (ContextReference × List Char)
  first_free : ¬ Marking.word <:+: first
  rest_free : ∀ r ∈ rest, ¬ Marking.word <:+: r.2

namespace Passage

/-- References and the segments behind them, one after another. -/
def join (rest : List (ContextReference × List Char)) : List Char :=
  rest.flatMap fun r => r.1.written ++ r.2

/-- The whole text. -/
def text (p : Passage) : String := String.ofList (p.first ++ join p.rest)

end Passage

/-! ## Where matches begin -/

namespace Marking

variable {m : Marking} {v s t : List Char}

theorem contextPatterns_eq : contextPatterns = [interpolated, quoted, apostrophes].map pattern :=
  rfl

theorem mark_injective {m m' : Marking} (h : m.mark = m'.mark) : m = m' := by
  revert h
  cases m <;> cases m' <;> decide

/-- No mark is in the rest of an opening. -/
theorem mark_not_mem (m m' : Marking) : m.mark ∉ m'.second :: word := by
  cases m <;> cases m' <;> decide

/-- A closing ends in a character that the word does not begin with, and has no mark before it. -/
theorem exists_closing_eq (m : Marking) :
    ∃ init z, m.closing = init ++ [z] ∧ (∀ m' : Marking, m'.mark ∉ init) ∧ z ≠ 'c' := by
  cases m with
  | interpolated => exact ⟨[], '\x7d', rfl, nofun, by decide⟩
  | quoted => exact ⟨['+'], '"', rfl, fun m' => by cases m' <;> decide, by decide⟩
  | apostrophes => exact ⟨['+'], '\'', rfl, fun m' => by cases m' <;> decide, by decide⟩

theorem mark_ne_of_isVariableChar {c : Char} (h : IsVariableChar c) (m : Marking) : m.mark ≠ c := by
  rintro rfl
  revert h
  cases m <;> decide

theorem closing_head?_ne_of_isVariableChar {c : Char} (h : IsVariableChar c) (m : Marking) :
    m.closing.head? ≠ some c := by
  intro hc
  cases m <;> cases hc <;> revert h <;> decide

theorem eq_of_pattern_eq_some {w r : List Char} (h : m.pattern s = some (w, r)) :
    s = m.mark :: (m.second :: word ++ (w ++ (m.closing ++ r))) :=
  (enclosed_eq_some h).1

/-- A match begins with the mark. -/
theorem pattern_eq_none_of_ne (hv : m.mark ∉ v) (ht : t <:+ v) (hne : t ≠ []) :
    m.pattern (t ++ s) = none := by
  obtain ⟨c, t, rfl⟩ := List.exists_cons_of_ne_nil hne
  rw [Option.eq_none_iff_forall_ne_some]
  rintro ⟨w, r⟩ h
  obtain ⟨rfl, -⟩ := List.cons.inj (eq_of_pattern_eq_some h)
  exact hv (ht.subset List.mem_cons_self)

/-- A match has the word behind the mark, and no mark of what follows is in it. -/
theorem pattern_eq_none_of_free (hv : ¬ word <:+: v) (hs : ∀ c ∈ s.head?, ∃ m : Marking, m.mark = c)
    (ht : t <:+ v) (hne : t ≠ []) : m.pattern (t ++ s) = none := by
  obtain ⟨c, t, rfl⟩ := List.exists_cons_of_ne_nil hne
  have htv : ¬ m.second :: word <+: t := fun hp => hv <|
    ((List.suffix_cons _ _).isInfix.trans hp.isInfix).trans
      ((List.suffix_cons c t).isInfix.trans ht.isInfix)
  rw [Option.eq_none_iff_forall_ne_some]
  rintro ⟨w, r⟩ h
  have heq := (List.cons.inj (eq_of_pattern_eq_some h)).2
  rcases List.append_eq_append_iff.1 heq with ⟨x, hx, rfl⟩ | ⟨x, rfl, -⟩
  · cases x with
    | nil =>
      rw [List.append_nil] at hx
      exact htv (hx ▸ List.prefix_rfl)
    | cons d x =>
      -- The opening would go on with the mark of the next reference.
      obtain ⟨m', rfl⟩ := hs d rfl
      exact mark_not_mem m' m (hx ▸ List.mem_append_right t List.mem_cons_self)
  · exact htv (List.prefix_append _ x)

end Marking

namespace ContextReference

variable (r : ContextReference)

theorem pattern_written (s : List Char) :
    r.marking.pattern (r.written ++ s) = some (r.name, s) := by
  have hstop : r.marking.closing ≠ [] := by cases r.marking <;> exact List.cons_ne_nil _ _
  rw [written, List.append_assoc, List.append_assoc]
  exact enclosed_append r.ne_nil hstop
    (fun c hc => Marking.closing_head?_ne_of_isVariableChar (r.plain c hc) _) s

/-- A reference has its own mark, and but for its last character no other one. -/
theorem exists_written_eq : ∃ body z, r.written = body ++ [z] ∧ z ≠ 'c' ∧
    ∀ m : Marking, m ≠ r.marking → m.mark ∉ body := by
  obtain ⟨init, z, hclosing, hinit, hz⟩ := r.marking.exists_closing_eq
  refine ⟨r.marking.opening ++ (r.name ++ init), z, ?_, hz, fun m hm h => ?_⟩
  · simp only [written, hclosing, List.append_assoc]
  · rcases List.mem_append.1 h with h | h
    · rcases List.mem_cons.1 h with h | h
      · exact hm (Marking.mark_injective h)
      · exact Marking.mark_not_mem m r.marking h
    · rcases List.mem_append.1 h with h | h
      · exact Marking.mark_ne_of_isVariableChar (r.plain _ h) m rfl
      · exact hinit m h

end ContextReference

/-! ## What is found -/

namespace Passage

open Marking

theorem head?_join {rest : List (ContextReference × List Char)} :
    ∀ c ∈ (join rest).head?, ∃ m : Marking, m.mark = c := by
  cases rest with
  | nil => nofun
  | cons r rest =>
    rintro c ⟨⟩
    exact ⟨r.1.marking, rfl⟩

/-- A segment in front of references is passed over. -/
theorem scan_segment {m : Marking} {v : List Char} (hv : ¬ word <:+: v)
    (rest : List (ContextReference × List Char)) :
    m.pattern.scan (v ++ join rest) = m.pattern.scan (join rest) :=
  Recogniser.scan_append_of_none fun _ => pattern_eq_none_of_free hv head?_join

/-- Each pattern finds the references of its marking. -/
theorem scan_pattern (m : Marking) {rest : List (ContextReference × List Char)}
    (hfree : ∀ r ∈ rest, ¬ word <:+: r.2) :
    m.pattern.scan (join rest) = (rest.filter (·.1.marking = m)).map (·.1.name) := by
  induction rest with
  | nil => rfl
  | cons r rest ih =>
    obtain ⟨hr, hrest⟩ := List.forall_mem_cons.1 hfree
    have hjoin : join (r :: rest) = r.1.written ++ (r.2 ++ join rest) := by
      rw [join, List.flatMap_cons, List.append_assoc]
      rfl
    rw [hjoin]
    by_cases hm : r.1.marking = m
    · have hmatch := r.1.pattern_written (r.2 ++ join rest)
      rw [hm] at hmatch
      rw [List.filter_cons_of_pos (by simpa using hm), List.map_cons, ← ih hrest,
        ← scan_segment hr rest]
      exact Recogniser.scan_append_of_some (List.cons_ne_nil _ _) hmatch
    · -- Its last character may be a mark, which then stands in front of the segment.
      obtain ⟨body, z, hwritten, hz, hbody⟩ := r.1.exists_written_eq
      have hlast : ¬ word <:+: z :: r.2 := by
        rw [List.infix_cons_iff, not_or]
        exact ⟨fun hp => hz (List.cons_prefix_cons.1 hp).1.symm, hr⟩
      rw [List.filter_cons_of_neg (by simpa using hm), ← ih hrest, ← scan_segment hlast rest,
        hwritten, List.append_assoc]
      exact Recogniser.scan_append_of_none fun _ =>
        pattern_eq_none_of_ne (hbody m (Ne.symm hm))

end Passage

theorem mem_contextVariables_iff {sql v : String} :
    v ∈ contextVariables sql ↔ ∃ m : Marking, ∃ w ∈ m.pattern.scan sql.toList, String.ofList w = v := by
  have hall : ∀ m, m ∈ [Marking.interpolated, .quoted, .apostrophes] := fun m => by
    cases m <;> decide
  rw [contextVariables, ← SortedSet.mem_def, contextSet, SortedSet.mem_ofList,
    Marking.contextPatterns_eq]
  simp only [List.mem_flatMap, List.mem_map, hall, true_and, exists_exists_eq_and]

/-- The context variables of a text are the names that are referred to, in the
order of their bytes and each once, whatever stands between the references. -/
theorem contextVariables_passage (p : Passage) :
    (contextVariables p.text).Pairwise (fun a b => Text.utf8 a < Text.utf8 b) ∧
      ∀ v, v ∈ contextVariables p.text ↔ ∃ r ∈ p.rest, String.ofList r.1.name = v := by
  refine ⟨(contextSet p.text.toList).sorted.imp Text.lt_iff_utf8_lt.1, fun v => ?_⟩
  have hscan : ∀ m : Marking, m.pattern.scan p.text.toList =
      (p.rest.filter (·.1.marking = m)).map (·.1.name) := fun m => by
    rw [Passage.text, String.toList_ofList, Passage.scan_segment p.first_free,
      Passage.scan_pattern m p.rest_free]
  rw [mem_contextVariables_iff]
  constructor
  · rintro ⟨m, w, hw, rfl⟩
    rw [hscan] at hw
    obtain ⟨r, hr, rfl⟩ := List.mem_map.1 hw
    exact ⟨r, (List.mem_filter.1 hr).1, rfl⟩
  · rintro ⟨r, hr, rfl⟩
    refine ⟨r.1.marking, r.1.name, ?_, rfl⟩
    rw [hscan]
    exact List.mem_map.2 ⟨r, List.mem_filter.2 ⟨hr, by simp⟩, rfl⟩

/-- References side by side and between quotes, plus signs and braces. -/
def adjoined : Passage where
  first := "SELECT '\"+\x7bcontext".toList
  rest :=
    [(⟨.quoted, "b".toList, by decide +kernel, isVariableChar_of_all (by decide)⟩,
        []),
      (⟨.interpolated, "B_2".toList, by decide +kernel, isVariableChar_of_all (by decide)⟩,
        "\x7d$\x7bcontext+".toList),
      (⟨.quoted, "b".toList, by decide +kernel, isVariableChar_of_all (by decide)⟩,
        "+\"+'\n".toList),
      (⟨.apostrophes, "_a".toList, by decide +kernel, isVariableChar_of_all (by decide)⟩,
        "+'".toList)]
  first_free := by decide +kernel
  rest_free := by decide +kernel

theorem contextVariables_passage_adjoined :
    adjoined.text = "SELECT '\"+\x7bcontext\"+context.b+\"$\x7bcontext.B_2\x7d\x7d$\x7bcontext+" ++
        "\"+context.b+\"+\"+'\n'+context._a+'+'" ∧
      contextVariables adjoined.text = ["B_2", "_a", "b"] ∧
      ∀ v, v ∈ contextVariables adjoined.text ↔ ∃ r ∈ adjoined.rest, String.ofList r.1.name = v :=
  ⟨by decide +kernel, by decide +kernel, (contextVariables_passage adjoined).2⟩

end JobAtlas.Sql
