import JobAtlas.Proofs.Markup.StartTag

/-!
# Scanning written markup

The automata that end markup pass over what is written between `<` and `>`:
a start tag or an end tag (`foldlM_tagStep_content`, `foldlM_tagStep_name`), since a
`>` in a value is inside quotes, and a comment (`foldlM_commentStep`), since two
dashes stand only at its ends. An automaton that passes over a text cuts behind
it (`cut_append`) and nowhere in it (`cut_eq_none`).
-/

namespace JobAtlas.Markup

/-! ## Automata -/

section

variable {σ : Type} {step : σ → Char → Option σ} {q q' : σ} {a : List Char}

theorem cut_append (h : a.foldlM step q = some q') (s : List Char) :
    cut step q (a ++ s) = (cut step q' s).map fun p => (a ++ p.1, p.2) := by
  induction a generalizing q with
  | nil =>
    cases h
    simp
  | cons c a ih =>
    rw [List.foldlM_cons] at h
    obtain ⟨q₁, hc, ha⟩ := Option.bind_eq_some_iff.1 h
    rw [List.cons_append, cut, hc]
    simp [ih ha, Function.comp_def]

theorem cut_append_cons (h : a.foldlM step q = some q') {c : Char} (hc : step q' c = none)
    (s : List Char) : cut step q (a ++ c :: s) = some (a, s) := by
  rw [cut_append h, cut, hc]
  simp

theorem cut_eq_none (h : a.foldlM step q = some q') {p : List Char} (hp : p <+: a) :
    cut step q p = none := by
  obtain ⟨b, rfl⟩ := hp
  rw [List.foldlM_append] at h
  obtain ⟨q₁, hp, -⟩ := Option.bind_eq_some_iff.1 h
  have h := cut_append hp []
  rwa [List.append_nil] at h

end

/-! ## Tags -/

theorem foldlM_tagStep_plain {s : List Char} (h : ∀ c ∈ s, c ≠ '>' ∧ c ≠ '"' ∧ c ≠ '\'') :
    s.foldlM tagStep none = some none := by
  induction s with
  | nil => rfl
  | cons c s ih =>
    obtain ⟨hc, hs⟩ := List.forall_mem_cons.1 h
    rw [List.foldlM_cons, tagStep, if_neg hc.1, if_neg (by simp [hc.2])]
    exact ih hs

theorem foldlM_tagStep_quoted {s : List Char} (h : ∀ c ∈ s, c ≠ '"') :
    s.foldlM tagStep (some '"') = some (some '"') := by
  induction s with
  | nil => rfl
  | cons c s ih =>
    obtain ⟨hc, hs⟩ := List.forall_mem_cons.1 h
    rw [List.foldlM_cons, tagStep, if_neg hc]
    exact ih hs

theorem foldlM_tagStep_name (n : Name) : n.chars.foldlM tagStep none = some none :=
  foldlM_tagStep_plain fun _ hc => ⟨n.ne_of_mem hc (by decide), n.ne_of_mem hc (by decide),
    n.ne_of_mem hc (by decide)⟩

theorem foldlM_tagStep_attribute (a : Name × String) :
    (writtenAttribute a).foldlM tagStep none = some none := by
  have h : writtenAttribute a =
      ([' '] ++ a.1.chars) ++ (['=', '"'] ++ (escaped a.2 ++ ['"'])) := by
    simp [writtenAttribute]
  have hk : ([' '] ++ a.1.chars).foldlM tagStep none = some none := by
    rw [List.foldlM_append]
    exact foldlM_tagStep_name a.1
  have hv : (escaped a.2 ++ ['"']).foldlM tagStep (some '"') = some none := by
    rw [List.foldlM_append, foldlM_tagStep_quoted fun _ => ne_of_mem_escaped]
    rfl
  rw [h, List.foldlM_append, hk]
  exact hv

theorem foldlM_tagStep_attributes (as : List (Name × String)) :
    (as.flatMap writtenAttribute).foldlM tagStep none = some none := by
  induction as with
  | nil => rfl
  | cons a as ih =>
    rw [List.flatMap_cons, List.foldlM_append, foldlM_tagStep_attribute]
    exact ih

theorem foldlM_tagStep_content (t : StartTag) : t.content.foldlM tagStep none = some none := by
  rw [StartTag.content, List.foldlM_append, foldlM_tagStep_name]
  exact foldlM_tagStep_attributes t.attributes

theorem of?_cons {c : Char} (hd : c ≠ '!') (hq : c ≠ '?') (s : List Char) :
    Kind.of? (c :: s) = some .tag := by
  rw [Kind.of?] <;> simp [hd, hq]

theorem of?_content (t : StartTag) (s : List Char) : Kind.of? (t.content ++ s) = some .tag :=
  have h := List.mem_cons_self
  of?_cons (t.name.ne_of_mem h (by decide)) (t.name.ne_of_mem h (by decide)) _

theorem of?_of_prefix_content {t : StartTag} {p : List Char} (h : p <+: t.content) :
    Kind.of? p = some .tag := by
  obtain ⟨s, hs⟩ := h
  cases p with
  | nil => rfl
  | cons c p =>
    obtain ⟨rfl, -⟩ := List.cons.inj hs
    exact of?_cons (t.name.ne_of_mem List.mem_cons_self (by decide))
      (t.name.ne_of_mem List.mem_cons_self (by decide)) p

theorem isAlphanum_or_quote_of_getLast?_content {t : StartTag} {c : Char}
    (h : t.content.getLast? = some c) : c.isAlphanum ∨ c = '"' := by
  rw [StartTag.content, List.getLast?_append, Option.or_eq_some_iff] at h
  obtain h | ⟨-, h⟩ := h
  · rw [List.getLast?_flatMap] at h
    obtain ⟨a, -, ha⟩ := List.exists_of_findSome?_eq_some h
    rw [writtenAttribute, List.getLast?_append] at ha
    cases ha
    exact Or.inr rfl
  · exact Or.inl (t.name.isAlphanum_of_mem (List.mem_of_getLast? h))

theorem token_content (t : StartTag) (stop : Nat) :
    Kind.tag.token t.content stop = .ok (.opening t.content) := by
  have hf : t.name.first ≠ '/' := t.name.ne_of_mem List.mem_cons_self (by decide)
  rw [Kind.token]
  · split
    · rename_i h
      obtain h | h := isAlphanum_or_quote_of_getLast?_content h
      · cases h
      · cases h
    · rfl
  · exact fun name h => hf (List.cons.inj h).1

theorem closingName_chars (n : Name) : closingName n.chars = n.chars := by
  have h : n.chars.reverse.dropWhile isTagSpace = n.chars.reverse := by
    cases hr : n.chars.reverse with
    | nil => rfl
    | cons c cs =>
      have hc : c ∈ n.chars := List.mem_reverse.1 (hr ▸ List.mem_cons_self)
      rw [List.dropWhile_cons_of_neg (by simp [n.isTagSpace_of_mem hc])]
  rw [closingName, h]
  split
  · rfl
  · rw [List.reverse_reverse]

/-! ## Comments -/

/-- The invariant: the dashes so far do not close the comment, neither here nor
with one more. -/
theorem foldlM_commentStep {words : List Char} (h : ¬ ['-', '-'] <:+: words) {n dashes : Nat}
    (h₁ : n < 4 ∨ dashes = 0 ∨ words.head? ≠ some '-') (h₂ : n < 5 ∨ dashes < 2) :
    ∃ dashes', words.foldlM commentStep (n, dashes) = some (n + words.length, dashes') := by
  induction words generalizing n dashes with
  | nil => exact ⟨dashes, rfl⟩
  | cons c words ih =>
    have hn : ¬ ['-', '-'] <:+: words := fun hw => h (hw.trans (List.suffix_cons c words).isInfix)
    have hs : ¬ (c = '>' ∧ 5 ≤ n ∧ 2 ≤ dashes) := by omega
    rw [List.foldlM_cons, commentStep, if_neg hs, List.length_cons]
    by_cases hc : c = '-'
    · subst hc
      have hh : words.head? ≠ some '-' := by
        intro hh
        obtain ⟨t, rfl⟩ := List.head?_eq_some_iff.1 hh
        exact h ⟨[], t, rfl⟩
      have hd : n + 1 < 5 ∨ dashes + 1 < 2 := by
        rcases h₁ with h₁ | h₁ | h₁
        · exact Or.inl (by omega)
        · exact Or.inr (by omega)
        · exact absurd List.head?_cons h₁
      obtain ⟨dashes', hw⟩ := ih hn (Or.inr (Or.inr hh)) hd
      rw [if_pos rfl, Nat.add_comm words.length, ← Nat.add_assoc]
      exact ⟨dashes', hw⟩
    · obtain ⟨dashes', hw⟩ := ih (n := n + 1) hn (Or.inr (Or.inl rfl)) (Or.inr Nat.zero_lt_two)
      rw [if_neg hc, Nat.add_comm words.length, ← Nat.add_assoc]
      exact ⟨dashes', hw⟩

/-- A comment ends where its last dashes are. -/
theorem foldlM_commentStep_comment {words : List Char} (h : ¬ ['-', '-'] <:+: words) :
    ∃ q, ("!--".toList ++ words ++ "--".toList).foldlM commentStep (0, 0) = some q ∧
      commentStep q '>' = none := by
  obtain ⟨dashes, hw⟩ : ∃ dashes, words.foldlM commentStep (3, 2) = some (3 + words.length, dashes) :=
    foldlM_commentStep h (Or.inl (by decide)) (Or.inl (by decide))
  refine ⟨(3 + words.length + 2, dashes + 2), ?_, ?_⟩
  · rw [List.foldlM_append, List.foldlM_append,
      show "!--".toList.foldlM commentStep (0, 0) = some (3, 2) from rfl]
    show (words.foldlM commentStep (3, 2)).bind _ = _
    rw [hw]
    rfl
  · rw [commentStep, if_pos ⟨rfl, by omega, by omega⟩]

end JobAtlas.Markup
