import Mathlib.Data.List.DropRight
import JobAtlas.Proofs.Sql.Keyword

/-!
# Tables behind keywords

Which references are found, whatever the text around them. The patterns of
tables ask for no word boundary, so a match may begin inside a word and take
the keyword of a reference for a table. Therefore the text before a reference
must not end in a keyword of the pattern that is to find it.

* `EndsOutsideWord.eq_append`, `eq_append_of_isBlank`: a word, or blanks, read
  from the text before a reference do not reach into it.
* `EndsOutsideWord.behind_qualified`: nor do a keyword and the table behind it.
* `mem_scan_bareTable`, `mem_scan_qualifiedTable`: what each pattern finds.
* `mem_tables_of_reference`: where the one pattern fails the other does not.
-/

namespace JobAtlas.Sql

open Text (Recogniser isBlank isWord)

/-- The text ends in blanks, and before these in one of some words, which may be
the end of a longer word. -/
def EndsInKeyword (words : List String) (a : List Char) : Prop :=
  a.rdropWhile isBlank ≠ a ∧ ∃ w ∈ words, w.toList <:+ (a.rdropWhile isBlank).map Char.toUpper

instance (words : List String) (a : List Char) : Decidable (EndsInKeyword words a) :=
  inferInstanceAs (Decidable (_ ∧ _))

/-- The text ends in a dot, or in a dot and blanks. -/
def EndsInDot (a : List Char) : Prop := (a.rdropWhile isBlank).getLast? = some '.'

/-- The text ends in a character that is in no word. -/
def EndsOutsideWord (a : List Char) : Prop := ∃ c ∈ a.getLast?, isWord c = false

/-- A keyword, a space and an identifier. -/
def reference (k t b : List Char) : List Char := k ++ ' ' :: (t ++ b)

/-! ## How a text ends -/

theorem rdropWhile_append_of_boundary {p : Char → Bool} {a gap : List Char}
    (ha : ∀ c ∈ a.getLast?, p c = false) (hgap : ∀ c ∈ gap, p c = true) :
    (a ++ gap).rdropWhile p = a := by
  rw [List.rdropWhile, List.reverse_append, Text.dropWhile_append_of_boundary, List.reverse_reverse]
  · intro c hc
    exact hgap c (List.mem_reverse.1 hc)
  · intro c hc
    exact ha c (by rwa [List.head?_reverse] at hc)

theorem endsInKeyword_append {words : List String} (hwords : words ⊆ bareKeywords)
    {k gap : List Char} (hk : IsKeyword words k) (hne : gap ≠ [])
    (hgap : ∀ c ∈ gap, isBlank c = true) (before : List Char) :
    EndsInKeyword words (before ++ (k ++ gap)) := by
  have hdrop : (before ++ (k ++ gap)).rdropWhile isBlank = before ++ k := by
    rw [← List.append_assoc]
    refine rdropWhile_append_of_boundary (fun c hc => ?_) hgap
    rw [List.getLast?_append_of_ne_nil before (hk.mono hwords).ne_nil] at hc
    exact isBlank_of_mem_keyword (hk.mono hwords) (List.mem_of_getLast? hc)
  obtain ⟨w, hw, hkw⟩ := hk
  rw [EndsInKeyword, hdrop]
  refine ⟨fun h => hne ?_, w, hw, before.map Char.toUpper, ?_⟩
  · rw [← List.append_assoc] at h
    exact List.self_eq_append_right.1 h
  · rw [List.map_append, hkw]

theorem endsInDot_append {gap : List Char} (hgap : ∀ c ∈ gap, isBlank c = true)
    (before : List Char) : EndsInDot (before ++ '.' :: gap) := by
  have hdrop : (before ++ ['.'] ++ gap).rdropWhile isBlank = before ++ ['.'] :=
    rdropWhile_append_of_boundary (by simp; decide) hgap
  rw [EndsInDot, List.append_cons, hdrop, List.getLast?_concat]

theorem EndsInKeyword.not_endsInDot {words : List String} (hwords : words ⊆ bareKeywords)
    {a : List Char} (h : EndsInKeyword words a) : ¬ EndsInDot a := by
  intro hdot
  obtain ⟨-, w, hw, before, heq⟩ := h
  have hletter : ∀ w ∈ bareKeywords, w.toList ≠ [] ∧ w.toList.getLast? ≠ some '.' := by decide
  obtain ⟨hne, hlast⟩ := hletter w (hwords hw)
  have hend := congrArg List.getLast? heq
  rw [List.getLast?_append_of_ne_nil before hne, List.getLast?_map, hdot] at hend
  exact hlast hend

theorem endsInKeyword_append_iff {words words' : List String} {a : List Char} :
    EndsInKeyword (words ++ words') a ↔ EndsInKeyword words a ∨ EndsInKeyword words' a := by
  simp only [EndsInKeyword, List.mem_append, or_and_right, exists_or, and_or_left]

/-! ## What is read before a reference -/

/-- A word that begins before `s` ends there, and something follows it there. -/
theorem EndsOutsideWord.eq_append {v s w u : List Char} (hv : EndsOutsideWord v)
    (hw : ∀ c ∈ w, isWord c = true) (h : v ++ s = w ++ u) :
    ∃ v', v = w ++ v' ∧ u = v' ++ s ∧ EndsOutsideWord v' := by
  obtain ⟨c, hc, hcw⟩ := hv
  have hcv : c ∈ v := List.mem_of_getLast? hc
  have hword : c ∉ w := fun hm => by rw [hw c hm] at hcw; cases hcw
  rcases List.append_eq_append_iff.1 h with ⟨x, rfl, -⟩ | ⟨v', rfl, rfl⟩
  · exact absurd (List.mem_append_left x hcv) hword
  · have hne : v' ≠ [] := by
      rintro rfl
      exact hword (by simpa using hcv)
    exact ⟨v', rfl, rfl, c, by rwa [List.getLast?_append_of_ne_nil w hne] at hc, hcw⟩

/-- Blanks that begin before `s` end there. -/
theorem eq_append_of_isBlank {v s w u : List Char} (hs : ∀ c ∈ s.head?, isBlank c = false)
    (hw : ∀ c ∈ w, isBlank c = true) (h : v ++ s = w ++ u) : ∃ v', v = w ++ v' ∧ u = v' ++ s := by
  rcases List.append_eq_append_iff.1 h with ⟨x, rfl, rfl⟩ | ⟨v', rfl, rfl⟩
  · cases x with
    | nil => exact ⟨[], by rw [List.append_nil, List.append_nil], rfl⟩
    | cons c x =>
      have hc := hs c rfl
      rw [hw c (by simp)] at hc
      cases hc
  · exact ⟨v', rfl, rfl⟩

theorem EndsOutsideWord.of_append {w v : List Char} (h : EndsOutsideWord (w ++ v)) (hv : v ≠ []) :
    EndsOutsideWord v := by
  obtain ⟨c, hc, hcw⟩ := h
  exact ⟨c, by rwa [List.getLast?_append_of_ne_nil w hv] at hc, hcw⟩

/-- After a keyword and blanks that are read before `s` something follows before `s`. -/
theorem EndsOutsideWord.behind_keyword {words : List String} (hwords : words ⊆ bareKeywords)
    {a v s k s₁ gap u : List Char} (hv : EndsOutsideWord v) (hsuffix : v <:+ a)
    (hnot : ¬ EndsInKeyword words a) (hs : ∀ c ∈ s.head?, isBlank c = false)
    (hk : IsKeyword words k) (hgap : blanks s₁ = some (gap, u)) (h : v ++ s = k ++ s₁) :
    ∃ v', v' <:+ a ∧ u = v' ++ s ∧ EndsOutsideWord v' := by
  obtain ⟨v₁, rfl, h₁, hv₁⟩ := hv.eq_append (fun c => isWord_of_mem_keyword (hk.mono hwords)) h
  obtain ⟨hne, heq, hblank, -⟩ := Recogniser.run_eq_some_iff.1 hgap
  obtain ⟨v₂, rfl, rfl⟩ := eq_append_of_isBlank hs hblank (h₁.symm.trans heq)
  refine ⟨v₂, List.IsSuffix.trans ⟨k ++ gap, List.append_assoc ..⟩ hsuffix, rfl, hv₁.of_append ?_⟩
  rintro rfl
  obtain ⟨before, rfl⟩ := hsuffix
  rw [List.append_nil] at hnot
  exact hnot (endsInKeyword_append hwords hk hne hblank before)

theorem EndsOutsideWord.length_le {v s w r : List Char} (hv : EndsOutsideWord v)
    (hw : ∀ c ∈ w, isWord c = true) (h : v ++ s = w ++ r) : s.length ≤ r.length := by
  obtain ⟨v', -, rfl, -⟩ := hv.eq_append hw h
  rw [List.length_append]
  exact Nat.le_add_left ..

theorem EndsOutsideWord.behind_identifier {v s w r : List Char} (hv : EndsOutsideWord v)
    (h : identifier (v ++ s) = some (w, r)) : s.length ≤ r.length :=
  hv.length_le (fun _ => isWord_of_mem_identifier h) (identifier_eq_some_iff.1 h).1

theorem EndsOutsideWord.behind_schemaTable {a v s w r : List Char} (hv : EndsOutsideWord v)
    (hsuffix : v <:+ a) (hnot : ¬ EndsInDot a) (hs : ∀ c ∈ s.head?, isBlank c = false)
    (h : schemaTable (v ++ s) = some (w, r)) : s.length ≤ r.length := by
  obtain ⟨schema, gap, heq, -, hschema, hgap, hi⟩ := schemaTable_eq_some h
  obtain ⟨v₁, rfl, h₁, hv₁⟩ := hv.eq_append hschema heq
  obtain ⟨v₂, rfl⟩ : ∃ v₂, v₁ = '.' :: v₂ := by
    obtain ⟨c, hc, -⟩ := hv₁
    cases v₁ with
    | nil => cases hc
    | cons d v₂ => exact ⟨v₂, by rw [(List.cons.inj h₁).1]⟩
  obtain ⟨v₃, rfl, h₃⟩ := eq_append_of_isBlank hs hgap (List.cons.inj h₁).2.symm
  have hv₃ : EndsOutsideWord v₃ := by
    refine EndsOutsideWord.of_append (w := '.' :: gap) hv₁ ?_
    rintro rfl
    obtain ⟨before, rfl⟩ := hsuffix
    rw [List.append_nil, ← List.append_assoc] at hnot
    exact hnot (endsInDot_append hgap _)
  exact hv₃.length_le (fun _ => isWord_of_mem_identifier hi) h₃.symm

/-- With or without a schema, a table that is read before `s` ends there. -/
theorem EndsOutsideWord.behind_table {a v s w r : List Char} (hv : EndsOutsideWord v)
    (hsuffix : v <:+ a) (hnot : ¬ EndsInDot a) (hs : ∀ c ∈ s.head?, isBlank c = false)
    (h : (schemaTable (v ++ s)).or (identifier (v ++ s)) = some (w, r)) : s.length ≤ r.length := by
  rcases Option.or_eq_some_iff.1 h with hschema | ⟨-, hbare⟩
  · exact hv.behind_schemaTable hsuffix hnot hs hschema
  · exact hv.behind_identifier hbare

/-- A keyword that is read before `s`, and the table behind it, end there. -/
theorem EndsOutsideWord.behind_qualified {a v s k s₁ gap u w r : List Char}
    (hv : EndsOutsideWord v) (hsuffix : v <:+ a) (hnot : ¬ EndsInKeyword tableKeywords a)
    (hdot : ¬ EndsInDot a) (hs : ∀ c ∈ s.head?, isBlank c = false) (hk : IsKeyword tableKeywords k)
    (h : v ++ s = k ++ s₁) (hgap : blanks s₁ = some (gap, u))
    (hu : (schemaTable u).or (identifier u) = some (w, r)) : s.length ≤ r.length := by
  have hwords : tableKeywords ⊆ bareKeywords := List.subset_append_left ..
  obtain ⟨v', hv', rfl, hout⟩ := hv.behind_keyword hwords hsuffix hnot hs hk hgap h
  exact hout.behind_table hv' hdot hs hu

/-! ## What the patterns find -/

section Patterns

variable {a k t b : List Char} (ha : ∀ c ∈ a.getLast?, isWord c = false)
  (hk : IsKeyword tableKeywords k) (ht : identifier (t ++ b) = some (t, b))

include hk in
theorem isBlank_head_reference : ∀ c ∈ (reference k t b).head?, isBlank c = false := by
  have hk : IsKeyword bareKeywords k := hk.mono (List.subset_append_left ..)
  obtain ⟨d, k, rfl⟩ := List.exists_cons_of_ne_nil hk.ne_nil
  rintro c ⟨⟩
  exact isBlank_of_mem_keyword hk (List.mem_cons_self ..)

include ht in
theorem blanks_identifier : blanks (' ' :: (t ++ b)) = some ([' '], t ++ b) := by
  obtain ⟨-, ⟨c, v, rfl, hc, -⟩, -⟩ := identifier_eq_some_iff.1 ht
  refine Recogniser.run_eq_some_iff.2 ⟨List.cons_ne_nil _ _, rfl, fun d hd => ?_, fun d hd => ?_⟩
  · rw [List.mem_singleton.1 hd]
    decide
  · cases hd
    exact isBlank_of_isIdentStart hc

include hk ht in
theorem bareTable_reference : bareTable (reference k t b) = some (t, b) := by
  have hk : IsKeyword bareKeywords k := hk.mono (List.subset_append_left ..)
  simp only [bareTable, reference, Option.bind_eq_bind]
  rw [← bareKeywords, anyKeyword_append (List.Subset.refl bareKeywords) hk]
  simp only [Option.bind_some, blanks_identifier ht, ht]

include hk ht in
theorem qualifiedTable_reference (hb : schemaTable (t ++ b) = none) :
    qualifiedTable (reference k t b) = some (t, b) := by
  simp only [qualifiedTable, reference, Option.bind_eq_bind]
  rw [anyKeyword_append (List.subset_append_left ..) hk]
  simp only [Option.bind_some, Option.some_or, blanks_identifier ht, hb, ht, Option.none_or]

include ha in
theorem endsOutsideWord_of_suffix {v : List Char} (hv : v <:+ a) (hne : v ≠ []) :
    EndsOutsideWord v := by
  obtain ⟨w, rfl⟩ := hv
  have hlast : v.getLast? = some (v.getLast hne) := List.getLast?_eq_some_getLast hne
  refine ⟨v.getLast hne, hlast, ha _ ?_⟩
  rwa [List.getLast?_append_of_ne_nil w hne]

include ha hk ht in
theorem mem_scan_bareTable (hnot : ¬ EndsInKeyword bareKeywords a) :
    t ∈ bareTable.scan (a ++ reference k t b) := by
  have hs := isBlank_head_reference (t := t) (b := b) hk
  refine Recogniser.mem_scan_append (by simp [reference]) (bareTable_reference hk ht) ?_
  intro v hv hne y r h
  have hout := endsOutsideWord_of_suffix ha hv hne
  obtain ⟨k', s₁, gap, u, heq, hk', hgap, hi⟩ := bareTable_eq_some h
  obtain ⟨v', -, rfl, hv'⟩ := hout.behind_keyword (List.Subset.refl _) hv hnot hs hk' hgap heq
  exact .inl (hv'.behind_identifier hi)

include ha hk ht in
theorem mem_scan_qualifiedTable (hnot : ¬ EndsInKeyword tableKeywords a) (hdot : ¬ EndsInDot a)
    (hb : schemaTable (t ++ b) = none) : t ∈ qualifiedTable.scan (a ++ reference k t b) := by
  have hwords : tableKeywords ⊆ bareKeywords := List.subset_append_left ..
  have hs := isBlank_head_reference (t := t) (b := b) hk
  refine Recogniser.mem_scan_append (by simp [reference]) (qualifiedTable_reference hk ht hb) ?_
  intro v hv hne y r h
  have hout := endsOutsideWord_of_suffix ha hv hne
  obtain ⟨s₁, gap, u, ⟨k', heq, hk'⟩ | hdelete, hgap, hu⟩ := qualifiedTable_eq_some h
  · exact .inl (hout.behind_qualified hv hnot hdot hs hk' heq hgap hu)
  · obtain ⟨d, s₂, gap', k', heq, hd, hgap', hk'⟩ := deleteFrom_eq_some hdelete
    obtain ⟨v₁, rfl, h₁, hv₁⟩ := hout.eq_append
      (fun c => isWord_of_mem_keyword (hd.mono (List.subset_append_right ..))) heq
    obtain ⟨-, heq', hblank, -⟩ := Recogniser.run_eq_some_iff.1 hgap'
    obtain ⟨v₂, rfl, h₂⟩ := eq_append_of_isBlank hs hblank (h₁.symm.trans heq')
    by_cases hv₂ : v₂ = []
    · -- The keyword of the reference is the second word of `DELETE FROM`.
      subst hv₂
      obtain ⟨rfl, rfl⟩ := (hk'.mono hwords).eq_of_append (hk.mono hwords) h₂
      rw [blanks_identifier ht] at hgap
      cases hgap
      rw [hb, Option.none_or, ht] at hu
      cases hu
      exact .inr rfl
    · have hv₂a : v₂ <:+ a := List.IsSuffix.trans ⟨d ++ gap', List.append_assoc ..⟩ hv
      have hv₂out := hv₁.of_append hv₂
      exact .inl (hv₂out.behind_qualified hv₂a hnot hdot hs hk' h₂.symm hgap hu)

end Patterns

theorem schemaTable_eq_none {t b : List Char} (ht : identifier (t ++ b) = some (t, b))
    (hb : (b.dropWhile isWord).head? ≠ some '.') : schemaTable (t ++ b) = none := by
  rw [Option.eq_none_iff_forall_ne_some]
  rintro ⟨w, r⟩ h
  simp only [schemaTable, Option.bind_eq_bind, Option.bind_eq_some_iff, Prod.exists] at h
  obtain ⟨schema, s₁, hs, ⟨⟩, s₂, hd, -⟩ := h
  obtain ⟨-, heq, hword, hr⟩ := Recogniser.run_eq_some_iff.1 hs
  have hdrop : b.dropWhile isWord = s₁ := by
    rw [← List.dropWhile_append_of_pos fun c => isWord_of_mem_identifier ht, heq,
      Text.dropWhile_append_of_boundary hword hr]
  rw [hdrop, Recogniser.literal_eq_some_iff.1 hd] at hb
  exact hb rfl

theorem mem_tables_iff {sql name : String} :
    name ∈ tables sql ↔ ∃ p ∈ tablePatterns, ∃ w ∈ p.scan sql.toList, tableName? w = some name := by
  rw [tables, ← SortedSet.mem_def, tableSet, SortedSet.mem_ofList]
  simp only [List.mem_flatMap, List.mem_filterMap]

/-- A table behind a keyword is found behind any text that breaks off no word
and does not end in a keyword of the table patterns, not even as the end of a
longer word. It is found behind `DELETE` as well, unless it looks like a schema. -/
theorem mem_tables_of_reference {a k t b : String}
    (ha : ∀ c ∈ a.toList.getLast?, isWord c = false) (hk : IsKeyword tableKeywords k.toList)
    (ht : identifier t.toList = some (t.toList, [])) (hlabel : isComponentLabel t.toList = false)
    (hstop : Text.lowerCase t ∉ stopWords) (hb : ∀ c ∈ b.toList.head?, isIdentChar c = false)
    (hkeyword : ¬ EndsInKeyword tableKeywords a.toList)
    (hdelete : EndsInKeyword ["DELETE"] a.toList → (b.toList.dropWhile isWord).head? ≠ some '.') :
    Text.lowerCase t ∈ tables (a ++ k ++ " " ++ t ++ b) := by
  have hwhole : identifier (t.toList ++ b.toList) = some (t.toList, b.toList) := by
    obtain ⟨-, hname, -⟩ := identifier_eq_some_iff.1 ht
    exact identifier_eq_some_iff.2 ⟨rfl, hname, hb⟩
  have hname : tableName? t.toList = some (Text.lowerCase t) := by
    rw [tableName?, hlabel]
    exact if_neg (by simpa [Text.lowerCase] using hstop)
  have htext : (a ++ k ++ " " ++ t ++ b).toList =
      a.toList ++ reference k.toList t.toList b.toList := by
    simp [reference, String.toList_append]
  rw [mem_tables_iff, htext]
  by_cases hd : EndsInKeyword ["DELETE"] a.toList
  · have hdot := hd.not_endsInDot (List.subset_append_right ..)
    have hschema := schemaTable_eq_none hwhole (hdelete hd)
    exact ⟨qualifiedTable, by simp [tablePatterns], t.toList,
      mem_scan_qualifiedTable ha hk hwhole hkeyword hdot hschema, hname⟩
  · have hbare : ¬ EndsInKeyword bareKeywords a.toList := by
      rw [bareKeywords, endsInKeyword_append_iff]
      exact not_or.2 ⟨hkeyword, hd⟩
    exact ⟨bareTable, by simp [tablePatterns], t.toList,
      mem_scan_bareTable ha hk hwhole hbare, hname⟩

/-- In `DELETE FROM`, behind a word that ends in `DELETE`. -/
theorem mem_tables_of_reference_toDelete :
    "orders" ∈ tables ("SELECT 1 AS to_delete " ++ "from" ++ " " ++ "Orders" ++ " o") :=
  mem_tables_of_reference (by rintro c ⟨⟩; decide) (by decide +kernel) (by decide +kernel)
    (by decide +kernel) (by decide +kernel) (by rintro c ⟨⟩; decide) (by decide +kernel)
    (by decide +kernel)

/-- The keyword of a reference is taken for a table behind a word that ends in a
keyword, though the word itself is none. -/
theorem not_mem_tables_dateFrom :
    ¬ IsKeyword bareKeywords "date_from".toList ∧ "date_from".toList.all isWord = true ∧
      isWord ' ' = false ∧ IsKeyword tableKeywords "FROM".toList ∧
      identifier "orders".toList = some ("orders".toList, []) ∧
      isComponentLabel "orders".toList = false ∧ Text.lowerCase "orders" ∉ stopWords ∧
      Text.lowerCase "orders" ∉
        tables ("SELECT " ++ "date_from" ++ " " ++ "FROM" ++ " " ++ "orders" ++ "") := by
  decide +kernel

end JobAtlas.Sql
