import JobAtlas.Sql.Reference

/-!
# Keywords and identifiers

What the recognisers of `Sql.Reference` read, as decompositions of the text:
`keyword_eq_some_iff`, `identifier_eq_some_iff`, `schemaTable_eq_some`,
`enclosed_eq_some`, `dotted_eq_some`, `bareTable_eq_some` and
`qualifiedTable_eq_some` say where a match begins and ends, and
`anyKeyword_append` that a keyword is recognised in front of any text.
-/

namespace JobAtlas.Sql

open Text (Recogniser isBlank isWord)

/-! ## Characters -/

theorem toNat_of_isAlphanum {c : Char} (h : c.isAlphanum = true) : 48 ≤ c.toNat ∧ c.toNat ≤ 122 := by
  change ((decide (65 ≤ c.toNat ∧ c.toNat ≤ 90) ||
    (decide (97 ≤ c.toNat) && decide (c.toNat ≤ 122))) ||
    (decide (48 ≤ c.toNat) && decide (c.toNat ≤ 57))) = true at h
  simp only [Bool.or_eq_true, Bool.and_eq_true, decide_eq_true_eq] at h
  omega

theorem isAlphanum_of_isAlpha {c : Char} (h : c.isAlpha = true) : c.isAlphanum = true := by
  rw [Char.isAlphanum, h, Bool.true_or]

theorem isAlpha_of_isAlpha_toUpper {c : Char} (h : c.toUpper.isAlpha = true) :
    c.isAlpha = true := by
  by_cases hl : 97 ≤ c.toNat ∧ c.toNat ≤ 122
  · have hlower : c.isLower = true := by
      change (decide (97 ≤ c.toNat) && decide (c.toNat ≤ 122)) = true
      rw [Bool.and_eq_true, decide_eq_true_eq, decide_eq_true_eq]
      exact hl
    change (c.isUpper || c.isLower) = true
    rw [hlower, Bool.or_true]
  · have hc : c.toUpper = c := dif_neg hl
    rwa [hc] at h

theorem isBlank_of_isAlphanum {c : Char} (h : c.isAlphanum = true) : isBlank c = false := by
  have hn := toNat_of_isAlphanum h
  rw [Bool.eq_false_iff]
  intro hb
  simp only [isBlank, Bool.or_eq_true, Bool.and_eq_true, decide_eq_true_eq, beq_iff_eq] at hb
  omega

theorem isBlank_of_isIdentStart {c : Char} (h : isIdentStart c = true) : isBlank c = false := by
  simp only [isIdentStart, Bool.or_eq_true, beq_iff_eq] at h
  rcases h with ((h | rfl) | rfl) | rfl
  · exact isBlank_of_isAlphanum (isAlphanum_of_isAlpha h)
  · decide
  · decide
  · decide

theorem isWord_of_isAlphanum {c : Char} (h : c.isAlphanum = true) : isWord c = true :=
  Text.isWord_of_isAlphanum h (Nat.lt_of_le_of_lt (toNat_of_isAlphanum h).2 (by decide))

theorem isWord_of_isIdentChar {c : Char} (h : isIdentChar c = true) : isWord c = true := by
  simp only [isIdentChar, isIdentStart, Bool.or_eq_true, beq_iff_eq] at h
  rcases h with (((h | rfl) | rfl) | rfl) | h
  · exact isWord_of_isAlphanum (isAlphanum_of_isAlpha h)
  · decide
  · decide
  · decide +kernel
  · exact isWord_of_isAlphanum (by rw [Char.isAlphanum, h, Bool.or_true])

/-! ## Keywords -/

/-- One of some words, in any case. -/
def IsKeyword (words : List String) (k : List Char) : Prop :=
  ∃ w ∈ words, k.map Char.toUpper = w.toList

instance (words : List String) (k : List Char) : Decidable (IsKeyword words k) :=
  inferInstanceAs (Decidable (∃ w ∈ words, k.map Char.toUpper = w.toList))

/-- The keywords that an identifier follows without a schema. -/
def bareKeywords : List String := tableKeywords ++ ["DELETE"]

theorem IsKeyword.mono {words words' : List String} (h : words ⊆ words') {k : List Char}
    (hk : IsKeyword words k) : IsKeyword words' k := by
  obtain ⟨w, hw, hk⟩ := hk
  exact ⟨w, h hw, hk⟩

theorem IsKeyword.ne_nil {k : List Char} (hk : IsKeyword bareKeywords k) : k ≠ [] := by
  rintro rfl
  obtain ⟨w, hw, hk⟩ := hk
  have hwords : ∀ w ∈ bareKeywords, w.toList ≠ [] := by decide
  exact hwords w hw hk.symm

theorem isAlpha_of_mem_keyword {k : List Char} (hk : IsKeyword bareKeywords k) {c : Char}
    (hc : c ∈ k) : c.isAlpha = true := by
  obtain ⟨w, hw, hk⟩ := hk
  have hletters : ∀ w ∈ bareKeywords, w.toList.all Char.isAlpha = true := by decide
  have hall := List.all_eq_true.1 (hletters w hw)
  exact isAlpha_of_isAlpha_toUpper (hall _ (hk ▸ List.mem_map_of_mem hc))

theorem isBlank_of_mem_keyword {k : List Char} (hk : IsKeyword bareKeywords k) {c : Char}
    (hc : c ∈ k) : isBlank c = false :=
  isBlank_of_isAlphanum (isAlphanum_of_isAlpha (isAlpha_of_mem_keyword hk hc))

theorem isWord_of_mem_keyword {k : List Char} (hk : IsKeyword bareKeywords k) {c : Char}
    (hc : c ∈ k) : isWord c = true :=
  isWord_of_isAlphanum (isAlphanum_of_isAlpha (isAlpha_of_mem_keyword hk hc))

theorem keyword_eq_some_iff {word : String} {s r : List Char} :
    keyword word s = some ((), r) ↔ ∃ k, k.map Char.toUpper = word.toList ∧ s = k ++ r := by
  simp only [keyword, List.isPrefixOf_iff_prefix, Option.ite_none_right_eq_some,
    Option.some.injEq, Prod.mk.injEq, true_and, ← String.length_toList]
  constructor
  · rintro ⟨hp, rfl⟩
    refine ⟨s.take word.toList.length, ?_, (List.take_append_drop _ s).symm⟩
    refine (hp.eq_of_length_le ?_).symm
    rw [List.length_map]
    exact List.length_take_le _ s
  · rintro ⟨k, hk, rfl⟩
    have hl : word.toList.length = k.length := by rw [← hk, List.length_map]
    rw [hl, List.take_left, List.drop_left, hk]
    exact ⟨List.prefix_rfl, rfl⟩

theorem anyKeyword_eq_some {words : List String} {s r : List Char}
    (h : anyKeyword words s = some ((), r)) : ∃ k, IsKeyword words k ∧ s = k ++ r := by
  obtain ⟨w, hw, hk⟩ := List.exists_of_findSome?_eq_some h
  obtain ⟨k, hk, hs⟩ := keyword_eq_some_iff.1 hk
  exact ⟨k, ⟨w, hw, hk⟩, hs⟩

/-- No keyword begins another one. -/
theorem IsKeyword.eq_of_append {k k' r r' : List Char} (hk : IsKeyword bareKeywords k)
    (hk' : IsKeyword bareKeywords k') (h : k ++ r = k' ++ r') : k = k' ∧ r = r' := by
  obtain ⟨w, hw, hk⟩ := hk
  obtain ⟨w', hw', hk'⟩ := hk'
  have hfree : ∀ v ∈ bareKeywords, ∀ v' ∈ bareKeywords, v.toList <+: v'.toList → v = v' := by
    decide
  have hww : w = w' := by
    rcases List.prefix_or_prefix_of_prefix (List.prefix_append k r) (h ▸ List.prefix_append k' r')
      with hp | hp
    · exact hfree w hw w' hw' (hk ▸ hk' ▸ hp.map _)
    · exact (hfree w' hw' w hw (hk ▸ hk' ▸ hp.map _)).symm
  have hl : k.length = k'.length := by
    have hmap : k.map Char.toUpper = k'.map Char.toUpper := by rw [hk, hk', hww]
    simpa using congrArg List.length hmap
  exact List.append_inj h hl

theorem anyKeyword_append {words : List String} (hwords : words ⊆ bareKeywords) {k : List Char}
    (hk : IsKeyword words k) (r : List Char) : anyKeyword words (k ++ r) = some ((), r) := by
  obtain ⟨w, hw, hkw⟩ := hk
  have hsome : (anyKeyword words (k ++ r)).isSome := by
    rw [anyKeyword, List.findSome?_isSome_iff]
    exact ⟨w, hw, by rw [keyword_eq_some_iff.2 ⟨k, hkw, rfl⟩, Option.isSome_some]⟩
  obtain ⟨⟨⟨⟩, r'⟩, h⟩ := Option.isSome_iff_exists.1 hsome
  obtain ⟨k', hk', hs⟩ := anyKeyword_eq_some h
  rw [h, (IsKeyword.eq_of_append (IsKeyword.mono hwords ⟨w, hw, hkw⟩) (hk'.mono hwords) hs).2]

/-! ## Identifiers -/

theorem identifier_eq_some_iff {s w r : List Char} :
    identifier s = some (w, r) ↔
      s = w ++ r ∧ (∃ c v, w = c :: v ∧ isIdentStart c = true ∧ ∀ d ∈ v, isIdentChar d = true) ∧
        ∀ c ∈ r.head?, isIdentChar c = false := by
  constructor
  · intro h
    cases s with
    | nil => cases h
    | cons c s =>
      simp only [identifier, Option.ite_none_right_eq_some, Option.some.injEq, Prod.mk.injEq] at h
      obtain ⟨hc, rfl, rfl⟩ := h
      refine ⟨?_, ⟨c, _, rfl, hc, fun d hd => ?_⟩, fun d hd => ?_⟩
      · rw [List.cons_append, List.takeWhile_append_dropWhile]
      · exact (List.all_eq_true.1 List.all_takeWhile) d hd
      · have hn := List.head?_dropWhile_not isIdentChar s
        rw [hd] at hn
        simpa using hn
  · rintro ⟨rfl, ⟨c, v, rfl, hc, hv⟩, hr⟩
    rw [List.cons_append, identifier, if_pos hc, Text.takeWhile_append_of_boundary hv hr,
      Text.dropWhile_append_of_boundary hv hr]

theorem isWord_of_mem_identifier {s w r : List Char} (h : identifier s = some (w, r)) {c : Char}
    (hc : c ∈ w) : isWord c = true := by
  obtain ⟨-, ⟨d, v, rfl, hd, hv⟩, -⟩ := identifier_eq_some_iff.1 h
  refine isWord_of_isIdentChar ?_
  rcases List.mem_cons.1 hc with rfl | hc
  · rw [isIdentChar, hd, Bool.true_or]
  · exact hv c hc

theorem schemaTable_eq_some {s w r : List Char} (h : schemaTable s = some (w, r)) :
    ∃ schema blanks, s = schema ++ '.' :: (blanks ++ (w ++ r)) ∧ schema ≠ [] ∧
      (∀ c ∈ schema, isWord c = true) ∧ (∀ c ∈ blanks, isBlank c = true) ∧
      identifier (w ++ r) = some (w, r) := by
  simp only [schemaTable, Option.bind_eq_bind, Option.bind_eq_some_iff, Prod.exists] at h
  obtain ⟨schema, s₁, hs, ⟨⟩, s₂, hd, hi⟩ := h
  obtain ⟨hne, rfl, hword, -⟩ := Recogniser.run_eq_some_iff.1 hs
  have hd : s₁ = '.' :: s₂ := Recogniser.literal_eq_some_iff.1 hd
  have hskip : Recogniser.skip isBlank s₂ = w ++ r := (identifier_eq_some_iff.1 hi).1
  refine ⟨schema, s₂.takeWhile isBlank, ?_, hne, hword, ?_, hskip ▸ hi⟩
  · rw [hd, ← hskip, Recogniser.skip, List.takeWhile_append_dropWhile]
  · exact List.all_eq_true.1 List.all_takeWhile

/-! ## Tables -/

theorem enclosed_eq_some {start stop s w r : List Char}
    (h : enclosed start stop s = some (w, r)) :
    s = start ++ (w ++ (stop ++ r)) ∧ w ≠ [] ∧ ∀ c ∈ w, stop.head? ≠ some c := by
  simp only [enclosed, Option.bind_eq_bind, Option.bind_eq_some_iff, Prod.exists] at h
  obtain ⟨⟨⟩, s₁, hs, v, s₂, hv, ⟨⟩, s₃, hstop, hw⟩ := h
  cases hw
  obtain rfl := Recogniser.literal_eq_some_iff.1 hs
  obtain ⟨hne, rfl, hclass, -⟩ := Recogniser.run_eq_some_iff.1 hv
  obtain rfl := Recogniser.literal_eq_some_iff.1 hstop
  exact ⟨rfl, hne, fun c hc => by simpa using hclass c hc⟩

theorem enclosed_append {start stop w : List Char} (hne : w ≠ []) (hstop : stop ≠ [])
    (hw : ∀ c ∈ w, stop.head? ≠ some c) (r : List Char) :
    enclosed start stop (start ++ (w ++ (stop ++ r))) = some (w, r) := by
  obtain ⟨d, stop, rfl⟩ := List.exists_cons_of_ne_nil hstop
  simp only [enclosed, Option.bind_eq_bind, Option.bind_eq_some_iff, Prod.exists]
  have hrun : Recogniser.run (fun c => (d :: stop).head? != some c) (w ++ (d :: stop ++ r)) =
      some (w, d :: stop ++ r) :=
    Recogniser.run_eq_some_iff.2 ⟨hne, rfl, fun c hc => bne_iff_ne.2 (hw c hc), by simp⟩
  exact ⟨(), _, Recogniser.literal_eq_some_iff.2 rfl, w, _, hrun, (), r,
    Recogniser.literal_eq_some_iff.2 rfl, rfl⟩

theorem dotted_eq_some {s w r : List Char} (h : dotted s = some (w, r)) :
    ∃ gap gap', s = gap ++ '.' :: (gap' ++ (w ++ r)) ∧ (∀ c ∈ gap, isBlank c = true) ∧
      (∀ c ∈ gap', isBlank c = true) ∧ identifier (w ++ r) = some (w, r) := by
  simp only [dotted, Option.bind_eq_bind, Option.bind_eq_some_iff, Prod.exists] at h
  obtain ⟨⟨⟩, s₁, hd, hi⟩ := h
  have hd : Recogniser.skip isBlank s = '.' :: s₁ := Recogniser.literal_eq_some_iff.1 hd
  have hskip : Recogniser.skip isBlank s₁ = w ++ r := (identifier_eq_some_iff.1 hi).1
  refine ⟨s.takeWhile isBlank, s₁.takeWhile isBlank, ?_, List.all_eq_true.1 List.all_takeWhile,
    List.all_eq_true.1 List.all_takeWhile, hskip ▸ hi⟩
  rw [← hskip, Recogniser.skip, List.takeWhile_append_dropWhile, ← hd, Recogniser.skip,
    List.takeWhile_append_dropWhile]

theorem bareTable_eq_some {s w r : List Char} (h : bareTable s = some (w, r)) :
    ∃ k s₁ gap u, s = k ++ s₁ ∧ IsKeyword bareKeywords k ∧ blanks s₁ = some (gap, u) ∧
      identifier u = some (w, r) := by
  simp only [bareTable, Option.bind_eq_bind, Option.bind_eq_some_iff, Prod.exists] at h
  obtain ⟨⟨⟩, s₁, hk, gap, u, hgap, hi⟩ := h
  obtain ⟨k, hword, rfl⟩ := anyKeyword_eq_some hk
  exact ⟨k, s₁, gap, u, rfl, hword, hgap, hi⟩

theorem deleteFrom_eq_some {s r : List Char} (h : deleteFrom s = some ((), r)) :
    ∃ d s₁ gap k, s = d ++ s₁ ∧ IsKeyword ["DELETE"] d ∧ blanks s₁ = some (gap, k ++ r) ∧
      IsKeyword tableKeywords k := by
  simp only [deleteFrom, Option.bind_eq_bind, Option.bind_eq_some_iff, Prod.exists] at h
  obtain ⟨⟨⟩, s₁, hd, gap, s₂, hgap, hk⟩ := h
  obtain ⟨d, hdelete, rfl⟩ := keyword_eq_some_iff.1 hd
  obtain ⟨k, hfrom, rfl⟩ := keyword_eq_some_iff.1 hk
  exact ⟨d, s₁, gap, k, rfl, ⟨"DELETE", List.mem_singleton_self _, hdelete⟩, hgap,
    "FROM", by decide, hfrom⟩

theorem qualifiedTable_eq_some {s w r : List Char} (h : qualifiedTable s = some (w, r)) :
    ∃ s₁ gap u, ((∃ k, s = k ++ s₁ ∧ IsKeyword tableKeywords k) ∨ deleteFrom s = some ((), s₁)) ∧
      blanks s₁ = some (gap, u) ∧ (schemaTable u).or (identifier u) = some (w, r) := by
  simp only [qualifiedTable, Option.bind_eq_bind, Option.bind_eq_some_iff, Prod.exists,
    Option.or_eq_some_iff (o := anyKeyword _ _)] at h
  obtain ⟨⟨⟩, s₁, hk | ⟨-, hd⟩, gap, u, hgap, hi⟩ := h
  · obtain ⟨k, hword, rfl⟩ := anyKeyword_eq_some hk
    exact ⟨s₁, gap, u, .inl ⟨k, rfl, hword⟩, hgap, hi⟩
  · exact ⟨s₁, gap, u, .inr hd, hgap, hi⟩

end JobAtlas.Sql
