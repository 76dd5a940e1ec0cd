import JobAtlas.Proofs.Sql.TableReference

/-!
# Names of tables

Where a table that is found was in the text, and what its name looks like. A
pattern may begin to match inside a word, but it reads the identifier behind its
lead to the end.

* `names_of_mem_tablePatterns`: each pattern finds identifiers behind a lead;
* `isBareName_lower`: an identifier in lower case can be written without quotes;
* `exists_of_mem_tables`, `isBareName_of_mem_tables`: both for the tables of a text.
-/

namespace JobAtlas.Sql

open Text (Recogniser isBlank isWord)

/-! ## Identifiers behind leads -/

/-- A character that may begin an identifier, and others that may go on with it. -/
def IsIdentifier (w : List Char) : Prop :=
  ∃ c v, w = c :: v ∧ isIdentStart c = true ∧ ∀ d ∈ v, isIdentChar d = true

/-- The marks around a schema that is joined on, and around one that is interpolated. -/
def schemaMarks : List (List Char × List Char) :=
  [(['"', '+'], ['+', '"']), (['$', '\x7b'], ['\x7d'])]

/-- What stands right in front of the name of a table: a keyword and blanks, with
or without a schema, or a schema between marks. In such a schema the character does
not occur that the second mark begins with. -/
inductive Lead : List Char → Prop where
  | bare {k gap : List Char} (hk : IsKeyword bareKeywords k) (hne : gap ≠ [])
      (hgap : ∀ c ∈ gap, isBlank c = true) : Lead (k ++ gap)
  | qualified {k gap schema gap' : List Char} (hk : IsKeyword tableKeywords k) (hne : gap ≠ [])
      (hgap : ∀ c ∈ gap, isBlank c = true) (hs : schema ≠ [])
      (hword : ∀ c ∈ schema, isWord c = true) (hgap' : ∀ c ∈ gap', isBlank c = true) :
      Lead (k ++ (gap ++ (schema ++ '.' :: gap')))
  | marked {start stop schema gap gap' : List Char} (hm : (start, stop) ∈ schemaMarks)
      (hs : schema ≠ []) (hstop : ∀ c ∈ schema, stop.head? ≠ some c)
      (hgap : ∀ c ∈ gap, isBlank c = true) (hgap' : ∀ c ∈ gap', isBlank c = true) :
      Lead (start ++ (schema ++ (stop ++ (gap ++ '.' :: gap'))))

/-- The text has `w` right behind a lead, as an identifier that does not go on. -/
def Names (s w : List Char) : Prop :=
  ∃ before lead after, s = before ++ (lead ++ (w ++ after)) ∧ Lead lead ∧ IsIdentifier w ∧
    ∀ c ∈ after.head?, isIdentChar c = false

variable {s t w r lead : List Char}

theorem Lead.names (hl : Lead lead) (hi : identifier (w ++ r) = some (w, r)) :
    Names (lead ++ (w ++ r)) w := by
  obtain ⟨-, hw, hr⟩ := identifier_eq_some_iff.1 hi
  exact ⟨[], lead, r, rfl, hl, hw, hr⟩

theorem Names.of_suffix (h : Names t w) (ht : t <:+ s) : Names s w := by
  obtain ⟨before, rfl⟩ := ht
  obtain ⟨before', lead, after, rfl, hlead⟩ := h
  exact ⟨before ++ before', lead, after, (List.append_assoc ..).symm, hlead⟩

/-! ## What the patterns read -/

theorem names_of_enclosed {start stop schema s₁ : List Char} (hm : (start, stop) ∈ schemaMarks)
    (he : enclosed start stop s = some (schema, s₁)) (hd : dotted s₁ = some (w, r)) :
    Names s w := by
  obtain ⟨rfl, hs, hstop⟩ := enclosed_eq_some he
  obtain ⟨gap, gap', rfl, hgap, hgap', hi⟩ := dotted_eq_some hd
  have hl := Lead.marked hm hs hstop hgap hgap'
  simpa only [List.append_assoc, List.cons_append] using hl.names hi

theorem names_of_bareTable (h : bareTable s = some (w, r)) : Names s w := by
  obtain ⟨k, s₁, gap, u, rfl, hk, hgap, hi⟩ := bareTable_eq_some h
  obtain ⟨hne, rfl, hblank, -⟩ := Recogniser.run_eq_some_iff.1 hgap
  obtain ⟨rfl, -⟩ := identifier_eq_some_iff.1 hi
  simpa only [List.append_assoc] using (Lead.bare hk hne hblank).names hi

/-- Behind a keyword and blanks, with a schema or without. -/
theorem names_of_table {k s₁ gap u : List Char} (hk : IsKeyword tableKeywords k)
    (hgap : blanks s₁ = some (gap, u)) (hu : (schemaTable u).or (identifier u) = some (w, r)) :
    Names (k ++ s₁) w := by
  obtain ⟨hne, rfl, hblank, -⟩ := Recogniser.run_eq_some_iff.1 hgap
  rcases Option.or_eq_some_iff.1 hu with h | ⟨-, hi⟩
  · obtain ⟨schema, gap', rfl, hs, hword, hgap', hi⟩ := schemaTable_eq_some h
    have hl := Lead.qualified hk hne hblank hs hword hgap'
    simpa only [List.append_assoc, List.cons_append] using hl.names hi
  · obtain ⟨rfl, -⟩ := identifier_eq_some_iff.1 hi
    have hl := Lead.bare (hk.mono (List.subset_append_left ..)) hne hblank
    simpa only [List.append_assoc] using hl.names hi

theorem names_of_qualifiedTable (h : qualifiedTable s = some (w, r)) : Names s w := by
  obtain ⟨s₁, gap, u, ⟨k, rfl, hk⟩ | hdelete, hgap, hu⟩ := qualifiedTable_eq_some h
  · exact names_of_table hk hgap hu
  · -- The lead begins with the second word of `DELETE FROM`.
    obtain ⟨d, s₂, gap', k, rfl, -, hgap', hk⟩ := deleteFrom_eq_some hdelete
    obtain ⟨-, rfl, -⟩ := Recogniser.run_eq_some_iff.1 hgap'
    refine (names_of_table hk hgap hu).of_suffix ?_
    exact (List.suffix_append gap' _).trans (List.suffix_append d _)

theorem names_of_mem_tablePatterns {p : Recogniser (List Char)} (hp : p ∈ tablePatterns)
    (h : p s = some (w, r)) : Names s w := by
  simp only [tablePatterns, List.mem_cons, List.not_mem_nil, or_false] at hp
  rcases hp with rfl | rfl | rfl | rfl
  · simp only [joinedTable, Option.bind_eq_bind, Option.bind_eq_some_iff, Prod.exists] at h
    obtain ⟨schema, s₁, he, hd⟩ := h
    exact names_of_enclosed (by decide) he hd
  · simp only [interpolatedTable, Option.bind_eq_bind, Option.bind_eq_some_iff, Prod.exists] at h
    obtain ⟨schema, s₁, he, hd⟩ := h
    exact names_of_enclosed (by decide) he hd
  · exact names_of_qualifiedTable h
  · exact names_of_bareTable h

/-! ## Bare names -/

/-- The first character of a bare name: a small ASCII letter, an underscore, or
the one other character that lower case leaves. -/
def isNameStart (c : Char) : Bool := c.isLower || c == '_' || c == 'ſ'

def isNameChar (c : Char) : Bool := isNameStart c || c.isDigit

/-- A name that can be written without quotes. -/
def IsBareName (name : String) : Prop :=
  ∃ c cs, name.toList = c :: cs ∧ isNameStart c = true ∧ ∀ d ∈ cs, isNameChar d = true

theorem IsBareName.isNameChar {name : String} (h : IsBareName name) :
    ∀ c ∈ name.toList, isNameChar c = true := by
  obtain ⟨d, cs, hname, hd, hcs⟩ := h
  intro c hc
  rw [hname] at hc
  rcases List.mem_cons.1 hc with rfl | hc
  · rw [Sql.isNameChar, hd, Bool.true_or]
  · exact hcs c hc

/-- Two characters of identifiers are not ASCII. -/
theorem eq_of_isIdentChar {c : Char} (hc : isIdentChar c = true) (h : ¬ c.toNat < 128) :
    c = 'ſ' ∨ c = '\u212A' := by
  have hascii : ∀ {d : Char}, d.isAlphanum = true → d.toNat < 128 := fun hd =>
    Nat.lt_of_le_of_lt (toNat_of_isAlphanum hd).2 (by decide)
  simp only [isIdentChar, isIdentStart, Bool.or_eq_true, beq_iff_eq] at hc
  rcases hc with (((hc | rfl) | hc) | hc) | hc
  · exact absurd (hascii (isAlphanum_of_isAlpha hc)) h
  · exact absurd (by decide) h
  · exact .inl hc
  · exact .inr hc
  · exact absurd (hascii (by rw [Char.isAlphanum, hc, Bool.or_true])) h

/-- Lower case of a character of an identifier is one character of a bare name. -/
theorem lowerChar_of_isIdentChar {c : Char} (hc : isIdentChar c = true) :
    ∃ d, Text.lowerChar c = [d] ∧ isNameChar d = true ∧
      (isIdentStart c = true → isNameStart d = true) := by
  by_cases hn : c.toNat < 128
  · have hall : ∀ n < 128, isIdentChar (.ofNat n) = true →
        isNameChar (Char.ofNat n).toLower = true ∧
        (isIdentStart (.ofNat n) = true → isNameStart (Char.ofNat n).toLower = true) := by
      decide +kernel
    have hlower := hall c.toNat hn
    rw [Char.ofNat_toNat] at hlower
    exact ⟨c.toLower, if_pos hn, hlower hc⟩
  · rcases eq_of_isIdentChar hc hn with rfl | rfl
    · exact ⟨'ſ', by decide +kernel⟩
    · exact ⟨'k', by decide +kernel⟩

theorem isIdentChar_of_mem_identifier (hw : IsIdentifier w) : ∀ c ∈ w, isIdentChar c = true := by
  obtain ⟨d, v, rfl, hd, hv⟩ := hw
  intro c hc
  rcases List.mem_cons.1 hc with rfl | hc
  · rw [isIdentChar, hd, Bool.true_or]
  · exact hv c hc

theorem isBareName_lower (hw : IsIdentifier w) : IsBareName (String.ofList (Text.lower w)) := by
  have hchar := isIdentChar_of_mem_identifier hw
  have hs : 'Σ' ∉ w := fun hm => absurd (hchar _ hm) (by decide)
  obtain ⟨c, v, rfl, hc, hv⟩ := hw
  obtain ⟨d, hd, -, hstart⟩ := lowerChar_of_isIdentChar (hchar c List.mem_cons_self)
  refine ⟨d, v.flatMap Text.lowerChar, ?_, hstart hc, fun e he => ?_⟩
  · rw [String.toList_ofList, Text.lower_eq_flatMap hs, List.flatMap_cons, hd]
    rfl
  · obtain ⟨x, hx, he⟩ := List.mem_flatMap.1 he
    obtain ⟨y, hy, hname, -⟩ := lowerChar_of_isIdentChar (hv x hx)
    rw [hy, List.mem_singleton] at he
    exact he ▸ hname

/-! ## Tables of a text -/

/-- Every table stands in the text as an identifier that is no component's label,
and its name is no word of SQL. -/
theorem exists_of_mem_tables {sql name : String} (h : name ∈ tables sql) :
    ∃ w, Names sql.toList w ∧ name = String.ofList (Text.lower w) ∧
      isComponentLabel w = false ∧ name ∉ stopWords := by
  obtain ⟨p, hp, w, hw, hn⟩ := mem_tables_iff.1 h
  obtain ⟨t, r, ht, hm⟩ := Recogniser.exists_of_mem_scan hw
  simp only [tableName?, Option.ite_none_left_eq_some, Option.some.injEq, Bool.or_eq_true,
    not_or, Bool.not_eq_true] at hn
  obtain ⟨⟨hlabel, hstop⟩, rfl⟩ := hn
  refine ⟨w, (names_of_mem_tablePatterns hp hm).of_suffix ht, rfl, hlabel, fun hmem => ?_⟩
  rw [List.contains_iff_mem.2 hmem] at hstop
  cases hstop

theorem isBareName_of_mem_tables {sql name : String} (h : name ∈ tables sql) :
    IsBareName name := by
  obtain ⟨w, ⟨_, _, _, -, -, hw, -⟩, rfl, -⟩ := exists_of_mem_tables h
  exact isBareName_lower hw

end JobAtlas.Sql
