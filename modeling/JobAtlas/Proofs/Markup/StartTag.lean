import JobAtlas.Proofs.Markup.Writing
import JobAtlas.Text.Search

/-!
# Start tags

The content of a start tag is read back: the references in a value give the
value (`resolve_escaped`), the attributes come in their order
(`readAttributes_written`), and the tag opens an element with its name and its
attributes (`StartTag.ofTag_content`).
-/

namespace JobAtlas.Markup

open Text (byteLength takeWhile_append_of_boundary dropWhile_append_of_boundary)

/-! ## Names -/

theorem ne_of_isAlphanum {c d : Char} (hc : c.isAlphanum) (hd : d.isAlphanum = false) : c ≠ d :=
  Text.ne_of_class hc hd

theorem isTagSpace_of_isAlphanum {c : Char} (hc : c.isAlphanum) : isTagSpace c = false := by
  simp [isTagSpace, ne_of_isAlphanum hc]

namespace Name

variable (n : Name)

theorem isAlphanum_of_mem {c : Char} (h : c ∈ n.chars) : c.isAlphanum := by
  rcases List.mem_cons.1 h with rfl | h
  · simp [Char.isAlphanum, n.letter]
  · exact List.all_eq_true.1 n.alphanumeric c h

theorem ne_of_mem {c d : Char} (h : c ∈ n.chars) (hd : d.isAlphanum = false) : c ≠ d :=
  ne_of_isAlphanum (n.isAlphanum_of_mem h) hd

theorem isTagSpace_of_mem {c : Char} (h : c ∈ n.chars) : isTagSpace c = false :=
  isTagSpace_of_isAlphanum (n.isAlphanum_of_mem h)

theorem not_isTagSpace_of_mem {c : Char} (h : c ∈ n.chars) : (!isTagSpace c) = true := by
  rw [n.isTagSpace_of_mem h]
  rfl

theorem chars_injective {m n : Name} (h : m.chars = n.chars) : m = n := by
  cases m
  cases n
  simpa [chars] using h

end Name

/-! ## Values -/

theorem named?_of_entity? {c : Char} {name : List Char} (h : entity? c = some name) :
    named? name = some c ∧ ∀ d ∈ name, d.isAlphanum := by
  rw [← List.all_eq_true]
  by_cases hamp : c = '&'
  · subst hamp; cases h; decide
  by_cases hlt : c = '<'
  · subst hlt; cases h; decide
  by_cases hgt : c = '>'
  · subst hgt; cases h; decide
  by_cases hquot : c = '"'
  · subst hquot; cases h; decide
  simp [entity?, hamp, hlt, hgt, hquot] at h

theorem resolveFrom_reference {name : List Char} {c : Char} (h : named? name = some c)
    (hw : ∀ d ∈ name, d.isAlphanum) (offset : Nat) (s : List Char) :
    resolveFrom offset ('&' :: name ++ ';' :: s) =
      (resolveFrom (offset + 1 + byteLength name + 1) s).map (c :: ·) := by
  have hp : ∀ d ∈ name, (d ≠ '&' && d ≠ ';') = true := fun d hd => by
    simp [ne_of_isAlphanum (hw d hd)]
  have ht : (name ++ ';' :: s).takeWhile (fun d => d ≠ '&' && d ≠ ';') = name :=
    takeWhile_append_of_boundary hp (by simp)
  have hr : (name ++ ';' :: s).dropWhile (fun d => d ≠ '&' && d ≠ ';') = ';' :: s :=
    dropWhile_append_of_boundary hp (by simp)
  rw [List.cons_append, resolveFrom, if_neg (by decide)]
  simp only [ht]
  split
  · rename_i rest hs
    cases hr.symm.trans hs
    split
    · exact absurd rfl (ne_of_isAlphanum (hw '#' List.mem_cons_self) (by decide))
    · rw [h]
      rfl
  · rename_i hs
    exact absurd hr (hs s)

theorem resolveFrom_escapedChar (c : Char) (offset : Nat) (s : List Char) :
    ∃ offset', resolveFrom offset (escapedChar c ++ s) =
      (resolveFrom offset' s).map (c :: ·) := by
  unfold escapedChar
  split
  · rename_i name h
    obtain ⟨hn, hw⟩ := named?_of_entity? h
    rw [List.append_assoc]
    exact ⟨_, resolveFrom_reference hn hw offset s⟩
  · rename_i h
    have hc : c ≠ '&' := by rintro rfl; cases h
    rw [List.singleton_append, resolveFrom, if_pos hc]
    exact ⟨_, rfl⟩

theorem resolve_escaped (value : String) : resolve (escaped value) = .ok value.toList := by
  have h : ∀ (s : List Char) (offset : Nat), resolveFrom offset (s.flatMap escapedChar) = .ok s := by
    intro s
    induction s with
    | nil => intro offset; rw [List.flatMap_nil, resolveFrom]
    | cons c s ih =>
      intro offset
      obtain ⟨offset', h⟩ := resolveFrom_escapedChar c offset (s.flatMap escapedChar)
      rw [List.flatMap_cons, h, ih]
      rfl
  exact h value.toList 0

/-- The quote that ends a value is the first one after it begins. -/
theorem ne_of_mem_escaped {value : String} {c : Char} (h : c ∈ escaped value) : c ≠ '"' := by
  obtain ⟨d, -, hd⟩ := List.mem_flatMap.1 h
  unfold escapedChar at hd
  split at hd
  · rename_i name hname
    simp only [List.cons_append, List.mem_cons, List.mem_append, List.not_mem_nil, or_false] at hd
    rcases hd with rfl | hd | rfl
    · decide
    · exact ne_of_isAlphanum ((named?_of_entity? hname).2 c hd) (by decide)
    · decide
  · rename_i hname
    rintro rfl
    cases List.mem_singleton.1 hd
    cases hname

/-! ## Attributes -/

/-- A key goes up to the equals sign. -/
theorem isKey_of_mem {n : Name} {c : Char} (h : c ∈ n.rest) :
    (c ≠ '=' && !isTagSpace c) = true := by
  have h := List.mem_cons_of_mem n.first h
  simp [n.ne_of_mem h (d := '=') (by decide), n.isTagSpace_of_mem h]

/-- One attribute with a new key and a value between double quotes, and what follows it. -/
theorem readAttributes_eq_map (size : Nat) {seen : List (List Char × Nat)} {c : Char}
    {s r afterEquals quoted rest value : List Char}
    (h₀ : s.dropWhile isTagSpace = c :: r)
    (h₁ : (r.dropWhile fun d => d ≠ '=' && !isTagSpace d).dropWhile isTagSpace = '=' :: afterEquals)
    (hs : seen.lookup (c :: r.takeWhile fun d => d ≠ '=' && !isTagSpace d) = none)
    (h₂ : afterEquals.dropWhile isTagSpace = '"' :: quoted)
    (h₃ : quoted.dropWhile (· ≠ '"') = '"' :: rest)
    (hv : resolve (quoted.takeWhile (· ≠ '"')) = .ok value) :
    readAttributes size seen s =
      (readAttributes size ((c :: r.takeWhile fun d => d ≠ '=' && !isTagSpace d,
          size - byteLength (c :: r)) :: seen) rest).map
        ((String.ofList (c :: r.takeWhile fun d => d ≠ '=' && !isTagSpace d),
          String.ofList value) :: ·) := by
  rw [readAttributes]
  split
  · rename_i h
    cases h₀.symm.trans h
  · rename_i h
    cases h₀.symm.trans h
    split
    · rename_i h
      cases h₁.symm.trans h
      simp only [hs]
      split
      · rename_i h
        cases h₂.symm.trans h
      · rename_i h
        cases h₂.symm.trans h
        rw [if_pos (Or.inl rfl)]
        split
        · rename_i h
          cases h₃.symm.trans h
        · rename_i h
          cases h₃.symm.trans h
          rw [hv]
          rfl
    · rename_i h
      exact absurd h₁ (h _)

theorem readAttributes_writtenAttribute {n : Name} {seen : List (List Char × Nat)} (value : String)
    (h : seen.lookup n.chars = none) (size : Nat) (s : List Char) :
    ∃ start, readAttributes size seen (writtenAttribute (n, value) ++ s) =
      (readAttributes size ((n.chars, start) :: seen) s).map ((n.string, value) :: ·) := by
  have h₀ : (writtenAttribute (n, value) ++ s).dropWhile isTagSpace =
      n.first :: (n.rest ++ '=' :: '"' :: (escaped value ++ '"' :: s)) := by
    have hf : ¬ isTagSpace n.first := by simp [n.isTagSpace_of_mem List.mem_cons_self]
    simp only [writtenAttribute, Name.chars, List.cons_append, List.append_assoc,
      List.nil_append]
    rw [List.dropWhile_cons_of_pos (by decide), List.dropWhile_cons_of_neg hf]
  have hkey : (n.rest ++ '=' :: '"' :: (escaped value ++ '"' :: s)).takeWhile
      (fun d => d ≠ '=' && !isTagSpace d) = n.rest :=
    takeWhile_append_of_boundary (fun _ => isKey_of_mem) (by simp)
  have h₁ : (n.rest ++ '=' :: '"' :: (escaped value ++ '"' :: s)).dropWhile
      (fun d => d ≠ '=' && !isTagSpace d) = '=' :: '"' :: (escaped value ++ '"' :: s) :=
    dropWhile_append_of_boundary (fun _ => isKey_of_mem) (by simp)
  have hq : ∀ c ∈ escaped value, decide (c ≠ '"') = true := fun c hc =>
    decide_eq_true (ne_of_mem_escaped hc)
  have hv : (escaped value ++ '"' :: s).takeWhile (· ≠ '"') = escaped value :=
    takeWhile_append_of_boundary hq (by simp)
  have hr := readAttributes_eq_map size h₀ (by rw [h₁]; rfl) (by rw [hkey]; exact h) rfl
    (dropWhile_append_of_boundary hq (by simp)) (by rw [hv, resolve_escaped])
  rw [hkey, String.ofList_toList] at hr
  exact ⟨_, hr⟩

theorem readAttributes_written {as : List (Name × String)} {seen : List (List Char × Nat)}
    (hd : (as.map Prod.fst).Nodup) (hs : ∀ a ∈ as, seen.lookup a.1.chars = none) (size : Nat) :
    readAttributes size seen (as.flatMap writtenAttribute) =
      .ok (as.map fun a => (a.1.string, a.2)) := by
  induction as generalizing seen with
  | nil =>
    rw [List.flatMap_nil, readAttributes]
    rfl
  | cons a as ih =>
    rw [List.map_cons, List.nodup_cons] at hd
    obtain ⟨n, value⟩ := a
    obtain ⟨start, h⟩ := readAttributes_writtenAttribute value (hs _ List.mem_cons_self) size
      (as.flatMap writtenAttribute)
    rw [List.flatMap_cons, h, ih hd.2]
    · rfl
    · intro b hb
      have hb' : (b.1.chars == n.chars) = false :=
        beq_eq_false_iff_ne.2 fun h => hd.1 (List.mem_map.2 ⟨b, hb, Name.chars_injective h⟩)
      rw [List.lookup_cons, hb', hs b (List.mem_cons_of_mem _ hb)]

/-! ## Tags -/

theorem localName_chars (n : Name) : localName n.chars = n.string := by
  have h : (n.chars ++ []).dropWhile (· ≠ ':') = [] :=
    List.dropWhile_append_of_pos fun c hc => decide_eq_true (n.ne_of_mem hc (by decide))
  rw [List.append_nil] at h
  rw [localName, h]
  rfl

/-- A space stands in front of the attributes, if there are any. -/
theorem written_eq_nil_or_cons (as : List (Name × String)) :
    as.flatMap writtenAttribute = [] ∨ ∃ s, as.flatMap writtenAttribute = ' ' :: s := by
  cases as with
  | nil => exact Or.inl rfl
  | cons a as => exact Or.inr ⟨_, rfl⟩

namespace StartTag

variable (t : StartTag)

theorem tagName_content : tagName t.content = t.name.chars := by
  rw [tagName, content, List.takeWhile_append_of_pos fun _ => t.name.not_isTagSpace_of_mem]
  obtain hs | ⟨s, hs⟩ := written_eq_nil_or_cons t.attributes
  · rw [hs, List.takeWhile_nil, List.append_nil]
  · rw [hs, List.takeWhile_cons_of_neg (by decide), List.append_nil]

theorem tagAttributes_content : tagAttributes t.content = .ok t.pairs := by
  have hd : t.content.dropWhile (!isTagSpace ·) = t.attributes.flatMap writtenAttribute := by
    rw [content, List.dropWhile_append_of_pos fun _ => t.name.not_isTagSpace_of_mem]
    obtain hs | ⟨s, hs⟩ := written_eq_nil_or_cons t.attributes
    · rw [hs, List.dropWhile_nil]
    · rw [hs, List.dropWhile_cons_of_neg (by decide)]
  rw [tagAttributes, hd, readAttributes_written t.distinct fun _ _ => rfl]
  rfl

theorem ofTag_content :
    OpenElement.ofTag t.content = .ok ⟨t.name.chars, t.name.string, t.pairs, []⟩ := by
  simp only [OpenElement.ofTag, tagName_content, localName_chars, tagAttributes_content]

end StartTag

end JobAtlas.Markup
