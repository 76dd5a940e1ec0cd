import JobAtlas.Proofs.Toml.Building
import JobAtlas.Proofs.Toml.Layout
import JobAtlas.Settings.Text

/-!
# Reading written settings

The value of a setting is read as the data that it stands for (`value_write`), and a
section as its header and its fields (`isLines_section`). So sections with distinct
names, each with distinct fields, are written as a text that gives these fields as
records (`parse?_writeSections`).
-/

namespace JobAtlas.Settings

open Toml (IsLines IsPlainKey Line)

/-! ## Values -/

/-- The data that a value stands for. -/
def Entry.data : Entry → Data
  | text s => .text s
  | texts items => .list (items.map .text)
  | number n => .int n
  | flag b => .bool b

theorem exists_quote (s : List Char) : ∃ q t, Toml.quote s = q :: t ∧ (q = '"' ∨ q = '\'') := by
  rw [Toml.quote]
  cases Toml.Quoting.of s with
  | basic => exact ⟨'"', _, rfl, .inl rfl⟩
  | literal => exact ⟨'\'', _, rfl, .inr rfl⟩
  | basicLines => exact ⟨'"', _, rfl, .inl rfl⟩
  | literalLines => exact ⟨'\'', _, rfl, .inr rfl⟩

theorem value_of_ne {c : Char} (hb : c ≠ '[') (ht : c ≠ '\x7b') (depth : Nat) (s : List Char) :
    Toml.value depth (c :: s) = Toml.scalar (c :: s) := by
  cases depth with
  | zero => rfl
  | succ depth =>
    rw [Toml.value]
    · exact fun t h => hb (List.cons.inj h).1
    · exact fun t h => ht (List.cons.inj h).1

theorem value_quote (depth : Nat) {r : List Char} (hr : ∀ q ∈ r.head?, q ≠ '"' ∧ q ≠ '\'')
    (s : String) : Toml.value depth (Toml.quote s.toList ++ r) = some (.text s, r) := by
  obtain ⟨q, t, ht, hq⟩ := exists_quote s.toList
  rw [← Toml.scalar_quote hr, ht, List.cons_append]
  refine value_of_ne ?_ ?_ depth _ <;> rcases hq with rfl | rfl <;> decide

/-- An item that is a text is followed by the end of the array or by the other items. -/
theorem elements_quote {depth : Nat} {t : String} {s r : List Char}
    (hs : Toml.skipFiller s = Toml.quote t.toList ++ r)
    (hr : ∀ q ∈ r.head?, q ≠ '"' ∧ q ≠ '\'') :
    Toml.elements (Toml.value depth) s =
      match Toml.skipFiller r with
      | ']' :: rest => some ([.text t], rest)
      | ',' :: rest =>
        if rest.length < s.length then do
          let (as, rest) ← Toml.elements (Toml.value depth) rest
          some (.text t :: as, rest)
        else none
      | _ => none := by
  rw [Toml.elements, hs]
  split
  · next h =>
    obtain ⟨q, u, hu, hq⟩ := exists_quote t.toList
    rw [hu] at h
    have he : q = ']' := (List.cons.inj h).1
    rcases hq with rfl | rfl <;> exact absurd he (by decide)
  · exact congrArg (· >>= _) (value_quote depth hr t)

/-- A text is found where it begins, and behind a line feed and blanks. -/
theorem skipFiller_quote (s r : List Char) :
    Toml.skipFiller (Toml.quote s ++ r) = Toml.quote s ++ r ∧
      Toml.skipFiller ('\n' :: ("    ".toList ++ (Toml.quote s ++ r))) = Toml.quote s ++ r := by
  obtain ⟨q, t, ht, rfl | rfl⟩ := exists_quote s <;> rw [ht] <;> exact ⟨rfl, rfl⟩

theorem elements_one (depth : Nat) (s : String) (r : List Char) :
    Toml.elements (Toml.value depth) (Toml.quote s.toList ++ ']' :: r) = some ([.text s], r) := by
  have hend : Toml.skipFiller (']' :: r) = ']' :: r := rfl
  rw [elements_quote (skipFiller_quote _ _).1 (by simp), hend]
  rfl

/-- Texts on lines of their own are the items of an array. -/
theorem elements_lines (depth : Nat) (items : List String) (r : List Char) :
    Toml.elements (Toml.value depth) ('\n' ::
      ((items.flatMap fun s => "    ".toList ++ Toml.quote s.toList ++ ",\n".toList) ++ ']' :: r)) =
      some (items.map .text, r) := by
  induction items with
  | nil =>
    have hs : Toml.skipFiller ('\n' :: ']' :: r) = ']' :: r := rfl
    rw [List.flatMap_nil, List.nil_append, Toml.elements, hs]
    rfl
  | cons s items ih =>
    have hend (r : List Char) : ",\n".toList ++ r = ',' :: '\n' :: r := rfl
    have hcomma (r : List Char) : Toml.skipFiller (',' :: r) = ',' :: r := rfl
    rw [List.flatMap_cons, List.append_assoc, List.append_assoc, List.append_assoc, hend,
      elements_quote (skipFiller_quote _ _).2 (by simp), hcomma]
    simp only
    rw [if_pos, ih]
    · rfl
    · simp only [List.length_cons, List.length_append]
      omega

/-- Texts are read as they were written, on one line or on several. -/
theorem value_texts (depth : Nat) (items : List String) (r : List Char) :
    Toml.value (depth + 1) (writeTexts items ++ r) = some (.list (items.map .text), r) := by
  have hv : ∀ s, Toml.value (depth + 1) ('[' :: s) =
      (Toml.elements (Toml.value depth) s).map fun p => (.list p.1, p.2) := fun s => rfl
  match items with
  | [] =>
    have hs : Toml.skipFiller (']' :: r) = ']' :: r := rfl
    rw [writeTexts, List.cons_append, List.singleton_append, hv, Toml.elements, hs]
    rfl
  | [s] =>
    rw [writeTexts, List.cons_append, List.cons_append, List.append_assoc, List.singleton_append,
      hv, elements_one]
    rfl
  | s :: t :: items =>
    have hw : writeTexts (s :: t :: items) ++ r = '[' :: '\n' :: (((s :: t :: items).flatMap fun s =>
        "    ".toList ++ Toml.quote s.toList ++ ",\n".toList) ++ ']' :: r) := by
      rw [writeTexts, List.append_assoc, List.append_assoc]
      · rfl
      all_goals exact nofun
    rw [hw, hv, elements_lines]
    rfl

theorem lt_of_le_largestNumber {n : Nat} (h : n ≤ largestNumber) : n < Nat.pow 2 63 :=
  Nat.lt_of_le_pred (Nat.pow_pos (by decide)) h

/-- A number is written as digits. -/
theorem isDigit_of_mem {n : Nat} {c : Char} (h : c ∈ (toString n).toList) : c.isDigit = true := by
  rw [Nat.toString_eq_ofList_toDigits, String.toList_ofList] at h
  exact Toml.isDigit_toDigits n c h

/-- A value begins with a character that is no blank. -/
theorem exists_write {e : Entry} {w : List Char} (h : e.write? = some w) :
    ∃ c s, w = c :: s ∧ Toml.isBlank c = false := by
  cases e with
  | text s =>
    cases h
    obtain ⟨q, t, ht, rfl | rfl⟩ := exists_quote s.toList <;> exact ⟨_, t, ht, rfl⟩
  | texts items =>
    cases h
    match items with
    | [] | [s] => exact ⟨'[', _, rfl, rfl⟩
    | s :: t :: items => exact ⟨'[', _, rfl, rfl⟩
  | number n =>
    obtain ⟨-, h⟩ := Option.ite_none_right_eq_some.1 h
    cases h
    have hne : (toString n).toList ≠ [] := by
      rw [Nat.toString_eq_ofList_toDigits, String.toList_ofList]
      exact Nat.toDigits_ne_nil
    obtain ⟨c, s, hc⟩ := List.exists_cons_of_ne_nil hne
    have hd := isDigit_of_mem (hc ▸ List.mem_cons_self)
    refine ⟨c, s, hc, ?_⟩
    rw [Toml.isBlank, beq_false_of_ne (Text.ne_of_class hd (d := ' ') (by decide)),
      beq_false_of_ne (Text.ne_of_class hd (d := '\t') (by decide))]
    rfl
  | flag b =>
    cases h
    cases b <;> exact ⟨_, _, rfl, rfl⟩

/-- At the end of a line every value is read as its data. -/
theorem value_write {e : Entry} {w : List Char} (h : e.write? = some w) (depth : Nat)
    (r : List Char) :
    Toml.value (depth + 1) (w ++ '\n' :: r) = some (e.data, '\n' :: r) := by
  cases e with
  | text s =>
    cases h
    exact value_quote _ (by simp) s
  | texts items =>
    cases h
    exact value_texts depth items _
  | number n =>
    obtain ⟨hn, h⟩ := Option.ite_none_right_eq_some.1 h
    cases h
    have hs := Toml.scalar_digits (lt_of_le_largestNumber hn) r
    have hne : ∀ c ∈ (toString n).toList.head?, c ≠ '[' ∧ c ≠ '\x7b' := fun c hc =>
      have hd := isDigit_of_mem (List.mem_of_head? hc)
      ⟨Text.ne_of_class hd (by decide), Text.ne_of_class hd (by decide)⟩
    refine Eq.trans ?_ hs
    cases hw : (toString n).toList with
    | nil => exact value_of_ne (by decide) (by decide) _ _
    | cons c w =>
      have hc := hne c (by rw [hw]; rfl)
      exact value_of_ne hc.1 hc.2 _ _
  | flag b =>
    cases h
    refine Eq.trans ?_ (Toml.scalar_flag b r)
    cases b <;> exact value_of_ne (by decide) (by decide) _ _

/-! ## Fields and sections -/

/-- A section, or a part of it: its name and fields. -/
abbrev Part := String × List (String × Entry)

theorem mapM_cons_eq_some {α β : Type} {f : α → Option β} {a : α} {as : List α} {bs : List β}
    (h : (a :: as).mapM f = some bs) :
    ∃ b bs', f a = some b ∧ as.mapM f = some bs' ∧ bs = b :: bs' := by
  rw [List.mapM_cons] at h
  obtain ⟨b, hb, h⟩ := Option.bind_eq_some_iff.1 h
  obtain ⟨bs', hbs, h⟩ := Option.bind_eq_some_iff.1 h
  cases h
  exact ⟨b, bs', hb, hbs, rfl⟩

theorem isLines_field {f : String × Entry} {w : List Char} (hf : writeField? f = some w)
    (hk : IsPlainKey f.1) : IsLines w [.field ⟨[], f.1⟩ f.2.data] := by
  obtain ⟨v, hv, h⟩ := Option.bind_eq_some_iff.1 hf
  cases h
  obtain ⟨c, s, rfl, hc⟩ := exists_write hv
  refine .of_line (by simp) fun r => ?_
  have hl := value_write hv (Toml.depthLimit - 1) r
  have hs : f.1.toList ++ " = ".toList ++ (c :: s) ++ ['\n'] ++ r =
      f.1.toList ++ (" = ".toList ++ c :: (s ++ '\n' :: r)) := by
    simp only [List.append_assoc, List.cons_append, List.nil_append]
  rw [hs]
  exact Toml.line_field hk hc hl

theorem isLines_fields {fields : List (String × Entry)} {ws : List (List Char)}
    (h : fields.mapM writeField? = some ws) (hk : ∀ f ∈ fields, IsPlainKey f.1) :
    IsLines ws.flatten (fields.map fun f => .field ⟨[], f.1⟩ f.2.data) := by
  induction fields generalizing ws with
  | nil =>
    cases h
    exact Toml.isLines_nil
  | cons f fields ih =>
    obtain ⟨w, ws, hw, hws, rfl⟩ := mapM_cons_eq_some h
    exact (isLines_field hw (hk f List.mem_cons_self)).append
      (ih hws fun g hg => hk g (List.mem_cons_of_mem _ hg))

/-- A section with the data of its values. -/
def sectionData (part : Part) : String × List (String × Data) :=
  (part.1, part.2.map fun f => (f.1, f.2.data))

/-- Names of sections and fields that need no quotes. -/
def PlainKeys (part : Part) : Prop :=
  IsPlainKey part.1 ∧ ∀ f ∈ part.2, IsPlainKey f.1

theorem isLines_section {part : Part} {w : List Char}
    (h : writeSection? part = some w) (hk : PlainKeys part) :
    IsLines w (Toml.tableLines (sectionData part)) := by
  obtain ⟨ws, hws, h⟩ := Option.bind_eq_some_iff.1 h
  cases h
  have hh : IsLines ('[' :: part.1.toList ++ "]\n".toList) [.header ⟨[], part.1⟩] := by
    refine .of_line (by simp) fun r => ?_
    rw [List.append_assoc]
    exact Toml.line_header hk.1 r
  have hl := hh.append (isLines_fields hws hk.2)
  rw [Toml.tableLines, sectionData, List.map_map]
  exact hl

/-- Sections with a blank line between neighbours. -/
theorem isLines_sections {parts : List Part} {ws : List (List Char)}
    (h : parts.mapM writeSection? = some ws) (hk : ∀ p ∈ parts, PlainKeys p) :
    IsLines (List.intercalate ['\n'] ws)
      (List.intercalate [.blank] ((parts.map sectionData).map Toml.tableLines)) := by
  induction parts generalizing ws with
  | nil =>
    cases h
    exact Toml.isLines_nil
  | cons p parts ih =>
    obtain ⟨w, ws, hw, hws, rfl⟩ := mapM_cons_eq_some h
    have hp := isLines_section hw (hk p List.mem_cons_self)
    have ih := ih hws fun q hq => hk q (List.mem_cons_of_mem _ hq)
    cases parts with
    | nil =>
      rw [List.mapM_nil] at hws
      cases hws
      simpa only [List.map_cons, List.map_nil, List.intercalate_singleton] using hp
    | cons q parts =>
      obtain ⟨w', ws', -, -, rfl⟩ := mapM_cons_eq_some hws
      simp only [List.map_cons, List.intercalate_cons_cons] at ih ⊢
      exact (hp.append Toml.isLines_blank).append ih

/-- Sections as a text, with a blank line between neighbours. -/
def writeSections? (parts : List Part) : Option String := do
  some (String.ofList (List.intercalate ['\n'] (← parts.mapM writeSection?)))

theorem toText?_eq (s : Settings) : s.toText? = writeSections? (sections s) := rfl

/-! ### What can be written -/

/-- A value that is not a number too large. -/
def Entry.IsWritable : Entry → Prop
  | number n => n ≤ largestNumber
  | _ => True

theorem isSome_mapM {α β : Type} {f : α → Option β} {as : List α} :
    (as.mapM f).isSome = true ↔ ∀ a ∈ as, (f a).isSome = true := by
  induction as with
  | nil => simp
  | cons a as ih =>
    rw [List.mapM_cons, List.forall_mem_cons, ← ih]
    cases f a with
    | none => simp
    | some b => cases as.mapM f <;> simp

theorem isSome_write? {e : Entry} : e.write?.isSome = true ↔ e.IsWritable := by
  cases e with
  | number n => simp [Entry.write?, Entry.IsWritable]
  | text | texts | flag => simp [Entry.write?, Entry.IsWritable]

theorem isSome_writeField? {f : String × Entry} :
    (writeField? f).isSome = true ↔ f.2.IsWritable := by
  rw [← isSome_write?, writeField?]
  cases f.2.write? <;> simp

theorem isSome_writeSection? {part : Part} :
    (writeSection? part).isSome = true ↔ ∀ f ∈ part.2, f.2.IsWritable := by
  have h : (writeSection? part).isSome = (part.2.mapM writeField?).isSome := by
    rw [writeSection?]
    cases part.2.mapM writeField? <;> rfl
  rw [h, isSome_mapM]
  exact forall₂_congr fun f _ => isSome_writeField?

/-- Sections are written unless they hold a number too large. -/
theorem isSome_writeSections? {parts : List Part} :
    (writeSections? parts).isSome = true ↔ ∀ p ∈ parts, ∀ f ∈ p.2, f.2.IsWritable := by
  have h : (writeSections? parts).isSome = (parts.mapM writeSection?).isSome := by
    rw [writeSections?]
    cases parts.mapM writeSection? <;> rfl
  rw [h, isSome_mapM]
  exact forall₂_congr fun p _ => isSome_writeSection?

/-! ### What is read -/

/-- The first character of sections is a bracket, if there are any. -/
theorem dropMark_sections {parts : List Part} {ws : List (List Char)}
    (h : parts.mapM writeSection? = some ws) :
    Toml.dropMark (List.intercalate ['\n'] ws) = List.intercalate ['\n'] ws := by
  cases parts with
  | nil =>
    cases h
    rfl
  | cons p parts =>
    obtain ⟨w, ws, hw, -, rfl⟩ := mapM_cons_eq_some h
    obtain ⟨fs, -, hw⟩ := Option.bind_eq_some_iff.1 hw
    cases hw
    rw [List.cons_append, List.cons_append, List.intercalate_cons_cons_left]
    rfl

/-- What is written is read as records with the values' data. -/
theorem parse?_writeSections {parts : List Part} {text : String}
    (h : writeSections? parts = some text) (hk : ∀ p ∈ parts, PlainKeys p)
    (hp : (parts.map Prod.fst).Nodup) (hf : ∀ p ∈ parts, (p.2.map Prod.fst).Nodup) :
    Toml.parse? text =
      some (parts.map fun p => (p.1, .record (p.2.map fun f => (f.1, f.2.data)))) := by
  obtain ⟨ws, hws, h⟩ := Option.bind_eq_some_iff.1 h
  cases h
  have hl := (isLines_sections hws hk).lines_eq
  have hp' : ((parts.map sectionData).map Prod.fst).Nodup := by rwa [List.map_map]
  have hf' : ∀ p ∈ parts.map sectionData, (p.2.map Prod.fst).Nodup := by
    intro p hm
    obtain ⟨q, hq, rfl⟩ := List.mem_map.1 hm
    rw [sectionData, List.map_map]
    exact hf q hq
  have hd := (Toml.fieldsData_tables hp' hf').trans (congrArg some List.map_map)
  rw [Toml.parse?, String.toList_ofList, dropMark_sections hws, hl]
  refine Eq.trans ?_ hd
  rw [Option.map_eq_bind]
  rfl

end JobAtlas.Settings
