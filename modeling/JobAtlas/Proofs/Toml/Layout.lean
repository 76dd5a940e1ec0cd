import JobAtlas.Proofs.Toml.Scalar

/-!
# Reading lines

A field and a header with a plain key are read as the lines that they are
(`line_field`, `line_header`), since a plain key begins with a character that begins
nothing else. `IsLines s ls` says that reading `s` comes to `ls` whatever lines follow,
so that a text is read piece by piece (`IsLines.append`).
-/

namespace JobAtlas.Toml

open Text (Recogniser ne_of_class)

/-! ## Keys -/

/-- A key that needs no quotes. -/
structure IsPlainKey (key : String) : Prop where
  ne_nil : key.toList ≠ []
  all_isKeyChar : ∀ c ∈ key.toList, isKeyChar c = true

instance (key : String) : Decidable (IsPlainKey key) :=
  decidable_of_iff (key.toList ≠ [] ∧ key.toList.all isKeyChar = true)
    ⟨fun ⟨h₁, h₂⟩ => ⟨h₁, List.all_eq_true.1 h₂⟩, fun ⟨h₁, h₂⟩ => ⟨h₁, List.all_eq_true.2 h₂⟩⟩

theorem isBlank_of_isKeyChar {c : Char} (h : isKeyChar c = true) : isBlank c = false := by
  rw [isBlank, beq_false_of_ne (ne_of_class h (d := ' ') (by decide)),
    beq_false_of_ne (ne_of_class h (d := '\t') (by decide))]
  rfl

theorem skipBlanks_cons {c : Char} (hc : isBlank c = false) (s : List Char) :
    skipBlanks (c :: s) = c :: s := by
  rw [skipBlanks, Recogniser.skip, List.dropWhile_cons_of_neg (by rw [hc]; decide)]

section Key

variable {key : String} (hk : IsPlainKey key)
include hk

/-- A plain key begins with a character that begins nothing else. -/
theorem IsPlainKey.exists_cons : ∃ c w, key.toList = c :: w ∧ isKeyChar c = true := by
  obtain ⟨c, w, h⟩ := List.exists_cons_of_ne_nil hk.ne_nil
  exact ⟨c, w, h, hk.all_isKeyChar c (h ▸ List.mem_cons_self)⟩

theorem skipBlanks_plain (r : List Char) : skipBlanks (key.toList ++ r) = key.toList ++ r := by
  obtain ⟨c, w, hw, hc⟩ := hk.exists_cons
  rw [hw]
  exact skipBlanks_cons (isBlank_of_isKeyChar hc) _

theorem simpleKey_plain {r : List Char} (hr : ∀ c ∈ r.head?, isKeyChar c = false) :
    simpleKey (key.toList ++ r) = some (key, r) := by
  obtain ⟨c, w, hw, hc⟩ := hk.exists_cons
  have hq : quotedLine (key.toList ++ r) = none := by
    rw [hw, List.cons_append, quotedLine]
    · exact fun s h => ne_of_class hc (by decide) (List.cons.inj h).1
    · exact fun s h => ne_of_class hc (by decide) (List.cons.inj h).1
  have hrun : Recogniser.run isKeyChar (key.toList ++ r) = some (key.toList, r) :=
    Recogniser.run_eq_some_iff.2 ⟨hk.ne_nil, rfl, hk.all_isKeyChar, hr⟩
  simp [simpleKey, hq, hrun]

/-- A plain key is read with the blanks behind it, unless a dot follows. -/
theorem Key.read_plain {r : List Char} (hr : ∀ c ∈ r.head?, isKeyChar c = false)
    (hdot : ∀ t, skipBlanks r ≠ '.' :: t) :
    Key.read (key.toList ++ r) = some (⟨[], key⟩, skipBlanks r) := by
  have hp : keyParts (key.toList ++ r) = some ([key], skipBlanks r) := by
    rw [keyParts, skipBlanks_plain hk, simpleKey_plain hk hr]
    simp only [Option.bind_eq_bind, Option.bind_some]
  rw [Key.read, hp]
  rfl

end Key

/-! ## Lines -/

/-- A character that begins neither the end of a line nor what goes before it. -/
theorem lineEnd?_eq_none {c : Char} (hb : isBlank c = false) (hc : c ≠ '#') (hl : c ≠ '\n')
    (hr : c ≠ '\r') (s : List Char) : lineEnd? (c :: s) = none := by
  have hs : skipComment (c :: s) = c :: s := by
    rw [skipComment]
    exact fun t h => hc (List.cons.inj h).1
  rw [lineEnd?, skipBlanks_cons hb, hs]
  simp only
  rw [newline?]
  · exact fun t h => hl (List.cons.inj h).1
  · exact fun t h => hr (List.cons.inj h).1

section Line

variable {key : String} (hk : IsPlainKey key)
include hk

theorem keyValue_plain {item : Recogniser Data} {c : Char} {s r : List Char} {d : Data}
    (hc : isBlank c = false) (h : item (c :: s) = some (d, '\n' :: r)) :
    keyValue item (key.toList ++ (" = ".toList ++ c :: s)) = some ((⟨[], key⟩, d), '\n' :: r) := by
  have hb : skipBlanks (" = ".toList ++ c :: s) = '=' :: ' ' :: c :: s := rfl
  have hkey : Key.read (key.toList ++ (" = ".toList ++ c :: s)) =
      some (⟨[], key⟩, '=' :: ' ' :: c :: s) := by
    rw [Key.read_plain hk (by simp; decide) (by rw [hb]; simp), hb]
  have hv : skipBlanks (' ' :: c :: s) = c :: s := skipBlanks_cons hc s
  have hl : skipBlanks ('\n' :: r) = '\n' :: r := skipBlanks_cons (by decide) r
  have he : Recogniser.literal ['='] ('=' :: ' ' :: c :: s) = some ((), ' ' :: c :: s) := rfl
  rw [keyValue, hkey]
  simp only [Option.bind_eq_bind, Option.bind_some, he, hv, h, hl]

theorem line_field {c : Char} {s r : List Char} {d : Data} (hc : isBlank c = false)
    (h : value depthLimit (c :: s) = some (d, '\n' :: r)) :
    line (key.toList ++ (" = ".toList ++ c :: s)) = some (.field ⟨[], key⟩ d, r) := by
  obtain ⟨k, w, hw, hkc⟩ := hk.exists_cons
  have hne : ∀ d, isKeyChar d = false → k ≠ d := fun d => ne_of_class hkc
  have hb := isBlank_of_isKeyChar hkc
  have hs : statement (key.toList ++ (" = ".toList ++ c :: s)) =
      some (.field ⟨[], key⟩ d, '\n' :: r) := by
    have hp : ∀ t, ('[' :: t).isPrefixOf (key.toList ++ (" = ".toList ++ c :: s)) = false := by
      intro t
      rw [hw, List.cons_append, List.isPrefixOf, beq_false_of_ne (hne '[' (by decide)).symm]
      rfl
    rw [statement, hp, hp, keyValue_plain hk hc h]
    rfl
  have he : lineEnd? (key.toList ++ (" = ".toList ++ c :: s)) = none := by
    rw [hw]
    exact lineEnd?_eq_none hb (hne '#' (by decide)) (hne '\n' (by decide)) (hne '\r' (by decide)) _
  rw [line, he]
  simp only [skipBlanks_plain hk, hs]
  rfl

theorem line_header (r : List Char) :
    line ('[' :: (key.toList ++ ("]\n".toList ++ r))) = some (.header ⟨[], key⟩, r) := by
  obtain ⟨k, w, hw, hkc⟩ := hk.exists_cons
  have hb : skipBlanks ("]\n".toList ++ r) = ']' :: '\n' :: r := rfl
  have hkey : Key.read (key.toList ++ ("]\n".toList ++ r)) = some (⟨[], key⟩, ']' :: '\n' :: r) := by
    rw [Key.read_plain hk (by simp; decide) (by rw [hb]; simp), hb]
  have hp : ['[', '['].isPrefixOf ('[' :: (key.toList ++ ("]\n".toList ++ r))) = false := by
    rw [hw, List.cons_append, List.isPrefixOf, List.isPrefixOf,
      beq_false_of_ne (ne_of_class hkc (d := '[') (by decide)).symm]
    rfl
  have hs : statement ('[' :: (key.toList ++ ("]\n".toList ++ r))) =
      some (.header ⟨[], key⟩, '\n' :: r) := by
    have hstart : Recogniser.literal ['['] ('[' :: (key.toList ++ ("]\n".toList ++ r))) =
        some ((), key.toList ++ ("]\n".toList ++ r)) := rfl
    have hstop : Recogniser.literal [']'] (']' :: '\n' :: r) = some ((), '\n' :: r) := rfl
    have hh : headerKey ['['] [']'] ('[' :: (key.toList ++ ("]\n".toList ++ r))) =
        some (⟨[], key⟩, '\n' :: r) := by
      rw [headerKey, hstart]
      simp only [Option.bind_eq_bind, Option.bind_some, hkey, hstop]
    rw [statement, hp, hh]
    rfl
  have he := lineEnd?_eq_none (c := '[') (by decide) (by decide) (by decide) (by decide)
    (key.toList ++ ("]\n".toList ++ r))
  rw [line, he]
  simp only [skipBlanks_cons (c := '[') (by decide), hs]
  rfl

end Line

/-! ## Texts -/

/-- The text is read as these lines, whatever follows them. -/
def IsLines (s : List Char) (ls : List Line) : Prop :=
  ∀ r rs, lines r = some rs → lines (s ++ r) = some (ls ++ rs)

theorem isLines_nil : IsLines [] [] := fun _ _ h => h

theorem IsLines.append {s t : List Char} {ls ms : List Line} (hs : IsLines s ls)
    (ht : IsLines t ms) : IsLines (s ++ t) (ls ++ ms) := by
  intro r rs h
  rw [List.append_assoc, List.append_assoc]
  exact hs _ _ (ht _ _ h)

theorem IsLines.of_line {s : List Char} {l : Line} (hne : s ≠ [])
    (h : ∀ r, line (s ++ r) = some (l, r)) : IsLines s [l] := by
  intro r rs hr
  obtain ⟨c, s, rfl⟩ := List.exists_cons_of_ne_nil hne
  have hlt : r.length < (c :: s ++ r).length := by
    simp only [List.cons_append, List.length_cons, List.length_append]
    omega
  have he : (c :: s ++ r).isEmpty = false := rfl
  rw [lines, he, h r]
  simp only [Option.bind_eq_bind, Option.bind_some, hlt, if_true, hr, Bool.false_eq_true, if_false]
  rfl

theorem isLines_blank : IsLines ['\n'] [.blank] := .of_line (by decide) fun _ => rfl

theorem IsLines.lines_eq {s : List Char} {ls : List Line} (h : IsLines s ls) : lines s = some ls := by
  have hn : lines [] = some [] := by rw [lines]; rfl
  have := h [] [] hn
  rwa [List.append_nil, List.append_nil] at this

end JobAtlas.Toml
