import JobAtlas.Toml.Line

/-!
# Quoted texts

A text is quoted in one of four forms: basic or literal, on one line or on
several. Basic forms have escapes, literal ones have none. `quoted` reads any of
them, and `quote` writes the first of the four forms that needs no escape
other than that of a tab, or else a basic form. This is how the pretty printer of
version 0.8 of the `toml` library chooses a form, and escapes what is in it.
-/

namespace JobAtlas.Toml

open Text (Recogniser)

/-! ## Reading -/

/-- The value of a hexadecimal digit. -/
def hexValue? (c : Char) : Option Nat :=
  if c.isDigit then some (c.toNat - 48)
  else if 'a' ≤ c ∧ c ≤ 'f' then some (c.toNat - 87)
  else if 'A' ≤ c ∧ c ≤ 'F' then some (c.toNat - 55)
  else none

/-- A number of digits in a base. -/
def digitsValue (base : Nat) (ds : List Nat) : Nat := ds.foldl (fun n d => base * n + d) 0

/-- The character with a code of `n` hexadecimal digits. -/
def codedChar (n : Nat) : Recogniser Char := fun s => do
  let ds ← (s.take n).mapM hexValue?
  let code := digitsValue 16 ds
  if ds.length = n ∧ code.isValidChar then some (Char.ofNat code, s.drop n) else none

/-- What follows a backslash. -/
def escape : Recogniser Char
  | 'b' :: s => some ('\x08', s)
  | 't' :: s => some ('\t', s)
  | 'n' :: s => some ('\n', s)
  | 'f' :: s => some ('\x0c', s)
  | 'r' :: s => some ('\r', s)
  | '"' :: s => some ('"', s)
  | '\\' :: s => some ('\\', s)
  | 'u' :: s => codedChar 4 s
  | 'U' :: s => codedChar 8 s
  | _ => none

theorem codedChar_length {n : Nat} {s r : List Char} {c : Char}
    (h : codedChar n s = some (c, r)) : r.length ≤ s.length := by
  simp only [codedChar, Option.bind_eq_bind, Option.bind_eq_some_iff] at h
  obtain ⟨ds, -, h⟩ := h
  split at h
  · cases h
    rw [List.length_drop]
    omega
  · simp at h

theorem escape_length {s r : List Char} {c : Char} (h : escape s = some (c, r)) :
    r.length < s.length := by
  unfold escape at h
  split at h
  case h_8 => exact Nat.lt_succ_of_le (codedChar_length h)
  case h_9 => exact Nat.lt_succ_of_le (codedChar_length h)
  case h_10 => simp at h
  all_goals cases h; exact Nat.lt_succ_self _

/-- The rest of a basic text on one line, after its first quote. -/
def basicBody (s : List Char) : Option (List Char × List Char) :=
  match s with
  | [] => none
  | '"' :: r => some ([], r)
  | '\\' :: r =>
    match _h : escape r with
    | none => none
    | some (c, r') => (basicBody r').map fun p => (c :: p.1, p.2)
  | c :: r => if isPlain c then (basicBody r).map fun p => (c :: p.1, p.2) else none
termination_by s.length
decreasing_by
  · have := escape_length _h
    simp only [List.length_cons]
    omega
  · exact Nat.lt_succ_self _

/-- The rest of a literal text on one line, after its first quote. -/
def literalBody : List Char → Option (List Char × List Char)
  | [] => none
  | '\'' :: r => some ([], r)
  | c :: r => if isPlain c then (literalBody r).map fun p => (c :: p.1, p.2) else none

/-- The end of a text on several lines, after three quotes: up to two quotes
before these belong to the text. -/
def closing (quote : Char) : List Char → List Char × List Char
  | c :: d :: r =>
    if c = quote ∧ d = quote then ([quote, quote], r)
    else if c = quote then ([quote], d :: r)
    else ([], c :: d :: r)
  | [c] => if c = quote then ([quote], []) else ([], [c])
  | [] => ([], [])

/-- Skip blanks and line feeds. -/
def skipLines : List Char → List Char
  | '\n' :: s => skipLines s
  | '\r' :: '\n' :: s => skipLines s
  | c :: s => if isBlank c then skipLines s else c :: s
  | [] => []

/-- What follows a backslash at the end of a line, up to the next character
that is neither blank nor a line feed. -/
def continuation? (s : List Char) : Option (List Char) := (newline? (skipBlanks s)).map skipLines

theorem length_skipLines_le (s : List Char) : (skipLines s).length ≤ s.length := by
  fun_induction skipLines s with
  | case1 s ih => exact Nat.le_succ_of_le ih
  | case2 s ih => simp only [List.length_cons]; omega
  | case3 c s _ _ _ ih => exact Nat.le_succ_of_le ih
  | case4 => exact Nat.le_refl _
  | case5 => exact Nat.le_refl _

theorem continuation_length {s r : List Char} (h : continuation? s = some r) :
    r.length < s.length := by
  obtain ⟨t, ht, rfl⟩ := Option.map_eq_some_iff.1 h
  have h₁ := length_skipLines_le t
  have h₂ : (skipBlanks s).length ≤ s.length := (List.dropWhile_sublist _).length_le
  have h₃ : t.length < (skipBlanks s).length := by
    unfold newline? at ht
    split at ht
    · next e => cases ht; rw [e]; exact Nat.lt_succ_self _
    · next e => cases ht; rw [e]; simp only [List.length_cons]; omega
    · simp at ht
  omega

/-- The rest of a basic text on several lines. -/
def basicLines (s : List Char) : Option (List Char × List Char) :=
  match s with
  | [] => none
  | '"' :: '"' :: '"' :: r => some (closing '"' r)
  | '\r' :: '\n' :: r => (basicLines r).map fun p => ('\n' :: p.1, p.2)
  | '\\' :: r =>
    match _h : continuation? r with
    | some r' => basicLines r'
    | none =>
      match _h' : escape r with
      | none => none
      | some (c, r') => (basicLines r').map fun p => (c :: p.1, p.2)
  | c :: r =>
    if isPlain c ∨ c = '\n' then (basicLines r).map fun p => (c :: p.1, p.2) else none
termination_by s.length
decreasing_by
  · simp only [List.length_cons]; omega
  · have := continuation_length _h
    simp only [List.length_cons]
    omega
  · have := escape_length _h'
    simp only [List.length_cons]
    omega
  · exact Nat.lt_succ_self _

/-- The rest of a literal text on several lines. -/
def literalLines : List Char → Option (List Char × List Char)
  | [] => none
  | '\'' :: '\'' :: '\'' :: r => some (closing '\'' r)
  | '\r' :: '\n' :: r => (literalLines r).map fun p => ('\n' :: p.1, p.2)
  | c :: r =>
    if isPlain c ∨ c = '\n' then (literalLines r).map fun p => (c :: p.1, p.2) else none

/-- A line feed right after the opening quotes does not belong to the text. -/
def dropNewline (s : List Char) : List Char := (newline? s).getD s

/-- A quoted text on one line. -/
def quotedLine : Recogniser (List Char)
  | '"' :: s => basicBody s
  | '\'' :: s => literalBody s
  | _ => none

/-- A quoted text in any form. -/
def quoted : Recogniser (List Char)
  | '"' :: '"' :: '"' :: s => basicLines (dropNewline s)
  | '\'' :: '\'' :: '\'' :: s => literalLines (dropNewline s)
  | s => quotedLine s

/-! ## Writing -/

/-- The forms of quoted texts. -/
inductive Quoting where
  | basic
  | literal
  | basicLines
  | literalLines
deriving DecidableEq, Repr

/-- A control character that no form can hold as it is, or only by an escape. -/
def isControl (c : Char) : Bool := !isPlain c && c != '\n'

/-- Whether three of a character stand in a row. -/
def hasThree (q : Char) (s : List Char) : Bool := Text.occurs [q, q, q] s

/-- Whether a form holds a text without escapes other than those of tabs. -/
def Quoting.fits (s : List Char) : Quoting → Bool
  | basic => !(s.any isControl || s.contains '\\' || s.contains '"' || s.contains '\n')
  | literal => !(s.any isControl || s.contains '\'' || s.contains '\n')
  | basicLines => !(s.any isControl || s.contains '\\' || hasThree '"' s)
  | literalLines => !(s.any isControl || hasThree '\'' s)

/-- The form in which a text is written. -/
def Quoting.of (s : List Char) : Quoting :=
  ([basic, literal, basicLines, literalLines].find? (fits s)).getD
    (if s.contains '\n' then basicLines else basic)

/-- An upper-case hexadecimal digit. -/
def hexDigit (n : Nat) : Char := Char.ofNat (if n < 10 then 48 + n else 55 + n)

/-- A character in a basic form, quotes and line feeds apart. -/
def escaped (c : Char) : List Char :=
  match c with
  | '\x08' => ['\\', 'b']
  | '\t' => ['\\', 't']
  | '\x0c' => ['\\', 'f']
  | '\r' => ['\\', 'r']
  | '\\' => ['\\', '\\']
  | c =>
    if isPlain c then [c]
    else ['\\', 'u', '0', '0', hexDigit (c.toNat / 16), hexDigit (c.toNat % 16)]

/-- A character in a basic text on one line. -/
def escapedInLine (c : Char) : List Char :=
  if c = '"' then ['\\', '"'] else if c = '\n' then ['\\', 'n'] else escaped c

/-- The characters of a basic text on several lines, after `quotes` quotes. The
third of three quotes in a row is escaped, and the count starts anew. -/
def escapedLines (quotes : Nat) : List Char → List Char
  | [] => []
  | c :: s =>
    if c = '"' then
      if quotes < 2 then '"' :: escapedLines (quotes + 1) s
      else '\\' :: '"' :: escapedLines 0 s
    else if c = '\n' then '\n' :: escapedLines 0 s
    else escaped c ++ escapedLines 0 s

/-- Three quotes, and a line feed if the text has one. -/
def opening (q : Char) (s : List Char) : List Char :=
  [q, q, q] ++ if s.contains '\n' then ['\n'] else []

/-- A text in a given form. -/
def Quoting.write (s : List Char) : Quoting → List Char
  | basic => '"' :: s.flatMap escapedInLine ++ ['"']
  | literal => '\'' :: s ++ ['\'']
  | basicLines => opening '"' s ++ escapedLines 0 s ++ ['"', '"', '"']
  | literalLines => opening '\'' s ++ s ++ ['\'', '\'', '\'']

/-- A text in quotes. -/
def quote (s : List Char) : List Char := (Quoting.of s).write s

end JobAtlas.Toml
