import JobAtlas.Markup.Error
import JobAtlas.Text.Integer

/-!
# References

An attribute value may name a character by its number or by one of five words,
between `&` and `;`. `resolve` replaces the references of a value, as version 0.36
of the `quick-xml` library does: no other words are known, and a number has to be
that of a character.
-/

namespace JobAtlas.Markup

open Text (byteLength)

/-- The value of a digit in bases up to sixteen. -/
def digitValue? (base : Nat) (c : Char) : Option Nat :=
  let v? :=
    if '0' ≤ c ∧ c ≤ '9' then some (c.toNat - '0'.toNat)
    else if 'a' ≤ c ∧ c ≤ 'f' then some (c.toNat - 'a'.toNat + 10)
    else if 'A' ≤ c ∧ c ≤ 'F' then some (c.toNat - 'A'.toNat + 10)
    else none
  v?.filter (· < base)

/-- Read digits into a 32-bit number, from the value `n` of the digits before
them. The first fault from the left counts. -/
def readDigits (base : Nat) (n : Nat) : List Char → Except NumberFault Nat
  | [] => .ok n
  | c :: s =>
    match digitValue? base c with
    | none => .error .digit
    | some v => if base * n + v < Nat.pow 2 32 then readDigits base (base * n + v) s else .error .tooLarge

/-- An unsigned 32-bit number. -/
def readNumber (base : Nat) : List Char → Except NumberFault Nat
  | [] => .error .empty
  | c :: s => if c = '+' ∨ c = '-' then .error .sign else readDigits base 0 (c :: s)

/-- The character with the number written in decimal, or in hexadecimal after an `x`. -/
def readCharacter (s : List Char) : Except NumberFault Char := do
  let n ← match s with
    | 'x' :: s => readNumber 16 s
    | s => readNumber 10 s
  if n = 0 then .error .zero
  else if n.isValidChar then .ok (Char.ofNat n)
  else .error (.notScalar n)

/-- The characters that have names. -/
def named? (name : List Char) : Option Char :=
  if name = "lt".toList then some '<'
  else if name = "gt".toList then some '>'
  else if name = "amp".toList then some '&'
  else if name = "apos".toList then some '\''
  else if name = "quot".toList then some '"'
  else none

/-- Replace the references of a value, the first `offset` bytes of which are done. -/
def resolveFrom (offset : Nat) : List Char → Except ReferenceFault (List Char)
  | [] => .ok []
  | c :: s =>
    if c ≠ '&' then do
      return c :: (← resolveFrom (offset + c.utf8Size) s)
    else
      let name := s.takeWhile fun d => d ≠ '&' && d ≠ ';'
      let stop := offset + 1 + byteLength name
      match _h : s.dropWhile fun d => d ≠ '&' && d ≠ ';' with
      | ';' :: rest => do
        let d ← match name with
          | '#' :: digits => (readCharacter digits).mapError .number
          | name =>
            match named? name with
            | some d => .ok d
            | none => .error (.unknown (offset + 1) stop (String.ofList name))
        return d :: (← resolveFrom (stop + 1) rest)
      | _ => .error (.unterminated offset (offset + byteLength (c :: s)))
termination_by s => s.length
decreasing_by
  · simp
  · have h := (List.dropWhile_sublist (fun d => d ≠ '&' && d ≠ ';') (l := s)).length_le
    rw [_h] at h
    simp only [List.length_cons] at h ⊢
    omega

/-- Replace the references of a value. -/
def resolve (s : List Char) : Except ReferenceFault (List Char) := resolveFrom 0 s

end JobAtlas.Markup
