/-!
# Numbers

Integers are written with ASCII digits only and may have a sign in front; a
number that does not fit the wanted width is refused like any other text.
-/

namespace JobAtlas.Counting

/-- Counts are added up from the numeral, also where the zero of an algebraic structure
is at hand. -/
scoped instance (priority := 2000) zero : Zero Nat := Zero.ofOfNat0

end JobAtlas.Counting

namespace JobAtlas.Text

open scoped Counting

/-- The value of a non-empty row of ASCII digits. -/
def digits? : List Char → Option Nat
  | [] => none
  | s =>
    if s.all Char.isDigit then some (s.foldl (fun n c => 10 * n + (c.toNat - 48)) 0) else none

/-- A natural number below `bound`, with an optional plus sign. -/
def natural? (bound : Nat) (s : List Char) : Option Nat := do
  let n ← digits? (match s with | '+' :: r => r | r => r)
  if n < bound then some n else none

/-- An integer from `-bound` up to, but not including, `bound`. -/
def integer? (bound : Nat) : List Char → Option Int
  | '-' :: s => do
    let n ← digits? s
    if n ≤ bound then some (-(n : Int)) else none
  | s => (natural? bound s).map Int.ofNat

/-- A 32-bit count. -/
def word32? (s : List Char) : Option UInt32 := (natural? (Nat.pow 2 32) s).map UInt32.ofNat

/-- A 64-bit count. -/
def word64? (s : List Char) : Option UInt64 := (natural? (Nat.pow 2 64) s).map UInt64.ofNat

/-- A signed 64-bit number. -/
def signed64? (s : List Char) : Option Int64 := (integer? (Nat.pow 2 63) s).map Int64.ofInt

/-- The number of bytes of a text in UTF-8. -/
def byteLength (s : List Char) : Nat := (s.map Char.utf8Size).sum

end JobAtlas.Text
