import JobAtlas.Toml.Quoted

/-!
# Numbers

Integers and floating numbers as version 0.8 of the `toml` library takes them.
Single underscores may stand between digits, a decimal number has no leading zeros,
and an integer fits 64 bits with a sign. A floating number is read for its form
only, since no setting is one; the library refuses those above all finite numbers of
64 bits, but not those below.
-/

namespace JobAtlas.Toml

/-- Digits with single underscores between them, as values below `base`. -/
def digits? (base : Nat) : List Char → Option (List Nat)
  | [] => none
  | [c] => do
    let d ← (hexValue? c).filter (· < base)
    some [d]
  | c :: '_' :: s => do
    let d ← (hexValue? c).filter (· < base)
    some (d :: (← digits? base s))
  | c :: s => do
    let d ← (hexValue? c).filter (· < base)
    some (d :: (← digits? base s))

/-- A decimal number without leading zeros. -/
def decimal? (s : List Char) : Option Nat := do
  let ds ← digits? 10 s
  if ds.length ≠ 1 ∧ ds.head? = some 0 then none else some (digitsValue 10 ds)

/-- A number without its sign, and whether the sign is a minus. -/
def unsigned : List Char → Bool × List Char
  | '+' :: s => (false, s)
  | '-' :: s => (true, s)
  | s => (false, s)

/-- A number in a base, below `2 ^ 63`. -/
def inBase? (base : Nat) (s : List Char) : Option Int := do
  let n := digitsValue base (← digits? base s)
  if n < Nat.pow 2 63 then some n else none

/-- An integer: hexadecimal, octal or binary without a sign, or decimal. -/
def integer? : List Char → Option Int
  | '0' :: 'x' :: s => inBase? 16 s
  | '0' :: 'o' :: s => inBase? 8 s
  | '0' :: 'b' :: s => inBase? 2 s
  | s => do
    let (isNegative, ds) := unsigned s
    let n ← decimal? ds
    if isNegative then (if n ≤ Nat.pow 2 63 then some (-n) else none)
    else if n < Nat.pow 2 63 then some n else none

/-! ## Floating numbers -/

def isDigitOrLine (c : Char) : Bool := c.isDigit || c == '_'

/-- An exponent, or nothing. -/
def exponent? : List Char → Option Int
  | [] => some 0
  | c :: s => do
    if c ≠ 'e' ∧ c ≠ 'E' then none
    let (isNegative, ds) := unsigned s
    let n := digitsValue 10 (← digits? 10 ds)
    some (if isNegative then -n else n)

/-- Decimal digits with a point or an exponent among them: the number is the
first component times ten to the power of the second. -/
def scientific? (s : List Char) : Option (Nat × Int) := do
  let whole := s.takeWhile isDigitOrLine
  let n ← decimal? whole
  match s.dropWhile isDigitOrLine with
  | [] => none
  | '.' :: rest =>
    let ds ← digits? 10 (rest.takeWhile isDigitOrLine)
    let e ← exponent? (rest.dropWhile isDigitOrLine)
    some (n * Nat.pow 10 ds.length + digitsValue 10 ds, e - ds.length)
  | rest => some (n, ← exponent? rest)

/-- The least number that a floating number of 64 bits rounds to infinity. -/
def overflowLimit : Nat := Nat.pow 2 1024 - Nat.pow 2 970

/-- Whether `m * 10 ^ e` is beyond all finite floating numbers. Numbers with
many digits or few are told by their number of digits. -/
def overflows (m : Nat) (e : Int) : Bool :=
  let digits : Int := (toString m).length + e
  if m = 0 ∨ digits < 300 then false
  else if 320 < digits then true
  else if 0 ≤ e then overflowLimit ≤ m * Nat.pow 10 e.toNat
  else overflowLimit * Nat.pow 10 (-e).toNat ≤ m

/-- Whether a text is a floating number. A positive one must not overflow. -/
def isFloat (s : List Char) : Bool :=
  let (isNegative, w) := unsigned s
  w = ['i', 'n', 'f'] || w = ['n', 'a', 'n'] ||
    match scientific? w with
    | some (m, e) => isNegative || !overflows m e
    | none => false

end JobAtlas.Toml
