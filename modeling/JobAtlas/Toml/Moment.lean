import JobAtlas.Text.Search

/-!
# Moments

Dates, times of day, and both together with or without an offset, as version 0.8
of the `toml` library takes them: a day has to be one of its month, and a second may
be the sixtieth. Only their form and the ranges of their parts matter here, since no
setting is a moment.
-/

namespace JobAtlas.Toml

open Text (Recogniser)

/-- Exactly `n` digits, as a number from `low` to `high`. -/
def digitsWithin (n low high : Nat) : Recogniser Nat := fun s =>
  let ds := s.take n
  let value := ds.foldl (fun k c => 10 * k + (c.toNat - 48)) 0
  if ds.length = n ∧ ds.all Char.isDigit ∧ low ≤ value ∧ value ≤ high then
    some (value, s.drop n)
  else none

def isLeapYear (year : Nat) : Bool := year % 4 == 0 && (year % 100 != 0 || year % 400 == 0)

def daysIn (year month : Nat) : Nat :=
  if month = 2 then (if isLeapYear year then 29 else 28)
  else if month ∈ [4, 6, 9, 11] then 30
  else 31

/-- A date, such as `1979-05-27`. -/
def date : Recogniser Unit := fun s => do
  let (year, s) ← digitsWithin 4 0 9999 s
  let ((), s) ← Recogniser.literal ['-'] s
  let (month, s) ← digitsWithin 2 1 12 s
  let ((), s) ← Recogniser.literal ['-'] s
  let (_, s) ← digitsWithin 2 1 (daysIn year month) s
  some ((), s)

/-- Digits behind a point. -/
def fraction : Recogniser Unit := fun s => do
  let ((), s) ← Recogniser.literal ['.'] s
  let (_, s) ← Recogniser.run Char.isDigit s
  some ((), s)

/-- A match, if there is one. -/
def perhaps (m : Recogniser Unit) : Recogniser Unit := fun s => some ((m s).getD ((), s))

/-- A time of day, such as `07:32:00.5`. A minute may have a leap second. -/
def time : Recogniser Unit := fun s => do
  let (_, s) ← digitsWithin 2 0 23 s
  let ((), s) ← Recogniser.literal [':'] s
  let (_, s) ← digitsWithin 2 0 59 s
  let ((), s) ← Recogniser.literal [':'] s
  let (_, s) ← digitsWithin 2 0 60 s
  perhaps fraction s

/-- An offset from universal time. -/
def offset : Recogniser Unit
  | 'Z' :: s => some ((), s)
  | 'z' :: s => some ((), s)
  | c :: s => do
    if c ≠ '+' ∧ c ≠ '-' then none
    let (_, s) ← digitsWithin 2 0 23 s
    let ((), s) ← Recogniser.literal [':'] s
    let (_, s) ← digitsWithin 2 0 59 s
    some ((), s)
  | [] => none

/-- What may follow a date: a time of day, perhaps with an offset. -/
def timeOfDate : Recogniser Unit
  | c :: s => do
    if c ≠ 'T' ∧ c ≠ 't' ∧ c ≠ ' ' then none
    let ((), s) ← time s
    perhaps offset s
  | [] => none

/-- A date, perhaps with a time, or a time alone. -/
def moment : Recogniser Unit := fun s =>
  match date s with
  | some ((), s) => perhaps timeOfDate s
  | none => time s

end JobAtlas.Toml
