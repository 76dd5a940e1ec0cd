/-!
# Blanks

Blanks are the characters with the White_Space property of the Unicode
standard. A text is trimmed of them at its ends, and runs of them collapse to
one space.
-/

namespace JobAtlas.Text

/-- Whether a character is white space; zero-width characters are not. -/
def isBlank (c : Char) : Bool :=
  let n := c.toNat
  (9 ≤ n && n ≤ 13) || n == 0x20 || n == 0x85 || n == 0xA0 || n == 0x1680 ||
    (0x2000 ≤ n && n ≤ 0x200A) || n == 0x2028 || n == 0x2029 || n == 0x202F || n == 0x205F ||
    n == 0x3000

/-- Drop the characters satisfying `p` from both ends. -/
def strip (p : Char → Bool) (s : List Char) : List Char :=
  ((s.dropWhile p).reverse.dropWhile p).reverse

/-- Drop the blanks from both ends. -/
def trim (s : List Char) : List Char := strip isBlank s

/-- Whether the next character is a blank. -/
def startsBlank : List Char → Bool
  | [] => false
  | c :: _ => isBlank c

/-- Every run of blanks becomes one space, which stands where the run ends. -/
def collapse : List Char → List Char
  | [] => []
  | c :: s =>
    if isBlank c then (if startsBlank s then collapse s else ' ' :: collapse s)
    else c :: collapse s

/-- The number of words: runs of characters that are not blank, counted at
their last characters. -/
def wordCount : List Char → Nat
  | [] => 0
  | c :: s => (if !isBlank c && (s.isEmpty || startsBlank s) then 1 else 0) + wordCount s

theorem length_strip_le (p : Char → Bool) (s : List Char) : (strip p s).length ≤ s.length := by
  have h₁ := (List.dropWhile_sublist p (l := (s.dropWhile p).reverse)).length_le
  have h₂ := (List.dropWhile_sublist p (l := s)).length_le
  simp only [strip, List.length_reverse] at h₁ ⊢
  omega

theorem mem_of_mem_strip {p : Char → Bool} {c : Char} {s : List Char} (h : c ∈ strip p s) :
    c ∈ s := by
  rw [strip, List.mem_reverse] at h
  have h := (List.dropWhile_sublist p).subset h
  exact (List.dropWhile_sublist p).subset (List.mem_reverse.1 h)

/-- Collapsed blanks are spaces. -/
theorem eq_space_of_mem_collapse {c : Char} {s : List Char} (h : c ∈ collapse s)
    (hc : isBlank c = true) : c = ' ' := by
  induction s with
  | nil => cases h
  | cons d s ih =>
    rw [collapse] at h
    split at h
    · split at h
      · exact ih h
      · exact (List.mem_cons.1 h).elim id ih
    · next hd =>
      rcases List.mem_cons.1 h with rfl | h
      · exact absurd hc hd
      · exact ih h

theorem length_collapse_le (s : List Char) : (collapse s).length ≤ s.length := by
  induction s with
  | nil => simp [collapse]
  | cons c s ih =>
    simp only [collapse]
    split
    · split <;> simp <;> omega
    · simp; omega

end JobAtlas.Text
