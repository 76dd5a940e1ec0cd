/-!
# Texts as bytes

`utf8` gives the bytes of a text. Bytes from outside need not be those of a text:
`ofUtf8?` reads those that are, and `lossy` reads any. Where a character begins and
does not go on, it puts one replacement character for the bytes up to there, and one
for each byte that begins no character. Of the bytes of a text it reads the text
(`lossy_utf8`).
-/

namespace JobAtlas.Text

/-- The bytes of a text in UTF-8. -/
def utf8 (s : String) : List UInt8 := s.toUTF8.data.toList

theorem utf8_eq_flatMap (s : String) : utf8 s = s.toList.flatMap String.utf8EncodeChar := by
  rw [utf8, String.toUTF8_eq_toByteArray, ← String.utf8Encode_toList, List.utf8Encode,
    List.toList_data_toByteArray]

/-- The text that has these bytes, if there is one. -/
def ofUtf8? (bytes : List UInt8) : Option String := String.fromUTF8? ⟨bytes.toArray⟩

theorem ofUtf8?_eq_some_iff {bytes : List UInt8} {s : String} :
    ofUtf8? bytes = some s ↔ bytes = utf8 s := by
  rw [ofUtf8?, String.fromUTF8?, utf8, String.toUTF8_eq_toByteArray]
  constructor
  · intro h
    split at h
    · cases h; rfl
    · cases h
  · rintro rfl
    have hs : (⟨s.toByteArray.data.toList.toArray⟩ : ByteArray) = s.toByteArray := rfl
    rw [hs, dif_pos s.isValidUTF8]
    rfl

/-! ## Bytes that need not be a text -/

/-- A character that has begun. -/
structure Begun where
  /-- The value of the bytes so far. -/
  value : Nat
  /-- How many bytes are to come behind the next one. -/
  more : Nat
  /-- The range of the next byte. -/
  least : Nat := 0x80
  greatest : Nat := 0xBF

/-- What stands for bytes that are no character. -/
def replacement : Char := Char.ofNat 0xFFFD

/-- What there is to read of a first byte, and the character that begins with it. Only
with the ranges of the second byte is each character written in one way, and no
value written that is no character. -/
def firstByte (b : Nat) : List Char × Option Begun :=
  if b < 0x80 then ([Char.ofNat b], none)
  else if b < 0xC2 then ([replacement], none)
  else if b < 0xE0 then ([], some { value := b % 32, more := 0 })
  else if b < 0xF0 then
    ([], some { value := b % 16, more := 1
                least := if b = 0xE0 then 0xA0 else 0x80
                greatest := if b = 0xED then 0x9F else 0xBF })
  else if b < 0xF5 then
    ([], some { value := b % 8, more := 2
                least := if b = 0xF0 then 0x90 else 0x80
                greatest := if b = 0xF4 then 0x8F else 0xBF })
  else ([replacement], none)

/-- What there is to read of a byte behind what has begun, and what has begun then. -/
def nextByte : Option Begun → Nat → List Char × Option Begun
  | none, b => firstByte b
  | some c, b =>
    if c.least ≤ b ∧ b ≤ c.greatest then
      match c.more with
      | 0 => ([Char.ofNat (c.value * 64 + b % 64)], none)
      | more + 1 => ([], some { value := c.value * 64 + b % 64, more })
    else (replacement :: (firstByte b).1, (firstByte b).2)

/-- The characters that are read of bytes behind what has begun. -/
def lossyFrom : Option Begun → List UInt8 → List Char
  | none, [] => []
  | some _, [] => [replacement]
  | c?, b :: bytes => (nextByte c? b.toNat).1 ++ lossyFrom (nextByte c? b.toNat).2 bytes

/-- The text that is read of any bytes. -/
def lossy (bytes : List UInt8) : String := String.ofList (lossyFrom none bytes)

theorem lossyFrom_cons (c? : Option Begun) {b : Nat} (hb : b < 256) (bytes : List UInt8) :
    lossyFrom c? (UInt8.ofNat b :: bytes) =
      (nextByte c? b).1 ++ lossyFrom (nextByte c? b).2 bytes := by
  rw [lossyFrom, UInt8.toNat_ofNat', Nat.mod_eq_of_lt hb]

/-- A byte in the range of the next one, with others to come. -/
theorem nextByte_of_more {c : Begun} {more b : Nat} (hm : c.more = more + 1) (hl : c.least ≤ b)
    (hg : b ≤ c.greatest) :
    nextByte (some c) b = ([], some { value := c.value * 64 + b % 64, more }) := by
  rw [nextByte, if_pos ⟨hl, hg⟩, hm]

/-- A last byte in the range of the next one. -/
theorem nextByte_of_last {c : Begun} {b : Nat} (hm : c.more = 0) (hl : c.least ≤ b)
    (hg : b ≤ c.greatest) :
    nextByte (some c) b = ([Char.ofNat (c.value * 64 + b % 64)], none) := by
  rw [nextByte, if_pos ⟨hl, hg⟩, hm]

/-- A character is read of its bytes. -/
theorem lossyFrom_utf8EncodeChar_append (c : Char) (bytes : List UInt8) :
    lossyFrom none (String.utf8EncodeChar c ++ bytes) = c :: lossyFrom none bytes := by
  have hvalid : c.val.toNat < 0xD800 ∨ 0xDFFF < c.val.toNat ∧ c.val.toNat < 0x110000 := c.valid
  have hc : Char.ofNat c.val.toNat = c := Char.ofNat_toNat c
  rw [String.utf8EncodeChar]
  generalize c.val.toNat = v at *
  subst hc
  -- one case for each number of bytes, which the first of them tells
  split
  · rw [List.singleton_append, lossyFrom_cons none (by omega), nextByte, firstByte,
      if_pos (by omega)]
    rfl
  split
  · have hv : (v / 64 % 32 + 192) % 32 * 64 + (v % 64 + 128) % 64 = v := by omega
    simp only [List.cons_append, List.nil_append]
    rw [lossyFrom_cons none (by omega), nextByte, firstByte, if_neg (by omega),
      if_neg (by omega), if_pos (by omega), lossyFrom_cons _ (by omega),
      nextByte_of_last rfl (by show 0x80 ≤ _; omega) (by show _ ≤ 0xBF; omega), hv]
    rfl
  split
  · have hv : ((v / 4096 % 16 + 224) % 16 * 64 + (v / 64 % 64 + 128) % 64) * 64 +
        (v % 64 + 128) % 64 = v := by omega
    simp only [List.cons_append, List.nil_append]
    rw [lossyFrom_cons none (by omega), nextByte, firstByte, if_neg (by omega),
      if_neg (by omega), if_neg (by omega), if_pos (by omega), lossyFrom_cons _ (by omega),
      nextByte_of_more rfl (by dsimp only; split <;> omega) (by dsimp only; split <;> omega),
      lossyFrom_cons _ (by omega),
      nextByte_of_last rfl (by show 0x80 ≤ _; omega) (by show _ ≤ 0xBF; omega), hv]
    rfl
  · have hv : (((v / 262144 % 8 + 240) % 8 * 64 + (v / 4096 % 64 + 128) % 64) * 64 +
        (v / 64 % 64 + 128) % 64) * 64 + (v % 64 + 128) % 64 = v := by omega
    simp only [List.cons_append, List.nil_append]
    rw [lossyFrom_cons none (by omega), nextByte, firstByte, if_neg (by omega),
      if_neg (by omega), if_neg (by omega), if_neg (by omega), if_pos (by omega),
      lossyFrom_cons _ (by omega),
      nextByte_of_more rfl (by dsimp only; split <;> omega) (by dsimp only; split <;> omega),
      lossyFrom_cons _ (by omega),
      nextByte_of_more rfl (by show 0x80 ≤ _; omega) (by show _ ≤ 0xBF; omega),
      lossyFrom_cons _ (by omega),
      nextByte_of_last rfl (by show 0x80 ≤ _; omega) (by show _ ≤ 0xBF; omega), hv]
    rfl

theorem lossy_utf8 (s : String) : lossy (utf8 s) = s := by
  have hread : ∀ cs : List Char, lossyFrom none (cs.flatMap String.utf8EncodeChar) = cs := by
    intro cs
    induction cs with
    | nil => rfl
    | cons c cs ih => rw [List.flatMap_cons, lossyFrom_utf8EncodeChar_append, ih]
  rw [lossy, utf8_eq_flatMap, hread, String.ofList_toList]

/-- A character that is cut off, bytes that begin none, and one that has two ways to be written. -/
example : lossy [0x61, 0xE2, 0x82, 0x2F, 0xFF, 0xC0, 0xAF, 0xE2, 0x82, 0xAC] = "a�/���€" := by
  decide +kernel

end JobAtlas.Text
