import Mathlib.Data.Option.Basic
import JobAtlas.Data.Basic

/-!
# Reading what is written

`LawfulCoded α` says that the written form of every value of `α` is read as that
value. Scalars, options, lists and maps pass it on from their contents
(an option only if no content is written as null, `NeverNull`).

A record is written field by field and read by name. `Reads fs r a` says that the
reader `r` gives `a` for the fields `fs`. Readers of single fields leave the
fields as they are (`Steady`), so a reader of many fields reads each of them from
all (`reads_bind`), and what it finds under a name is a matter of the names alone
(`lookup_field`, `lookup_fieldIfSome`, `lookup_fieldIfAny`). With these lemmas a
reader runs by rewriting, and `Reads.read?` makes of its run what is read from the
record.
-/

namespace JobAtlas

/-- What is written is read as it was. -/
class LawfulCoded (α : Type u) [Coded α] : Prop where
  ofData?_toData : ∀ a : α, ofData? (toData a) = some a

/-- No value is written as null, which stands for a missing value. -/
class NeverNull (α : Type u) [Coded α] : Prop where
  toData_ne_null : ∀ a : α, toData a ≠ .null

attribute [simp] LawfulCoded.ofData?_toData

/-! ## Scalars -/

instance : LawfulCoded Bool := ⟨fun _ => rfl⟩
instance : LawfulCoded String := ⟨fun _ => rfl⟩
instance : LawfulCoded Nat := ⟨fun _ => rfl⟩

instance : LawfulCoded UInt32 where
  ofData?_toData n := by
    show (if n.toNat < 2 ^ 32 then some (UInt32.ofNat n.toNat) else none) = some n
    rw [if_pos n.toNat_lt, UInt32.ofNat_toNat]

instance : LawfulCoded UInt64 where
  ofData?_toData n := by
    show (if n.toNat < 2 ^ 64 then some (UInt64.ofNat n.toNat) else none) = some n
    rw [if_pos n.toNat_lt, UInt64.ofNat_toNat]

instance : LawfulCoded Int64 where
  ofData?_toData n := by
    show (if -(2 ^ 63) ≤ n.toInt ∧ n.toInt < 2 ^ 63 then some (Int64.ofInt n.toInt) else none) =
      some n
    rw [if_pos ⟨n.le_toInt, n.toInt_lt⟩, Int64.ofInt_toInt]

instance : NeverNull Bool := ⟨fun _ => nofun⟩
instance : NeverNull String := ⟨fun _ => nofun⟩
instance : NeverNull UInt32 := ⟨fun _ => nofun⟩
instance : NeverNull UInt64 := ⟨fun _ => nofun⟩

/-! ## Containers -/

section Containers

variable {α : Type u} [Coded α]

theorem ofData?_some (d : Data) (h : d ≠ .null) :
    (ofData? d : Option (Option α)) = (ofData? d).map some := by
  cases d with
  | null => exact absurd rfl h
  | _ => rfl

variable [LawfulCoded α]

instance [NeverNull α] : LawfulCoded (Option α) where
  ofData?_toData
    | none => rfl
    | some a => by
      show ofData? (toData a) = some (some a)
      rw [ofData?_some _ (NeverNull.toData_ne_null a), LawfulCoded.ofData?_toData, Option.map_some]

/-- Reading one after another what is written one after another. -/
theorem mapM_ofData?_toData (as : List α) : (as.map toData).mapM ofData? = some as := by
  induction as with
  | nil => rfl
  | cons a as ih => simp [ih]

instance : LawfulCoded (List α) := ⟨mapM_ofData?_toData⟩

theorem mapM_entry_toData (es : List (String × α)) :
    (es.map fun e => (e.1, toData e.2)).mapM
      (fun f => (ofData? f.2).map (f.1, ·)) = some es := by
  induction es with
  | nil => rfl
  | cons e es ih => simp [ih]

instance : LawfulCoded (SortedMap String α) where
  ofData?_toData m := by
    show ((m.entries.map fun e => (e.1, toData e.2)).mapM
      fun f => (ofData? f.2).map (f.1, ·)).map SortedMap.ofList = some m
    rw [mapM_entry_toData, Option.map_some, SortedMap.ofList_entries]

end Containers

/-! ## Records -/

namespace Data

variable {α β : Type} {fs : List (String × Data)} {name name' : String}

@[simp] theorem lookup_field [Coded α] (a : α) :
    (field name a).lookup name' = if name' = name then some (toData a) else none := by
  by_cases h : name' = name <;> simp [field, h]

@[simp] theorem lookup_fieldIfSome [Coded α] (a? : Option α) :
    (fieldIfSome name a?).lookup name' = if name' = name then a?.map toData else none := by
  cases a? with
  | none => simp [fieldIfSome]
  | some a => simp [fieldIfSome]

@[simp] theorem lookup_fieldIfAny [Coded (List α)] (as : List α) :
    (fieldIfAny name as).lookup name' =
      if name' = name then (if as = [] then none else some (toData as)) else none := by
  cases as with
  | nil => simp [fieldIfAny]
  | cons a as => simp [fieldIfAny]

/-- The reader gives `a` for these fields, and leaves them to the readers after it. -/
def Reads (fs : List (String × Data)) (r : Reader α) (a : α) : Prop :=
  r (.named fs) = some (a, .named fs)

/-- A record is read by reading its fields by name. -/
theorem Reads.read? {r : Reader α} {a : α} (h : Reads fs r a) : r.read? (.record fs) = some a := by
  rw [Reader.read?, fields?, Option.bind_eq_bind, Option.bind_some, h]
  rfl

/-- A tagged alternative is read by the reader that its tag selects. -/
theorem bind_tagged? {tag : String} {k : String × Data → Option α} {a : α}
    (ht : fs.lookup "type" = some (.text tag)) (hk : k (tag, .record fs) = some a) :
    (tagged? (.record fs)).bind k = some a := by
  rw [tagged?, ht]
  exact hk

/-- A reader that finds its fields by name, and so takes none away. -/
class Steady (r : Reader α) : Prop where
  rest_eq (fs : List (String × Data)) {a : α} {s : Fields} :
    r (.named fs) = some (a, s) → s = .named fs

theorem defaulted_named [Coded α] (a : α) : (defaulted name a : Reader α) (.named fs) =
    ((fs.lookup name).elim (some a) ofData?).map (·, .named fs) := by
  cases h : fs.lookup name with
  | none => simp [defaulted, h]
  | some d => cases hd : (ofData? d : Option α) <;> simp [defaulted, h, hd]

theorem required_named [Coded α] : (required name : Reader α) (.named fs) =
    ((fs.lookup name).bind ofData?).map (·, .named fs) := by
  cases h : fs.lookup name with
  | none => simp [required, h]
  | some d => cases hd : (ofData? d : Option α) <;> simp [required, h, hd]

instance [Coded α] (a : α) : Steady (defaulted name a : Reader α) where
  rest_eq fs b s h := by
    rw [defaulted_named, Option.map_eq_some_iff] at h
    obtain ⟨c, -, hc⟩ := h
    cases hc; rfl

instance [Coded α] : Steady (required name : Reader α) where
  rest_eq fs b s h := by
    rw [required_named, Option.map_eq_some_iff] at h
    obtain ⟨c, -, hc⟩ := h
    cases hc; rfl

instance [Coded (Option α)] : Steady (optional name : Reader (Option α)) where
  rest_eq fs _ _ h := Steady.rest_eq (r := defaulted name none) fs h

@[simp] theorem reads_pure {a b : α} : Reads fs (pure a) b ↔ a = b := by
  show some (a, Fields.named fs) = some (b, Fields.named fs) ↔ a = b
  simp

@[simp] theorem reads_bind {r : Reader α} [Steady r] {k : α → Reader β} {b : β} :
    Reads fs (r >>= k) b ↔ ∃ a, Reads fs r a ∧ Reads fs (k a) b := by
  show (r (.named fs)).bind (fun p => k p.1 p.2) = some (b, Fields.named fs) ↔ _
  rw [Option.bind_eq_some_iff]
  constructor
  · rintro ⟨⟨a, s⟩, hr, hk⟩
    obtain rfl := Steady.rest_eq fs hr
    exact ⟨a, hr, hk⟩
  · rintro ⟨a, hr, hk⟩
    exact ⟨(a, .named fs), hr, hk⟩

@[simp] theorem reads_map {r : Reader α} [Steady r] {f : α → β} {b : β} :
    Reads fs (f <$> r) b ↔ ∃ a, Reads fs r a ∧ f a = b := by
  rw [map_eq_pure_bind, reads_bind]
  simp only [reads_pure]

@[simp] theorem reads_required [Coded α] {a : α} :
    Reads fs (required name) a ↔ (fs.lookup name).bind ofData? = some a := by
  rw [Reads, required_named, Option.map_eq_some_iff]
  simp

@[simp] theorem reads_defaulted [Coded α] {a b : α} :
    Reads fs (defaulted name b) a ↔ (fs.lookup name).elim (some b) ofData? = some a := by
  rw [Reads, defaulted_named, Option.map_eq_some_iff]
  simp

@[simp] theorem reads_optional [Coded (Option α)] {a : Option α} :
    Reads fs (optional name) a ↔ (fs.lookup name).elim (some none) ofData? = some a :=
  reads_defaulted

/-- A value that is left out when it is missing is read as missing. -/
@[simp] theorem elim_ofData?_toData [Coded α] [LawfulCoded α] [NeverNull α] (a? : Option α) :
    a?.elim (some none) ((ofData? : Data → Option (Option α)) ∘ toData) = some a? := by
  cases a? with
  | none => rfl
  | some a => exact LawfulCoded.ofData?_toData (some a)

@[simp] theorem elim_ite_toData [Coded (List α)] [LawfulCoded (List α)] (as : List α) :
    (if as = [] then none else some (toData as)).elim (some []) ofData? = some as := by
  by_cases h : as = [] <;> simp [h]

end Data

end JobAtlas
