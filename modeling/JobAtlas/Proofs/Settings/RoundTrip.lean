import JobAtlas.Proofs.Data.Lawful
import JobAtlas.Proofs.Data.Lookup
import JobAtlas.Proofs.Settings.Writing
import JobAtlas.Settings.Workspace

/-!
# Settings and their texts

Settings are written unless a number is too large (`isSome_writeSections?`), and what
is written gives them back. More generally a text may give some of the settings: whatever
its form, the settings that are read have the given values there and the defaults
elsewhere (`ofFields?_of_sets`). A text with any of the sections, each with any of its
fields, in any order, is such a text (`Selects.sets`).
-/

namespace JobAtlas.Settings

open Toml (IsPlainKey)

/-! ## Some of the settings -/

/-- The numbers of settings. -/
def numbers (s : Settings) : List Nat :=
  [s.thresholds.queryLength, s.thresholds.tableAccesses, s.thresholds.expressionLength,
    s.thresholds.jobs, s.thresholds.tables, s.validation.rowCounts, s.validation.schemaProbes,
    s.validation.nullChecks]

/-- The value of a field of a section. -/
def value? (s : Settings) (name field : String) : Option Entry :=
  ((sections s).lookup name).bind (·.lookup field)

/-- The settings `s` where a section's field is set, and defaults elsewhere. -/
def restricted (s : Settings) (isSet : String → String → Bool) : Settings :=
  let d : Settings := {}
  { discovery := {
      extensions :=
        if isSet "discovery" "extensions" then s.discovery.extensions else d.discovery.extensions }
    thresholds := {
      queryLength :=
        if isSet "thresholds" "large_query_chars" then s.thresholds.queryLength
        else d.thresholds.queryLength
      tableAccesses :=
        if isSet "thresholds" "table_access_count" then s.thresholds.tableAccesses
        else d.thresholds.tableAccesses
      expressionLength :=
        if isSet "thresholds" "complex_expression_chars" then s.thresholds.expressionLength
        else d.thresholds.expressionLength
      jobs :=
        if isSet "thresholds" "phased_migration_jobs" then s.thresholds.jobs else d.thresholds.jobs
      tables :=
        if isSet "thresholds" "documentation_tables" then s.thresholds.tables
        else d.thresholds.tables }
    validation := {
      rowCounts :=
        if isSet "validation" "row_count_tables" then s.validation.rowCounts
        else d.validation.rowCounts
      schemaProbes :=
        if isSet "validation" "schema_probe_queries" then s.validation.schemaProbes
        else d.validation.schemaProbes
      nullChecks :=
        if isSet "validation" "null_check_columns" then s.validation.nullChecks
        else d.validation.nullChecks }
    output := {
      isStamped :=
        if isSet "output" "stamp_generated_at" then s.output.isStamped else d.output.isStamped
      version := if isSet "output" "version" then s.output.version else d.output.version
      sourcePlatform :=
        if isSet "output" "source_platform" then s.output.sourcePlatform
        else d.output.sourcePlatform
      targetPlatform :=
        if isSet "output" "target_platform" then s.output.targetPlatform
        else d.output.targetPlatform } }

/-- The fields of a document give the settings that `isSet` tells, and no others. -/
def Sets (s : Settings) (isSet : String → String → Bool) (fields : List (String × Data)) : Prop :=
  ∀ part ∈ sections s,
    fields.lookup part.1 = none ∧ (∀ f ∈ part.2, isSet part.1 f.1 = false) ∨
    ∃ fs, fields.lookup part.1 = some (.record fs) ∧
      ∀ f ∈ part.2, fs.lookup f.1 = if isSet part.1 f.1 then some f.2.data else none

section Read

open Data (Reads)

variable {α : Type}

@[simp] theorem Entry.data_text (t : String) : (Entry.text t).data = toData t := rfl
@[simp] theorem Entry.data_texts (ts : List String) : (Entry.texts ts).data = toData ts := rfl
@[simp] theorem Entry.data_number (n : Nat) : (Entry.number n).data = toData n := rfl
@[simp] theorem Entry.data_flag (b : Bool) : (Entry.flag b).data = toData b := rfl

/-- A field is read as the value that it gives, or as the default. -/
@[simp] theorem elim_ofData?_ite [Coded α] [LawfulCoded α] (b : Bool) (a default : α) :
    (if b then some (toData a) else none).elim (some default) ofData? =
      some (if b then a else default) := by
  cases b
  · rfl
  · exact LawfulCoded.ofData?_toData a

variable {s : Settings} {isSet : String → String → Bool} {fields : List (String × Data)}
  (h : s.Sets isSet fields)
include h

/-- A section is read as what the reader gives for the values that are set. A section that
is missing is read as one without fields. -/
theorem sectionOf_of_sets {reader : Data.Reader α} {name : String} {default a : α}
    {entries : List (String × Entry)} (hm : (name, entries) ∈ sections s)
    (hdefault : Reads [] reader default)
    (hr : ∀ fs : List (String × Data),
      (∀ f ∈ entries, fs.lookup f.1 = if isSet name f.1 then some f.2.data else none) →
        Reads fs reader a) :
    sectionOf reader name default fields = some a := by
  obtain ⟨hl, hf⟩ | ⟨fs, hl, hf⟩ := h _ hm
  · have ha : Reads [] reader a := hr [] fun f hm => by rw [hf f hm]; rfl
    have he : some (default, Data.Fields.named []) = some (a, Data.Fields.named []) :=
      hdefault.symm.trans ha
    rw [sectionOf, hl, (Prod.mk.inj (Option.some.inj he)).1]
  · have ha : reader (.named fs) = some (a, .named fs) := hr fs hf
    rw [sectionOf, hl]
    simp only [Data.Reader.readLoosely?, Data.fields?, Option.bind_eq_bind, Option.bind_some, ha]

/-- The settings that are read have the values that are set, and defaults elsewhere. -/
theorem ofFields?_of_sets : ofFields? fields = some (s.restricted isSet) := by
  have hdiscovery : sectionOf Discovery.reader "discovery" {} fields =
      some (s.restricted isSet).discovery :=
    sectionOf_of_sets h (.head _) rfl fun fs hf => by
      simp only [List.forall_mem_cons] at hf
      simp [Discovery.reader, restricted, hf]
  have hthresholds : sectionOf Thresholds.reader "thresholds" {} fields =
      some (s.restricted isSet).thresholds :=
    sectionOf_of_sets h (.tail _ (.head _)) rfl fun fs hf => by
      simp only [List.forall_mem_cons] at hf
      simp [Thresholds.reader, restricted, hf]
  have hvalidation : sectionOf Validation.reader "validation" {} fields =
      some (s.restricted isSet).validation :=
    sectionOf_of_sets h (.tail _ (.tail _ (.head _))) rfl fun fs hf => by
      simp only [List.forall_mem_cons] at hf
      simp [Validation.reader, restricted, hf]
  have houtput : sectionOf Output.reader "output" {} fields =
      some (s.restricted isSet).output :=
    sectionOf_of_sets h (.tail _ (.tail _ (.tail _ (.head _)))) rfl fun fs hf => by
      simp only [List.forall_mem_cons] at hf
      simp [Output.reader, restricted, hf]
  simp only [ofFields?, hdiscovery, hthresholds, hvalidation, houtput, Option.bind_eq_bind,
    Option.bind_some]

end Read

/-! ## Texts with some of the sections and fields -/

/-- Sections with some of the fields of settings, in any order, none of them twice. -/
structure Selects (s : Settings) (parts : List Part) : Prop where
  mem_sections : ∀ p ∈ parts, p.1 ∈ (sections s).map Prod.fst
  value_eq : ∀ p ∈ parts, ∀ f ∈ p.2, s.value? p.1 f.1 = some f.2
  nodup : (parts.map Prod.fst).Nodup
  nodup_fields : ∀ p ∈ parts, (p.2.map Prod.fst).Nodup

/-- Whether sections have a field. -/
def isSetIn (parts : List Part) (name field : String) : Bool :=
  (parts.lookup name).any fun fields => (fields.lookup field).isSome

section Selects

variable {s : Settings}

theorem value?_of_mem {p : Part} (hp : p ∈ sections s)
    {f : String × Entry} (hf : f ∈ p.2) : s.value? p.1 f.1 = some f.2 := by
  simp only [sections, List.mem_cons, List.not_mem_nil, or_false] at hp
  rcases hp with rfl | rfl | rfl | rfl <;>
    simp only [List.mem_cons, List.not_mem_nil, or_false] at hf <;>
    rcases hf with rfl | rfl | rfl | rfl | rfl <;> rfl

theorem exists_of_value? {name field : String} {e : Entry} (h : s.value? name field = some e) :
    ∃ p ∈ sections s, (field, e) ∈ p.2 := by
  obtain ⟨fields, hp, hf⟩ := Option.bind_eq_some_iff.1 h
  exact ⟨_, mem_of_lookup hp, mem_of_lookup hf⟩

/-- The names of sections and fields are the same for all settings, and need no quotes. -/
theorem plainKeys_sections : ∀ p ∈ sections s, PlainKeys p := by
  have hn : ∀ name ∈ (sections s).map Prod.fst, IsPlainKey name :=
    (by decide +kernel : ∀ name ∈ (sections {}).map Prod.fst, IsPlainKey name)
  have hf : ∀ key ∈ (sections s).flatMap fun p => p.2.map Prod.fst, IsPlainKey key :=
    (by decide +kernel : ∀ key ∈ (sections {}).flatMap fun p => p.2.map Prod.fst, IsPlainKey key)
  exact fun p hp => ⟨hn _ (List.mem_map_of_mem hp), fun f hm =>
    hf _ (List.mem_flatMap.2 ⟨p, hp, List.mem_map_of_mem hm⟩)⟩

theorem isWritable_iff :
    (∀ p ∈ sections s, ∀ f ∈ p.2, f.2.IsWritable) ↔ ∀ n ∈ s.numbers, n ≤ largestNumber := by
  simp only [sections, numbers, List.forall_mem_cons, List.not_mem_nil, false_implies, implies_true,
    Entry.IsWritable, and_true, true_and, and_assoc]

theorem selects_sections : s.Selects (sections s) where
  mem_sections p hp := List.mem_map_of_mem hp
  value_eq p hp f hf := value?_of_mem hp hf
  nodup := (by decide +kernel : ((sections {}).map Prod.fst).Nodup)
  nodup_fields p hp := by
    have hf : ∀ fields ∈ (sections s).map fun p => p.2.map Prod.fst, fields.Nodup :=
      (by decide +kernel : ∀ fields ∈ (sections {}).map fun p => p.2.map Prod.fst, fields.Nodup)
    exact hf _ (List.mem_map_of_mem hp)

theorem restricted_sections : s.restricted (isSetIn (sections s)) = s := rfl

namespace Selects

variable {parts : List Part} (h : s.Selects parts)
include h

theorem isWritable (hn : ∀ n ∈ s.numbers, n ≤ largestNumber) :
    ∀ p ∈ parts, ∀ f ∈ p.2, f.2.IsWritable := by
  intro p hp f hf
  obtain ⟨q, hq, hm⟩ := exists_of_value? (h.value_eq p hp f hf)
  exact isWritable_iff.2 hn q hq _ hm

theorem plainKeys : ∀ p ∈ parts, PlainKeys p := by
  intro p hp
  obtain ⟨q, hq, he⟩ := List.mem_map.1 (h.mem_sections p hp)
  refine ⟨he ▸ (plainKeys_sections q hq).1, fun f hf => ?_⟩
  obtain ⟨q, hq, hm⟩ := exists_of_value? (h.value_eq p hp f hf)
  exact (plainKeys_sections q hq).2 _ hm

/-- Such sections set just their fields. -/
theorem sets : s.Sets (isSetIn parts)
    (parts.map fun p => (p.1, .record (p.2.map fun f => (f.1, f.2.data)))) := by
  intro part hpart
  rw [lookup_map fun fields : List (String × Entry) =>
    Data.record (fields.map fun f => (f.1, f.2.data))]
  cases hl : parts.lookup part.1 with
  | none => exact .inl ⟨rfl, fun f _ => by rw [isSetIn, hl]; rfl⟩
  | some fields =>
    refine .inr ⟨_, rfl, fun f hf => ?_⟩
    rw [lookup_map Entry.data, isSetIn, hl, Option.any_some]
    cases he : fields.lookup f.1 with
    | none => rfl
    | some e =>
      have hv := h.value_eq _ (mem_of_lookup hl) _ (mem_of_lookup he)
      rw [value?_of_mem hpart hf] at hv
      cases hv
      rfl

end Selects

end Selects

/-! ## Round trips -/

theorem ofText_of_sets {s : Settings} {isSet : String → String → Bool} {text : String}
    {fields : List (String × Data)} (ht : Toml.parse? text = some fields)
    (h : s.Sets isSet fields) : ofText text = .ok (s.restricted isSet) := by
  rw [ofText, parse?, ht, Option.bind_eq_bind, Option.bind_some, ofFields?_of_sets h]

theorem Selects.exists_text {s : Settings} {parts : List Part}
    (h : s.Selects parts) (hn : ∀ n ∈ s.numbers, n ≤ largestNumber) :
    ∃ text, writeSections? parts = some text ∧
      ofText text = .ok (s.restricted (isSetIn parts)) := by
  obtain ⟨text, ht⟩ := Option.isSome_iff_exists.1 (isSome_writeSections?.2 (h.isWritable hn))
  exact ⟨text, ht, ofText_of_sets
    (parse?_writeSections ht h.plainKeys h.nodup h.nodup_fields) h.sets⟩

theorem toText_eq_error_iff {s : Settings} :
    s.toText = .error .unwritable ↔ ∃ n ∈ s.numbers, largestNumber < n := by
  have h : (s.toText? = none) ↔ ¬ ∀ n ∈ s.numbers, n ≤ largestNumber := by
    rw [toText?_eq, ← isWritable_iff, ← isSome_writeSections?, Option.not_isSome_iff_eq_none]
  rw [toText]
  cases ht : s.toText? with
  | none => simpa [ht] using h
  | some text => simpa [ht] using h

/-- Settings are refused when a number is too large, and otherwise their text gives them
back. A text that gives some of the settings is read as these and the defaults elsewhere:
the text of some of the sections and fields, in any order, and any other with such fields. -/
theorem ofText_toText (s : Settings) :
    (s.toText = .error .unwritable ↔ ∃ n ∈ s.numbers, largestNumber < n) ∧
    ((∀ n ∈ s.numbers, n ≤ largestNumber) →
      (∃ text, s.toText = .ok text ∧ ofText text = .ok s) ∧
      ∀ parts, s.Selects parts → ∃ text, writeSections? parts = some text ∧
        ofText text = .ok (s.restricted (isSetIn parts))) ∧
    ∀ text fields isSet, Toml.parse? text = some fields → s.Sets isSet fields →
      ofText text = .ok (s.restricted isSet) := by
  refine ⟨toText_eq_error_iff, fun hn => ⟨?_, fun parts h => h.exists_text hn⟩,
    fun text fields isSet ht h => ofText_of_sets ht h⟩
  obtain ⟨text, ht, hr⟩ := selects_sections.exists_text hn
  refine ⟨text, ?_, hr.trans (congrArg Except.ok restricted_sections)⟩
  rw [toText, toText?_eq, ht]

/-- Settings whose texts need every form of quotes, with the largest number there is. -/
def awkwardSettings : Settings where
  discovery := { extensions := ["it'em", "a\"\"\"b\n'''c", "\x01\\"] }
  thresholds := { queryLength := largestNumber }
  output := { version := "3\r\n", targetPlatform := "Größe\t\"'" }

/-- Three of their fields. -/
def awkwardParts : List Part := [
  ("output", [
    ("target_platform", .text awkwardSettings.output.targetPlatform),
    ("version", .text awkwardSettings.output.version)]),
  ("discovery", [("extensions", .texts awkwardSettings.discovery.extensions)])]

theorem selects_awkwardParts : awkwardSettings.Selects awkwardParts where
  mem_sections := by decide +kernel
  value_eq := by decide +kernel
  nodup := by decide +kernel
  nodup_fields := by decide +kernel

theorem ofText_toText_awkwardSettings :
    (∀ n ∈ awkwardSettings.numbers, n ≤ largestNumber) ∧
    (∃ text, awkwardSettings.toText = .ok text ∧ ofText text = .ok awkwardSettings) ∧
    (awkwardSettings.Selects awkwardParts ∧ ∃ text, writeSections? awkwardParts = some text ∧
      ofText text = .ok (awkwardSettings.restricted (isSetIn awkwardParts))) ∧
    ∃ text fields, Toml.parse? text = some fields ∧
      awkwardSettings.Sets (isSetIn awkwardParts) fields ∧
      ofText text = .ok (awkwardSettings.restricted (isSetIn awkwardParts)) := by
  have hn : ∀ n ∈ awkwardSettings.numbers, n ≤ largestNumber := by decide +kernel
  have hs := selects_awkwardParts
  obtain ⟨-, hwritten, hany⟩ := ofText_toText awkwardSettings
  obtain ⟨hall, hsome⟩ := hwritten hn
  refine ⟨hn, hall, ⟨hs, hsome _ hs⟩, ?_⟩
  obtain ⟨text, ht, -⟩ := hsome _ hs
  have hp := parse?_writeSections ht hs.plainKeys hs.nodup hs.nodup_fields
  exact ⟨text, _, hp, hs.sets, hany text _ _ hp hs.sets⟩

end JobAtlas.Settings
