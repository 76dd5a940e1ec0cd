import Mathlib.Data.Option.Basic
import JobAtlas.Proofs.Data.Lawful
import JobAtlas.Report.Listing
import JobAtlas.Source.Loading

/-!
# The records of the document format

Every record that is part of a job or of a document is read as it was written.
The instances follow the order in which the records are built from each other;
`lawfulCoded_records` lists what they say. A record needs no more than the
instances of what it holds. A tagged alternative is read by its tag first
(`tagged?_record`), and a label by looking for it among all labels.

The labels of operations are the only ones that are cut into parts to be read.
`Operation.ofLabel?_eq_some_iff` says that this accepts exactly the labels.
-/

namespace JobAtlas

open Data

attribute [local simp] List.lookup_append

/-! ## Jobs -/

instance : LawfulCoded Position := ⟨fun _ => Reads.read? (by simp)⟩
instance : LawfulCoded Cell := ⟨fun _ => Reads.read? (by simp)⟩
instance : LawfulCoded Parameter := ⟨fun _ => Reads.read? (by simp)⟩
instance : LawfulCoded Column := ⟨fun _ => Reads.read? (by simp)⟩
instance : LawfulCoded Schema := ⟨fun _ => Reads.read? (by simp)⟩
instance : LawfulCoded JoinKey := ⟨fun _ => Reads.read? (by simp)⟩
instance : LawfulCoded InputTable := ⟨fun _ => Reads.read? (by simp)⟩
instance : LawfulCoded OutputTable := ⟨fun _ => Reads.read? (by simp)⟩
instance : LawfulCoded VariableEntry := ⟨fun _ => Reads.read? (by simp)⟩
instance : LawfulCoded VariableTable := ⟨fun _ => Reads.read? (by simp)⟩
instance : LawfulCoded Mapper := ⟨fun _ => Reads.read? (by simp)⟩
instance : LawfulCoded Link := ⟨fun _ => Reads.read? (by simp)⟩
instance : LawfulCoded Component := ⟨fun _ => Reads.read? (by simp)⟩
instance : LawfulCoded ContextParameter := ⟨fun _ => Reads.read? (by simp)⟩
instance : LawfulCoded ContextSet := ⟨fun _ => Reads.read? (by simp)⟩
instance : LawfulCoded Job := ⟨fun _ => Reads.read? (by simp)⟩

/-! ## Statements -/

namespace Sql

theorem StatementKind.ofKeyword?_eq_some_iff {s : String} {k : StatementKind} :
    ofKeyword? s = some k ↔ k.keyword = s := by
  constructor
  · intro h
    unfold ofKeyword? at h
    split at h <;> cases h <;> rfl
  · rintro rfl
    cases k <;> rfl

theorem Operation.ofLabel?_label (o : Operation) : ofLabel? o.label = some o := by
  cases o with
  | cte k => cases k <;> decide
  | block k => cases k <;> decide
  | _ => decide

/-- Exactly the labels are read, each as its operation. -/
theorem Operation.ofLabel?_eq_some_iff {s : String} {o : Operation} :
    ofLabel? s = some o ↔ o.label = s := by
  refine ⟨fun h => ?_, fun h => h ▸ ofLabel?_label o⟩
  unfold ofLabel? at h
  split at h
  · next kind hs =>
    obtain ⟨k, hk, rfl⟩ := Option.map_eq_some_iff.1 h
    rw [Text.dropStart?_eq_some_iff.1 hs, ← StatementKind.ofKeyword?_eq_some_iff.1 hk]
    rfl
  · split at h
    · next kind hs =>
      obtain ⟨k, hk, rfl⟩ := Option.map_eq_some_iff.1 h
      rw [Text.dropStart?_eq_some_iff.1 hs, ← StatementKind.ofKeyword?_eq_some_iff.1 hk]
      rfl
    · simpa using List.find?_some h

instance : LawfulCoded Operation := ⟨Operation.ofLabel?_label⟩
instance : LawfulCoded Statement := ⟨fun _ => Reads.read? (by simp)⟩
instance : LawfulCoded QueryEntry := ⟨fun _ => Reads.read? (by simp)⟩

end Sql

/-! ## Mappings -/

namespace Mapping

instance : LawfulCoded Expression := ⟨fun _ => Reads.read? (by simp)⟩
instance : LawfulCoded Entry := ⟨fun _ => Reads.read? (by simp)⟩
instance : LawfulCoded InputField := ⟨fun _ => Reads.read? (by simp)⟩
instance : LawfulCoded OutputField := ⟨fun _ => Reads.read? (by simp)⟩

instance : LawfulCoded Filter where
  ofData?_toData
    | .input _ => bind_tagged? rfl (Reads.read? (by simp))
    | .output _ _ => bind_tagged? rfl (Reads.read? (by simp))

instance : LawfulCoded JoinCondition := ⟨fun _ => Reads.read? (by simp)⟩
instance : LawfulCoded Lookup := ⟨fun _ => Reads.read? (by simp)⟩
instance : LawfulCoded Variable := ⟨fun _ => Reads.read? (by simp)⟩
instance : LawfulCoded Structure := ⟨fun _ => Reads.read? (by simp)⟩

end Mapping

/-! ## Transactions, connections and settings of jobs -/

namespace Transaction

instance : LawfulCoded Ending := ⟨fun e => by cases e <;> rfl⟩
instance : LawfulCoded Step := ⟨fun _ => Reads.read? (by simp)⟩
instance : LawfulCoded Group := ⟨fun _ => Reads.read? (by simp)⟩
instance : LawfulCoded Summary := ⟨fun _ => Reads.read? (by simp)⟩

end Transaction

instance : LawfulCoded CommitMode := ⟨fun m => by cases m <;> rfl⟩
instance : LawfulCoded BatchSettings := ⟨fun _ => Reads.read? (by simp)⟩
instance : LawfulCoded ThreadSettings := ⟨fun _ => Reads.read? (by simp)⟩
instance : LawfulCoded ConnectionSettings := ⟨fun _ => Reads.read? (by simp)⟩
instance : LawfulCoded MemorySettings := ⟨fun _ => Reads.read? (by simp)⟩
instance : LawfulCoded Parallelism := ⟨fun _ => Reads.read? (by simp)⟩
instance : NeverNull MemorySettings := ⟨fun _ => nofun⟩
instance : NeverNull Parallelism := ⟨fun _ => nofun⟩
instance : LawfulCoded PerformanceHints := ⟨fun _ => Reads.read? (by simp)⟩

/-! ## Alerts and rules -/

instance : LawfulCoded Trigger := ⟨fun _ => Reads.read? (by simp)⟩
instance : LawfulCoded LogMode := ⟨fun m => by cases m <;> rfl⟩

instance : LawfulCoded Alert where
  ofData?_toData
    | .fatal .. => bind_tagged? rfl (Reads.read? (by simp))
    | .warning .. => bind_tagged? rfl (Reads.read? (by simp))
    | .audit .. => bind_tagged? rfl (Reads.read? (by simp))

instance : LawfulCoded QualityRule where
  ofData?_toData
    | .schema .. => bind_tagged? rfl (Reads.read? (by simp))
    | .filter .. => bind_tagged? rfl (Reads.read? (by simp))
    | .aggregation .. => bind_tagged? rfl (Reads.read? (by simp))

/-! ## Graphs and context variables -/

namespace Graph

instance : LawfulCoded Vertex := ⟨fun _ => Reads.read? (by simp)⟩
instance : LawfulCoded Edge := ⟨fun _ => Reads.read? (by simp)⟩
instance : LawfulCoded Flow := ⟨fun _ => Reads.read? (by simp)⟩
instance : LawfulCoded Dependency := ⟨fun _ => Reads.read? (by simp)⟩

end Graph

namespace Context

instance : LawfulCoded Category := ⟨fun c => by cases c <;> rfl⟩
instance : LawfulCoded Classification := ⟨fun _ => Reads.read? (by simp)⟩
instance : LawfulCoded Variable := ⟨fun _ => Reads.read? (by simp)⟩
instance : LawfulCoded MappingEntry := ⟨fun _ => Reads.read? (by simp)⟩

end Context

/-! ## Documents -/

instance : LawfulCoded JobRole := ⟨fun r => by cases r <;> rfl⟩
instance : LawfulCoded Overview := ⟨fun _ => Reads.read? (by simp)⟩
instance : LawfulCoded JobSummary := ⟨fun _ => Reads.read? (by simp)⟩
instance : LawfulCoded TableUsage := ⟨fun _ => Reads.read? (by simp)⟩
instance : LawfulCoded TableAnalysis := ⟨fun _ => Reads.read? (by simp)⟩

instance : LawfulCoded Check where
  ofData?_toData
    | .rowCount .. => bind_tagged? rfl (Reads.read? (by simp))
    | .schema .. => bind_tagged? rfl (Reads.read? (by simp))
    | .nulls .. => bind_tagged? rfl (Reads.read? (by simp))

instance : LawfulCoded Recommendations := ⟨fun _ => Reads.read? (by simp)⟩
instance : LawfulCoded Document := ⟨fun _ => Reads.read? (by simp)⟩

namespace Report

instance : LawfulCoded ExpressionListing := ⟨fun _ => Reads.read? (by simp)⟩
instance : LawfulCoded ExpressionDocument := ⟨fun _ => Reads.read? (by simp)⟩
instance : LawfulCoded VariableDocument := ⟨fun _ => Reads.read? (by simp)⟩

end Report

/-! ## Reports on jobs that are not loaded -/

namespace LoadFailure

/-- A path is written as a text, so only one that is a text can be written. -/
theorem toData?_eq_none_iff {f : LoadFailure} :
    f.toData? = none ↔ ∀ path : String, f.path ≠ path := by
  rw [toData?, Option.map_eq_none_iff, Option.eq_none_iff_forall_ne_some]
  exact forall_congr' fun path => not_congr Path.text?_eq_some_iff

theorem ofData?_of_toData? {f : LoadFailure} {d : Data} (h : f.toData? = some d) :
    ofData? d = some f := by
  obtain ⟨path, error⟩ := f
  obtain ⟨s, hs, rfl⟩ := Option.map_eq_some_iff.1 h
  obtain rfl := Path.text?_eq_some_iff.1 hs
  exact Reads.read? (by simp)

end LoadFailure

/-- The byte `0xFF` stands in no text. -/
example : (LoadFailure.mk "a.item" "").toData?.isSome ∧
    (LoadFailure.mk ⟨[0xFF]⟩ "").toData?.isNone := by
  decide +kernel

end JobAtlas
