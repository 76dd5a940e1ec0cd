import JobAtlas.Proofs.Sql.TableName
import JobAtlas.Sql.Statement

/-!
# Statements on one line

A clean text stands on one line, and so does all that is read from it: blanks in
it are spaces, tables are bare names, and context variables are parts of it.

* `eq_space_of_mem_clean`: the only blank of a clean text is the space;
* `singleLine_of_mem_tables`, `mem_of_mem_contextVariables`: tables and context
  variables;
* `Statement.singleLine_ofRaw`: all that is read from a stored value.
-/

namespace JobAtlas

/-! ## Texts without line feeds -/

namespace Text

/-- The text has no line feed. -/
def SingleLine (s : String) : Prop := '\n' ∉ s.toList

instance (s : String) : Decidable (SingleLine s) := inferInstanceAs (Decidable ('\n' ∉ s.toList))

theorem singleLine_append {s t : String} : SingleLine (s ++ t) ↔ SingleLine s ∧ SingleLine t := by
  rw [SingleLine, String.toList_append, List.mem_append, not_or]
  rfl

theorem singleLine_joined {sep : String} (hsep : SingleLine sep) {ss : List String}
    (h : ∀ s ∈ ss, SingleLine s) : SingleLine (joined sep ss) := fun hc =>
  (mem_toList_joined hc).elim hsep fun ⟨s, hs, hc⟩ => h s hs hc

theorem singleLine_number (n : Nat) : SingleLine (toString n) := by
  intro h
  rw [Nat.toString_eq_ofList_toDigits, String.toList_ofList] at h
  exact absurd (Nat.isDigit_of_mem_toDigits (by decide) (by decide) h) (by decide)

end Text

namespace Sql

open Text (Recogniser isBlank SingleLine)

/-! ## Clean texts -/

theorem eq_space_of_mem_clean {raw : String} {c : Char} (h : c ∈ (clean raw).toList)
    (hc : isBlank c = true) : c = ' ' := by
  rw [clean, String.toList_ofList] at h
  exact Text.eq_space_of_mem_collapse (Text.mem_of_mem_strip h) hc

theorem singleLine_clean (raw : String) : SingleLine (clean raw) := fun h =>
  absurd (eq_space_of_mem_clean h (by decide)) (by decide)

/-! ## Tables -/

theorem singleLine_of_mem_tables {sql table : String} (h : table ∈ tables sql) : SingleLine table :=
  fun hc => absurd ((isBareName_of_mem_tables h).isNameChar _ hc) (by decide)

/-! ## Context variables -/

theorem mem_of_mem_enclosed {start stop s w r : List Char} (h : enclosed start stop s = some (w, r)) :
    ∀ c ∈ w, c ∈ s := by
  obtain ⟨rfl, -, -⟩ := enclosed_eq_some h
  exact fun c hc => List.mem_append_right _ (List.mem_append_left _ hc)

/-- Every context variable is a part of the text. -/
theorem mem_of_mem_contextVariables {sql v : String} (h : v ∈ contextVariables sql) :
    ∀ c ∈ v.toList, c ∈ sql.toList := by
  rw [contextVariables, ← SortedSet.mem_def, contextSet, SortedSet.mem_ofList] at h
  obtain ⟨p, hp, hv⟩ := List.mem_flatMap.1 h
  obtain ⟨w, hw, rfl⟩ := List.mem_map.1 hv
  obtain ⟨s, r, hs, hm⟩ := Recogniser.exists_of_mem_scan hw
  obtain ⟨start, stop, rfl⟩ : ∃ start stop, p = enclosed start stop := by
    simp only [contextPatterns, List.mem_cons, List.not_mem_nil, or_false] at hp
    rcases hp with rfl | rfl | rfl <;> exact ⟨_, _, rfl⟩
  rw [String.toList_ofList]
  exact fun c hc => hs.subset (mem_of_mem_enclosed hm c hc)

theorem singleLine_of_mem_contextVariables {sql v : String} (hs : SingleLine sql)
    (h : v ∈ contextVariables sql) : SingleLine v :=
  fun hc => hs (mem_of_mem_contextVariables h _ hc)

/-! ## Statements -/

theorem singleLine_label (o : Operation) : SingleLine o.label := by
  cases o with
  | cte kind | block kind => cases kind <;> decide +kernel
  | _ => decide +kernel

/-- All that is read from a statement stands on one line, its names apart. -/
structure Statement.SingleLine (s : Statement) : Prop where
  cleaned : Text.SingleLine s.cleaned
  tables : ∀ t ∈ s.tables, Text.SingleLine t
  contextVariables : ∀ v ∈ s.contextVariables, Text.SingleLine v

/-- What is read from a stored value is on one line, wherever it was found. -/
theorem Statement.singleLine_ofRaw (job : String) (c : Component) (raw : String) :
    (ofRaw job c raw).SingleLine := by
  have hc : Text.SingleLine (clean raw) := singleLine_clean raw
  constructor <;> simp only [ofRaw]
  · exact hc
  · exact fun _ => singleLine_of_mem_tables
  · exact fun _ => singleLine_of_mem_contextVariables hc

end Sql

end JobAtlas
