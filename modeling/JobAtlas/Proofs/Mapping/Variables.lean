import Mathlib.Data.List.Induction
import JobAtlas.Distinct
import JobAtlas.Mapping.Structure

/-!
# Variables of a mapping

The structure of a mapping component and the list of its expressions are read off
the same variable entries, the structure with one variable for each name
(`componentVariables`) and the list with one expression for each entry. What the list
says last about a variable is what the structure has (`agrees_computed`).

* `map_name_define`, `mem_define_iff`: one definition, which keeps its place;
* `map_name_defined`, `mem_defined_iff`: the variables that are left of many
  definitions, in the order of the first and with the content of the last one.
-/

namespace JobAtlas

/-! ## Last elements -/

section Last

variable {α : Type u} {β : Type v} {κ : Type w}

/-- `a` stands in `as`, and nothing behind it has its key. -/
def IsLastBy (key : α → κ) (a : α) (as : List α) : Prop :=
  ∃ before after, as = before ++ a :: after ∧ ∀ b ∈ after, key b ≠ key a

variable {key : α → κ} {a b : α} {as bs : List α}

theorem IsLastBy.mem (h : IsLastBy key a as) : a ∈ as := by
  obtain ⟨before, after, rfl, -⟩ := h
  exact List.mem_append_right _ List.mem_cons_self

theorem IsLastBy.append_left (h : IsLastBy key a as) (bs : List α) :
    IsLastBy key a (bs ++ as) := by
  obtain ⟨before, after, rfl, ha⟩ := h
  exact ⟨bs ++ before, after, (List.append_assoc ..).symm, ha⟩

theorem isLastBy_append_singleton :
    IsLastBy key a (as ++ [b]) ↔ a = b ∨ (IsLastBy key a as ∧ key b ≠ key a) := by
  constructor
  · rintro ⟨before, after, h, ha⟩
    rcases List.eq_nil_or_concat after with rfl | ⟨after, c, rfl⟩
    · exact .inl (List.singleton_inj.1 (List.append_inj' h rfl).2).symm
    · rw [List.concat_eq_append, ← List.cons_append, ← List.append_assoc] at h
      obtain ⟨rfl, hb⟩ := List.append_inj' h rfl
      rw [List.singleton_inj.1 hb]
      exact .inr ⟨⟨before, after, rfl, fun d hd => ha d (by simp [hd])⟩, ha c (by simp)⟩
  · rintro (rfl | ⟨⟨before, after, rfl, ha⟩, hb⟩)
    · exact ⟨as, [], rfl, fun _ h => absurd h List.not_mem_nil⟩
    · refine ⟨before, after ++ [b], by simp, fun c hc => ?_⟩
      rcases List.mem_append.1 hc with hc | hc
      · exact ha c hc
      · rwa [List.mem_singleton.1 hc]

/-- The last of the results of `f` comes from the last element that has such a
result. -/
theorem IsLastBy.of_filterMap {f : β → Option α} {bs : List β} (h : IsLastBy key a (bs.filterMap f)) :
    ∃ before b after, bs = before ++ b :: after ∧ f b = some a ∧
      ∀ c ∈ after, ∀ a', f c = some a' → key a' ≠ key a := by
  obtain ⟨before, after, h, ha⟩ := h
  obtain ⟨bs₁, bs₂, rfl, -, h⟩ := List.filterMap_eq_append_iff.1 h
  obtain ⟨bs₃, b, bs₄, rfl, -, hb, rfl⟩ := List.filterMap_eq_cons_iff.1 h
  refine ⟨bs₁ ++ bs₃, b, bs₄, (List.append_assoc ..).symm, hb, fun c hc a' hc' => ?_⟩
  exact ha a' (List.mem_filterMap.2 ⟨c, hc, hc'⟩)

end Last

namespace Mapping

/-! ## Definitions -/

variable {v w : Variable} {vs : List Variable}

/-- A name that is new comes last. -/
theorem map_name_define (v : Variable) (vs : List Variable) :
    (define v vs).map (·.name) =
      if v.name ∈ vs.map (·.name) then vs.map (·.name) else vs.map (·.name) ++ [v.name] := by
  induction vs with
  | nil => rfl
  | cons u vs ih =>
    rw [define]
    split
    · next hu => simp [hu]
    · next hu =>
      rw [List.map_cons, ih]
      by_cases hv : v.name ∈ vs.map (·.name) <;> simp [hv, Ne.symm hu]

/-- A definition replaces the variable that had its name and no other. -/
theorem mem_define_iff (hn : (vs.map (·.name)).Nodup) :
    w ∈ define v vs ↔ w = v ∨ (w ∈ vs ∧ v.name ≠ w.name) := by
  induction vs with
  | nil => simp [define]
  | cons u vs ih =>
    rw [List.map_cons, List.nodup_cons] at hn
    rw [define]
    split
    · next hu =>
      have hw : w ∈ vs → v.name ≠ w.name := fun hw e =>
        hn.1 (hu ▸ e ▸ List.mem_map_of_mem (f := Variable.name) hw)
      simp only [List.mem_cons]
      constructor
      · rintro (rfl | h)
        · exact .inl rfl
        · exact .inr ⟨.inr h, hw h⟩
      · rintro (rfl | ⟨rfl | h, hv⟩)
        · exact .inl rfl
        · exact absurd hu.symm hv
        · exact .inr h
    · next hu =>
      rw [List.mem_cons, List.mem_cons, ih hn.2]
      constructor
      · rintro (rfl | h | ⟨h, hv⟩)
        · exact .inr ⟨.inl rfl, Ne.symm hu⟩
        · exact .inl h
        · exact .inr ⟨.inr h, hv⟩
      · rintro (rfl | ⟨rfl | h, hv⟩)
        · exact .inr (.inl rfl)
        · exact .inl rfl
        · exact .inr (.inr ⟨h, hv⟩)

/-- The variables that are left of definitions. -/
def defined (ds : List Variable) : List Variable := ds.foldl (fun vs v => define v vs) []

theorem defined_append_singleton (ds : List Variable) (v : Variable) :
    defined (ds ++ [v]) = define v (defined ds) := by
  rw [defined, List.foldl_append]
  rfl

theorem map_name_defined (ds : List Variable) :
    (defined ds).map (·.name) = distinct (ds.map (·.name)) := by
  induction ds using List.reverseRecOn with
  | nil => rfl
  | append_singleton ds v ih =>
    rw [defined_append_singleton, map_name_define, ih, List.map_append, List.map_singleton,
      distinct_append_singleton]
    simp only [mem_distinct]

theorem nodup_defined (ds : List Variable) : ((defined ds).map (·.name)).Nodup := by
  rw [map_name_defined]
  exact nodup_distinct _

theorem mem_defined_iff {ds : List Variable} : v ∈ defined ds ↔ IsLastBy (·.name) v ds := by
  induction ds using List.reverseRecOn with
  | nil => simp [defined, IsLastBy]
  | append_singleton ds d ih =>
    rw [defined_append_singleton, mem_define_iff (nodup_defined ds), ih, isLastBy_append_singleton]

example : defined [⟨"a", "x", ""⟩, ⟨"b", "y", ""⟩, ⟨"a", "z", ""⟩] =
    [⟨"a", "z", ""⟩, ⟨"b", "y", ""⟩] := by decide

/-! ## Entries -/

/-- An entry defines a variable if it has a name and an expression. -/
def Defines (e : VariableEntry) : Prop := e.name ≠ "" ∧ e.expression.getD "" ≠ ""

instance : DecidablePred Defines := fun e =>
  inferInstanceAs (Decidable (e.name ≠ "" ∧ e.expression.getD "" ≠ ""))

/-- The variable entries of a component, in document order. -/
def variableEntries (c : Component) : List VariableEntry :=
  (c.mappers.flatMap (·.variableTables)).flatMap (·.entries)

/-- The entries of a component that define variables. -/
def definitions (c : Component) : List VariableEntry := (variableEntries c).filter Defines

theorem nonEmpty_eq_some_iff {s? : Option String} {s : String} :
    nonEmpty s? = some s ↔ s? = some s ∧ s ≠ "" := by
  simp [nonEmpty, Option.filter_eq_some_iff]

theorem Variable.ofEntry?_eq_some_iff {e : VariableEntry} : Variable.ofEntry? e = some v ↔
    Defines e ∧ v.name = e.name ∧ e.expression = some v.expression ∧
      v.dataType = e.dataType.getD defaultVariableType := by
  obtain ⟨name, expression, dataType⟩ := v
  simp only [bind, ofEntry?, Option.bind_eq_some_iff, nonEmpty_eq_some_iff,
    Option.ite_none_left_eq_some, Option.some.injEq, Variable.mk.injEq, Defines]
  constructor
  · rintro ⟨x, ⟨hx, hne⟩, hn, rfl, rfl, rfl⟩
    exact ⟨⟨hn, by rwa [hx]⟩, rfl, hx, rfl⟩
  · rintro ⟨⟨hn, hne⟩, rfl, hx, rfl⟩
    exact ⟨expression, ⟨hx, by rwa [hx] at hne⟩, hn, rfl, rfl, rfl⟩

theorem exists_ofEntry? {e : VariableEntry} (h : Defines e) : ∃ v, Variable.ofEntry? e = some v := by
  obtain ⟨x, hx⟩ : ∃ x, e.expression = some x := by
    refine Option.ne_none_iff_exists'.1 fun hnone => h.2 ?_
    rw [hnone, Option.getD_none]
  exact ⟨⟨e.name, x, e.dataType.getD defaultVariableType⟩,
    Variable.ofEntry?_eq_some_iff.2 ⟨h, rfl, hx, rfl⟩⟩

/-- Entries that define nothing leave no variable. -/
theorem ofEntry?_eq_none {e : VariableEntry} (h : ¬ Defines e) : Variable.ofEntry? e = none :=
  Option.eq_none_iff_forall_ne_some.2 fun _ hv => h (Variable.ofEntry?_eq_some_iff.1 hv).1

theorem map_name_filterMap_ofEntry? (es : List VariableEntry) :
    (es.filterMap Variable.ofEntry?).map (·.name) = (es.filter Defines).map (·.name) := by
  induction es with
  | nil => rfl
  | cons e es ih =>
    by_cases he : Defines e
    · obtain ⟨v, hv⟩ := exists_ofEntry? he
      rw [List.filterMap_cons_some hv, List.filter_cons_of_pos (by simpa using he), List.map_cons,
        List.map_cons, ih, (Variable.ofEntry?_eq_some_iff.1 hv).2.1]
    · rw [List.filterMap_cons_none (ofEntry?_eq_none he),
        List.filter_cons_of_neg (by simpa using he), ih]

/-- A variable is what the last entry that defines its name says. -/
theorem exists_entry_of_mem_componentVariables {c : Component} (h : v ∈ componentVariables c) :
    ∃ before e after, variableEntries c = before ++ e :: after ∧ Variable.ofEntry? e = some v ∧
      ∀ d ∈ after, Defines d → d.name ≠ v.name := by
  obtain ⟨before, e, after, he, hv, ha⟩ := IsLastBy.of_filterMap (mem_defined_iff.1 h)
  refine ⟨before, e, after, he, hv, fun d hd hdef => ?_⟩
  obtain ⟨w, hw⟩ := exists_ofEntry? hdef
  rw [← (Variable.ofEntry?_eq_some_iff.1 hw).2.1]
  exact ha d hd w hw

/-! ## Expressions -/

theorem Expression.ofVariable?_eq_some_iff {job component : String} {e : VariableEntry}
    {x : Expression} : Expression.ofVariable? job component e = some x ↔
      (e.expression = some x.expression ∧ x.expression ≠ "") ∧ x.expression ≠ e.name ∧
        x = ⟨job, component, some e.name, e.name, x.expression, e.dataType.getD ""⟩ := by
  simp only [ofVariable?, bind, Option.bind_eq_some_iff, nonEmpty_eq_some_iff,
    Option.ite_none_left_eq_some, Option.some.injEq]
  constructor
  · rintro ⟨t, ht, hn, rfl⟩
    exact ⟨ht, hn, rfl⟩
  · rintro ⟨ht, hn, hx⟩
    exact ⟨x.expression, ht, hn, hx.symm⟩

/-- What the list says last under the name of a variable is the expression of its last
entry, unless this is only the name again. -/
theorem Expression.isLastBy_ofComponent {c : Component} {before after : List VariableEntry}
    {e : VariableEntry} (he : variableEntries c = before ++ e :: after)
    (hv : Variable.ofEntry? e = some v) (ha : ∀ d ∈ after, Defines d → d.name ≠ v.name)
    (hn : v.expression ≠ v.name) (job : String) :
    IsLastBy (·.output)
      ⟨job, c.name, some v.name, v.name, v.expression, e.dataType.getD ""⟩
      (Expression.ofComponent job c) := by
  obtain ⟨hdef, hname, hx, -⟩ := Variable.ofEntry?_eq_some_iff.1 hv
  have hne : v.expression ≠ "" := by simpa [hx] using hdef.2
  have hlast : Expression.ofVariable? job c.name e =
      some ⟨job, c.name, some v.name, v.name, v.expression, e.dataType.getD ""⟩ :=
    Expression.ofVariable?_eq_some_iff.2 ⟨⟨hx, hne⟩, hname ▸ hn, by rw [hname]⟩
  show IsLastBy _ _ (_ ++ (variableEntries c).filterMap (Expression.ofVariable? job c.name))
  rw [he, List.filterMap_append, List.filterMap_cons_some hlast]
  refine IsLastBy.append_left ⟨_, _, rfl, fun y hy => ?_⟩ _
  obtain ⟨d, hd, hy⟩ := List.mem_filterMap.1 hy
  obtain ⟨⟨hdx, hdne⟩, -, hy⟩ := Expression.ofVariable?_eq_some_iff.1 hy
  -- an entry with the name of a variable has a name, so it would define the variable again
  intro hout
  have hdn : d.name = v.name := (congrArg Expression.output hy).symm.trans hout
  refine ha d hd ⟨?_, by rwa [hdx]⟩ hdn
  rw [hdn, hname]
  exact hdef.1

/-- The structure of a component has one variable for each name that its entries
define, in the order in which the names come up first, and each variable is what the
last entry that defines it says. If this is more than the variable's own name, the list
of expressions says the same, and says it last. -/
theorem agrees_computed (c : Component) :
    ((Structure.ofComponent c).computed.map (·.name)).Nodup ∧
    (Structure.ofComponent c).computed.map (·.name) =
      distinct ((definitions c).map (·.name)) ∧
    ∀ v ∈ (Structure.ofComponent c).computed,
      (∃ e, IsLastBy (·.name) e (definitions c) ∧ e.name = v.name ∧
        e.expression = some v.expression ∧ v.dataType = e.dataType.getD "id_String") ∧
      ∀ job, v.expression ≠ v.name → ∃ x ∈ Expression.ofComponent job c,
        x.input = some v.name ∧ x.output = v.name ∧ x.expression = v.expression ∧
          IsLastBy (·.output) x (Expression.ofComponent job c) := by
  refine ⟨nodup_defined _, ?_, fun v hv => ?_⟩
  · rw [definitions, ← map_name_filterMap_ofEntry?]
    exact map_name_defined _
  · obtain ⟨before, e, after, he, hve, ha⟩ := exists_entry_of_mem_componentVariables hv
    obtain ⟨hdef, hname, hx, htype⟩ := Variable.ofEntry?_eq_some_iff.1 hve
    refine ⟨⟨e, ?_, hname.symm, hx, htype⟩, fun job hn => ?_⟩
    · refine ⟨before.filter Defines, after.filter Defines, ?_, fun d hd => ?_⟩
      · rw [definitions, he, List.filter_append, List.filter_cons_of_pos (by simpa using hdef)]
      · obtain ⟨hd, hdd⟩ := List.mem_filter.1 hd
        exact fun hn => ha d hd (of_decide_eq_true hdd) (hn.trans hname.symm)
    · have hlast := Expression.isLastBy_ofComponent he hve ha hn job
      exact ⟨_, hlast.mem, rfl, rfl, rfl, hlast⟩

end Mapping

end JobAtlas
