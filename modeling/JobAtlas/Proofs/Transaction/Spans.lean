import Mathlib.Data.List.Infix
import JobAtlas.Transaction.Basic

/-!
# The groups of a job

`outlines` says of each connection of a job which group it begins, by the
components behind it alone:

* `outline_groups`: the groups of one scan are those of `outlines`, in order;
* `spansFrom_filter`: components without a database role have no part in them;
* `summary_ofJob?`: what these say of the summary of a job.
-/

namespace JobAtlas.Transaction

/-! ## Roles -/

/-- A component that opens or ends a transaction. -/
def isBoundary (c : Component) : Bool :=
  DatabaseRole.of? c.kind ∈ [some .connection, some .commit, some .rollback, some .close]

/-- A component that reads or writes rows. -/
def worksOnRows (c : Component) : Bool :=
  DatabaseRole.of? c.kind ∈ [some .input, some .output, some .row]

def hasRole (c : Component) : Bool := (DatabaseRole.of? c.kind).isSome

/-- The ending that a role brings about. -/
def endingOf? : DatabaseRole → Option Ending
  | .commit => some .commit
  | .rollback => some .rollback
  | .close => some .close
  | _ => none

theorem of?_eq_some {kind : String} {role : DatabaseRole} (h : DatabaseRole.of? kind = some role) :
    ∃ family ∈ DatabaseRole.families, ∃ suffix,
      kind = family ++ suffix ∧ DatabaseRole.ofSuffix? suffix = some role := by
  obtain ⟨suffix, hs, hr⟩ := Option.bind_eq_some_iff.1 h
  obtain ⟨family, hf, hs⟩ := List.exists_of_findSome?_eq_some hs
  exact ⟨family, hf, suffix, Text.dropStart?_eq_some_iff.1 hs, hr⟩

/-- The ending that a type of component brings about is that of its role. -/
theorem ofKind_eq {kind : String} {role : DatabaseRole} {e : Ending}
    (h : DatabaseRole.of? kind = some role) (he : endingOf? role = some e) :
    Ending.ofKind kind = e := by
  obtain ⟨family, hf, suffix, rfl, hs⟩ := of?_eq_some h
  unfold DatabaseRole.ofSuffix? at hs
  split at hs <;> cases hs <;> cases he <;>
  · simp only [DatabaseRole.families, List.mem_cons, List.not_mem_nil, or_false] at hf
    rcases hf with rfl | rfl <;> decide

/-! ## Groups behind connections -/

/-- Where a group begins and ends, and what is inside. -/
structure Outline where
  connection : String
  steps : List Step
  terminal : Option String
  ending : Ending
deriving DecidableEq

def Group.outline (g : Group) : Outline := ⟨g.connection, g.steps, g.terminal, g.ending⟩

/-- The group that a connection begins, when `inside` is what works on rows so
far and `rest` comes behind. The first component of `rest` that opens or ends a
transaction decides: one that opens another leaves no group. -/
def outlineBehind (connection : Component) (inside rest : List Component) : Option Outline :=
  let steps := (inside ++ (rest.takeWhile (!isBoundary ·)).filter worksOnRows).map .ofComponent
  match rest.find? isBoundary with
  | none => some ⟨connection.name, steps, none, .implicitCommit⟩
  | some c =>
    ((DatabaseRole.of? c.kind).bind endingOf?).map (⟨connection.name, steps, some c.name, ·⟩)

/-- The group that the first component begins, if it opens a connection. -/
def outlineAt : List Component → Option Outline
  | [] => none
  | c :: rest =>
    if DatabaseRole.of? c.kind = some .connection then outlineBehind c [] rest else none

/-- The groups that components begin, in their order. -/
def outlines (cs : List Component) : List Outline := cs.tails.filterMap outlineAt

variable {c connection : Component} {cs inside : List Component} {role : DatabaseRole}
  {current : Option (Component × List Component)}

theorem outlines_cons : outlines (c :: cs) = (outlineAt (c :: cs)).toList ++ outlines cs := by
  rw [outlines, List.tails_cons, List.filterMap_cons]
  cases outlineAt (c :: cs) <;> rfl

theorem outlineBehind_of_not_boundary (h : isBoundary c = false) :
    outlineBehind connection inside (c :: cs) =
      outlineBehind connection (inside ++ [c].filter worksOnRows) cs := by
  simp only [outlineBehind, List.find?_cons, List.takeWhile_cons, h, Bool.not_false, if_true,
    List.append_assoc, ← List.filter_append, List.singleton_append]

theorem outlineBehind_of_boundary (h : isBoundary c = true) :
    outlineBehind connection inside (c :: cs) =
      ((DatabaseRole.of? c.kind).bind endingOf?).map
        (⟨connection.name, inside.map .ofComponent, some c.name, ·⟩) := by
  simp only [outlineBehind, List.find?_cons, List.takeWhile_cons, h, Bool.not_true,
    Bool.false_eq_true, if_false, List.filter_nil, List.append_nil]

/-! ## One scan -/

/-- What a component does to a scan: it is passed over, opens a transaction, ends
one or belongs to one. -/
theorem move_cases (c : Component) :
    (DatabaseRole.of? c.kind = none ∧ isBoundary c = false ∧ worksOnRows c = false) ∨
    (DatabaseRole.of? c.kind = some .connection ∧ isBoundary c = true) ∨
    (∃ role e, DatabaseRole.of? c.kind = some role ∧ endingOf? role = some e ∧
      isBoundary c = true) ∨
    (DatabaseRole.of? c.kind ≠ some .connection ∧ isBoundary c = false ∧ worksOnRows c = true) := by
  simp only [isBoundary, worksOnRows]
  cases DatabaseRole.of? c.kind with
  | none => simp
  | some role => cases role <;> simp [endingOf?]

theorem spansFrom_of_no_role (h : DatabaseRole.of? c.kind = none) :
    spansFrom current (c :: cs) = spansFrom current cs := by
  cases current <;> simp only [spansFrom, h]

theorem spansFrom_of_connection (h : DatabaseRole.of? c.kind = some .connection) :
    spansFrom current (c :: cs) = spansFrom (some (c, [])) cs := by
  cases current <;> simp only [spansFrom, h]

theorem spansFrom_of_operation (h : worksOnRows c = true) :
    spansFrom current (c :: cs) = spansFrom (current.map fun s => (s.1, s.2 ++ [c])) cs := by
  simp only [worksOnRows, List.mem_cons, List.not_mem_nil, or_false, decide_eq_true_eq] at h
  rcases h with h | h | h <;> simp [spansFrom, h, DatabaseRole.isOperation]

theorem spansFrom_of_terminal (h : DatabaseRole.of? c.kind = some role) {e : Ending}
    (he : endingOf? role = some e) :
    spansFrom current (c :: cs) =
      (current.map fun s => ⟨s.1, s.2, some c⟩).toList ++ spansFrom none cs := by
  cases role <;> cases he <;> cases current <;> simp [spansFrom, h, DatabaseRole.isOperation]

/-- The group that is open and the groups that begin later, when the scan has
come as far as `cs`. -/
def outlinesFrom (current : Option (Component × List Component)) (cs : List Component) :
    List Outline :=
  (current.bind fun s => outlineBehind s.1 s.2 cs).toList ++ outlines cs

/-- A scan finds the group that is open and those that begin later. -/
theorem outline_spansFrom (current : Option (Component × List Component)) (cs : List Component) :
    (spansFrom current cs).map (fun s => (Group.ofSpan s).outline) = outlinesFrom current cs := by
  induction cs generalizing current with
  | nil =>
    cases current with
    | none => rfl
    | some s =>
      simp [spansFrom, outlinesFrom, outlineBehind, outlines, outlineAt, Group.outline,
        Group.ofSpan]
  | cons c cs ih =>
    rw [outlinesFrom, outlines_cons]
    rcases move_cases c with ⟨hr, hb, hw⟩ | ⟨hr, hb⟩ | ⟨role, e, hr, he, hb⟩ | ⟨hr, hb, hw⟩
    · rw [spansFrom_of_no_role hr, ih]
      simp [outlinesFrom, outlineBehind_of_not_boundary hb, outlineAt, hr, hw]
    · -- Whatever is open is given up without a group.
      rw [spansFrom_of_connection hr, ih]
      cases current <;> simp [outlinesFrom, outlineBehind_of_boundary hb, outlineAt, hr, endingOf?]
    · have hc : role ≠ .connection := by
        rintro rfl
        cases he
      rw [spansFrom_of_terminal hr he, List.map_append, ih]
      cases current <;>
        simp [outlinesFrom, outlineBehind_of_boundary hb, outlineAt, hr, he, hc, Group.outline,
          Group.ofSpan, ofKind_eq hr he]
    · rw [spansFrom_of_operation hw, ih]
      cases current <;>
        simp [outlinesFrom, outlineBehind_of_not_boundary hb, outlineAt, hr, hw]

theorem outline_groups (cs : List Component) :
    (spans cs).map (fun s => (Group.ofSpan s).outline) = outlines cs := by
  rw [spans, outline_spansFrom, outlinesFrom]
  rfl

/-! ## Groups without an end -/

/-- Without a component that opens or ends a transaction there is no group. -/
theorem outlines_eq_nil (h : cs.find? isBoundary = none) : outlines cs = [] := by
  induction cs with
  | nil => rfl
  | cons c cs ih =>
    have hb := List.find?_eq_none.1 h c List.mem_cons_self
    have hc : DatabaseRole.of? c.kind ≠ some .connection := by
      intro hr
      simp [isBoundary, hr] at hb
    have h : cs.find? isBoundary = none :=
      List.find?_eq_none.2 fun x hx => List.find?_eq_none.1 h x (List.mem_cons_of_mem _ hx)
    rw [outlines_cons, outlineAt, if_neg hc, ih h]
    rfl

/-- A group that only the end of the job commits has no boundary behind it. -/
theorem find?_eq_none_of_implicit {o : Outline} (h : outlineAt (c :: cs) = some o)
    (ho : o.ending = .implicitCommit) : cs.find? isBoundary = none := by
  simp only [outlineAt, Option.ite_none_right_eq_some, outlineBehind] at h
  split at h
  · assumption
  · next b hb =>
    obtain ⟨e, he, rfl⟩ := Option.map_eq_some_iff.1 h.2
    obtain ⟨role, -, he⟩ := Option.bind_eq_some_iff.1 he
    cases role <;> cases he <;> cases ho

/-- Only the last group can lack an end. -/
theorem pairwise_outlines (cs : List Component) :
    (outlines cs).Pairwise fun o _ => o.ending ≠ .implicitCommit := by
  induction cs with
  | nil => exact .nil
  | cons c cs ih =>
    rw [outlines_cons]
    cases ho : outlineAt (c :: cs) with
    | none => exact ih
    | some o =>
      refine List.pairwise_cons.2 ⟨fun o' ho' he => ?_, ih⟩
      rw [outlines_eq_nil (find?_eq_none_of_implicit ho he)] at ho'
      cases ho'

/-- Components without a database role have no part in the scan. -/
theorem spansFrom_filter (current : Option (Component × List Component)) (cs : List Component) :
    spansFrom current (cs.filter hasRole) = spansFrom current cs := by
  induction cs generalizing current with
  | nil => rfl
  | cons c cs ih =>
    cases hr : DatabaseRole.of? c.kind with
    | none =>
      rw [List.filter_cons_of_neg (by simp [hasRole, hr]), spansFrom_of_no_role hr, ih]
    | some role =>
      rw [List.filter_cons_of_pos (by simp [hasRole, hr])]
      simp only [spansFrom, hr, ih]

/-! ## The summary of a job -/

/-- What the summary of a job says, if it has one. -/
theorem Summary.eq_of_ofJob? {j : Job} {s : Summary} (h : ofJob? j = some s) :
    s.groups = (spans j.components).map .ofSpan ∧
      s.atomicCount = s.groups.countP (·.requiresAtomicity) ∧
      s.atomicTables = (SortedSet.ofList (s.groups.flatMap (·.tablesModified))).toList := by
  simp only [ofJob?, Option.ite_none_left_eq_some, Option.some.injEq] at h
  obtain ⟨-, rfl⟩ := h
  exact ⟨rfl, rfl, rfl⟩

/-- The summary of a job lists the groups that its connections begin, in their
order, and is missing when there are none. Only the last group can be one that
the end of the job commits. Components without a database role do not matter. -/
theorem summary_ofJob? (j : Job) :
    (Summary.ofJob? j = none ↔ outlines j.components = []) ∧
    (∀ s, Summary.ofJob? j = some s →
      s.groups.map Group.outline = outlines j.components ∧
        s.groups.Pairwise fun g _ => g.ending ≠ .implicitCommit) ∧
    ∀ j' : Job, j'.components.filter hasRole = j.components.filter hasRole →
      Summary.ofJob? j' = Summary.ofJob? j := by
  have hg : ((spans j.components).map Group.ofSpan).map Group.outline = outlines j.components := by
    rw [List.map_map]
    exact outline_groups j.components
  refine ⟨?_, fun s hs => ?_, fun j' h => ?_⟩
  · rw [← hg, List.map_eq_nil_iff, ← List.isEmpty_iff, Summary.ofJob?]
    simp
  · obtain ⟨hgroups, -⟩ := Summary.eq_of_ofJob? hs
    rw [← hgroups] at hg
    refine ⟨hg, ?_⟩
    have hp := pairwise_outlines j.components
    rw [← hg, List.pairwise_map] at hp
    exact hp
  · have e : spans j'.components = spans j.components := by
      rw [spans, spans, ← spansFrom_filter none j'.components, h, spansFrom_filter]
    simp only [Summary.ofJob?, e]

end JobAtlas.Transaction
