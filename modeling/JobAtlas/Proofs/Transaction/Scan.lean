import JobAtlas.Proofs.Transaction.Spans

/-!
# One scan for the groups

The groups of a job are found in one scan that keeps the group that is open. A
connection opens one in place of any other, the components that work on rows are
pushed into it, and the one that ends it moves it to those that are finished. The
group that is open is that of the components so far (`push_openGroup`), and the scan
finds the groups of the spans (`groups_eq_scanned`).
-/

namespace JobAtlas.Transaction

/-- A group that is open, and the tables that its steps modify so far. -/
structure OpenGroup where
  group : Group
  tables : SortedSet String

namespace OpenGroup

/-- Open the group of a connection. -/
def opened (connection : Component) : OpenGroup where
  group :=
    { connection := connection.name
      autoCommit := autoCommits connection
      useBatch := connection.flag "USE_BATCH"
      batchSize :=
        ((connection.value? "BATCH_SIZE").bind fun v => Text.word64? (settingText v)).getD 0
      steps := []
      tablesModified := []
      requiresAtomicity := false
      terminal := none
      ending := .implicitCommit }
  tables := ∅

/-- Push a component that works on rows. -/
def push (o : OpenGroup) (c : Component) : OpenGroup :=
  let step := Step.ofComponent c
  let group := { o.group with steps := o.group.steps ++ [step] }
  if step.operation.isModifying then
    ⟨{ group with requiresAtomicity := true }, o.tables.insertAll step.tables⟩
  else ⟨group, o.tables⟩

/-- Finish a group at the component that ends it, or at the end of the job. -/
def finish (o : OpenGroup) (terminal? : Option Component) : Group :=
  { o.group with
    tablesModified := o.tables.toList
    terminal := terminal?.map (·.name)
    ending := match terminal? with
      | some c => .ofKind c.kind
      | none => .implicitCommit }

end OpenGroup

/-- How far a scan has come. -/
structure Scan where
  groups : List Group := []
  current : Option OpenGroup := none

namespace Scan

/-- Go past a component. -/
def step (s : Scan) (c : Component) : Scan :=
  match DatabaseRole.of? c.kind with
  | none => s
  | some .connection => { s with current := some (.opened c) }
  | some role =>
    if role.isOperation then { s with current := s.current.map (·.push c) }
    else if role.isTerminal then
      ⟨s.groups ++ (s.current.map (·.finish (some c))).toList, none⟩
    else s

/-- The groups of a scan that has come to the end of the job. -/
def finish (s : Scan) : List Group := s.groups ++ (s.current.map (·.finish none)).toList

end Scan

/-- The groups that one scan finds. -/
def scanned (cs : List Component) : List Group := (cs.foldl Scan.step {}).finish

/-! ## The group that is open -/

/-- The open group of a connection with what works on rows so far. -/
def openGroup (connection : Component) (inside : List Component) : OpenGroup where
  group := { Group.ofSpan ⟨connection, inside, none⟩ with tablesModified := [] }
  tables := .ofList <|
    ((inside.map Step.ofComponent).filter (·.operation.isModifying)).flatMap (·.tables)

variable {c connection : Component} {inside cs : List Component} {role : DatabaseRole} {s : Scan}

theorem push_openGroup :
    (openGroup connection inside).push c = openGroup connection (inside ++ [c]) := by
  rw [OpenGroup.push]
  by_cases hm : (Step.ofComponent c).operation.isModifying = true
  · simp [openGroup, Group.ofSpan, SortedSet.ofList, SortedSet.insertAll, hm]
  · simp [openGroup, Group.ofSpan, hm]

theorem finish_openGroup (terminal? : Option Component) :
    (openGroup connection inside).finish terminal? =
      Group.ofSpan ⟨connection, inside, terminal?⟩ := rfl

/-! ## Steps of a scan -/

theorem step_of_no_role (h : DatabaseRole.of? c.kind = none) : s.step c = s := by
  rw [Scan.step, h]

theorem step_of_connection (h : DatabaseRole.of? c.kind = some .connection) :
    s.step c = { s with current := some (openGroup c []) } := by
  rw [Scan.step, h]
  rfl

theorem step_of_operation (h : worksOnRows c = true) :
    s.step c = { s with current := s.current.map (·.push c) } := by
  simp only [worksOnRows, List.mem_cons, List.not_mem_nil, or_false, decide_eq_true_eq] at h
  rcases h with h | h | h <;> rw [Scan.step, h] <;> rfl

theorem step_of_terminal (h : DatabaseRole.of? c.kind = some role) {e : Ending}
    (he : endingOf? role = some e) :
    s.step c = ⟨s.groups ++ (s.current.map (·.finish (some c))).toList, none⟩ := by
  rw [Scan.step, h]
  cases role <;> cases he <;> rfl

/-- What a scan finds behind what it has found. -/
theorem finish_foldl (groups : List Group) (current : Option (Component × List Component))
    (cs : List Component) :
    (cs.foldl Scan.step ⟨groups, current.map fun s => openGroup s.1 s.2⟩).finish =
      groups ++ (spansFrom current cs).map Group.ofSpan := by
  induction cs generalizing groups current with
  | nil => cases current <;> rfl
  | cons c cs ih =>
    rw [List.foldl_cons]
    rcases move_cases c with ⟨hr, -, -⟩ | ⟨hr, -⟩ | ⟨role, e, hr, he, -⟩ | ⟨-, -, hw⟩
    · rw [step_of_no_role hr, spansFrom_of_no_role hr, ih]
    · rw [step_of_connection hr, spansFrom_of_connection hr]
      exact ih groups (some (c, []))
    · rw [step_of_terminal hr he, spansFrom_of_terminal hr he]
      refine (ih _ none).trans ?_
      cases current <;> simp [finish_openGroup]
    · rw [step_of_operation hw, spansFrom_of_operation hw, ← ih]
      simp only [Option.map_map, Function.comp_def, push_openGroup]

/-- The groups of the spans are those that one scan finds. -/
theorem groups_eq_scanned (cs : List Component) : (spans cs).map Group.ofSpan = scanned cs :=
  (finish_foldl [] none cs).symm

end JobAtlas.Transaction
