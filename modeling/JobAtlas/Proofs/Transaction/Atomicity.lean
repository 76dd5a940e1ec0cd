import JobAtlas.Proofs.Transaction.Spans

/-!
# Which transactions have to be atomic

A transaction has to be atomic when one of its components changes rows, which is a
matter of that component alone (`ChangesRows`), and the tables it modifies are those
of these components and no others.

* `isModifying_outputOperation`: no declared action makes an output read only;
* `isModifying_ofComponent`: the steps that are listed as changing rows;
* `isIn_of_mem_spansFrom`: where the spans of a scan lie in the job;
* `protects_ofJob?`: what these say of the summary of a job.
-/

namespace JobAtlas.Transaction

/-! ## Components that change rows -/

/-- A component changes rows if it writes them, whatever its action, or if it runs
a query that does. -/
def ChangesRows (c : Component) : Prop :=
  DatabaseRole.of? c.kind = some .output ∨
  DatabaseRole.of? c.kind = some .row ∧ ∃ query, c.value? "QUERY" = some query ∧
    Sql.Operation.detect (Sql.clean query) ∈ [.insert, .update, .delete, .merge]

variable {c : Component}

theorem isModifying_iff {o : Sql.Operation} :
    o.isModifying = true ↔ o ∈ [.insert, .update, .delete, .merge] := by
  cases o <;> simp [Sql.Operation.isModifying]

theorem isModifying_outputOperation (action : List Char) :
    (outputOperation action).isModifying = true := by
  unfold outputOperation
  dsimp only
  split_ifs <;> rfl

theorem isModifying_ofComponent (c : Component) :
    (Step.ofComponent c).operation.isModifying = true ↔ ChangesRows c := by
  unfold Step.ofComponent ChangesRows
  cases hr : DatabaseRole.of? c.kind with
  | none => simp [Sql.Operation.isModifying]
  | some role =>
    cases role with
    | output => simp [operationOf, isModifying_outputOperation]
    | row =>
      cases hq : c.value? "QUERY" with
      | none => simp [operationOf, hq, Sql.Operation.isModifying]
      | some query => simp [operationOf, hq, isModifying_iff]
    | _ => simp [operationOf, Sql.Operation.isModifying]

/-! ## Spans in a job -/

/-- A span lies in a row of components: it begins at a connection, and what works
on rows behind it belongs to it, up to the next component that opens or ends a
transaction. -/
def Span.IsIn (s : Span) (cs : List Component) : Prop :=
  DatabaseRole.of? s.connection.kind = some .connection ∧ ∃ rest, s.connection :: rest <:+ cs ∧
    s.inside = (rest.takeWhile (!isBoundary ·)).filter worksOnRows

/-- A span goes on from what is open already. -/
def Span.Continues (s : Span) (current : Option (Component × List Component))
    (cs : List Component) : Prop :=
  ∃ connection inside, current = some (connection, inside) ∧ s.connection = connection ∧
    s.inside = inside ++ (cs.takeWhile (!isBoundary ·)).filter worksOnRows

variable {s : Span} {cs : List Component} {current : Option (Component × List Component)}

theorem Span.IsIn.cons (h : s.IsIn cs) : s.IsIn (c :: cs) := by
  obtain ⟨hr, rest, hs, hi⟩ := h
  exact ⟨hr, rest, hs.trans (List.suffix_cons c cs), hi⟩

/-- A scan finds spans of what is left, and goes on with the one that is open. -/
theorem isIn_of_mem_spansFrom (h : s ∈ spansFrom current cs) :
    s.Continues current cs ∨ s.IsIn cs := by
  induction cs generalizing current with
  | nil =>
    cases current with
    | none => cases h
    | some p =>
      obtain rfl := List.mem_singleton.1 h
      exact .inl ⟨p.1, p.2, rfl, rfl, (List.append_nil _).symm⟩
  | cons c cs ih =>
    rcases move_cases c with ⟨hr, hb, hw⟩ | ⟨hr, hb⟩ | ⟨role, e, hr, he, hb⟩ | ⟨-, hb, hw⟩
    · rw [spansFrom_of_no_role hr] at h
      refine (ih h).imp (fun ⟨connection, inside, hc, hs, hi⟩ => ?_) .cons
      exact ⟨connection, inside, hc, hs, by simp [hi, hb, hw]⟩
    · rw [spansFrom_of_connection hr] at h
      refine .inr ((ih h).elim (fun ⟨connection, inside, hc, hs, hi⟩ => ?_) .cons)
      cases hc
      rw [← hs] at hr ⊢
      exact ⟨hr, cs, by rw [hs], hi⟩
    · rw [spansFrom_of_terminal hr he, List.mem_append, Option.mem_toList] at h
      rcases h with h | h
      · obtain ⟨p, rfl, rfl⟩ := Option.map_eq_some_iff.1 h
        exact .inl ⟨p.1, p.2, rfl, rfl, by simp [hb]⟩
      · refine .inr ((ih h).elim (fun ⟨_, _, hc, _⟩ => ?_) .cons)
        cases hc
    · rw [spansFrom_of_operation hw] at h
      refine (ih h).imp (fun ⟨connection, inside, hc, hs, hi⟩ => ?_) .cons
      obtain ⟨p, rfl, hp⟩ := Option.map_eq_some_iff.1 hc
      cases hp
      exact ⟨p.1, p.2, rfl, hs, by simp [hi, hb, hw]⟩

theorem isIn_of_mem_spans (h : s ∈ spans cs) : s.IsIn cs :=
  (isIn_of_mem_spansFrom h).resolve_left fun ⟨_, _, hc, _⟩ => by cases hc

/-! ## Groups -/

/-- A group says of the components of a span which of them change rows. -/
structure Group.IsOf (g : Group) (s : Span) : Prop where
  connection : g.connection = s.connection.name
  steps : g.steps = s.inside.map .ofComponent
  /-- An output never counts as reading only. -/
  output : ∀ c ∈ s.inside, DatabaseRole.of? c.kind = some .output →
    (Step.ofComponent c).operation ∈ [.insert, .update, .delete, .merge]
  /-- An input counts as nothing else. -/
  input : ∀ c ∈ s.inside, DatabaseRole.of? c.kind = some .input →
    (Step.ofComponent c).operation = .select ∧ ¬ ChangesRows c
  requiresAtomicity : g.requiresAtomicity = true ↔ ∃ c ∈ s.inside, ChangesRows c
  sorted : g.tablesModified.Pairwise (· < ·)
  tablesModified : ∀ t, t ∈ g.tablesModified ↔ ∃ c ∈ s.inside, ChangesRows c ∧ t ∈ tablesOf c

/-- The steps that change rows are those of the components that do. -/
theorem mem_modifying {step : Step} :
    step ∈ (cs.map Step.ofComponent).filter (·.operation.isModifying) ↔
      ∃ c ∈ cs, ChangesRows c ∧ .ofComponent c = step := by
  rw [List.mem_filter, List.mem_map]
  constructor
  · rintro ⟨⟨c, hc, rfl⟩, hm⟩
    exact ⟨c, hc, (isModifying_ofComponent c).1 hm, rfl⟩
  · rintro ⟨c, hc, hm, rfl⟩
    exact ⟨⟨c, hc, rfl⟩, (isModifying_ofComponent c).2 hm⟩

theorem requiresAtomicity_ofSpan :
    (Group.ofSpan s).requiresAtomicity = true ↔ ∃ c ∈ s.inside, ChangesRows c := by
  rw [Group.ofSpan, Bool.not_eq_true', List.isEmpty_eq_false_iff_exists_mem]
  simp only [mem_modifying]
  constructor
  · rintro ⟨_, c, hc, hm, -⟩
    exact ⟨c, hc, hm⟩
  · rintro ⟨c, hc, hm⟩
    exact ⟨_, c, hc, hm, rfl⟩

theorem mem_tablesModified_ofSpan {t : String} :
    t ∈ (Group.ofSpan s).tablesModified ↔ ∃ c ∈ s.inside, ChangesRows c ∧ t ∈ tablesOf c := by
  rw [Group.ofSpan, ← SortedSet.mem_def, SortedSet.mem_ofList, List.mem_flatMap]
  simp only [mem_modifying]
  constructor
  · rintro ⟨_, ⟨c, hc, hm, rfl⟩, ht⟩
    exact ⟨c, hc, hm, ht⟩
  · rintro ⟨c, hc, hm, ht⟩
    exact ⟨_, ⟨c, hc, hm, rfl⟩, ht⟩

theorem isOf_ofSpan (s : Span) : (Group.ofSpan s).IsOf s where
  connection := rfl
  steps := rfl
  output c _ h := isModifying_iff.1 ((isModifying_ofComponent c).2 (.inl h))
  input c _ h := by
    have hs : (Step.ofComponent c).operation = .select := by
      simp only [Step.ofComponent, h, operationOf]
    refine ⟨hs, fun hc => ?_⟩
    rw [← isModifying_ofComponent, hs] at hc
    cases hc
  requiresAtomicity := requiresAtomicity_ofSpan
  sorted := SortedSet.sorted _
  tablesModified _ := mem_tablesModified_ofSpan

/-- A summary lists groups of a job, and says which of them have to be atomic. -/
structure Summary.Protects (s : Summary) (j : Job) : Prop where
  groups : ∀ g ∈ s.groups, ∃ span : Span, span.IsIn j.components ∧ g.IsOf span
  atomicCount : s.atomicCount = (s.groups.filter (·.requiresAtomicity)).length
  sorted : s.atomicTables.Pairwise (· < ·)
  atomicTables : ∀ t, t ∈ s.atomicTables ↔ ∃ g ∈ s.groups, t ∈ g.tablesModified

/-- Each group of a job is made of the components between a connection and the next
component that opens or ends a transaction. It has to be atomic exactly when one of
them writes rows or runs a query that changes them, and modifies the tables of
exactly these. -/
theorem protects_ofJob? {j : Job} {s : Summary} (h : Summary.ofJob? j = some s) :
    s.Protects j := by
  obtain ⟨hgroups, hcount, htables⟩ := Summary.eq_of_ofJob? h
  refine ⟨fun g hg => ?_, ?_, ?_, fun t => ?_⟩
  · rw [hgroups] at hg
    obtain ⟨span, hs, rfl⟩ := List.mem_map.1 hg
    exact ⟨span, isIn_of_mem_spans hs, isOf_ofSpan span⟩
  · rw [hcount, List.countP_eq_length_filter]
  · exact htables ▸ SortedSet.sorted _
  · rw [htables, ← SortedSet.mem_def, SortedSet.mem_ofList, List.mem_flatMap]

/-- An output whose action says that it reads, between an input and two queries. -/
def readingJob : Job where
  name := "load"
  components :=
    [component "tDBConnection" "open" [], component "tDBInput" "read" [("TABLE", "source")],
      component "tDBOutput" "write" [("TABLE", "\"Orders\""), ("DATA_ACTION", "READ ONLY")],
      component "tDBRow" "list" [("QUERY", "SELECT x FROM t")],
      component "tDBRow" "clear" [("QUERY", "DELETE FROM stage")], component "tDBCommit" "end" []]
  parameters := []
  links := []
  contexts := []
where
  /-- A component with texts for parameters. -/
  component (kind name : String) (parameters : List (String × String)) : Component :=
    { kind, name, position := {}, parameters := parameters.map fun p => ⟨p.1, none, p.2, []⟩
      schemas := [], mappers := [], links := [] }

theorem protects_ofJob?_readingJob :
    ∃ s, Summary.ofJob? readingJob = some s ∧ s.Protects readingJob ∧ s.atomicCount = 1 ∧
      s.atomicTables = ["orders", "stage"] := by
  obtain ⟨s, hs⟩ : ∃ s, Summary.ofJob? readingJob = some s :=
    Option.isSome_iff_exists.1 (by decide +kernel)
  refine ⟨s, hs, protects_ofJob? hs, ?_⟩
  have h : ((Summary.ofJob? readingJob).map fun s => (s.atomicCount, s.atomicTables)) =
      some (1, ["orders", "stage"]) := by decide +kernel
  simpa [hs] using h

end JobAtlas.Transaction
