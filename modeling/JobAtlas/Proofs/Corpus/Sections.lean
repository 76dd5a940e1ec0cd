import Mathlib.Data.Finset.Card
import Mathlib.Data.Finset.Dedup
import JobAtlas.Corpus.Check

/-!
# Sections of checks

Each section goes through its part of a corpus once, and whether something is checked is
a matter of what came before it. `Picks` says so for all three alike: a table or a column
is due while fewer have been counted, a statement while fewer have been looked at, whatever
they are. `sections_checks` says that the checks of a corpus are made of the sections so
picked, and that a limit bears on the end of its own section only.

* `Picks.unique`: what is due determines what is picked;
* `picks_take_filter`: a limit on what is looked at comes before the choice;
* `Picks.take`: a limit on what is kept comes behind it;
* `picks_distinctFrom`: a scan that knows what it has seen finds what is new;
* `checksOn_checks`: the sections can be told apart in the checks.
-/

namespace JobAtlas

open Check (ofTable ofStatement ofColumn)

/-! ## Picking from a list -/

/-- Those elements of the second list are picked that are due behind the elements before
them; the first list has been gone through already. -/
inductive Picks {α : Type} (due : List α → α → Prop) : List α → List α → List α → Prop
  | nil {before : List α} : Picks due before [] []
  | pick {before rest picked : List α} {a : α} (h : due before a)
      (hs : Picks due (before ++ [a]) rest picked) : Picks due before (a :: rest) (a :: picked)
  | skip {before rest picked : List α} {a : α} (h : ¬ due before a)
      (hs : Picks due (before ++ [a]) rest picked) : Picks due before (a :: rest) picked

theorem Picks.unique {α : Type} {due : List α → α → Prop} {before rest ps qs : List α}
    (hp : Picks due before rest ps) (hq : Picks due before rest qs) : ps = qs := by
  induction hp generalizing qs with
  | nil => cases hq; rfl
  | pick h _ ih =>
    cases hq with
    | pick _ hs => rw [ih hs]
    | skip h' _ => exact absurd h h'
  | skip h _ ih =>
    cases hq with
    | pick h' _ => exact absurd h' h
    | skip _ hs => exact ih hs

/-- Of the first elements those are picked that satisfy `p`. -/
theorem picks_take_filter {α : Type} (p : α → Bool) (n : Nat) (before rest : List α) :
    Picks (fun before a => before.length < n ∧ p a = true) before rest
      ((rest.take (n - before.length)).filter p) := by
  induction rest generalizing before with
  | nil =>
    rw [List.take_nil]
    exact .nil
  | cons a rest ih =>
    have ih := ih (before ++ [a])
    rw [List.length_append, List.length_singleton] at ih
    by_cases hn : before.length < n
    · have hsucc : n - before.length = n - (before.length + 1) + 1 := by omega
      rw [hsucc, List.take_succ_cons, List.filter_cons]
      split
      · next ha => exact .pick ⟨hn, ha⟩ ih
      · next ha => exact .skip (fun h => ha h.2) ih
    · have hzero : n - before.length = 0 := by omega
      have hzero' : n - (before.length + 1) = 0 := by omega
      rw [hzero'] at ih
      rw [hzero]
      exact .skip (fun h => hn h.1) ih

/-- What is picked ends at a limit, when `count` tells how many were due. -/
theorem Picks.take {α : Type} {due : List α → α → Prop} {count : List α → Nat}
    (hdue : ∀ before a, due before a → count (before ++ [a]) = count before + 1)
    (hnot : ∀ before a, ¬ due before a → count (before ++ [a]) = count before) (n : Nat)
    {before rest picked : List α} (h : Picks due before rest picked) :
    Picks (fun before a => due before a ∧ count before < n) before rest
      (picked.take (n - count before)) := by
  induction h with
  | nil =>
    rw [List.take_nil]
    exact .nil
  | @pick before _ _ a ha _ ih =>
    rw [hdue before a ha] at ih
    by_cases hn : count before < n
    · have hsucc : n - count before = n - (count before + 1) + 1 := by omega
      rw [hsucc, List.take_succ_cons]
      exact .pick ⟨ha, hn⟩ ih
    · have hzero : n - count before = 0 := by omega
      have hzero' : n - (count before + 1) = 0 := by omega
      rw [hzero', List.take_zero] at ih
      rw [hzero, List.take_zero]
      exact .skip (fun h => hn h.2) ih
  | @skip before _ _ a ha _ ih =>
    rw [hnot before a ha] at ih
    exact .skip (fun h => ha h.1) ih

/-! ## Columns where they come first -/

/-- A column that has a name and has not come before. -/
def IsNew (before : List String) (column : String) : Prop := column ≠ "" ∧ column ∉ before

/-- How many columns have a name among these, each counted once. -/
def namedCount (columns : List String) : Nat := (columns.toFinset.erase "").card

theorem toFinset_append_singleton (before : List String) (column : String) :
    (before ++ [column]).toFinset = insert column before.toFinset := by
  ext x
  simp

theorem namedCount_of_isNew (before : List String) (column : String) (h : IsNew before column) :
    namedCount (before ++ [column]) = namedCount before + 1 := by
  have hnew : column ∉ before.toFinset.erase "" := by simp [h.2]
  rw [namedCount, toFinset_append_singleton, Finset.erase_insert_of_ne h.1,
    Finset.card_insert_of_notMem hnew, namedCount]

theorem namedCount_of_not_isNew (before : List String) (column : String)
    (h : ¬ IsNew before column) : namedCount (before ++ [column]) = namedCount before := by
  rw [namedCount, toFinset_append_singleton]
  by_cases he : column = ""
  · rw [he, Finset.erase_insert_eq_erase, namedCount]
  · have hm : column ∈ before := by
      by_contra hn
      exact h ⟨he, hn⟩
    rw [Finset.insert_eq_of_mem (List.mem_toFinset.2 hm), namedCount]

/-- A scan that has seen the named columns before picks the new ones. -/
theorem picks_distinctFrom {seen before : List String}
    (h : ∀ column ≠ "", column ∈ seen ↔ column ∈ before) (rest : List String) :
    Picks IsNew before rest (distinctFrom id seen (rest.filter (· ≠ ""))) := by
  induction rest generalizing seen before with
  | nil => exact .nil
  | cons column rest ih =>
    by_cases he : column = ""
    · rw [List.filter_cons_of_neg (by simpa using he)]
      refine .skip (fun hnew => hnew.1 he) (ih fun x hx => ?_)
      rw [h x hx, List.mem_append, List.mem_singleton, he, or_iff_left hx]
    · rw [List.filter_cons_of_pos (by simpa using he), distinctFrom]
      show Picks _ _ _ (if column ∈ seen then _ else column :: _)
      by_cases hs : column ∈ seen
      · have hb : column ∈ before := (h column he).1 hs
        rw [if_pos hs]
        refine .skip (fun hnew => hnew.2 hb) (ih fun x hx => ?_)
        rw [h x hx, List.mem_append, List.mem_singleton]
        exact ⟨.inl, fun hx => hx.elim id fun e => e ▸ hb⟩
      · rw [if_neg hs]
        refine .pick ⟨he, fun hb => hs ((h column he).2 hb)⟩ (ih fun x hx => ?_)
        rw [List.mem_cons, id, h x hx, List.mem_append, List.mem_singleton, or_comm]

/-- The first new columns are picked. -/
theorem picks_take_distinct (n : Nat) (columns : List String) :
    Picks (fun before column => IsNew before column ∧ namedCount before < n) [] columns
      ((distinct (columns.filter (· ≠ ""))).take n) := by
  have hpicks : Picks IsNew [] columns (distinct (columns.filter (· ≠ ""))) :=
    picks_distinctFrom (fun _ _ => Iff.rfl) columns
  exact hpicks.take namedCount_of_isNew namedCount_of_not_isNew n

/-! ## Sections by topic -/

/-- What a check is about. -/
inductive Check.Topic where
  | rows
  | schemas
  | nulls
deriving DecidableEq

def Check.topic : Check → Topic
  | rowCount .. => .rows
  | schema .. => .schemas
  | nulls .. => .nulls

/-- The limit on the section of a topic. -/
def Settings.Validation.limit (v : Settings.Validation) : Check.Topic → Nat
  | .rows => v.rowCounts
  | .schemas => v.schemaProbes
  | .nulls => v.nullChecks

/-- The checks of a topic. -/
def checksOn (topic : Check.Topic) (cs : List Check) : List Check := cs.filter (·.topic = topic)

/-- The section of a topic under a limit of its own. -/
def sectionOf (c : Corpus) (limit : Nat) : Check.Topic → List Check
  | .rows => rowChecks c limit
  | .schemas => schemaChecks c limit
  | .nulls => nullChecks c limit

variable {c : Corpus} {topic : Check.Topic}

theorem topic_of_mem_sectionOf {limit : Nat} {check : Check} (h : check ∈ sectionOf c limit topic) :
    check.topic = topic := by
  cases topic <;>
  · obtain ⟨_, -, rfl⟩ := List.mem_map.1 h
    rfl

/-- The section of a topic is what the checks have on it. -/
theorem checksOn_checks (c : Corpus) (s : Settings) (topic : Check.Topic) :
    checksOn topic (checks c s) = sectionOf c (s.validation.limit topic) topic := by
  have hall (u : Check.Topic) : checksOn u (sectionOf c (s.validation.limit u) u) =
      sectionOf c (s.validation.limit u) u :=
    List.filter_eq_self.2 fun check hc => decide_eq_true (topic_of_mem_sectionOf hc)
  have hnone {t u : Check.Topic} (h : u ≠ t) :
      checksOn t (sectionOf c (s.validation.limit u) u) = [] :=
    List.filter_eq_nil_iff.2 fun check hc ht =>
      h ((topic_of_mem_sectionOf hc).symm.trans (of_decide_eq_true ht))
  show checksOn topic (sectionOf c (s.validation.limit .rows) .rows ++
    sectionOf c (s.validation.limit .schemas) .schemas ++
      sectionOf c (s.validation.limit .nulls) .nulls) = _
  rw [checksOn, List.filter_append, List.filter_append, ← checksOn, ← checksOn, ← checksOn]
  cases topic with
  | rows => rw [hall, hnone (by decide), hnone (by decide), List.append_nil, List.append_nil]
  | schemas => rw [hall, hnone (by decide), hnone (by decide), List.nil_append, List.append_nil]
  | nulls => rw [hall, hnone (by decide), hnone (by decide), List.nil_append, List.nil_append]

/-- A section goes on where it ended under a lower limit. -/
theorem sectionOf_prefix {m n : Nat} (h : m ≤ n) : sectionOf c m topic <+: sectionOf c n topic := by
  cases topic with
  | rows => exact (List.take_prefix_take_left h).map _
  | schemas => exact ((List.take_prefix_take_left h).filter _).map _
  | nulls => exact (List.take_prefix_take_left h).map _

/-! ## Checks of a corpus -/

/-- The tables, statements and columns that are checked under limits. -/
structure Picked (c : Corpus) (v : Settings.Validation) (tables : List String)
    (statements : List Sql.Statement) (columns : List String) : Prop where
  /-- The first tables in their order. -/
  tables : Picks (fun before _ => before.length < v.rowCounts) [] c.tables.toList tables
  /-- The selections among the first statements, which count whatever they are. -/
  statements : Picks (fun before a => before.length < v.schemaProbes ∧ a.operation = .select) []
    c.statements statements
  /-- Columns where they come first, while fewer have come. -/
  columns : Picks (fun before a => IsNew before a ∧ namedCount before < v.nullChecks) []
    (c.expressions.map (·.output)) columns

/-- Checks in three sections. -/
def AreChecks (c : Corpus) (v : Settings.Validation) (cs : List Check) : Prop :=
  ∃ tables statements columns, Picked c v tables statements columns ∧
    cs = tables.map ofTable ++ statements.map ofStatement ++ columns.map ofColumn

theorem picked_take (c : Corpus) (v : Settings.Validation) :
    Picked c v (c.tables.toList.take v.rowCounts)
      ((c.statements.take v.schemaProbes).filter (·.operation = .select))
      ((computedColumns c).take v.nullChecks) where
  tables := by simpa using picks_take_filter (fun _ => true) v.rowCounts [] c.tables.toList
  statements := by simpa using picks_take_filter (·.operation = .select) v.schemaProbes [] c.statements
  columns := picks_take_distinct _ _

theorem areChecks_iff {s : Settings} {cs : List Check} :
    AreChecks c s.validation cs ↔ cs = checks c s := by
  have hp := picked_take c s.validation
  constructor
  · rintro ⟨tables, statements, columns, h, rfl⟩
    rw [h.tables.unique hp.tables, h.statements.unique hp.statements, h.columns.unique hp.columns]
    rfl
  · rintro rfl
    exact ⟨_, _, _, hp, rfl⟩

/-- A statement that is no selection comes between two that are, and columns repeat and
lack a name. -/
def mixedCorpus : Corpus where
  statements :=
    [statement "read" .select "SELECT id FROM orders", statement "clear" .delete "DELETE FROM stage",
      statement "list" .select "SELECT id FROM stage"]
  tables := .ofList ["stage", "orders"]
  expressions := ["id", "", "id", "total", "rate"].map column
where
  statement (component : String) (operation : Sql.Operation) (text : String) : Sql.Statement :=
    { job := "load", component, componentKind := "tDBRow", operation, raw := text
      cleaned := text, tables := [], contextVariables := [] }
  column (output : String) : Mapping.Expression := ⟨"load", "map", none, output, "f", "id_String"⟩

/-- Limits on `mixedCorpus`, with `columns` columns. -/
def narrowSettings (columns : Nat) : Settings where
  validation := { rowCounts := 1, schemaProbes := 2, nullChecks := columns }

end JobAtlas
