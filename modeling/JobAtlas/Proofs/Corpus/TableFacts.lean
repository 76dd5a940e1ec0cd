import Mathlib.Data.Finset.Card
import Mathlib.Data.List.Induction
import JobAtlas.Proofs.Corpus.TableUsage

/-!
# Facts about tables

Each statement says of the tables that it names which operation works on them, in
which job and which component (`facts`). The use of tables is what one pass over these
facts collects (`tableUsage_eq_noted`), whatever their order and however often they
are repeated (`tableUsage_of_facts`). Components are told apart by their names alone,
so those of two jobs are counted as one if they have one name
(`componentCount_eq_card_iff`).

* `find?_note`: what one fact adds to what is collected;
* `find?_noted`: what all facts leave for a table.
-/

namespace JobAtlas

open Sql (Statement Operation)

/-- An operation works on a table, in a component of a job. -/
structure TableFact where
  table : String
  operation : Operation
  job : String
  component : String
deriving DecidableEq

/-- What statements say of tables, in the order in which they are read. -/
def facts (ss : List Statement) : List TableFact :=
  ss.flatMap fun s => s.tables.map fun table => ⟨table, s.operation, s.job, s.component⟩

/-- The facts about one table. -/
def factsOn (fs : List TableFact) (table : String) : List TableFact := fs.filter (·.table = table)

variable {ss xs ys : List Statement} {fs gs : List TableFact} {table : String}

theorem facts_append (xs ys : List Statement) : facts (xs ++ ys) = facts xs ++ facts ys :=
  List.flatMap_append

theorem factsOn_append (fs gs : List TableFact) (table : String) :
    factsOn (fs ++ gs) table = factsOn fs table ++ factsOn gs table :=
  List.filter_append ..

theorem mem_facts {f : TableFact} : f ∈ facts ss ↔
    ∃ s ∈ ss, f.table ∈ s.tables ∧ s.operation = f.operation ∧ s.job = f.job ∧
      s.component = f.component := by
  obtain ⟨table, operation, job, component⟩ := f
  simp only [facts, List.mem_flatMap, List.mem_map, TableFact.mk.injEq]
  constructor
  · rintro ⟨s, hs, t, ht, rfl, ho, hj, hc⟩
    exact ⟨s, hs, ht, ho, hj, hc⟩
  · rintro ⟨s, hs, ht, ho, hj, hc⟩
    exact ⟨s, hs, table, ht, rfl, ho, hj, hc⟩

/-- What holds of the users of a table holds of the facts about it. -/
theorem exists_mem_usersOf_iff (ss : List Statement) (table : String)
    (p : Operation → String → String → Prop) :
    (∃ s ∈ usersOf ss table, p s.operation s.job s.component) ↔
      ∃ f ∈ factsOn (facts ss) table, p f.operation f.job f.component := by
  simp only [mem_usersOf, factsOn, List.mem_filter, mem_facts, decide_eq_true_eq]
  constructor
  · rintro ⟨s, ⟨hs, ht⟩, hp⟩
    exact ⟨⟨table, s.operation, s.job, s.component⟩, ⟨⟨s, hs, ht, rfl, rfl, rfl⟩, rfl⟩, hp⟩
  · rintro ⟨f, ⟨⟨s, hs, ht, ho, hj, hc⟩, rfl⟩, hp⟩
    exact ⟨s, ⟨hs, ht⟩, by rwa [ho, hj, hc]⟩

/-! ## One pass -/

/-- What is collected about one table. -/
structure Tally where
  operations : SortedSet String := ∅
  jobs : SortedSet String := ∅
  components : SortedSet String := ∅

namespace Tally

def add (t : Tally) (f : TableFact) : Tally where
  operations := t.operations.insert f.operation.label
  jobs := t.jobs.insert f.job
  components := t.components.insert f.component

def ofFacts (fs : List TableFact) : Tally where
  operations := .ofList (fs.map (·.operation.label))
  jobs := .ofList (fs.map (·.job))
  components := .ofList (fs.map (·.component))

def usage (t : Tally) : TableUsage := ⟨t.operations.toList, t.jobs.toList, t.components.size⟩

theorem ofFacts_append_singleton (fs : List TableFact) (f : TableFact) :
    ofFacts (fs ++ [f]) = (ofFacts fs).add f := by
  simp only [ofFacts, add, List.map_append, List.map_singleton, SortedSet.ofList,
    SortedSet.insertAll, List.foldl_append, List.foldl_cons, List.foldl_nil]

theorem ofFacts_congr (h : ∀ f, f ∈ fs ↔ f ∈ gs) : ofFacts fs = ofFacts gs := by
  have hm (g : TableFact → String) : SortedSet.ofList (fs.map g) = .ofList (gs.map g) :=
    SortedSet.ofList_eq_of_mem_iff fun k => by simp only [List.mem_map, h]
  simp only [ofFacts, hm]

end Tally

/-- Note a fact under its table. -/
def note (m : SortedMap String Tally) (f : TableFact) : SortedMap String Tally :=
  m.update f.table fun t? => (t?.getD {}).add f

/-- Note facts one after another. -/
def noted (fs : List TableFact) : SortedMap String Tally := fs.foldl note ∅

theorem find?_note (m : SortedMap String Tally) (f : TableFact) (table : String) :
    (note m f).find? table =
      if table = f.table then some (((m.find? table).getD {}).add f) else m.find? table := by
  rw [note, SortedMap.update, SortedMap.find?_insert]
  split
  · next h => rw [h]
  · rfl

theorem find?_noted (fs : List TableFact) (table : String) : (noted fs).find? table =
    if factsOn fs table = [] then none else some (.ofFacts (factsOn fs table)) := by
  induction fs using List.reverseRecOn with
  | nil => rfl
  | append_singleton fs f ih =>
    rw [noted, List.foldl_append, List.foldl_cons, List.foldl_nil, ← noted, find?_note, ih,
      factsOn_append]
    by_cases ht : table = f.table
    · have hf : factsOn [f] table = [f] := by simp [factsOn, ht]
      rw [if_pos ht, hf, if_neg (List.append_ne_nil_of_right_ne_nil _ (List.cons_ne_nil f [])),
        Tally.ofFacts_append_singleton]
      split
      · next h => rw [h]; rfl
      · rfl
    · have hf : factsOn [f] table = [] := by simp [factsOn, Ne.symm ht]
      rw [if_neg ht, hf, List.append_nil]

/-- Neither the order nor the repetition of facts matters. -/
theorem noted_congr (h : ∀ f, f ∈ fs ↔ f ∈ gs) : noted fs = noted gs := by
  refine SortedMap.ext_find? fun table => ?_
  have hon : ∀ f, f ∈ factsOn fs table ↔ f ∈ factsOn gs table := fun f => by
    rw [factsOn, factsOn, List.mem_filter, List.mem_filter, h]
  have hnil : factsOn fs table = [] ↔ factsOn gs table = [] := by
    simp only [List.eq_nil_iff_forall_not_mem, hon]
  rw [find?_noted, find?_noted, Tally.ofFacts_congr hon]
  simp only [hnil]

/-! ## The use of tables -/

theorem ofUsers_eq (ss : List Statement) (table : String) :
    TableUsage.ofUsers (usersOf ss table) = (Tally.ofFacts (factsOn (facts ss) table)).usage := by
  have hm (g : Operation → String → String → String) :
      SortedSet.ofList ((usersOf ss table).map fun s => g s.operation s.job s.component) =
        .ofList ((factsOn (facts ss) table).map fun f => g f.operation f.job f.component) :=
    SortedSet.ofList_eq_of_mem_iff fun k => by
      simp only [List.mem_map]
      exact exists_mem_usersOf_iff ss table fun o j c => g o j c = k
  rw [TableUsage.ofUsers, Tally.usage, Tally.ofFacts, hm fun o _ _ => o.label,
    hm fun _ j _ => j, hm fun _ _ c => c]

theorem factsOn_eq_nil_iff : factsOn (facts ss) table = [] ↔ ¬ ∃ s ∈ ss, table ∈ s.tables := by
  have hu := exists_mem_usersOf_iff ss table fun _ _ _ => True
  simp only [mem_usersOf, and_true] at hu
  rw [hu, List.eq_nil_iff_forall_not_mem, not_exists]

/-- The use of tables is what is collected fact by fact. -/
theorem tableUsage_eq_noted (ss : List Statement) :
    tableUsage ss = (noted (facts ss)).mapValues fun _ t => t.usage := by
  refine SortedMap.ext_find? fun table => ?_
  rw [find?_tableUsage, SortedMap.find?_mapValues, find?_noted, ofUsers_eq]
  by_cases hs : ∃ s ∈ ss, table ∈ s.tables
  · rw [if_pos hs, if_neg (factsOn_eq_nil_iff.not.2 (not_not.2 hs)), Option.map_some]
  · rw [if_neg hs, if_pos (factsOn_eq_nil_iff.2 hs), Option.map_none]

theorem eq_ofUsers_of_find? {u : TableUsage} (hu : (tableUsage ss).find? table = some u) :
    u = .ofUsers (usersOf ss table) := by
  rw [find?_tableUsage, Option.ite_none_right_eq_some, Option.some.injEq] at hu
  exact hu.2.symm

/-- The keys of two sets, each once and in order. -/
def sortedUnion (as bs : List String) : List String := (SortedSet.ofList (as ++ bs)).toList

theorem toList_ofList_append (as bs : List String) :
    (SortedSet.ofList (as ++ bs)).toList =
      sortedUnion (SortedSet.ofList as).toList (SortedSet.ofList bs).toList := by
  refine congrArg SortedSet.toList (SortedSet.ofList_eq_of_mem_iff fun k => ?_)
  simp only [List.mem_append, ← SortedSet.mem_def, SortedSet.mem_ofList]

theorem map_operations_append (xs ys : List Statement) (table : String) :
    ((tableUsage (xs ++ ys)).find? table).map (·.operations) =
      Option.merge sortedUnion (((tableUsage xs).find? table).map (·.operations))
        (((tableUsage ys).find? table).map (·.operations)) := by
  simp only [tableUsage_eq_noted, SortedMap.find?_mapValues, find?_noted, facts_append,
    factsOn_append, List.append_eq_nil_iff]
  by_cases hx : factsOn (facts xs) table = [] <;> by_cases hy : factsOn (facts ys) table = []
  · simp [hx, hy]
  · simp [hx, hy]
  · simp [hx, hy]
  · simp [hx, hy, Tally.ofFacts, Tally.usage, toList_ofList_append]

/-- The use of tables depends on nothing but the facts that statements state, in
whatever order and however often. It lists the tables that statements name, with the
operations on each and the jobs in order, and for the statements of two lists together
it joins the operations on a table. -/
theorem tableUsage_of_facts (xs ys : List Statement) :
    ((∀ f, f ∈ facts xs ↔ f ∈ facts ys) → tableUsage xs = tableUsage ys) ∧
    (∀ table, table ∈ (tableUsage xs).keys ↔ ∃ s ∈ xs, table ∈ s.tables) ∧
    (∀ table u, (tableUsage xs).find? table = some u →
      u.operations.Pairwise (· < ·) ∧ u.jobs.Pairwise (· < ·)) ∧
    ∀ table, ((tableUsage (xs ++ ys)).find? table).map (·.operations) =
      Option.merge sortedUnion (((tableUsage xs).find? table).map (·.operations))
        (((tableUsage ys).find? table).map (·.operations)) := by
  refine ⟨fun h => ?_, fun table => mem_keys_tableUsage, fun table u hu => ?_,
    map_operations_append xs ys⟩
  · rw [tableUsage_eq_noted, tableUsage_eq_noted, noted_congr h]
  · rw [eq_ofUsers_of_find? hu]
    exact ⟨SortedSet.sorted _, SortedSet.sorted _⟩

/-! ## Components -/

/-- The components that use a table, each with its job. -/
def componentsOn (ss : List Statement) (table : String) : Finset (String × String) :=
  ((usersOf ss table).map fun s => (s.job, s.component)).toFinset

/-- The components that use a table have different names, also those of two jobs. -/
def DistinctlyNamed (ss : List Statement) (table : String) : Prop :=
  ∀ p ∈ componentsOn ss table, ∀ q ∈ componentsOn ss table, p.2 = q.2 → p = q

instance (ss : List Statement) (table : String) : Decidable (DistinctlyNamed ss table) :=
  inferInstanceAs (Decidable (∀ p ∈ componentsOn ss table, ∀ q ∈ componentsOn ss table,
    p.2 = q.2 → p = q))

theorem size_ofList (ks : List String) : (SortedSet.ofList ks).size = ks.toFinset.card := by
  have he : ks.toFinset = (SortedSet.ofList ks).toList.toFinset := by
    ext k
    rw [List.mem_toFinset, List.mem_toFinset, ← SortedSet.mem_def, SortedSet.mem_ofList]
  rw [he, List.toFinset_card_of_nodup (SortedSet.nodup_toList _), SortedSet.size]

theorem size_ofList_users (g : String × String → String) (ss : List Statement) (table : String) :
    (SortedSet.ofList ((usersOf ss table).map fun s => g (s.job, s.component))).size =
      ((componentsOn ss table).image g).card := by
  rw [size_ofList]
  congr 1
  ext k
  simp [componentsOn]

/-- The number of components is that of their names. It counts every component that
uses a table if and only if no two of them have one name, and then there are no more
jobs than components. -/
theorem componentCount_eq_card_iff {u : TableUsage} (hu : (tableUsage ss).find? table = some u) :
    u.componentCount = ((componentsOn ss table).image Prod.snd).card ∧
    (u.componentCount = (componentsOn ss table).card ↔ DistinctlyNamed ss table) ∧
    (DistinctlyNamed ss table → u.jobs.length ≤ u.componentCount) := by
  have hc : u.componentCount = ((componentsOn ss table).image Prod.snd).card := by
    rw [eq_ofUsers_of_find? hu]
    exact size_ofList_users Prod.snd ss table
  have hj : u.jobs.length = ((componentsOn ss table).image Prod.fst).card := by
    rw [eq_ofUsers_of_find? hu]
    exact size_ofList_users Prod.fst ss table
  have hiff : u.componentCount = (componentsOn ss table).card ↔ DistinctlyNamed ss table := by
    rw [hc, Finset.card_image_iff]
    exact ⟨fun h p hp q hq => h hp hq, fun h p hp q hq => h p hp q hq⟩
  refine ⟨hc, hiff, fun hn => ?_⟩
  rw [hiff.2 hn, hj]
  exact Finset.card_image_le

/-- A query of a component, with the tables that it names. -/
def Sql.Statement.ofQuery (job component sql : String) (tables : List String) : Statement where
  job
  component
  componentKind := "tDBInput"
  operation := .select
  raw := sql
  cleaned := sql
  tables
  contextVariables := []

/-- Two jobs that use a table, through components with two names. -/
def sharedTable : List Statement :=
  [.ofQuery "load" "orders" "SELECT id FROM orders, customers" ["customers", "orders"],
    .ofQuery "report" "totals" "SELECT total FROM orders" ["orders"]]

theorem componentCount_eq_card_iff_sharedTable :
    (tableUsage sharedTable).find? "orders" = some ⟨["SELECT"], ["load", "report"], 2⟩ ∧
    DistinctlyNamed sharedTable "orders" ∧ 2 = (componentsOn sharedTable "orders").card ∧
    ["load", "report"].length ≤ 2 := by
  have hu : (tableUsage sharedTable).find? "orders" =
      some ⟨["SELECT"], ["load", "report"], 2⟩ := by decide
  have hn : DistinctlyNamed sharedTable "orders" := by decide
  obtain ⟨-, hiff, hle⟩ := componentCount_eq_card_iff hu
  exact ⟨hu, hn, hiff.2 hn, hle hn⟩

/-- Two jobs that use a table, through components of one name. -/
def sharedName : List Statement :=
  [.ofQuery "load" "tDBInput_1" "SELECT id FROM orders" ["orders"],
    .ofQuery "report" "tDBInput_1" "SELECT total FROM orders" ["orders"]]

theorem not_card_componentsOn_sharedName :
    (¬ ∀ ss table u, (tableUsage ss).find? table = some u →
      u.componentCount = (componentsOn ss table).card) ∧
    ¬ ∀ ss table u, (tableUsage ss).find? table = some u →
      u.jobs.length ≤ u.componentCount := by
  have hu : (tableUsage sharedName).find? "orders" =
      some ⟨["SELECT"], ["load", "report"], 1⟩ := by decide
  refine ⟨fun h => ?_, fun h => ?_⟩
  · exact absurd (h sharedName "orders" _ hu) (by decide)
  · exact absurd (h sharedName "orders" _ hu) (by decide)

end JobAtlas
