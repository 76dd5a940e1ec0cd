import Mathlib.Data.List.Induction
import JobAtlas.Corpus.Basic
import JobAtlas.Proofs.Context.Calls

/-!
# Corpora in batches

The corpus of two batches of jobs follows from the corpora of the batches
(`merge_append`), although each part has a rule of its own for what occurs in
both: of a statement the first copy stays, of a role the last one, and a variable
keeps its first classification under its last declaration.

* `find?_declareAll`: a register knows a name by what it knew before, or else by
  the first declaration;
* `find?_declaredVariables`: the variable of a name, from its first and its last
  declaration.
-/

namespace JobAtlas

open Context (Register Variable)

/-! ## Declared variables -/

/-- The first declaration of a name. -/
def declaration? (ps : List ContextParameter) (name : String) : Option ContextParameter :=
  ps.find? (·.name = name)

theorem declaration?_append (ps qs : List ContextParameter) (name : String) :
    declaration? (ps ++ qs) name = (declaration? ps name).or (declaration? qs name) :=
  List.find?_append

theorem declaration?_singleton (p : ContextParameter) (name : String) :
    declaration? [p] name = if p.name = name then some p else none := by
  by_cases h : p.name = name <;> simp [declaration?, h]

theorem name_of_declaration? {ps : List ContextParameter} {name : String} {p : ContextParameter}
    (h : declaration? ps name = some p) : p.name = name := by
  simpa using List.find?_some h

/-- A name has a last declaration if it has a first one. -/
theorem isSome_declaration?_reverse (ps : List ContextParameter) (name : String) :
    (declaration? ps.reverse name).isSome = (declaration? ps name).isSome := by
  rw [Bool.eq_iff_iff, declaration?, declaration?, List.find?_isSome, List.find?_isSome]
  simp only [List.mem_reverse]

/-- The classification that a declaration asks for. -/
def classification (p : ContextParameter) : Context.Classification :=
  Context.classify p.name p.declaredType

theorem declareAll_append (r : Register) (ps qs : List ContextParameter) :
    r.declareAll (ps ++ qs) =
      ((r.declareAll ps).1 ++ ((r.declareAll ps).2.declareAll qs).1,
        ((r.declareAll ps).2.declareAll qs).2) := by
  induction ps generalizing r with
  | nil => rfl
  | cons p ps ih => simp only [List.cons_append, Register.declareAll, ih]

/-- Declarations leave what calls for their variables leave. -/
theorem snd_declareAll (r : Register) (ps : List ContextParameter) :
    (r.declareAll ps).2 = (r.run (ps.map .declare)).2 := by
  induction ps generalizing r with
  | nil => rfl
  | cons p ps ih => exact ih _

theorem find?_declareAll (r : Register) (ps : List ContextParameter) (name : String) :
    (r.declareAll ps).2.find? name =
      (r.find? name).or ((declaration? ps name).map classification) := by
  rw [snd_declareAll, Register.find?_snd_run, Context.firstCall?, List.find?_map, Option.map_map]
  rfl

theorem declaredVariables_append_singleton (ps : List ContextParameter) (p : ContextParameter) :
    declaredVariables (ps ++ [p]) =
      (declaredVariables ps).insert p.name
        (.ofParameter p (((Register.declareAll ∅ ps).2.classify p.name p.declaredType).1)) := by
  rw [declaredVariables, declareAll_append, List.map_append]
  exact SortedMap.ofList_append_singleton _ _

/-- A variable is what its last declaration says, under the classification that
its first one asks for. -/
theorem find?_declaredVariables (ps : List ContextParameter) (name : String) :
    (declaredVariables ps).find? name =
      (declaration? ps.reverse name).bind fun last =>
        (declaration? ps name).map fun first => .ofParameter last (classification first) := by
  induction ps using List.reverseRecOn with
  | nil => rfl
  | append_singleton ps p ih =>
    rw [declaredVariables_append_singleton, SortedMap.find?_insert, Register.fst_classify,
      find?_declareAll, SortedMap.find?_empty, Option.none_or, List.reverse_append,
      declaration?_append, declaration?_append, List.reverse_singleton, declaration?_singleton]
    by_cases hn : name = p.name
    · subst hn
      cases h : declaration? ps p.name <;> simp [classification]
    · rw [if_neg hn, if_neg (Ne.symm hn), Option.none_or, Option.or_none, ih]

/-- A variable that is declared once more: the declared type and the default value
are those of the later variable. -/
def Context.Variable.redeclared (v w : Variable) : Variable :=
  { v with declaredType := w.declaredType, defaultValue := w.defaultValue }

theorem declaredVariables_append (ps qs : List ContextParameter) :
    declaredVariables (ps ++ qs) =
      SortedMap.mergeWith Variable.redeclared (declaredVariables ps) (declaredVariables qs) := by
  refine SortedMap.ext_find? fun name => ?_
  rw [SortedMap.find?_mergeWith]
  simp only [find?_declaredVariables, List.reverse_append, declaration?_append]
  have hps := isSome_declaration?_reverse ps name
  have hqs := isSome_declaration?_reverse qs name
  cases hp : declaration? ps name with
  | none =>
    rw [hp, Option.isSome_none, Option.isSome_eq_false_iff, Option.isNone_iff_eq_none] at hps
    simp [hps]
  | some first =>
    obtain ⟨last, hl⟩ := Option.isSome_iff_exists.1 (hps.trans (by rw [hp, Option.isSome_some]))
    cases hq : declaration? qs name with
    | none =>
      rw [hq, Option.isSome_none, Option.isSome_eq_false_iff, Option.isNone_iff_eq_none] at hqs
      simp [hqs, hl]
    | some first' =>
      obtain ⟨last', hl'⟩ := Option.isSome_iff_exists.1 (hqs.trans (by rw [hq, Option.isSome_some]))
      have hn : last.name = last'.name :=
        (name_of_declaration? hl).trans (name_of_declaration? hl').symm
      simp [hl, hl', Variable.redeclared, Variable.ofParameter, hn]

/-! ## Corpora -/

namespace Corpus

/-- The corpus of the jobs of two corpora, those of the first one found before. -/
def append (c d : Corpus) : Corpus where
  jobs := c.jobs ++ d.jobs
  roles := c.roles.mergeWith (fun _ role => role) d.roles
  statements := deduplicate (c.statements ++ d.statements)
  expressions := c.expressions ++ d.expressions
  tables := c.tables.union d.tables
  contextVariables := c.contextVariables.mergeWith Variable.redeclared d.contextVariables

theorem roles_merge_append (xs ys : List Survey) :
    (merge (xs ++ ys)).roles = (merge xs).roles.mergeWith (fun _ role => role) (merge ys).roles := by
  refine SortedMap.ext_find? fun name => ?_
  simp only [merge, List.map_append, SortedMap.find?_ofList_append, SortedMap.find?_mergeWith]
  generalize SortedMap.find? _ name = x
  generalize SortedMap.find? _ name = y
  cases x <;> cases y <;> rfl

theorem tables_merge_append (xs ys : List Survey) :
    (merge (xs ++ ys)).tables = (merge xs).tables.union (merge ys).tables := by
  refine SortedSet.ext_mem fun table => ?_
  simp only [merge, List.flatMap_append, SortedSet.mem_union, SortedSet.mem_ofList, List.mem_append]

/-- The corpus of jobs that are found in two batches is put together from the
corpora of the batches: on equal names the later role counts, and a variable of
both is classified as in the first and declared as in the second. -/
theorem merge_append (xs ys : List Survey) :
    merge (xs ++ ys) = (merge xs).append (merge ys) ∧
    ∀ name,
      (merge (xs ++ ys)).roles.find? name =
        ((merge ys).roles.find? name).or ((merge xs).roles.find? name) ∧
      (merge (xs ++ ys)).contextVariables.find? name =
        match (merge xs).contextVariables.find? name, (merge ys).contextVariables.find? name with
        | some v, some w =>
          some { v with declaredType := w.declaredType, defaultValue := w.defaultValue }
        | some v, none => some v
        | none, w? => w? := by
  have hv : (merge (xs ++ ys)).contextVariables =
      (merge xs).contextVariables.mergeWith Variable.redeclared (merge ys).contextVariables := by
    simp only [merge, List.flatMap_append, declaredVariables_append]
  have hs : (merge (xs ++ ys)).statements =
      deduplicate ((merge xs).statements ++ (merge ys).statements) := by
    simp only [merge, List.flatMap_append, deduplicate, distinctBy_append_distinctBy]
  have he : (merge (xs ++ ys)).expressions = (merge xs).expressions ++ (merge ys).expressions :=
    List.flatMap_append
  refine ⟨?_, fun name => ⟨?_, ?_⟩⟩
  · rw [append, ← hv, ← hs, ← he, ← roles_merge_append, ← tables_merge_append]
    rfl
  · simp only [merge, List.map_append, SortedMap.find?_ofList_append]
  · rw [hv, SortedMap.find?_mergeWith]
    cases (merge xs).contextVariables.find? name <;>
      cases (merge ys).contextVariables.find? name <;> rfl

/-- A name, a statement and a variable that come up in both batches, the variable as a
date first. -/
example :
    let query (raw : String) : Sql.Statement :=
      .ofRaw "load" { (default : Component) with kind := "tDBRow", name := "run" } raw
    let first : Survey :=
      { name := "load"
        statements := [query "SELECT x FROM t"]
        tables := .ofList ["t"]
        contextParameters := [⟨"since", "id_Date", "2020-01-01"⟩] }
    let second : Survey :=
      { name := "load"
        hasSubJob := true
        statements := [query "\"SELECT  x FROM t\"", query "DELETE FROM u"]
        tables := .ofList ["u", "t"]
        contextParameters := [⟨"since", "id_Integer", "7"⟩] }
    let c := merge ([first] ++ [second])
    c.roles.entries = [("load", .orchestrator)] ∧
      c.statements.map (·.raw) = ["SELECT x FROM t", "DELETE FROM u"] ∧
      c.tables.toList = ["t", "u"] ∧
      c.contextVariables.values.map (fun v => (v.category, v.declaredType, v.defaultValue)) =
        [(.dateFilter, "id_Integer", "7")] := by
  decide +kernel

end Corpus

end JobAtlas
