import JobAtlas.Context.Variable
import JobAtlas.Distinct

/-!
# Calls of a register

A register answers calls one after another, for classifications and for declared
variables (`Register.run`). The type that the first call of a name declares decides
how the name is classified, however the calls of other names come in between
(`answers_of_fresh`).

* `Register.find?_snd_run`: what is on record for a name after a run;
* `Register.fst_run`: every call of a run is answered by what is on record for its
  name when the run is over, since no entry is ever changed;
* `answersTo_eq`: the answers that a name gets, from the calls of this name alone.
-/

namespace JobAtlas.Context

/-! ## Runs -/

/-- The first call of a name. -/
def firstCall? (cs : List Call) (name : String) : Option Call := cs.find? (·.name = name)

namespace Register

theorem run_cons (r : Register) (c : Call) (cs : List Call) :
    r.run (c :: cs) = ((r.call c).1 :: ((r.call c).2.run cs).1, ((r.call c).2.run cs).2) := rfl

/-- A name has its entry from before the run, or else from its first call. -/
theorem find?_snd_run (r : Register) (cs : List Call) (name : String) :
    (r.run cs).2.find? name = (r.find? name).or ((firstCall? cs name).map Call.requested) := by
  induction cs generalizing r with
  | nil => simp [run, firstCall?]
  | cons c cs ih =>
    rw [run_cons, ih, find?_snd_call, Option.or_assoc]
    congr 1
    by_cases hn : c.name = name <;> simp [firstCall?, hn]

/-- An entry stays as it is until the run is over. -/
theorem find?_snd_run_of_some {r : Register} {name : String} {k : Classification}
    (h : r.find? name = some k) (cs : List Call) : (r.run cs).2.find? name = some k := by
  rw [find?_snd_run, h, Option.some_or]

theorem fst_run (r : Register) (cs : List Call) :
    (r.run cs).1 = cs.map fun c => c.answer (((r.run cs).2.find? c.name).getD c.requested) := by
  induction cs generalizing r with
  | nil => rfl
  | cons c cs ih =>
    have hc : (r.call c).2.find? c.name = some ((r.find? c.name).getD c.requested) := by
      rw [find?_snd_call, if_pos rfl]
      cases r.find? c.name <;> rfl
    rw [run_cons, List.map_cons, fst_call, ← ih, find?_snd_run_of_some hc, Option.getD_some]

end Register

/-! ## Fresh registers -/

/-- The answers that a fresh register gives to calls. -/
def answers (cs : List Call) : List Answer := ((∅ : Register).run cs).1

/-- The answers that a name gets from a fresh register. -/
def answersTo (name : String) (cs : List Call) : List Answer :=
  ((cs.zip (answers cs)).filter (·.1.name = name)).map Prod.snd

theorem find?_run_empty (cs : List Call) (name : String) :
    ((∅ : Register).run cs).2.find? name = (firstCall? cs name).map Call.requested := by
  rw [Register.find?_snd_run, SortedMap.find?_empty, Option.none_or]

theorem fst_classify_empty (name declaredType : String) :
    ((∅ : Register).classify name declaredType).1 = Context.classify name declaredType := by
  rw [Register.fst_classify, SortedMap.find?_empty, Option.getD_none]

theorem answers_eq (cs : List Call) : answers cs =
    cs.map fun c => c.answer (((firstCall? cs c.name).map Call.requested).getD c.requested) := by
  rw [answers, Register.fst_run]
  simp only [find?_run_empty]

theorem name_of_firstCall? {cs : List Call} {name : String} {c : Call}
    (h : firstCall? cs name = some c) : c.name = name := by
  simpa using List.find?_some h

theorem exists_firstCall? {cs : List Call} {c : Call} (h : c ∈ cs) :
    ∃ first, firstCall? cs c.name = some first :=
  Option.isSome_iff_exists.1 (List.find?_isSome.2 ⟨c, h, decide_eq_true rfl⟩)

/-- The first call of a name is the first of the calls that have this name. -/
theorem firstCall?_eq_head? (cs : List Call) (name : String) :
    firstCall? cs name = (cs.filter (·.name = name)).head? := by
  rw [firstCall?, List.head?_filter]

theorem answersTo_eq (name : String) (cs : List Call) :
    answersTo name cs = (cs.filter (·.name = name)).map fun c =>
      c.answer (((cs.filter (·.name = name)).head?.map Call.requested).getD c.requested) := by
  have hz (f : Call → Answer) : cs.zip (cs.map f) = cs.map fun c => (c, f c) := by
    rw [← List.zip_map', List.map_id']
  rw [answersTo, answers_eq, hz, List.filter_map, List.map_map]
  refine List.map_congr_left fun c hc => ?_
  have hn : c.name = name := of_decide_eq_true (List.mem_filter.1 hc).2
  simp only [Function.comp_apply, hn, firstCall?_eq_head?]

theorem mem_keys_run_empty {cs : List Call} {name : String} :
    name ∈ ((∅ : Register).run cs).2.keys ↔ name ∈ cs.map (·.name) := by
  rw [SortedMap.mem_keys_iff, find?_run_empty, Option.isSome_map, firstCall?, List.find?_isSome,
    List.mem_map]
  simp only [decide_eq_true_eq]

/-- The names on record are those of the calls, each once. -/
theorem keys_run_empty_perm (cs : List Call) :
    ((∅ : Register).run cs).2.keys.Perm (distinct (cs.map (·.name))) :=
  (List.perm_ext_iff_of_nodup (SortedMap.nodup_keys _) (nodup_distinct _)).2 fun name => by
    rw [mem_keys_run_empty, mem_distinct]

theorem isEmpty_run_empty {cs : List Call} :
    ((∅ : Register).run cs).2.isEmpty = true ↔ cs = [] := by
  have hk : ((∅ : Register).run cs).2.isEmpty = true ↔ ((∅ : Register).run cs).2.keys = [] := by
    rw [SortedMap.isEmpty, SortedMap.keys, List.isEmpty_iff, List.map_eq_nil_iff]
  rw [hk, List.eq_nil_iff_forall_not_mem, List.eq_nil_iff_forall_not_mem]
  simp only [mem_keys_run_empty, List.mem_map]
  constructor
  · intro h c hc
    exact h c.name ⟨c, hc, rfl⟩
  · rintro h name ⟨c, hc, -⟩
    exact h c hc

end JobAtlas.Context
