import JobAtlas.Proofs.Graph.Walk

/-!
# The order of execution

What the order of a graph is:

* `executionOrder_perm`: it has every vertex once;
* `goesForward_executionOrder`: without a cycle, every edge between vertices goes
  from an earlier to a later place;
* `executionOrder_of_cycle`: with a cycle, it is the vertices as they are given;
* `executionOrder_congr`: other edges have no part in it.
-/

namespace JobAtlas.Graph

open Relation

variable {κ : Type u} [DecidableEq κ] {vertices order : List κ} {edges : List (κ × κ)} {a b : κ}

theorem mem_successors : b ∈ successors edges a ↔ (a, b) ∈ edges := by
  simp [successors]

theorem mem_predecessors : a ∈ predecessors edges b ↔ (a, b) ∈ edges := by
  simp [predecessors]

theorem mem_innerEdges : (a, b) ∈ innerEdges vertices edges ↔
    (a, b) ∈ edges ∧ a ∈ vertices ∧ b ∈ vertices := by
  simp [innerEdges]

theorem walkOrder_perm (hn : vertices.Nodup) : (walkOrder vertices edges).Perm vertices := by
  have h : (walkOrder vertices edges).Perm (ledger vertices (vertices.map .enter) []) :=
    walk_perm hn fun v hv => List.mem_map_of_mem hv
  rwa [ledger_start] at h

/-! ## Edges that go forward -/

/-- Every edge goes from an earlier to a later place. -/
def GoesForward (order : List κ) (edges : List (κ × κ)) : Prop :=
  ∀ a b, (a, b) ∈ edges → order.idxOf a < order.idxOf b

/-- Some vertex leads back to itself. -/
def HasCycle (edges : List (κ × κ)) : Prop := ∃ v, TransGen (fun a b => (a, b) ∈ edges) v v

theorem GoesForward.idxOf_lt (h : GoesForward order edges)
    (hab : TransGen (fun a b => (a, b) ∈ edges) a b) : order.idxOf a < order.idxOf b := by
  induction hab with
  | single hab => exact h _ _ hab
  | tail _ hbc ih => exact Nat.lt_trans ih (h _ _ hbc)

theorem GoesForward.not_hasCycle (h : GoesForward order edges) : ¬ HasCycle edges :=
  fun ⟨_, hv⟩ => absurd (h.idxOf_lt hv) (Nat.lt_irrefl _)

/-- The edges go forward if none stays in place and none leads to a vertex that
stands earlier. -/
theorem goesForward_iff (hn : order.Nodup) (hm : ∀ a b, (a, b) ∈ edges → a ∈ order ∧ b ∈ order) :
    GoesForward order edges ↔
      (∀ v, (v, v) ∉ edges) ∧ order.Pairwise fun a b => (b, a) ∉ edges := by
  constructor
  · intro h
    refine ⟨fun v hv => absurd (h v v hv) (Nat.lt_irrefl _), ?_⟩
    rw [List.pairwise_iff_getElem]
    intro i j hi hj hij he
    have := h _ _ he
    rw [hn.idxOf_getElem, hn.idxOf_getElem] at this
    omega
  · rintro ⟨hs, hp⟩ a b he
    obtain ⟨ha, hb⟩ := hm a b he
    have hi := List.idxOf_lt_length_of_mem ha
    have hj := List.idxOf_lt_length_of_mem hb
    rcases Nat.lt_trichotomy (order.idxOf a) (order.idxOf b) with h | h | h
    · exact h
    · have e : a = b := by
        rw [← List.getElem_idxOf hi, ← List.getElem_idxOf hj]
        simp only [h]
      exact absurd (e ▸ he) (hs b)
    · have := List.pairwise_iff_getElem.1 hp _ _ hj hi h
      rw [List.getElem_idxOf, List.getElem_idxOf] at this
      exact absurd he this

/-- What the walks against the edges check. -/
theorem check_iff (hn : order.Nodup) (hm : ∀ a b, (a, b) ∈ edges → a ∈ order ∧ b ∈ order) :
    (edges.all (fun e => e.1 ≠ e.2) && isSettled (predecessors edges) order) = true ↔
      GoesForward order edges := by
  rw [goesForward_iff hn hm, Bool.and_eq_true, isSettled_iff hn]
  simp only [mem_predecessors]
  refine and_congr_left' ?_
  simp only [List.all_eq_true, decide_eq_true_eq]
  refine ⟨fun h v hv => h _ hv rfl, fun h (a, b) he e => ?_⟩
  have e : a = b := e
  exact h b (e ▸ he)

/-- Without a cycle, the edges go forward in the order of the walk. -/
theorem goesForward_walkOrder (hn : vertices.Nodup)
    (hm : ∀ a b, (a, b) ∈ edges → a ∈ vertices ∧ b ∈ vertices) (hc : ¬ HasCycle edges) :
    GoesForward (walkOrder vertices edges) edges := by
  have hp : (walkOrder vertices edges).Perm vertices := walkOrder_perm hn
  have e : (fun a b => b ∈ successors edges a) = fun a b => (a, b) ∈ edges := by
    funext a b; exact propext mem_successors
  have acyclic : ∀ v, ¬ Reaches (successors edges) v v := fun v hv => hc ⟨v, by rwa [← e]⟩
  have hw : Walking (successors edges) vertices (vertices.map .enter) [] :=
    .start hn fun v w hw => (hm v w (mem_successors.1 hw)).2
  refine (goesForward_iff (hp.nodup_iff.2 hn) fun a b he => ?_).2
    ⟨fun v hv => hc ⟨v, .single hv⟩, ?_⟩
  · exact (hm a b he).imp hp.mem_iff.2 hp.mem_iff.2
  · have h := hw.run acyclic
    simp only [mem_successors] at h
    exact h

/-! ## The order of a graph -/

section Order

variable (hn : vertices.Nodup)
include hn

theorem check_walkOrder_iff :
    ((innerEdges vertices edges).all (fun e => e.1 ≠ e.2) &&
        isSettled (predecessors (innerEdges vertices edges))
          (walkOrder vertices (innerEdges vertices edges))) = true ↔
      ¬ HasCycle (innerEdges vertices edges) := by
  have hp : (walkOrder vertices (innerEdges vertices edges)).Perm vertices := walkOrder_perm hn
  have hm : ∀ a b, (a, b) ∈ innerEdges vertices edges → a ∈ vertices ∧ b ∈ vertices :=
    fun a b he => (mem_innerEdges.1 he).2
  rw [check_iff (hp.nodup_iff.2 hn) fun a b he => (hm a b he).imp hp.mem_iff.2 hp.mem_iff.2]
  exact ⟨GoesForward.not_hasCycle, goesForward_walkOrder hn hm⟩

theorem executionOrder_of_not_cycle (hc : ¬ HasCycle (innerEdges vertices edges)) :
    executionOrder vertices edges = walkOrder vertices (innerEdges vertices edges) :=
  if_pos ((check_walkOrder_iff hn).2 hc)

theorem executionOrder_of_cycle (hc : HasCycle (innerEdges vertices edges)) :
    executionOrder vertices edges = vertices :=
  if_neg fun h => (check_walkOrder_iff hn).1 h hc

theorem executionOrder_perm : (executionOrder vertices edges).Perm vertices := by
  by_cases hc : HasCycle (innerEdges vertices edges)
  · rw [executionOrder_of_cycle hn hc]
  · rw [executionOrder_of_not_cycle hn hc]
    exact walkOrder_perm hn

theorem goesForward_executionOrder (hc : ¬ HasCycle (innerEdges vertices edges)) :
    GoesForward (executionOrder vertices edges) (innerEdges vertices edges) := by
  rw [executionOrder_of_not_cycle hn hc]
  exact goesForward_walkOrder hn (fun a b he => (mem_innerEdges.1 he).2) hc

end Order

example : executionOrder ["b", "a", "c"] [("a", "b"), ("c", "a"), ("b", "x")] =
    ["c", "a", "b"] := by
  cbv

/-- Edges to or from anything but the vertices have no part in the order. -/
theorem executionOrder_congr {edges' : List (κ × κ)}
    (h : innerEdges vertices edges = innerEdges vertices edges') :
    executionOrder vertices edges = executionOrder vertices edges' := by
  simp only [executionOrder, h]

end JobAtlas.Graph
