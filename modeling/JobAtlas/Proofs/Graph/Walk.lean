import Mathlib.Data.List.Nodup
import Mathlib.Logic.Relation
import JobAtlas.Graph.Order

/-!
# Walks

What a walk (`walk`) places, and in which order:

* `walk_perm`: a walk that enters all fresh vertices places every vertex once,
  those that it finds fresh, those that it has entered, and those placed before;
* `Walking.run`: when no vertex leads back to itself, no vertex leads to one
  that is placed before it. `Walking` is the invariant that carries this
  through the walk, with one lemma for each of its steps;
* `isSettled_iff`: walks from each vertex in turn, past those before it, meet
  no other vertex when none of them leads to one that stands later.
-/

namespace JobAtlas.Graph

open Relation

variable {κ : Type u} [DecidableEq κ] {next : κ → List κ} {fresh : List κ}
  {tasks : List (Task κ)} {placed : List κ} {u v : κ}

/-! ## Steps -/

namespace Task

def vertex : Task κ → κ
  | enter v | leave v => v

/-- The vertex that is being left. -/
def left? : Task κ → Option κ
  | enter _ => none
  | leave v => some v

end Task

theorem walk_nil : walk next fresh [] placed = placed := by rw [walk]

theorem walk_leave :
    walk next fresh (.leave v :: tasks) placed = walk next fresh tasks (v :: placed) := by
  rw [walk]

theorem walk_enter_fresh (h : v ∈ fresh) :
    walk next fresh (.enter v :: tasks) placed =
      walk next (fresh.erase v) ((next v).map .enter ++ .leave v :: tasks) placed := by
  rw [walk, if_pos h]

theorem walk_enter_stale (h : v ∉ fresh) :
    walk next fresh (.enter v :: tasks) placed = walk next fresh tasks placed := by
  rw [walk, if_neg h]

/-- Vertices that are not fresh are passed over. -/
theorem walk_enter_all_stale {ws : List κ} (h : ∀ w ∈ ws, w ∉ fresh) :
    walk next fresh (ws.map .enter ++ tasks) placed = walk next fresh tasks placed := by
  induction ws with
  | nil => rfl
  | cons w ws ih =>
    rw [List.map_cons, List.cons_append, walk_enter_stale (h w List.mem_cons_self)]
    exact ih fun x hx => h x (List.mem_cons_of_mem _ hx)

/-! ## What a walk places -/

/-- The vertices that have been entered and not left, the last one first. -/
def leaving (tasks : List (Task κ)) : List κ := tasks.filterMap Task.left?

/-- All vertices that a walk has to do with. -/
def ledger (fresh : List κ) (tasks : List (Task κ)) (placed : List κ) : List κ :=
  fresh ++ (leaving tasks ++ placed)

omit [DecidableEq κ] in
theorem leaving_enters (ws : List κ) (tasks : List (Task κ)) :
    leaving (ws.map .enter ++ tasks) = leaving tasks := by
  simp [leaving, List.filterMap_append, List.filterMap_map, Function.comp_def, Task.left?]

omit [DecidableEq κ] in
theorem mem_leaving : v ∈ leaving tasks ↔ Task.leave v ∈ tasks := by
  simp only [leaving, List.mem_filterMap]
  refine ⟨fun ⟨t, ht, e⟩ => ?_, fun h => ⟨_, h, rfl⟩⟩
  cases t with
  | enter w => cases e
  | leave w => cases e; exact ht

omit [DecidableEq κ] in
theorem ledger_leave :
    (ledger fresh (.leave v :: tasks) placed).Perm (ledger fresh tasks (v :: placed)) := by
  have e : leaving (.leave v :: tasks) = v :: leaving tasks := rfl
  rw [ledger, ledger, e]
  exact List.perm_middle.symm.append_left _

omit [DecidableEq κ] in
/-- When a walk begins, all vertices are fresh. -/
theorem ledger_start (vertices : List κ) :
    ledger vertices (vertices.map .enter) [] = vertices := by
  have e : leaving (vertices.map Task.enter) = [] := by
    simpa [leaving] using leaving_enters vertices []
  simp [ledger, e]

theorem ledger_enter_fresh (h : v ∈ fresh) :
    (ledger fresh (.enter v :: tasks) placed).Perm
      (ledger (fresh.erase v) ((next v).map .enter ++ .leave v :: tasks) placed) := by
  have e : leaving ((next v).map .enter ++ .leave v :: tasks) = v :: leaving tasks :=
    leaving_enters _ _
  rw [ledger, ledger, e]
  exact ((List.perm_cons_erase h).append_right _).trans List.perm_middle.symm

omit [DecidableEq κ] in
/-- A vertex that is placed has been left, and was not placed before. -/
theorem not_mem_of_nodup_ledger (h : (ledger fresh tasks (v :: placed)).Nodup) :
    v ∉ leaving tasks ∧ v ∉ placed := by
  have hl : (leaving tasks ++ v :: placed).Nodup := (List.nodup_append.1 h).2.1
  have hv := (List.nodup_cons.1 (List.nodup_middle.1 hl)).1
  simpa using hv

/-- A walk that still enters all fresh vertices places each vertex once. -/
theorem walk_perm (hn : fresh.Nodup) (h : ∀ v ∈ fresh, .enter v ∈ tasks) :
    (walk next fresh tasks placed).Perm (ledger fresh tasks placed) := by
  fun_induction walk next fresh tasks placed with
  | case1 fresh placed =>
    have e : fresh = [] := List.eq_nil_iff_forall_not_mem.2 fun v hv => by cases h v hv
    rw [e]; exact .refl _
  | case2 fresh v tasks placed ih =>
    refine (ih hn fun w hw => ?_).trans ledger_leave.symm
    simpa using h w hw
  | case3 fresh v tasks placed hv ih =>
    refine (ih (hn.erase v) fun w hw => ?_).trans (ledger_enter_fresh hv).symm
    have hw := (hn.mem_erase_iff).1 hw
    have := h w hw.2
    simp only [List.mem_cons, Task.enter.injEq, hw.1, false_or] at this
    exact List.mem_append_right _ (List.mem_cons_of_mem _ this)
  | case4 fresh v tasks placed hv ih =>
    refine ih hn fun w hw => ?_
    have := h w hw
    rcases List.mem_cons.1 this with e | hm
    · cases e; exact absurd hw hv
    · exact hm

/-- What a walk has entered, placed, or is about to enter, it places. -/
theorem mem_walk (h : u ∈ placed ∨ .leave u ∈ tasks ∨ (u ∈ fresh ∧ .enter u ∈ tasks)) :
    u ∈ walk next fresh tasks placed := by
  fun_induction walk next fresh tasks placed with
  | case1 fresh placed => simpa using h
  | case2 fresh v tasks placed ih =>
    refine ih ?_
    simp only [List.mem_cons, Task.leave.injEq, reduceCtorEq, false_or] at h ⊢
    tauto
  | case3 fresh v tasks placed hv ih =>
    refine ih ?_
    by_cases e : u = v
    · exact .inr (.inl (by simp [e]))
    · simp only [List.mem_cons, Task.enter.injEq, reduceCtorEq, false_or, e] at h
      simp only [List.mem_append, List.mem_cons, List.mem_erase_of_ne e]
      tauto
  | case4 fresh v tasks placed hv ih =>
    refine ih ?_
    by_cases e : u = v
    · subst e; simpa [hv] using h
    · simpa [e] using h

/-! ## The order of a walk -/

/-- `a` leads to `b` along one or more edges. -/
abbrev Reaches (next : κ → List κ) : κ → κ → Prop := TransGen fun a b => b ∈ next a

/-- The invariant of a walk. -/
structure Walking (next : κ → List κ) (fresh : List κ) (tasks : List (Task κ))
    (placed : List κ) : Prop where
  nodup : (ledger fresh tasks placed).Nodup
  /-- No vertex is reached from which the walk does not know. -/
  known : ∀ v, ∀ w ∈ next v, w ∈ ledger fresh tasks placed
  /-- A vertex that is being left leads to all that is to be done before. -/
  trail : tasks.Pairwise fun t t' => ∀ v, t' = .leave v → Reaches next v t.vertex
  /-- What follows a vertex that is being left is placed or to be done before. -/
  pending : ∀ v, .leave v ∈ tasks → ∀ w ∈ next v,
    w ∈ placed ∨ ∃ t ∈ tasks.takeWhile (· ≠ .leave v), t.vertex = w
  /-- What follows a placed vertex is placed. -/
  closed : ∀ v ∈ placed, ∀ w ∈ next v, w ∈ placed
  /-- No vertex is followed by one that is placed before it. -/
  forward : placed.Pairwise fun a b => a ∉ next b

namespace Walking

theorem leave (h : Walking next fresh (.leave v :: tasks) placed) :
    Walking next fresh tasks (v :: placed) where
  nodup := ledger_leave.nodup_iff.1 h.nodup
  known u w hw := ledger_leave.mem_iff.1 (h.known u w hw)
  trail := h.trail.of_cons
  pending u hu w hw := by
    have hv := (not_mem_of_nodup_ledger (ledger_leave.nodup_iff.1 h.nodup)).1
    have hne : u ≠ v := by
      rintro rfl
      exact hv (mem_leaving.2 hu)
    rcases h.pending u (List.mem_cons_of_mem _ hu) w hw with hp | ⟨t, ht, e⟩
    · exact .inl (List.mem_cons_of_mem _ hp)
    · rw [List.takeWhile_cons_of_pos (by simpa using hne.symm)] at ht
      rcases List.mem_cons.1 ht with rfl | ht
      · exact .inl (e ▸ List.mem_cons_self)
      · exact .inr ⟨t, ht, e⟩
  closed := by
    have hv : ∀ w ∈ next v, w ∈ placed := fun w hw => by
      simpa using h.pending v List.mem_cons_self w hw
    intro u hu w hw
    rcases List.mem_cons.1 hu with rfl | hu
    · exact List.mem_cons_of_mem _ (hv w hw)
    · exact List.mem_cons_of_mem _ (h.closed u hu w hw)
  forward := by
    have hv := (not_mem_of_nodup_ledger (ledger_leave.nodup_iff.1 h.nodup)).2
    exact .cons (fun u hu hvu => hv (h.closed u hu v hvu)) h.forward

theorem enter_fresh (h : Walking next fresh (.enter v :: tasks) placed) (hv : v ∈ fresh) :
    Walking next (fresh.erase v) ((next v).map .enter ++ .leave v :: tasks) placed where
  nodup := (ledger_enter_fresh hv).nodup_iff.1 h.nodup
  known u w hw := (ledger_enter_fresh hv).mem_iff.1 (h.known u w hw)
  trail := by
    have ht := List.pairwise_cons.1 h.trail
    refine List.pairwise_append.2 ⟨?_, .cons ht.1 ht.2, ?_⟩
    · exact List.pairwise_map.2 (List.pairwise_of_forall fun _ _ _ e => by cases e)
    · intro t ht₁ t' ht' u e
      obtain ⟨w, hw, rfl⟩ := List.mem_map.1 ht₁
      subst e
      rcases List.mem_cons.1 ht' with e | ht'
      · cases e; exact .single hw
      · exact (ht.1 _ ht' u rfl).tail hw
  pending u hu w hw := by
    have hs : ((next v).map Task.enter ++ .leave v :: tasks).takeWhile (· ≠ .leave u) =
        (next v).map .enter ++ (Task.leave v :: tasks).takeWhile (· ≠ .leave u) :=
      List.takeWhile_append_of_pos (by simp)
    rw [hs]
    by_cases e : u = v
    · subst e
      exact .inr ⟨.enter w, List.mem_append_left _ (List.mem_map_of_mem hw), rfl⟩
    · rw [List.takeWhile_cons_of_pos (by simpa using Ne.symm e)]
      have hu : Task.leave u ∈ tasks := by simpa [e] using hu
      rcases h.pending u (List.mem_cons_of_mem _ hu) w hw with hp | ⟨t, ht, e⟩
      · exact .inl hp
      · rw [List.takeWhile_cons_of_pos (by simp)] at ht
        rcases List.mem_cons.1 ht with rfl | ht
        · exact .inr ⟨.leave v, by simp, e⟩
        · exact .inr ⟨t, List.mem_append_right _ (List.mem_cons_of_mem _ ht), e⟩
  closed := h.closed
  forward := h.forward

theorem enter_stale (h : Walking next fresh (.enter v :: tasks) placed) (hv : v ∉ fresh)
    (acyclic : ¬ Reaches next v v) : Walking next fresh tasks placed where
  nodup := h.nodup
  known := h.known
  trail := h.trail.of_cons
  pending u hu w hw := by
    rcases h.pending u (List.mem_cons_of_mem _ hu) w hw with hp | ⟨t, ht, e⟩
    · exact .inl hp
    rw [List.takeWhile_cons_of_pos (by simp)] at ht
    rcases List.mem_cons.1 ht with rfl | ht
    · -- The walk has been at `v` before. It has left `v`, or else `v` would reach itself.
      have e : v = w := e
      subst e
      have hv' : v ∈ ledger fresh tasks placed := h.known u v hw
      rcases (List.mem_append.1 hv').resolve_left hv |> List.mem_append.1 with hl | hp
      · exact absurd ((List.pairwise_cons.1 h.trail).1 _ (mem_leaving.1 hl) v rfl) acyclic
      · exact .inl hp
    · exact .inr ⟨t, ht, e⟩
  closed := h.closed
  forward := h.forward

/-- When no vertex leads back to itself, a walk places each vertex before those
that follow it. -/
theorem run (h : Walking next fresh tasks placed) (acyclic : ∀ v, ¬ Reaches next v v) :
    (walk next fresh tasks placed).Pairwise fun a b => a ∉ next b := by
  fun_induction walk next fresh tasks placed with
  | case1 fresh placed => exact h.forward
  | case2 fresh v tasks placed ih => exact ih h.leave
  | case3 fresh v tasks placed hv ih => exact ih (h.enter_fresh hv)
  | case4 fresh v tasks placed hv ih => exact ih (h.enter_stale hv (acyclic v))

/-- The invariant holds when a walk begins. -/
theorem start {vertices : List κ} (hn : vertices.Nodup)
    (known : ∀ v, ∀ w ∈ next v, w ∈ vertices) :
    Walking next vertices (vertices.map .enter) [] := by
  refine ⟨by rwa [ledger_start], by rwa [ledger_start], ?_, fun v hv => ?_, by simp, .nil⟩
  · exact List.pairwise_map.2 (List.pairwise_of_forall fun _ _ _ e => by cases e)
  · simp at hv

end Walking

/-! ## Walks past the vertices before -/

/-- A walk from one vertex meets no other if those that follow it are not fresh. -/
theorem walk_enter_eq_singleton_iff {vs : List κ} (hv : v ∉ vs) :
    walk next (v :: vs) [.enter v] [] = [v] ↔ ∀ w ∈ next v, w ∉ vs := by
  rw [walk_enter_fresh List.mem_cons_self, List.erase_cons_head]
  constructor
  · intro h w hw hvs
    have hm : w ∈ walk next vs ((next v).map .enter ++ [.leave v]) [] :=
      mem_walk (.inr (.inr ⟨hvs, List.mem_append_left _ (List.mem_map_of_mem hw)⟩))
    rw [h, List.mem_singleton] at hm
    exact hv (hm ▸ hvs)
  · intro h
    rw [walk_enter_all_stale h, walk_leave, walk_nil]

theorem isSettled_iff {vs : List κ} (hn : vs.Nodup) :
    isSettled next vs = true ↔ vs.Pairwise fun a b => b ∉ next a := by
  induction vs with
  | nil => simp [isSettled]
  | cons v vs ih =>
    rw [List.nodup_cons] at hn
    rw [isSettled, Bool.and_eq_true, beq_iff_eq, walk_enter_eq_singleton_iff hn.1, ih hn.2,
      List.pairwise_cons]
    exact and_congr_left' ⟨fun h b hb hm => h b hm hb, fun h w hw hm => h w hm hw⟩

end JobAtlas.Graph
