import Mathlib.Data.List.Nodup
import Mathlib.Data.List.Perm.Subperm
import JobAtlas.Source.Loading

/-!
# Names of loaded jobs

A job takes the stem of its path, or the stem with the least number that makes
it new among the jobs before it (`NamedAfter`). The search for that number ends:
if every number up to one more than there are jobs were taken, so would be the
stem itself, and these are more names than there are jobs
(`exists_numbered_not_mem`).

* `namedAfter_freeName`: the name that a job is given is the one that is due;
* `outcomes_append`: a run goes on behind its first paths with the names of the
  jobs that were loaded from them taken, and no others;
* `settles_outcomes`: each path has the outcome that is due to it;
* `nodup_takenAfter`: no run gives a name twice.
-/

namespace JobAtlas

variable {taken : List String} {stem name text : String}

/-! ## Numbered names -/

theorem toList_numbered (stem : String) (n : Nat) :
    (numbered stem n).toList = stem.toList ++ '_' :: (toString n).toList := by
  simp [numbered]

/-- A number can be read off its decimal digits. -/
theorem numbered_injective (stem : String) : Function.Injective (numbered stem) := by
  intro m n h
  have hl := congrArg String.toList h
  rw [toList_numbered, toList_numbered, List.append_cancel_left_eq, List.cons.injEq] at hl
  have hd := congrArg (fun ds => Nat.ofDigitChars 10 ds 0) hl.2
  simpa [Nat.toString_eq_ofList_toDigits] using hd

theorem numbered_ne_self (stem : String) (n : Nat) : numbered stem n ≠ stem := by
  intro h
  have hl := congrArg (fun s => s.toList.length) h
  simp only [toList_numbered, List.length_append, List.length_cons] at hl
  omega

/-- A free number is not far, for one of the names taken has no number. -/
theorem exists_numbered_not_mem (h : stem ∈ taken) :
    ∃ k, 2 ≤ k ∧ k ≤ taken.length + 1 ∧ numbered stem k ∉ taken := by
  by_contra hc
  have hall : ∀ k, 2 ≤ k → k ≤ taken.length + 1 → numbered stem k ∈ taken :=
    fun k h₂ hk => by_contra fun hn => hc ⟨k, h₂, hk, hn⟩
  let row := (List.range' 2 taken.length).map (numbered stem)
  have hsub : stem :: row ⊆ taken := by
    intro s hs
    rcases List.mem_cons.1 hs with rfl | hs
    · exact h
    · obtain ⟨k, hk, rfl⟩ := List.mem_map.1 hs
      rw [List.mem_range'_1] at hk
      exact hall k hk.1 (by omega)
  have hnodup : (stem :: row).Nodup := by
    refine List.nodup_cons.2 ⟨fun hm => ?_, ?_⟩
    · obtain ⟨k, -, hk⟩ := List.mem_map.1 hm
      exact numbered_ne_self stem k hk
    · exact (List.nodup_range' (h := Nat.one_pos)).map (numbered_injective stem)
  have hle := (List.subperm_of_subset hnodup hsub).length_le
  simp only [row, List.length_cons, List.length_map, List.length_range'] at hle
  omega

/-! ## The name that is due -/

/-- The name of a job behind jobs that have taken some names. -/
inductive NamedAfter (taken : List String) (stem : String) : String → Prop
  /-- The stem, if it is new. -/
  | plain (h : stem ∉ taken) : NamedAfter taken stem stem
  /-- The stem with the least number from 2 on that makes it new. -/
  | withNumber (k : Nat) (h : stem ∈ taken) (h₂ : 2 ≤ k) (hk : k ≤ taken.length + 1)
      (hfree : numbered stem k ∉ taken)
      (hleast : ∀ j, 2 ≤ j → j < k → numbered stem j ∈ taken) :
      NamedAfter taken stem (numbered stem k)

theorem NamedAfter.not_mem (h : NamedAfter taken stem name) : name ∉ taken := by
  cases h with
  | plain h => exact h
  | withNumber _ _ _ _ hfree _ => exact hfree

theorem NamedAfter.of_perm {taken' : List String} (hp : taken.Perm taken')
    (h : NamedAfter taken stem name) : NamedAfter taken' stem name := by
  cases h with
  | plain h => exact .plain fun hm => h (hp.mem_iff.2 hm)
  | withNumber k h h₂ hk hfree hleast =>
    exact .withNumber k (hp.mem_iff.1 h) h₂ (hp.length_eq ▸ hk) (fun hm => hfree (hp.mem_iff.2 hm))
      fun j hj hjk => hp.mem_iff.1 (hleast j hj hjk)

theorem namedAfter_freeName (taken : List String) (stem : String) :
    NamedAfter taken stem (freeName taken stem) := by
  by_cases h : stem ∈ taken
  · obtain ⟨k, h₂, hk, hfree⟩ := exists_numbered_not_mem h
    have hf : (List.range' 2 (taken.length + 1)).find? (fun n => numbered stem n ∉ taken) ≠ none := by
      intro hn
      have hm : k ∈ List.range' 2 (taken.length + 1) := List.mem_range'_1.2 ⟨h₂, by omega⟩
      exact absurd (List.find?_eq_none.1 hn k hm) (by simpa using hfree)
    obtain ⟨i, hi⟩ := Option.ne_none_iff_exists'.1 hf
    have hname : freeName taken stem = numbered stem i := by
      rw [freeName, if_pos h, List.find?_map]
      simp only [Function.comp_def, hi, Option.map_some, Option.getD_some]
    rw [List.find?_range'_eq_some] at hi
    obtain ⟨hif, him, hleast⟩ := hi
    have hleast : ∀ j, 2 ≤ j → j < i → numbered stem j ∈ taken :=
      fun j hj hji => by simpa using hleast j hj hji
    -- the search stops no later than at the number that there has to be
    have hik : i ≤ k := Nat.le_of_not_lt fun hki => hfree (hleast k h₂ hki)
    rw [hname]
    exact .withNumber i h (List.mem_range'_1.1 him).1 (by omega) (by simpa using hif) hleast
  · rw [freeName, if_neg h]
    exact .plain h

/-! ## Reading one job -/

theorem name_of_parse {job : Job} (h : Job.parse name text = .ok job) : job.name = name := by
  rw [Job.parse] at h
  cases he : Element.parse text with
  | error e => simp [he, Except.map] at h
  | ok root =>
    simp only [he, Except.map, Except.ok.injEq] at h
    rw [← h, Job.ofElement]

/-- A document is refused under every name or under none. -/
theorem parse_eq_error_iff {e : Markup.Error} :
    Job.parse name text = .error e ↔ Element.parse text = .error e := by
  rw [Job.parse]
  cases Element.parse text <;> simp [Except.map]

/-- What becomes of a path, behind jobs that have taken some names. -/
inductive Source.Settles (s : Source) (taken : List String) (path : Path) :
    Except LoadFault Job → Prop
  | loaded {text : String} {job : Job} (hr : s.read path = .ok text)
      (hp : Job.parse job.name text = .ok job)
      (hn : NamedAfter taken (Path.jobName path) job.name) : Settles s taken path (.ok job)
  | unread {fault : Source.Fault} (hr : s.read path = .error fault) :
      Settles s taken path (.error (.unread path fault))
  | unparsed {text : String} {e : Markup.Error} (hr : s.read path = .ok text)
      (hp : ∀ name, Job.parse name text = .error e) :
      Settles s taken path (.error (.unparsed path e))

variable {s : Source} {path : Path}

theorem Source.settles_loadJob (s : Source) (hn : NamedAfter taken (Path.jobName path) name) :
    s.Settles taken path (s.loadJob path name) := by
  cases hr : s.read path with
  | error fault =>
    simp only [loadJob, hr]
    exact .unread hr
  | ok text =>
    cases hp : Job.parse name text with
    | error e =>
      simp only [loadJob, hr, hp]
      exact .unparsed hr fun _ => parse_eq_error_iff.2 (parse_eq_error_iff.1 hp)
    | ok job =>
      simp only [loadJob, hr, hp]
      have hj : job.name = name := name_of_parse hp
      exact .loaded hr (hj.symm ▸ hp) (hj.symm ▸ hn)

theorem Source.name_of_loadJob {job : Job} (h : s.loadJob path name = .ok job) :
    job.name = name := by
  simp only [loadJob] at h
  split at h
  · cases h
  · split at h <;> cases h
    exact name_of_parse ‹_›

theorem Source.Settles.of_perm {taken' : List String} {o : Except LoadFault Job}
    (hp : taken.Perm taken') (h : s.Settles taken path o) : s.Settles taken' path o := by
  cases h with
  | loaded hr hj hn => exact .loaded hr hj (hn.of_perm hp)
  | unread hr => exact .unread hr
  | unparsed hr hj => exact .unparsed hr hj

/-! ## Runs -/

/-- The names of the jobs that were loaded. -/
def loadedNames (os : List (Except LoadFault Job)) : List String :=
  (Loaded.ofOutcomes os).jobs.map (·.name)

/-- The names that are taken after a row of outcomes, those given last first. -/
def takenAfter (taken : List String) (os : List (Except LoadFault Job)) : List String :=
  (loadedNames os).reverse ++ taken

theorem takenAfter_append (taken : List String) (os os' : List (Except LoadFault Job)) :
    takenAfter taken (os ++ os') = takenAfter (takenAfter taken os) os' := by
  simp only [takenAfter, loadedNames, Loaded.ofOutcomes, List.filterMap_append, List.map_append,
    List.reverse_append, List.append_assoc]

theorem takenAfter_ok (taken : List String) (job : Job) : takenAfter taken [.ok job] = job.name :: taken :=
  rfl

namespace Source

theorem outcomes_cons (s : Source) (taken : List String) (path : Path) (paths : List Path) :
    s.outcomes taken (path :: paths) =
      let o := s.loadJob path (freeName taken (Path.jobName path))
      o :: s.outcomes (takenAfter taken [o]) paths := by
  simp only [outcomes]
  cases ho : s.loadJob path (freeName taken (Path.jobName path)) with
  | error fault => rfl
  | ok job => simp only [takenAfter_ok, name_of_loadJob ho]

theorem outcomes_append (s : Source) (taken : List String) (xs ys : List Path) :
    s.outcomes taken (xs ++ ys) =
      s.outcomes taken xs ++ s.outcomes (takenAfter taken (s.outcomes taken xs)) ys := by
  induction xs generalizing taken with
  | nil => rfl
  | cons x xs ih =>
    simp only [List.cons_append, outcomes_cons, ih, ← takenAfter_append, List.nil_append]

theorem length_outcomes (s : Source) (taken : List String) (paths : List Path) :
    (s.outcomes taken paths).length = paths.length := by
  induction paths generalizing taken with
  | nil => rfl
  | cons path paths ih => simp only [outcomes_cons, List.length_cons, ih]

theorem nodup_takenAfter (s : Source) (h : taken.Nodup) (paths : List Path) :
    (takenAfter taken (s.outcomes taken paths)).Nodup := by
  induction paths generalizing taken with
  | nil => exact h
  | cons path paths ih =>
    rw [outcomes_cons, ← List.singleton_append, takenAfter_append]
    refine ih ?_
    have hn := namedAfter_freeName taken (Path.jobName path)
    cases ho : s.loadJob path (freeName taken (Path.jobName path)) with
    | error fault => exact h
    | ok job =>
      rw [takenAfter_ok, name_of_loadJob ho]
      exact List.nodup_cons.2 ⟨hn.not_mem, h⟩

/-- A path has the outcome that is due to it behind the jobs from the paths before. -/
theorem settles_outcomes (s : Source) (taken : List String) {paths : List Path} {i : Nat}
    (h : paths[i]? = some path) :
    ∃ o, (s.outcomes taken paths)[i]? = some o ∧
      s.Settles (takenAfter taken ((s.outcomes taken paths).take i)) path o := by
  obtain ⟨before, after, rfl, rfl⟩ : ∃ before after,
      paths = before ++ path :: after ∧ before.length = i := by
    obtain ⟨hi, rfl⟩ := List.getElem?_eq_some_iff.1 h
    refine ⟨paths.take i, paths.drop (i + 1), ?_, List.length_take_of_le (Nat.le_of_lt hi)⟩
    rw [List.getElem_cons_drop, List.take_append_drop]
  have hl : (s.outcomes taken before).length = before.length := s.length_outcomes taken before
  refine ⟨s.loadJob path (freeName (takenAfter taken (s.outcomes taken before)) (Path.jobName path)),
    ?_, ?_⟩
  · simp [outcomes_append, outcomes_cons, ← hl]
  · rw [outcomes_append, ← hl, List.take_left]
    exact s.settles_loadJob (namedAfter_freeName _ _)

/-- Every path of a source gives one job or one failure, in the order of the
paths, and no two jobs have one name. A job is named behind the jobs from earlier
paths; a path that fails does not count among them. -/
theorem load_of_paths {paths : List Path} (h : s.paths = .ok paths) :
    ∃ os : List (Except LoadFault Job),
      s.load = .ok (.ofOutcomes os) ∧ os.length = paths.length ∧ (loadedNames os).Nodup ∧
      ∀ i path, paths[i]? = some path →
        ∃ o, os[i]? = some o ∧ s.Settles (loadedNames (os.take i)) path o := by
  refine ⟨s.outcomes [] paths, ?_, s.length_outcomes [] paths, ?_, fun i path hi => ?_⟩
  · rw [load, h]
    rfl
  · have hn := s.nodup_takenAfter List.nodup_nil paths
    rwa [takenAfter, List.append_nil, List.nodup_reverse] at hn
  · obtain ⟨o, ho, hs⟩ := s.settles_outcomes [] hi
    refine ⟨o, ho, hs.of_perm ?_⟩
    rw [takenAfter, List.append_nil]
    exact List.reverse_perm _

/-- A source where a number that is added to one name makes up another, and one
path cannot be read. -/
def loadSource : Source where
  paths := .ok ["a/Load.item", "b/Load.item", "c/Load.item", "d/Load_2.item", ".."]
  read path := if path = ("b/Load.item" : Path) then .error (.noJob path) else .ok "<job/>"

theorem load_of_paths_loadSource :
    loadSource.paths = .ok ["a/Load.item", "b/Load.item", "c/Load.item", "d/Load_2.item", ".."] ∧
    ∃ os, loadSource.load = .ok (.ofOutcomes os) ∧ (loadedNames os).Nodup ∧
      loadedNames os = ["Load", "Load_2", "Load_2_2", ".."] := by
  obtain ⟨os, hl, -, hn, -⟩ := load_of_paths (s := loadSource) rfl
  have hj : loadSource.load.map (·.jobs.map (·.name)) = .ok ["Load", "Load_2", "Load_2_2", ".."] := by
    decide +kernel
  rw [hl] at hj
  exact ⟨rfl, os, hl, hn, Except.ok.inj hj⟩

end Source

end JobAtlas
