import JobAtlas.Proofs.Source.Naming
import JobAtlas.Source.Memory

/-!
# Loading from a shelf

On a shelf every text is filed under the parts of its path (`keyed_ofList`), so
that each path that is listed can be read. What is loaded splits by the texts:
the jobs come from the texts that define one (`jobs_loaded`), the failures
from the others, one by one (`failures_loaded`). A refused text that is added
thus takes no part in the jobs (`defining_put`) and stands among the failures in
the place of its path (`failures_put`).
-/

namespace JobAtlas

/-! ## Failures of a source -/

namespace Source

/-- The report on the job at a path, if there is one. -/
def failure? (s : Source) (path : Path) : Option LoadFailure :=
  match s.loadJob path "" with
  | .ok _ => none
  | .error fault => some (.ofFault fault)

/-- A job is loaded or not, whatever name it is to have. -/
theorem failure?_eq (s : Source) (path : Path) (name : String) :
    s.failure? path =
      match s.loadJob path name with
      | .ok _ => none
      | .error fault => some (.ofFault fault) := by
  rw [failure?, loadJob, loadJob]
  cases s.read path with
  | error fault => rfl
  | ok text =>
    simp only [Job.parse]
    cases Element.parse text <;> rfl

theorem failures_outcomes (s : Source) (taken : List String) (paths : List Path) :
    (Loaded.ofOutcomes (s.outcomes taken paths)).failures = paths.filterMap s.failure? := by
  induction paths generalizing taken with
  | nil => rfl
  | cons path paths ih =>
    have hf := s.failure?_eq path (freeName taken (Path.jobName path))
    rw [outcomes_cons, List.filterMap_cons, hf]
    cases s.loadJob path (freeName taken (Path.jobName path)) with
    | error fault => rw [Loaded.failures_ofOutcomes_error, ih]
    | ok job => rw [Loaded.failures_ofOutcomes_ok, ih]

/-- A path that fails has no part in what becomes of the others. -/
theorem jobs_outcomes_filter (s : Source) (taken : List String) (paths : List Path) :
    (Loaded.ofOutcomes (s.outcomes taken (paths.filter fun p => (s.failure? p).isNone))).jobs =
      (Loaded.ofOutcomes (s.outcomes taken paths)).jobs := by
  induction paths generalizing taken with
  | nil => rfl
  | cons path paths ih =>
    have hf := s.failure?_eq path (freeName taken (Path.jobName path))
    rw [outcomes_cons, List.filter_cons, hf]
    cases ho : s.loadJob path (freeName taken (Path.jobName path)) with
    | error fault =>
      rw [Loaded.jobs_ofOutcomes_error]
      exact ih taken
    | ok job =>
      simp only [Option.isNone_none, if_true, outcomes_cons, ho]
      rw [Loaded.jobs_ofOutcomes_ok, Loaded.jobs_ofOutcomes_ok, ih]

theorem outcomes_congr {s s' : Source} {paths : List Path}
    (h : ∀ path ∈ paths, s.read path = s'.read path) (taken : List String) :
    s.outcomes taken paths = s'.outcomes taken paths := by
  induction paths generalizing taken with
  | nil => rfl
  | cons path paths ih =>
    have hl : ∀ name, s.loadJob path name = s'.loadJob path name := by
      intro name
      rw [loadJob, loadJob, h path (List.mem_cons_self ..)]
    simp only [outcomes_cons, hl, ih fun q hq => h q (List.mem_cons_of_mem _ hq)]

end Source

/-! ## Texts and their paths -/

namespace Shelf

/-- Every text is filed under the parts of its path. -/
def Keyed (s : Shelf) : Prop := ∀ k e, s.find? k = some e → Path.parts e.1 = k

theorem find?_put (s : Shelf) (path : Path) (text : String) (k : List Path.Part) :
    (s.put path text).find? k =
      if k = Path.parts path then
        some (((s.find? (Path.parts path)).map Prod.fst).getD path, text)
      else s.find? k := by
  rw [put, SortedMap.update, SortedMap.find?_insert]
  cases s.find? (Path.parts path) <;> rfl

theorem Keyed.put {s : Shelf} (h : s.Keyed) (path : Path) (text : String) : (s.put path text).Keyed := by
  intro k e he
  rw [find?_put] at he
  split at he
  · next hk =>
    cases he
    cases hs : s.find? (Path.parts path) with
    | none => exact hk.symm
    | some e => exact (h _ e hs).trans hk.symm
  · exact h k e he

theorem keyed_ofList (texts : List (Path × String)) : (ofList texts).Keyed := by
  have hf : ∀ s : Shelf, s.Keyed → (texts.foldl (fun s t => s.put t.1 t.2) s).Keyed := by
    induction texts with
    | nil => exact fun s h => h
    | cons t texts ih => exact fun s h => ih _ (h.put t.1 t.2)
  exact hf ∅ fun k e he => by cases he

/-- Texts at paths that differ are filed as they are. -/
theorem ofList_eq {texts : List (Path × String)}
    (hn : (texts.map fun e => Path.parts e.1).Nodup) :
    ofList texts = SortedMap.ofList (texts.map fun e => (Path.parts e.1, e)) := by
  -- no path of what is still to be put has been used
  have hf : ∀ s : Shelf, (∀ e ∈ texts, s.find? (Path.parts e.1) = none) →
      texts.foldl (fun s e => s.put e.1 e.2) s =
        (texts.map fun e => (Path.parts e.1, e)).foldl (fun s e => s.insert e.1 e.2) s := by
    induction texts with
    | nil => exact fun s _ => rfl
    | cons e texts ih =>
      intro s hs
      rw [List.map_cons, List.nodup_cons] at hn
      have hput : s.put e.1 e.2 = s.insert (Path.parts e.1) e := by
        rw [put, SortedMap.update, hs e List.mem_cons_self]
      rw [List.foldl_cons, List.map_cons, List.foldl_cons, hput]
      refine ih hn.2 _ fun e' he' => ?_
      have hne : Path.parts e'.1 ≠ Path.parts e.1 := fun h =>
        hn.1 (List.mem_map.2 ⟨e', he', h⟩)
      rw [SortedMap.find?_insert, if_neg hne]
      exact hs e' (List.mem_cons_of_mem _ he')
  exact hf ∅ fun e _ => rfl

theorem paths_eq_map (s : Shelf) : s.paths = s.entries.map (·.2.1) := List.map_map

variable {s : Shelf}

theorem Keyed.parts (h : s.Keyed) {e : List Path.Part × Path × String} (he : e ∈ s.entries) :
    Path.parts e.2.1 = e.1 :=
  h e.1 e.2 (SortedMap.find?_eq_some_iff.2 he)

/-- Each path that is listed can be read. -/
theorem read_source (h : s.Keyed) {e : List Path.Part × Path × String} (he : e ∈ s.entries) :
    s.source.read e.2.1 = .ok e.2.2 := by
  have hf : s.find? e.1 = some e.2 := SortedMap.find?_eq_some_iff.2 he
  simp only [source, read?, h.parts he, hf, Option.map_some]

/-- What is loaded from a shelf. -/
def loaded (s : Shelf) : Loaded := .ofOutcomes (s.source.outcomes [] s.paths)

theorem load_source (s : Shelf) : s.source.load = .ok s.loaded := rfl

/-! ## Texts that define jobs -/

/-- The report on a text at a path, if it does not define a job. -/
def failure? (e : Path × String) : Option LoadFailure :=
  match Job.parse "" e.2 with
  | .ok _ => none
  | .error error => some (.ofFault (.unparsed e.1 error))

theorem failure?_of_parse {name text : String} {e : Markup.Error}
    (h : Job.parse name text = .error e) (path : Path) :
    failure? (path, text) = some (.ofFault (.unparsed path e)) := by
  have h : Job.parse "" text = .error e := parse_eq_error_iff.2 (parse_eq_error_iff.1 h)
  simp only [failure?, h]

theorem path_of_failure? {e : Path × String} {f : LoadFailure} (h : failure? e = some f) :
    f.path = e.1 := by
  rw [failure?] at h
  split at h <;> cases h
  rfl

theorem failure?_source (h : s.Keyed) {e : List Path.Part × Path × String} (he : e ∈ s.entries) :
    s.source.failure? e.2.1 = failure? e.2 := by
  simp only [Source.failure?, Source.loadJob, read_source h he, failure?]
  cases Job.parse "" e.2.2 <;> rfl

/-- The texts that define jobs. -/
def defining (s : Shelf) : Shelf := s.filter fun _ e => (failure? e).isNone

theorem find?_defining (s : Shelf) (k : List Path.Part) :
    s.defining.find? k = (s.find? k).filter fun e => (failure? e).isNone :=
  SortedMap.find?_filter _ s k

theorem Keyed.defining (h : s.Keyed) : s.defining.Keyed := by
  intro k e he
  rw [find?_defining, Option.filter_eq_some_iff] at he
  exact h k e he.1

theorem paths_defining (h : s.Keyed) :
    s.defining.paths = s.paths.filter fun p => (s.source.failure? p).isNone := by
  rw [paths_eq_map, paths_eq_map, List.filter_map]
  refine congrArg _ (List.filter_congr fun e he => ?_)
  rw [Function.comp_apply, failure?_source h he]

/-- The jobs come from the texts that define them. -/
theorem jobs_loaded (h : s.Keyed) : s.loaded.jobs = s.defining.loaded.jobs := by
  have hr : ∀ path ∈ s.defining.paths, s.defining.source.read path = s.source.read path := by
    intro path hp
    rw [paths_eq_map, List.mem_map] at hp
    obtain ⟨e, he, rfl⟩ := hp
    rw [read_source h.defining he, read_source h (List.mem_of_mem_filter he)]
  rw [loaded, loaded, Source.outcomes_congr hr, paths_defining h, Source.jobs_outcomes_filter]

/-- The failures come from the texts that define no job. -/
theorem failures_loaded (h : s.Keyed) :
    s.loaded.failures = s.entries.filterMap fun e => failure? e.2 := by
  rw [loaded, Source.failures_outcomes, paths_eq_map, List.filterMap_map]
  exact List.filterMap_congr fun e he => failure?_source h he

/-! ## Adding a refused text -/

section Refused

variable {path : Path} {name text : String} {e : Markup.Error} (hr : Job.parse name text = .error e)
include hr

/-- A refused text changes no text that defines a job, unless it replaces one. -/
theorem defining_put (hd : s.defining.find? (Path.parts path) = none) :
    (s.put path text).defining = s.defining := by
  refine SortedMap.ext_find? fun k => ?_
  rw [find?_defining, find?_put]
  split
  · next hk =>
    rw [hk, hd, Option.filter_some, failure?_of_parse hr]
    rfl
  · exact (find?_defining s k).symm

/-- A refused text under a new path is reported in the place of its path. -/
theorem failures_put (h : s.Keyed) (hn : s.find? (Path.parts path) = none) :
    ∃ before after, s.loaded.failures = before ++ after ∧
      (s.put path text).loaded.failures = before ++ .ofFault (.unparsed path e) :: after ∧
      (∀ f ∈ before, Path.parts f.path < Path.parts path) ∧
      ∀ f ∈ after, Path.parts path < Path.parts f.path := by
  have hput : s.put path text = s.insert (Path.parts path) (path, text) := by
    rw [put, SortedMap.update, hn]
  obtain ⟨before, after, hs, hi⟩ := SortedMap.exists_entries_insert hn (path, text)
  -- the keys increase, also where the new one stands between the two parts
  have hlt := (s.insert (Path.parts path) (path, text)).sorted
  rw [hi, List.map_append, List.map_cons, List.pairwise_append, List.pairwise_cons] at hlt
  obtain ⟨-, ⟨hafter, -⟩, hbefore⟩ := hlt
  have hkey : ∀ f, ∀ v ∈ s.entries, failure? v.2 = some f → Path.parts f.path = v.1 := by
    intro f v hv hf
    rw [path_of_failure? hf, h.parts hv]
  refine ⟨before.filterMap fun v => failure? v.2, after.filterMap fun v => failure? v.2, ?_, ?_, ?_, ?_⟩
  · rw [failures_loaded h, hs, List.filterMap_append]
  · rw [failures_loaded (h.put path text), hput, hi, List.filterMap_append, List.filterMap_cons,
      failure?_of_parse hr]
  · intro f hf
    obtain ⟨v, hv, hvf⟩ := List.mem_filterMap.1 hf
    rw [hkey f v (hs ▸ List.mem_append_left _ hv) hvf]
    exact hbefore v.1 (List.mem_map_of_mem hv) _ (List.mem_cons_self ..)
  · intro f hf
    obtain ⟨v, hv, hvf⟩ := List.mem_filterMap.1 hf
    rw [hkey f v (hs ▸ List.mem_append_right _ hv) hvf]
    exact hafter v.1 (List.mem_map_of_mem hv)

end Refused

end Shelf

end JobAtlas
