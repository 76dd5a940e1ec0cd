import JobAtlas.Corpus.Extraction
import JobAtlas.Proofs.Source.Shelf

/-!
# Refused documents

A document that defines no job is reported, and that is all (`ofSource_put_refused`):
it takes no name, so that the jobs behind it are called what they would be called
without it, and the corpus and its document are those of the other documents.
-/

namespace JobAtlas

variable {settings : Settings}

theorem Document.ofCorpus_of_not_stamped (hs : settings.output.isStamped = false) (c : Corpus)
    (time time' : String) : ofCorpus c settings time = ofCorpus c settings time' := by
  have ho : Overview.ofCorpus c settings.output time = Overview.ofCorpus c settings.output time' := by
    simp only [Overview.ofCorpus, hs, Bool.false_eq_true, if_false]
  simp only [ofCorpus, ho]

namespace Extraction

theorem ofJobs_of_not_stamped (hs : settings.output.isStamped = false) (jobs : List Job)
    (time time' : String) : ofJobs settings time jobs = ofJobs settings time' jobs := by
  rw [ofJobs, ofJobs, ofCorpus, ofCorpus, Document.ofCorpus_of_not_stamped hs _ time time']

theorem ofSource_shelf (settings : Settings) (time : String) (s : Shelf) :
    ofSource settings time s.source =
      .ok { ofJobs settings time s.loaded.jobs with failures := s.loaded.failures } := by
  rw [ofSource, Shelf.load_source]
  rfl

end Extraction

/-- Refused texts under paths that hold no text leave those that define jobs as they are. -/
theorem Shelf.defining_putAll (s : Shelf) {texts : List (Path × String)}
    (h : ∀ t ∈ texts, s.find? (Path.parts t.1) = none ∧ ∃ name e, Job.parse name t.2 = .error e) :
    (texts.foldl (fun s t => s.put t.1 t.2) s).defining = s.defining := by
  have h : ∀ t ∈ texts, s.defining.find? (Path.parts t.1) = none ∧
      ∃ name e, Job.parse name t.2 = .error e := by
    intro t ht
    rw [find?_defining, (h t ht).1]
    exact ⟨rfl, (h t ht).2⟩
  clear * - h
  -- two of the texts may share a path, so only texts that define jobs are known to be absent
  induction texts generalizing s with
  | nil => rfl
  | cons t texts ih =>
    obtain ⟨hd, name, e, hr⟩ := h t (List.mem_cons_self ..)
    have hput : (s.put t.1 t.2).defining = s.defining := defining_put hr hd
    rw [List.foldl_cons, ih (s.put t.1 t.2) ?_, hput]
    intro u hu
    rw [hput]
    exact h u (List.mem_cons_of_mem _ hu)

theorem Shelf.find?_eq_none_of_read? {s : Shelf} {path : Path} (h : s.read? path = none) :
    s.find? (Path.parts path) = none := Option.map_eq_none_iff.1 h

/-- Without a stamp, a refused text under a new path leaves corpus and document as
they are and stands among the failures in the place of its path. Any number of
refused texts changes the failures only. -/
theorem Extraction.ofSource_put_refused (hs : settings.output.isStamped = false)
    (time time' : String) (texts : List (Path × String)) :
    let shelf := Shelf.ofList texts
    ∃ x, ofSource settings time shelf.source = .ok x ∧
      (∀ path text name e, shelf.read? path = none → Job.parse name text = .error e →
        ∃ before after, x.failures = before ++ after ∧
          ofSource settings time' (shelf.put path text).source =
            .ok { x with failures := before ++ .ofFault (.unparsed path e) :: after } ∧
          (∀ f ∈ before, Path.parts f.path < Path.parts path) ∧
          ∀ f ∈ after, Path.parts path < Path.parts f.path) ∧
      ∀ refused : List (Path × String),
        (∀ t ∈ refused, shelf.read? t.1 = none ∧ ∃ name e, Job.parse name t.2 = .error e) →
        ∃ failures, ofSource settings time' (Shelf.ofList (texts ++ refused)).source =
          .ok { x with failures } := by
  intro shelf
  have hk : shelf.Keyed := Shelf.keyed_ofList texts
  refine ⟨_, ofSource_shelf settings time shelf, fun path text name e hp hr => ?_, fun refused h => ?_⟩
  · have hn : shelf.find? (Path.parts path) = none := Shelf.find?_eq_none_of_read? hp
    have hd : shelf.defining.find? (Path.parts path) = none := by
      rw [Shelf.find?_defining, hn]
      rfl
    have hj : (shelf.put path text).loaded.jobs = shelf.loaded.jobs := by
      rw [Shelf.jobs_loaded (hk.put path text), Shelf.jobs_loaded hk, Shelf.defining_put hr hd]
    obtain ⟨before, after, hf, hf', hlt⟩ := Shelf.failures_put hr hk hn
    refine ⟨before, after, hf, ?_, hlt⟩
    rw [ofSource_shelf, hj, hf', ofJobs_of_not_stamped hs _ time' time]
  · have hl : Shelf.ofList (texts ++ refused) = refused.foldl (fun s t => s.put t.1 t.2) shelf :=
      List.foldl_append
    have hd : (Shelf.ofList (texts ++ refused)).defining = shelf.defining := by
      rw [hl]
      exact shelf.defining_putAll fun t ht => ⟨Shelf.find?_eq_none_of_read? (h t ht).1, (h t ht).2⟩
    have hj : (Shelf.ofList (texts ++ refused)).loaded.jobs = shelf.loaded.jobs := by
      rw [Shelf.jobs_loaded (Shelf.keyed_ofList _), hd, ← Shelf.jobs_loaded hk]
    refine ⟨(Shelf.ofList (texts ++ refused)).loaded.failures, ?_⟩
    rw [ofSource_shelf, hj, ofJobs_of_not_stamped hs _ time' time]

/-- Three documents, one of them refused, with paths of one stem. -/
def loadTexts : List (Path × String) :=
  [("a/Load.item", "<job/>"), ("b/Load.item", "</job>"), ("d/Load.item", "<job/>")]

theorem Extraction.ofSource_put_refused_loadTexts :
    ({} : Settings).output.isStamped = false ∧
    (Shelf.ofList loadTexts).read? "c/Load.item" = none ∧
    Job.parse "Load" "<job>" = .error (.unclosedElement "job") ∧
    ∃ x before after, ofSource {} "" (Shelf.ofList loadTexts).source = .ok x ∧
      x.document.jobs.keys = ["Load", "Load_2"] ∧ x.failures = before ++ after ∧
      ofSource {} "" ((Shelf.ofList loadTexts).put "c/Load.item" "<job>").source = .ok
        { x with failures :=
            before ++ .ofFault (.unparsed "c/Load.item" (.unclosedElement "job")) :: after } := by
  have hs : ({} : Settings).output.isStamped = false := rfl
  have hp : (Shelf.ofList loadTexts).read? "c/Load.item" = none := by decide +kernel
  have hr : Job.parse "Load" "<job>" = .error (.unclosedElement "job") := by decide +kernel
  obtain ⟨x, hx, hput, -⟩ := ofSource_put_refused hs "" "" loadTexts
  obtain ⟨before, after, hf, hx', -⟩ := hput "c/Load.item" "<job>" _ _ hp hr
  have hk : (ofSource {} "" (Shelf.ofList loadTexts).source).map (·.document.jobs.keys) =
      .ok ["Load", "Load_2"] := by decide +kernel
  rw [hx] at hk
  exact ⟨hs, hp, hr, x, before, after, hx, Except.ok.inj hk, hf, hx'⟩

end JobAtlas
