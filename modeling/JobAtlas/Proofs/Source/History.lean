import Mathlib.Data.List.Induction
import JobAtlas.Corpus.Extraction
import JobAtlas.Proofs.Source.Shelf
import JobAtlas.Proofs.Source.Spelling

/-!
# The history of a shelf

What is under a key of a shelf is told by all that was put there: the spelling by the
first text with that key (`map_fst_find?_ofList`), the text by the last one
(`map_snd_find?_ofList`). As keys are paths up to their spelling, a shelf lists each
path once, in order, as it was first written, and reads every spelling of it
(`source_ofList`). Texts under paths that differ make one shelf in any order
(`ofList_perm`).
-/

namespace JobAtlas

open JobAtlas.Path (Respelled)

variable {texts : List (Path × String)} {path : Path} {text : String}

/-! ## First and last texts -/

/-- The path is spelled as it is where it comes first. -/
def IsFirstSpelling (texts : List (Path × String)) (path : Path) : Prop :=
  ∃ before text after, texts = before ++ (path, text) :: after ∧
    ∀ e ∈ before, ¬ Respelled path e.1

/-- The text is the last one under a spelling of the path. -/
def IsLastText (texts : List (Path × String)) (path : Path) (text : String) : Prop :=
  ∃ before spelling after, texts = before ++ (spelling, text) :: after ∧
    Respelled path spelling ∧ ∀ e ∈ after, ¬ Respelled path e.1

/-- A source lists the paths at which texts were put, and reads the texts that were
put there last. -/
structure Source.Holds (s : Source) (texts : List (Path × String)) (paths : List Path) :
    Prop where
  listed : s.paths = .ok paths
  increasing : paths.Pairwise fun p q => Path.parts p < Path.parts q
  once : ∀ e ∈ texts, ∃! path, path ∈ paths ∧ Respelled path e.1
  first : ∀ path ∈ paths, IsFirstSpelling texts path
  last : ∀ e ∈ texts, ∀ path, Respelled path e.1 →
    ∃ text, IsLastText texts path text ∧ s.read path = .ok text
  absent : ∀ path, (∀ e ∈ texts, ¬ Respelled path e.1) →
    ∃ fault, s.read path = .error fault ∧ fault.report = .io ("No such job: " ++ path.shown)

namespace Shelf

/-- The first of the texts with a key. -/
def first? (texts : List (Path × String)) (k : List Path.Part) : Option (Path × String) :=
  texts.find? fun e => k = Path.parts e.1

/-- The last of the texts with a key. -/
def last? (texts : List (Path × String)) (k : List Path.Part) : Option (Path × String) :=
  first? texts.reverse k

theorem first?_append_singleton (texts : List (Path × String)) (e : Path × String)
    (k : List Path.Part) :
    first? (texts ++ [e]) k = (first? texts k).or (if k = Path.parts e.1 then some e else none) := by
  rw [first?, List.find?_append, List.find?_singleton]
  simp only [decide_eq_true_eq]
  rfl

theorem last?_append_singleton (texts : List (Path × String)) (e : Path × String)
    (k : List Path.Part) :
    last? (texts ++ [e]) k = if k = Path.parts e.1 then some e else last? texts k := by
  rw [last?, List.reverse_append, List.reverse_singleton, List.singleton_append, first?,
    List.find?_cons]
  split <;> simp_all [last?, first?]

theorem first?_eq_some_iff {e : Path × String} :
    first? texts (Path.parts path) = some e ↔ Respelled path e.1 ∧
      ∃ before after, texts = before ++ e :: after ∧ ∀ d ∈ before, ¬ Respelled path d.1 := by
  simp only [first?, List.find?_eq_some_iff_append, decide_eq_true_eq, Path.respelled_iff,
    Bool.not_eq_true', decide_eq_false_iff_not]

theorem last?_eq_some_iff {e : Path × String} :
    last? texts (Path.parts path) = some e ↔ Respelled path e.1 ∧
      ∃ before after, texts = before ++ e :: after ∧ ∀ d ∈ after, ¬ Respelled path d.1 := by
  rw [last?, first?_eq_some_iff]
  refine and_congr_right fun _ => ⟨?_, ?_⟩
  · rintro ⟨before, after, ht, hno⟩
    refine ⟨after.reverse, before.reverse, ?_, fun d hd => hno d (List.mem_reverse.1 hd)⟩
    rw [← List.reverse_reverse texts, ht]
    simp
  · rintro ⟨before, after, ht, hno⟩
    refine ⟨after.reverse, before.reverse, ?_, fun d hd => hno d (List.mem_reverse.1 hd)⟩
    rw [ht]
    simp

theorem map_fst_first?_eq_some_iff :
    (first? texts (Path.parts path)).map Prod.fst = some path ↔ IsFirstSpelling texts path := by
  rw [Option.map_eq_some_iff]
  constructor
  · rintro ⟨⟨p, text⟩, he, rfl⟩
    obtain ⟨-, before, after, ht, hno⟩ := first?_eq_some_iff.1 he
    exact ⟨before, text, after, ht, hno⟩
  · rintro ⟨before, text, after, ht, hno⟩
    exact ⟨(path, text), first?_eq_some_iff.2 ⟨.refl path, before, after, ht, hno⟩, rfl⟩

theorem map_snd_last?_eq_some_iff :
    (last? texts (Path.parts path)).map Prod.snd = some text ↔ IsLastText texts path text := by
  rw [Option.map_eq_some_iff]
  constructor
  · rintro ⟨⟨spelling, text⟩, he, rfl⟩
    obtain ⟨hr, before, after, ht, hno⟩ := last?_eq_some_iff.1 he
    exact ⟨before, spelling, after, ht, hr, hno⟩
  · rintro ⟨before, spelling, after, ht, hr, hno⟩
    exact ⟨(spelling, text), last?_eq_some_iff.2 ⟨hr, before, after, ht, hno⟩, rfl⟩

/-! ## What is under a key -/

theorem ofList_append_singleton (texts : List (Path × String)) (e : Path × String) :
    ofList (texts ++ [e]) = (ofList texts).put e.1 e.2 := List.foldl_append

/-- The first text with a key gives the spelling, which later ones do not change. -/
theorem map_fst_find?_ofList (texts : List (Path × String)) (k : List Path.Part) :
    ((ofList texts).find? k).map Prod.fst = (first? texts k).map Prod.fst := by
  induction texts using List.reverseRecOn with
  | nil => rfl
  | append_singleton texts e ih =>
    rw [ofList_append_singleton, find?_put, first?_append_singleton]
    split
    · next hk =>
      rw [← hk, ih]
      cases first? texts k <;> rfl
    · rw [ih, Option.or_none]

/-- The last text with a key is the one that is there. -/
theorem map_snd_find?_ofList (texts : List (Path × String)) (k : List Path.Part) :
    ((ofList texts).find? k).map Prod.snd = (last? texts k).map Prod.snd := by
  induction texts using List.reverseRecOn with
  | nil => rfl
  | append_singleton texts e ih =>
    rw [ofList_append_singleton, find?_put, last?_append_singleton]
    split
    · rfl
    · exact ih

/-! ## Listing and reading -/

/-- A listed path is the spelling that is filed under its parts. -/
theorem Keyed.mem_paths_iff {s : Shelf} (h : s.Keyed) :
    path ∈ s.paths ↔ (s.find? (Path.parts path)).map Prod.fst = some path := by
  rw [paths_eq_map, List.mem_map, Option.map_eq_some_iff]
  constructor
  · rintro ⟨e, he, rfl⟩
    rw [h.parts he]
    exact ⟨e.2, SortedMap.find?_eq_some_iff.2 he, rfl⟩
  · rintro ⟨v, hv, hp⟩
    exact ⟨_, SortedMap.find?_eq_some_iff.1 hv, hp⟩

theorem mem_paths_ofList_iff : path ∈ (ofList texts).paths ↔ IsFirstSpelling texts path := by
  rw [(keyed_ofList texts).mem_paths_iff, map_fst_find?_ofList, map_fst_first?_eq_some_iff]

theorem Keyed.pairwise_paths {s : Shelf} (h : s.Keyed) :
    s.paths.Pairwise fun p q => Path.parts p < Path.parts q := by
  rw [paths_eq_map, List.pairwise_map]
  refine (List.pairwise_map.1 s.sorted).imp_of_mem fun he he' hlt => ?_
  rwa [h.parts he, h.parts he']

theorem read?_ofList_eq_some_iff :
    (ofList texts).read? path = some text ↔ IsLastText texts path text := by
  rw [read?, map_snd_find?_ofList, map_snd_last?_eq_some_iff]

/-- Under a path that differs from all others, nothing is there. -/
theorem read?_ofList_eq_none_iff :
    (ofList texts).read? path = none ↔ ∀ e ∈ texts, ¬ Respelled path e.1 := by
  rw [read?, map_snd_find?_ofList, Option.map_eq_none_iff, last?, first?, List.find?_eq_none]
  simp only [List.mem_reverse, decide_eq_true_eq, Path.respelled_iff]

theorem read_source_of_read? {s : Shelf} (h : s.read? path = some text) :
    s.source.read path = .ok text := by
  simp only [source, h]

theorem holds_source (texts : List (Path × String)) :
    (ofList texts).source.Holds texts (ofList texts).paths where
  listed := rfl
  increasing := (keyed_ofList texts).pairwise_paths
  once := by
    intro e he
    have hk := keyed_ofList texts
    -- there is something under the key of the path, so its spelling is listed
    have hsome : (ofList texts).read? e.1 ≠ none := fun h =>
      read?_ofList_eq_none_iff.1 h e he (.refl e.1)
    obtain ⟨v, hv⟩ := Option.ne_none_iff_exists'.1 fun h => hsome (Option.map_eq_none_iff.2 h)
    have hp : Path.parts v.1 = Path.parts e.1 := hk _ v hv
    have hspelled : ((ofList texts).find? (Path.parts e.1)).map Prod.fst = some v.1 :=
      congrArg (Option.map Prod.fst) hv
    have hlisted : v.1 ∈ (ofList texts).paths := hk.mem_paths_iff.2 (hp ▸ hspelled)
    refine ⟨v.1, ⟨hlisted, Path.respelled_iff.2 hp⟩, fun path ⟨hm, hr⟩ => ?_⟩
    have hpath := hk.mem_paths_iff.1 hm
    rw [hr.parts_eq, hspelled] at hpath
    exact (Option.some.inj hpath).symm
  first path hp := mem_paths_ofList_iff.1 hp
  last e he path hr := by
    obtain ⟨text, ht⟩ := Option.ne_none_iff_exists'.1 fun h =>
      read?_ofList_eq_none_iff.1 h e he hr
    exact ⟨text, read?_ofList_eq_some_iff.1 ht, read_source_of_read? ht⟩
  absent path hno := by
    refine ⟨.noJob path, ?_, rfl⟩
    simp only [source, read?_ofList_eq_none_iff.2 hno]

/-- Texts under paths that differ make the same shelf in any order. -/
theorem ofList_perm {texts' : List (Path × String)} (h : texts.Perm texts')
    (hne : texts.Pairwise fun d e => ¬ Respelled d.1 e.1) : ofList texts' = ofList texts := by
  have hn : (texts.map fun e => Path.parts e.1).Nodup :=
    List.pairwise_map.2 (hne.imp fun hr he => hr (Path.respelled_iff.2 he))
  rw [ofList_eq hn, ofList_eq ((h.map _).nodup_iff.1 hn)]
  refine (SortedMap.ofList_eq_of_perm (h.map _) ?_).symm
  rwa [List.map_map]

/-- After any texts are put on a shelf, it lists each path once, in order, as it was
first written, and each spelling of it leads to the text that came last. The order
of texts does not matter if no two of them are under the same path. -/
theorem source_ofList (texts : List (Path × String)) :
    (∃ paths, (ofList texts).source.Holds texts paths) ∧
    ∀ texts' : List (Path × String), texts.Perm texts' →
      texts.Pairwise (fun d e => ¬ Respelled d.1 e.1) →
      (ofList texts').source.paths = (ofList texts).source.paths ∧
      (∀ path, (ofList texts').source.read path = (ofList texts).source.read path) ∧
      ∀ settings time, Extraction.ofSource settings time (ofList texts').source =
        Extraction.ofSource settings time (ofList texts).source := by
  refine ⟨⟨_, holds_source texts⟩, fun texts' hperm hne => ?_⟩
  rw [ofList_perm hperm hne]
  exact ⟨rfl, fun path => rfl, fun settings time => rfl⟩

example :
    let s := ofList [("a//b", "1"), ("c", "2"), ("a/./b/", "3")]
    s.paths = ["a//b", "c"] ∧ s.read? "a/b" = some "3" ∧ s.read? "b" = none := by
  decide +kernel

/-- Three paths of one stem. -/
def loadPaths : List (Path × String) :=
  [("b//Load.item", "<job/>"), ("a/Load.item", "</job>"), ("./a/Load.item", "<job/>")]

theorem source_ofList_loadPaths :
    loadPaths.Perm loadPaths.reverse ∧
    loadPaths.Pairwise (fun d e => ¬ Respelled d.1 e.1) ∧
    (ofList loadPaths).source.paths = .ok ["./a/Load.item", "a/Load.item", "b//Load.item"] ∧
    (ofList loadPaths.reverse).source.paths = (ofList loadPaths).source.paths ∧
    (ofList loadPaths.reverse).source.read "b/Load.item" =
      (ofList loadPaths).source.read "b/Load.item" ∧
    Extraction.ofSource {} "" (ofList loadPaths.reverse).source =
      Extraction.ofSource {} "" (ofList loadPaths).source := by
  have hperm : loadPaths.Perm loadPaths.reverse := (List.reverse_perm _).symm
  have hne : loadPaths.Pairwise fun d e => ¬ Respelled d.1 e.1 := by decide +kernel
  have hpaths : (ofList loadPaths).paths = ["./a/Load.item", "a/Load.item", "b//Load.item"] := by
    decide +kernel
  obtain ⟨hlisted, hread, hextracted⟩ := (source_ofList loadPaths).2 loadPaths.reverse hperm hne
  exact ⟨hperm, hne, congrArg Except.ok hpaths, hlisted, hread _, hextracted {} ""⟩

end Shelf

end JobAtlas
