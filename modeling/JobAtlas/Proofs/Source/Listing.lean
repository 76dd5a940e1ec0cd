import Mathlib.Data.List.Nodup
import JobAtlas.Proofs.Source.Shelf
import JobAtlas.Source.Directory

/-!
# Directories and shelves

In a well-formed tree the names of a file lead to it from every folder above
(`locateFrom_names`), so that a path made of the root of a directory and the names
from there on is read as the file's text (`readText_join`). A walk comes to each file
below the root once (`WellFormed.nodup_below`), so no two of the paths that are found
have the same parts (`nodup_found`), and put in order they are the same list for every
walk (`paths_eq`). A shelf with the same texts holds them in the same order
(`entries_shelf`), whatever the order in which they were put there, and so loads the
same jobs (`load_eq_shelf`).
-/

namespace JobAtlas

namespace Tree

/-- Files are below folders, are no folders themselves, and are called like files. -/
structure WellFormed (t : Tree) : Prop where
  isName : ∀ place ∈ t.files.keys, ∀ s ∈ place, Path.IsName s
  isFolder_dropLast : ∀ place ∈ t.files.keys ++ t.folders.toList, t.isFolder place.dropLast = true
  not_isFolder : ∀ place ∈ t.files.keys, t.isFolder place = false

instance (t : Tree) : Decidable t.WellFormed :=
  decidable_of_iff
    ((∀ place ∈ t.files.keys, ∀ s ∈ place, Path.IsName s) ∧
      (∀ place ∈ t.files.keys ++ t.folders.toList, t.isFolder place.dropLast = true) ∧
      ∀ place ∈ t.files.keys, t.isFolder place = false)
    ⟨fun ⟨h₁, h₂, h₃⟩ => ⟨h₁, h₂, h₃⟩, fun ⟨h₁, h₂, h₃⟩ => ⟨h₁, h₂, h₃⟩⟩

/-- The text of a file, if it is one. -/
def textAt? (t : Tree) (place : Path.Names) : Option String :=
  (t.files.find? place).bind String.fromUTF8?

variable {t : Tree}

theorem mem_keys_of_textAt? {place : Path.Names} {text : String}
    (h : t.textAt? place = some text) : place ∈ t.files.keys := by
  obtain ⟨content, hc, -⟩ := Option.bind_eq_some_iff.1 h
  exact SortedMap.mem_keys_iff.2 (Option.isSome_of_eq_some hc)

namespace WellFormed

variable (ht : t.WellFormed)
include ht

theorem isFolder_of_append {place names : Path.Names}
    (h : t.isFolder (place ++ names) = true) : t.isFolder place = true := by
  induction names generalizing place with
  | nil => rwa [List.append_nil] at h
  | cons s names ih =>
    have hs : t.isFolder (place ++ [s]) = true := ih (by rwa [List.append_assoc])
    have hm : place ++ [s] ∈ t.folders.toList := by
      simpa [isFolder, SortedSet.mem_def] using hs
    have hf := ht.isFolder_dropLast _ (List.mem_append_right _ hm)
    rwa [List.dropLast_concat] at hf

theorem isFolder_of_mem_keys {place names : Path.Names} (hne : names ≠ [])
    (h : place ++ names ∈ t.files.keys) : t.isFolder place = true := by
  have hf := ht.isFolder_dropLast _ (List.mem_append_left _ h)
  rw [List.dropLast_append_of_ne_nil hne] at hf
  exact ht.isFolder_of_append hf

/-- The names of a file lead to it. -/
theorem locateFrom_names {place names : Path.Names} (hp : t.isFolder place = true)
    (h : place ++ names ∈ t.files.keys) :
    t.locateFrom place (names.map .name) = .ok (place ++ names) := by
  induction names generalizing place with
  | nil => rw [List.append_nil]; rfl
  | cons s names ih =>
    have h' : (place ++ [s]) ++ names ∈ t.files.keys := by rwa [List.append_assoc]
    simp only [List.map_cons, locateFrom, hp, Bool.not_true, Bool.false_eq_true, if_false]
    by_cases hne : names = []
    · subst hne
      have hc : t.isFile (place ++ [s]) = true := SortedMap.contains_iff.2 h
      rw [hc, Bool.or_true, if_pos rfl]
      rfl
    · have hf : t.isFolder (place ++ [s]) = true := ht.isFolder_of_mem_keys hne h'
      rw [hf, Bool.true_or, if_pos rfl, ih hf h', List.append_assoc]
      rfl

end WellFormed

theorem locateFrom_append (place : Path.Names) (ps qs : List Path.Part) :
    t.locateFrom place (ps ++ qs) = (t.locateFrom place ps).bind (t.locateFrom · qs) := by
  induction ps generalizing place with
  | nil => rfl
  | cons p ps ih =>
    cases p with
    | here => exact ih place
    | root => exact ih []
    | up =>
      simp only [List.cons_append, locateFrom]
      split
      · rfl
      · cases place with
        | nil => rfl
        | cons s place => exact ih _
    | name s =>
      simp only [List.cons_append, locateFrom]
      split
      · rfl
      · split
        · exact ih _
        · rfl

/-- What a folder's path leads to is a folder, and no path is empty. -/
theorem of_folder?_eq_some {root : Path} {place : Path.Names}
    (h : t.folder? root = some place) :
    root.bytes ≠ [] ∧ t.locateFrom t.home (Path.parts root) = .ok place ∧ t.isFolder place = true := by
  simp only [folder?, locate] at h
  by_cases hroot : root.bytes = []
  · simp [hroot] at h
  · rw [if_neg hroot] at h
    cases hl : t.locateFrom t.home (Path.parts root) with
    | error fault => simp [hl] at h
    | ok place' =>
      rw [hl] at h
      by_cases hf : t.isFolder place' = true
      · simp only [hf, Bool.not_true, Bool.and_false, Bool.false_eq_true, if_false, if_true,
          Option.some.injEq] at h
        subst h
        exact ⟨hroot, rfl, hf⟩
      · rw [Bool.not_eq_true] at hf
        cases he : endsLikeFolder root <;> simp [hf, he] at h

theorem isFile_iff {place : Path.Names} : t.isFile place = true ↔ place ∈ t.files.keys :=
  SortedMap.contains_iff

theorem mem_below_of_isFile {place names : Path.Names} (h : t.isFile (place ++ names) = true) :
    names ∈ t.below place := by
  by_cases hn : names = []
  · rw [hn]
    exact List.mem_cons_self
  · refine List.mem_cons_of_mem _ (List.mem_map.2 ⟨place ++ names, ?_, List.drop_left⟩)
    refine List.mem_filter.2 ⟨List.mem_append_left _ (isFile_iff.1 h), ?_⟩
    simpa using hn

/-- What is below a folder is there once. -/
theorem WellFormed.nodup_below (ht : t.WellFormed) (place : Path.Names) :
    (t.below place).Nodup := by
  have hall : (t.files.keys ++ t.folders.toList).Nodup := by
    refine List.nodup_append.2 ⟨t.files.nodup_keys, t.folders.nodup_toList, ?_⟩
    rintro names hfile _ hfolder rfl
    have hf := ht.not_isFolder names hfile
    rw [isFolder, Bool.or_eq_false_iff] at hf
    exact absurd hfolder (by simpa [SortedSet.mem_def] using hf.2)
  -- what is below begins with the names of the folder, and goes on behind them
  have hbelow : ∀ names ∈ (t.files.keys ++ t.folders.toList).filter fun names =>
      place.isPrefixOf names && place ≠ names, ∃ s rest, names = place ++ s :: rest := by
    intro names hm
    simp only [List.mem_filter, Bool.and_eq_true, List.isPrefixOf_iff_prefix, decide_eq_true_eq] at hm
    obtain ⟨-, ⟨rest, rfl⟩, hne⟩ := hm
    obtain ⟨s, rest, rfl⟩ := List.exists_cons_of_ne_nil fun h : rest = [] => hne (by simp [h])
    exact ⟨s, rest, rfl⟩
  refine List.nodup_cons.2 ⟨fun h => ?_, List.Nodup.map_on (fun x hx y hy hxy => ?_) (hall.filter _)⟩
  · obtain ⟨names, hm, he⟩ := List.mem_map.1 h
    obtain ⟨s, rest, rfl⟩ := hbelow names hm
    rw [List.drop_left] at he
    cases he
  · obtain ⟨s, rest, rfl⟩ := hbelow x hx
    obtain ⟨s', rest', rfl⟩ := hbelow y hy
    rw [List.drop_left, List.drop_left] at hxy
    rw [hxy]

section Below

variable (ht : t.WellFormed) {root : Path} {place names : Path.Names}
  (hroot : t.folder? root = some place) (h : place ++ names ∈ t.files.keys)
include ht hroot h

theorem ne_nil_of_below : names ≠ [] := by
  rintro rfl
  rw [List.append_nil] at h
  exact Bool.false_ne_true ((ht.not_isFolder _ h).symm.trans (of_folder?_eq_some hroot).2.2)

omit hroot in
theorem isName_of_below : ∀ s ∈ names, Path.IsName s := fun s hs =>
  ht.isName _ h s (List.mem_append_right _ hs)

theorem parts_below :
    Path.parts (root.join (.ofNames names)) = Path.parts root ++ names.map .name :=
  Path.parts_join root (ne_nil_of_below ht hroot h) (isName_of_below ht h)

/-- Behind the root, the names of a file make up a path to it. -/
theorem locate_join : t.locate (root.join (.ofNames names)) = .ok (place ++ names) := by
  have hne := ne_nil_of_below ht hroot h
  have hn := isName_of_below ht h
  have hp := parts_below ht hroot h
  obtain ⟨-, hl, hf⟩ := of_folder?_eq_some hroot
  have hne' : (root.join (.ofNames names)).bytes ≠ [] := by
    intro he
    rw [Path.ext (q := ⟨[]⟩) he, show Path.parts ⟨[]⟩ = [] from rfl] at hp
    exact hne (List.map_eq_nil_iff.1 (List.append_eq_nil_iff.1 hp.symm).2)
  have hend : endsLikeFolder (root.join (.ofNames names)) = false := by
    obtain ⟨init, s, rfl⟩ := List.eq_nil_or_concat names |>.resolve_left hne
    have hs := hn s (by simp)
    rw [endsLikeFolder, Path.getLast?_splitAt_join root hne hn, List.concat_eq_append,
      List.getLast?_concat]
    simp [hs.ne_empty, hs.ne_here]
  rw [locate, if_neg hne', hp, locateFrom_append, hl]
  simp only [Except.bind, ht.locateFrom_names hf h, hend, Bool.false_and, Bool.false_eq_true,
    if_false]

/-- There the file's text is read. -/
theorem readText_join {text : String} (htext : t.textAt? (place ++ names) = some text) :
    t.readText (root.join (.ofNames names)) = .ok text := by
  obtain ⟨content, hc, htext⟩ := Option.bind_eq_some_iff.1 htext
  simp only [readText, readBytes, locate_join ht hroot h, ht.not_isFolder _ h, hc, htext,
    Bool.false_eq_true, if_false]

end Below

/-- Every file is a text. -/
def HoldsTexts (t : Tree) : Prop := ∀ place ∈ t.files.keys, (t.textAt? place).isSome = true

instance (t : Tree) : Decidable t.HoldsTexts :=
  inferInstanceAs (Decidable (∀ place ∈ t.files.keys, _))

end Tree

namespace Directory

/-! ## The files of a directory -/

/-- `texts` are the texts of the files below the folder `place` that have one of the
extensions, each with its path behind `root`, in the order of these paths. -/
structure IsListing (t : Tree) (root : Path) (place : Path.Names) (extensions : List String)
    (texts : List (Path × String)) : Prop where
  mem_iff : ∀ path text, (path, text) ∈ texts ↔
    ∃ names e, t.textAt? (place ++ names) = some text ∧
      path = root.join (.ofNames names) ∧
      Path.extension? path = some (Text.utf8 e) ∧ e ≠ "" ∧ e ∈ extensions.map extensionOf
  sorted : (texts.map fun e => Path.parts e.1).Pairwise (· < ·)

theorem accepts_ofExtensions {root path : Path} {extensions : List String} :
    (ofExtensions root extensions).accepts path = true ↔
      ∃ e, Path.extension? path = some (Text.utf8 e) ∧ e ≠ "" ∧ e ∈ extensions.map extensionOf := by
  rw [accepts, ofExtensions, Option.any_eq_true]
  refine exists_congr fun e => and_congr ?_ ?_
  · simp only [Option.bind_eq_some_iff, Text.ofUtf8?_eq_some_iff, exists_eq_right]
  · rw [List.contains_iff_mem, List.mem_filter, decide_eq_true_iff, and_comm]

/-- The texts of a directory's files, by their paths, when it is found at `place`. -/
def texts (d : Directory) (t : Tree) (place : Path.Names) : List (Path × String) :=
  (Path.sort (d.found t place (t.below place))).map fun path =>
    (path, (t.readText path).toOption.getD "")

section

variable {d : Directory} {t : Tree} {place : Path.Names} (hroot : t.folder? d.root = some place)
  (ht : t.WellFormed) (hu : t.HoldsTexts)

theorem mem_found_below {path : Path} :
    path ∈ d.found t place (t.below place) ↔ ∃ names, place ++ names ∈ t.files.keys ∧
      path = d.root.join (.ofNames names) ∧ d.accepts path = true := by
  simp only [found, List.mem_filter, List.mem_map]
  constructor
  · rintro ⟨⟨names, ⟨-, hf⟩, rfl⟩, ha⟩
    exact ⟨names, Tree.isFile_iff.1 hf, rfl, ha⟩
  · rintro ⟨names, hf, rfl, ha⟩
    have hf := Tree.isFile_iff.2 hf
    exact ⟨⟨names, ⟨Tree.mem_below_of_isFile hf, hf⟩, rfl⟩, ha⟩

include hroot ht

/-- No two of the paths that are found are the same. -/
theorem nodup_found : ((d.found t place (t.below place)).map Path.parts).Nodup := by
  refine List.Nodup.sublist (List.filter_sublist.map Path.parts) ?_
  rw [List.map_map]
  refine List.Nodup.map_on (fun x hx y hy hxy => ?_) ((ht.nodup_below place).filter _)
  have hx := Tree.isFile_iff.1 (List.mem_filter.1 hx).2
  have hy := Tree.isFile_iff.1 (List.mem_filter.1 hy).2
  rw [Function.comp_apply, Function.comp_apply, Tree.parts_below ht hroot hx,
    Tree.parts_below ht hroot hy, List.append_cancel_left_eq] at hxy
  exact List.map_injective_iff.2 (fun _ _ h => Path.Part.name.inj h) hxy

/-- Whatever way a walk takes, it leads to the same paths. -/
theorem paths_eq (w : Walk) : d.paths w t = .ok ((d.texts t place).map Prod.fst) := by
  have hw : (d.found t place (w.entries t place)).Perm (d.found t place (t.below place)) :=
    (((w.perm t place).filter _).map _).filter _
  have hsort := Path.sort_eq_of_perm hw.symm (nodup_found hroot ht)
  have hfst : (d.texts t place).map Prod.fst = Path.sort (d.found t place (t.below place)) := by
    rw [texts, List.map_map]
    exact List.map_id _
  simp only [paths, hroot]
  rw [hfst, hsort]

theorem pairwise_texts : ((d.texts t place).map fun e => Path.parts e.1).Pairwise (· < ·) := by
  rw [texts, List.map_map]
  exact List.pairwise_map.2 (Path.pairwise_sort (nodup_found hroot ht))

include hu

theorem mem_texts {path : Path} {text : String} :
    (path, text) ∈ d.texts t place ↔ ∃ names, t.textAt? (place ++ names) = some text ∧
      path = d.root.join (.ofNames names) ∧ d.accepts path = true := by
  have hread : ∀ {names text}, t.textAt? (place ++ names) = some text →
      t.readText (d.root.join (.ofNames names)) = .ok text := fun htext =>
    Tree.readText_join ht hroot (Tree.mem_keys_of_textAt? htext) htext
  simp only [texts, List.mem_map, (Path.sort_perm _).mem_iff, mem_found_below, Prod.mk.injEq]
  constructor
  · rintro ⟨_, ⟨names, hf, rfl, ha⟩, rfl, rfl⟩
    obtain ⟨text, htext⟩ := Option.isSome_iff_exists.1 (hu _ hf)
    exact ⟨names, by rw [hread htext]; exact htext, rfl, ha⟩
  · rintro ⟨names, htext, rfl, ha⟩
    exact ⟨_, ⟨names, Tree.mem_keys_of_textAt? htext, rfl, ha⟩, rfl, by rw [hread htext]; rfl⟩

theorem read_texts (w : Walk) {e : Path × String} (he : e ∈ d.texts t place) :
    (d.source w t).read e.1 = .ok e.2 := by
  obtain ⟨names, htext, hp, -⟩ := (mem_texts hroot ht hu).1 he
  have hr := Tree.readText_join ht hroot (Tree.mem_keys_of_textAt? htext) htext
  show (t.readText e.1).mapError _ = .ok e.2
  rw [hp, hr]
  rfl

/-! ## Loading -/

omit hu in
/-- A shelf with the texts of a directory holds them in the same order. -/
theorem entries_shelf {stored : List (Path × String)} (hs : stored.Perm (d.texts t place)) :
    (Shelf.ofList stored).entries = (d.texts t place).map fun e => (Path.parts e.1, e) := by
  have hp := pairwise_texts hroot ht
  have hn : (stored.map fun e => Path.parts e.1).Nodup :=
    (hs.map _).nodup_iff.2 (hp.imp StrictTotal.ne_of_lt)
  have hsorted : (((d.texts t place).map fun e => (Path.parts e.1, e)).map Prod.fst).Pairwise
      (· < ·) := by
    rwa [List.map_map]
  have he : Shelf.ofList stored = ⟨_, hsorted⟩ := by
    rw [Shelf.ofList_eq hn, SortedMap.ofList_eq_of_perm (hs.map _) (by rwa [List.map_map])]
    exact SortedMap.ofList_entries ⟨_, hsorted⟩
  rw [he]

theorem load_eq_shelf (w : Walk) {stored : List (Path × String)}
    (hs : stored.Perm (d.texts t place)) :
    (d.source w t).load = (Shelf.ofList stored).source.load := by
  have he := entries_shelf hroot ht hs
  have hpaths : (Shelf.ofList stored).paths = (d.texts t place).map Prod.fst := by
    rw [Shelf.paths, SortedMap.values, he, List.map_map, List.map_map]
    rfl
  have hread : ∀ path ∈ (d.texts t place).map Prod.fst,
      (d.source w t).read path = (Shelf.ofList stored).source.read path := by
    intro path hpath
    obtain ⟨e, hm, rfl⟩ := List.mem_map.1 hpath
    have hm' : (Path.parts e.1, e) ∈ (Shelf.ofList stored).entries := by
      rw [he]
      exact List.mem_map.2 ⟨e, hm, rfl⟩
    rw [read_texts hroot ht hu w hm, Shelf.read_source (Shelf.keyed_ofList stored) hm']
  have hl : (d.source w t).load =
      .ok (.ofOutcomes ((d.source w t).outcomes [] ((d.texts t place).map Prod.fst))) := by
    rw [Source.load, source, paths_eq hroot ht w]
    rfl
  rw [hl, Shelf.load_source, Shelf.loaded, hpaths, Source.outcomes_congr hread]

end

/-- Whatever way a directory is walked through, it lists the files below it that have one
of its extensions, empty ones left out, and loads from them what a shelf with the same
texts loads, in whatever order these were put there. -/
theorem lists_and_loads {t : Tree} (ht : t.WellFormed) (hu : t.HoldsTexts) {root : Path}
    {place : Path.Names} (hroot : t.folder? root = some place) (extensions : List String) :
    ∃ texts, IsListing t root place extensions texts ∧ ∀ w : Walk,
      (ofExtensions root extensions).paths w t = .ok (texts.map Prod.fst) ∧
      (∀ e ∈ texts, ((ofExtensions root extensions).source w t).read e.1 = .ok e.2) ∧
      ∀ stored, stored.Perm texts →
        ((ofExtensions root extensions).source w t).load = (Shelf.ofList stored).source.load := by
  let d := ofExtensions root extensions
  have hroot : t.folder? d.root = some place := hroot
  refine ⟨d.texts t place, ⟨fun path text => ?_, pairwise_texts hroot ht⟩, fun w =>
    ⟨paths_eq hroot ht w, fun e he => read_texts hroot ht hu w he,
      fun stored hs => load_eq_shelf hroot ht hu w hs⟩⟩
  rw [mem_texts hroot ht hu]
  simp only [d, accepts_ofExtensions]
  constructor
  · rintro ⟨names, htext, hp, e, he⟩
    exact ⟨names, e, htext, hp, he⟩
  · rintro ⟨names, e, htext, hp, he⟩
    exact ⟨names, htext, hp, e, he⟩

/-- Two kinds of jobs below a folder of the working directory, beside files that are none:
one has a dot in front only, one an extension of its own. The name of one job is no text. -/
def projectTree : Tree :=
  let t := { ({} : Tree).makeFolder "srv" with home := [Text.utf8 "srv"] }
  let t := (t.write "jobs/load.daily.item" "<job/>".toUTF8).write "jobs/old/a.prop" "<job".toUTF8
  let t := (t.write "jobs/.item" "<job/>".toUTF8).write "jobs/notes.txt" "".toUTF8
  t.write ("jobs/old/" ++ ⟨[0xFF]⟩ ++ ".item") "<job/>".toUTF8

theorem lists_and_loads_projectTree :
    projectTree.WellFormed ∧ projectTree.HoldsTexts ∧
      projectTree.folder? "jobs" = some (projectTree.names "jobs") ∧
      ∃ texts, IsListing projectTree "jobs" (projectTree.names "jobs") ["..item", "prop", "."] texts ∧
        ∀ w : Walk,
        (ofExtensions "jobs" ["..item", "prop", "."]).paths w projectTree =
          .ok (texts.map Prod.fst) ∧
        (∀ e ∈ texts, ((ofExtensions "jobs" ["..item", "prop", "."]).source w projectTree).read e.1 =
          .ok e.2) ∧
        ∀ stored, stored.Perm texts →
          ((ofExtensions "jobs" ["..item", "prop", "."]).source w projectTree).load =
            (Shelf.ofList stored).source.load := by
  have ht : projectTree.WellFormed := by decide +kernel
  have hu : projectTree.HoldsTexts := by decide +kernel
  have hroot : projectTree.folder? "jobs" = some (projectTree.names "jobs") := by decide +kernel
  exact ⟨ht, hu, hroot, lists_and_loads ht hu hroot _⟩

/-- A walk that ends where others begin. -/
def backwards : Walk := ⟨fun t place => (t.below place).reverse, fun _ _ => List.reverse_perm _⟩

example : (ofExtensions "jobs" ["..item", "prop", "."]).paths backwards projectTree =
    .ok ["jobs/load.daily.item", "jobs/old/a.prop", "jobs/old/" ++ ⟨[0xFF]⟩ ++ ".item"] := by
  cbv

/-- An extension that is dots only stands for the empty one, but a file whose name ends in
a dot is not listed for it. -/
theorem not_lists_ending_in_dot :
    let t := ({} : Tree).write "d/a." "<job/>".toUTF8
    t.WellFormed ∧ t.HoldsTexts ∧ t.folder? "d" = some (t.names "d") ∧
      (t.textAt? (t.names "d" ++ [Text.utf8 "a."])).isSome = true ∧
      Path.extension? (Path.join "d" (.ofNames [Text.utf8 "a."])) = some (Text.utf8 "") ∧
      "" ∈ ["."].map extensionOf ∧ (ofExtensions "d" ["."]).paths default t = .ok [] := by
  decide +kernel

end Directory

end JobAtlas
