import JobAtlas.Sorted.Order
import JobAtlas.Text.Search
import JobAtlas.Text.Utf8

/-!
# Paths

A path is kept as it was written, by its bytes: the names of files need not be texts.
Two paths are the same, and are ordered, by their parts: repeated separators, inner
`.` parts and a separator at the end do not count. The name of a job is the stem of
its path, read as a text. Parts, stems and extensions are those that the standard
library finds in paths on Unix.
-/

namespace JobAtlas

/-- A path, by its bytes. -/
structure Path where
  bytes : List UInt8
deriving DecidableEq, Repr, Inhabited

namespace Path

/-- The path that is written as a text. -/
def ofText (s : String) : Path := ⟨Text.utf8 s⟩

instance : Coe String Path := ⟨ofText⟩

/-- The text that a path is, unless its bytes are those of none. -/
def text? (p : Path) : Option String := Text.ofUtf8? p.bytes

/-- A path as it stands in messages, with the replacement character for what is no text. -/
def shown (p : Path) : String := Text.lossy p.bytes

instance : Append Path := ⟨fun p q => ⟨p.bytes ++ q.bytes⟩⟩

theorem text?_eq_some_iff {p : Path} {s : String} : p.text? = some s ↔ p = ofText s := by
  rw [text?, Text.ofUtf8?_eq_some_iff, ofText, mk.injEq]

@[simp] theorem text?_ofText (s : String) : (ofText s).text? = some s := text?_eq_some_iff.2 rfl

@[simp] theorem shown_ofText (s : String) : (ofText s).shown = s := Text.lossy_utf8 s

@[simp] theorem bytes_append (p q : Path) : (p ++ q).bytes = p.bytes ++ q.bytes := rfl

@[ext] theorem ext {p q : Path} (h : p.bytes = q.bytes) : p = q := by
  cases p; cases q; cases h; rfl

theorem append_assoc (p q r : Path) : p ++ q ++ r = p ++ (q ++ r) :=
  congrArg mk (List.append_assoc p.bytes q.bytes r.bytes)

/-- What stands between the parts of a path, `/`. -/
def separator : UInt8 := 47

/-- What names of folders and extensions are written with, `.`. -/
def dot : UInt8 := 46

theorem ofText_slash : ofText "/" = ⟨[separator]⟩ := by decide

/-- Names on the way to a file or a folder, by their bytes. -/
abbrev Names := List (List UInt8)

/-- A part of a path. Only the first part can be `root` or `here`. -/
inductive Part where
  | root
  | here
  | up
  | name (s : List UInt8)
deriving DecidableEq

namespace Part

/-- The root comes first, then `.`, then `..`, then names. -/
def rank : Part → Nat
  | root => 0
  | here => 1
  | up => 2
  | name _ => 3

/-- Names are ordered among themselves, by their bytes, the other parts by rank. -/
def Before : Part → Part → Prop
  | name a, name b => a < b
  | p, q => p.rank < q.rank

instance : LT Part := ⟨Before⟩

instance : DecidableLT Part := fun p q =>
  match p, q with
  | name a, name b => inferInstanceAs (Decidable (a < b))
  | root, q => inferInstanceAs (Decidable (rank root < q.rank))
  | here, q => inferInstanceAs (Decidable (rank here < q.rank))
  | up, q => inferInstanceAs (Decidable (rank up < q.rank))
  | name a, root => inferInstanceAs (Decidable (rank (name a) < rank root))
  | name a, here => inferInstanceAs (Decidable (rank (name a) < rank here))
  | name a, up => inferInstanceAs (Decidable (rank (name a) < rank up))

theorem lt_iff {p q : Part} :
    p < q ↔ p.rank < q.rank ∨ ∃ a b, p = name a ∧ q = name b ∧ a < b := by
  show Before p q ↔ _
  cases p <;> cases q <;> simp [Before, rank]

instance : StrictTotal Part where
  irrefl p := by
    rw [lt_iff]
    rintro (h | ⟨a, b, rfl, h, hab⟩)
    · omega
    · cases h; exact StrictTotal.irrefl _ hab
  trans {p q r} := by
    rw [lt_iff, lt_iff, lt_iff]
    rintro (h | ⟨a, b, rfl, rfl, h⟩) (h' | ⟨c, d, hc, rfl, h'⟩)
    · exact .inl (Nat.lt_trans h h')
    · subst hc; exact .inl h
    · exact .inl h'
    · cases hc; exact .inr ⟨a, d, rfl, rfl, StrictTotal.trans h h'⟩
  trichotomy p q := by
    rw [lt_iff, lt_iff]
    rcases Nat.lt_trichotomy p.rank q.rank with h | h | h
    · exact .inl (.inl h)
    · match p, q with
      | name a, name b =>
        rcases StrictTotal.trichotomy a b with h | h | h
        · exact .inl (.inr ⟨a, b, rfl, rfl, h⟩)
        · exact .inr (.inl (congrArg name h))
        · exact .inr (.inr (.inr ⟨b, a, rfl, rfl, h⟩))
      | root, root | here, here | up, up => exact .inr (.inl rfl)
    · exact .inr (.inr (.inl h))

end Part

/-- The pieces of a path that are neither empty nor `.`. -/
def partsOf (pieces : List (List UInt8)) : List Part :=
  (pieces.filter fun p => p ≠ [] ∧ p ≠ [dot]).map fun p =>
    if p = [dot, dot] then .up else .name p

/-- The parts of a path: a root or a leading `.`, if there is one, and the names. -/
def parts (path : Path) : List Part :=
  match Text.splitAt separator path.bytes with
  | [] => []
  | piece :: pieces =>
    if piece = [] ∧ pieces ≠ [] then .root :: partsOf pieces
    else if piece = [dot] then .here :: partsOf pieces
    else partsOf (piece :: pieces)

/-- The last part of a path, if it is a name. -/
def fileName? (path : Path) : Option (List UInt8) :=
  match (parts path).getLast? with
  | some (.name s) => some s
  | _ => none

/-- A file name cut at its last dot; a dot that comes first does not count. -/
def splitName (s : List UInt8) : List UInt8 × Option (List UInt8) :=
  let after := (s.reverse.takeWhile (· ≠ dot)).reverse
  match s.reverse.dropWhile (· ≠ dot) with
  | _ :: before@(_ :: _) => (before.reverse, some after)
  | _ => (s, none)

/-- The file name without its extension. -/
def stem? (path : Path) : Option (List UInt8) := (fileName? path).map fun s => (splitName s).1

/-- What follows the last dot of the file name. -/
def extension? (path : Path) : Option (List UInt8) := do (splitName (← fileName? path)).2

/-- The path of some names. -/
def ofNames (names : Names) : Path := ⟨[separator].intercalate names⟩

/-- A path below `root`; the separator is not doubled, and nothing goes before a
path below the empty one. -/
def join (root rest : Path) : Path :=
  if root.bytes = [] ∨ root.bytes.getLast? = some separator then root ++ rest
  else root ++ ⟨[separator]⟩ ++ rest

/-- The name of the job stored at a path: its stem, or the path itself when it
has no file name. -/
def jobName (path : Path) : String :=
  match stem? path with
  | some stem => Text.lossy stem
  | none => path.shown

/-! ## Paths in order -/

/-- Paths in the order of their parts. -/
def sort (paths : List Path) : List Path := paths.mergeSort fun p q => !decide (parts q < parts p)

theorem sort_perm (paths : List Path) : (sort paths).Perm paths := List.mergeSort_perm _ _

/-- Paths that are not the same come one after another. -/
theorem pairwise_sort {paths : List Path} (h : (paths.map parts).Nodup) :
    (sort paths).Pairwise fun p q => parts p < parts q := by
  have hle : (sort paths).Pairwise fun p q => ¬ parts q < parts p := by
    refine (List.pairwise_mergeSort (fun p q r => ?_) (fun p q => ?_) paths).imp fun h => ?_
    · simp only [Bool.not_eq_true', decide_eq_false_iff_not]
      intro hpq hqr hrp
      rcases StrictTotal.trichotomy (parts q) (parts p) with h | h | h
      · exact hpq h
      · exact hqr (h ▸ hrp)
      · exact hqr (StrictTotal.trans hrp h)
    · simp only [Bool.or_eq_true, Bool.not_eq_true', decide_eq_false_iff_not]
      by_cases hqp : parts q < parts p
      · exact .inr (StrictTotal.asymm hqp)
      · exact .inl hqp
    · simpa using h
  have hne : (sort paths).Pairwise fun p q => parts p ≠ parts q :=
    List.pairwise_map.1 (((sort_perm paths).map parts).nodup_iff.2 h)
  refine hle.imp₂ (fun p q hle hne => ?_) hne
  rcases StrictTotal.trichotomy (parts p) (parts q) with h | h | h
  · exact h
  · exact absurd h hne
  · exact absurd h hle

/-- Paths that differ come in the same order from wherever they stood before. -/
theorem sort_eq_of_perm {paths paths' : List Path} (hp : paths.Perm paths')
    (h : (paths.map parts).Nodup) : sort paths = sort paths' := by
  have hperm : (sort paths).Perm (sort paths') :=
    (sort_perm paths).trans (hp.trans (sort_perm paths').symm)
  have h' : (paths'.map parts).Nodup := (hp.map parts).nodup_iff.1 h
  exact hperm.eq_of_pairwise (fun p q _ _ hpq hqp => absurd hqp (StrictTotal.asymm hpq))
    (pairwise_sort h) (pairwise_sort h')

/-! ## Paths below a root -/

/-- What a file or a folder may be called. -/
structure IsName (s : List UInt8) : Prop where
  ne_empty : s ≠ []
  ne_here : s ≠ [dot]
  ne_up : s ≠ [dot, dot]
  not_mem : separator ∉ s

instance (s : List UInt8) : Decidable (IsName s) :=
  decidable_of_iff (s ≠ [] ∧ s ≠ [dot] ∧ s ≠ [dot, dot] ∧ separator ∉ s)
    ⟨fun ⟨h₁, h₂, h₃, h₄⟩ => ⟨h₁, h₂, h₃, h₄⟩, fun ⟨h₁, h₂, h₃, h₄⟩ => ⟨h₁, h₂, h₃, h₄⟩⟩

theorem partsOf_append (ps qs : List (List UInt8)) :
    partsOf (ps ++ qs) = partsOf ps ++ partsOf qs := by
  rw [partsOf, List.filter_append, List.map_append]
  rfl

theorem partsOf_cons (piece : List UInt8) (pieces : List (List UInt8)) :
    partsOf (piece :: pieces) = partsOf [piece] ++ partsOf pieces :=
  partsOf_append [piece] pieces

/-- The parts of a path by its first piece and the others. -/
theorem parts_of_splitAt {path : Path} {piece : List UInt8} {pieces : List (List UInt8)}
    (h : Text.splitAt separator path.bytes = piece :: pieces) (hne : piece = [] → pieces ≠ []) :
    parts path = (if piece = [] then [.root] else if piece = [dot] then [.here]
      else partsOf [piece]) ++ partsOf pieces := by
  rw [parts, h]
  by_cases hp : piece = []
  · rw [if_pos hp]
    exact if_pos ⟨hp, hne hp⟩
  · rw [if_neg hp]
    dsimp only
    rw [if_neg fun he => hp he.1]
    split
    · rfl
    · exact partsOf_cons piece pieces

theorem splitAt_append_separator (front rest : Path) :
    Text.splitAt separator (front ++ ⟨[separator]⟩ ++ rest).bytes =
      Text.splitAt separator front.bytes ++ Text.splitAt separator rest.bytes := by
  rw [bytes_append, bytes_append, List.append_assoc]
  exact Text.splitAt_append separator front.bytes rest.bytes

/-- What goes behind a separator adds its parts to those in front of it, which are
the parts of the path there unless that is empty. -/
theorem exists_parts_append_separator (front : Path) :
    ∃ ps, (∀ rest : Path, parts (front ++ ⟨[separator]⟩ ++ rest) =
        ps ++ partsOf (Text.splitAt separator rest.bytes)) ∧
      parts (front ++ ⟨[separator]⟩) = ps ∧ (front ≠ ⟨[]⟩ → parts front = ps) := by
  obtain ⟨piece, pieces, hp⟩ :=
    List.exists_cons_of_ne_nil (Text.splitAt_ne_nil separator front.bytes)
  let ps := (if piece = [] then [.root] else if piece = [dot] then [.here] else partsOf [piece]) ++
    partsOf pieces
  have hrest : ∀ rest : Path, parts (front ++ ⟨[separator]⟩ ++ rest) =
      ps ++ partsOf (Text.splitAt separator rest.bytes) := by
    intro rest
    have hs : Text.splitAt separator (front ++ ⟨[separator]⟩ ++ rest).bytes =
        piece :: (pieces ++ Text.splitAt separator rest.bytes) := by
      rw [splitAt_append_separator, hp]
      rfl
    rw [parts_of_splitAt hs fun _ => by simp [Text.splitAt_ne_nil], partsOf_append,
      ← List.append_assoc]
  refine ⟨ps, hrest, ?_, fun hne => parts_of_splitAt hp ?_⟩
  · have hnil := hrest ⟨[]⟩
    have he : front ++ ⟨[separator]⟩ ++ ⟨[]⟩ = front ++ ⟨[separator]⟩ :=
      congrArg mk (List.append_nil _)
    rw [he] at hnil
    exact hnil.trans (List.append_nil ps)
  · rintro rfl rfl
    exact hne (congrArg mk (Text.eq_nil_of_splitAt hp))

variable {names : Names}

private theorem partsOf_names (h : ∀ s ∈ names, IsName s) : partsOf names = names.map .name := by
  induction names with
  | nil => rfl
  | cons s names ih =>
    have hs := h s List.mem_cons_self
    have hp : partsOf [s] = [.name s] := by simp [partsOf, hs.ne_empty, hs.ne_here, hs.ne_up]
    rw [partsOf_cons, hp, ih fun t ht => h t (List.mem_cons_of_mem _ ht)]
    rfl

/-- A path goes below `root` behind a separator, which may be the end of `root`. -/
theorem join_cases (root rest : Path) :
    root = ⟨[]⟩ ∧ join root rest = rest ∨
    (∃ front : Path, root = front ++ ⟨[separator]⟩ ∧
      join root rest = front ++ ⟨[separator]⟩ ++ rest) ∨
    root ≠ ⟨[]⟩ ∧ join root rest = root ++ ⟨[separator]⟩ ++ rest := by
  by_cases hroot : root.bytes = []
  · refine .inl ⟨congrArg mk hroot, ?_⟩
    rw [join, if_pos (.inl hroot)]
    exact congrArg mk (by rw [hroot]; rfl)
  by_cases hend : root.bytes.getLast? = some separator
  · obtain ⟨front, hr⟩ := List.getLast?_eq_some_iff.1 hend
    have hr : root = ⟨front⟩ ++ ⟨[separator]⟩ := congrArg mk hr
    refine .inr (.inl ⟨⟨front⟩, hr, ?_⟩)
    rw [join, if_pos (.inr hend), ← hr]
  · refine .inr (.inr ⟨fun h => hroot (congrArg bytes h), ?_⟩)
    rw [join, if_neg (not_or.2 ⟨hroot, hend⟩)]

section Join

variable (root : Path) (hne : names ≠ []) (h : ∀ s ∈ names, IsName s)
include hne h

theorem splitAt_ofNames : Text.splitAt separator (ofNames names).bytes = names :=
  Text.splitAt_intercalate hne fun s hs => (h s hs).not_mem

/-- Below a root, names are parts as they stand. -/
theorem parts_join : parts (join root (ofNames names)) = parts root ++ names.map .name := by
  have hnames := splitAt_ofNames hne h
  obtain ⟨rfl, hj⟩ | ⟨front, rfl, hj⟩ | ⟨hroot, hj⟩ := join_cases root (ofNames names)
  · obtain ⟨s, rest, rfl⟩ := List.exists_cons_of_ne_nil hne
    have hs := h s List.mem_cons_self
    rw [hj, parts_of_splitAt hnames fun e => absurd e hs.ne_empty, if_neg hs.ne_empty,
      if_neg hs.ne_here, ← partsOf_cons]
    exact partsOf_names h
  · obtain ⟨ps, hps, hfront, -⟩ := exists_parts_append_separator front
    rw [hj, hps, hnames, partsOf_names h, hfront]
  · obtain ⟨ps, hps, -, hfront⟩ := exists_parts_append_separator root
    rw [hj, hps, hnames, partsOf_names h, hfront hroot]

/-- Such a path ends in the last of the names. -/
theorem getLast?_splitAt_join :
    (Text.splitAt separator (join root (ofNames names)).bytes).getLast? = names.getLast? := by
  have hnames := splitAt_ofNames hne h
  -- behind a separator the names are pieces of their own
  have hbehind : ∀ front : Path,
      (Text.splitAt separator (front ++ ⟨[separator]⟩ ++ ofNames names).bytes).getLast? =
        names.getLast? := by
    intro front
    rw [splitAt_append_separator, hnames, List.getLast?_append,
      List.getLast?_eq_some_getLast hne]
    rfl
  obtain ⟨-, hj⟩ | ⟨front, -, hj⟩ | ⟨-, hj⟩ := join_cases root (ofNames names)
  · rw [hj, hnames]
  · rw [hj, hbehind]
  · rw [hj, hbehind]

end Join

end Path

end JobAtlas
