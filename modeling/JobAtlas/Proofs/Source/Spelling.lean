import JobAtlas.Path

/-!
# Spellings of a path

`Respelled` is the closure of what may be changed in the bytes of a path: a separator
is doubled, a `.` is put between two, or either goes to the end. None of these
changes the parts of a path (`Respelled.parts_eq`). In the other direction, every
path is a respelling of the one that is written from its parts
(`respelled_ofParts`), so that the paths with the same parts are the respellings of
one of them (`respelled_iff`).
-/

namespace JobAtlas

namespace Path

/-- Two ways to write a path. -/
inductive Respelled : Path → Path → Prop
  | refl (p : Path) : Respelled p p
  | symm {p q : Path} : Respelled p q → Respelled q p
  | trans {p q r : Path} : Respelled p q → Respelled q r → Respelled p r
  | separators (p q : Path) : Respelled (p ++ "//" ++ q) (p ++ "/" ++ q)
  | here (p q : Path) : Respelled (p ++ "/./" ++ q) (p ++ "/" ++ q)
  | hereAtEnd (p : Path) : Respelled (p ++ "/.") (p ++ "/")
  -- the root is not the empty path
  | separatorAtEnd {p : Path} : p ≠ "" → Respelled (p ++ "/") p

/-! ## Respelled paths have the same parts -/

/-- A piece that is no part, written at the start of what follows a separator. -/
private theorem parts_eq_of_splitAt {p q r : Path} (piece : List UInt8)
    (hs : Text.splitAt separator q.bytes = piece :: Text.splitAt separator r.bytes)
    (hp : partsOf [piece] = []) : parts (p ++ "/" ++ q) = parts (p ++ "/" ++ r) := by
  obtain ⟨ps, hps, -⟩ := exists_parts_append_separator p
  rw [ofText_slash, hps, hps, hs, partsOf_cons, hp, List.nil_append]

theorem Respelled.parts_eq {p q : Path} (h : Respelled p q) : parts p = parts q := by
  induction h with
  | refl p => rfl
  | symm _ ih => exact ih.symm
  | trans _ _ ih ih' => exact ih.trans ih'
  | separators p q =>
    have hq : p ++ "//" ++ q = p ++ "/" ++ ("/" ++ q) := by simp only [append_assoc]; rfl
    rw [hq]
    refine parts_eq_of_splitAt [] ?_ rfl
    rw [ofText_slash]
    exact Text.splitAt_sep separator q.bytes
  | here p q =>
    have hq : p ++ "/./" ++ q = p ++ "/" ++ (⟨[dot]⟩ ++ ⟨[separator]⟩ ++ q) := by
      simp only [append_assoc]; rfl
    rw [hq]
    exact parts_eq_of_splitAt [dot] (splitAt_append_separator ⟨[dot]⟩ q) rfl
  | hereAtEnd p =>
    obtain ⟨ps, hps, hend, -⟩ := exists_parts_append_separator p
    have hp : p ++ "/." = p ++ ⟨[separator]⟩ ++ ⟨[dot]⟩ := by rw [append_assoc]; rfl
    rw [hp, hps, ofText_slash, hend]
    exact List.append_nil ps
  | @separatorAtEnd p hne =>
    obtain ⟨ps, -, hend, hp⟩ := exists_parts_append_separator p
    rw [ofText_slash, hend, hp hne]

/-! ## The path of some parts -/

/-- A part as it is written; the root is what stands in front of a first separator. -/
def Part.piece : Part → List UInt8
  | root => []
  | here => [dot]
  | up => [dot, dot]
  | name s => s

/-- Pieces, each behind a separator. -/
def behind : List (List UInt8) → Path
  | [] => ""
  | piece :: pieces => "/" ++ ⟨piece⟩ ++ behind pieces

theorem append_behind_nil (p : Path) : p ++ behind [] = p := Path.ext (List.append_nil p.bytes)

theorem append_behind_cons (p : Path) (piece : List UInt8) (pieces : List (List UInt8)) :
    p ++ behind (piece :: pieces) = p ++ "/" ++ ⟨piece⟩ ++ behind pieces := by
  simp only [behind, append_assoc]

/-- The path that is written from its parts. -/
def ofParts : List Part → Path
  | [] => ""
  | [.root] => "/"
  | p :: ps => ⟨p.piece⟩ ++ behind (ps.map Part.piece)

theorem ofParts_cons {p : Part} {ps : List Part} (h : p ≠ .root ∨ ps ≠ []) :
    ofParts (p :: ps) = ⟨p.piece⟩ ++ behind (ps.map Part.piece) := by
  rw [ofParts]
  rintro rfl rfl
  exact h.elim (· rfl) (· rfl)

/-- A piece is no part, or is written as its part. -/
theorem partsOf_singleton_cases (piece : List UInt8) :
    (piece = [] ∨ piece = [dot]) ∧ partsOf [piece] = [] ∨
    ∃ p : Part, p.piece = piece ∧ p ≠ .root ∧ partsOf [piece] = [p] := by
  by_cases hp : piece = [] ∨ piece = [dot]
  · refine .inl ⟨hp, ?_⟩
    obtain rfl | rfl := hp <;> rfl
  · refine .inr ?_
    rw [partsOf, List.filter_cons_of_pos (by simpa [not_or] using hp)]
    by_cases hup : piece = [dot, dot]
    · exact ⟨.up, hup.symm, by simp, by rw [hup]; rfl⟩
    · refine ⟨.name piece, rfl, by simp, ?_⟩
      rw [List.filter_nil, List.map_singleton, if_neg hup]

theorem mk_eq_append_behind {cs piece : List UInt8} {pieces : List (List UInt8)}
    (h : Text.splitAt separator cs = piece :: pieces) : (⟨cs⟩ : Path) = ⟨piece⟩ ++ behind pieces := by
  induction cs generalizing piece pieces with
  | nil => cases h; rfl
  | cons c cs ih =>
    obtain ⟨first, rest, hs⟩ := List.exists_cons_of_ne_nil (Text.splitAt_ne_nil separator cs)
    have hcs := ih hs
    have hc : (⟨c :: cs⟩ : Path) = ⟨[c]⟩ ++ ⟨cs⟩ := rfl
    rw [Text.splitAt, hs] at h
    dsimp only at h
    split at h <;> cases h
    · next he => rw [hc, he, behind, append_assoc, ← hcs]; rfl
    · rw [hc, hcs, ← append_assoc]; rfl

/-! ## Every path is a respelling of the path of its parts -/

section Pieces

variable {piece : List UInt8} (hp : piece = [] ∨ piece = [dot])
include hp

theorem respelled_skip (p q : Path) :
    Respelled (p ++ "/" ++ ⟨piece⟩ ++ "/" ++ q) (p ++ "/" ++ q) := by
  obtain rfl | rfl := hp
  · have he : p ++ "/" ++ ⟨[]⟩ ++ "/" ++ q = p ++ "//" ++ q := by simp only [append_assoc]; rfl
    exact he ▸ .separators p q
  · have he : p ++ "/" ++ ⟨[dot]⟩ ++ "/" ++ q = p ++ "/./" ++ q := by simp only [append_assoc]; rfl
    exact he ▸ .here p q

theorem respelled_skip_end (p : Path) : Respelled (p ++ "/" ++ ⟨piece⟩) (p ++ "/") := by
  obtain rfl | rfl := hp
  · have he : p ++ "/" ++ ⟨[]⟩ = p ++ "/" := Path.ext (List.append_nil _)
    rw [he]
    exact .refl _
  · have he : p ++ "/" ++ ⟨[dot]⟩ = p ++ "/." := by rw [append_assoc]; rfl
    exact he ▸ .hereAtEnd p

/-- Among what follows a separator, such a piece can be left out. -/
theorem respelled_append_behind_cons (p : Path) {pieces : List (List UInt8)} (hne : pieces ≠ []) :
    Respelled (p ++ behind (piece :: pieces)) (p ++ behind pieces) := by
  obtain ⟨next, pieces, rfl⟩ := List.exists_cons_of_ne_nil hne
  have hs := respelled_skip hp p (⟨next⟩ ++ behind pieces)
  rwa [← append_assoc, ← append_assoc, ← append_behind_cons, ← append_behind_cons,
    ← append_behind_cons] at hs

end Pieces

/-- Behind a path, only what is a part needs to be written. -/
theorem respelled_append_behind {p : Path} (hne : p.bytes ≠ []) (pieces : List (List UInt8)) :
    Respelled (p ++ behind pieces) (p ++ behind ((partsOf pieces).map Part.piece)) := by
  induction pieces generalizing p with
  | nil => exact .refl _
  | cons piece pieces ih =>
    rw [partsOf_cons]
    obtain ⟨hp, hno⟩ | ⟨part, rfl, -, hpart⟩ := partsOf_singleton_cases piece
    · rw [hno, List.nil_append]
      refine .trans ?_ (ih hne)
      by_cases hnil : pieces = []
      · rw [hnil, append_behind_cons, append_behind_nil, append_behind_nil]
        exact (respelled_skip_end hp p).trans (.separatorAtEnd fun h => hne (congrArg bytes h))
      · exact respelled_append_behind_cons hp p hnil
    · rw [hpart, List.singleton_append, List.map_cons, append_behind_cons, append_behind_cons]
      refine ih ?_
      rw [bytes_append, bytes_append, ofText_slash]
      simp

/-- The same at the root, whose separator stays. -/
theorem respelled_behind {pieces : List (List UInt8)} (hne : pieces ≠ []) :
    Respelled (⟨[]⟩ ++ behind pieces) (ofParts (.root :: partsOf pieces)) := by
  induction pieces with
  | nil => exact absurd rfl hne
  | cons piece pieces ih =>
    rw [partsOf_cons]
    obtain ⟨hp, hno⟩ | ⟨part, rfl, -, hpart⟩ := partsOf_singleton_cases piece
    · rw [hno, List.nil_append]
      by_cases hnil : pieces = []
      · rw [hnil, append_behind_cons, append_behind_nil]
        exact respelled_skip_end hp ⟨[]⟩
      · exact (respelled_append_behind_cons hp ⟨[]⟩ hnil).trans (ih hnil)
    · rw [hpart, List.singleton_append, ofParts_cons (.inr (by simp)), List.map_cons,
        append_behind_cons, append_behind_cons]
      exact respelled_append_behind (by rw [bytes_append, ofText_slash]; simp) pieces

theorem respelled_ofParts (p : Path) : Respelled p (ofParts (parts p)) := by
  obtain ⟨piece, pieces, hs⟩ := List.exists_cons_of_ne_nil (Text.splitAt_ne_nil separator p.bytes)
  have hp : p = ⟨piece⟩ ++ behind pieces := mk_eq_append_behind hs
  by_cases hempty : piece = [] ∧ pieces = []
  · obtain ⟨rfl, rfl⟩ := hempty
    rw [hp]
    exact .refl _
  rw [parts_of_splitAt hs fun h h' => hempty ⟨h, h'⟩]
  by_cases hroot : piece = []
  · rw [if_pos hroot, hp, hroot]
    exact respelled_behind fun h => hempty ⟨hroot, h⟩
  rw [if_neg hroot]
  have hbehind := respelled_append_behind (p := ⟨piece⟩) hroot pieces
  rw [← hp] at hbehind
  by_cases hhere : piece = [dot]
  · rw [if_pos hhere, List.singleton_append, ofParts_cons (.inl (by simp))]
    rwa [hhere] at hbehind
  · rw [if_neg hhere]
    obtain ⟨hno, -⟩ | ⟨part, rfl, hpart, hparts⟩ := partsOf_singleton_cases piece
    · exact absurd hno (not_or.2 ⟨hroot, hhere⟩)
    · rw [hparts, List.singleton_append, ofParts_cons (.inl hpart)]
      exact hbehind

theorem respelled_iff {p q : Path} : Respelled p q ↔ parts p = parts q := by
  refine ⟨Respelled.parts_eq, fun h => (respelled_ofParts p).trans ?_⟩
  rw [h]
  exact (respelled_ofParts q).symm

instance (p q : Path) : Decidable (Respelled p q) := decidable_of_iff _ respelled_iff.symm

example : Respelled ".//a/./b/." "./a/b" ∧ ¬ Respelled "./a" "a" ∧ ¬ Respelled "/a" "a" := by
  decide +kernel

end Path

end JobAtlas
