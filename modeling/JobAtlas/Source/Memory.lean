import JobAtlas.Path
import JobAtlas.Sorted.Map
import JobAtlas.Source.Basic

/-!
# Job definitions in memory

A `Shelf` holds texts by their paths. Paths that have the same parts are one
path: it is listed as it was written first, and has the text that was put there
last.
-/

namespace JobAtlas

/-- Texts by the parts of their paths, each with its path as it was written first. -/
abbrev Shelf := SortedMap (List Path.Part) (Path × String)

namespace Shelf

/-- Put a text at a path. -/
def put (s : Shelf) (path : Path) (text : String) : Shelf :=
  s.update (Path.parts path) fun
    | some (spelling, _) => (spelling, text)
    | none => (path, text)

/-- The paths in order. -/
def paths (s : Shelf) : List Path := s.values.map Prod.fst

/-- The text at a path. -/
def read? (s : Shelf) (path : Path) : Option String :=
  (s.find? (Path.parts path)).map Prod.snd

/-- Put texts at their paths, one after another. -/
def ofList (texts : List (Path × String)) : Shelf := texts.foldl (fun s t => s.put t.1 t.2) ∅

/-- The texts of a shelf as a source of jobs. -/
def source (s : Shelf) : Source where
  paths := .ok s.paths
  read path :=
    match s.read? path with
    | some text => .ok text
    | none => .error (.noJob path)

end Shelf

end JobAtlas
