import JobAtlas.Path
import JobAtlas.Sorted.Map
import JobAtlas.Sorted.Set
import JobAtlas.Source.Basic

/-!
# Job definitions in directories

A `Tree` holds files and folders from the top of a file system down, and the
working directory, where paths without a root begin. A directory of the tree is a
source of jobs: a `Walk` goes through what is below it, in an order of its own, and
the files with certain extensions, at any depth, are put into the order of their
paths.

A `Tree` stands for the file system, as a program finds it that may read all of it
and meets no links. A `Walk` stands for the `walkdir` library, of which only this is
taken: it comes to each file and folder below the place where it begins, and to this
place, once.
-/

namespace JobAtlas

/-- Files and folders, by the names on the way to them from the top. The top itself
is a folder, but not listed as one. -/
structure Tree where
  files : SortedMap Path.Names ByteArray := ∅
  folders : SortedSet Path.Names := ∅
  /-- The working directory. -/
  home : Path.Names := []

namespace Tree

/-! ## Changes -/

/-- The names that a path leads to from `place`, whatever is there. -/
def namesFrom (place : Path.Names) : List Path.Part → Path.Names
  | [] => place
  | .name s :: ps => namesFrom (place ++ [s]) ps
  | .up :: ps => namesFrom place.dropLast ps
  | .root :: ps => namesFrom [] ps
  | .here :: ps => namesFrom place ps

/-- The names that a path leads to. -/
def names (t : Tree) (path : Path) : Path.Names := namesFrom t.home (Path.parts path)

/-- The folders on the way to a place, the place itself left out. -/
def parents : Path.Names → List Path.Names
  | [] => []
  | [_] => []
  | s :: rest => [s] :: (parents rest).map (s :: ·)

/-- Make a folder, and those on the way to it. -/
def makeFolder (t : Tree) (path : Path) : Tree :=
  { t with folders := (t.folders.insertAll (parents (t.names path))).insert (t.names path) }

/-- Write a file, and make the folders on the way to it. -/
def write (t : Tree) (path : Path) (content : ByteArray) : Tree :=
  { t with
    files := t.files.insert (t.names path) content
    folders := t.folders.insertAll (parents (t.names path)) }

/-- Remove a file. -/
def remove (t : Tree) (path : Path) : Tree := { t with files := t.files.erase (t.names path) }

/-! ## Look-ups -/

def isFolder (t : Tree) (place : Path.Names) : Bool := place.isEmpty || place ∈ t.folders

def isFile (t : Tree) (place : Path.Names) : Bool := t.files.contains place

/-- The place that a path leads to from the folder `place`. Every name has to be
there, and all but the last one have to be folders. Nothing is above the top. -/
def locateFrom (t : Tree) (place : Path.Names) :
    List Path.Part → Except Source.ReadFault Path.Names
  | [] => .ok place
  | .here :: ps => locateFrom t place ps
  | .root :: ps => locateFrom t [] ps
  | part :: ps =>
    if !t.isFolder place then .error .belowFile
    else
      match part, place with
      | .name s, _ =>
        if t.isFolder (place ++ [s]) || t.isFile (place ++ [s]) then
          locateFrom t (place ++ [s]) ps
        else .error .absent
      | _, [] => .error .absent
      | _, _ => locateFrom t place.dropLast ps

/-- Whether a path is written like that of a folder: its last piece is empty or `.`. -/
def endsLikeFolder (path : Path) : Bool :=
  match (Text.splitAt Path.separator path.bytes).getLast? with
  | some piece => piece = [] || piece = [Path.dot]
  | none => false

/-- The place that a path leads to. -/
def locate (t : Tree) (path : Path) : Except Source.ReadFault Path.Names :=
  if path.bytes = [] then .error .absent
  else
    match t.locateFrom t.home (Path.parts path) with
    | .error fault => .error fault
    | .ok place =>
      if endsLikeFolder path && !t.isFolder place then .error .belowFile else .ok place

/-- The bytes of the file at a path. -/
def readBytes (t : Tree) (path : Path) : Except Source.ReadFault ByteArray :=
  match t.locate path with
  | .error fault => .error fault
  | .ok place =>
    if t.isFolder place then .error .folder
    else
      match t.files.find? place with
      | some content => .ok content
      | none => .error .absent

/-- The text of the file at a path. -/
def readText (t : Tree) (path : Path) : Except Source.ReadFault String :=
  match t.readBytes path with
  | .error fault => .error fault
  | .ok content =>
    match String.fromUTF8? content with
    | some text => .ok text
    | none => .error .notText

/-- The folder that a path leads to. -/
def folder? (t : Tree) (path : Path) : Option Path.Names :=
  match t.locate path with
  | .ok place => if t.isFolder place then some place else none
  | .error _ => none

/-- What there is below a folder, by the names from there on: files and folders, and
the folder itself. -/
def below (t : Tree) (place : Path.Names) : List Path.Names :=
  [] :: ((t.files.keys ++ t.folders.toList).filter fun names =>
    place.isPrefixOf names && place ≠ names).map (·.drop place.length)

end Tree

/-- A way to go through a tree. It comes to everything below a folder once, in some
order. -/
structure Walk where
  entries : Tree → Path.Names → List Path.Names
  perm : ∀ t place, (entries t place).Perm (t.below place)

/-- The files first, then the folders, each in the order of their names. -/
instance : Inhabited Walk := ⟨⟨Tree.below, fun _ _ => .rfl⟩⟩

/-- A directory that holds job definitions. -/
structure Directory where
  root : Path
  /-- The extensions of job definitions. -/
  extensions : List String
deriving DecidableEq, Repr

namespace Directory

/-- The extension that a text stands for, written with or without dots in front. -/
def extensionOf (s : String) : String := String.ofList (s.toList.dropWhile (· = '.'))

/-- A directory of jobs with any of the extensions; empty ones do not count. -/
def ofExtensions (root : Path) (extensions : List String) : Directory :=
  ⟨root, (extensions.map extensionOf).filter (· ≠ "")⟩

/-- Whether a file holds a job, judged by its name. -/
def accepts (d : Directory) (path : Path) : Bool :=
  ((Path.extension? path).bind Text.ofUtf8?).any d.extensions.contains

/-- The paths of the files among the entries below `place` that hold jobs. -/
def found (d : Directory) (t : Tree) (place : Path.Names) (entries : List Path.Names) : List Path :=
  ((entries.filter fun names => t.isFile (place ++ names)).map fun names =>
    d.root.join (.ofNames names)).filter d.accepts

/-- The paths of the job definitions. -/
def paths (d : Directory) (w : Walk) (t : Tree) : Except Source.Fault (List Path) :=
  match t.folder? d.root with
  | none => .error (.noDirectory d.root)
  | some place => .ok (Path.sort (d.found t place (w.entries t place)))

/-- The directory as a source of jobs. -/
def source (d : Directory) (w : Walk) (t : Tree) : Source where
  paths := d.paths w t
  read path := (t.readText path).mapError (.unreadable path)

end Directory

end JobAtlas
