import JobAtlas.Data.Basic
import JobAtlas.Markup.Error
import JobAtlas.Path

/-!
# Sources

A source lists the paths of job definitions and reads the text at a path.
Either may fail: `Source.Fault` holds the causes, and `ImportError` is the form
in which a failure is reported.
-/

namespace JobAtlas

/-- A failure to get at a job, by its kind, with an explanation. -/
inductive ImportError where
  | parse (text : String)
  | structural (text : String)
  | io (text : String)
deriving DecidableEq, Repr, Inhabited

namespace ImportError

def message : ImportError → String
  | parse text => "Parse error: " ++ text
  | structural text => "Structure error: " ++ text
  | io text => "IO error: " ++ text

/-- The failure of a document that is not read as elements. -/
def ofMarkup (e : Markup.Error) : ImportError :=
  if e.isStructural then structural e.message else parse e.message

end ImportError

/-- A record whose only field is named for the kind. -/
instance : Coded ImportError where
  toData
    | .parse text => .record (Data.field "ParseError" text)
    | .structural text => .record (Data.field "StructureError" text)
    | .io text => .record (Data.field "IoError" text)
  ofData?
    | .record [("ParseError", .text text)] => some (.parse text)
    | .record [("StructureError", .text text)] => some (.structural text)
    | .record [("IoError", .text text)] => some (.io text)
    | _ => none

namespace Source

/-- Why the text at a path is not read. -/
inductive ReadFault where
  | absent
  | belowFile
  | folder
  | notText
deriving DecidableEq, Repr

def ReadFault.message : ReadFault → String
  | absent => "No such file or directory (os error 2)"
  | belowFile => "Not a directory (os error 20)"
  | folder => "Is a directory (os error 21)"
  | notText => "stream did not contain valid UTF-8"

/-- Why a source is not listed, or a job not read. -/
inductive Fault where
  | noDirectory (root : Path)
  | noJob (path : Path)
  | unreadable (path : Path) (fault : ReadFault)
deriving DecidableEq, Repr

def Fault.description : Fault → String
  | noDirectory root => "Directory not found: " ++ root.shown
  | noJob path => "No such job: " ++ path.shown
  | unreadable path fault => path.shown ++ ": " ++ fault.message

/-- Every such failure is reported as one of input. -/
def Fault.report (f : Fault) : ImportError := .io f.description

end Source

/-- Where job definitions are stored. -/
structure Source where
  /-- The paths of all job definitions, in order. -/
  paths : Except Source.Fault (List Path)
  /-- The text at a path. -/
  read : Path → Except Source.Fault String

end JobAtlas
