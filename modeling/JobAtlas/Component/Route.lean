import JobAtlas.Text.Search

/-!
# Component types

The type of a component decides how it is handled. Components of a database
family have a role (`DatabaseRole.of?`), and `Route.of` sends every type to one
of four routes: errors first, then the life of connections, then what is
dropped, and all else is counted and scanned.
-/

namespace JobAtlas

/-- What a component of a database family does, by the end of its type. -/
inductive DatabaseRole where
  | connection
  | input
  | output
  | row
  | commit
  | rollback
  | close
deriving DecidableEq, Repr

namespace DatabaseRole

/-- Connections are opened, committed, rolled back and closed. -/
def isLifecycle : DatabaseRole → Bool
  | connection | commit | rollback | close => true
  | _ => false

/-- Whether the role ends a transaction. -/
def isTerminal : DatabaseRole → Bool
  | commit | rollback | close => true
  | _ => false

/-- Whether the role reads or writes rows. -/
def isOperation : DatabaseRole → Bool
  | input | output | row => true
  | _ => false

def ofSuffix? : String → Option DatabaseRole
  | "Connection" => some connection
  | "Input" => some input
  | "Output" => some output
  | "Row" => some row
  | "Commit" => some commit
  | "Rollback" => some rollback
  | "Close" => some close
  | _ => none

/-- The beginnings of the types of database components. -/
def families : List String := ["tDB", "tRedshift"]

/-- The role of a component type: a family followed by the name of a role. -/
def of? (kind : String) : Option DatabaseRole :=
  (families.findSome? (Text.dropStart? · kind)).bind ofSuffix?

end DatabaseRole

/-- Components that report errors or write audit logs. -/
def errorKinds : List String := ["tDie", "tWarn", "tLogRow"]

/-- Components without anything to extract. -/
def excludedKinds : List String :=
  ["tPrejob", "tPostjob", "tPreJob", "tPostJob", "tStatCatcher", "tJava", "tSystem", "tSleep",
    "tContextLoad"]

/-- Components whose settings are validation rules. -/
def qualityKinds : List String := ["tSchemaComplianceCheck", "tFilterRow", "tAggregateRow"]

/-- The component that maps fields. -/
def mappingKind : String := "tMap"

/-- The component that runs another job. -/
def subJobKind : String := "tRunJob"

/-- What is extracted from a counted component besides its SQL. -/
structure Processing where
  mapping : Bool
  quality : Bool
  subJob : Bool
deriving DecidableEq, Repr

/-- How a component is handled. -/
inductive Route where
  | errorHandling
  | lifecycle
  | excluded
  | processing (what : Processing)
deriving DecidableEq, Repr

/-- The route of a component type. -/
def Route.of (kind : String) : Route :=
  if kind ∈ errorKinds then errorHandling
  else if (DatabaseRole.of? kind).any (·.isLifecycle) then lifecycle
  else if kind ∈ excludedKinds then excluded
  else
    processing
      { mapping := kind == mappingKind
        quality := qualityKinds.contains kind
        subJob := kind == subJobKind }

/-- Whether components of this type are counted. -/
def Route.isCounted : Route → Bool
  | processing _ => true
  | _ => false

end JobAtlas
