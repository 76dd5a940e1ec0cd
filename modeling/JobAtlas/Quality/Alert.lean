import JobAtlas.Data.Basic
import JobAtlas.Job.Basic
import JobAtlas.Text.Blank
import JobAtlas.Text.Integer

/-!
# Alerts

How a component reports: it ends the job with a fatal error, warns, or writes
an audit log.
-/

namespace JobAtlas

/-- A link that fires a fatal error. -/
structure Trigger where
  source : String
  label : String
  connector : String
deriving DecidableEq, Inhabited

/-- How an audit log is written. -/
inductive LogMode where
  | basic
  | log4j
deriving DecidableEq, Inhabited

/-- The report of one component. -/
inductive Alert where
  | fatal (component message code : String) (priority : Int64) (triggers : List Trigger)
  | warning (component message code : String) (continues : Bool)
  | audit (component : String) (mode : LogMode) (separator : String) (printHeader : Bool)
deriving DecidableEq, Inhabited

/-- The priority of a fatal error that declares no number. -/
def defaultPriority : Int64 := 1

/-- The field separator of an audit log that declares none. -/
def defaultSeparator : String := "|"

def Trigger.ofLink (l : Link) : Trigger :=
  ⟨l.source.getD "", l.label.getD "", l.connector.getD ""⟩

namespace Alert

/-- The component that reports. -/
def component : Alert → String
  | fatal component .. | warning component .. | audit component .. => component

/-- The alert of a component. A fatal error is triggered by the links in the
component, then by those of the job that lead to it. -/
def ofComponent? (j : Job) (c : Component) : Option Alert :=
  let value name := (c.value? name).getD ""
  match c.kind with
  | "tDie" => some <|
    fatal c.name (value "MESSAGE") (value "CODE")
      (((c.value? "PRIORITY").bind fun v => Text.signed64? (Text.trim v.toList)).getD
        defaultPriority)
      ((c.links ++ j.incoming c.name).map .ofLink)
  | "tWarn" => some <| warning c.name (value "MESSAGE") (value "CODE") true
  | "tLogRow" => some <|
    audit c.name (if c.flag "PRINT_CONTENT_WITH_LOG4J" then .log4j else .basic)
      ((c.value? "FIELDSEPARATOR").getD defaultSeparator) (c.flag "PRINT_HEADER")
  | _ => none

end Alert

/-! ## Written forms -/

instance : Coded Trigger where
  toData t := .record <|
    Data.field "source" t.source ++ Data.field "label" t.label ++
    Data.field "connector" t.connector
  ofData? := Data.Reader.read? do
    return {
      source := ← Data.required "source"
      label := ← Data.required "label"
      connector := ← Data.required "connector" }

def LogMode.label : LogMode → String
  | basic => "basic"
  | log4j => "log4j"

/-- A mode stands inside an alert, where a label may also carry an empty record. -/
instance : Coded LogMode where
  toData m := .text m.label
  ofData? d := do
    let s ← match d with
      | .record [(s, .record [])] => some s
      | d => d.label?
    [.basic, .log4j].find? fun m => m.label == s

instance : Coded Alert where
  toData
    | .fatal component message code priority triggers => .record <|
      Data.field "type" "fatal_error" ++ Data.field "component" component ++
      Data.field "message" message ++ Data.field "code" code ++
      Data.field "priority" priority ++ Data.field "triggers" triggers
    | .warning component message code continues => .record <|
      Data.field "type" "warning" ++ Data.field "component" component ++
      Data.field "message" message ++ Data.field "code" code ++
      Data.field "continue_on_error" continues
    | .audit component mode separator printHeader => .record <|
      Data.field "type" "audit_log" ++ Data.field "component" component ++
      Data.field "mode" mode ++ Data.field "separator" separator ++
      Data.field "print_header" printHeader
  ofData? d := do
    match ← d.tagged? with
    | ("fatal_error", d) =>
      Data.Reader.read? (do
        return .fatal (← Data.required "component") (← Data.required "message")
          (← Data.required "code") (← Data.required "priority") (← Data.required "triggers")) d
    | ("warning", d) =>
      Data.Reader.read? (do
        return .warning (← Data.required "component") (← Data.required "message")
          (← Data.required "code") (← Data.required "continue_on_error")) d
    | ("audit_log", d) =>
      Data.Reader.read? (do
        return .audit (← Data.required "component") (← Data.required "mode")
          (← Data.required "separator") (← Data.required "print_header")) d
    | _ => none

end JobAtlas
