import JobAtlas.Job.Basic
import JobAtlas.Markup.Document
import JobAtlas.Text.Blank
import JobAtlas.Text.Integer

/-!
# Jobs from documents

`Job.ofElement` reads a job off an element tree. The outermost elements of four
kinds below the root make it up: components, with the components nested in
them, parameters of the job itself, links and context sets. Elements of other
kinds are transparent.
-/

namespace JobAtlas

namespace Element

mutual

/-- The outermost elements satisfying `p` in a tree. -/
def outermost (p : Element → Bool) : Element → List Element
  | e@⟨_, _, children⟩ => if p e then [e] else outermostAll p children

/-- The outermost elements satisfying `p` in a row of trees. -/
def outermostAll (p : Element → Bool) : List Element → List Element
  | [] => []
  | e :: es => e.outermost p ++ outermostAll p es

end

/-- An attribute value, read as a signed number, or zero. -/
def coordinate (e : Element) (key : String) : Int64 :=
  ((e.attr? key).bind fun v => Text.signed64? v.toList).getD 0

end Element

def Cell.ofElement (e : Element) : Cell := ⟨e.attr? "elementRef", e.attrOrEmpty "value"⟩

def Parameter.ofElement (e : Element) : Parameter where
  name := e.attrOrEmpty "name"
  field := e.attr? "field"
  value := e.attrOrEmpty "value"
  cells := (e.descendantsNamed "elementValue").map .ofElement

/-- A column may be null unless the document denies it. -/
def Column.ofElement (e : Element) : Column where
  name := e.attrOrEmpty "name"
  dataType := e.attrOrEmpty "type"
  nullable := (e.attr? "nullable").all (· == "true")
  expression := e.attr? "expression"
  databaseName := e.attr? "originalDbColumnName"

def Schema.ofElement (e : Element) : Schema where
  name := e.attr? "name"
  connector := e.attr? "connector"
  columns := (e.descendantsNamed "column").map .ofElement

def JoinKey.ofElement (e : Element) : JoinKey :=
  ⟨e.attrOrEmpty "key", e.attrOrEmpty "value", e.attrOrEmpty "nullOption"⟩

def InputTable.ofElement (e : Element) : InputTable where
  name := e.attrOrEmpty "name"
  matchingMode := e.attr? "matchingMode"
  lookupMode := e.attr? "lookupMode"
  innerJoin := e.flag "innerJoin"
  persistent := e.flag "persistent"
  sequenceOrder := e.attr? "sequenceOrder"
  cacheSizeHint := e.attr? "cacheSizeHint"
  preload := e.flag "preload"
  expressionFilter := e.attr? "expressionFilter"
  failureExpression := e.attr? "lookupFailureExpression"
  joinKeys := (e.descendantsNamed "globalMapKeysValues").map .ofElement

def OutputTable.ofElement (e : Element) : OutputTable :=
  ⟨e.attrOrEmpty "name", e.attr? "expressionFilter", e.flag "reject"⟩

def VariableEntry.ofElement (e : Element) : VariableEntry :=
  ⟨e.attrOrEmpty "name", e.attr? "expression", e.attr? "type"⟩

def VariableTable.ofElement (e : Element) : VariableTable :=
  ⟨e.attrOrEmpty "name", (e.descendantsNamed "mapperTableEntries").map .ofElement⟩

def Mapper.ofElement (e : Element) : Mapper where
  inputs := (e.descendantsNamed "inputTables").map .ofElement
  outputs := (e.descendantsNamed "outputTables").map .ofElement
  variableTables := (e.descendantsNamed "varTables").map .ofElement
  incomingFilters := (e.descendantsNamed "filterIncomingConnections").map (·.attrOrEmpty "value")

def Link.ofElement (e : Element) : Link :=
  ⟨e.attr? "source", e.attr? "target", e.attr? "label", e.attr? "connectorName"⟩

/-- A text without the quotes at its ends. -/
def unquoted (s : String) : String := String.ofList (Text.strip (· == '"') s.toList)

/-- The name of a component: its own attribute, or else the parameter
`UNIQUE_NAME` without quotes. -/
def Component.nameOf (e : Element) (parameters : List Parameter) : String :=
  match e.attr? "uniqueName" with
  | some name => name
  | none =>
    match parameters.find? (·.name == "UNIQUE_NAME") with
    | some p => unquoted p.value
    | none => ""

def Component.ofElement (e : Element) : Component :=
  let parameters := (e.descendantsNamed "elementParameter").map .ofElement
  { kind := e.attrOrEmpty "componentName"
    name := nameOf e parameters
    position := ⟨e.coordinate "posX", e.coordinate "posY"⟩
    parameters
    schemas := (e.descendantsNamed "metadata").map .ofElement
    mappers := (e.descendantsNamed "nodeData").map .ofElement
    links := (e.descendantsNamed "connection").map .ofElement }

def ContextParameter.ofElement (e : Element) : ContextParameter :=
  ⟨e.attrOrEmpty "name", e.attrOrEmpty "type", e.attrOrEmpty "value"⟩

def ContextSet.ofElement (e : Element) : ContextSet :=
  ⟨e.attrOrEmpty "name", (e.descendantsNamed "contextParameter").map .ofElement⟩

namespace Job

/-- The kinds of elements that a job is made of. -/
def isPart (e : Element) : Bool :=
  e.name == "node" || e.name == "elementParameter" || e.name == "connection" || e.name == "context"

/-- The parts of a job: the outermost such elements below the root. -/
def partsOf (root : Element) : List Element := Element.outermostAll isPart root.children

/-- The parts with a name. -/
def partsNamed (root : Element) (name : String) : List Element :=
  (partsOf root).filter (·.name == name)

/-- The job that an element tree defines. A component is followed by the
components nested in it. -/
def ofElement (name : String) (root : Element) : Job where
  name
  components :=
    (partsNamed root "node").flatMap fun e => (e :: e.descendantsNamed "node").map .ofElement
  parameters := (partsNamed root "elementParameter").map .ofElement
  links := (partsNamed root "connection").map .ofElement
  contexts := (partsNamed root "context").map .ofElement

/-- Read a job definition. -/
def parse (name document : String) : Except Markup.Error Job :=
  (Element.parse document).map (ofElement name)

end Job

end JobAtlas
