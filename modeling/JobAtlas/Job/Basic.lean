/-!
# Jobs

A job is one dataflow graph: components with their parameters, schemas and
mappers, the links between them, and the context sets that give its variables
their values. What the definition of a job leaves out is `none`, empty or
`false`.
-/

namespace JobAtlas

/-- Where a component stands on the canvas. -/
structure Position where
  x : Int64 := 0
  y : Int64 := 0
deriving DecidableEq, Inhabited

/-- One cell of a table parameter. -/
structure Cell where
  /-- The column that the cell belongs to, such as `INPUT_COLUMN`. -/
  reference : Option String
  value : String
deriving DecidableEq, Inhabited

/-- A named setting of a component or of a job. -/
structure Parameter where
  name : String
  /-- The kind of field, such as `TEXT`, `CHECK` or `TABLE`. -/
  field : Option String
  value : String
  cells : List Cell
deriving DecidableEq, Inhabited

/-- A table parameter has cells rather than a value. -/
def Parameter.isTable (p : Parameter) : Bool := p.field == some "TABLE"

/-- A column of a schema. -/
structure Column where
  name : String
  dataType : String
  nullable : Bool
  expression : Option String
  databaseName : Option String
deriving DecidableEq, Inhabited

/-- The schema of what a component reads or writes through a connector. -/
structure Schema where
  name : Option String
  connector : Option String
  columns : List Column
deriving DecidableEq, Inhabited

/-- A key on which a lookup joins. -/
structure JoinKey where
  key : String
  value : String
  nullOption : String
deriving DecidableEq, Inhabited

/-- An input of a mapper: its main flow or a lookup. -/
structure InputTable where
  name : String
  matchingMode : Option String
  lookupMode : Option String
  innerJoin : Bool
  persistent : Bool
  sequenceOrder : Option String
  cacheSizeHint : Option String
  preload : Bool
  expressionFilter : Option String
  failureExpression : Option String
  joinKeys : List JoinKey
deriving DecidableEq, Inhabited

structure OutputTable where
  name : String
  expressionFilter : Option String
  reject : Bool
deriving DecidableEq, Inhabited

/-- An intermediate variable of a mapper. -/
structure VariableEntry where
  name : String
  expression : Option String
  dataType : Option String
deriving DecidableEq, Inhabited

structure VariableTable where
  name : String
  entries : List VariableEntry
deriving DecidableEq, Inhabited

/-- How a mapping component maps its inputs to its outputs. -/
structure Mapper where
  inputs : List InputTable
  outputs : List OutputTable
  variableTables : List VariableTable
  incomingFilters : List String
deriving DecidableEq, Inhabited

/-- A link between two components. -/
structure Link where
  source : Option String
  target : Option String
  label : Option String
  /-- The kind of link, such as `FLOW`, `SUBJOB_OK` or `COMPONENT_ERROR`. -/
  connector : Option String
deriving DecidableEq, Inhabited

/-- One component of a job. -/
structure Component where
  /-- The type of component, such as `tDBInput`. -/
  kind : String
  /-- The name within the job, such as `tDBInput_1`. -/
  name : String
  position : Position
  parameters : List Parameter
  schemas : List Schema
  mappers : List Mapper
  /-- Links that are written inside the component. -/
  links : List Link
deriving DecidableEq, Inhabited

/-- A variable of a job, as one context set declares it. -/
structure ContextParameter where
  name : String
  declaredType : String
  value : String
deriving DecidableEq, Inhabited

/-- The variables of a job in one environment. -/
structure ContextSet where
  name : String
  parameters : List ContextParameter
deriving DecidableEq, Inhabited

/-- A job definition. -/
structure Job where
  name : String
  components : List Component
  /-- Parameters of the job itself. -/
  parameters : List Parameter
  /-- Links between components. -/
  links : List Link
  contexts : List ContextSet
deriving DecidableEq, Inhabited

namespace Component

/-- The parameters with a name, in document order. -/
def parametersNamed (c : Component) (name : String) : List Parameter :=
  c.parameters.filter (·.name == name)

/-- The first parameter with a name. -/
def parameter? (c : Component) (name : String) : Option Parameter :=
  c.parameters.find? (·.name == name)

/-- The value of the first parameter with a name; empty if it has none. -/
def value? (c : Component) (name : String) : Option String := (c.parameter? name).map (·.value)

/-- The table parameters with a name. -/
def tables (c : Component) (name : String) : List Parameter :=
  (c.parametersNamed name).filter (·.isTable)

/-- The first parameter with this name has the value `true`. -/
def flag (c : Component) (name : String) : Bool := c.value? name == some "true"

end Component

namespace Job

/-- The parameters of the job itself, then those of its components. -/
def allParameters (j : Job) : List Parameter :=
  j.parameters ++ j.components.flatMap (·.parameters)

/-- The links that lead to a component. -/
def incoming (j : Job) (component : String) : List Link :=
  j.links.filter (·.target == some component)

end Job

end JobAtlas
