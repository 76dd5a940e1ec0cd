import JobAtlas.Mapping.Expression
import JobAtlas.Text.Blank
import JobAtlas.Text.Integer

/-!
# The structure of a mapping

What a mapping component reads and writes, on which lookups it joins, what it
filters, and which variables it computes on the way.
-/

namespace JobAtlas.Mapping

structure InputField where
  name : String
  dataType : String
  nullable : Bool
deriving DecidableEq, Inhabited

structure OutputField where
  name : String
  dataType : String
  expression : String
deriving DecidableEq, Inhabited

/-- A filter on all inputs, or on one output table. -/
inductive Filter where
  | input (expression : String)
  | output (table expression : String)
deriving DecidableEq, Inhabited

structure JoinCondition where
  value : String
  nullHandling : String
deriving DecidableEq, Inhabited

/-- A table that rows are looked up in. -/
structure Lookup where
  table : String
  matchingMode : String
  lookupMode : String
  innerJoin : Bool
  persistent : Bool
  /-- The place in the order of evaluation. -/
  priority : UInt32
  cacheSize : Option String
  preload : Bool
  joinKeys : SortedMap String JoinCondition
  expressionFilter : Option String
  /-- What is computed when no row matches. -/
  fallback : Option String
deriving DecidableEq, Inhabited

structure Variable where
  name : String
  expression : String
  dataType : String
deriving DecidableEq, Inhabited

/-- The structure of one mapping component. -/
structure Structure where
  inputs : SortedMap String (List InputField)
  outputs : SortedMap String (List OutputField)
  filters : List Filter
  lookups : List Lookup
  computed : List Variable
  rejects : List String
deriving DecidableEq, Inhabited

/-- The connector of the schemas that a mapping reads. -/
def inputConnector : String := "FLOW"

/-- The connector of the schemas that a mapping writes. -/
def outputConnector : String := "OUTPUT"

/-- The type of a variable that declares none. -/
def defaultVariableType : String := "id_String"

/-- The name under which a schema is kept. -/
def schemaName (s : Schema) : String := s.name.getD "default"

def InputField.ofColumn (c : Column) : InputField := ⟨c.name, c.dataType, c.nullable⟩

def OutputField.ofColumn (c : Column) : OutputField := ⟨c.name, c.dataType, c.expression.getD ""⟩

/-- The filters on the inputs of a mapper that say anything. -/
def inputFilters (m : Mapper) : List Filter :=
  (m.incomingFilters.filter fun f => f ≠ "" ∧ f ≠ "true").map .input

/-- The filters on the outputs of a mapper. -/
def outputFilters (m : Mapper) : List Filter :=
  m.outputs.filterMap fun t => (nonEmpty t.expressionFilter).map (.output t.name)

/-- The lookup that an input table describes, if it has a mode. `index` is its
place among the inputs and stands in for a missing priority. -/
def Lookup.ofTable? (t : InputTable) (index : Nat) : Option Lookup :=
  let matchingMode := t.matchingMode.getD ""
  let lookupMode := t.lookupMode.getD ""
  if matchingMode = "" ∧ lookupMode = "" then none
  else some {
    table := t.name
    matchingMode
    lookupMode
    innerJoin := t.innerJoin
    persistent := t.persistent
    priority :=
      (t.sequenceOrder.bind fun s => Text.word32? (Text.trim s.toList)).getD (.ofNat index)
    cacheSize := nonEmpty t.cacheSizeHint
    preload := t.preload
    joinKeys := .ofList (t.joinKeys.map fun k => (k.key, ⟨k.value, k.nullOption⟩))
    expressionFilter := nonEmpty t.expressionFilter
    fallback := nonEmpty t.failureExpression }

/-- The lookups of a mapper. -/
def mapperLookups (m : Mapper) : List Lookup :=
  m.inputs.zipIdx.filterMap fun t => Lookup.ofTable? t.1 t.2

/-- The variable that an entry defines, if it has a name and an expression. -/
def Variable.ofEntry? (v : VariableEntry) : Option Variable := do
  let expression ← nonEmpty v.expression
  if v.name = "" then none
  else some ⟨v.name, expression, v.dataType.getD defaultVariableType⟩

/-- Define a variable. One that is defined again keeps its place. -/
def define (v : Variable) : List Variable → List Variable
  | [] => [v]
  | w :: vs => if w.name = v.name then v :: vs else w :: define v vs

/-- The variables that are left after all definitions of a component. -/
def componentVariables (c : Component) : List Variable :=
  (((c.mappers.flatMap (·.variableTables)).flatMap (·.entries)).filterMap Variable.ofEntry?).foldl
    (fun vs v => define v vs) []

/-- The structure of a mapping component. Of two schemas with one name the last
one counts. -/
def Structure.ofComponent (c : Component) : Structure where
  inputs := .ofList <|
    (c.schemas.filter (·.connector == some inputConnector)).map fun s =>
      (schemaName s, s.columns.map .ofColumn)
  outputs := .ofList <|
    (c.schemas.filter (·.connector == some outputConnector)).map fun s =>
      (schemaName s, s.columns.map .ofColumn)
  filters := c.mappers.flatMap fun m => inputFilters m ++ outputFilters m
  lookups := c.mappers.flatMap mapperLookups
  computed := componentVariables c
  rejects := c.mappers.flatMap fun m => (m.outputs.filter (·.reject)).map (·.name)

/-! ## Written forms -/

instance : Coded InputField where
  toData f := .record <|
    Data.field "name" f.name ++ Data.field "type" f.dataType ++ Data.field "nullable" f.nullable
  ofData? := Data.Reader.read? do
    return {
      name := ← Data.required "name"
      dataType := ← Data.required "type"
      nullable := ← Data.required "nullable" }

instance : Coded OutputField where
  toData f := .record <|
    Data.field "name" f.name ++ Data.field "type" f.dataType ++
    Data.field "expression" f.expression
  ofData? := Data.Reader.read? do
    return {
      name := ← Data.required "name"
      dataType := ← Data.required "type"
      expression := ← Data.required "expression" }

instance : Coded Filter where
  toData
    | .input expression => .record <|
      Data.field "type" "input_filter" ++ Data.field "expression" expression
    | .output table expression => .record <|
      Data.field "type" "output_filter" ++ Data.field "table" table ++
      Data.field "expression" expression
  ofData? d := do
    match ← d.tagged? with
    | ("input_filter", d) =>
      Data.Reader.read? (do return .input (← Data.required "expression")) d
    | ("output_filter", d) =>
      Data.Reader.read?
        (do return .output (← Data.required "table") (← Data.required "expression")) d
    | _ => none

instance : Coded JoinCondition where
  toData j := .record <|
    Data.field "value" j.value ++ Data.field "null_handling" j.nullHandling
  ofData? := Data.Reader.read? do
    return {
      value := ← Data.required "value"
      nullHandling := ← Data.required "null_handling" }

instance : Coded Lookup where
  toData l := .record <|
    Data.field "table" l.table ++ Data.field "matching_mode" l.matchingMode ++
    Data.field "lookup_mode" l.lookupMode ++ Data.field "inner_join" l.innerJoin ++
    Data.field "persistent" l.persistent ++ Data.field "priority" l.priority ++
    Data.field "cache_size" l.cacheSize ++ Data.field "preload" l.preload ++
    Data.field "join_keys" l.joinKeys ++ Data.field "expression_filter" l.expressionFilter ++
    Data.field "fallback_expression" l.fallback
  ofData? := Data.Reader.read? do
    return {
      table := ← Data.required "table"
      matchingMode := ← Data.required "matching_mode"
      lookupMode := ← Data.required "lookup_mode"
      innerJoin := ← Data.required "inner_join"
      persistent := ← Data.required "persistent"
      priority := ← Data.required "priority"
      cacheSize := ← Data.optional "cache_size"
      preload := ← Data.required "preload"
      joinKeys := ← Data.required "join_keys"
      expressionFilter := ← Data.optional "expression_filter"
      fallback := ← Data.optional "fallback_expression" }

instance : Coded Variable where
  toData v := .record <|
    Data.field "name" v.name ++ Data.field "expression" v.expression ++
    Data.field "type" v.dataType
  ofData? := Data.Reader.read? do
    return {
      name := ← Data.required "name"
      expression := ← Data.required "expression"
      dataType := ← Data.required "type" }

instance : Coded Structure where
  toData s := .record <|
    Data.field "input_schemas" s.inputs ++ Data.field "output_schemas" s.outputs ++
    Data.field "filters" s.filters ++ Data.field "lookups" s.lookups ++
    Data.field "variables" s.computed ++ Data.field "reject_flows" s.rejects
  ofData? := Data.Reader.read? do
    return {
      inputs := ← Data.required "input_schemas"
      outputs := ← Data.required "output_schemas"
      filters := ← Data.required "filters"
      lookups := ← Data.required "lookups"
      computed := ← Data.required "variables"
      rejects := ← Data.required "reject_flows" }

end JobAtlas.Mapping
