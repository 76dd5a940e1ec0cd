import JobAtlas.Data.Basic
import JobAtlas.Job.Basic

/-!
# Written forms of jobs

Each part of a job is a record with a field for each of its own. Every field is
written, null for what the definition leaves out; a field that may be left out
may also be missing when the record is read.
-/

namespace JobAtlas

instance : Coded Position where
  toData p := .record (Data.field "x" p.x ++ Data.field "y" p.y)
  ofData? := Data.Reader.read? do
    return { x := ← Data.required "x", y := ← Data.required "y" }

instance : Coded Cell where
  toData c := .record (Data.field "element_ref" c.reference ++ Data.field "value" c.value)
  ofData? := Data.Reader.read? do
    return { reference := ← Data.optional "element_ref", value := ← Data.required "value" }

instance : Coded Parameter where
  toData p := .record <|
    Data.field "name" p.name ++ Data.field "field" p.field ++ Data.field "value" p.value ++
    Data.field "values" p.cells
  ofData? := Data.Reader.read? do
    return {
      name := ← Data.required "name"
      field := ← Data.optional "field"
      value := ← Data.required "value"
      cells := ← Data.required "values" }

instance : Coded Column where
  toData c := .record <|
    Data.field "name" c.name ++ Data.field "data_type" c.dataType ++
    Data.field "nullable" c.nullable ++ Data.field "expression" c.expression ++
    Data.field "original_db_column_name" c.databaseName
  ofData? := Data.Reader.read? do
    return {
      name := ← Data.required "name"
      dataType := ← Data.required "data_type"
      nullable := ← Data.required "nullable"
      expression := ← Data.optional "expression"
      databaseName := ← Data.optional "original_db_column_name" }

instance : Coded Schema where
  toData s := .record <|
    Data.field "name" s.name ++ Data.field "connector" s.connector ++
    Data.field "columns" s.columns
  ofData? := Data.Reader.read? do
    return {
      name := ← Data.optional "name"
      connector := ← Data.optional "connector"
      columns := ← Data.required "columns" }

instance : Coded JoinKey where
  toData k := .record <|
    Data.field "key" k.key ++ Data.field "value" k.value ++ Data.field "null_option" k.nullOption
  ofData? := Data.Reader.read? do
    return {
      key := ← Data.required "key"
      value := ← Data.required "value"
      nullOption := ← Data.required "null_option" }

instance : Coded InputTable where
  toData t := .record <|
    Data.field "name" t.name ++ Data.field "matching_mode" t.matchingMode ++
    Data.field "lookup_mode" t.lookupMode ++ Data.field "inner_join" t.innerJoin ++
    Data.field "persistent" t.persistent ++ Data.field "sequence_order" t.sequenceOrder ++
    Data.field "cache_size_hint" t.cacheSizeHint ++ Data.field "preload" t.preload ++
    Data.field "expression_filter" t.expressionFilter ++
    Data.field "lookup_failure_expression" t.failureExpression ++
    Data.field "global_map_keys" t.joinKeys
  ofData? := Data.Reader.read? do
    return {
      name := ← Data.required "name"
      matchingMode := ← Data.optional "matching_mode"
      lookupMode := ← Data.optional "lookup_mode"
      innerJoin := ← Data.required "inner_join"
      persistent := ← Data.required "persistent"
      sequenceOrder := ← Data.optional "sequence_order"
      cacheSizeHint := ← Data.optional "cache_size_hint"
      preload := ← Data.required "preload"
      expressionFilter := ← Data.optional "expression_filter"
      failureExpression := ← Data.optional "lookup_failure_expression"
      joinKeys := ← Data.required "global_map_keys" }

instance : Coded OutputTable where
  toData t := .record <|
    Data.field "name" t.name ++ Data.field "expression_filter" t.expressionFilter ++
    Data.field "reject" t.reject
  ofData? := Data.Reader.read? do
    return {
      name := ← Data.required "name"
      expressionFilter := ← Data.optional "expression_filter"
      reject := ← Data.required "reject" }

instance : Coded VariableEntry where
  toData v := .record <|
    Data.field "name" v.name ++ Data.field "expression" v.expression ++
    Data.field "data_type" v.dataType
  ofData? := Data.Reader.read? do
    return {
      name := ← Data.required "name"
      expression := ← Data.optional "expression"
      dataType := ← Data.optional "data_type" }

instance : Coded VariableTable where
  toData t := .record (Data.field "name" t.name ++ Data.field "entries" t.entries)
  ofData? := Data.Reader.read? do
    return { name := ← Data.required "name", entries := ← Data.required "entries" }

instance : Coded Mapper where
  toData m := .record <|
    Data.field "input_tables" m.inputs ++ Data.field "output_tables" m.outputs ++
    Data.field "var_tables" m.variableTables ++ Data.field "incoming_filters" m.incomingFilters
  ofData? := Data.Reader.read? do
    return {
      inputs := ← Data.required "input_tables"
      outputs := ← Data.required "output_tables"
      variableTables := ← Data.required "var_tables"
      incomingFilters := ← Data.required "incoming_filters" }

instance : Coded Link where
  toData l := .record <|
    Data.field "source" l.source ++ Data.field "target" l.target ++
    Data.field "label" l.label ++ Data.field "connector_name" l.connector
  ofData? := Data.Reader.read? do
    return {
      source := ← Data.optional "source"
      target := ← Data.optional "target"
      label := ← Data.optional "label"
      connector := ← Data.optional "connector_name" }

instance : Coded Component where
  toData c := .record <|
    Data.field "component_type" c.kind ++ Data.field "unique_name" c.name ++
    Data.field "position" c.position ++ Data.field "parameters" c.parameters ++
    Data.field "metadata" c.schemas ++ Data.field "mapper" c.mappers ++
    Data.field "connections" c.links
  ofData? := Data.Reader.read? do
    return {
      kind := ← Data.required "component_type"
      name := ← Data.required "unique_name"
      position := ← Data.required "position"
      parameters := ← Data.required "parameters"
      schemas := ← Data.required "metadata"
      mappers := ← Data.required "mapper"
      links := ← Data.required "connections" }

instance : Coded ContextParameter where
  toData p := .record <|
    Data.field "name" p.name ++ Data.field "declared_type" p.declaredType ++
    Data.field "value" p.value
  ofData? := Data.Reader.read? do
    return {
      name := ← Data.required "name"
      declaredType := ← Data.required "declared_type"
      value := ← Data.required "value" }

instance : Coded ContextSet where
  toData s := .record (Data.field "name" s.name ++ Data.field "parameters" s.parameters)
  ofData? := Data.Reader.read? do
    return { name := ← Data.required "name", parameters := ← Data.required "parameters" }

instance : Coded Job where
  toData j := .record <|
    Data.field "name" j.name ++ Data.field "nodes" j.components ++
    Data.field "parameters" j.parameters ++ Data.field "connections" j.links ++
    Data.field "contexts" j.contexts
  ofData? := Data.Reader.read? do
    return {
      name := ← Data.required "name"
      components := ← Data.required "nodes"
      parameters := ← Data.required "parameters"
      links := ← Data.required "connections"
      contexts := ← Data.required "contexts" }

end JobAtlas
