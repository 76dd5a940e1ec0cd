import JobAtlas.Corpus.Document

/-!
# Listings

The expressions of a corpus, grouped by job, and the context variables of a
document.
-/

namespace JobAtlas.Report

/-- An expression in the listing of its job. -/
structure ExpressionListing where
  component : String
  /-- The output column and the expression. -/
  expression : String
  dataType : String
deriving DecidableEq, Repr, Inhabited

def ExpressionListing.ofExpression (e : Mapping.Expression) : ExpressionListing :=
  ⟨e.component, e.output ++ " = " ++ e.expression, e.dataType⟩

/-- Listings by job. -/
abbrev Listings := SortedMap String (List ExpressionListing)

/-- An expression is listed behind those that its job has. -/
def Listings.add (m : Listings) (x : Mapping.Expression) : Listings :=
  m.update x.job fun ls? => ls?.getD [] ++ [.ofExpression x]

/-- All expressions, by job. -/
structure ExpressionDocument where
  total : Nat
  byJob : Listings
deriving DecidableEq, Inhabited

/-- The expressions of a corpus, by job. -/
def ExpressionDocument.ofCorpus (c : Corpus) : ExpressionDocument where
  total := c.expressions.length
  byJob := c.expressions.foldl Listings.add ∅

/-- The context variables of a document. -/
structure VariableDocument where
  contextVariables : SortedMap String Context.MappingEntry
deriving DecidableEq, Inhabited

def VariableDocument.ofDocument (d : Document) : VariableDocument := ⟨d.contextVariables⟩

instance : Coded ExpressionListing where
  toData l := .record <|
    Data.field "component" l.component ++ Data.field "expression" l.expression ++
    Data.field "type" l.dataType
  ofData? := Data.Reader.read? do
    return {
      component := ← Data.required "component"
      expression := ← Data.required "expression"
      dataType := ← Data.required "type" }

instance : Coded ExpressionDocument where
  toData d := .record <|
    Data.field "total_transformations" d.total ++ Data.field "by_job" d.byJob
  ofData? := Data.Reader.read? do
    return { total := ← Data.required "total_transformations", byJob := ← Data.required "by_job" }

instance : Coded VariableDocument where
  toData d := .record (Data.field "context_variable_mappings" d.contextVariables)
  ofData? := Data.Reader.read? do
    return { contextVariables := ← Data.required "context_variable_mappings" }

end JobAtlas.Report
