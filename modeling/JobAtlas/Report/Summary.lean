import JobAtlas.Corpus.Document
import JobAtlas.Report.Script

/-!
# The summary

A report in plain text: the counts of a document, its jobs by role and name, and
its tables with their use.
-/

namespace JobAtlas.Report

def countLines (o : Overview) : List String :=
  ["Jobs Processed: " ++ toString o.jobs,
    "SQL Queries Extracted: " ++ toString o.statements,
    "Transformations (tMap): " ++ toString o.expressions,
    "Unique Tables: " ++ toString o.tables,
    "Context Variables: " ++ toString o.contextVariables]

/-- The jobs of a document by role, those of one role by name. -/
def jobsByRole (d : Document) : List (String × JobRole) :=
  JobRole.all.flatMap fun role => d.roles.entries.filter (·.2 = role)

/-- The lines of one job; a job without a summary has its role only. -/
def jobLines (d : Document) (name : String) (role : JobRole) : List String :=
  (name ++ ": " ++ role.label) ::
    match d.jobs.find? name with
    | none => []
    | some s =>
      ["  Components: " ++ toString s.components ++ ", SQL: " ++ toString s.statements ++
        ", tMap: " ++ toString s.expressions]

/-- The lines of one table; a table without use has no operations and no jobs. -/
def tableLines (t : TableAnalysis) (name : String) : List String :=
  let usage := (t.usage.find? name).getD {}
  [name ++ ":",
    "  Operations: " ++ Text.joined ", " usage.operations,
    "  Used in " ++ toString usage.jobs.length ++ " jobs"]

/-- The lines of a summary. -/
def summaryLines (d : Document) : List String :=
  ["EXTRACTION SUMMARY", rule '=' 50, ""] ++ countLines d.overview ++
  ["", "JOB HIERARCHY:", rule '-' 30] ++
  ((jobsByRole d).flatMap fun j => jobLines d j.1 j.2) ++
  ["", "TABLE ANALYSIS:", rule '-' 30] ++
  d.tables.all.flatMap (tableLines d.tables)

/-- The summary of a document. -/
def summary (d : Document) : String := ofLines (summaryLines d)

end JobAtlas.Report
