import JobAtlas.Corpus.Basic

/-!
# The script of statements

All statements of a corpus as one script. Comments tell where each statement
was found and what it does. A script is built from its lines.
-/

namespace JobAtlas.Report

/-- Lines, each with a line feed at its end. -/
def ofLines (lines : List String) : String := String.join (lines.map (· ++ "\n"))

/-- A rule across the page. -/
def rule (c : Char) (width : Nat) : String := String.ofList (List.replicate width c)

/-- The lines above all statements. -/
def scriptHeader (c : Corpus) : List String :=
  ["-- SQL EXTRACTION",
    "-- Total Queries: " ++ toString c.statements.length,
    "-- Unique Tables: " ++ toString c.tables.size,
    "-- " ++ rule '=' 50,
    ""]

/-- The lines of one statement, which is the one with this number. -/
def statementLines (number : Nat) (s : Sql.Statement) : List String :=
  ["-- Query " ++ toString number ++ ": " ++ s.job ++ "." ++ s.component,
    "-- Operation: " ++ s.operation.label,
    "-- Tables: " ++ Text.joined ", " s.tables] ++
  (if s.contextVariables.isEmpty then []
    else ["-- Context Variables: " ++ Text.joined ", " s.contextVariables]) ++
  ["", s.cleaned ++ ";", "", "-- " ++ rule '-' 50, ""]

/-- The lines of a script. -/
def scriptLines (c : Corpus) : List String :=
  scriptHeader c ++ (c.statements.zipIdx 1).flatMap fun s => statementLines s.2 s.1

/-- The script of a corpus. -/
def script (c : Corpus) : String := ofLines (scriptLines c)

end JobAtlas.Report
