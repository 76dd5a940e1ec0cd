import JobAtlas.Corpus.Basic
import JobAtlas.Settings.Basic

/-!
# Advice

Remarks on a corpus for those who migrate it: suggestions on performance, and
recommendations for before, during and after the migration. A remark is made
when a count goes beyond its threshold.
-/

namespace JobAtlas

/-- A remark that is made under a condition. -/
def remarkIf (condition : Bool) (remark : String) : List String :=
  if condition then [remark] else []

/-- How many of the busy tables a remark names. -/
def namedTables : Nat := 3

/-- The tables that more statements name than the threshold allows, in order. -/
def busyTables (c : Corpus) (threshold : Nat) : List String :=
  let accesses := c.statements.flatMap (·.tables)
  (SortedSet.ofList accesses).toList.filter fun table => threshold < accesses.count table

/-- The number of statements that are too long. -/
def longStatements (c : Corpus) (threshold : Nat) : Nat :=
  c.statements.countP fun s => threshold < s.cleaned.length

/-- The number of expressions that are too long. -/
def longExpressions (c : Corpus) (threshold : Nat) : Nat :=
  c.expressions.countP fun e => threshold < e.expression.length

/-- Whether a table's name tells that its rows belong to points in time. -/
def isDated (table : String) : Bool :=
  Text.contains table "date" || Text.contains table "timestamp"

/-- Suggestions on performance. -/
def suggestions (c : Corpus) (s : Settings) : List String :=
  let queries := longStatements c s.thresholds.queryLength
  let busy := busyTables c s.thresholds.tableAccesses
  let expressions := longExpressions c s.thresholds.expressionLength
  remarkIf (0 < queries)
    ("Consider breaking down " ++ toString queries ++
      " complex SQL queries into smaller CTEs") ++
  remarkIf (!busy.isEmpty)
    ("Tables " ++ Text.joined ", " (busy.take namedTables) ++
      " are accessed multiple times - consider staging models") ++
  remarkIf (c.tables.toList.any isDated)
    "Consider adding partitioning on date/timestamp columns for better performance" ++
  remarkIf (0 < expressions)
    ("Found " ++ toString expressions ++
      " complex expressions - consider using DBT macros for reusability")

/-- Recommendations by the phases of a migration. -/
structure Recommendations where
  before : List String := []
  during : List String := []
  after : List String := []
deriving DecidableEq, Repr, Inhabited

/-- Recommendations for the migration of a corpus. -/
def recommendations (c : Corpus) (s : Settings) : Recommendations where
  before :=
    remarkIf (s.thresholds.jobs < c.jobs.length)
      "Consider phased migration approach for large job count" ++
    remarkIf (!c.contextVariables.isEmpty)
      ("Document " ++ toString c.contextVariables.size ++ " context variables and their mappings")
  during :=
    remarkIf (c.jobs.any (·.hasSubJob)) "Maintain job orchestration hierarchy in DBT" ++
    remarkIf (c.jobs.any (·.hasRejects)) "Implement error handling patterns using DBT tests"
  after :=
    ["Run all validation queries to ensure data integrity",
      "Set up monitoring for DBT model performance"] ++
    remarkIf (s.thresholds.tables < c.tables.size)
      "Create documentation for all migrated models"

instance : Coded Recommendations where
  toData r := .record <|
    Data.field "pre_migration" r.before ++ Data.field "during_migration" r.during ++
    Data.field "post_migration" r.after
  ofData? := Data.Reader.read? do
    return {
      before := ← Data.required "pre_migration"
      during := ← Data.required "during_migration"
      after := ← Data.required "post_migration" }

end JobAtlas
