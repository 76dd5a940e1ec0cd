import JobAtlas.Corpus.Advice
import JobAtlas.Corpus.Check
import JobAtlas.Corpus.TableUsage

/-!
# Documents

The document of a corpus holds all that an extraction finds: counts, the roles
and summaries of the jobs, statements, expressions, tables and variables, what
single jobs have of transactions, alerts, rules, settings and graphs, and the
remarks and checks. `Document.ofCorpus` assembles it.
-/

namespace JobAtlas

open scoped Counting

/-- The counts of a corpus, and the labels of its document. -/
structure Overview where
  generatedAt : Option String
  jobs : Nat
  statements : Nat
  expressions : Nat
  tables : Nat
  contextVariables : Nat
  transactions : Nat
  alerts : Nat
  qualityRules : Nat
  version : String
  sourcePlatform : String
  targetPlatform : String
deriving DecidableEq, Repr, Inhabited

/-- What a document says of one job. -/
structure JobSummary where
  role : JobRole
  components : Nat
  statements : Nat
  expressions : Nat
  tables : List String
  graph : Graph.Dependency
  structures : SortedMap String Mapping.Structure
  complexity : UInt64
  hasTransactions : Bool
  hasAlerts : Bool
  hasQualityRules : Bool
deriving DecidableEq, Inhabited

/-- The document of a corpus. The maps by job hold the jobs that have something
to hold. -/
structure Document where
  overview : Overview
  roles : SortedMap String JobRole
  jobs : SortedMap String JobSummary
  queries : List Sql.QueryEntry
  expressions : List Mapping.Entry
  tables : TableAnalysis
  contextVariables : SortedMap String Context.MappingEntry
  transactions : SortedMap String Transaction.Summary
  alerts : SortedMap String (List Alert)
  qualityRules : SortedMap String (SortedMap String (List QualityRule))
  performance : SortedMap String PerformanceHints
  connections : SortedMap String (SortedMap String ConnectionSettings)
  suggestions : List String
  graphs : SortedMap String Graph.Dependency
  checks : List Check
  recommendations : Recommendations
deriving DecidableEq, Inhabited

/-- How complex a job is: its components count twice, its statements three
times, its expressions five times, and its tables once. The score is a 64-bit
word: a sum that does not fit wraps around. -/
def Survey.complexity (s : Survey) : UInt64 :=
  .ofNat (2 * s.componentCount + 3 * s.statements.length + 5 * s.expressions.length +
    s.tables.size)

/-- The counts of a corpus; `time` is when its document is made. -/
def Overview.ofCorpus (c : Corpus) (s : Settings.Output) (time : String) : Overview where
  generatedAt := if s.isStamped then some time else none
  jobs := c.jobs.length
  statements := c.statements.length
  expressions := c.expressions.length
  tables := c.tables.size
  contextVariables := c.contextVariables.size
  transactions := ((c.jobs.filterMap (·.transactions)).map (·.groups.length)).sum
  alerts := (c.jobs.map (·.alerts.length)).sum
  qualityRules := ((c.jobs.flatMap (·.qualityRules.values)).map (·.length)).sum
  version := s.version
  sourcePlatform := s.sourcePlatform
  targetPlatform := s.targetPlatform

/-- What jobs have, by their names; of two jobs with one name, what the last one
of those has that have something. -/
def byJob {α : Type} (part? : Survey → Option α) (jobs : List Survey) : SortedMap String α :=
  .ofList <| jobs.filterMap fun s => (part? s).map (s.name, ·)

/-- A map, unless it is empty. -/
def SortedMap.nonEmpty? {α : Type} (m : SortedMap String α) : Option (SortedMap String α) :=
  if m.isEmpty then none else some m

/-- The alerts of a job, if it has any. -/
def Survey.alerts? (s : Survey) : Option (List Alert) :=
  if s.alerts.isEmpty then none else some s.alerts

/-- The graph of a job, if it has components. -/
def Survey.graph? (s : Survey) : Option Graph.Dependency :=
  if s.graph.isEmpty then none else some s.graph

/-- What a corpus says of one of its jobs. The flags tell whether any job of
this name has such parts. -/
def JobSummary.ofSurvey (c : Corpus) (s : Survey) : JobSummary where
  role := (c.roles.find? s.name).getD .processor
  components := s.componentCount
  statements := s.statements.length
  expressions := s.expressions.length
  tables := s.tables.toList
  graph := s.graph
  structures := s.structures
  complexity := s.complexity
  hasTransactions := (byJob (·.transactions) c.jobs).contains s.name
  hasAlerts := (byJob (·.alerts?) c.jobs).contains s.name
  hasQualityRules := (byJob (·.qualityRules.nonEmpty?) c.jobs).contains s.name

/-- The document of a corpus; `time` is when it is made. -/
def Document.ofCorpus (c : Corpus) (s : Settings) (time : String) : Document where
  overview := .ofCorpus c s.output time
  roles := c.roles
  jobs := byJob (fun j => some (.ofSurvey c j)) c.jobs
  queries := c.statements.map .ofStatement
  expressions := c.expressions.map .ofExpression
  tables := ⟨c.tables.toList, tableUsage c.statements⟩
  contextVariables := c.contextVariables.mapValues fun _ v => .ofVariable v
  transactions := byJob (·.transactions) c.jobs
  alerts := byJob (·.alerts?) c.jobs
  qualityRules := byJob (·.qualityRules.nonEmpty?) c.jobs
  performance := byJob (·.performance) c.jobs
  connections := byJob (·.connections.nonEmpty?) c.jobs
  suggestions := JobAtlas.suggestions c s
  graphs := byJob (·.graph?) c.jobs
  checks := JobAtlas.checks c s
  recommendations := JobAtlas.recommendations c s

/-! ## Written forms -/

instance : Coded Overview where
  toData o := .record <|
    Data.fieldIfSome "generated_at" o.generatedAt ++ Data.field "total_jobs" o.jobs ++
    Data.field "total_sql_queries" o.statements ++
    Data.field "total_transformations" o.expressions ++
    Data.field "unique_tables" o.tables ++ Data.field "context_variables" o.contextVariables ++
    Data.field "transaction_groups" o.transactions ++ Data.field "error_patterns" o.alerts ++
    Data.field "data_quality_rules" o.qualityRules ++ Data.field "version" o.version ++
    Data.field "source_platform" o.sourcePlatform ++
    Data.field "target_platform" o.targetPlatform
  ofData? := Data.Reader.read? do
    return {
      generatedAt := ← Data.defaulted "generated_at" none
      jobs := ← Data.required "total_jobs"
      statements := ← Data.required "total_sql_queries"
      expressions := ← Data.required "total_transformations"
      tables := ← Data.required "unique_tables"
      contextVariables := ← Data.required "context_variables"
      transactions := ← Data.required "transaction_groups"
      alerts := ← Data.required "error_patterns"
      qualityRules := ← Data.required "data_quality_rules"
      version := ← Data.required "version"
      sourcePlatform := ← Data.required "source_platform"
      targetPlatform := ← Data.required "target_platform" }

instance : Coded JobSummary where
  toData s := .record <|
    Data.field "role" s.role ++ Data.field "components" s.components ++
    Data.field "sql_queries" s.statements ++ Data.field "transformations" s.expressions ++
    Data.field "tables" s.tables ++ Data.field "dependency_graph" s.graph ++
    Data.field "transform_structures" s.structures ++
    Data.field "complexity_score" s.complexity ++
    Data.field "has_transactions" s.hasTransactions ++
    Data.field "has_error_handling" s.hasAlerts ++
    Data.field "has_data_quality" s.hasQualityRules
  ofData? := Data.Reader.read? do
    return {
      role := ← Data.required "role"
      components := ← Data.required "components"
      statements := ← Data.required "sql_queries"
      expressions := ← Data.required "transformations"
      tables := ← Data.required "tables"
      graph := ← Data.required "dependency_graph"
      structures := ← Data.required "transform_structures"
      complexity := ← Data.required "complexity_score"
      hasTransactions := ← Data.required "has_transactions"
      hasAlerts := ← Data.required "has_error_handling"
      hasQualityRules := ← Data.required "has_data_quality" }

instance : Coded Document where
  toData d := .record <|
    Data.field "extraction_metadata" d.overview ++ Data.field "job_hierarchy" d.roles ++
    Data.field "jobs_summary" d.jobs ++ Data.field "sql_queries" d.queries ++
    Data.field "transformations" d.expressions ++ Data.field "tables" d.tables ++
    Data.field "context_mappings" d.contextVariables ++
    Data.field "transaction_patterns" d.transactions ++
    Data.field "error_patterns" d.alerts ++ Data.field "data_quality_rules" d.qualityRules ++
    Data.field "performance_hints" d.performance ++
    Data.field "connection_metadata" d.connections ++
    Data.field "performance_suggestions" d.suggestions ++
    Data.field "dependency_graphs" d.graphs ++ Data.field "validation_queries" d.checks ++
    Data.field "migration_recommendations" d.recommendations
  ofData? := Data.Reader.read? do
    return {
      overview := ← Data.required "extraction_metadata"
      roles := ← Data.required "job_hierarchy"
      jobs := ← Data.required "jobs_summary"
      queries := ← Data.required "sql_queries"
      expressions := ← Data.required "transformations"
      tables := ← Data.required "tables"
      contextVariables := ← Data.required "context_mappings"
      transactions := ← Data.required "transaction_patterns"
      alerts := ← Data.required "error_patterns"
      qualityRules := ← Data.required "data_quality_rules"
      performance := ← Data.required "performance_hints"
      connections := ← Data.required "connection_metadata"
      suggestions := ← Data.required "performance_suggestions"
      graphs := ← Data.required "dependency_graphs"
      checks := ← Data.required "validation_queries"
      recommendations := ← Data.required "migration_recommendations" }

end JobAtlas
