import JobAtlas.Context.Variable
import JobAtlas.Corpus.Role
import JobAtlas.Digest.Sha256
import JobAtlas.Survey

/-!
# Corpora

A corpus joins the surveys of many jobs, in the order in which the jobs were
found. Statements are kept once, the first of each clean text; a variable keeps
its first classification and its last declaration.
-/

namespace JobAtlas

/-- What is known of many jobs together. -/
structure Corpus where
  jobs : List Survey := []
  roles : SortedMap String JobRole := ∅
  /-- The first statement of each clean text. -/
  statements : List Sql.Statement := []
  expressions : List Mapping.Expression := []
  tables : SortedSet String := ∅
  contextVariables : SortedMap String Context.Variable := ∅
deriving Inhabited

/-- The identity of a statement: the digest of its clean text. -/
def Sql.Statement.digest (s : Sql.Statement) : String := Digest.ofText s.cleaned

/-- The first of all statements with one digest. -/
def deduplicate (ss : List Sql.Statement) : List Sql.Statement := distinctBy (·.digest) ss

/-- Classify declarations one after another. -/
def Context.Register.declareAll (r : Context.Register) :
    List ContextParameter → List Context.Variable × Context.Register
  | [] => ([], r)
  | p :: ps =>
    let (v, r) := r.declare p
    let (vs, r) := r.declareAll ps
    (v :: vs, r)

/-- The variables that declarations leave: of two with one name the last one,
under the classification of the first. -/
def declaredVariables (ps : List ContextParameter) : SortedMap String Context.Variable :=
  .ofList ((Context.Register.declareAll ∅ ps).1.map fun v => (v.name, v))

/-- The corpus of the surveys of jobs, in the order in which the jobs were found. -/
def Corpus.merge (jobs : List Survey) : Corpus where
  jobs
  roles := .ofList (jobs.map fun s => (s.name, .infer s.name s.hasSubJob))
  statements := deduplicate (jobs.flatMap (·.statements))
  expressions := jobs.flatMap (·.expressions)
  tables := .ofList (jobs.flatMap (·.tables.toList))
  contextVariables := declaredVariables (jobs.flatMap (·.contextParameters))

end JobAtlas
