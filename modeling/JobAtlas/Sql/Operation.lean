import JobAtlas.Data.Basic
import JobAtlas.Text.Blank
import JobAtlas.Text.Case
import JobAtlas.Text.Search

/-!
# SQL operations

An operation is what a statement does, as far as its text shows. It is written
as a label (`Operation.label`) and read back from exactly that label
(`Operation.ofLabel?`). `Operation.detect` looks at the leading keyword first
and then applies a list of rules, the first of which that fits decides.
-/

namespace JobAtlas.Sql

open Text (Recogniser)

/-- The statements that work on rows. -/
inductive StatementKind where
  | select
  | insert
  | update
  | delete
  | merge
deriving DecidableEq, Repr

namespace StatementKind

def keyword : StatementKind → String
  | select => "SELECT"
  | insert => "INSERT"
  | update => "UPDATE"
  | delete => "DELETE"
  | merge => "MERGE"

def ofKeyword? : String → Option StatementKind
  | "SELECT" => some select
  | "INSERT" => some insert
  | "UPDATE" => some update
  | "DELETE" => some delete
  | "MERGE" => some merge
  | _ => none

end StatementKind

/-- What a statement does. -/
inductive Operation where
  | select
  | insert
  | update
  | delete
  | merge
  | create
  | drop
  | alter
  | truncate
  | begin
  | declare
  | exec
  | execute
  /-- Common table expressions followed by a statement. -/
  | cte (kind : StatementKind)
  | mergeUsing
  | multiStatement
  /-- A block with one kind of statement in it. -/
  | block (kind : StatementKind)
  | selectWindow
  | windowFunction
  | unload
  | copy
  | dynamicSql
  /-- Left for a person to look at. -/
  | unknown
deriving DecidableEq, Repr, Inhabited

namespace Operation

/-- Whether rows are changed, so that a transaction has to keep them together. -/
def isModifying : Operation → Bool
  | insert | update | delete | merge => true
  | _ => false

def label : Operation → String
  | select => "SELECT"
  | insert => "INSERT"
  | update => "UPDATE"
  | delete => "DELETE"
  | merge => "MERGE"
  | create => "CREATE"
  | drop => "DROP"
  | alter => "ALTER"
  | truncate => "TRUNCATE"
  | begin => "BEGIN"
  | declare => "DECLARE"
  | exec => "EXEC"
  | execute => "EXECUTE"
  | cte kind => "CTE_" ++ kind.keyword
  | mergeUsing => "MERGE_USING"
  | multiStatement => "MULTI_STATEMENT"
  | block kind => "BLOCK_" ++ kind.keyword
  | selectWindow => "SELECT_WINDOW"
  | windowFunction => "WINDOW_FUNCTION"
  | unload => "UNLOAD"
  | copy => "COPY"
  | dynamicSql => "DYNAMIC_SQL"
  | unknown => "UNKNOWN"

/-- The operations whose label is a single word. -/
def simple : List Operation :=
  [select, insert, update, delete, merge, create, drop, alter, truncate, begin, declare, exec,
    execute, mergeUsing, multiStatement, selectWindow, windowFunction, unload, copy, dynamicSql,
    unknown]

/-- Read a label. -/
def ofLabel? (s : String) : Option Operation :=
  match Text.dropStart? "CTE_" s with
  | some kind => (StatementKind.ofKeyword? kind).map cte
  | none =>
    match Text.dropStart? "BLOCK_" s with
    | some kind => (StatementKind.ofKeyword? kind).map block
    | none => simple.find? (·.label == s)

/-- What is wrong with a text that is no label. -/
def unknownLabel (s : String) : String := "Unknown SQL operation: " ++ s

instance : Coded Operation where
  toData o := .text o.label
  ofData? | .text s => ofLabel? s | _ => none

/-! ## Detection -/

/-- A statement may begin with one of these words, tried in this order. -/
def leadingKeywords : List (String × Operation) :=
  [("SELECT", select), ("INSERT", insert), ("UPDATE", update), ("DELETE", delete),
    ("MERGE", merge), ("CREATE", create), ("DROP", drop), ("ALTER", alter),
    ("TRUNCATE", truncate), ("WITH", cte .select), ("BEGIN", begin), ("DECLARE", declare),
    ("EXEC", exec), ("EXECUTE", execute)]

/-- The statements that common table expressions may lead into, tried in this order. -/
def cteTargets : List StatementKind := [.insert, .update, .delete, .merge]

/-- The statements that are sought in a block, in this order. -/
def blockStatements : List StatementKind := [.update, .delete, .insert, .merge]

/-- The word `OVER`, spaces and an opening parenthesis. -/
def windowClause : Recogniser Unit := fun s => do
  let ((), s) ← Recogniser.literal "OVER".toList s
  Recogniser.literal ['('] (Recogniser.skip Text.isBlank s)

/-- Whether a window clause begins where no word goes on; `inWord` tells this
of the text before. -/
def hasWindowFrom (inWord : Bool) : List Char → Bool
  | [] => false
  | c :: s =>
    (!inWord && (windowClause (c :: s)).isSome) || hasWindowFrom (Text.isWord c) s

def hasWindow (s : List Char) : Bool := hasWindowFrom false s

/-- A reference to a context variable in the middle of an expression, in any case. -/
def contextReference : Recogniser Unit := fun s =>
  if "context.".toList.isPrefixOf ((s.take 8).map Char.toLower) then
    match s.drop 8 with
    | c :: rest => if Text.isWord c then some ((), rest) else none
    | [] => none
  else none

/-- A rule for statements without a leading keyword. It sees the text in upper
case, and as it is. -/
structure Rule where
  name : String
  detect? : List Char → List Char → Option Operation

/-- Whether a word stands anywhere in the text. -/
def has (s : List Char) (word : String) : Bool := Text.occurs word.toList s

def mergeUsingRule : Rule where
  name := "merge_using"
  detect? upper _ := if has upper "MERGE" && has upper "USING" then some mergeUsing else none

def blockRule : Rule where
  name := "block"
  detect? upper _ :=
    if has upper "BEGIN" && has upper "END" then
      match blockStatements.filter fun kind => has upper kind.keyword with
      | [] => none
      | [kind] => some (block kind)
      | _ => some multiStatement
    else none

def windowRule : Rule where
  name := "window"
  detect? upper _ :=
    if hasWindow upper then
      some (if "SELECT".toList.isPrefixOf upper then selectWindow else windowFunction)
    else none

def unloadRule : Rule where
  name := "unload"
  detect? upper _ := if has upper "UNLOAD" then some unload else none

def copyRule : Rule where
  name := "copy"
  detect? upper _ :=
    if has upper "COPY" && (has upper "FROM" || has upper "TO") then some copy else none

def dynamicRule : Rule where
  name := "dynamic_sql"
  detect? _ original := if contextReference.occursIn original then some dynamicSql else none

/-- The rules in the order in which they are tried. -/
def rules : List Rule :=
  [mergeUsingRule, blockRule, windowRule, unloadRule, copyRule, dynamicRule]

/-- The leading keyword of a text in upper case. -/
def leading? (upper : List Char) : Option (String × Operation) :=
  leadingKeywords.find? fun k => k.1.toList.isPrefixOf upper

/-- The operation of a statement that begins with a keyword. -/
def ofLeading (upper : List Char) : String × Operation → Operation
  | ("WITH", o) =>
    match cteTargets.find? fun kind => has upper kind.keyword with
    | some kind => cte kind
    | none => o
  | ("SELECT", o) => if hasWindow upper then selectWindow else o
  | (_, o) => o

/-- The operation of a text. -/
def detectChars (s : List Char) : Operation :=
  let upper := Text.trim (Text.upper s)
  match leading? upper with
  | some keyword => ofLeading upper keyword
  | none => (rules.findSome? fun rule => rule.detect? upper s).getD unknown

/-- What a statement does, judged by its text. -/
def detect (sql : String) : Operation := detectChars sql.toList

end Operation

end JobAtlas.Sql
