import JobAtlas.Proofs.Corpus.Reading
import JobAtlas.Proofs.Sql.SingleLine
import JobAtlas.Report.Script

/-!
# The lines of a script

A script is laid out in blank lines, comments and statements (`ScriptLine`). The
text of the script has these very lines if no name in it has a line feed, for
everything else that is written in a script stands on one line.
-/

namespace JobAtlas.Report

open Text (SingleLine)

/-- A line of a script, by what stands on it. -/
inductive ScriptLine where
  | blank
  | comment (text : String)
  | statement (s : Sql.Statement)

namespace ScriptLine

def text : ScriptLine → String
  | blank => ""
  | comment text => "-- " ++ text
  | statement s => s.cleaned ++ ";"

/-- The statement that stands on a line. -/
def statement? : ScriptLine → Option Sql.Statement
  | statement s => some s
  | _ => none

end ScriptLine

/-! ## The layout of a script -/

/-- The lines above all statements. -/
def headerLayout (c : Corpus) : List ScriptLine :=
  [.comment "SQL EXTRACTION",
    .comment ("Total Queries: " ++ toString c.statements.length),
    .comment ("Unique Tables: " ++ toString c.tables.size),
    .comment (rule '=' 50),
    .blank]

/-- The lines of one statement. -/
def statementLayout (number : Nat) (s : Sql.Statement) : List ScriptLine :=
  [.comment ("Query " ++ toString number ++ ": " ++ s.job ++ "." ++ s.component),
    .comment ("Operation: " ++ s.operation.label),
    .comment ("Tables: " ++ Text.joined ", " s.tables)] ++
  (if s.contextVariables.isEmpty then []
    else [.comment ("Context Variables: " ++ Text.joined ", " s.contextVariables)]) ++
  [.blank, .statement s, .blank, .comment (rule '-' 50), .blank]

/-- The lines of a script. -/
def layout (c : Corpus) : List ScriptLine :=
  headerLayout c ++ (c.statements.zipIdx 1).flatMap fun s => statementLayout s.2 s.1

theorem map_text_headerLayout (c : Corpus) :
    (headerLayout c).map (·.text) = scriptHeader c := by
  have hq : "-- " ++ "Total Queries: " = "-- Total Queries: " := by decide
  have ht : "-- " ++ "Unique Tables: " = "-- Unique Tables: " := by decide
  simp only [headerLayout, scriptHeader, List.map_cons, List.map_nil, ScriptLine.text,
    ← String.append_assoc, hq, ht]
  rfl

theorem map_text_statementLayout (number : Nat) (s : Sql.Statement) :
    (statementLayout number s).map (·.text) = statementLines number s := by
  have hq : "-- " ++ "Query " = "-- Query " := by decide
  have ho : "-- " ++ "Operation: " = "-- Operation: " := by decide
  have ht : "-- " ++ "Tables: " = "-- Tables: " := by decide
  have hv : "-- " ++ "Context Variables: " = "-- Context Variables: " := by decide
  unfold statementLayout statementLines
  split <;>
  · simp only [List.map_append, List.map_cons, List.map_nil, ScriptLine.text,
      ← String.append_assoc, hq, ho, ht, hv]

theorem map_text_layout (c : Corpus) : (layout c).map (·.text) = scriptLines c := by
  simp only [layout, scriptLines, List.map_append, List.map_flatMap, map_text_headerLayout,
    map_text_statementLayout]

/-- Each statement of the corpus stands on one line, in order. -/
theorem filterMap_statement?_layout (c : Corpus) :
    (layout c).filterMap (·.statement?) = c.statements := by
  have hs : ∀ number s, (statementLayout number s).filterMap (·.statement?) = [s] := by
    intro number s
    unfold statementLayout
    split <;> rfl
  have hh : (headerLayout c).filterMap (·.statement?) = [] := rfl
  simp only [layout, List.filterMap_append, List.filterMap_flatMap, hs, hh, List.nil_append]
  rw [← List.map_eq_flatMap]
  exact List.zipIdx_map_fst 1 c.statements

/-! ## Splitting a script -/

/-- The lines of a text that was made of texts are the lines of these. -/
theorem splitAt_ofLines (lines : List String) : Text.splitAt '\n' (ofLines lines).toList =
    lines.flatMap (Text.splitAt '\n' ·.toList) ++ [[]] := by
  induction lines with
  | nil => rfl
  | cons l lines ih =>
    have hl : (ofLines (l :: lines)).toList = l.toList ++ '\n' :: (ofLines lines).toList := by
      rw [ofLines, List.map_cons, String.join_cons, String.toList_append, String.toList_append,
        List.append_assoc]
      rfl
    rw [hl, Text.splitAt_append, ih, List.flatMap_cons, List.append_assoc]

theorem splitAt_ofLines_of_singleLine {lines : List String} (h : ∀ l ∈ lines, SingleLine l) :
    Text.splitAt '\n' (ofLines lines).toList = lines.map String.toList ++ [[]] := by
  rw [splitAt_ofLines, List.map_eq_flatMap]
  congr 1
  exact List.flatMap_congr fun l hl => Text.splitAt_of_not_mem (h l hl)

theorem singleLine_rule {ch : Char} (h : ch ≠ '\n') (width : Nat) : SingleLine (rule ch width) := by
  intro hm
  rw [rule, String.toList_ofList] at hm
  exact h (List.eq_of_mem_replicate hm).symm

theorem singleLine_scriptHeader (c : Corpus) : ∀ l ∈ scriptHeader c, SingleLine l := by
  simp only [scriptHeader, List.forall_mem_cons, Text.singleLine_append]
  refine ⟨by decide, ⟨by decide, Text.singleLine_number _⟩, ⟨by decide, Text.singleLine_number _⟩,
    ⟨by decide, singleLine_rule (by decide) 50⟩, by decide, nofun⟩

/-- The names of where a statement was found are all that may break its lines. -/
theorem singleLine_statementLines {s : Sql.Statement} (hs : s.SingleLine)
    (hj : SingleLine s.job) (hc : SingleLine s.component) (number : Nat) :
    ∀ l ∈ statementLines number s, SingleLine l := by
  have hsep : SingleLine ", " := by decide
  have htables := Text.singleLine_joined hsep hs.tables
  have hvariables := Text.singleLine_joined hsep hs.contextVariables
  have htexts : ∀ w ∈ ["", "-- ", "-- Query ", ": ", ".", "-- Operation: ", "-- Tables: ",
      "-- Context Variables: ", ";"], SingleLine w := by decide
  simp only [List.forall_mem_cons] at htexts
  unfold statementLines
  split <;>
  · simp only [List.forall_mem_append, List.forall_mem_cons, Text.singleLine_append, htexts,
      Text.singleLine_number, hj, hc, Sql.singleLine_label, htables, hvariables, hs.cleaned,
      singleLine_rule (show '-' ≠ '\n' by decide), and_self, true_and]
    exact nofun

theorem singleLine_scriptLines {c : Corpus} (hs : ∀ s ∈ c.statements, s.SingleLine)
    (hn : ∀ s ∈ c.statements, SingleLine s.job ∧ SingleLine s.component) :
    ∀ l ∈ scriptLines c, SingleLine l := by
  intro l hl
  rcases List.mem_append.1 hl with hl | hl
  · exact singleLine_scriptHeader c l hl
  · obtain ⟨⟨s, number⟩, hm, hl⟩ := List.mem_flatMap.1 hl
    have hm : s ∈ c.statements := List.fst_mem_of_mem_zipIdx hm
    exact singleLine_statementLines (hs s hm) (hn s hm).1 (hn s hm).2 number l hl

/-- All that is read from a statement of a corpus is on one line. -/
theorem singleLine_of_mem_merge {jobs : List Job} {s : Sql.Statement}
    (h : s ∈ (Corpus.merge (jobs.map .ofJob)).statements) : s.SingleLine := by
  rw [statements_merge] at h
  obtain ⟨j, -, h⟩ := List.mem_flatMap.1 (deduplicate_subset _ h)
  obtain ⟨c, -, h⟩ := List.mem_flatMap.1 h
  obtain ⟨p, -, rfl⟩ := List.mem_map.1 h
  exact Sql.Statement.singleLine_ofRaw _ _ _

/-- The lines of a script are blank lines, comments and statements, and the
statements are those of the corpus, if the names of where they were found have no
line feeds. -/
theorem lines_script (jobs : List Job)
    (h : ∀ s ∈ (Corpus.merge (jobs.map .ofJob)).statements,
      SingleLine s.job ∧ SingleLine s.component) :
    let c := Corpus.merge (jobs.map .ofJob)
    ∃ ls : List ScriptLine, Text.splitAt '\n' (script c).toList = ls.map (·.text.toList) ∧
      ls.filterMap (·.statement?) = c.statements := by
  intro c
  refine ⟨layout c ++ [.blank], ?_, ?_⟩
  · have hl := singleLine_scriptLines (fun s => singleLine_of_mem_merge) h
    rw [script, splitAt_ofLines_of_singleLine hl,
      ← map_text_layout, List.map_map, List.map_append]
    rfl
  · rw [List.filterMap_append, filterMap_statement?_layout]
    exact List.append_nil _

theorem lines_script_repeatingJobs :
    let c := Corpus.merge (repeatingJobs.map .ofJob)
    (∀ s ∈ c.statements, SingleLine s.job ∧ SingleLine s.component) ∧
    c.statements.map (·.cleaned) = ["SELECT x FROM t", "DELETE FROM u"] ∧
    ∃ ls : List ScriptLine, Text.splitAt '\n' (script c).toList = ls.map (·.text.toList) ∧
      ls.filterMap (·.statement?) = c.statements := by
  have h : ∀ s ∈ (Corpus.merge (repeatingJobs.map .ofJob)).statements,
      SingleLine s.job ∧ SingleLine s.component := by decide +kernel
  exact ⟨h, by decide +kernel, lines_script repeatingJobs h⟩

/-- A document in which the name of a component has a line feed. -/
def brokenNameText : String :=
  "<job><node componentName=\"tDBRow\" uniqueName=\"read&#10;DROP TABLE t\">" ++
  "<elementParameter name=\"QUERY\" value=\"SELECT x FROM t\"/></node></job>"

/-- What follows a line feed in a name is on a line of its own, without a mark of comment. -/
theorem not_lines_script_brokenName : ∃ j, Job.parse "load" brokenNameText = .ok j ∧
    let c := Corpus.merge [.ofJob j]
    ¬ ∃ ls : List ScriptLine, Text.splitAt '\n' (script c).toList = ls.map (·.text.toList) ∧
      ls.filterMap (·.statement?) = c.statements := by
  refine ⟨.ofQueries "load" [("read\nDROP TABLE t", "SELECT x FROM t")], by decide +kernel, ?_⟩
  intro c
  rintro ⟨ls, hls, hs⟩
  have hquery : "-- Query 1: load.read\nDROP TABLE t" ∈ scriptLines c := by decide +kernel
  have hline : "DROP TABLE t".toList ∈ Text.splitAt '\n' (script c).toList := by
    rw [script, splitAt_ofLines]
    exact List.mem_append_left _ (List.mem_flatMap.2 ⟨_, hquery, by decide +kernel⟩)
  rw [hls, List.mem_map] at hline
  obtain ⟨l, hl, ht⟩ := hline
  cases l with
  | blank => exact absurd ht (by decide)
  | comment text =>
    have hp := congrArg (List.take 3) ht
    simp [ScriptLine.text] at hp
  | statement s =>
    have hm : s ∈ c.statements := hs ▸ List.mem_filterMap.2 ⟨_, hl, rfl⟩
    have hc : ∀ s ∈ c.statements, (s.cleaned ++ ";").toList ≠ "DROP TABLE t".toList := by
      decide +kernel
    exact hc s hm ht

end JobAtlas.Report
