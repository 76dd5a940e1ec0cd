import JobAtlas.Corpus.Extraction
import JobAtlas.Proofs.Corpus.Reordering
import JobAtlas.Proofs.Sql.TableName
import JobAtlas.Proofs.Text.ByteOrder

/-!
# Tables whose rows are counted

The rows of a table are counted by a query with the name of the table as it is,
without quotes. `bareName_tables_and_rowCounts` says that every such name can
stand there, since it comes from the list of tables of some text.
-/

namespace JobAtlas

open Sql (Names IsBareName isComponentLabel stopWords tables)

theorem pairwise_utf8_tables (sql : String) :
    (tables sql).Pairwise fun a b => Text.utf8 a < Text.utf8 b :=
  (Sql.tableSet sql.toList).sorted.imp Text.lt_iff_utf8_lt.1

/-- Every table of a corpus is one of some clean text. -/
theorem exists_mem_tables_of_mem_merge {jobs : List Job} {table : String}
    (h : table ∈ (Corpus.merge (jobs.map .ofJob)).tables) : ∃ sql, table ∈ tables sql := by
  rw [tables_merge, SortedSet.mem_ofList] at h
  obtain ⟨a, ha, ht⟩ := List.mem_flatMap.1 h
  obtain ⟨j, -, ha⟩ := List.mem_flatMap.1 ha
  have hread : a.tables = tables a.cleaned :=
    congrArg Sql.Reading.tables (reading_of_mem_statementsOf ha)
  exact ⟨a.cleaned, hread ▸ ht⟩

/-- A check that counts rows is one for a table of the corpus. -/
theorem exists_of_rowCount_mem_checks {c : Corpus} {s : Settings} {check : Check}
    (h : check ∈ checks c s) (hc : check.isRowCount = true) :
    ∃ table ∈ c.tables, Check.ofTable table = check := by
  have h := List.mem_filter.2 ⟨h, hc⟩
  rw [filter_isRowCount_checks] at h
  obtain ⟨table, ht, e⟩ := List.mem_map.1 h
  exact ⟨table, List.mem_of_mem_take ht, e⟩

/-- The tables of a text are listed in the order of their bytes and each once.
Each stands in the text, in some case, as an identifier behind a lead, which is
neither the label of a component nor a word of SQL, and its name can be written
without quotes. So can the name of each table whose rows a document has counted. -/
theorem bareName_tables_and_rowCounts (sql : String) (s : Settings) (time : String)
    (jobs : List Job) :
    (tables sql).Pairwise (fun a b => Text.utf8 a < Text.utf8 b) ∧
    (∀ name ∈ tables sql, ∃ w, Names sql.toList w ∧ name = String.ofList (Text.lower w) ∧
      isComponentLabel w = false ∧ name ∉ stopWords) ∧
    (∀ name ∈ tables sql, IsBareName name) ∧
    ∀ table query description,
      .rowCount table query description ∈ (Extraction.ofJobs s time jobs).document.checks →
        IsBareName table ∧ query = "SELECT COUNT(*) as row_count FROM " ++ table := by
  refine ⟨pairwise_utf8_tables sql, fun name => Sql.exists_of_mem_tables,
    fun name => Sql.isBareName_of_mem_tables, fun table query description h => ?_⟩
  obtain ⟨table, ht, e⟩ := exists_of_rowCount_mem_checks h rfl
  obtain ⟨text, ht⟩ := exists_mem_tables_of_mem_merge ht
  cases e
  exact ⟨Sql.isBareName_of_mem_tables ht, rfl⟩

/-- Two letters beyond ASCII are case variants of ASCII letters. -/
example : tables "SELECT * FROM Sales.ſtock JOIN \u212Aeys" = ["keys", "sales", "ſtock"] := by
  decide +kernel

end JobAtlas
