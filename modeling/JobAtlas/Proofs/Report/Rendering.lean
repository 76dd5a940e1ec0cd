import Mathlib.Data.List.Perm.Basic
import JobAtlas.Report.Listing

/-!
# Two renderings of the expressions

A corpus has its expressions in one row. The document keeps the row and writes each
expression behind its input column; the listing sorts the row by job and writes each
behind its output column. `agree_ofCorpus` says that both hold the same expressions,
job by job in the same order.

* `flatMap_filter_perm`: a row that is sorted by a key is still all there;
* `of_foldl_add`: what is listed for a job, one expression after another;
* `listings_ofCorpus`: what the listing of a corpus has under the name of a job;
* `values_byJob_perm_map`: what it has under all names;
* `expression_eq_mapping_iff`: the texts of which expressions are the same in both.
-/

namespace JobAtlas

open scoped Counting

/-- Sorted by their keys, the elements of a list are all there, each as often as before. -/
theorem flatMap_filter_perm {α κ : Type} [DecidableEq κ] (key : α → κ) {ks : List κ} (hn : ks.Nodup)
    {as : List α} (h : ∀ a ∈ as, key a ∈ ks) :
    (ks.flatMap fun k => as.filter (key · == k)).Perm as := by
  induction ks generalizing as with
  | nil =>
    rw [List.eq_nil_iff_forall_not_mem.2 fun a ha => List.not_mem_nil (h a ha)]
    exact .nil
  | cons k ks ih =>
    rw [List.nodup_cons] at hn
    -- the other keys are sought in what the first one leaves
    have hrest : (ks.flatMap fun k' => as.filter (key · == k')) =
        ks.flatMap fun k' => (as.filter (!key · == k)).filter (key · == k') := by
      refine List.flatMap_congr fun k' hk' => ?_
      rw [List.filter_filter]
      refine List.filter_congr fun a _ => ?_
      by_cases ha : key a = k'
      · have hne : k' ≠ k := fun e => hn.1 (e ▸ hk')
        simp [ha, hne]
      · simp [ha]
    rw [List.flatMap_cons, hrest]
    refine ((ih hn.2 fun a ha => ?_).append_left _).trans (List.filter_append_perm _ as)
    obtain ⟨ha, hk⟩ := List.mem_filter.1 ha
    exact (List.mem_cons.1 (h a ha)).resolve_left (by simpa using hk)

namespace Report

open Mapping (Expression Entry)

/-! ## The listing by jobs -/

namespace Listings

/-- What is listed for a job. -/
def of (m : Listings) (job : String) : List ExpressionListing := (m.find? job).getD []

/-- The expressions of a job, as they are listed. -/
def ofExpressions (xs : List Expression) (job : String) : List ExpressionListing :=
  (xs.filter (·.job == job)).map .ofExpression

variable {m : Listings} {x : Expression} {job : String}

/-- One more expression goes to the end of what its job has. -/
theorem of_add : (m.add x).of job = m.of job ++ ofExpressions [x] job := by
  rw [of, add, SortedMap.update, SortedMap.find?_insert]
  by_cases hj : job = x.job
  · rw [if_pos hj, Option.getD_some, ofExpressions, List.filter_cons_of_pos (by simp [hj]), hj]
    rfl
  · rw [if_neg hj, ofExpressions, List.filter_cons_of_neg (by simp [Ne.symm hj])]
    exact (List.append_nil _).symm

theorem mem_keys_add : job ∈ (m.add x).keys ↔ job = x.job ∨ job ∈ m.keys :=
  SortedMap.mem_keys_insertIn

theorem of_foldl_add (m : Listings) (xs : List Expression) :
    (xs.foldl add m).of job = m.of job ++ ofExpressions xs job := by
  induction xs generalizing m with
  | nil => exact (List.append_nil _).symm
  | cons x xs ih =>
    rw [List.foldl_cons, ih, of_add, List.append_assoc, ofExpressions, ofExpressions,
      ← List.map_append, ← List.filter_append]
    rfl

theorem mem_keys_foldl_add (m : Listings) (xs : List Expression) :
    job ∈ (xs.foldl add m).keys ↔ job ∈ m.keys ∨ ∃ x ∈ xs, x.job = job := by
  induction xs generalizing m with
  | nil => simp
  | cons x xs ih =>
    rw [List.foldl_cons, ih, mem_keys_add, List.exists_mem_cons_iff, eq_comm, or_assoc,
      or_left_comm]

/-- The lists of a listing are those of its jobs, in their order. -/
theorem values_eq_map_of (m : Listings) : m.values = m.keys.map m.of := by
  rw [SortedMap.values, SortedMap.keys, List.map_map]
  refine List.map_congr_left fun e he => ?_
  rw [Function.comp_apply, of, SortedMap.find?_eq_some_iff.2 he]
  rfl

end Listings

/-- What a document has for a job, in its order. -/
def entriesOf (d : Document) (job : String) : List Entry := d.expressions.filter (·.job == job)

variable {c : Corpus} {job : String}

theorem mem_keys_byJob_ofCorpus :
    job ∈ (ExpressionDocument.ofCorpus c).byJob.keys ↔ ∃ x ∈ c.expressions, x.job = job := by
  refine (Listings.mem_keys_foldl_add ∅ c.expressions).trans (or_iff_right ?_)
  exact List.not_mem_nil

theorem listings_ofCorpus :
    (ExpressionDocument.ofCorpus c).byJob.of job = Listings.ofExpressions c.expressions job :=
  Listings.of_foldl_add ∅ c.expressions

theorem values_byJob_perm_map :
    (ExpressionDocument.ofCorpus c).byJob.values.flatten.Perm
      (c.expressions.map ExpressionListing.ofExpression) := by
  let jobs := (ExpressionDocument.ofCorpus c).byJob.keys
  have hlistings : (ExpressionDocument.ofCorpus c).byJob.values.flatten =
      (jobs.flatMap fun job => c.expressions.filter (·.job == job)).map .ofExpression := by
    rw [Listings.values_eq_map_of, ← List.flatMap_def, List.map_flatMap]
    exact List.flatMap_congr fun job _ => listings_ofCorpus
  rw [hlistings]
  exact (flatMap_filter_perm Expression.job (SortedMap.nodup_keys _) fun x hx =>
    mem_keys_byJob_ofCorpus.2 ⟨x, hx, rfl⟩).map _

/-! ## Texts -/

/-- An expression is written behind the same column in both, unless it has an input
column that is another. -/
theorem expression_eq_mapping_iff (x : Expression) :
    (ExpressionListing.ofExpression x).expression = x.mapping ↔
      x.input = none ∨ x.input = some "" ∨ x.input = some x.output := by
  have hc : (ExpressionListing.ofExpression x).expression = x.mapping ↔
      x.output = (nonEmpty x.input).getD x.output := by
    simp only [ExpressionListing.ofExpression, Expression.mapping, String.append_left_inj]
  rw [hc]
  cases hi : x.input with
  | none => simp [nonEmpty]
  | some input =>
    by_cases he : input = ""
    · exact iff_of_true (by rw [he]; rfl) (.inr (.inl (congrArg some he)))
    · have hn : nonEmpty (some input) = some input := by simp [nonEmpty, he]
      rw [hn, Option.getD_some, Option.some.injEq, Option.some.injEq]
      refine ⟨fun h => .inr (.inr h.symm), ?_⟩
      rintro (h | h | h)
      · cases h
      · exact absurd h he
      · exact h.symm

/-! ## Agreement -/

/-- A listing and an entry of one expression. -/
structure Renders (x : Expression) (l : ExpressionListing) (e : Entry) : Prop where
  job : e.job = x.job
  component : l.component = x.component ∧ e.component = x.component
  dataType : l.dataType = x.dataType ∧ e.dataType = x.dataType
  expression : l.expression = x.output ++ " = " ++ x.expression
  /-- Only an input column of its own makes a difference. -/
  mapping : l.expression = e.mapping ↔
    x.input = none ∨ x.input = some "" ∨ x.input = some x.output

/-- A listing by jobs and the entries of a document are made of the same expressions. -/
structure Agree (l : ExpressionDocument) (d : Document) (xs : List Expression) : Prop where
  total_listings : l.total = (l.byJob.values.map (·.length)).sum
  total_entries : l.total = d.expressions.length
  /-- None is lost and none is there twice. -/
  perm : l.byJob.values.flatten.Perm (xs.map .ofExpression)
  jobs : ∀ job, job ∈ l.byJob.keys ↔ ∃ e ∈ d.expressions, e.job = job
  length : ∀ job, (l.byJob.of job).length = (entriesOf d job).length
  /-- What stands in one place for a job comes from its expression in that place. -/
  renders : ∀ (job : String) (i : Nat) a e, (l.byJob.of job)[i]? = some a →
    (entriesOf d job)[i]? = some e →
      ∃ x, (xs.filter (·.job == job))[i]? = some x ∧ Renders x a e

theorem renders_ofExpression (x : Expression) : Renders x (.ofExpression x) (.ofExpression x) where
  job := rfl
  component := ⟨rfl, rfl⟩
  dataType := ⟨rfl, rfl⟩
  expression := rfl
  mapping := expression_eq_mapping_iff x

theorem entriesOf_ofCorpus (c : Corpus) (s : Settings) (time job : String) :
    entriesOf (.ofCorpus c s time) job =
      (c.expressions.filter (·.job == job)).map .ofExpression :=
  List.filter_map ..

/-- The listing of a corpus by jobs and the entries of its document hold the expressions
of the corpus, each once. For each job they hold them in the same order, under the same
components and types, and with the same texts where an expression has no input column
that differs from its output column. -/
theorem agree_ofCorpus (c : Corpus) (s : Settings) (time : String) :
    Agree (.ofCorpus c) (.ofCorpus c s time) c.expressions where
  total_listings := by
    have h := values_byJob_perm_map (c := c).length_eq
    rw [List.length_flatten, List.length_map] at h
    exact h.symm
  total_entries := (List.length_map _).symm
  perm := values_byJob_perm_map
  jobs job := by
    rw [mem_keys_byJob_ofCorpus]
    simp [Document.ofCorpus, Entry.ofExpression]
  length job := by
    rw [listings_ofCorpus, entriesOf_ofCorpus, Listings.ofExpressions, List.length_map,
      List.length_map]
  renders job i a e ha he := by
    rw [listings_ofCorpus, Listings.ofExpressions, List.getElem?_map, Option.map_eq_some_iff] at ha
    rw [entriesOf_ofCorpus, List.getElem?_map, Option.map_eq_some_iff] at he
    obtain ⟨x, hx, rfl⟩ := ha
    obtain ⟨y, hy, rfl⟩ := he
    obtain rfl : x = y := Option.some.inj (hx.symm.trans hy)
    exact ⟨x, hx, renders_ofExpression x⟩

/-- Two jobs in turns; the input column of one expression is not its output column. -/
example :
    let x (job input output : String) : Expression := ⟨job, "map", some input, output, "f", ""⟩
    let c : Corpus := { expressions := [x "b" "" "p", x "a" "q" "r", x "b" "s" "s"] }
    (ExpressionDocument.ofCorpus c).byJob.values.map (·.map (·.expression)) =
      [["r = f"], ["p = f", "s = f"]] ∧
    (Document.ofCorpus c {} "").expressions.map (·.mapping) = ["p = f", "q = f", "s = f"] := by
  decide +kernel

end Report

end JobAtlas
