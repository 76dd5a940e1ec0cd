import Mathlib.Data.List.Chain
import Mathlib.Data.List.Forall2
import Mathlib.Data.List.Nodup
import JobAtlas.Component.Route
import JobAtlas.Proofs.Data.Lookup
import JobAtlas.Quality.Rule

/-!
# The rows of a table of cells

A table does not say where its rows begin. `rows` begins one where a kind of cell
would come twice, and this is the only way to cut the cells such that no row has a
kind twice and none could go on with the first cell of the next (`IsCut.eq`). The
rules of a component are read off such rows.

* `isRecognised_iff`: the cells that have a kind, and which;
* `isCut_rowsFrom`: what a scan makes of the cells that are left;
* `rows_and_rules`: what these say of every table, and of the rules of every
  component.
-/

namespace JobAtlas

/-! ## Kinds of cells -/

/-- A kind stands somewhere in the reference of a cell. -/
def Cell.Bears (c : Cell) (kind : String) : Prop := kind.toList <:+: (c.reference.getD "").toList

/-- The cells of a table that bear a kind, each with its value and the first of
the kinds that it bears. -/
inductive IsRecognised (kinds : List String) : List Cell → List (String × String) → Prop where
  | nil : IsRecognised kinds [] []
  | kept {c : Cell} {earlier later : List String} {kind : String} {cells : List Cell}
      {marked : List (String × String)} (hk : kinds = earlier ++ kind :: later) (h : c.Bears kind)
      (hf : ∀ k ∈ earlier, ¬ c.Bears k) (rest : IsRecognised kinds cells marked) :
      IsRecognised kinds (c :: cells) ((kind, c.value) :: marked)
  | passed {c : Cell} {cells : List Cell} {marked : List (String × String)}
      (h : ∀ k ∈ kinds, ¬ c.Bears k) (rest : IsRecognised kinds cells marked) :
      IsRecognised kinds (c :: cells) marked

variable {kinds : List String} {kind : String} {c : Cell} {cells : List Cell}

theorem Cell.kind?_eq_some_iff : c.kind? kinds = some kind ↔ c.Bears kind ∧
    ∃ earlier later, kinds = earlier ++ kind :: later ∧ ∀ k ∈ earlier, ¬ c.Bears k := by
  simp only [Cell.kind?, List.find?_eq_some_iff_append, Bool.not_eq_true', Text.contains,
    ← Bool.not_eq_true, Text.occurs_iff, Cell.Bears]

theorem Cell.kind?_eq_none_iff : c.kind? kinds = none ↔ ∀ k ∈ kinds, ¬ c.Bears k := by
  simp only [Cell.kind?, List.find?_eq_none, Text.contains, Text.occurs_iff, Cell.Bears]

theorem isRecognised_recognised (kinds : List String) (cells : List Cell) :
    IsRecognised kinds cells (recognised kinds cells) := by
  induction cells with
  | nil => exact .nil
  | cons c cells ih =>
    rw [recognised, List.filterMap_cons]
    cases hk : c.kind? kinds with
    | none => exact .passed (Cell.kind?_eq_none_iff.1 hk) ih
    | some kind =>
      obtain ⟨h, earlier, later, e, hf⟩ := Cell.kind?_eq_some_iff.1 hk
      exact .kept e h hf ih

theorem isRecognised_iff {marked : List (String × String)} :
    IsRecognised kinds cells marked ↔ recognised kinds cells = marked := by
  refine ⟨fun h => ?_, fun h => h ▸ isRecognised_recognised kinds cells⟩
  induction h with
  | nil => rfl
  | kept hk h hf rest ih =>
    rw [recognised, List.filterMap_cons, Cell.kind?_eq_some_iff.2 ⟨h, _, _, hk, hf⟩]
    exact congrArg _ ih
  | passed h rest ih =>
    rw [recognised, List.filterMap_cons, Cell.kind?_eq_none_iff.2 h]
    exact ih

/-! ## Cuts -/

/-- Cells with their kinds, cut into rows. -/
structure IsCut (marked : List (String × String)) (blocks : List Row) : Prop where
  flatten : blocks.flatten = marked
  ne_nil : ∀ b ∈ blocks, b ≠ []
  nodup : ∀ b ∈ blocks, (b.map Prod.fst).Nodup
  /-- The kind that opens a row is also in the row before. -/
  opened : blocks.IsChain fun b b' => ∀ cell ∈ b'.head?, cell.1 ∈ b.map Prod.fst

variable {marked : List (String × String)} {current b b' : Row} {blocks blocks' : List Row}

theorem IsCut.tail (h : IsCut marked (b :: blocks)) : IsCut blocks.flatten blocks where
  flatten := rfl
  ne_nil b hb := h.ne_nil b (List.mem_cons_of_mem _ hb)
  nodup b hb := h.nodup b (List.mem_cons_of_mem _ hb)
  opened := h.opened.tail

theorem IsCut.eq_nil (h : IsCut [] blocks) : blocks = [] := by
  cases blocks with
  | nil => rfl
  | cons b blocks =>
    exact absurd (List.flatten_eq_nil_iff.1 h.flatten b List.mem_cons_self)
      (h.ne_nil b List.mem_cons_self)

/-- The first row of a cut does not go on behind the end of another's. -/
theorem IsCut.not_longer (h : IsCut marked (b :: blocks)) {cell : String × String} {more : Row}
    (h' : IsCut marked ((b ++ cell :: more) :: blocks')) : False := by
  have hrest : blocks.flatten = cell :: more ++ blocks'.flatten := by
    have e := h.flatten.trans h'.flatten.symm
    rw [List.flatten_cons, List.flatten_cons, List.append_assoc] at e
    exact List.append_cancel_left e
  cases blocks with
  | nil => cases hrest
  | cons next blocks =>
    obtain ⟨first, next', rfl⟩ :=
      List.exists_cons_of_ne_nil (h.ne_nil next (List.mem_cons_of_mem _ List.mem_cons_self))
    obtain ⟨rfl, -⟩ : first = cell ∧ _ := by simpa using hrest
    -- the cell opens a row in one cut and repeats its kind in the other
    have hopened : first.1 ∈ b.map Prod.fst := (List.isChain_cons.1 h.opened).1 _ rfl first rfl
    have hn := h'.nodup _ List.mem_cons_self
    rw [List.map_append, List.nodup_append] at hn
    exact hn.2.2 _ hopened _ List.mem_cons_self rfl

theorem IsCut.head_eq (h : IsCut marked (b :: blocks)) (h' : IsCut marked (b' :: blocks')) :
    b = b' := by
  have hpre : b <+: marked := ⟨_, h.flatten⟩
  have hpre' : b' <+: marked := ⟨_, h'.flatten⟩
  rcases List.prefix_or_prefix_of_prefix hpre hpre' with ⟨more, rfl⟩ | ⟨more, rfl⟩
  · cases more with
    | nil => rw [List.append_nil]
    | cons cell more => exact (h.not_longer h').elim
  · cases more with
    | nil => rw [List.append_nil]
    | cons cell more => exact (h'.not_longer h).elim

/-- There is one way to cut cells into rows. -/
theorem IsCut.eq (h : IsCut marked blocks) (h' : IsCut marked blocks') : blocks = blocks' := by
  induction blocks generalizing marked blocks' with
  | nil =>
    obtain rfl := h.flatten
    exact h'.eq_nil.symm
  | cons b blocks ih =>
    cases blocks' with
    | nil =>
      obtain rfl := h'.flatten
      exact h.eq_nil
    | cons b' blocks' =>
      obtain rfl := h.head_eq h'
      have e : blocks.flatten = blocks'.flatten :=
        List.append_cancel_left (h.flatten.trans h'.flatten.symm)
      rw [ih h.tail (e ▸ h'.tail)]

/-! ## One scan -/

/-- The row that has begun is the beginning of the first row. -/
theorem exists_rowsFrom_cons (cell : String × String) (current : Row)
    (marked : List (String × String)) :
    ∃ more rest, rowsFrom (cell :: current) marked = (cell :: more) :: rest := by
  induction marked generalizing current with
  | nil => exact ⟨current, [], rfl⟩
  | cons next marked ih =>
    rw [rowsFrom]
    split
    · exact ⟨current, _, rfl⟩
    · exact ih (current ++ [next])

/-- A scan cuts the cells of the row that has begun and those that are left. -/
theorem isCut_rowsFrom (current : Row) (h : (current.map Prod.fst).Nodup)
    (marked : List (String × String)) : IsCut (current ++ marked) (rowsFrom current marked) := by
  induction marked generalizing current with
  | nil =>
    rw [rowsFrom, List.append_nil]
    cases current with
    | nil => exact ⟨rfl, by simp, by simp, .nil⟩
    | cons cell current => exact ⟨by simp, by simp, by simpa using h, .singleton _⟩
  | cons cell marked ih =>
    rw [rowsFrom]
    split
    · next hk =>
      rw [isSome_lookup_iff] at hk
      have hcut : IsCut (cell :: marked) (rowsFrom [cell] marked) :=
        ih [cell] (List.nodup_singleton _)
      obtain ⟨more, rest, hrows⟩ := exists_rowsFrom_cons cell [] marked
      refine ⟨by rw [List.flatten_cons, hcut.flatten], ?_, ?_, ?_⟩
      · refine List.forall_mem_cons.2 ⟨?_, hcut.ne_nil⟩
        rintro rfl
        cases hk
      · exact List.forall_mem_cons.2 ⟨h, hcut.nodup⟩
      · refine List.isChain_cons.2 ⟨?_, hcut.opened⟩
        rw [hrows]
        rintro _ ⟨⟩ _ ⟨⟩
        exact hk
    · next hk =>
      rw [isSome_lookup_iff] at hk
      have hn : ((current ++ [cell]).map Prod.fst).Nodup := by
        rw [List.map_append, List.map_singleton]
        refine List.nodup_append.2 ⟨h, List.nodup_singleton _, fun k hmem k' hk' e => ?_⟩
        obtain rfl := List.mem_singleton.1 hk'
        exact hk (e ▸ hmem)
      have hcut := ih (current ++ [cell]) hn
      rwa [List.append_assoc] at hcut

theorem isCut_rows (kinds : List String) (cells : List Cell) :
    IsCut (recognised kinds cells) (rows kinds cells) :=
  isCut_rowsFrom [] List.nodup_nil _

/-! ## Tables -/

/-- The rows of a table of cells of some kinds. -/
def AreRowsOf (kinds : List String) (cells : List Cell) (blocks : List Row) : Prop :=
  ∃ marked, IsRecognised kinds cells marked ∧ IsCut marked blocks

theorem areRowsOf_rows (kinds : List String) (cells : List Cell) :
    AreRowsOf kinds cells (rows kinds cells) :=
  ⟨_, isRecognised_recognised kinds cells, isCut_rows kinds cells⟩

theorem areRowsOf_iff : AreRowsOf kinds cells blocks ↔ rows kinds cells = blocks := by
  refine ⟨?_, fun h => h ▸ areRowsOf_rows kinds cells⟩
  rintro ⟨marked, hm, hcut⟩
  obtain rfl := isRecognised_iff.1 hm
  exact (isCut_rows kinds cells).eq hcut

theorem nodup_of_mem_rows {r : Row} (h : r ∈ rows kinds cells) : (r.map Prod.fst).Nodup :=
  (isCut_rows kinds cells).nodup r h

/-! ## Rules -/

/-- A row has a value of a kind, or the value that stands for a kind it has not. -/
def Row.Gives (r : Row) (kind default value : String) : Prop :=
  (kind, value) ∈ r ∨ kind ∉ r.map Prod.fst ∧ value = default

/-- A row has a value of a kind, and one that is not empty. -/
def Row.names (r : Row) (kind : String) : Bool := r.any fun cell => cell.1 == kind && cell.2 != ""

theorem Row.gives_getD (r : Row) (kind default : String) :
    r.Gives kind default ((r.lookup kind).getD default) := by
  cases h : r.lookup kind with
  | some value => exact .inl (mem_of_lookup h)
  | none =>
    refine .inr ⟨fun hk => ?_, rfl⟩
    rw [← isSome_lookup_iff, h] at hk
    cases hk

theorem Row.gives_value (r : Row) (kind : String) : r.Gives kind "" (r.value kind) :=
  r.gives_getD kind ""

theorem Row.names_eq {r : Row} (h : (r.map Prod.fst).Nodup) (kind : String) :
    r.names kind = decide (r.value kind ≠ "") := by
  rw [Bool.eq_iff_iff, Row.names, List.any_eq_true, decide_eq_true_iff, Row.value]
  constructor
  · rintro ⟨⟨k, value⟩, hm, hc⟩
    obtain ⟨rfl, hv⟩ : k = kind ∧ value ≠ "" := by simpa using hc
    rwa [(lookup_eq_some_iff_mem h).2 hm]
  · intro hv
    cases hl : r.lookup kind with
    | none => exact absurd (by rw [hl]; rfl) hv
    | some value =>
      rw [hl] at hv
      exact ⟨(kind, value), mem_of_lookup hl, by simpa using hv⟩

namespace QualityRule

/-- The rule of a row, by the type of the component. Where a row does not say
whether nulls are ignored, they are not. -/
inductive IsRule (r : Row) : String → QualityRule → Prop where
  | schema {column dataType nullable : String} (hc : r.Gives "COLUMN" "" column)
      (ht : r.Gives "TYPE" "" dataType) (hn : r.Gives "NULL" "" nullable) :
      IsRule r "tSchemaComplianceCheck" (.schema column dataType nullable)
  | filter {column function operator value : String} (hc : r.Gives "COLUMN" "" column)
      (hf : r.Gives "FUNCTION" "" function) (ho : r.Gives "OPERATOR" "" operator)
      (hv : r.Gives "VALUE" "" value) :
      IsRule r "tFilterRow" (.filter column function operator value)
  | aggregation {output function input ignoreNull : String} (ho : r.Gives "OUTPUT" "" output)
      (hf : r.Gives "FUNCTION" "" function) (hi : r.Gives "INPUT" "" input)
      (hn : r.Gives "NULL" "false" ignoreNull) :
      IsRule r "tAggregateRow" (.aggregation output function input ignoreNull)

/-- The rows that a component has rules of: those of all its tables of columns, or
of its first table of conditions or operations those that name a column or a
function. -/
inductive HasRows (c : Component) : List Row → Prop where
  | schema {tables : List (List Row)} (hk : c.kind = "tSchemaComplianceCheck")
      (h : List.Forall₂ (fun p => AreRowsOf ["COLUMN", "TYPE", "NULL"] p.cells)
        (c.tables "SCHEMA_COLUMN") tables) :
      HasRows c tables.flatten
  | filter {tables : List (List Row)} (hk : c.kind = "tFilterRow")
      (h : List.Forall₂ (fun p => AreRowsOf ["COLUMN", "FUNCTION", "OPERATOR", "VALUE"] p.cells)
        ((c.tables "CONDITIONS").take 1) tables) :
      HasRows c (tables.flatten.filter (·.names "COLUMN"))
  | aggregation {tables : List (List Row)} (hk : c.kind = "tAggregateRow")
      (h : List.Forall₂ (fun p => AreRowsOf ["OUTPUT", "FUNCTION", "INPUT", "NULL"] p.cells)
        ((c.tables "OPERATIONS").take 1) tables) :
      HasRows c (tables.flatten.filter (·.names "FUNCTION"))
  | other (hk : c.kind ∉ qualityKinds) : HasRows c []

/-- Each table has its own rows. -/
theorem forall₂_areRowsOf (kinds : List String) (ps : List Parameter) :
    List.Forall₂ (fun p => AreRowsOf kinds p.cells) ps (ps.map fun p => rows kinds p.cells) :=
  List.forall₂_map_right_iff.2 (List.forall₂_same.2 fun p _ => areRowsOf_rows kinds p.cells)

theorem forall₂_map {kind : String} {f : Row → QualityRule} (h : ∀ r, IsRule r kind (f r))
    (rs : List Row) : List.Forall₂ (fun r => IsRule r kind) rs (rs.map f) :=
  List.forall₂_map_right_iff.2 (List.forall₂_same.2 fun r _ => h r)

theorem firstTableRows_eq (c : Component) (name : String) (kinds : List String) :
    firstTableRows c name kinds =
      (((c.tables name).take 1).map fun p => rows kinds p.cells).flatten := by
  rw [firstTableRows]
  cases c.tables name with
  | nil => rfl
  | cons p ps => simp

/-- The rows of the first table that name a kind. -/
theorem filter_firstTableRows (c : Component) (name kind : String) (kinds : List String) :
    (firstTableRows c name kinds).filter (fun r => r.value kind ≠ "") =
      (firstTableRows c name kinds).filter (·.names kind) := by
  refine List.filter_congr fun r hr => (Row.names_eq ?_ kind).symm
  rw [firstTableRows] at hr
  split at hr
  · cases hr
  · exact nodup_of_mem_rows hr

theorem exists_rows_ofComponent (c : Component) :
    ∃ rs, HasRows c rs ∧ List.Forall₂ (fun r => IsRule r c.kind) rs (ofComponent c) := by
  unfold ofComponent
  split
  · next hk =>
    refine ⟨_, .schema hk (forall₂_areRowsOf _ _), ?_⟩
    rw [ofSchemaCheck, List.flatMap_def, hk]
    exact forall₂_map (fun r => .schema (r.gives_value _) (r.gives_value _) (r.gives_value _)) _
  · next hk =>
    refine ⟨_, .filter hk (forall₂_areRowsOf _ _), ?_⟩
    rw [ofFilter, filter_firstTableRows, firstTableRows_eq, hk]
    exact forall₂_map (fun r => .filter (r.gives_value _) (r.gives_value _) (r.gives_value _)
      (r.gives_value _)) _
  · next hk =>
    refine ⟨_, .aggregation hk (forall₂_areRowsOf _ _), ?_⟩
    rw [ofAggregation, filter_firstTableRows, firstTableRows_eq, hk]
    exact forall₂_map (fun r => .aggregation (r.gives_value _) (r.gives_value _) (r.gives_value _)
      (r.gives_getD _ _)) _
  · next h₁ h₂ h₃ =>
    exact ⟨[], .other (by simpa [qualityKinds] using ⟨h₁, h₂, h₃⟩), .nil⟩

end QualityRule

/-- The rows of a table are the only way to cut its recognised cells into rows with
distinct kinds of which each is opened by a kind of the one before, and a row maps
exactly the kinds of its cells to their values. The rules of a component are those
of the rows of its tables, in their order, one for each row. -/
theorem rows_and_rules :
    (∀ kinds cells blocks, AreRowsOf kinds cells blocks ↔ rows kinds cells = blocks) ∧
    (∀ kinds cells, ∀ r ∈ rows kinds cells, ∀ kind value,
      r.lookup kind = some value ↔ (kind, value) ∈ r) ∧
    ∀ c : Component, ∃ rs, QualityRule.HasRows c rs ∧
      List.Forall₂ (fun r => QualityRule.IsRule r c.kind) rs (QualityRule.ofComponent c) :=
  ⟨fun _ _ _ => areRowsOf_iff, fun _ _ _ hr _ _ => lookup_eq_some_iff_mem (nodup_of_mem_rows hr),
    QualityRule.exists_rows_ofComponent⟩

end JobAtlas
