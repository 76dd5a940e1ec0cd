import JobAtlas.Connection.Settings
import JobAtlas.Proofs.Transaction.Atomicity

/-!
# Two readings of a connection

The settings of a component that opens a connection are read twice: into the group
of the transaction that it opens, and into the settings of the connection. Both
readings agree on whether changes are committed one by one and in batches, and on
the size of a batch if its text is a number (`agrees_ofComponent`). They differ
where it is none, as for the component of `not_agrees_unreadable`.

* `word64?_eq_some_iff`, `word64?_eq_none_iff`: the texts that are numbers of 64 bits.
-/

namespace JobAtlas

/-! ## Numbers in texts -/

namespace Text

/-- A text is a row of digits, perhaps behind a plus sign, with the value `n`. -/
def Denotes (s : List Char) (n : Nat) : Prop :=
  ∃ ds, (s = ds ∨ s = '+' :: ds) ∧ ds ≠ [] ∧ (∀ d ∈ ds, d.isDigit = true) ∧
    Nat.ofDigitChars 10 ds 0 = n

variable {s : List Char} {n bound : Nat} {w : UInt64}

theorem digits?_eq_some_iff : digits? s = some n ↔
    s ≠ [] ∧ (∀ d ∈ s, d.isDigit = true) ∧ Nat.ofDigitChars 10 s 0 = n := by
  cases s with
  | nil => simp [digits?]
  | cons c s =>
    simp only [digits?, Option.ite_none_right_eq_some, List.all_eq_true, Option.some.injEq]
    exact ⟨fun ⟨h, hn⟩ => ⟨List.cons_ne_nil c s, h, hn⟩, fun ⟨_, h, hn⟩ => ⟨h, hn⟩⟩

theorem natural?_eq_some_iff : natural? bound s = some n ↔ Denotes s n ∧ n < bound := by
  simp only [natural?, bind, Option.bind_eq_some_iff, Option.ite_none_right_eq_some,
    Option.some.injEq, digits?_eq_some_iff]
  constructor
  · rintro ⟨m, ⟨hne, hd, hm⟩, hlt, rfl⟩
    refine ⟨⟨_, ?_, hne, hd, hm⟩, hlt⟩
    split
    · exact .inr rfl
    · exact .inl rfl
  · rintro ⟨⟨ds, rfl | rfl, hne, hd, hn⟩, hlt⟩
    · refine ⟨n, ?_, hlt, rfl⟩
      split
      · exact absurd (hd '+' List.mem_cons_self) (by decide)
      · exact ⟨hne, hd, hn⟩
    · exact ⟨n, ⟨hne, hd, hn⟩, hlt, rfl⟩

theorem word64?_eq_some_iff : word64? s = some w ↔ Denotes s w.toNat := by
  rw [word64?, Option.map_eq_some_iff]
  constructor
  · rintro ⟨n, hn, rfl⟩
    obtain ⟨hd, hlt⟩ := natural?_eq_some_iff.1 hn
    rwa [UInt64.toNat_ofNat_of_lt' hlt]
  · intro h
    exact ⟨w.toNat, natural?_eq_some_iff.2 ⟨h, w.toNat_lt⟩, UInt64.ofNat_toNat⟩

theorem word64?_eq_none_iff : word64? s = none ↔ ∀ w : UInt64, ¬ Denotes s w.toNat := by
  simp only [← word64?_eq_some_iff, Option.eq_none_iff_forall_ne_some, ne_eq]

end Text

/-! ## Settings and groups -/

namespace ConnectionSettings

open Transaction (Group Span Summary settingText)

/-- The settings of a connection say the same as a group that it opens. The size of
a batch is said if there are batches and one is declared, and it is the same if and
only if the text of it, between blanks and quotes, is a number of 64 bits. -/
structure Agrees (s : ConnectionSettings) (c : Component) (g : Group) : Prop where
  autoCommit : g.autoCommit = s.autoCommit.getD true
  useBatch : g.useBatch = true ↔ s.batch.enabled = some true
  size : ∀ v, g.useBatch = true → c.value? "BATCH_SIZE" = some v →
    (s.batch.size = some g.batchSize ↔ ∃ w : UInt64, Text.Denotes (settingText v) w.toNat)
  number : ∀ v (w : UInt64), c.value? "BATCH_SIZE" = some v →
    Text.Denotes (settingText v) w.toNat → g.batchSize = w
  /-- Where the text is no number, each reading has a number of its own for it. -/
  unreadable : ∀ v, g.useBatch = true → c.value? "BATCH_SIZE" = some v →
    (∀ w : UInt64, ¬ Text.Denotes (settingText v) w.toNat) →
    g.batchSize = 0 ∧ s.batch.size = some 1000

variable {c : Component} {v : String}

theorem size_ofComponent (hb : c.flag "USE_BATCH" = true) (hv : c.value? "BATCH_SIZE" = some v) :
    (ofComponent c).batch.size = some ((Text.word64? (settingText v)).getD 1000) := by
  show (if c.flag "USE_BATCH" then _ else _) = _
  rw [if_pos hb, hv]
  rfl

theorem batchSize_ofSpan {span : Span} (hv : span.connection.value? "BATCH_SIZE" = some v) :
    (Group.ofSpan span).batchSize = (Text.word64? (settingText v)).getD 0 := by
  rw [Group.ofSpan, hv, Option.bind_some]

theorem agrees_ofSpan (span : Span) :
    (ofComponent span.connection).Agrees span.connection (Group.ofSpan span) := by
  refine ⟨?_, ?_, fun v hb hv => ?_, fun v w hv hw => ?_, fun v hb hv hw => ?_⟩
  · show Transaction.autoCommits span.connection =
      ((span.connection.value? "AUTO_COMMIT").map _).getD true
    rw [Transaction.autoCommits]
    cases span.connection.value? "AUTO_COMMIT" <;> rfl
  · show span.connection.flag "USE_BATCH" = true ↔
      (if span.connection.flag "USE_BATCH" then some true else none) = some true
    simp
  · rw [size_ofComponent hb hv, batchSize_ofSpan hv]
    cases hw : Text.word64? (settingText v) with
    | none =>
      have hnone := Text.word64?_eq_none_iff.1 hw
      simp [hnone]
    | some w => simp [← Text.word64?_eq_some_iff, hw]
  · rw [batchSize_ofSpan hv, Text.word64?_eq_some_iff.2 hw]
    rfl
  · rw [size_ofComponent hb hv, batchSize_ofSpan hv, Text.word64?_eq_none_iff.2 hw]
    exact ⟨rfl, rfl⟩

/-- Every group that a connection can open agrees with the settings of the
connection, and every group of a job is opened by a connection of the job. -/
theorem agrees_ofComponent (j : Job) :
    (∀ span : Span, (ofComponent span.connection).Agrees span.connection (Group.ofSpan span)) ∧
    ∀ s, Summary.ofJob? j = some s → ∀ g ∈ s.groups, ∃ c ∈ j.components,
      DatabaseRole.of? c.kind = some .connection ∧ g.connection = c.name ∧
        (ofComponent c).Agrees c g := by
  refine ⟨agrees_ofSpan, fun s hs g hg => ?_⟩
  rw [(Summary.eq_of_ofJob? hs).1] at hg
  obtain ⟨span, hspan, rfl⟩ := List.mem_map.1 hg
  obtain ⟨hr, rest, hsuffix, -⟩ := Transaction.isIn_of_mem_spans hspan
  exact ⟨span.connection, hsuffix.subset List.mem_cons_self, hr, rfl, agrees_ofSpan span⟩

/-- A connection that commits in batches of an unreadable size. -/
def unreadableBatch : Component where
  kind := "tDBConnection"
  name := "open"
  position := {}
  parameters := [⟨"USE_BATCH", none, "true", []⟩, ⟨"BATCH_SIZE", none, "many", []⟩]
  schemas := []
  mappers := []
  links := []

theorem not_agrees_unreadable :
    ¬ ∀ (span : Span) (v : String), DatabaseRole.of? span.connection.kind = some .connection →
      (Group.ofSpan span).useBatch = true → span.connection.value? "BATCH_SIZE" = some v →
      (ofComponent span.connection).batch.size = some (Group.ofSpan span).batchSize := by
  intro h
  have hsize := h ⟨unreadableBatch, [], none⟩ "many" (by decide +kernel) (by decide +kernel)
    (by decide +kernel)
  revert hsize
  decide +kernel

end ConnectionSettings

end JobAtlas
