import JobAtlas.Proofs.Text.Alike
import JobAtlas.Sql.Operation

/-!
# What detection sees

An operation is detected in the trimmed upper case of a text; only a reference to
a context variable is sought in the text as it is. Neither changes with the case
of ASCII letters or with blanks at the ends (`detectChars_of_alike`).

* `contextReference_eq_some_iff`, `occursIn_contextReference_iff`: references,
  whatever their case;
* `leading?_eq`: of two keywords, one of which begins the other, the shorter counts;
* `ofLeading_cases`, `ofRules_cases`: the operations that come out of a text with a
  leading keyword and of one without;
* `detect_alike_and_range`: what follows for all texts.
-/

namespace JobAtlas.Sql

open Text (Recogniser Alike isWord)

namespace Operation

/-! ## References in any case -/

theorem contextReference_eq_some_iff {s r : List Char} : contextReference s = some ((), r) ↔
    ∃ k c, k.map Char.toLower = "context.".toList ∧ isWord c = true ∧ s = k ++ c :: r := by
  constructor
  · intro h
    simp only [contextReference, Option.ite_none_right_eq_some, List.isPrefixOf_iff_prefix] at h
    obtain ⟨hp, h⟩ := h
    split at h
    · next c rest hdrop =>
      obtain ⟨hc, hr⟩ := Option.ite_none_right_eq_some.1 h
      cases hr
      refine ⟨s.take 8, c, (hp.eq_of_length_le ?_).symm, hc, ?_⟩
      · rw [List.length_map]
        exact List.length_take_le 8 s
      · rw [← hdrop, List.take_append_drop]
    · cases h
  · rintro ⟨k, c, hk, hc, rfl⟩
    have hl : k.length = 8 := by simpa using congrArg List.length hk
    simp only [contextReference, ← hl, List.take_left, List.drop_left, hk, hc, if_true,
      List.isPrefixOf_iff_prefix, List.prefix_rfl]

theorem isSome_contextReference_iff {s : List Char} : (contextReference s).isSome ↔
    ∃ c, isWord c = true ∧ "context.".toList ++ [c] <+: s.map Char.toLower := by
  rw [Option.isSome_iff_exists]
  constructor
  · rintro ⟨⟨⟨⟩, r⟩, h⟩
    obtain ⟨k, c, hk, hc, rfl⟩ := contextReference_eq_some_iff.1 h
    refine ⟨c.toLower, by rw [Text.isWord_toLower, hc], r.map Char.toLower, ?_⟩
    rw [List.map_append, List.map_cons, hk, List.append_assoc, List.singleton_append]
  · rintro ⟨c, hc, after, h⟩
    rw [List.append_assoc, List.singleton_append] at h
    obtain ⟨k, t, rfl, hk, ht⟩ := List.map_eq_append_iff.1 h.symm
    obtain ⟨d, r, rfl, rfl, -⟩ := List.map_eq_cons_iff.1 ht
    rw [Text.isWord_toLower] at hc
    exact ⟨((), r), contextReference_eq_some_iff.2 ⟨k, d, hk, hc, rfl⟩⟩

/-- A text refers to a context variable if its lower case does. -/
theorem occursIn_contextReference_iff {s : List Char} : contextReference.occursIn s = true ↔
    ∃ c, isWord c = true ∧ "context.".toList ++ [c] <:+: s.map Char.toLower := by
  simp only [Recogniser.occursIn_iff, isSome_contextReference_iff, List.infix_iff_prefix_suffix]
  constructor
  · rintro ⟨t, ht, c, hc, hp⟩
    exact ⟨c, hc, _, hp, ht.map _⟩
  · rintro ⟨c, hc, u, hp, before, hu⟩
    obtain ⟨_, t, rfl, -, rfl⟩ := List.map_eq_append_iff.1 hu.symm
    exact ⟨t, List.suffix_append _ t, c, hc, hp⟩

theorem occursIn_contextReference_of_alike {s t : List Char} (h : Alike s t) :
    contextReference.occursIn s = contextReference.occursIn t := by
  rw [Bool.eq_iff_iff, occursIn_contextReference_iff, occursIn_contextReference_iff]
  refine exists_congr fun c => and_congr_right fun hc => h.infix_iff ?_
  have hword : ∀ d ∈ "context.".toList, Text.isBlank d = false := fun d hd =>
    Bool.eq_false_iff.2 (List.any_eq_false.1 (by decide) d hd)
  refine List.forall_mem_append.2 ⟨hword, fun d hd => ?_⟩
  rw [List.mem_singleton.1 hd, Bool.eq_false_iff]
  intro hb
  rw [Text.isWord_of_isBlank hb] at hc
  cases hc

/-! ## The text that is looked at -/

/-- The text in which keywords are sought. -/
def keyText (s : List Char) : List Char := Text.trim (Text.upper s)

/-- The operation of a text without a leading keyword. -/
def ofRules (upper original : List Char) : Operation :=
  (rules.findSome? fun rule => rule.detect? upper original).getD unknown

theorem detectChars_of_some {s : List Char} {k : String × Operation}
    (h : leading? (keyText s) = some k) : detectChars s = ofLeading (keyText s) k := by
  rw [keyText] at h
  simp only [detectChars, h, keyText]

theorem detectChars_of_none {s : List Char} (h : leading? (keyText s) = none) :
    detectChars s = ofRules (keyText s) s := by
  rw [keyText] at h
  simp only [detectChars, h, keyText, ofRules]

theorem ofRules_congr {s t : List Char} (h : contextReference.occursIn s = contextReference.occursIn t)
    (upper : List Char) : ofRules upper s = ofRules upper t := by
  have hdynamic : dynamicRule.detect? upper s = dynamicRule.detect? upper t := by
    simp only [dynamicRule, h]
  simp only [ofRules, rules, List.findSome?_cons, hdynamic]
  rfl

theorem detectChars_of_alike {s t : List Char} (h : Alike s t) : detectChars s = detectChars t := by
  have hkey : keyText s = keyText t := h.trim_upper
  cases hs : leading? (keyText s) with
  | some k => rw [detectChars_of_some hs, detectChars_of_some (hkey ▸ hs), hkey]
  | none =>
    rw [detectChars_of_none hs, detectChars_of_none (hkey ▸ hs), hkey,
      ofRules_congr (occursIn_contextReference_of_alike h)]

/-! ## Leading keywords -/

/-- The keywords but for the last one, which begins with another. -/
def decidingKeywords : List (String × Operation) := leadingKeywords.dropLast

theorem leading?_eq (u : List Char) :
    leading? u = decidingKeywords.find? fun k => k.1.toList.isPrefixOf u := by
  have hsplit : leadingKeywords = decidingKeywords ++ [("EXECUTE", execute)] := rfl
  rw [leading?, hsplit, List.find?_append]
  cases h : decidingKeywords.find? fun k => k.1.toList.isPrefixOf u with
  | some k => rfl
  | none =>
    have hexec : ¬ "EXEC".toList <+: u := fun hp =>
      List.find?_eq_none.1 h ("EXEC", exec) (by decide) (List.isPrefixOf_iff_prefix.2 hp)
    have hshorter : "EXEC".toList <+: "EXECUTE".toList := by decide
    refine List.find?_eq_none.2 fun k hk hp => hexec (hshorter.trans ?_)
    rw [List.mem_singleton.1 hk] at hp
    exact List.isPrefixOf_iff_prefix.1 hp

/-- The text begins with the keyword that is found. -/
theorem mem_of_leading? {u : List Char} {k : String × Operation} (h : leading? u = some k) :
    k ∈ decidingKeywords ∧ k.1.toList <+: u := by
  rw [leading?_eq] at h
  have hp : k.1.toList.isPrefixOf u = true :=
    List.find?_some (p := fun k : String × Operation => k.1.toList.isPrefixOf u) h
  exact ⟨List.mem_of_find?_eq_some h, List.isPrefixOf_iff_prefix.1 hp⟩

/-- The operations of common table expressions. -/
def isCte : Operation → Bool
  | cte _ => true
  | _ => false

/-- The operations of texts without a leading keyword only. -/
def isSecondary : Operation → Bool
  | mergeUsing | multiStatement | block _ | windowFunction | unload | copy | dynamicSql => true
  | _ => false

theorem ofLeading_cases (u : List Char) (k : String × Operation) :
    ofLeading u k = k.2 ∨ k.1 = "SELECT" ∧ ofLeading u k = selectWindow ∨
      k.1 = "WITH" ∧ ∃ kind, ofLeading u k = cte kind := by
  obtain ⟨word, o⟩ := k
  unfold ofLeading
  split
  · next heq =>
    obtain ⟨rfl, rfl⟩ := Prod.mk.inj heq
    split
    · next kind _ => exact .inr (.inr ⟨rfl, kind, rfl⟩)
    · exact .inl rfl
  · next heq =>
    obtain ⟨rfl, rfl⟩ := Prod.mk.inj heq
    split
    · exact .inr (.inl ⟨rfl, rfl⟩)
    · exact .inl rfl
  · next heq =>
    obtain ⟨rfl, rfl⟩ := Prod.mk.inj heq
    exact .inl rfl

/-- What is detected behind a leading keyword. -/
theorem ofLeading_range {u : List Char} {k : String × Operation} (hk : k ∈ decidingKeywords) :
    ofLeading u k ≠ execute ∧ (ofLeading u k).isSecondary = false ∧
      ((ofLeading u k).isCte = true ↔ k.1 = "WITH") := by
  have hkeywords : ∀ k ∈ decidingKeywords, k.2 ≠ execute ∧ k.2.isSecondary = false ∧
      (k.2.isCte = true ↔ k.1 = "WITH") := by decide
  rcases ofLeading_cases u k with h | ⟨hselect, h⟩ | ⟨hwith, kind, h⟩
  · rw [h]
    exact hkeywords k hk
  · rw [h, hselect]
    decide
  · rw [h, hwith]
    exact ⟨nofun, rfl, iff_of_true rfl rfl⟩

/-! ## Other texts -/

/-- The operations that the rules give. -/
inductive IsOfRules : Operation → Prop
  | mergeUsing : IsOfRules mergeUsing
  | multiStatement : IsOfRules multiStatement
  | block {kind : StatementKind} (h : kind ∈ blockStatements) : IsOfRules (block kind)
  | selectWindow : IsOfRules selectWindow
  | windowFunction : IsOfRules windowFunction
  | unload : IsOfRules unload
  | copy : IsOfRules copy
  | dynamicSql : IsOfRules dynamicSql
  | unknown : IsOfRules unknown

theorem isOfRules_of_blockRule {upper original : List Char} {o : Operation}
    (h : blockRule.detect? upper original = some o) : IsOfRules o := by
  simp only [blockRule, Option.ite_none_right_eq_some] at h
  obtain ⟨-, h⟩ := h
  split at h
  · cases h
  · next kind hfilter =>
    cases h
    have hmem := hfilter ▸ List.mem_singleton_self kind
    exact .block (List.mem_filter.1 hmem).1
  · cases h
    exact .multiStatement

theorem isOfRules_of_windowRule {upper original : List Char} {o : Operation}
    (h : windowRule.detect? upper original = some o) : IsOfRules o := by
  simp only [windowRule, Option.ite_none_right_eq_some, Option.some.injEq] at h
  obtain ⟨-, rfl⟩ := h
  split
  · exact .selectWindow
  · exact .windowFunction

theorem isOfRules_ofRules (upper original : List Char) : IsOfRules (ofRules upper original) := by
  cases h : rules.findSome? fun rule => rule.detect? upper original with
  | none =>
    rw [ofRules, h]
    exact .unknown
  | some o =>
    rw [ofRules, h, Option.getD_some]
    obtain ⟨rule, hrule, ho⟩ := List.exists_of_findSome?_eq_some h
    simp only [rules, List.mem_cons, List.not_mem_nil, or_false] at hrule
    rcases hrule with rfl | rfl | rfl | rfl | rfl | rfl
    · obtain ⟨-, ⟨⟩⟩ := Option.ite_none_right_eq_some.1 ho
      exact .mergeUsing
    · exact isOfRules_of_blockRule ho
    · exact isOfRules_of_windowRule ho
    · obtain ⟨-, ⟨⟩⟩ := Option.ite_none_right_eq_some.1 ho
      exact .unload
    · obtain ⟨-, ⟨⟩⟩ := Option.ite_none_right_eq_some.1 ho
      exact .copy
    · obtain ⟨-, ⟨⟩⟩ := Option.ite_none_right_eq_some.1 ho
      exact .dynamicSql

theorem IsOfRules.range {o : Operation} (h : IsOfRules o) :
    o ≠ execute ∧ o ≠ .block .select ∧ o.isCte = false := by
  cases h with
  | block h =>
    have hblock : ∀ kind ∈ blockStatements, kind ≠ .select := by decide
    exact ⟨nofun, fun e => hblock _ h (Operation.block.inj e), rfl⟩
  | _ => decide

/-! ## All texts -/

/-- Only the keyword `WITH` leads a text that begins with it. -/
theorem prefix_with_iff {u : List Char} {k : String × Operation} (hk : k ∈ decidingKeywords)
    (hp : k.1.toList <+: u) : "WITH".toList <+: u ↔ k.1 = "WITH" := by
  have hfree : ∀ k ∈ decidingKeywords,
      k.1.toList <+: "WITH".toList ∨ "WITH".toList <+: k.1.toList → k.1 = "WITH" := by decide
  refine ⟨fun hwith => hfree k hk (List.prefix_or_prefix_of_prefix hp hwith), fun h => ?_⟩
  rwa [h] at hp

theorem detectChars_range (s : List Char) : detectChars s ≠ execute ∧ detectChars s ≠ block .select ∧
    ((∃ k ∈ leadingKeywords, k.1.toList <+: keyText s) → (detectChars s).isSecondary = false) ∧
      ((detectChars s).isCte = true ↔ "WITH".toList <+: keyText s) := by
  cases h : leading? (keyText s) with
  | some k =>
    obtain ⟨hk, hp⟩ := mem_of_leading? h
    obtain ⟨hexecute, hsecondary, hcte⟩ := ofLeading_range (u := keyText s) hk
    rw [detectChars_of_some h, hcte, prefix_with_iff hk hp]
    refine ⟨hexecute, fun e => ?_, fun _ => hsecondary, Iff.rfl⟩
    rw [e] at hsecondary
    cases hsecondary
  | none =>
    have hnone : ∀ k ∈ leadingKeywords, ¬ k.1.toList <+: keyText s := fun k hk hp =>
      List.find?_eq_none.1 h k hk (List.isPrefixOf_iff_prefix.2 hp)
    obtain ⟨hexecute, hblock, hcte⟩ := (isOfRules_ofRules (keyText s) s).range
    rw [detectChars_of_none h, hcte]
    refine ⟨hexecute, hblock, fun ⟨k, hk, hp⟩ => absurd hp (hnone k hk), ?_⟩
    exact iff_of_false Bool.false_ne_true (hnone ("WITH", cte .select) (by decide))

/-- Texts that are alike have one operation. No text has the operation `EXECUTE` or
that of a block of queries, none with a leading keyword has a secondary one, and
those that begin with `WITH` are the common table expressions. -/
theorem detect_alike_and_range :
    (∀ s t : String, Alike s.toList t.toList → detect s = detect t) ∧
      ∀ s : String, detect s ≠ execute ∧ detect s ≠ block .select ∧
        ((∃ k ∈ leadingKeywords, k.1.toList <+: keyText s.toList) →
          (detect s).isSecondary = false) ∧
        ((detect s).isCte = true ↔ "WITH".toList <+: keyText s.toList) :=
  ⟨fun _ _ => detectChars_of_alike, fun s => detectChars_range s.toList⟩

/-- A statement behind a blank that is not ASCII. -/
def indented : String := "\u00A0\nExecute immediate $\x7bContext.stmt\x7d"

/-- The same in other letters, and a blank behind it. -/
def shouted : String := "eXECUTE IMMEDIATE $\x7bcontext.STMT\x7d\t"

theorem detect_alike_and_range_shouted : Alike indented.toList shouted.toList ∧
    (∃ k ∈ leadingKeywords, k.1.toList <+: keyText shouted.toList) ∧
      detect indented = detect shouted ∧ detect shouted ≠ execute ∧
      (detect shouted).isSecondary = false := by
  have hindented : indented.toList =
      ['\u00A0', '\n'] ++ ("Execute immediate $\x7bContext.stmt\x7d".toList ++ []) := by
    decide +kernel
  have hshouted : shouted.toList =
      [] ++ ("eXECUTE IMMEDIATE $\x7bcontext.STMT\x7d".toList ++ ['\t']) := by
    decide +kernel
  have halike : Alike indented.toList shouted.toList := by
    rw [hindented, hshouted]
    exact .intro (List.all_eq_true.1 (by decide)) (List.all_eq_true.1 (by decide))
      (by decide +kernel)
  have hleading : ∃ k ∈ leadingKeywords, k.1.toList <+: keyText shouted.toList := by
    decide +kernel
  obtain ⟨hexecute, -, hsecondary, -⟩ := detect_alike_and_range.2 shouted
  exact ⟨halike, hleading, detect_alike_and_range.1 _ _ halike, hexecute, hsecondary hleading⟩

end Operation

end JobAtlas.Sql
