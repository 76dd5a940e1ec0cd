import JobAtlas.Markup.Document

/-!
# Reading part of a document

`readFrom` is the rest of the reading of a document, from a tree in the making.
`Advances g a g'` says that reading `a` turns the tree in the making `g` into
`g'`, whatever follows, and that a document cannot end inside of `a`. Such parts
compose (`Advances.append`). Characters outside of markup change nothing
(`Advances.text`), and markup that its automaton passes over is one token
(`Advances.markup`).
-/

namespace JobAtlas

open Markup

/-- Read the rest of a document, from byte `offset` on. -/
def Growth.readFrom (offset : Nat) (g : Growth) (s : List Char) : Except Markup.Error Element := do
  let (tokens, fault?) := tokensFrom offset s
  let g ← tokens.foldlM Growth.step g
  match fault? with
  | some (position, fault) => .error (.markup position fault)
  | none => g.finish

namespace Growth

theorem readFrom_nil (offset : Nat) (g : Growth) : g.readFrom offset [] = g.finish := by
  rw [readFrom, tokensFrom]
  rfl

theorem readFrom_char {c : Char} (h : c ≠ '<') (offset : Nat) (g : Growth) (s : List Char) :
    g.readFrom offset (c :: s) = g.readFrom (offset + c.utf8Size) s := by
  rw [readFrom, tokensFrom, if_pos h, readFrom]

theorem readFrom_markup {kind : Kind} {s content rest : List Char} {token : Token} {offset : Nat}
    (hk : Kind.of? s = some kind) (hc : kind.cut? s = some (content, rest))
    (ht : kind.token content (offset + Text.byteLength content + 2) = .ok token) (g : Growth) :
    g.readFrom offset ('<' :: s) =
      (g.step token).bind (·.readFrom (offset + Text.byteLength content + 2) rest) := by
  have h : tokensFrom offset ('<' :: s) =
      (token :: (tokensFrom (offset + Text.byteLength content + 2) rest).1,
        (tokensFrom (offset + Text.byteLength content + 2) rest).2) := by
    rw [tokensFrom, if_neg (by decide)]
    simp only [hk]
    split
    · rename_i hs
      cases hc.symm.trans hs
    · rename_i content' rest' hs
      cases hc.symm.trans hs
      simp only [ht]
  simp only [readFrom, h, List.foldlM_cons]
  cases g.step token with
  | error e => rfl
  | ok g' => rfl

/-- Markup that does not end, or is not known, is an error. -/
theorem readFrom_unclosed {s : List Char} (h : ∀ kind, Kind.of? s = some kind → kind.cut? s = none)
    (offset : Nat) (g : Growth) : ∃ e, g.readFrom offset ('<' :: s) = .error e := by
  have ht : ∃ position fault, tokensFrom offset ('<' :: s) = ([], some (position, fault)) := by
    rw [tokensFrom, if_neg (by decide)]
    split
    · exact ⟨_, _, rfl⟩
    · rename_i kind hk
      split
      · exact ⟨_, _, rfl⟩
      · rename_i hc
        cases (h kind hk).symm.trans hc
  obtain ⟨position, fault, ht⟩ := ht
  refine ⟨.markup position fault, ?_⟩
  rw [readFrom, ht]
  rfl

/-- Reading begins with nothing, unless a byte order mark stands in front. -/
theorem ofChars_eq_readFrom {s : List Char} (h : s.head? ≠ some '\uFEFF') :
    Element.ofChars s = start.readFrom 0 s := by
  have ht : tokens s = tokensFrom 0 s := by
    rw [tokens]
    rintro t rfl
    exact h rfl
  rw [Element.ofChars, ht]
  rfl

/-- A document that ends here is not read. -/
def Pending (g : Growth) : Prop := ∃ e, g.finish = .error e

theorem pending_start : start.Pending := ⟨.noRoot, rfl⟩

theorem pending_of_open (o : OpenElement) (stack : List OpenElement) (root? : Option Element) :
    Pending ⟨o :: stack, root?⟩ := ⟨.unclosedElement o.name, rfl⟩

end Growth

/-! ## Parts of a document -/

/-- Where a text ends that does not reach the end of `a ++ b`: in `a`, or in `b`. -/
theorem prefix_append_cases {a b p : List Char} (hp : p <+: a ++ b) (hn : p ≠ a ++ b) :
    (p <+: a ∧ p ≠ a) ∨ ∃ q, q <+: b ∧ q ≠ b ∧ p = a ++ q := by
  by_cases ha : p <+: a ∧ p ≠ a
  · exact Or.inl ha
  · obtain ⟨q, rfl⟩ : a <+: p := by
      obtain hpa | hap := List.prefix_or_prefix_of_prefix hp (List.prefix_append a b)
      · have he : p = a := Decidable.byContradiction fun hn => ha ⟨hpa, hn⟩
        exact he ▸ List.prefix_rfl
      · exact hap
    refine Or.inr ⟨q, (List.prefix_append_right_inj a).1 hp, ?_, rfl⟩
    rintro rfl
    exact hn rfl

/-- Reading `a` leads from `g` to `g'`, and a document that ends inside of `a`
is not read. -/
structure Advances (g : Growth) (a : List Char) (g' : Growth) : Prop where
  reads : ∀ offset rest, ∃ offset', g.readFrom offset (a ++ rest) = g'.readFrom offset' rest
  refuses : ∀ offset p, p <+: a → p ≠ a → ∃ e, g.readFrom offset p = .error e

namespace Advances

variable {g g' g'' : Growth} {a b : List Char}

theorem nil (g : Growth) : Advances g [] g where
  reads offset _ := ⟨offset, rfl⟩
  refuses _ _ hp hn := absurd (List.prefix_nil.1 hp) hn

theorem append (h : Advances g a g') (h' : Advances g' b g'') : Advances g (a ++ b) g'' where
  reads offset rest := by
    obtain ⟨offset', ha⟩ := h.reads offset (b ++ rest)
    obtain ⟨offset'', hb⟩ := h'.reads offset' rest
    exact ⟨offset'', by rw [List.append_assoc, ha, hb]⟩
  refuses offset p hp hn := by
    obtain ⟨hp, hn⟩ | ⟨q, hq, hqn, rfl⟩ := prefix_append_cases hp hn
    · exact h.refuses offset p hp hn
    · obtain ⟨offset', hr⟩ := h.reads offset q
      rw [hr]
      exact h'.refuses offset' q hq hqn

theorem char (hg : g.Pending) {c : Char} (h : c ≠ '<') : Advances g [c] g where
  reads offset rest := ⟨_, Growth.readFrom_char h offset g rest⟩
  refuses offset p hp hn := by
    obtain rfl | ⟨t, rfl, ht⟩ := List.prefix_cons_iff.1 hp
    · rw [Growth.readFrom_nil]
      exact hg
    · exact absurd (congrArg (c :: ·) (List.prefix_nil.1 ht)) hn

/-- Characters outside of markup. -/
theorem text (hg : g.Pending) {s : List Char} (h : '<' ∉ s) : Advances g s g := by
  induction s with
  | nil => exact nil g
  | cons c s ih =>
    rw [List.mem_cons, not_or] at h
    exact (char hg (Ne.symm h.1)).append (ih h.2)

/-- Markup that ends at its last character and not before is one token. -/
theorem markup (kind : Kind) (hg : g.Pending)
    (hk : ∀ s, Kind.of? (a ++ '>' :: s) = some kind)
    (hc : ∀ s, kind.cut? (a ++ '>' :: s) = some (a, s))
    (hp : ∀ p, p <+: a → ∀ k, Kind.of? p = some k → k.cut? p = none)
    (ht : ∀ stop, ∃ token, kind.token a stop = .ok token ∧ g.step token = .ok g') :
    Advances g ('<' :: a ++ ['>']) g' where
  reads offset rest := by
    obtain ⟨token, ht, hs⟩ := ht (offset + Text.byteLength a + 2)
    refine ⟨offset + Text.byteLength a + 2, ?_⟩
    rw [List.cons_append, List.cons_append, List.append_assoc, List.singleton_append,
      Growth.readFrom_markup (hk rest) (hc rest) ht, hs]
    rfl
  refuses offset p hpre hn := by
    obtain rfl | ⟨q, rfl, hq⟩ := List.prefix_cons_iff.1 hpre
    · rw [Growth.readFrom_nil]
      exact hg
    · obtain rfl | hq := List.prefix_concat_iff.1 hq
      · exact absurd rfl hn
      · exact Growth.readFrom_unclosed (hp q hq) offset g

end Advances

end JobAtlas
