import JobAtlas.Proofs.Markup.Reading
import JobAtlas.Proofs.Markup.Scanning

/-!
# What is written is read back

A document that is written plainly is read as the tree that it was written from,
and no document that stops short of its end is read at all
(`Element.parse_written`). Each tag and each comment is one step of the reader
(`advances_opening`, `advances_closing`, `advances_comment`); an element is its tags
and what is between them (`advances_element`), by induction on the tree.
-/

namespace JobAtlas

open Markup

/-- An open element with more children. -/
def OpenElement.adopt (o : OpenElement) (es : List Element) : OpenElement :=
  { o with children := es.reverse ++ o.children }

theorem OpenElement.adopt_adopt (o : OpenElement) (es fs : List Element) :
    (o.adopt es).adopt fs = o.adopt (es ++ fs) := by
  simp [adopt]

namespace Markup

variable {g g' : Growth}

/-! ## Tags and comments -/

/-- A start tag opens its element. -/
theorem advances_opening (t : StartTag) (hg : g.Pending) :
    Advances g t.opening
      { g with stack := ⟨t.name.chars, t.name.string, t.pairs, []⟩ :: g.stack } := by
  refine .markup .tag hg (fun s => of?_content t _)
    (cut_append_cons (foldlM_tagStep_content t) rfl) (fun p hp k hk => ?_) fun stop =>
      ⟨.opening t.content, token_content t stop, ?_⟩
  · cases (of?_of_prefix_content hp).symm.trans hk
    exact cut_eq_none (foldlM_tagStep_content t) hp
  · rw [Growth.step, t.ofTag_content]
    rfl

/-- An end tag hands the innermost open element over, if it repeats its name. -/
theorem advances_closing {n : Name} {o : OpenElement} {stack : List OpenElement}
    {root? : Option Element} (hn : o.written = n.chars)
    (ha : Growth.attach o.close ⟨stack, root?⟩ = .ok g') :
    Advances ⟨o :: stack, root?⟩ ('<' :: '/' :: n.chars ++ ['>']) g' := by
  have hr : ('/' :: n.chars).foldlM tagStep none = some none := foldlM_tagStep_name n
  refine .markup .tag (Growth.pending_of_open o stack root?) (fun s => rfl)
    (cut_append_cons hr rfl) (fun p hp k hk => ?_) fun stop =>
      ⟨.closing (closingName n.chars) stop, rfl, ?_⟩
  · have hk' : Kind.of? p = some .tag := by
      obtain rfl | ⟨q, rfl, -⟩ := List.prefix_cons_iff.1 hp <;> rfl
    cases hk'.symm.trans hk
    exact cut_eq_none hr hp
  · rw [closingName_chars]
    show (if o.written = n.chars then _ else _) = _
    rw [if_pos hn]
    exact ha

theorem advances_comment (hg : g.Pending) {words : List Char} (h : ¬ ['-', '-'] <:+: words) :
    Advances g (Piece.comment words h).written g := by
  obtain ⟨q, hr, hq⟩ := foldlM_commentStep_comment h
  refine .markup .comment hg (fun s => rfl) (cut_append_cons hr hq)
    (fun p hp k hk => ?_) fun stop => ⟨.skipped, rfl, rfl⟩
  -- What follows `<` is taken for a tag as long as there is nothing, and for no
  -- markup at all behind `!` alone; from the first dash on it is a comment.
  obtain rfl | ⟨p, rfl, hp'⟩ := List.prefix_cons_iff.1 hp
  · cases hk
    rfl
  · obtain rfl | ⟨p, rfl, -⟩ := List.prefix_cons_iff.1 hp'
    · cases hk
    · cases hk
      exact cut_eq_none hr hp

/-! ## Elements -/

theorem advances_element {tag : StartTag} {content : List Piece} (hg : g.Pending)
    (hc : ∀ o stack root?, Advances ⟨o :: stack, root?⟩ (Piece.writtenAll content)
      ⟨o.adopt (Piece.elementsAll content) :: stack, root?⟩)
    (ha : g.attach (tag.element (Piece.elementsAll content)) = .ok g') :
    Advances g (Piece.element tag content).written g' := by
  rw [Piece.written]
  refine ((advances_opening tag hg).append (hc _ _ _)).append (advances_closing rfl ?_)
  rw [OpenElement.close, OpenElement.adopt, List.append_nil, List.reverse_reverse]
  exact ha

mutual

theorem advances_piece : ∀ (piece : Piece) (o : OpenElement) (stack : List OpenElement)
    (root? : Option Element), Advances ⟨o :: stack, root?⟩ piece.written
      ⟨o.adopt piece.elements :: stack, root?⟩
  | .element _ content, o, stack, root? =>
    advances_element (Growth.pending_of_open o stack root?) (advances_pieces content) rfl
  | .comment _ plain, o, stack, root? =>
    advances_comment (Growth.pending_of_open o stack root?) plain
  | .text _ plain, o, stack, root? =>
    .text (Growth.pending_of_open o stack root?) plain.1

theorem advances_pieces : ∀ (pieces : List Piece) (o : OpenElement) (stack : List OpenElement)
    (root? : Option Element), Advances ⟨o :: stack, root?⟩ (Piece.writtenAll pieces)
      ⟨o.adopt (Piece.elementsAll pieces) :: stack, root?⟩
  | [], _, _, _ => .nil _
  | piece :: pieces, o, stack, root? => by
    rw [Piece.writtenAll, Piece.elementsAll, ← OpenElement.adopt_adopt]
    exact (advances_piece piece o stack root?).append (advances_pieces pieces _ stack root?)

end

end Markup

/-! ## Documents -/

/-- A document that is written plainly is read as its tree, and none that ends
before it does is read. -/
theorem Element.parse_written (tag : StartTag) (content : List Piece) :
    Element.parse (String.ofList (Piece.element tag content).written) =
        .ok (tag.element (Piece.elementsAll content)) ∧
      ∀ p, p <+: (Piece.element tag content).written → p ≠ (Piece.element tag content).written →
        ∃ e, Element.parse (String.ofList p) = .error e := by
  have h : Advances .start (Piece.element tag content).written
      ⟨[], some (tag.element (Piece.elementsAll content))⟩ :=
    advances_element Growth.pending_start (advances_pieces content) rfl
  have hb : ∀ p, p <+: (Piece.element tag content).written → p.head? ≠ some '\uFEFF' := by
    intro p hp
    obtain rfl | ⟨q, rfl, -⟩ := List.prefix_cons_iff.1 hp <;> simp
  constructor
  · obtain ⟨offset, hr⟩ := h.reads 0 []
    rw [List.append_nil] at hr
    rw [Element.parse, String.toList_ofList, Growth.ofChars_eq_readFrom (hb _ List.prefix_rfl), hr,
      Growth.readFrom_nil]
    rfl
  · intro p hp hn
    rw [Element.parse, String.toList_ofList, Growth.ofChars_eq_readFrom (hb p hp)]
    exact h.refuses 0 p hp hn

def nodeTag : StartTag where
  name := ⟨'n', "ode".toList, by decide, rfl⟩
  attributes := [(⟨'l', "abel".toList, by decide, rfl⟩, "a < \"b\"")]
  distinct := by decide

def metadataTag : StartTag where
  name := ⟨'m', "etadata".toList, by decide, rfl⟩
  attributes := []
  distinct := by decide

/-- What is in an element, with a text and a comment. -/
def nodeContent : List Piece :=
  [.text "rows".toList (by decide), .comment " one - two ".toList (by simp; decide),
    .element metadataTag []]

theorem Element.parse_written_node :
    Element.parse
          "<node label=\"a &lt; &quot;b&quot;\">rows<!-- one - two --><metadata></metadata></node>" =
        .ok ⟨"node", [("label", "a < \"b\"")], [⟨"metadata", [], []⟩]⟩ ∧
      ∃ e, Element.parse "<node label=\"a &l" = .error e := by
  obtain ⟨h, hp⟩ := Element.parse_written nodeTag nodeContent
  have hw : (Piece.element nodeTag nodeContent).written =
      "<node label=\"a &lt; &quot;b&quot;\">rows<!-- one - two --><metadata></metadata></node>".toList :=
    rfl
  rw [hw] at h hp
  rw [String.ofList_toList] at h
  refine ⟨h, ?_⟩
  have hp := hp "<node label=\"a &l".toList
    ⟨"t; &quot;b&quot;\">rows<!-- one - two --><metadata></metadata></node>".toList, rfl⟩ (by simp)
  rwa [String.ofList_toList] at hp

end JobAtlas
