import JobAtlas.Markup.Attribute

/-!
# Tokens of markup

A document is a row of tags, with text and other markup between them that
carries no information here. `tokens` cuts a document into tokens, up to its
end or to the first markup that is not closed or not known.

Markup of each kind ends at the first `>` at which an automaton stops: outside
quotes for a tag, after `?`, `--` or `]]` for an instruction, a comment or a
CDATA section, and with inner brackets balanced for a document type. These are the
events of version 0.36 of the `quick-xml` library, which checks no more than this:
text may stand anywhere, and names may have any characters but spaces.
-/

namespace JobAtlas.Markup

open Text (byteLength)

/-- Cut a text at the first character at which the automaton `step` stops, and
drop that character. -/
def cut {σ : Type} (step : σ → Char → Option σ) (q : σ) : List Char → Option (List Char × List Char)
  | [] => none
  | c :: s =>
    match step q c with
    | none => some ([], s)
    | some q' => (cut step q' s).map fun p => (c :: p.1, p.2)

theorem length_of_cut {σ : Type} {step : σ → Char → Option σ} {q : σ} {s a r : List Char}
    (h : cut step q s = some (a, r)) : s.length = a.length + r.length + 1 := by
  induction s generalizing q a with
  | nil => simp [cut] at h
  | cons c s ih =>
    simp only [cut] at h
    split at h
    · cases h; simp
    · obtain ⟨⟨a', r'⟩, hc, he⟩ := Option.map_eq_some_iff.1 h
      cases he
      have := ih hc
      simp only [List.length_cons] at this ⊢
      omega

/-- In a tag, the quote that is open. -/
def tagStep : Option Char → Char → Option (Option Char)
  | none, c =>
    if c = '>' then none else some (if c = '"' ∨ c = '\'' then some c else none)
  | some q, c => some (if c = q then none else some q)

/-- In an instruction, whether the last character is a question mark. -/
def instructionStep (question : Bool) (c : Char) : Option Bool :=
  if c = '>' ∧ question then none else some (c == '?')

/-- In a comment, the number of characters so far and of dashes at their end;
the two dashes that open it do not close it. -/
def commentStep (q : Nat × Nat) (c : Char) : Option (Nat × Nat) :=
  if c = '>' ∧ 5 ≤ q.1 ∧ 2 ≤ q.2 then none else some (q.1 + 1, if c = '-' then q.2 + 1 else 0)

/-- In a CDATA section, the number of closing brackets at the end so far. -/
def cdataStep (brackets : Nat) (c : Char) : Option Nat :=
  if c = '>' ∧ 2 ≤ brackets then none else some (if c = ']' then brackets + 1 else 0)

/-- In a document type, the number of open inner brackets. -/
def doctypeStep : Nat → Char → Option Nat
  | 0, c => if c = '>' then none else some (if c = '<' then 1 else 0)
  | n + 1, c => some (if c = '>' then n else if c = '<' then n + 2 else n + 1)

/-- The kinds of markup. -/
inductive Kind where
  | tag
  | instruction
  | comment
  | cdata
  | doctype
deriving DecidableEq, Repr

namespace Kind

/-- The kind of markup by what follows its `<`. -/
def of? : List Char → Option Kind
  | '!' :: c :: _ =>
    if c = '[' then some cdata
    else if c = '-' then some comment
    else if c = 'D' ∨ c = 'd' then some doctype
    else none
  | ['!'] => none
  | '?' :: _ => some instruction
  | _ => some tag

/-- The content up to the closing `>`, and what follows it. -/
def cut? : Kind → List Char → Option (List Char × List Char)
  | tag => cut tagStep none
  | instruction => cut instructionStep false
  | comment => cut commentStep (0, 0)
  | cdata => cut cdataStep 0
  | doctype => cut doctypeStep 0

theorem length_of_cut? {k : Kind} {s a r : List Char} (h : k.cut? s = some (a, r)) :
    s.length = a.length + r.length + 1 := by
  cases k <;> exact length_of_cut h

/-- The fault of markup of this kind that does not end. -/
def unclosed : Kind → Fault
  | tag => .unclosedTag
  | instruction => .unclosedInstruction
  | comment => .unclosedComment
  | cdata => .unclosedCData
  | doctype => .unclosedDoctype

end Kind

/-- A tag, or markup that is passed over. -/
inductive Token where
  /-- A start tag. -/
  | opening (content : List Char)
  /-- A tag that is an element by itself, without its final slash. -/
  | standalone (content : List Char)
  /-- An end tag, and the position after it. -/
  | closing (name : List Char) (stop : Nat)
  | skipped
deriving DecidableEq, Repr

/-- Drop the spaces at the end of a name, unless there is nothing else. -/
def closingName (s : List Char) : List Char :=
  match s.reverse.dropWhile isTagSpace with
  | [] => s
  | r => r.reverse

/-- The token of markup with this content that ends at `stop`, if the content
begins as markup of its kind has to. -/
def Kind.token (content : List Char) (stop : Nat) : Kind → Except Fault Token
  | .tag =>
    match content with
    | '/' :: name => .ok (.closing (closingName name) stop)
    | _ =>
      match content.getLast? with
      | some '/' => .ok (.standalone content.dropLast)
      | _ => .ok (.opening content)
  | .instruction => if content.length < 2 then .error .unclosedInstruction else .ok .skipped
  | .comment => if "!--".toList.isPrefixOf content then .ok .skipped else .error .unclosedComment
  | .cdata => if "![CDATA[".toList.isPrefixOf content then .ok .skipped else .error .unclosedCData
  | .doctype =>
    if (content.take 8).map Char.toUpper ≠ "!DOCTYPE".toList then .error .unclosedDoctype
    else if (content.drop 8).all isTagSpace then .error .namelessDoctype
    else .ok .skipped

/-- The tokens of a document from byte `offset` on, and the fault that ends
them early, with its position. -/
def tokensFrom (offset : Nat) : List Char → List Token × Option (Nat × Fault)
  | [] => ([], none)
  | c :: s =>
    if c ≠ '<' then tokensFrom (offset + c.utf8Size) s
    else
      match Kind.of? s with
      | none => ([], some (offset + 1, .unknownMarkup))
      | some kind =>
        match _h : kind.cut? s with
        | none => ([], some (offset + 1 + byteLength s, kind.unclosed))
        | some (content, rest) =>
          let stop := offset + byteLength content + 2
          match kind.token content stop with
          | .error fault => ([], some (stop, fault))
          | .ok token =>
            let (tokens, fault) := tokensFrom stop rest
            (token :: tokens, fault)
termination_by s => s.length
decreasing_by
  · simp
  · have := Kind.length_of_cut? _h
    simp only [List.length_cons]
    omega

/-- The tokens of a document; a byte order mark in front does not count. -/
def tokens (s : List Char) : List Token × Option (Nat × Fault) :=
  match s with
  | '\uFEFF' :: s => tokensFrom 0 s
  | s => tokensFrom 0 s

end JobAtlas.Markup
