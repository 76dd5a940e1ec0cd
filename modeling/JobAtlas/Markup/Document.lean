import JobAtlas.Markup.Element
import JobAtlas.Markup.Token

/-!
# Documents

A document is read into the tree of its root element. Tags are taken in order
with the stack of the elements that are open; the first fault in document order
is the answer. That an end tag has to repeat the name of its start tag is a check of
the `quick-xml` library; that there is one root, and that it is closed, is one of
its reader here.
-/

namespace JobAtlas

open Markup

/-- An element whose end tag has not come yet. -/
structure OpenElement where
  /-- The name as written, which the end tag has to repeat. -/
  written : List Char
  name : String
  attributes : List (String × String)
  /-- The children so far, latest first. -/
  children : List Element

namespace OpenElement

/-- The element that a start tag opens. -/
def ofTag (content : List Char) : Except Markup.Error OpenElement :=
  let written := tagName content
  let name := localName written
  match tagAttributes content with
  | .ok attributes => .ok ⟨written, name, attributes, []⟩
  | .error (.badAttribute fault) => .error (.badAttribute name fault)
  | .error (.badValue key fault) => .error (.badValue key fault)

/-- The element as it stands. -/
def close (o : OpenElement) : Element := ⟨o.name, o.attributes, o.children.reverse⟩

end OpenElement

/-- A tree in the making: the open elements, innermost first, and the root if
it is closed. -/
structure Growth where
  stack : List OpenElement
  root? : Option Element

namespace Growth

def start : Growth := ⟨[], none⟩

/-- Put a closed element where it belongs. -/
def attach (e : Element) : Growth → Except Markup.Error Growth
  | ⟨o :: stack, root?⟩ => .ok ⟨{ o with children := e :: o.children } :: stack, root?⟩
  | ⟨[], none⟩ => .ok ⟨[], some e⟩
  | ⟨[], some _⟩ => .error (.secondRoot e.name)

/-- Take one token in. -/
def step (g : Growth) : Token → Except Markup.Error Growth
  | .skipped => .ok g
  | .opening content => do
    let o ← OpenElement.ofTag content
    return { g with stack := o :: g.stack }
  | .standalone content => do
    let o ← OpenElement.ofTag content
    g.attach o.close
  | .closing name stop =>
    match g.stack with
    | [] => .error (.markup stop (.unmatchedEnd (String.ofList name)))
    | o :: stack =>
      if o.written = name then { g with stack := stack }.attach o.close
      else
        .error (.markup stop (.mismatchedEnd (String.ofList o.written) (String.ofList name)))

/-- The tree, if nothing is open any more. -/
def finish : Growth → Except Markup.Error Element
  | ⟨o :: _, _⟩ => .error (.unclosedElement o.name)
  | ⟨[], none⟩ => .error .noRoot
  | ⟨[], some e⟩ => .ok e

end Growth

namespace Element

/-- Read a document from its characters. -/
def ofChars (s : List Char) : Except Markup.Error Element := do
  let (tokens, fault?) := tokens s
  let g ← tokens.foldlM Growth.step .start
  match fault? with
  | some (position, fault) => .error (.markup position fault)
  | none => g.finish

/-- Read a document. -/
def parse (document : String) : Except Markup.Error Element := ofChars document.toList

end Element

end JobAtlas
