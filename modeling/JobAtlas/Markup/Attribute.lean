import JobAtlas.Markup.Reference

/-!
# Tags

The content of a tag is a name, up to the first space, and attributes: keys, each
once, with quoted values. What is a fault, and where it is found, is as with the
checked attributes of version 0.36 of the `quick-xml` library.
-/

namespace JobAtlas.Markup

open Text (byteLength)

/-- The characters that separate the parts of a tag. -/
def isTagSpace (c : Char) : Bool := c == ' ' || c == '\t' || c == '\r' || c == '\n'

/-- Why a tag is not read. -/
inductive TagFault where
  | badAttribute (fault : AttributeFault)
  | badValue (key : String) (fault : ReferenceFault)
deriving DecidableEq, Repr

private theorem length_dropWhile_le (p : Char → Bool) (s : List Char) :
    (s.dropWhile p).length ≤ s.length := (List.dropWhile_sublist p).length_le

/-- Read the attributes of a tag of `size` bytes from the rest of its content.
`seen` holds the keys so far and where they stand. -/
def readAttributes (size : Nat) (seen : List (List Char × Nat)) (s : List Char) :
    Except TagFault (List (String × String)) :=
  match _h₀ : s.dropWhile isTagSpace with
  | [] => .ok []
  | c :: r =>
    let start := size - byteLength (c :: r)
    let key := c :: r.takeWhile fun d => d ≠ '=' && !isTagSpace d
    match _h₁ : (r.dropWhile fun d => d ≠ '=' && !isTagSpace d).dropWhile isTagSpace with
    | '=' :: afterEquals =>
      match seen.lookup key with
      | some previous => .error (.badAttribute (.duplicate start previous))
      | none =>
        match _h₂ : afterEquals.dropWhile isTagSpace with
        | [] => .error (.badAttribute (.valueExpected size))
        | q :: quoted =>
          if q = '"' ∨ q = '\'' then
            match _h₃ : quoted.dropWhile (· ≠ q) with
            | [] => .error (.badAttribute (.unclosedQuote size q))
            | _ :: rest => do
              let name := String.ofList key
              let value ← (resolve (quoted.takeWhile (· ≠ q))).mapError (.badValue name)
              return (name, String.ofList value) :: (← readAttributes size ((key, start) :: seen) rest)
          else .error (.badAttribute (.quoteExpected (size - byteLength (q :: quoted))))
    | rest => .error (.badAttribute (.equalsExpected (size - byteLength rest)))
termination_by s.length
decreasing_by
  have h₀ := length_dropWhile_le isTagSpace s
  have h₁ := length_dropWhile_le isTagSpace (r.dropWhile fun d => d ≠ '=' && !isTagSpace d)
  have h₁' := length_dropWhile_le (fun d => d ≠ '=' && !isTagSpace d) r
  have h₂ := length_dropWhile_le isTagSpace afterEquals
  have h₃ := length_dropWhile_le (fun d => decide (d ≠ q)) quoted
  rw [_h₀] at h₀
  rw [_h₁] at h₁
  rw [_h₂] at h₂
  rw [_h₃] at h₃
  simp only [List.length_cons] at *
  omega

/-- The name that begins the content of a tag. -/
def tagName (content : List Char) : List Char := content.takeWhile (!isTagSpace ·)

/-- What follows the first colon of a name; a name without one stands for itself. -/
def localName (name : List Char) : String :=
  String.ofList <| match name.dropWhile (· ≠ ':') with
    | _ :: rest => rest
    | [] => name

/-- The attributes of a tag with this content. -/
def tagAttributes (content : List Char) : Except TagFault (List (String × String)) :=
  readAttributes (byteLength content) [] (content.dropWhile (!isTagSpace ·))

end JobAtlas.Markup
