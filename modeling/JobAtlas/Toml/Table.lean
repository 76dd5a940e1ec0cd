import JobAtlas.Data.Basic

/-!
# Tables

How keys and headers build a tree of tables. A table is opened by a header, by
the way to a header, or by a dotted key, and this decides what may still be
added to it: a header opens a table once, and a dotted key goes only through
tables that no header has opened. Where TOML 1.0 leaves room, as with what a dotted
key may add to a table on the way to a header, version 0.8 of the `toml` library is
followed.
-/

namespace JobAtlas.Toml

/-- How a table came to be. -/
inductive Origin where
  | header
  /-- It stands on the way to a header. -/
  | way
  /-- By a dotted key. -/
  | dotted
deriving DecidableEq, Repr

/-- A value, a table, or a list of tables that is written table by table. -/
inductive Node where
  | leaf (value : Data)
  | table (origin : Origin) (fields : List (String × Node))
  | rows (tables : List (List (String × Node)))

/-- The contents of a table. -/
abbrev Fields := List (String × Node)

/-- Change what a key has, or add the key; `f` may refuse. -/
def alter {α : Type} (key : String) (f : Option α → Option α) :
    List (String × α) → Option (List (String × α))
  | [] => (f none).map fun a => [(key, a)]
  | (k, a) :: fields =>
    if k = key then (f (some a)).map fun b => (key, b) :: fields
    else (alter key f fields).map ((k, a) :: ·)

/-- Change the last item; there has to be one. -/
def alterLast {α : Type} (f : α → Option α) : List α → Option (List α)
  | [] => none
  | [a] => (f a).map ([·])
  | a :: as => (alterLast f as).map (a :: ·)

/-- Change what is at the end of a header's way. Tables that are missing on the
way are opened, and of a list of tables the last one is meant. -/
def place (f : Option Node → Option Node) (last : String) : List String → Fields → Option Fields
  | [], fields => alter last f fields
  | key :: keys, fields =>
    alter key (fun
      | none => (place f last keys []).map (.table .way)
      | some (.leaf _) => none
      | some (.table origin inner) => (place f last keys inner).map (.table origin)
      | some (.rows tables) => (alterLast (place f last keys) tables).map .rows) fields

/-- Open the table of a header. -/
def openTable : Option Node → Option Node
  | none => some (.table .header [])
  | some (.table .way fields) => some (.table .header fields)
  | some _ => none

/-- Add a table to a list of tables. -/
def addRow : Option Node → Option Node
  | none => some (.rows [[]])
  | some (.rows tables) => some (.rows (tables ++ [[]]))
  | some _ => none

/-- Add a value under a dotted key. The table that it comes to stand in has to
be one that dotted keys made. -/
def assign (value : Data) (last : String) : List String → Fields → Option Fields
  | [], fields =>
    alter last (fun
      | none => some (.leaf value)
      | some _ => none) fields
  | key :: keys, fields =>
    alter key (fun
      | none => (assign value last keys []).map (.table .dotted)
      | some (.leaf _) => none
      | some (.table .header _) => none
      | some (.table origin inner) =>
        if keys = [] ∧ origin ≠ .dotted then none
        else (assign value last keys inner).map (.table origin)
      | some (.rows tables) =>
        if keys = [] then none
        else (alterLast (assign value last keys) tables).map .rows) fields

/-- Add a value to the table that a header has opened. -/
def assignIn (value : Data) (last : String) (keys : List String) : Option Node → Option Node
  | some (.table .header fields) => (assign value last keys fields).map (.table .header)
  | some (.rows tables) => (alterLast (assign value last keys) tables).map .rows
  | _ => none

mutual

/-- A tree of tables as data. -/
def Node.toData : Node → Data
  | .leaf value => value
  | .table _ fields => .record (fieldsData fields)
  | .rows tables => .list (rowsData tables)

/-- The contents of a table as data. -/
def fieldsData : List (String × Node) → List (String × Data)
  | [] => []
  | (key, node) :: fields => (key, node.toData) :: fieldsData fields

/-- A list of tables as data. -/
def rowsData : List (List (String × Node)) → List Data
  | [] => []
  | table :: tables => .record (fieldsData table) :: rowsData tables

end

end JobAtlas.Toml
