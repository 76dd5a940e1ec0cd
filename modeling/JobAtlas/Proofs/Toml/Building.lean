import JobAtlas.Toml.Document

/-!
# Building tables

A header with a new key opens a table behind the others (`step_header`), and a field
with a new key goes behind the fields of that table (`step_field`). So the lines of
tables with distinct keys, each with distinct fields, build just these tables
(`foldlM_tables`), and as data they are records of the values (`fieldsData_tables`).
-/

namespace JobAtlas.Toml

/-! ## Changes of fields -/

section Alter

variable {α : Type} {key : String} {fields : List (String × α)} (h : key ∉ fields.map Prod.fst)
include h

/-- What comes before the key stays. -/
theorem alter_append (f : Option α → Option α) (rest : List (String × α)) :
    alter key f (fields ++ rest) = (alter key f rest).map (fields ++ ·) := by
  induction fields with
  | nil => exact Option.map_id'.symm
  | cons e fields ih =>
    rw [List.map_cons, List.mem_cons, not_or] at h
    rw [List.cons_append, alter, if_neg (Ne.symm h.1), ih h.2, Option.map_map]
    rfl

theorem alter_new (f : Option α → Option α) :
    alter key f fields = (f none).map fun a => fields ++ [(key, a)] := by
  have ha := alter_append h f []
  rwa [List.append_nil, alter, Option.map_map] at ha

theorem alter_last (f : Option α → Option α) (a : α) :
    alter key f (fields ++ [(key, a)]) = (f (some a)).map fun b => fields ++ [(key, b)] := by
  rw [alter_append h, alter, if_pos rfl, Option.map_map]
  rfl

end Alter

/-! ## Lines -/

/-- A table with values only, as a header opens it. -/
def plainTable (fields : List (String × Data)) : Node :=
  .table .header (fields.map fun f => (f.1, .leaf f.2))

/-- The lines of a table with a plain header. -/
def tableLines (part : String × List (String × Data)) : List Line :=
  .header ⟨[], part.1⟩ :: part.2.map fun f => .field ⟨[], f.1⟩ f.2

section Step

variable {root : Fields} {name : String} (hn : name ∉ root.map Prod.fst)
include hn

theorem step_header (h? : Option Key) :
    State.step ⟨root, h?⟩ (.header ⟨[], name⟩) =
      some ⟨root ++ [(name, plainTable [])], some ⟨[], name⟩⟩ := by
  simp only [State.step, place, alter_new hn, openTable]
  rfl

theorem step_field {fields : List (String × Data)} {key : String} {value : Data}
    (hk : key ∉ fields.map Prod.fst) :
    State.step ⟨root ++ [(name, plainTable fields)], some ⟨[], name⟩⟩ (.field ⟨[], key⟩ value) =
      some ⟨root ++ [(name, plainTable (fields ++ [(key, value)]))], some ⟨[], name⟩⟩ := by
  have hk' : key ∉ (fields.map fun f => (f.1, Node.leaf f.2)).map Prod.fst := by
    rwa [List.map_map]
  have ha : assignIn value key [] (some (plainTable fields)) =
      some (plainTable (fields ++ [(key, value)])) := by
    simp only [assignIn, plainTable, assign, alter_new hk', Option.map_some, List.map_append]
    rfl
  simp only [State.step, place, alter_last hn, ha]
  rfl

/-- The fields of a table, all of them new, go behind those that it has. -/
theorem foldlM_fields (done : List (String × Data)) {fields : List (String × Data)}
    (hf : ((done ++ fields).map Prod.fst).Nodup) :
    (fields.map fun f => Line.field ⟨[], f.1⟩ f.2).foldlM State.step
        ⟨root ++ [(name, plainTable done)], some ⟨[], name⟩⟩ =
      some ⟨root ++ [(name, plainTable (done ++ fields))], some ⟨[], name⟩⟩ := by
  induction fields generalizing done with
  | nil => rw [List.append_nil]; rfl
  | cons f fields ih =>
    have hk : f.1 ∉ done.map Prod.fst := by
      rw [List.map_append, List.map_cons] at hf
      exact fun hm => (List.nodup_append.1 hf).2.2 _ hm _ List.mem_cons_self rfl
    rw [List.append_cons done f fields] at hf ⊢
    rw [List.map_cons, List.foldlM_cons, step_field hn hk, Option.bind_eq_bind, Option.bind_some,
      ih _ hf]

theorem foldlM_tableLines {fields : List (String × Data)} (hf : (fields.map Prod.fst).Nodup)
    (h? : Option Key) :
    (tableLines (name, fields)).foldlM State.step ⟨root, h?⟩ =
      some ⟨root ++ [(name, plainTable fields)], some ⟨[], name⟩⟩ := by
  rw [tableLines, List.foldlM_cons, step_header hn, Option.bind_eq_bind, Option.bind_some]
  exact foldlM_fields hn [] hf

end Step

/-! ## Documents -/

/-- Blank lines between others build nothing. -/
theorem foldlM_intercalate_blank (ls : List (List Line)) (t : State) :
    (List.intercalate [.blank] ls).foldlM State.step t = ls.flatten.foldlM State.step t := by
  induction ls generalizing t with
  | nil => rfl
  | cons l ls ih =>
    cases ls with
    | nil => rw [List.intercalate_singleton, List.flatten_cons, List.flatten_nil, List.append_nil]
    | cons m ls =>
      rw [List.intercalate_cons_cons, List.append_assoc, List.flatten_cons, List.foldlM_append,
        List.foldlM_append]
      exact bind_congr fun t => ih t

theorem foldlM_tables (root : Fields) {parts : List (String × List (String × Data))}
    (hp : (root.map Prod.fst ++ parts.map Prod.fst).Nodup)
    (hf : ∀ p ∈ parts, (p.2.map Prod.fst).Nodup) (h? : Option Key) :
    ∃ h', (parts.map tableLines).flatten.foldlM State.step ⟨root, h?⟩ =
      some ⟨root ++ parts.map fun p => (p.1, plainTable p.2), h'⟩ := by
  induction parts generalizing root h? with
  | nil =>
    refine ⟨h?, ?_⟩
    simp only [List.map_nil, List.append_nil]
    rfl
  | cons p parts ih =>
    have hn : p.1 ∉ root.map Prod.fst := fun hm =>
      (List.nodup_append.1 hp).2.2 _ hm _ List.mem_cons_self rfl
    have hp' : ((root ++ [(p.1, plainTable p.2)]).map Prod.fst ++ parts.map Prod.fst).Nodup := by
      rwa [List.map_append, List.append_assoc]
    obtain ⟨h', ih⟩ := ih _ hp' (fun q hq => hf q (List.mem_cons_of_mem _ hq)) (some ⟨[], p.1⟩)
    refine ⟨h', ?_⟩
    rw [List.map_cons, List.flatten_cons, List.foldlM_append,
      foldlM_tableLines hn (hf p List.mem_cons_self), Option.bind_eq_bind, Option.bind_some, ih,
      List.append_assoc]
    rfl

theorem fieldsData_map (fields : List (String × Node)) :
    fieldsData fields = fields.map fun f => (f.1, f.2.toData) := by
  induction fields with
  | nil => rw [fieldsData]; rfl
  | cons f fields ih => rw [fieldsData, ih]; rfl

theorem toData_plainTable (fields : List (String × Data)) :
    (plainTable fields).toData = .record fields := by
  have hf : (fun f : String × Data => (f.1, (Node.leaf f.2).toData)) = id := by
    funext f
    rw [Node.toData]
    rfl
  rw [plainTable, Node.toData, fieldsData_map, List.map_map]
  exact congrArg Data.record ((congrArg (fields.map ·) hf).trans (List.map_id fields))

/-- The lines of tables with distinct names and fields give records of the fields. -/
theorem fieldsData_tables {parts : List (String × List (String × Data))}
    (hp : (parts.map Prod.fst).Nodup) (hf : ∀ p ∈ parts, (p.2.map Prod.fst).Nodup) :
    ((List.intercalate [.blank] (parts.map tableLines)).foldlM State.step {}).map
        (fun t => fieldsData t.root) =
      some (parts.map fun p => (p.1, .record p.2)) := by
  obtain ⟨h', hl⟩ := foldlM_tables [] hp hf none
  have hd : (fun p : String × List (String × Data) => (p.1, (plainTable p.2).toData)) =
      fun p => (p.1, .record p.2) := funext fun p => by rw [toData_plainTable]
  rw [foldlM_intercalate_blank, hl, Option.map_some, List.nil_append, fieldsData_map, List.map_map]
  exact congrArg (fun f => some (parts.map f)) hd

end JobAtlas.Toml
