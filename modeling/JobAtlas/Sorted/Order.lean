/-!
# Strict total orders

`StrictTotal κ` says that `<` on `κ` is irreflexive, transitive and
trichotomous. Keys of sorted maps and sets satisfy it, so a sorted list of keys
is determined by its members.
-/

namespace JobAtlas

/-- The order `<` on `κ` is strict and total. -/
class StrictTotal (κ : Type u) [LT κ] : Prop where
  irrefl (a : κ) : ¬ a < a
  trans {a b c : κ} : a < b → b < c → a < c
  trichotomy (a b : κ) : a < b ∨ a = b ∨ b < a

namespace StrictTotal

variable {κ : Type u} [LT κ] [StrictTotal κ]

theorem asymm {a b : κ} (h : a < b) : ¬ b < a := fun h' => irrefl a (trans h h')

theorem ne_of_lt {a b : κ} (h : a < b) : a ≠ b := fun e => irrefl b (e ▸ h)

/-- Two keys, neither of them below the other, are equal. -/
theorem eq_of_not_lt {a b : κ} (h : ¬ a < b) (h' : ¬ b < a) : a = b := by
  rcases trichotomy a b with hab | hab | hab
  · exact absurd hab h
  · exact hab
  · exact absurd hab h'

/-- Two strictly increasing lists with the same members are equal. -/
theorem pairwise_ext {xs ys : List κ} (hx : xs.Pairwise (· < ·)) (hy : ys.Pairwise (· < ·))
    (h : ∀ k, k ∈ xs ↔ k ∈ ys) : xs = ys := by
  induction xs generalizing ys with
  | nil =>
    cases ys with
    | nil => rfl
    | cons y ys => exact absurd ((h y).2 (List.mem_cons_self ..)) List.not_mem_nil
  | cons x xs ih =>
    cases ys with
    | nil => exact absurd ((h x).1 (List.mem_cons_self ..)) List.not_mem_nil
    | cons y ys =>
      rw [List.pairwise_cons] at hx hy
      have hxy : x = y := by
        rcases List.mem_cons.1 ((h x).1 (List.mem_cons_self ..)) with e | hm
        · exact e
        · rcases List.mem_cons.1 ((h y).2 (List.mem_cons_self ..)) with e | hm'
          · exact e.symm
          · exact absurd (hy.1 x hm) (asymm (hx.1 y hm'))
      subst hxy
      congr 1
      refine ih hx.2 hy.2 fun k => ⟨fun hk => ?_, fun hk => ?_⟩
      · rcases List.mem_cons.1 ((h k).1 (List.mem_cons_of_mem _ hk)) with e | hm
        · exact absurd (hx.1 k hk) (e ▸ irrefl k)
        · exact hm
      · rcases List.mem_cons.1 ((h k).2 (List.mem_cons_of_mem _ hk)) with e | hm
        · exact absurd (hy.1 k hk) (e ▸ irrefl k)
        · exact hm

end StrictTotal

/-- Texts are ordered by code point, which is the order of their UTF-8 bytes. -/
instance : StrictTotal String where
  irrefl := String.lt_irrefl
  trans := String.lt_trans
  trichotomy a b := by
    by_cases h : a < b
    · exact .inl h
    · by_cases h' : b < a
      · exact .inr (.inr h')
      · exact .inr (.inl (Std.Trichotomous.trichotomous a b h h'))

instance : StrictTotal UInt8 where
  irrefl := UInt8.lt_irrefl
  trans := UInt8.lt_trans
  trichotomy a b := by
    rw [UInt8.lt_iff_toNat_lt, UInt8.lt_iff_toNat_lt, ← UInt8.toNat_inj]
    exact Nat.lt_trichotomy a.toNat b.toNat

/-- Lists are ordered by their first difference, a list before its extensions. -/
instance {κ : Type u} [LT κ] [StrictTotal κ] : StrictTotal (List κ) where
  irrefl a := by
    have : Std.Irrefl (α := κ) (· < ·) := ⟨StrictTotal.irrefl⟩
    exact List.lt_irrefl a
  trans h h' := by
    have : Trans (α := κ) (· < ·) (· < ·) (· < ·) := ⟨StrictTotal.trans⟩
    exact List.lt_trans h h'
  trichotomy a b := by
    induction a generalizing b with
    | nil => cases b <;> simp
    | cons x a ih =>
      cases b with
      | nil => simp
      | cons y b =>
        rcases StrictTotal.trichotomy x y with h | h | h
        · exact .inl (List.Lex.rel h)
        · subst h
          rcases ih b with h | h | h
          · exact .inl (List.Lex.cons h)
          · exact .inr (.inl (by rw [h]))
          · exact .inr (.inr (List.Lex.cons h))
        · exact .inr (.inr (List.Lex.rel h))

end JobAtlas
