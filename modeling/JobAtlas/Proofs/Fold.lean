/-!
# Folds by what they have made so far

A fold over a list goes on from what it has made of the beginning. When it is known
what there is to be of each beginning, only a step has to be looked at, which makes of
one beginning what there is to be of the next (`foldl_upTo`).
-/

namespace JobAtlas

variable {α : Type u} {β : Type v} {step : β → α → β} {upTo : List α → β}

theorem foldl_upTo (h : ∀ as a, step (upTo as) a = upTo (as ++ [a])) (before as : List α) :
    as.foldl step (upTo before) = upTo (before ++ as) := by
  induction as generalizing before with
  | nil => rw [List.foldl_nil, List.append_nil]
  | cons a as ih => rw [List.foldl_cons, h, ih, List.append_assoc, List.singleton_append]

end JobAtlas
