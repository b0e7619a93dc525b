import Mathlib.Data.List.Basic

/-!
Two lists put together by a scheduler, each in its own order.
-/

namespace DappyCore.Lib

variable {α : Type}

/-- `l` is `a` and `b` put together; the last element is the last of one of them. -/
inductive Interleave : List α → List α → List α → Prop
  | nil : Interleave [] [] []
  | left {a b l : List α} (x : α) (h : Interleave a b l) : Interleave (a ++ [x]) b (l ++ [x])
  | right {a b l : List α} (x : α) (h : Interleave a b l) : Interleave a (b ++ [x]) (l ++ [x])

namespace Interleave

variable {a b l : List α}

lemma mem (h : Interleave a b l) (x : α) : x ∈ l ↔ x ∈ a ∨ x ∈ b := by
  induction h with
  | nil => simp
  | left y h ih =>
    rw [List.mem_append, List.mem_append, ih]
    tauto
  | right y h ih =>
    rw [List.mem_append, List.mem_append, ih]
    tauto

end Interleave

end DappyCore.Lib
