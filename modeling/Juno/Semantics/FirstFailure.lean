import Mathlib.Data.List.TakeWhile

/-! Walks that stop at the first failure.

A loop that visits a list and stops at, or is poisoned by, the first element
whose action fails reaches the elements up to and including that one. Such a
walk reaches every element exactly when at most one element comes at or after
the first failure.
-/

set_option autoImplicit false

namespace FirstFailure

variable {α : Type} (ok : α → Bool)

def throughFirstFailure (xs : List α) : List α := xs.takeWhile ok ++ (xs.dropWhile ok).take 1

@[simp] theorem throughFirstFailure_nil : throughFirstFailure ok [] = [] := rfl

theorem throughFirstFailure_cons_pass {x : α} (xs : List α) (pass : ok x = true) :
    throughFirstFailure ok (x :: xs) = x :: throughFirstFailure ok xs := by
  simp [throughFirstFailure, pass]

theorem throughFirstFailure_cons_fail {x : α} (xs : List α) (fail : ok x = false) :
    throughFirstFailure ok (x :: xs) = [x] := by
  simp [throughFirstFailure, fail]

theorem length_throughFirstFailure (xs : List α) :
    (throughFirstFailure ok xs).length = xs.length ↔ (xs.dropWhile ok).length ≤ 1 := by
  have whole : xs.length = (xs.takeWhile ok).length + (xs.dropWhile ok).length := by
    rw [← List.length_append, List.takeWhile_append_dropWhile]
  rw [throughFirstFailure, List.length_append, List.length_take, whole]
  omega

theorem throughFirstFailure_eq_self_iff (xs : List α) :
    throughFirstFailure ok xs = xs ↔ (xs.dropWhile ok).length ≤ 1 := by
  constructor
  · intro same
    exact (length_throughFirstFailure ok xs).mp (congrArg List.length same)
  · intro short
    rw [throughFirstFailure, List.take_of_length_le short, List.takeWhile_append_dropWhile]

theorem fail_of_mem_dropWhile {xs : List α} {x : α} (short : (xs.dropWhile ok).length ≤ 1)
    (mem : x ∈ xs.dropWhile ok) : ok x = false := by
  have first := List.head_dropWhile_not ok (List.ne_nil_of_mem mem)
  cases rest : xs.dropWhile ok with
  | nil => simp [rest] at mem
  | cons y others =>
    -- a list of length at most one holds only its head
    have none : others = [] := by simpa [rest] using short
    simp only [rest, none, List.mem_singleton] at mem first
    simpa [mem] using first

theorem pass_of_not_mem_dropWhile {xs : List α} {x : α} (mem : x ∈ xs) (outside : x ∉ xs.dropWhile ok) :
    ok x = true := by
  rw [← List.takeWhile_append_dropWhile (p := ok) (l := xs), List.mem_append] at mem
  exact List.mem_takeWhile_imp (mem.resolve_right outside)

end FirstFailure
