import Juno.Sdk.Coins

/-! x/globalfee parameters.

The minimum gas prices and the module's own `DecCoins.Validate`, a loop that
tracks the previous denomination and the denominations seen so far. Its
acceptance is characterised declaratively: valid denominations, nonnegative
amounts, strictly increasing denominations.
-/

set_option autoImplicit false

namespace Juno.GlobalFee

open Sdk

structure Params where
  minimumGasPrices : DecCoins

def defaultParams : Params := ⟨[]⟩

/-- The loop of `DecCoins.Validate` from the coin at index `i` on, with the last
denomination and the set of denominations seen before it. -/
def validateFrom (i : Nat) (lowDenom : String) (seenDenoms : List String) :
    DecCoins → Except String Unit
  | [] => .ok ()
  | coin :: rest =>
    if coin.denom ∈ seenDenoms then .error ("duplicate denomination " ++ coin.denom)
    else if !validateDenom coin.denom then .error ("invalid denom: " ++ coin.denom)
    -- skip the denom order check for the first denom in the coins list
    else if i ≠ 0 ∧ coin.denom ≤ lowDenom then .error ("denomination " ++ coin.denom ++ " is not sorted")
    else if coin.amount.raw < 0 then .error "coin amount is negative"
    else validateFrom (i + 1) coin.denom (coin.denom :: seenDenoms) rest

def DecCoins.validate (coins : DecCoins) : Except String Unit :=
  if coins.length = 0 then .ok () else validateFrom 0 "" [] coins

def validateMinimumGasPrices (v : DecCoins) : Except String Unit := DecCoins.validate v

def Params.validate (p : Params) : Except String Unit := validateMinimumGasPrices p.minimumGasPrices

/-- Prices the fee checks can use: strictly increasing valid denominations, no
negative amount. -/
structure WellFormed (coins : DecCoins) : Prop where
  sorted : coins.Pairwise (fun a b => a.denom < b.denom)
  denoms : ∀ c ∈ coins, validateDenom c.denom = true
  nonneg : ∀ c ∈ coins, 0 ≤ c.amount.raw

theorem wellFormed_cons_iff (coin : DecCoin) (rest : DecCoins) :
    WellFormed (coin :: rest) ↔ (∀ c ∈ rest, coin.denom < c.denom) ∧
      validateDenom coin.denom = true ∧ 0 ≤ coin.amount.raw ∧ WellFormed rest := by
  constructor
  · rintro ⟨sorted, denoms, nonneg⟩
    rw [List.pairwise_cons] at sorted
    exact ⟨sorted.1, denoms coin List.mem_cons_self, nonneg coin List.mem_cons_self,
      ⟨sorted.2, fun c hc => denoms c (List.mem_cons_of_mem _ hc),
        fun c hc => nonneg c (List.mem_cons_of_mem _ hc)⟩⟩
  · rintro ⟨above, denom, amount, ⟨sorted, denoms, nonneg⟩⟩
    refine ⟨List.Pairwise.cons above sorted, ?_, ?_⟩
    · intro c hc
      rcases List.mem_cons.mp hc with rfl | later
      · exact denom
      · exact denoms c later
    · intro c hc
      rcases List.mem_cons.mp hc with rfl | later
      · exact amount
      · exact nonneg c later

theorem validateFrom_ok_iff (i : Nat) (lowDenom : String) (seenDenoms : List String)
    (seen : ∀ d ∈ seenDenoms, d ≤ lowDenom) (coins : DecCoins) :
    validateFrom (i + 1) lowDenom seenDenoms coins = .ok () ↔
      WellFormed coins ∧ ∀ c ∈ coins, lowDenom < c.denom := by
  induction coins generalizing i lowDenom seenDenoms with
  | nil => simp [validateFrom, WellFormed.mk]
  | cons coin rest ih =>
    rw [wellFormed_cons_iff]
    by_cases order : coin.denom ≤ lowDenom
    · -- Out of order, or a repeat of a denomination already seen: rejected either way.
      have fails : validateFrom (i + 1) lowDenom seenDenoms (coin :: rest) ≠ .ok () := by
        simp only [validateFrom]
        split_ifs with dup bad unsorted negative
        · nofun
        · nofun
        · nofun
        · nofun
        · exact absurd ⟨Nat.add_one_ne_zero i, order⟩ unsorted
      constructor
      · intro h
        exact absurd h fails
      · rintro ⟨-, all⟩
        exact absurd (all coin List.mem_cons_self) (not_lt.mpr order)
    · have fresh : coin.denom ∉ seenDenoms := fun mem => order (seen _ mem)
      have gt : lowDenom < coin.denom := lt_of_not_ge order
      have seen' : ∀ d ∈ coin.denom :: seenDenoms, d ≤ coin.denom := by
        intro d hd
        rcases List.mem_cons.mp hd with rfl | old
        · exact le_refl _
        · exact le_of_lt (lt_of_le_of_lt (seen d old) gt)
      have sorted : ¬ (i + 1 ≠ 0 ∧ coin.denom ≤ lowDenom) := fun h => order h.2
      simp only [validateFrom]
      rw [if_neg fresh]
      by_cases denom : validateDenom coin.denom = true
      · rw [if_neg (by simp [denom]), if_neg sorted]
        by_cases amount : coin.amount.raw < 0
        · rw [if_pos amount]
          constructor
          · nofun
          · rintro ⟨⟨-, -, nonneg, -⟩, -⟩
            omega
        · rw [if_neg amount, ih (i + 1) coin.denom (coin.denom :: seenDenoms) seen']
          constructor
          · rintro ⟨wf, above⟩
            refine ⟨⟨above, denom, not_lt.mp amount, wf⟩, ?_⟩
            intro c hc
            rcases List.mem_cons.mp hc with rfl | later
            · exact gt
            · exact lt_trans gt (above c later)
          · rintro ⟨⟨above, -, -, wf⟩, -⟩
            exact ⟨wf, above⟩
      · rw [if_pos (by simp [denom])]
        constructor
        · nofun
        · rintro ⟨⟨-, valid, -⟩, -⟩
          exact absurd valid denom

/-- `DecCoins.Validate` accepts exactly the well-formed prices. -/
theorem validate_ok_iff (coins : DecCoins) : DecCoins.validate coins = .ok () ↔ WellFormed coins := by
  unfold DecCoins.validate
  cases coins with
  | nil => simp [WellFormed.mk]
  | cons coin rest =>
    -- The first coin skips the order check and meets no denomination seen before.
    have seen : ∀ d ∈ [coin.denom], d ≤ coin.denom := by simp
    have first : ¬ (0 ≠ 0 ∧ coin.denom ≤ "") := fun h => h.1 rfl
    rw [wellFormed_cons_iff, if_neg (List.cons_ne_nil coin rest ∘ List.eq_nil_of_length_eq_zero)]
    simp only [validateFrom]
    rw [if_neg List.not_mem_nil]
    by_cases denom : validateDenom coin.denom = true
    · rw [if_neg (by simp [denom]), if_neg first]
      by_cases amount : coin.amount.raw < 0
      · rw [if_pos amount]
        constructor
        · nofun
        · rintro ⟨-, -, nonneg, -⟩
          omega
      · rw [if_neg amount, validateFrom_ok_iff 0 coin.denom [coin.denom] seen rest]
        constructor
        · rintro ⟨wf, above⟩
          exact ⟨above, denom, not_lt.mp amount, wf⟩
        · rintro ⟨above, -, -, wf⟩
          exact ⟨wf, above⟩
    · rw [if_pos (by simp [denom])]
      constructor
      · nofun
      · rintro ⟨-, valid, -⟩
        exact absurd valid denom

end Juno.GlobalFee
