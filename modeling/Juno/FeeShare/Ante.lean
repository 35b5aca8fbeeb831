import Juno.FeeShare.Keeper
import Juno.Sdk.Tx

/-! The fee-share payout decorator.

It runs after the fee was deducted into the fee collector. Every executed
contract that registered a withdrawer names one payee, once per execution,
inside authz `MsgExec` at any depth too, in pre-order of the message tree
(`payees_in_preorder`). The allowed part of the fee is then
split per denomination: `DeveloperShares * amount`, divided by the number of
payees with truncation to 18 decimals, rounded half to even, and sent to every
payee from the fee collector.

What leaves the fee collector is an exact formula (`paidOut_feeSharePayout`):
the number of payees times the rounded share of the allowed fee. Rounding half
to even lets the payees together receive up to half a unit each more than the
developer share, and an allow-list that names a denomination twice counts that
part of the fee twice (`total_allowedFees`).
-/

set_option autoImplicit false

namespace Juno.FeeShare

open Sdk KVStore

def rewardAmount (govPercent : LegacyDec) (numPairs : Nat) (amount : Int) : Int :=
  ((govPercent.mulInt amount).quoInt numPairs).roundInt

def feePayLogicStep (govPercent : LegacyDec) (numPairs : Nat) (splitFees : Coins) (c : Coin) :
    Except String Coins :=
  let reward := rewardAmount govPercent numPairs c.amount
  if reward ≠ 0 then do
    let coin ← newCoin c.denom reward
    pure (Coins.add splitFees [coin])
  else pure splitFees

def feePayLogic (fees : Coins) (govPercent : LegacyDec) (numPairs : Nat) : Except String Coins :=
  (Coins.sort fees).foldlM (feePayLogicStep govPercent numPairs) []

/-- The fees the payout splits: all of them when the allow-list is empty, otherwise
each fee coin added once for every entry of the allow-list naming its denomination. -/
def allowedFees (params : Params) (totalFees : Coins) : Coins :=
  if params.allowedDenoms.length = 0 then totalFees
  else (Coins.sort totalFees).foldl (fun fees fee =>
    params.allowedDenoms.foldl (fun fees allowed =>
      if fee.denom = allowed then Coins.add fees [fee] else fees) fees) []

def payEvenly (bank : Bank) (toPay : List String) (splitFees : Coins) : Except String Bank :=
  toPay.foldlM (fun bank withdrawAddr =>
    match bank.sendCoinsFromModuleToAccount feeCollectorName withdrawAddr splitFees with
    | .ok bank => .ok bank
    | .error e => .error ("failed to pay fees to contract developer: " ++ e)) bank

namespace Keeper

variable (k : Keeper)

/-- `addNewFeeSharePayoutsForMsgs`: the withdrawers to pay, in message order, the
payees of an authz `MsgExec`'s inner messages before those of the messages after
it. A contract without a record reads as the zero `FeeShare`, whose empty
withdrawer address does not decode. -/
def addNewFeeSharePayoutsForMsgs (s : State) : List Sdk.Msg → Except String (List String)
  | [] => .ok []
  | msg :: msgs => do
    let inner ← (match msg with
      | .exec _ (some innerMsgs) => addNewFeeSharePayoutsForMsgs s innerMsgs
      | .exec _ none => .error "cannot unmarshal authz exec msgs"
      | _ => .ok [] : Except String (List String))
    let own ← (match msg with
      | .executeContract _ contract _ => do
        let contractAddr ← k.codec.accAddressFromBech32 contract
        pure (match getFeeShare s contractAddr with
          | some shareData => (k.codec.decode shareData.withdrawerAddress).toList
          | none => [])
      | _ => .ok [] : Except String (List String))
    let later ← addNewFeeSharePayoutsForMsgs s msgs
    pure (inner ++ own ++ later)

/-- `FeeSharePayout`; the event it emits is left out. -/
def feeSharePayout (s : State) (bank : Bank) (totalFees : Coins) (msgs : List Sdk.Msg) :
    Except String Bank := do
  let params := s.params
  if !params.enableFeeShare then return bank
  let toPay ← k.addNewFeeSharePayoutsForMsgs s msgs
  -- Do nothing if no one needs payment
  if toPay.length = 0 then return bank
  let splitFees ← feePayLogic (allowedFees params totalFees) params.developerShares toPay.length
  payEvenly bank toPay splitFees

end Keeper

/-- `FeeSharePayoutDecorator.AnteHandle`: the payout of the fee the transaction states,
a failure wrapped as insufficient funds. -/
def FeeSharePayoutDecorator.anteHandle (k : Keeper) (s : State) (bank : Bank) (tx : Tx) :
    Except String Bank :=
  match k.feeSharePayout s bank tx.fee tx.msgs with
  | .ok bank => .ok bank
  | .error e => .error (e ++ ": insufficient funds")

def paidOut (bank bank' : Bank) (d : String) : Int :=
  bank.balance (.module feeCollectorName) d - bank'.balance (.module feeCollectorName) d

/-! ### The split of one fee -/

theorem rewardAmount_zero (govPercent : LegacyDec) (numPairs : Nat) : rewardAmount govPercent numPairs 0 = 0 := by
  simp [rewardAmount, FixedPoint.Fixed.roundInt, FixedPoint.roundQuo, FixedPoint.halfEven]

theorem rewardAmount_mul_le {govPercent : LegacyDec} (share : 0 ≤ govPercent.raw) {numPairs : Nat}
    (positive : 0 < numPairs) {amount : Int} (nonneg : 0 ≤ amount) :
    (numPairs * rewardAmount govPercent numPairs amount : ℚ) ≤ govPercent.toRat * amount + numPairs / 2 := by
  have hn : (0 : ℚ) < numPairs := by exact_mod_cast positive
  have product : 0 ≤ (govPercent.mulInt amount).raw := FixedPoint.Fixed.mulInt_nonneg share nonneg
  have quotient : 0 ≤ ((govPercent.mulInt amount).quoInt numPairs).raw :=
    FixedPoint.Fixed.quoInt_nonneg product (Int.natCast_nonneg numPairs)
  have rounded := FixedPoint.Fixed.roundInt_le_toRat precisionUnit_pos quotient
  have truncated := FixedPoint.Fixed.toRat_quoInt_mul_le precisionUnit_pos product
    (Int.natCast_pos.mpr positive)
  rw [FixedPoint.Fixed.toRat_mulInt] at truncated
  push_cast at truncated
  unfold rewardAmount
  calc (numPairs * ((govPercent.mulInt amount).quoInt numPairs).roundInt : ℚ)
      ≤ numPairs * (((govPercent.mulInt amount).quoInt numPairs).toRat + 1 / 2) :=
        mul_le_mul_of_nonneg_left rounded hn.le
    _ = ((govPercent.mulInt amount).quoInt numPairs).toRat * numPairs + numPairs / 2 := by ring
    _ ≤ govPercent.toRat * amount + numPairs / 2 := by linarith

theorem payees_rewardAmount_le {govPercent : LegacyDec} (share : 0 ≤ govPercent.raw) (numPairs : Nat)
    {amount : Int} (nonneg : 0 ≤ amount) :
    (numPairs * rewardAmount govPercent numPairs amount : ℚ) ≤ govPercent.toRat * amount + numPairs / 2 := by
  rcases Nat.eq_zero_or_pos numPairs with none | positive
  · have shareRat : 0 ≤ govPercent.toRat := div_nonneg (by exact_mod_cast share) (Nat.cast_nonneg _)
    have amountRat : (0 : ℚ) ≤ amount := by exact_mod_cast nonneg
    simp only [none, Nat.cast_zero, zero_mul, zero_div, add_zero]
    positivity
  · exact rewardAmount_mul_le share positive nonneg

-- the source's test case "67% fee / 7 contracts": seven payees receive 336 of a 335 share
example : rewardAmount (legacyNewDecWithPrec 67 2) 7 500 = 48 := by decide

theorem total_feePayLogicStep {govPercent : LegacyDec} {numPairs : Nat} {splitFees next : Coins} {c : Coin}
    (h : feePayLogicStep govPercent numPairs splitFees c = .ok next) (d : String) :
    Coins.total next d =
      Coins.total splitFees d + if c.denom = d then rewardAmount govPercent numPairs c.amount else 0 := by
  unfold feePayLogicStep at h
  dsimp only at h
  split_ifs at h with nonzero
  · rw [Atomic.bind_eq_ok] at h
    obtain ⟨coin, made, added⟩ := h
    obtain ⟨-, -, rfl⟩ := newCoin_ok_iff.mp made
    cases added
    rw [Coins.total_add, Coins.total_cons, Coins.total_nil, add_zero]
  · cases h
    simp [not_not.mp nonzero]

theorem total_foldlM_feePayLogicStep (govPercent : LegacyDec) (numPairs : Nat) {coins : Coins}
    (distinct : (coins.map Coin.denom).Nodup) {splitFees last : Coins}
    (h : coins.foldlM (feePayLogicStep govPercent numPairs) splitFees = .ok last) (d : String) :
    Coins.total last d = Coins.total splitFees d + rewardAmount govPercent numPairs (Coins.total coins d) := by
  induction coins generalizing splitFees with
  | nil =>
    cases h
    simp [rewardAmount_zero]
  | cons c rest ih =>
    rw [List.map_cons, List.nodup_cons] at distinct
    rw [List.foldlM_cons, Atomic.bind_eq_ok] at h
    obtain ⟨middle, first, tail⟩ := h
    rw [ih distinct.2 tail, total_feePayLogicStep first, Coins.total_cons]
    by_cases same : c.denom = d
    · -- the one coin of `d`: nothing of `d` follows it
      have absent : Coins.total rest d = 0 := Coins.total_of_not_mem (same ▸ distinct.1)
      simp [same, absent, rewardAmount_zero]
    · simp [same]

theorem total_feePayLogic {fees splitFees : Coins} {govPercent : LegacyDec} {numPairs : Nat}
    (distinct : (fees.map Coin.denom).Nodup) (h : feePayLogic fees govPercent numPairs = .ok splitFees)
    (d : String) : Coins.total splitFees d = rewardAmount govPercent numPairs (Coins.total fees d) := by
  have sorted : ((Coins.sort fees).map Coin.denom).Nodup :=
    ((Coins.sort_perm fees).map Coin.denom).nodup_iff.mpr distinct
  rw [total_foldlM_feePayLogicStep govPercent numPairs sorted h, Coins.total_perm (Coins.sort_perm fees)]
  simp

theorem feePayLogic_of_isZero {fees : Coins} (zero : Coins.isZero fees = true) (govPercent : LegacyDec)
    (numPairs : Nat) : feePayLogic fees govPercent numPairs = .ok [] := by
  have skipped : ∀ (coins : Coins), (∀ c ∈ coins, c.amount = 0) →
      coins.foldlM (feePayLogicStep govPercent numPairs) [] = .ok [] := by
    intro coins zeros
    induction coins with
    | nil => rfl
    | cons c rest ih =>
      -- a zero coin earns a zero reward, which the loop skips
      have step : feePayLogicStep govPercent numPairs [] c = .ok [] := by
        simp [feePayLogicStep, zeros c List.mem_cons_self, rewardAmount_zero, pure, Except.pure]
      rw [List.foldlM_cons, step]
      exact ih fun x mem => zeros x (List.mem_cons_of_mem c mem)
  rw [Coins.isZero_iff] at zero
  exact skipped _ fun c mem => zero c (Coins.mem_sort.mp mem)

/-! ### The allowed fees -/

section AllowedFees
variable (allowedDenoms : List String)

theorem total_foldl_allowed (fee : Coin) (fees : Coins) (d : String) :
    Coins.total (allowedDenoms.foldl (fun fees allowed =>
      if fee.denom = allowed then Coins.add fees [fee] else fees) fees) d =
      Coins.total fees d + allowedDenoms.count d * Coins.total [fee] d := by
  induction allowedDenoms generalizing fees with
  | nil => simp
  | cons allowed rest ih =>
    rw [List.foldl_cons, ih]
    by_cases named : fee.denom = allowed
    · rw [if_pos named, Coins.total_add]
      by_cases same : fee.denom = d
      · obtain rfl : allowed = d := named.symm.trans same
        simp [Coins.total_cons, same]
        ring
      · simp [Coins.total_cons, same]
    · rw [if_neg named]
      by_cases same : fee.denom = d
      · have other : allowed ≠ d := fun h => named (same.trans h.symm)
        simp [Coins.total_cons, same, other]
      · simp [Coins.total_cons, same]

theorem total_foldl_allowedFees (coins fees : Coins) (d : String) :
    Coins.total (coins.foldl (fun fees fee => allowedDenoms.foldl (fun fees allowed =>
      if fee.denom = allowed then Coins.add fees [fee] else fees) fees) fees) d =
      Coins.total fees d + allowedDenoms.count d * Coins.total coins d := by
  induction coins generalizing fees with
  | nil => simp
  | cons fee rest ih =>
    rw [List.foldl_cons, ih, total_foldl_allowed, Coins.total_cons fee rest, Coins.total_cons fee []]
    simp only [Coins.total_nil, add_zero]
    ring

theorem distinct_foldl_allowed (fee : Coin) {fees : Coins} (distinct : (fees.map Coin.denom).Nodup) :
    ((allowedDenoms.foldl (fun fees allowed =>
      if fee.denom = allowed then Coins.add fees [fee] else fees) fees).map Coin.denom).Nodup := by
  induction allowedDenoms generalizing fees with
  | nil => exact distinct
  | cons allowed rest ih =>
    rw [List.foldl_cons]
    apply ih
    split_ifs
    · exact Coins.distinct_add _ _
    · exact distinct

theorem distinct_foldl_allowedFees (coins : Coins) {fees : Coins} (distinct : (fees.map Coin.denom).Nodup) :
    ((coins.foldl (fun fees fee => allowedDenoms.foldl (fun fees allowed =>
      if fee.denom = allowed then Coins.add fees [fee] else fees) fees) fees).map Coin.denom).Nodup := by
  induction coins generalizing fees with
  | nil => exact distinct
  | cons fee rest ih =>
    rw [List.foldl_cons]
    exact ih (distinct_foldl_allowed allowedDenoms fee distinct)

theorem foldl_allowedFees_of_isZero {coins : Coins} (zero : Coins.isZero coins = true) :
    coins.foldl (fun fees fee => allowedDenoms.foldl (fun fees allowed =>
      if fee.denom = allowed then Coins.add fees [fee] else fees) fees) [] = [] := by
  induction coins with
  | nil => rfl
  | cons fee rest ih =>
    rw [Coins.isZero, List.all_cons, Bool.and_eq_true] at zero
    have dropped : allowedDenoms.foldl (fun fees allowed =>
        if fee.denom = allowed then Coins.add fees [fee] else fees) [] = [] := by
      apply List.foldl_fixed'
      intro allowed
      split_ifs
      · exact Coins.add_of_isZero (by simpa [Coins.isZero] using zero.1)
      · rfl
    rw [List.foldl_cons, dropped, ih zero.2]

end AllowedFees

theorem total_allowedFees (params : Params) (totalFees : Coins) (d : String) :
    Coins.total (allowedFees params totalFees) d =
      if params.allowedDenoms = [] then Coins.total totalFees d
      else params.allowedDenoms.count d * Coins.total totalFees d := by
  unfold allowedFees
  by_cases empty : params.allowedDenoms = []
  · simp [empty]
  · rw [if_neg (by simpa using empty), if_neg empty, total_foldl_allowedFees,
      Coins.total_perm (Coins.sort_perm totalFees)]
    simp

theorem distinct_allowedFees (params : Params) {totalFees : Coins}
    (distinct : (totalFees.map Coin.denom).Nodup) : ((allowedFees params totalFees).map Coin.denom).Nodup := by
  unfold allowedFees
  split_ifs
  · exact distinct
  · exact distinct_foldl_allowedFees params.allowedDenoms _ List.nodup_nil

theorem allowedFees_of_isZero (params : Params) {totalFees : Coins} (zero : Coins.isZero totalFees = true) :
    Coins.isZero (allowedFees params totalFees) = true := by
  unfold allowedFees
  split_ifs
  · exact zero
  · have sorted : Coins.isZero (Coins.sort totalFees) = true := by
      rw [Coins.isZero_iff] at zero ⊢
      exact fun c mem => zero c (Coins.mem_sort.mp mem)
    rw [foldl_allowedFees_of_isZero params.allowedDenoms sorted]
    rfl

/-! ### The payouts -/

theorem paidOut_payEvenly {bank bank' : Bank} {toPay : List String} {splitFees : Coins}
    (h : payEvenly bank toPay splitFees = .ok bank') (d : String) :
    paidOut bank bank' d = toPay.length * Coins.total splitFees d := by
  induction toPay generalizing bank with
  | nil =>
    cases h
    simp [paidOut]
  | cons w rest ih =>
    unfold payEvenly at h
    rw [List.foldlM_cons, Atomic.bind_eq_ok] at h
    obtain ⟨middle, first, tail⟩ := h
    have sent : bank.sendCoinsFromModuleToAccount feeCollectorName w splitFees = .ok middle := by
      split at first
      · cases first
        assumption
      · cases first
    unfold Bank.sendCoinsFromModuleToAccount at sent
    split_ifs at sent
    have taken := Bank.sendCoins_balance sent (.module feeCollectorName) d
    simp only [Bank.share, if_true, reduceCtorEq, if_false, add_zero] at taken
    have later := ih tail
    unfold paidOut at later ⊢
    rw [List.length_cons]
    push_cast
    linarith

/-- A payout either changes nothing, or pays the split of the allowed fees to every payee
found in the messages. -/
theorem feeSharePayout_cases {k : Keeper} {s : State} {bank bank' : Bank} {totalFees : Coins}
    {msgs : List Sdk.Msg} (h : k.feeSharePayout s bank totalFees msgs = .ok bank') :
    bank' = bank ∧ (s.params.enableFeeShare = true → k.addNewFeeSharePayoutsForMsgs s msgs = .ok []) ∨
      ∃ toPay splitFees, s.params.enableFeeShare = true ∧ k.addNewFeeSharePayoutsForMsgs s msgs = .ok toPay ∧
        feePayLogic (allowedFees s.params totalFees) s.params.developerShares toPay.length = .ok splitFees ∧
        payEvenly bank toPay splitFees = .ok bank' := by
  unfold Keeper.feeSharePayout at h
  by_cases enabled : s.params.enableFeeShare = true
  · simp only [enabled, Bool.not_true, Bool.false_eq_true, if_false] at h
    rw [Atomic.bind_eq_ok] at h
    obtain ⟨toPay, found, rest⟩ := h
    by_cases none : toPay.length = 0
    · rw [if_pos none] at rest
      cases rest
      exact .inl ⟨rfl, fun _ => List.eq_nil_of_length_eq_zero none ▸ found⟩
    · rw [if_neg none, Atomic.bind_eq_ok] at rest
      obtain ⟨splitFees, split, paid⟩ := rest
      exact .inr ⟨toPay, splitFees, enabled, found, split, paid⟩
  · simp only [enabled, Bool.not_false, if_true] at h
    cases h
    exact .inl ⟨rfl, fun on => absurd on enabled⟩

/-- What leaves the fee collector in `d`: the number of payees times the reward of the
allowed fee of `d`. -/
theorem paidOut_feeSharePayout {k : Keeper} {s : State} {bank bank' : Bank} {totalFees : Coins}
    {msgs : List Sdk.Msg} (distinct : (totalFees.map Coin.denom).Nodup)
    (h : k.feeSharePayout s bank totalFees msgs = .ok bank') (d : String) :
    ∃ toPay : List String, (s.params.enableFeeShare = true → k.addNewFeeSharePayoutsForMsgs s msgs = .ok toPay) ∧
      paidOut bank bank' d = toPay.length *
        rewardAmount s.params.developerShares toPay.length (Coins.total (allowedFees s.params totalFees) d) := by
  rcases feeSharePayout_cases h with ⟨rfl, found⟩ | ⟨toPay, splitFees, -, found, split, paid⟩
  · exact ⟨[], found, by simp [paidOut]⟩
  · refine ⟨toPay, fun _ => found, ?_⟩
    rw [paidOut_payEvenly paid, total_feePayLogic (distinct_allowedFees s.params distinct) split]

section Supply
open Supply

theorem payEvenly_netChange {bank bank' : Bank} {toPay : List String} {splitFees : Coins}
    (h : payEvenly bank toPay splitFees = .ok bank') (d : String) :
    NetChange (bank.balance · d) (bank'.balance · d) 0 := by
  have summed := Atomic.foldlM_accumulate
    (fun (b b' : Bank) (delta : Int) => NetChange (b.balance · d) (b'.balance · d) delta)
    (fun _ => (0 : Int)) _ toPay (fun _ => NetChange.refl _) (fun first second => first.trans second)
    (by
      intro b withdrawAddr next _ paid
      -- each payment is a send from the fee collector; a failed one stops the loop
      split at paid
      · rename_i sent
        cases paid
        exact Bank.sendCoinsFromModuleToAccount_netChange sent d
      · cases paid) h
  simpa using summed

theorem feeSharePayout_netChange {k : Keeper} {s : State} {bank bank' : Bank} {totalFees : Coins}
    {msgs : List Sdk.Msg} (h : k.feeSharePayout s bank totalFees msgs = .ok bank') (d : String) :
    NetChange (bank.balance · d) (bank'.balance · d) 0 := by
  rcases feeSharePayout_cases h with ⟨rfl, -⟩ | ⟨toPay, splitFees, -, -, -, paid⟩
  · exact NetChange.refl _
  · exact payEvenly_netChange paid d

theorem payEvenly_nil {bank bank' : Bank} {toPay : List String} (h : payEvenly bank toPay [] = .ok bank') :
    bank' = bank :=
  Atomic.foldlM_observe id _ toPay (fun b withdrawAddr next paid => by
    split at paid
    · rename_i sent
      cases paid
      exact Bank.sendCoinsFromModuleToAccount_nil sent
    · cases paid) h

theorem feeSharePayout_of_isZero {k : Keeper} {s : State} {bank bank' : Bank} {totalFees : Coins}
    {msgs : List Sdk.Msg} (zero : Coins.isZero totalFees = true)
    (h : k.feeSharePayout s bank totalFees msgs = .ok bank') : bank' = bank := by
  rcases feeSharePayout_cases h with ⟨rfl, -⟩ | ⟨toPay, splitFees, -, -, split, paid⟩
  · rfl
  · rw [feePayLogic_of_isZero (allowedFees_of_isZero s.params zero)] at split
    cases split
    exact payEvenly_nil paid

theorem FeeSharePayoutDecorator.anteHandle_ok {k : Keeper} {s : State} {bank bank' : Bank} {tx : Tx}
    (h : FeeSharePayoutDecorator.anteHandle k s bank tx = .ok bank') :
    k.feeSharePayout s bank tx.fee tx.msgs = .ok bank' := by
  unfold FeeSharePayoutDecorator.anteHandle at h
  split at h
  · rename_i paid
    cases h
    exact paid
  · cases h

end Supply

/-! ### The payees at any depth

The walk is stated against the pre-order of the message tree: the payees are what each
message names, in that order, and the walk fails exactly when some message at any depth
cannot be walked. -/

namespace Keeper

variable (k : Keeper)

/-- The withdrawer one message names: that of the executed contract's fee-share record,
when the contract address and the withdrawer decode. -/
def payee (s : State) : Sdk.Msg → Option String
  | .executeContract _ contract _ =>
    (k.codec.decode contract).bind fun contractAddr =>
      (getFeeShare s contractAddr).bind fun shareData => k.codec.decode shareData.withdrawerAddress
  | _ => none

def unpayable : Sdk.Msg → Bool
  | .exec _ none => true
  | .executeContract _ contract _ => (k.codec.decode contract).isNone
  | _ => false

/-- With nothing unpayable at any depth the walk succeeds, with the payees in walk order.
The induction follows the walk's own recursion, into the inner messages and along the list. -/
theorem addNewFeeSharePayoutsForMsgs_of_payable (s : State) (msgs : List Sdk.Msg)
    (payable : (Msg.preorder msgs).any k.unpayable = false) :
    k.addNewFeeSharePayoutsForMsgs s msgs = .ok ((Msg.preorder msgs).filterMap (k.payee s)) := by
  induction msgs using addNewFeeSharePayoutsForMsgs.induct with
  | case1 => simp [addNewFeeSharePayoutsForMsgs]
  | case2 msg msgs innerIH laterIH =>
    cases msg with
    | exec grantee innerMsgs =>
      cases innerMsgs with
      | none => simp [Msg.preorder, unpayable] at payable
      | some innerMsgs =>
        simp only [Msg.preorder_exec_some, List.any_cons, List.any_append, Bool.or_eq_false_iff] at payable
        simp [addNewFeeSharePayoutsForMsgs, innerIH payable.2.1, laterIH payable.2.2, payee, List.filterMap_cons,
          bind, Except.bind, pure, Except.pure]
    | executeContract sender contract funds =>
      simp only [Msg.preorder, List.any_cons, List.nil_append, unpayable, Bool.or_eq_false_iff] at payable ⊢
      cases decoded : k.codec.decode contract with
      | none => simp [decoded] at payable
      | some contractAddr =>
        simp [addNewFeeSharePayoutsForMsgs, Bech32.accAddressFromBech32, decoded, laterIH payable.2, payee,
          List.filterMap_cons, bind, Except.bind, pure, Except.pure]
        -- the record and its withdrawer decide whether one payee joins
        cases getFeeShare s contractAddr with
        | none => rfl
        | some shareData =>
          simp only [Option.bind_some]
          cases k.codec.decode shareData.withdrawerAddress <;> rfl
    | _ =>
      simp only [Msg.preorder, List.any_cons, List.nil_append, unpayable, Bool.or_eq_false_iff] at payable ⊢
      simp [addNewFeeSharePayoutsForMsgs, laterIH payable.2, payee, List.filterMap_cons, bind, Except.bind, pure,
        Except.pure]

theorem payable_of_addNewFeeSharePayoutsForMsgs {s : State} {msgs : List Sdk.Msg} {toPay : List String}
    (h : k.addNewFeeSharePayoutsForMsgs s msgs = .ok toPay) : (Msg.preorder msgs).any k.unpayable = false := by
  induction msgs using addNewFeeSharePayoutsForMsgs.induct generalizing toPay with
  | case1 => simp
  | case2 msg msgs innerIH laterIH =>
    -- the unsplit equation keeps the message open, so the three binds come apart once
    rw [addNewFeeSharePayoutsForMsgs.eq_def] at h
    dsimp only at h
    obtain ⟨inner, innerOk, rest⟩ := Atomic.bind_eq_ok.mp h
    obtain ⟨own, ownOk, rest⟩ := Atomic.bind_eq_ok.mp rest
    obtain ⟨later, laterOk, -⟩ := Atomic.bind_eq_ok.mp rest
    cases msg with
    | exec grantee innerMsgs =>
      cases innerMsgs with
      | none => cases innerOk
      | some innerMsgs => simp [unpayable, innerIH innerOk, laterIH laterOk]
    | executeContract sender contract funds =>
      obtain ⟨contractAddr, decoded, -⟩ := Atomic.bind_eq_ok.mp ownOk
      rw [Bech32.accAddressFromBech32_ok_iff] at decoded
      simp [Msg.preorder, unpayable, decoded, laterIH laterOk]
    | _ => simp [Msg.preorder, unpayable, laterIH laterOk]

end Keeper

/-- The payees are, in pre-order of the message tree, the withdrawer of every executed
contract whose record holds one, and nothing else; the walk fails exactly when an authz
`MsgExec` at some depth does not unpack or an executed contract's address does not decode. -/
theorem payees_in_preorder (k : Keeper) (s : State) (msgs : List Sdk.Msg) :
    (∀ toPay, k.addNewFeeSharePayoutsForMsgs s msgs = .ok toPay ↔
      (Msg.preorder msgs).any k.unpayable = false ∧ toPay = (Msg.preorder msgs).filterMap (k.payee s)) ∧
    ((∃ e, k.addNewFeeSharePayoutsForMsgs s msgs = .error e) ↔ (Msg.preorder msgs).any k.unpayable = true) := by
  refine ⟨fun toPay => ⟨fun walked => ?_, ?_⟩, ⟨?_, fun unpaid => ?_⟩⟩
  · have payable := k.payable_of_addNewFeeSharePayoutsForMsgs walked
    rw [k.addNewFeeSharePayoutsForMsgs_of_payable s msgs payable, Except.ok.injEq] at walked
    exact ⟨payable, walked.symm⟩
  · rintro ⟨payable, rfl⟩
    exact k.addNewFeeSharePayoutsForMsgs_of_payable s msgs payable
  · rintro ⟨e, failed⟩
    cases payable : (Msg.preorder msgs).any k.unpayable with
    | true => rfl
    | false =>
      rw [k.addNewFeeSharePayoutsForMsgs_of_payable s msgs payable] at failed
      cases failed
  · cases walked : k.addNewFeeSharePayoutsForMsgs s msgs with
    | error e => exact ⟨e, rfl⟩
    | ok toPay =>
      rw [k.payable_of_addNewFeeSharePayoutsForMsgs walked] at unpaid
      cases unpaid

/-! A contract with a registered withdrawer, executed once under the default
parameters, on a fee of 3ujuno. -/

def govAuthority : String := "juno10d07y265gmmuvt4z0w9aw880jnsr700jvss730"

def payoutKeeper : Keeper := ⟨Bech32.identity, govAuthority, govAuthority⟩

def payoutState : State :=
  ⟨defaultParams, Keyed.empty.put ⟨"juno1contract", ⟨"juno1contract", "juno1deployer", "juno1withdrawer"⟩⟩,
    [("juno1deployer", "juno1contract")], [("juno1withdrawer", "juno1contract")]⟩

def collectorBank : Bank :=
  ⟨fun h d => if h = .module feeCollectorName ∧ d = "ujuno" then 3 else 0, fun _ => false, fun _ _ => 0⟩

def payoutMsgs : List Sdk.Msg := [.executeContract "juno1deployer" "juno1contract" []]

theorem payoutMsgs_payees :
    payoutKeeper.addNewFeeSharePayoutsForMsgs payoutState payoutMsgs = .ok ["juno1withdrawer"] := by
  simp [Keeper.addNewFeeSharePayoutsForMsgs, payoutMsgs, payoutKeeper, payoutState, getFeeShare, Bech32.identity,
    Bech32.accAddressFromBech32, bind, Except.bind, pure, Except.pure]

theorem collectorFee_split :
    feePayLogic (allowedFees defaultParams [⟨"ujuno", 3⟩]) defaultParams.developerShares 1 =
      .ok [⟨"ujuno", 2⟩] := by
  have reward : rewardAmount (legacyNewDecWithPrec 50 2) 1 3 = 2 := by decide
  have valid : validateDenom "ujuno" = true := by decide
  simp [feePayLogic, allowedFees, defaultParams, Coins.sort, feePayLogicStep, reward, newCoin, valid,
    Coins.add, Coins.total]

theorem collector_payout_ok :
    ∃ bank', payoutKeeper.feeSharePayout payoutState collectorBank [⟨"ujuno", 3⟩] payoutMsgs = .ok bank' := by
  have covered : ∃ bank', collectorBank.sendCoins (.module feeCollectorName) (.account "juno1withdrawer")
      [⟨"ujuno", 2⟩] = .ok bank' := by
    rw [Bank.sendCoins_ok_iff]
    refine ⟨by decide, ?_⟩
    simp [collectorBank]
  obtain ⟨bank', sent⟩ := covered
  have unblocked : collectorBank.blocked "juno1withdrawer" = false := rfl
  refine ⟨bank', ?_⟩
  have enabled : defaultParams.enableFeeShare = true := rfl
  simp [Keeper.feeSharePayout, enabled, payoutMsgs_payees, bind, Except.bind, pure, Except.pure,
    show payoutState.params = defaultParams from rfl, collectorFee_split, payEvenly,
    Bank.sendCoinsFromModuleToAccount, unblocked, sent]

/-! The same contract under an allow-list that names ujuno twice, which `Params.Validate`
accepts, on a fee of 100ujuno. -/

def doubledState : State := { payoutState with params := ⟨true, legacyNewDecWithPrec 50 2, ["ujuno", "ujuno"]⟩ }

def doubledBank : Bank :=
  ⟨fun h d => if h = .module feeCollectorName ∧ d = "ujuno" then 100 else 0, fun _ => false, fun _ _ => 0⟩

theorem doubledState_validate : doubledState.params.validate = .ok () := by decide

theorem doubled_payout_ok :
    ∃ bank', payoutKeeper.feeSharePayout doubledState doubledBank [⟨"ujuno", 100⟩] payoutMsgs = .ok bank' ∧
      paidOut doubledBank bank' "ujuno" = 100 := by
  have payees : payoutKeeper.addNewFeeSharePayoutsForMsgs doubledState payoutMsgs = .ok ["juno1withdrawer"] := by
    simp [Keeper.addNewFeeSharePayoutsForMsgs, payoutMsgs, payoutKeeper, doubledState, payoutState, getFeeShare,
      Bech32.identity, Bech32.accAddressFromBech32, bind, Except.bind, pure, Except.pure]
  have split : feePayLogic (allowedFees doubledState.params [⟨"ujuno", 100⟩])
      doubledState.params.developerShares 1 = .ok [⟨"ujuno", 100⟩] := by
    have reward : rewardAmount (legacyNewDecWithPrec 50 2) 1 200 = 100 := by decide
    have valid : validateDenom "ujuno" = true := by decide
    simp [feePayLogic, allowedFees, doubledState, Coins.sort, feePayLogicStep, reward, newCoin, valid,
      Coins.add, Coins.total]
  obtain ⟨bank', sent⟩ : ∃ bank', doubledBank.sendCoins (.module feeCollectorName) (.account "juno1withdrawer")
      [⟨"ujuno", 100⟩] = .ok bank' := by
    rw [Bank.sendCoins_ok_iff]
    refine ⟨by decide, ?_⟩
    simp [doubledBank]
  have unblocked : doubledBank.blocked "juno1withdrawer" = false := rfl
  have run : payoutKeeper.feeSharePayout doubledState doubledBank [⟨"ujuno", 100⟩] payoutMsgs = .ok bank' := by
    simp [Keeper.feeSharePayout, payees, split, payEvenly, bind, Except.bind, pure, Except.pure,
      show doubledState.params.enableFeeShare = true from rfl, Bank.sendCoinsFromModuleToAccount, unblocked, sent]
  refine ⟨bank', run, ?_⟩
  rw [paidOut, Bank.sendCoins_balance sent]
  simp [Bank.share, Coins.total]

end Juno.FeeShare
