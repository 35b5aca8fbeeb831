import Juno.GlobalFee.Params
import Juno.Sdk.Tx

/-! The global fee decorator.

In `CheckTx`, outside simulation and unless the route flagged a fee-pay
transaction, the decorator computes the global requirement `ceil(P * G)` (zero in
the bond denomination when no global price is set) and the node's `ceil(L * G)`,
combines them denomination by denomination, splits the requirement into its
zero and nonzero part and checks the fee against them. The main result states
its decision as the global-fee rule over plain membership in the requirement.
-/

set_option autoImplicit false

namespace Juno.GlobalFee

open Sdk

/-- `Find` of `fee_utils.go`, which has the body of `Coins.Find`. -/
def find (coins : Coins) (denom : String) : Bool × Coin := Coins.find coins denom

/-- The loop that turns gas prices into required fees, `NewCoin(denom, ceil(price * gas))`
for each price in order; `NewCoin` panics on a negative amount or an invalid denomination. -/
def requiredFees (prices : DecCoins) (gas : Int) : Except String Coins :=
  prices.mapM (fun gp => newCoin gp.denom (ceilFee gp.amount gas))

def combinedFeeRequirement (globalFees minGasPrices : Coins) : Coins :=
  -- empty min_gas_price
  if minGasPrices.length = 0 then globalFees
  -- empty global fee is not possible if we set default global fee
  else if globalFees.length = 0 then []
  else Coins.sort (globalFees.map (fun fee =>
    let (ok, c) := find minGasPrices fee.denom
    -- a local price above the global one in the same denomination wins
    if ok && decide (fee.amount < c.amount) then c else fee))

def splitCoinsByDenoms (feeCoins : Coins) (denomMap : List String) : Coins × Coins :=
  (Coins.sort (feeCoins.filter (fun fc => fc.denom ∉ denomMap)),
    Coins.sort (feeCoins.filter (fun fc => fc.denom ∈ denomMap)))

def getNonZeroFees (fees : Coins) : Coins × List String :=
  (Coins.sort (fees.filter (fun gf => gf.amount ≠ 0)),
    (fees.filter (fun gf => gf.amount = 0)).map Coin.denom)

def getMinGasPrice (minGasPrices : DecCoins) (gasLimit : Int) : Except String Coins :=
  -- special case: if minGasPrices=[], requiredFees=[]
  if DecCoins.isZero minGasPrices then .ok [] else do
    let fees ← requiredFees minGasPrices gasLimit
    pure (Coins.sort fees)

structure FeeDecorator where
  bypassMinFeeMsgTypes : List String
  maxTotalBypassMinFeeMsgGasUsage : UInt64

namespace FeeDecorator

/-- `NewDecCoinFromDec(bondDenom, 0)` panics on an invalid denomination. -/
def defaultZeroGlobalFee (bondDenom : String) : Except String DecCoins :=
  if bondDenom = "" then .error "empty staking bond denomination"
  else if validateDenom bondDenom then .ok [⟨bondDenom, legacyNewDec 0⟩]
  else .error "invalid denom"

def getGlobalFee (params : Params) (bondDenom : String) (tx : Tx) : Except String Coins := do
  -- global fee is empty set, set global fee to 0uatom
  let globalMinGasPrices ← (if params.minimumGasPrices.length = 0 then defaultZeroGlobalFee bondDenom
    else pure params.minimumGasPrices : Except String DecCoins)
  let fees ← requiredFees globalMinGasPrices (int64OfUint64 tx.gas)
  pure (Coins.sort fees)

def containsOnlyBypassMinFeeMsgs (d : FeeDecorator) (msgs : List Msg) : Bool :=
  msgs.all (fun msg => msg.typeUrl ∈ d.bypassMinFeeMsgTypes)

def anteHandle (d : FeeDecorator) (ctx : Context) (simulate isFeePayTx : Bool) (params : Params)
    (bondDenom : String) (tx : Tx) : Except String Unit :=
  if !ctx.isCheckTx || simulate || isFeePayTx then .ok () else do
  let feeCoins := Coins.sort tx.fee
  let requiredGlobalFees ← getGlobalFee params bondDenom tx
  let localFees ← getMinGasPrice ctx.minGasPrices (int64OfUint64 tx.gas)
  let combinedFeeRequirement := combinedFeeRequirement requiredGlobalFees localFees
  if combinedFeeRequirement.length = 0 then throw "required fees are not setup."
  let (nonZeroCoinFeesReq, zeroCoinFeesDenomReq) := getNonZeroFees combinedFeeRequirement
  let (feeCoinsNonZeroDenom, feeCoinsZeroDenom) := splitCoinsByDenoms feeCoins zeroCoinFeesDenomReq
  if !Coins.denomsSubsetOf feeCoinsNonZeroDenom nonZeroCoinFeesReq then
    throw "this fee denom is not accepted"
  let doesNotExceedMaxGasUsage := decide (tx.gas ≤ d.maxTotalBypassMinFeeMsgGasUsage)
  let allowedToBypassMinFee := d.containsOnlyBypassMinFeeMsgs tx.msgs && doesNotExceedMaxGasUsage
  if !allowedToBypassMinFee && feeCoinsZeroDenom.length = 0 then
    -- special case: when feeCoins=[] and there is zero coin in fee requirement
    if feeCoins.length = 0 && zeroCoinFeesDenomReq.length ≠ 0 then return
    if !Coins.isAnyGTE feeCoinsNonZeroDenom nonZeroCoinFeesReq then
      if feeCoins.length = 0 then throw "no fees were specified"
      throw "insufficient fees"

end FeeDecorator

/-! The app's configuration of the decorator: the message types relayers send without a
fee, and the gas such a transaction may use. -/

def getDefaultBypassFeeMessages : List String :=
  ["/ibc.core.channel.v1.MsgRecvPacket", "/ibc.core.channel.v1.MsgAcknowledgement",
    "/ibc.core.client.v1.MsgCreateClient", "/ibc.core.client.v1.MsgUpdateClient",
    "/ibc.core.client.v1.MsgUpgradeClient", "/ibc.applications.transfer.v1.MsgTransfer",
    "/ibc.core.channel.v1.MsgTimeout", "/ibc.core.channel.v1.MsgTimeoutOnClose",
    "/ibc.core.channel.v1.MsgChannelOpenTry", "/ibc.core.channel.v1.MsgChannelOpenConfirm",
    "/ibc.core.channel.v1.MsgChannelOpenAck"]

def maxBypassMinFeeMsgGasUsage : UInt64 := 2000000

/-! ## The requirement -/

/-- `ceil(price * gas)` for each price, in order: the requirement `NewCoin` builds when it
does not panic. -/
def gasFees (prices : DecCoins) (gas : Int) : Coins :=
  prices.map (fun gp => ⟨gp.denom, ceilFee gp.amount gas⟩)

def globalPrices (params : Params) (bondDenom : String) : DecCoins :=
  if params.minimumGasPrices.length = 0 then [⟨bondDenom, legacyNewDec 0⟩]
  else params.minimumGasPrices

def requirement (params : Params) (bondDenom : String) (minGasPrices : DecCoins) (gas : Int) : Coins :=
  combinedFeeRequirement (Coins.sort (gasFees (globalPrices params bondDenom) gas))
    (if DecCoins.isZero minGasPrices then [] else Coins.sort (gasFees minGasPrices gas))

def zeroDenoms (R : Coins) : List String := (R.filter (fun r => r.amount = 0)).map Coin.denom

def nonZero (R : Coins) : Coins := R.filter (fun r => r.amount ≠ 0)

def charged (R fee : Coins) : Coins := fee.filter (fun c => c.denom ∉ zeroDenoms R)

/-- The global-fee rule: every charged denomination of the fee is required at a nonzero
amount, and the fee is let through by the bypass, by a zero-required denomination, by
being empty against a zero requirement, or by reaching one nonzero requirement. -/
def GlobalFeeRule (d : FeeDecorator) (R : Coins) (tx : Tx) : Prop :=
  (∀ c ∈ charged R tx.fee, ∃ r ∈ nonZero R, r.denom = c.denom) ∧
    ((d.containsOnlyBypassMinFeeMsgs tx.msgs = true ∧ tx.gas ≤ d.maxTotalBypassMinFeeMsgGasUsage) ∨
      (∃ c ∈ tx.fee, c.denom ∈ zeroDenoms R) ∨ (tx.fee = [] ∧ zeroDenoms R ≠ []) ∨
      ∃ c ∈ charged R tx.fee, ∃ r ∈ nonZero R, r.denom = c.denom ∧ r.amount ≤ c.amount)

theorem requiredFees_eq {prices : DecCoins} (wf : WellFormed prices) {gas : Int} (hg : 0 ≤ gas) :
    requiredFees prices gas = .ok (gasFees prices gas) := by
  obtain ⟨-, denoms, nonneg⟩ := wf
  unfold requiredFees gasFees
  induction prices with
  | nil => rfl
  | cons gp rest ih =>
    have coin : newCoin gp.denom (ceilFee gp.amount gas) = .ok ⟨gp.denom, ceilFee gp.amount gas⟩ :=
      newCoin_ok_iff.mpr ⟨denoms gp List.mem_cons_self,
        ceilFee_nonneg (nonneg gp List.mem_cons_self) hg, rfl⟩
    rw [List.mapM_cons, coin, ih (fun c hc => denoms c (List.mem_cons_of_mem _ hc))
      (fun c hc => nonneg c (List.mem_cons_of_mem _ hc))]
    rfl

theorem requiredFees_negative {denom : String} {price : Int} (negative : price < 0)
    (valid : validateDenom denom = true) (rest : DecCoins) {gas : Int} (positive : 0 < gas) :
    requiredFees (⟨denom, legacyNewDec price⟩ :: rest) gas = .error "negative coin amount" := by
  have fee : ceilFee (legacyNewDec price) gas < 0 := by
    rw [ceilFee_legacyNewDec]
    exact Int.mul_neg_of_neg_of_pos negative positive
  have panics : newCoin denom (ceilFee (legacyNewDec price) gas) = .error "negative coin amount" := by
    unfold newCoin
    rw [if_pos valid, if_neg (not_le.mpr fee)]
  unfold requiredFees
  rw [List.mapM_cons, panics]
  rfl

theorem wellFormed_globalPrices {params : Params} (wf : WellFormed params.minimumGasPrices)
    {bondDenom : String} (bond : validateDenom bondDenom = true) :
    WellFormed (globalPrices params bondDenom) := by
  unfold globalPrices
  split_ifs
  · refine ⟨List.pairwise_singleton _ _, ?_, ?_⟩
    · simpa using bond
    · simp [legacyNewDec]
  · exact wf

theorem getGlobalFee_eq {params : Params} (wf : WellFormed params.minimumGasPrices)
    {bondDenom : String} (bond : validateDenom bondDenom = true) {tx : Tx}
    (small : tx.gas.toNat < 2 ^ 63) :
    FeeDecorator.getGlobalFee params bondDenom tx =
      .ok (Coins.sort (gasFees (globalPrices params bondDenom) tx.gas.toNat)) := by
  have named : bondDenom ≠ "" := by
    rintro rfl
    exact absurd bond (by decide)
  have prices : (if params.minimumGasPrices.length = 0 then FeeDecorator.defaultZeroGlobalFee bondDenom
      else pure params.minimumGasPrices) = .ok (globalPrices params bondDenom) := by
    unfold globalPrices FeeDecorator.defaultZeroGlobalFee
    by_cases empty : params.minimumGasPrices.length = 0
    · simp only [if_pos empty, if_neg named, bond, if_true]
    · simp only [if_neg empty]
      rfl
  unfold FeeDecorator.getGlobalFee
  rw [prices, int64OfUint64_of_lt small]
  simp only [bind, Except.bind]
  rw [requiredFees_eq (wellFormed_globalPrices wf bond) (Int.natCast_nonneg _)]
  rfl

/-- Stored prices that start with a whole negative price make `GetGlobalFee` panic for
every transaction with gas. -/
theorem getGlobalFee_negative {params : Params} {denom : String} {price : Int} {rest : DecCoins}
    (prices : params.minimumGasPrices = ⟨denom, legacyNewDec price⟩ :: rest) (negative : price < 0)
    (valid : validateDenom denom = true) (bondDenom : String) {tx : Tx} (positive : tx.gas ≠ 0)
    (small : tx.gas.toNat < 2 ^ 63) :
    FeeDecorator.getGlobalFee params bondDenom tx = .error "negative coin amount" := by
  have gas : (0 : Int) < tx.gas.toNat := by
    have : tx.gas.toNat ≠ 0 := fun zero => positive (UInt64.toNat_inj.mp (by simpa using zero))
    omega
  unfold FeeDecorator.getGlobalFee
  rw [prices, int64OfUint64_of_lt small]
  simp only [List.length_cons, Nat.add_one_ne_zero, if_false, pure, Except.pure, bind, Except.bind]
  rw [requiredFees_negative negative valid rest gas]

theorem getMinGasPrice_eq {minGasPrices : DecCoins} (wf : WellFormed minGasPrices) {gas : Int}
    (hg : 0 ≤ gas) :
    getMinGasPrice minGasPrices gas =
      .ok (if DecCoins.isZero minGasPrices then [] else Coins.sort (gasFees minGasPrices gas)) := by
  unfold getMinGasPrice
  split_ifs
  · rfl
  · rw [requiredFees_eq wf hg]
    rfl

theorem map_denom_gasFees (prices : DecCoins) (gas : Int) :
    (gasFees prices gas).map Coin.denom = prices.map DecCoin.denom := by
  simp [gasFees]

theorem distinct_combined {globalFees : Coins} (minGasPrices : Coins)
    (distinct : (globalFees.map Coin.denom).Nodup) :
    ((combinedFeeRequirement globalFees minGasPrices).map Coin.denom).Nodup := by
  unfold combinedFeeRequirement
  split_ifs
  · exact distinct
  · exact List.nodup_nil
  · have same : ∀ fee : Coin, (let (ok, c) := find minGasPrices fee.denom
        if ok && decide (fee.amount < c.amount) then c else fee).denom = fee.denom := by
      intro fee
      by_cases replaced : (find minGasPrices fee.denom).1 && decide (fee.amount < (find minGasPrices fee.denom).2.amount)
      · simp only [Bool.and_eq_true, decide_eq_true_eq] at replaced
        simp only [find] at replaced ⊢
        simp [replaced, Coins.find_denom _ _ replaced.1]
      · simp only [find] at replaced ⊢
        simp [replaced]
    have mapped : (globalFees.map (fun fee => let (ok, c) := find minGasPrices fee.denom
        if ok && decide (fee.amount < c.amount) then c else fee)).map Coin.denom =
        globalFees.map Coin.denom := by
      rw [List.map_map]
      exact List.map_congr_left (fun fee _ => same fee)
    rw [((Coins.sort_perm _).map Coin.denom).nodup_iff, mapped]
    exact distinct

theorem combined_ne_nil {globalFees : Coins} (minGasPrices : Coins) (nonempty : globalFees ≠ []) :
    combinedFeeRequirement globalFees minGasPrices ≠ [] := by
  unfold combinedFeeRequirement
  split_ifs with noLocal noGlobal
  · exact nonempty
  · exact absurd (List.eq_nil_of_length_eq_zero noGlobal) nonempty
  · rw [← List.length_pos_iff, Coins.length_sort, List.length_map]
    exact List.length_pos_iff.mpr nonempty

/-! ### The combined requirement, denomination by denomination -/

/-- The global fee of one denomination raised to the local price of that denomination when the
local prices name it: the per-denomination maximum the combination stands for. -/
def raisedFee (minGasPrices : Coins) (fee : Coin) : Coin :=
  ⟨fee.denom, match Coins.lookup minGasPrices fee.denom with
    | some c => max fee.amount c.amount
    | none => fee.amount⟩

theorem find_eq_true_iff {coins : Coins} (sorted : Coins.Sorted coins) (d : String) (c : Coin) :
    find coins d = (true, c) ↔ Coins.lookup coins d = some c := by
  rw [find, Coins.find_eq_lookup sorted]
  cases found : Coins.lookup coins d <;> simp

theorem combined_step {minGasPrices : Coins} (sorted : Coins.Sorted minGasPrices) (fee : Coin) :
    (let (ok, c) := find minGasPrices fee.denom
      if ok && decide (fee.amount < c.amount) then c else fee) = raisedFee minGasPrices fee := by
  simp only [find, Coins.find_eq_lookup sorted, raisedFee]
  cases found : Coins.lookup minGasPrices fee.denom with
  | none => simp
  | some c =>
    have same : c.denom = fee.denom := ((Coins.lookup_eq_some_iff sorted).mp found).2
    by_cases higher : fee.amount < c.amount
    · simp [higher, max_eq_right higher.le, ← same]
    · simp [higher, max_eq_left (not_lt.mp higher)]

theorem combinedFeeRequirement_eq_map {globalFees minGasPrices : Coins} (globalSorted : Coins.Sorted globalFees)
    (localSorted : Coins.Sorted minGasPrices) (global : globalFees ≠ []) (nonlocal : minGasPrices ≠ []) :
    combinedFeeRequirement globalFees minGasPrices = globalFees.map (raisedFee minGasPrices) := by
  unfold combinedFeeRequirement
  rw [if_neg (by simpa using nonlocal), if_neg (by simpa using global)]
  rw [List.map_congr_left (fun fee _ => combined_step localSorted fee)]
  -- the denominations are those of the global fees, already in order
  apply List.mergeSort_of_pairwise
  rw [List.pairwise_map]
  exact globalSorted.imp (fun lt => decide_eq_true (le_of_lt lt))

theorem combinedFeeRequirement_max {globalFees minGasPrices : Coins} (globalSorted : Coins.Sorted globalFees)
    (localSorted : Coins.Sorted minGasPrices) :
    (minGasPrices = [] → combinedFeeRequirement globalFees minGasPrices = globalFees) ∧
    (globalFees = [] → minGasPrices ≠ [] → combinedFeeRequirement globalFees minGasPrices = []) ∧
    (globalFees ≠ [] → minGasPrices ≠ [] →
      Coins.Sorted (combinedFeeRequirement globalFees minGasPrices) ∧
      (combinedFeeRequirement globalFees minGasPrices).map Coin.denom = globalFees.map Coin.denom ∧
      combinedFeeRequirement globalFees minGasPrices = globalFees.map (raisedFee minGasPrices)) ∧
    (∀ d c, find minGasPrices d = (true, c) ↔ Coins.lookup minGasPrices d = some c) := by
  refine ⟨fun noLocal => ?_, fun noGlobal nonlocal => ?_, fun global nonlocal => ?_, find_eq_true_iff localSorted⟩
  · rw [combinedFeeRequirement, if_pos (by simp [noLocal])]
  · rw [combinedFeeRequirement, if_neg (by simpa using nonlocal), if_pos (by simp [noGlobal])]
  · rw [combinedFeeRequirement_eq_map globalSorted localSorted global nonlocal]
    -- raising an amount keeps the denomination, so the global order carries over
    have denoms : (globalFees.map (raisedFee minGasPrices)).map Coin.denom = globalFees.map Coin.denom := by
      rw [List.map_map]
      rfl
    refine ⟨?_, denoms, rfl⟩
    unfold Coins.Sorted
    rw [List.pairwise_map]
    exact globalSorted

theorem local_price_raises_global_fee :
    combinedFeeRequirement [⟨"uatom", 1⟩, ⟨"ujuno", 5⟩] [⟨"ujuno", 7⟩] = [⟨"uatom", 1⟩, ⟨"ujuno", 7⟩] := by
  have globalSorted : Coins.Sorted [⟨"uatom", 1⟩, ⟨"ujuno", 5⟩] := by
    unfold Coins.Sorted
    decide
  have localSorted : Coins.Sorted [⟨"ujuno", 7⟩] := by
    unfold Coins.Sorted
    decide
  have spec := (combinedFeeRequirement_max globalSorted localSorted).2.2.1 (by simp) (by simp)
  rw [spec.2.2]
  decide

theorem requirement_shape {params : Params} (wf : WellFormed params.minimumGasPrices)
    {bondDenom : String} (bond : validateDenom bondDenom = true) (minGasPrices : DecCoins)
    (gas : Int) :
    ((requirement params bondDenom minGasPrices gas).map Coin.denom).Nodup ∧
      requirement params bondDenom minGasPrices gas ≠ [] := by
  have prices := wellFormed_globalPrices wf bond
  have distinct : ((Coins.sort (gasFees (globalPrices params bondDenom) gas)).map Coin.denom).Nodup := by
    rw [((Coins.sort_perm _).map Coin.denom).nodup_iff, map_denom_gasFees]
    exact List.nodup_iff_pairwise_ne.mpr (List.pairwise_map.mpr (prices.sorted.imp ne_of_lt))
  have nonempty : Coins.sort (gasFees (globalPrices params bondDenom) gas) ≠ [] := by
    rw [← List.length_pos_iff, Coins.length_sort, gasFees, List.length_map, globalPrices]
    split_ifs with empty
    · simp
    · exact Nat.pos_of_ne_zero empty
  exact ⟨distinct_combined _ distinct, combined_ne_nil _ nonempty⟩

/-! ## The decision -/

section Split
variable {R : Coins}

theorem getNonZeroFees_eq : getNonZeroFees R = (Coins.sort (nonZero R), zeroDenoms R) := rfl

theorem nonzero_nonZero : ∀ r ∈ Coins.sort (nonZero R), r.amount ≠ 0 := by
  intro r hr
  simpa [nonZero] using (List.mem_filter.mp (Coins.mem_sort.mp hr)).2

theorem sorted_nonZero (distinct : (R.map Coin.denom).Nodup) : Coins.Sorted (Coins.sort (nonZero R)) :=
  Coins.sorted_sort (distinct.sublist (List.Sublist.map Coin.denom List.filter_sublist))

variable {fee : Coins}

theorem mem_charged {c : Coin} :
    c ∈ (splitCoinsByDenoms (Coins.sort fee) (zeroDenoms R)).1 ↔ c ∈ charged R fee := by
  simp [splitCoinsByDenoms, charged, Coins.mem_sort]

theorem distinct_charged (distinct : (fee.map Coin.denom).Nodup) :
    ((splitCoinsByDenoms (Coins.sort fee) (zeroDenoms R)).1.map Coin.denom).Nodup := by
  have sorted : ((Coins.sort fee).map Coin.denom).Nodup :=
    ((Coins.sort_perm fee).map Coin.denom).nodup_iff.mpr distinct
  rw [splitCoinsByDenoms, ((Coins.sort_perm _).map Coin.denom).nodup_iff]
  exact sorted.sublist (List.Sublist.map Coin.denom List.filter_sublist)

theorem zero_paid_length_eq_zero :
    (splitCoinsByDenoms (Coins.sort fee) (zeroDenoms R)).2.length = 0 ↔
      ¬ ∃ c ∈ fee, c.denom ∈ zeroDenoms R := by
  simp [splitCoinsByDenoms, Coins.length_sort, List.filter_eq_nil_iff, Coins.mem_sort]

theorem charged_subset_iff (distinctR : (R.map Coin.denom).Nodup) (distinct : (fee.map Coin.denom).Nodup) :
    Coins.denomsSubsetOf (splitCoinsByDenoms (Coins.sort fee) (zeroDenoms R)).1 (Coins.sort (nonZero R)) = true ↔
      ∀ c ∈ charged R fee, ∃ r ∈ nonZero R, r.denom = c.denom := by
  rw [Coins.denomsSubsetOf_iff (sorted_nonZero distinctR) nonzero_nonZero (distinct_charged distinct)]
  simp only [mem_charged, Coins.mem_sort]

theorem charged_reaches_iff (distinctR : (R.map Coin.denom).Nodup) :
    Coins.isAnyGTE (splitCoinsByDenoms (Coins.sort fee) (zeroDenoms R)).1 (Coins.sort (nonZero R)) = true ↔
      ∃ c ∈ charged R fee, ∃ r ∈ nonZero R, r.denom = c.denom ∧ r.amount ≤ c.amount := by
  rw [Coins.isAnyGTE_iff_of_nonzero (sorted_nonZero distinctR) nonzero_nonZero]
  simp only [mem_charged, Coins.mem_sort]

end Split

/-- In `CheckTx` the decorator lets a transaction through exactly under the global-fee rule
for the combined requirement, given well-formed global and node prices, a valid bond
denomination, a gas limit that is a nonnegative `int64`, and a fee naming each
denomination once. -/
theorem anteHandle_ok_iff (d : FeeDecorator) {ctx : Context} (check : ctx.isCheckTx = true)
    {params : Params} (wf : WellFormed params.minimumGasPrices) {bondDenom : String}
    (bond : validateDenom bondDenom = true) (node : WellFormed ctx.minGasPrices) {tx : Tx}
    (small : tx.gas.toNat < 2 ^ 63) (distinctFee : (tx.fee.map Coin.denom).Nodup) :
    d.anteHandle ctx false false params bondDenom tx = .ok () ↔
      GlobalFeeRule d (requirement params bondDenom ctx.minGasPrices tx.gas.toNat) tx := by
  obtain ⟨distinctR, nonemptyR⟩ := requirement_shape wf bond ctx.minGasPrices tx.gas.toNat
  unfold FeeDecorator.anteHandle
  rw [getGlobalFee_eq wf bond small, int64OfUint64_of_lt small,
    getMinGasPrice_eq node (Int.natCast_nonneg _)]
  simp only [check, Bool.not_true, Bool.or_false, Bool.false_eq_true, if_false, bind, Except.bind]
  unfold requirement at distinctR nonemptyR ⊢
  generalize combinedFeeRequirement (Coins.sort (gasFees (globalPrices params bondDenom) tx.gas.toNat))
    (if DecCoins.isZero ctx.minGasPrices then [] else Coins.sort (gasFees ctx.minGasPrices tx.gas.toNat)) = R
    at distinctR nonemptyR ⊢
  rw [if_neg (fun h => nonemptyR (List.eq_nil_of_length_eq_zero h)), getNonZeroFees_eq]
  -- Each test of the decorator, read as a statement about the requirement and the fee.
  have subset := @charged_subset_iff R tx.fee distinctR distinctFee
  have reaches := @charged_reaches_iff R tx.fee distinctR
  have emptyFee : (Coins.sort tx.fee).length = 0 ↔ tx.fee = [] := by
    rw [Coins.length_sort, List.length_eq_zero_iff]
  have zeroRequired : (zeroDenoms R).length ≠ 0 ↔ zeroDenoms R ≠ [] := by
    rw [ne_eq, List.length_eq_zero_iff]
  have bypass : (d.containsOnlyBypassMinFeeMsgs tx.msgs &&
      decide (tx.gas ≤ d.maxTotalBypassMinFeeMsgGasUsage)) = false ↔
      ¬ (d.containsOnlyBypassMinFeeMsgs tx.msgs = true ∧ tx.gas ≤ d.maxTotalBypassMinFeeMsgGasUsage) := by
    simp
  simp only [Bool.not_eq_true', Bool.and_eq_true, decide_eq_true_eq, zero_paid_length_eq_zero,
    emptyFee, zeroRequired, bypass]
  unfold GlobalFeeRule
  generalize Coins.denomsSubsetOf _ _ = sub at subset ⊢
  generalize Coins.isAnyGTE _ _ = gte at reaches ⊢
  generalize (∀ c ∈ charged R tx.fee, ∃ r ∈ nonZero R, r.denom = c.denom) = A at subset ⊢
  generalize (∃ c ∈ charged R tx.fee, ∃ r ∈ nonZero R, r.denom = c.denom ∧ r.amount ≤ c.amount) = D
    at reaches ⊢
  clear emptyFee zeroRequired bypass distinctFee distinctR nonemptyR
  -- What is left is the order of the tests: the subset test, then bypass, zero-required
  -- coins, the empty-fee exception and the amount test.
  by_cases hP : d.containsOnlyBypassMinFeeMsgs tx.msgs = true ∧ tx.gas ≤ d.maxTotalBypassMinFeeMsgGasUsage <;>
    by_cases hB : ∃ c ∈ tx.fee, c.denom ∈ zeroDenoms R <;>
    by_cases hEZ : tx.fee = [] ∧ zeroDenoms R ≠ [] <;>
    cases sub <;> cases gte <;>
    simp only [Bool.false_eq_true, false_iff, true_iff] at subset reaches <;>
    simp [hP, hB, hEZ, subset, reaches, pure, Except.pure, throw, throwThe, MonadExceptOf.throw]
  -- what simp leaves is the last rejection, whose two messages are both errors
  split <;> nofun

end Juno.GlobalFee
