import Juno.FeePay.Keeper
import Juno.GlobalFee.Ante

/-! The fee route: the fee-pay decorator and the global fee decorator in the
order `MsgIsFeePayTx` chooses.

A transaction with no fee and a single execution of a registered contract is
flagged as fee-pay. Its fee-pay decorator runs first: `handleZeroFees` charges
the contract's prepaid balance `ceil(p * G)` at the global bond-denomination
price `p`; when it fails with an error the flag is cleared, the (empty) fee is
deducted the standard way, and the global fee decorator, which skipped flagged
transactions, now checks the fee. Every other transaction meets the global fee
decorator first and then the deduct decorator, which repeats the node's own
minimum gas price check and deducts the fee from the payer. A panic anywhere
rejects the transaction; inside `handleZeroFees` it is not caught by the
fallback. Results are `Except`; in `handleZeroFees` the outer error is a panic.
-/

set_option autoImplicit false

namespace Juno.FeePay

open Sdk KVStore GlobalFee

/-- The state the route reads and writes. -/
structure AnteState where
  feePay : State
  globalFee : GlobalFee.Params
  bank : Bank

/-- What the route reads and does not write: the context, the keepers' configuration,
accounts and fee grants. The fee-grant keeper is known through its verdict on a use of
a grant. -/
structure AnteEnv where
  ctx : Context
  keeper : Keeper
  feeDecorator : FeeDecorator
  feeCollectorSet : Bool
  feegrantEnabled : Bool
  useGrantedFees : String → String → Coins → List Msg → Except String Unit
  accountExists : String → Bool

def isValidFeePayTransaction (s : State) (tx : Tx) : Bool :=
  s.params.enableFeepay && Coins.isZero tx.fee && tx.msgs.length = 1 &&
    match tx.msgs with
    | [.executeContract _ contract _] => Keeper.isContractRegistered s contract
    | _ => false

def deductFees (bank : Bank) (acc : String) (fees : Coins) : Except String Bank :=
  if !Coins.isValid fees then .error "invalid fee amount"
  else match bank.sendCoinsFromAccountToModule acc feeCollectorName fees with
    | .ok bank => .ok bank
    | .error e => .error ("insufficient funds: " ++ e)

namespace DeductFeeDecorator

variable (env : AnteEnv)

/-- The bond-denomination price in the global prices; the last match wins. -/
def feePrice (prices : DecCoins) : DecCoin :=
  prices.foldl (fun acc c => if c.denom = env.keeper.bondDenom then c else acc) DecCoin.empty

def handleZeroFees (s : AnteState) (deductFeesFrom : String) (tx : Tx) :
    Except String (Except String AnteState) :=
  match tx.msgs with
  | .executeContract _ contract _ :: _ =>
    match Keeper.getContract s.feePay contract with
    | .error e => .ok (.error ("error getting contract: " ++ e))
    | .ok feepayContract =>
      let feePrice := feePrice env s.globalFee.minimumGasPrices
      if feePrice = DecCoin.empty then .ok (.error "fee price not found for denom in globalfee keeper")
      else
      let requiredFee := ceilFee feePrice.amount (int64OfUint64 tx.gas)
      -- Check if wallet exceeded usage limit on contract
      let accBech32 := deductFeesFrom
      if Keeper.hasWalletExceededUsageLimit s.feePay feepayContract accBech32 then
        .ok (.error "wallet has exceeded usage limit")
      else do
      let fee ← intToUint64 requiredFee
      if !Keeper.canContractCoverFee feepayContract fee then
        return .error "contract has insufficient funds"
      let payment ← Coins.newCoins [← newCoin feePrice.denom requiredFee]
      -- Cover the fees of the transaction, send from FeePay Module to FeeCollector Module
      match s.bank.sendCoinsFromModuleToModule moduleName feeCollectorName payment with
      | .error e => return .error ("error transferring funds from FeePay to FeeCollector; " ++ e)
      | .ok bank =>
        let feePay := Keeper.setContractBalance s.feePay feepayContract (feepayContract.balance - fee)
        let feePay := Keeper.incrementContractUses feePay { feepayContract with balance :=
          feepayContract.balance - fee } accBech32 1
        return .ok { s with feePay := feePay, bank := bank }
  -- indexing an empty message list or asserting another message type panics
  | _ => .error "interface conversion: not a MsgExecuteContract"

/-- `checkDeductFee`, returning the fee-pay flag as the decorator leaves it. -/
def checkDeductFee (s : AnteState) (isFeePayTx : Bool) (tx : Tx) (fee : Coins) :
    Except String (Bool × AnteState) := do
  if !env.feeCollectorSet then throw "fee collector module account has not been set"
  let feePayer := tx.feePayer
  -- if feegranter set deduct fee from feegranter account.
  let deductFeesFrom ← (match tx.feeGranter with
    | none => .ok feePayer
    | some feeGranter =>
      if !env.feegrantEnabled then .error "fee grants are not enabled"
      else if feeGranter ≠ feePayer then
        match env.useGrantedFees feeGranter feePayer fee tx.msgs with
        | .ok () => .ok feeGranter
        | .error e => .error (e ++ ": fee granter does not allow to pay fees")
      else .ok feeGranter : Except String String)
  if !env.accountExists deductFeesFrom then throw "fee payer address does not exist"
  if isFeePayTx then
    match ← handleZeroFees env s deductFeesFrom tx with
    | .ok s => return (true, s)
    | .error feePayErr =>
      -- If the fee pay route fails, flag the tx for the global fee decorator and try the
      -- std sdk route
      match deductFees s.bank deductFeesFrom fee with
      | .ok bank => return (false, { s with bank := bank })
      | .error sdkErr =>
        throw ("error deducting fees; fee pay error: " ++ feePayErr ++ ", sdk error: " ++ sdkErr)
  else if !Coins.isZero fee then
    let bank ← deductFees s.bank deductFeesFrom fee
    return (isFeePayTx, { s with bank := bank })
  else return (isFeePayTx, s)

/-- `checkTxFeeWithValidatorMinGasPrices`; the priority it also computes is not modelled. -/
def checkTxFeeWithValidatorMinGasPrices (isFeePayTx : Bool) (tx : Tx) : Except String Coins := do
  if env.ctx.isCheckTx && !isFeePayTx && !DecCoins.isZero env.ctx.minGasPrices then
    let requiredFees ← requiredFees env.ctx.minGasPrices (int64OfUint64 tx.gas)
    if !Coins.isAnyGTE tx.fee requiredFees then throw "insufficient fees"
  return tx.fee

def anteHandle (s : AnteState) (isFeePayTx simulate : Bool) (tx : Tx) :
    Except String (Bool × AnteState) := do
  if !simulate && 0 < env.ctx.blockHeight && tx.gas = 0 then throw "must provide positive gas"
  let fee ← if !simulate then checkTxFeeWithValidatorMinGasPrices env isFeePayTx tx
    else pure tx.fee
  checkDeductFee env s isFeePayTx tx fee

end DeductFeeDecorator

def MsgIsFeePayTx.anteHandle (env : AnteEnv) (s : AnteState) (simulate : Bool) (tx : Tx) :
    Except String AnteState := do
  let isFeePayTx := isValidFeePayTransaction s.feePay tx
  if isFeePayTx then
    let (isFeePayTx, s) ← DeductFeeDecorator.anteHandle env s isFeePayTx simulate tx
    env.feeDecorator.anteHandle env.ctx simulate isFeePayTx s.globalFee env.keeper.bondDenom tx
    return s
  else
    env.feeDecorator.anteHandle env.ctx simulate isFeePayTx s.globalFee env.keeper.bondDenom tx
    let (_, s) ← DeductFeeDecorator.anteHandle env s isFeePayTx simulate tx
    return s

/-! ## The fee rules -/

def deductFeesFrom (tx : Tx) : String := tx.feeGranter.getD tx.feePayer

def txContract (tx : Tx) : Option String :=
  match tx.msgs with
  | [.executeContract _ contract _] => some contract
  | _ => none

def bondPrice (prices : DecCoins) (bondDenom : String) : Option DecCoin :=
  prices.find? (fun p => p.denom = bondDenom)

def gasFee (p : DecCoin) (tx : Tx) : Int := ceilFee p.amount tx.gas.toNat

/-- The account side of `checkDeductFee`: the fee collector exists, a fee granter is
usable, and the account the fee is taken from exists. -/
def PayerReady (env : AnteEnv) (tx : Tx) : Prop :=
  env.feeCollectorSet = true ∧
    (∀ granter, tx.feeGranter = some granter → env.feegrantEnabled = true ∧
      (granter = tx.feePayer ∨ env.useGrantedFees granter tx.feePayer tx.fee tx.msgs = .ok ())) ∧
    env.accountExists (deductFeesFrom tx) = true

/-- The fee-pay path succeeds: the contract is registered, the bond denomination has a
global price `p`, the paying wallet is below the contract's limit, and both the contract's
prepaid balance and the module account cover `ceil(p * G)`. -/
def FeePayCovers (env : AnteEnv) (s : AnteState) (tx : Tx) : Prop :=
  ∃ contract fpc p, txContract tx = some contract ∧ s.feePay.contracts.get? contract = some fpc ∧
    bondPrice s.globalFee.minimumGasPrices env.keeper.bondDenom = some p ∧
    Keeper.getContractUses s.feePay fpc (deductFeesFrom tx) < fpc.walletLimit ∧
    gasFee p tx ≤ fpc.balance.toNat ∧
    (gasFee p tx = 0 ∨ gasFee p tx ≤ s.bank.balance (.module moduleName) env.keeper.bondDenom)

def FeePayNoPanic (env : AnteEnv) (s : AnteState) (tx : Tx) : Prop :=
  ∀ contract fpc p, txContract tx = some contract → s.feePay.contracts.get? contract = some fpc →
    bondPrice s.globalFee.minimumGasPrices env.keeper.bondDenom = some p →
    Keeper.getContractUses s.feePay fpc (deductFeesFrom tx) < fpc.walletLimit → gasFee p tx < 2 ^ 64

/-- The node's own minimum gas prices, checked again by the deduct decorator: when set,
some fee coin reaches the nonzero requirement `ceil(L * G)` of its denomination. -/
def LocalMinGasRule (minGasPrices : DecCoins) (tx : Tx) : Prop :=
  DecCoins.isZero minGasPrices = true ∨
    ∃ c ∈ tx.fee, ∃ r ∈ gasFees minGasPrices tx.gas.toNat,
      r.denom = c.denom ∧ r.amount ≤ c.amount ∧ r.amount ≠ 0

def Deductible (bank : Bank) (payer : String) (fee : Coins) : Prop :=
  fee = [] ∨ (Coins.isValid fee = true ∧ ∀ c ∈ fee, c.amount ≤ bank.spendable (.account payer) c.denom)

/-- What a successful fee payment by the contract leaves: the fee moved from the module
account to the fee collector, the contract's balance lowered by it, one more use. -/
def paid (s : AnteState) (fpc : FeePayContract) (payer : String) (fee : UInt64) (bank : Bank) :
    AnteState :=
  let fpc' := { fpc with balance := fpc.balance - fee }
  { s with
    feePay := Keeper.incrementContractUses (Keeper.setContractBalance s.feePay fpc (fpc.balance - fee))
      fpc' payer 1
    bank := bank }

/-- What the fee-pay path leaves when it pays for `fpc` at price `p`: the contract's balance
lowered by the fee `ceil(p * G)`, one more use by the paying wallet, the fee in the bond
denomination moved from the feepay module account to the fee collector, nothing else. -/
structure FeePaid (env : AnteEnv) (s s' : AnteState) (tx : Tx) (fpc : FeePayContract) (p : DecCoin) :
    Prop where
  balance : ∃ fpc', s'.feePay.contracts.get? fpc.contractAddress = some fpc' ∧
    (fpc'.balance.toNat : Int) = fpc.balance.toNat - gasFee p tx ∧ fpc'.walletLimit = fpc.walletLimit
  others : ∀ c ≠ fpc.contractAddress, s'.feePay.contracts.get? c = s.feePay.contracts.get? c
  uses : (Keeper.getContractUses s'.feePay fpc (deductFeesFrom tx)).toNat =
    (Keeper.getContractUses s.feePay fpc (deductFeesFrom tx)).toNat + 1
  otherUses : ∀ key ≠ usesKey fpc.contractAddress (deductFeesFrom tx),
    s'.feePay.uses.find? key = s.feePay.uses.find? key
  moved : ∀ h d, s'.bank.balance h d = s.bank.balance h d -
    (if h = .module moduleName ∧ d = env.keeper.bondDenom then gasFee p tx else 0) +
    (if h = .module feeCollectorName ∧ d = env.keeper.bondDenom then gasFee p tx else 0)
  unchanged : s'.feePay.params = s.feePay.params ∧ s'.globalFee = s.globalFee

/-! ## The fee-pay path -/

section FeePayPath
variable (env : AnteEnv)

theorem foldl_feePrice {prices : DecCoins} (sorted : prices.Pairwise (fun a b => a.denom < b.denom))
    (acc : DecCoin) :
    prices.foldl (fun acc c => if c.denom = env.keeper.bondDenom then c else acc) acc =
      (bondPrice prices env.keeper.bondDenom).getD acc := by
  induction prices generalizing acc with
  | nil => rfl
  | cons c rest ih =>
    rw [List.pairwise_cons] at sorted
    rw [List.foldl_cons, ih sorted.2]
    by_cases bond : c.denom = env.keeper.bondDenom
    · -- No later price has the bond denomination.
      have none : bondPrice rest env.keeper.bondDenom = none := by
        rw [bondPrice, List.find?_eq_none]
        intro x hx
        simpa [← bond] using ne_of_gt (sorted.1 x hx)
      have head : bondPrice (c :: rest) env.keeper.bondDenom = some c := by simp [bondPrice, bond]
      rw [if_pos bond, none, head]
      rfl
    · simp [bondPrice, bond]

theorem feePrice_eq {prices : DecCoins} (wf : WellFormed prices) :
    DeductFeeDecorator.feePrice env prices = (bondPrice prices env.keeper.bondDenom).getD DecCoin.empty :=
  foldl_feePrice env wf.sorted DecCoin.empty

theorem bondPrice_mem {prices : DecCoins} {p : DecCoin} (h : bondPrice prices env.keeper.bondDenom = some p) :
    p ∈ prices ∧ p.denom = env.keeper.bondDenom :=
  ⟨List.mem_of_find?_eq_some h, by simpa using List.find?_some h⟩

theorem bondPrice_ne_empty {prices : DecCoins} {p : DecCoin} (bond : validateDenom env.keeper.bondDenom = true)
    (h : bondPrice prices env.keeper.bondDenom = some p) : p ≠ DecCoin.empty := by
  rintro rfl
  have same := (bondPrice_mem env h).2
  rw [← same] at bond
  exact absurd bond (by decide)

end FeePayPath

section Price
variable {env : AnteEnv} {s : AnteState} {tx : Tx} {p : DecCoin}
  (wf : WellFormed s.globalFee.minimumGasPrices)
  (price : bondPrice s.globalFee.minimumGasPrices env.keeper.bondDenom = some p)
include wf price

theorem gasFee_nonneg : 0 ≤ gasFee p tx :=
  ceilFee_nonneg (wf.nonneg p (bondPrice_mem env price).1) (Int.natCast_nonneg _)

theorem newCoin_gasFee (bond : validateDenom env.keeper.bondDenom = true) :
    newCoin p.denom (gasFee p tx) = .ok ⟨env.keeper.bondDenom, gasFee p tx⟩ := by
  have denom := (bondPrice_mem env price).2
  exact newCoin_ok_iff.mpr ⟨denom ▸ bond, gasFee_nonneg wf price, by rw [denom]⟩

end Price

section Paid
variable {env : AnteEnv} {s : AnteState} {tx : Tx} {fpc : FeePayContract} {p : DecCoin}

theorem feePaid_paid (below : Keeper.getContractUses s.feePay fpc (deductFeesFrom tx) < fpc.walletLimit)
    (nonneg : 0 ≤ gasFee p tx) (fits : gasFee p tx ≤ fpc.balance.toNat) {bank : Bank}
    (send : s.bank.sendCoinsFromModuleToModule moduleName feeCollectorName
      (if gasFee p tx = 0 then [] else [⟨env.keeper.bondDenom, gasFee p tx⟩]) = .ok bank) :
    FeePaid env s (paid s fpc (deductFeesFrom tx) (UInt64.ofNat (gasFee p tx).toNat) bank) tx fpc p := by
  have bound := UInt64.toNat_lt fpc.balance
  have small : gasFee p tx < 2 ^ 64 := by omega
  have fee := toNat_ofNat_toNat nonneg small
  have le : UInt64.ofNat (gasFee p tx).toNat ≤ fpc.balance := by
    rw [UInt64.le_iff_toNat_le]
    omega
  refine ⟨⟨_, KVStore.Keyed.get?_put_self _ _, ?_, rfl⟩, ?_, ?_, ?_, ?_, ⟨rfl, rfl⟩⟩
  · rw [UInt64.toNat_sub_of_le _ _ le]
    omega
  · intro c ne
    exact KVStore.Keyed.get?_put_ne _ _ (Ne.symm ne)
  · -- the count is below the limit, so adding one does not wrap
    have read : Keeper.getContractUses
        (paid s fpc (deductFeesFrom tx) (UInt64.ofNat (gasFee p tx).toNat) bank).feePay fpc
        (deductFeesFrom tx) = Keeper.getContractUses s.feePay fpc (deductFeesFrom tx) + 1 := by
      simp [paid, Keeper.incrementContractUses, Keeper.getContractUses, KVStore.Store.find?_set,
        Keeper.setContractBalance]
    have limit := UInt64.toNat_lt fpc.walletLimit
    rw [UInt64.lt_iff_toNat_lt] at below
    rw [read, UInt64.toNat_add, UInt64.toNat_one]
    omega
  · intro key ne
    simp [paid, Keeper.incrementContractUses, KVStore.Store.find?_set, Keeper.setContractBalance, Ne.symm ne]
  · intro h d
    show bank.balance h d = _
    rw [Bank.sendCoins_balance send, Bank.share_single, Bank.share_single]

end Paid

section HandleZeroFees
variable {env : AnteEnv} {s : AnteState} {tx : Tx} {sender contract : String} {funds : Coins}
  (msgs : tx.msgs = [.executeContract sender contract funds])
  (wf : WellFormed s.globalFee.minimumGasPrices) (bond : validateDenom env.keeper.bondDenom = true)
include msgs wf bond

theorem handleZeroFees_declines (payer : String)
    (declined : ∀ fpc p, s.feePay.contracts.get? contract = some fpc →
      bondPrice s.globalFee.minimumGasPrices env.keeper.bondDenom = some p →
      fpc.walletLimit ≤ Keeper.getContractUses s.feePay fpc payer) :
    ∃ e, DeductFeeDecorator.handleZeroFees env s payer tx = .ok (.error e) := by
  unfold DeductFeeDecorator.handleZeroFees
  simp only [msgs, Keeper.getContract, feePrice_eq env wf]
  cases found : s.feePay.contracts.get? contract with
  | none => exact ⟨_, rfl⟩
  | some fpc =>
    cases price : bondPrice s.globalFee.minimumGasPrices env.keeper.bondDenom with
    | none => exact ⟨_, rfl⟩
    | some p =>
      have exceeded : Keeper.hasWalletExceededUsageLimit s.feePay fpc payer = true :=
        decide_eq_true (declined fpc p found price)
      simp only [Option.getD_some, bondPrice_ne_empty env bond price, if_false, exceeded, if_true]
      exact ⟨_, rfl⟩

variable (small : tx.gas.toNat < 2 ^ 63) {fpc : FeePayContract} {p : DecCoin}
  (found : s.feePay.contracts.get? contract = some fpc)
  (price : bondPrice s.globalFee.minimumGasPrices env.keeper.bondDenom = some p)
include small found price

theorem handleZeroFees_found {payer : String}
    (below : Keeper.getContractUses s.feePay fpc payer < fpc.walletLimit) :
    DeductFeeDecorator.handleZeroFees env s payer tx = (do
      let fee ← intToUint64 (gasFee p tx)
      if !Keeper.canContractCoverFee fpc fee then
        return .error "contract has insufficient funds"
      let payment ← Coins.newCoins [← newCoin p.denom (gasFee p tx)]
      match s.bank.sendCoinsFromModuleToModule moduleName feeCollectorName payment with
      | .error e => return .error ("error transferring funds from FeePay to FeeCollector; " ++ e)
      | .ok bank => return .ok (paid s fpc payer fee bank)) := by
  have hp : DeductFeeDecorator.feePrice env s.globalFee.minimumGasPrices = p := by
    rw [feePrice_eq env wf, price]
    rfl
  unfold DeductFeeDecorator.handleZeroFees
  simp only [msgs, Keeper.getContract, found, hp, bondPrice_ne_empty env bond price, if_false,
    int64OfUint64_of_lt small, Keeper.hasWalletExceededUsageLimit, UInt64.not_le.mpr below, decide_false]
  rfl

variable (below : Keeper.getContractUses s.feePay fpc (deductFeesFrom tx) < fpc.walletLimit)
include below

theorem handleZeroFees_pays (fits : gasFee p tx ≤ fpc.balance.toNat)
    (funded : gasFee p tx = 0 ∨ gasFee p tx ≤ s.bank.balance (.module moduleName) env.keeper.bondDenom) :
    ∃ s', DeductFeeDecorator.handleZeroFees env s (deductFeesFrom tx) tx = .ok (.ok s') ∧
      FeePaid env s s' tx fpc p := by
  have nonneg : 0 ≤ gasFee p tx := gasFee_nonneg wf price
  have fee64 : gasFee p tx < 2 ^ 64 := lt_of_le_of_lt fits (by have := UInt64.toNat_lt fpc.balance; omega)
  obtain ⟨bank, send⟩ := (Bank.sendCoins_single_ok_iff s.bank (.module moduleName) (.module feeCollectorName)
    bond nonneg).mpr (by rwa [Bank.spendable_module])
  refine ⟨_, ?_, feePaid_paid below nonneg fits send⟩
  have covered : Keeper.canContractCoverFee fpc (UInt64.ofNat (gasFee p tx).toNat) = true := by
    rw [Keeper.canContractCoverFee, decide_eq_true_eq, UInt64.le_iff_toNat_le]
    have := toNat_ofNat_toNat nonneg fee64
    omega
  rw [handleZeroFees_found msgs wf bond small found price below, intToUint64_of_lt nonneg fee64]
  simp only [bind, Except.bind, covered, Bool.not_true, Bool.false_eq_true, if_false,
    newCoin_gasFee wf price bond, Coins.newCoins_single bond nonneg, Bank.sendCoinsFromModuleToModule, send]
  rfl

theorem handleZeroFees_refuses (fee64 : gasFee p tx < 2 ^ 64)
    (refused : ¬ (gasFee p tx ≤ fpc.balance.toNat ∧
      (gasFee p tx = 0 ∨ gasFee p tx ≤ s.bank.balance (.module moduleName) env.keeper.bondDenom))) :
    ∃ e, DeductFeeDecorator.handleZeroFees env s (deductFeesFrom tx) tx = .ok (.error e) := by
  have nonneg : 0 ≤ gasFee p tx := gasFee_nonneg wf price
  rw [handleZeroFees_found msgs wf bond small found price below, intToUint64_of_lt nonneg fee64]
  have fee := toNat_ofNat_toNat nonneg fee64
  by_cases fits : gasFee p tx ≤ fpc.balance.toNat
  · -- the contract's balance covers the fee, the module account does not
    have covered : Keeper.canContractCoverFee fpc (UInt64.ofNat (gasFee p tx).toNat) = true := by
      rw [Keeper.canContractCoverFee, decide_eq_true_eq, UInt64.le_iff_toNat_le]
      omega
    have short : ¬ ∃ bank, s.bank.sendCoins (.module moduleName) (.module feeCollectorName)
        (if gasFee p tx = 0 then [] else [⟨env.keeper.bondDenom, gasFee p tx⟩]) = .ok bank := by
      rw [Bank.sendCoins_single_ok_iff s.bank _ _ bond nonneg, Bank.spendable_module]
      exact fun funded => refused ⟨fits, funded⟩
    simp only [bind, Except.bind, covered, Bool.not_true, Bool.false_eq_true, if_false,
      newCoin_gasFee wf price bond, Coins.newCoins_single bond nonneg, Bank.sendCoinsFromModuleToModule]
    split
    · exact ⟨_, rfl⟩
    · exact absurd ⟨_, by assumption⟩ short
  · have uncovered : Keeper.canContractCoverFee fpc (UInt64.ofNat (gasFee p tx).toNat) = false := by
      rw [Keeper.canContractCoverFee, decide_eq_false_iff_not, UInt64.le_iff_toNat_le]
      omega
    simp only [bind, Except.bind, uncovered, Bool.not_false, if_true]
    exact ⟨_, rfl⟩

/-- A fee beyond 64 bits makes `Uint64()` panic, which no fallback catches. -/
theorem handleZeroFees_panics (big : 2 ^ 64 ≤ gasFee p tx) :
    ∃ e, DeductFeeDecorator.handleZeroFees env s (deductFeesFrom tx) tx = .error e := by
  rw [handleZeroFees_found msgs wf bond small found price below]
  have overflow : intToUint64 (gasFee p tx) = .error "Uint64() out of bound" := by
    unfold intToUint64
    rw [if_neg (fun h => absurd h.2 (not_lt.mpr big))]
  rw [overflow]
  exact ⟨_, rfl⟩

end HandleZeroFees

end Juno.FeePay
