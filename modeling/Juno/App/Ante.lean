import Juno.App.Decorators
import Juno.FeePay.Route
import Juno.FeeShare.Ante

/-! The app's ante handler: the chain of decorators `NewAnteHandler` builds.

The chain runs its decorators in order and stops at the first that fails; a failed
chain's writes are discarded with its context. The decorators of the SDK, wasmd and
ibc-go check the transaction, count it, consume gas, and set signers' keys and
sequences: they are known here through their verdicts, and they move no coins. Juno's
own decorators are modelled from their sources: the message filter and the
commission-rate check, the fee route, and the fee-share payout.

Of the whole chain only the fee route and the payout write (`newAnteHandler_fees`).
Together they move coins and create or destroy none (`anteHandler_conserves_supply`):
the fee goes from its payer, or from the feepay module account, to the fee collector,
and the payout passes a part of it on to the developers. The payout splits the fee the
transaction states, not what was charged, so a fee-pay transaction, whose fee is zero,
costs no account anything and pays no developer (`feePay_tx_costs_accounts_nothing`).
-/

set_option autoImplicit false

namespace Juno.App

open Sdk

/-- The decorators of the chain that come from the SDK, wasmd and ibc-go. -/
inductive ExternalDecorator
  | setUpContext
  | limitSimulationGas
  | countTx
  | gasRegister
  | txContracts
  | extensionOptions
  | validateBasic
  | txTimeoutHeight
  | validateMemo
  | consumeGasForTxSize
  | setPubKey
  | validateSigCount
  | sigGasConsume
  | sigVerification
  | incrementSequence
  | redundantRelay
  deriving DecidableEq, Repr

/-- A decorator of the chain. -/
inductive Decorator
  | external (decorator : ExternalDecorator)
  | msgFilter
  | changeRate
  | feeRoute
  | feeSharePayout
  deriving DecidableEq, Repr

def anteDecorators : List Decorator :=
  [ -- outermost AnteDecorator. SetUpContext must be called first
    .external .setUpContext,
    -- wasm
    .external .limitSimulationGas, .external .countTx, .external .gasRegister, .external .txContracts,
    -- custom decorators
    .msgFilter, .changeRate,
    -- cosmos sdk
    .external .extensionOptions, .external .validateBasic, .external .txTimeoutHeight,
    .external .validateMemo, .external .consumeGasForTxSize,
    -- juno custom modules
    .feeRoute, .feeSharePayout,
    -- signatures
    .external .setPubKey, .external .validateSigCount, .external .sigGasConsume,
    .external .sigVerification, .external .incrementSequence,
    -- ibc
    .external .redundantRelay ]

/-- What the handler is built from: the external decorators' verdicts on a transaction,
in simulation or not, and the keepers Juno's decorators read. -/
structure HandlerOptions where
  verdict : ExternalDecorator → Bool → Tx → Except String Unit
  stakingKeeper : Decorators.StakingKeeper
  fees : FeePay.AnteEnv
  feeShareKeeper : FeeShare.Keeper

/-- The state the chain writes: the fee route's and the fee-share module's. -/
structure AnteState where
  fees : FeePay.AnteState
  feeShare : FeeShare.State

namespace Decorator

variable (options : HandlerOptions) (simulate : Bool) (tx : Tx)

/-- One decorator's `AnteHandle`, with the rest of the chain as `next`. -/
def anteHandle : Decorator → AnteState → Except String AnteState
  | .external decorator, s => do
    options.verdict decorator simulate tx
    pure s
  | .msgFilter, s => do
    Decorators.msgFilterAnteHandle options.fees.ctx tx
    pure s
  | .changeRate, s => do
    (Decorators.newChangeRateDecorator options.stakingKeeper).anteHandle tx
    pure s
  | .feeRoute, s => do
    let fees ← FeePay.MsgIsFeePayTx.anteHandle options.fees s.fees simulate tx
    pure { s with fees := fees }
  | .feeSharePayout, s => do
    let bank ← FeeShare.FeeSharePayoutDecorator.anteHandle options.feeShareKeeper s.feeShare s.fees.bank tx
    pure { s with fees := { s.fees with bank := bank } }

/-- The decorators that only check: they pass the state on as it was. -/
def isCheck : Decorator → Bool
  | .feeRoute | .feeSharePayout => false
  | _ => true

end Decorator

def newAnteHandler (options : HandlerOptions) (s : AnteState) (simulate : Bool) (tx : Tx) :
    Except String AnteState :=
  anteDecorators.foldlM (fun s decorator => decorator.anteHandle options simulate tx s) s

/-! ### What the chain writes -/

section Chain
variable {options : HandlerOptions} {simulate : Bool} {tx : Tx}

theorem Decorator.anteHandle_of_isCheck {decorator : Decorator} (check : decorator.isCheck = true)
    {s s' : AnteState} (h : decorator.anteHandle options simulate tx s = .ok s') : s' = s := by
  cases decorator with
  | external e | msgFilter | changeRate =>
    obtain ⟨-, -, kept⟩ := Atomic.bind_eq_ok.mp h
    exact (Atomic.pure_eq_ok.mp kept).symm
  | feeRoute | feeSharePayout => cases check

/-- Of the chain only the fee route and then the payout write: the checks around them pass
the state on. -/
theorem newAnteHandler_fees {s s' : AnteState} (h : newAnteHandler options s simulate tx = .ok s') :
    ∃ routed bank, FeePay.MsgIsFeePayTx.anteHandle options.fees s.fees simulate tx = .ok routed ∧
      FeeShare.FeeSharePayoutDecorator.anteHandle options.feeShareKeeper s.feeShare routed.bank tx = .ok bank ∧
      s' = { s with fees := { routed with bank := bank } } := by
  unfold newAnteHandler at h
  have writes := Atomic.foldlM_filter_of_keeps _ Decorator.isCheck anteDecorators
    (fun _ _ _ check step => Decorator.anteHandle_of_isCheck check step) h
  -- the writing decorators of the chain are the route and the payout, in this order
  have writers : anteDecorators.filter (fun decorator => !decorator.isCheck) = [.feeRoute, .feeSharePayout] := rfl
  rw [writers, List.foldlM_cons, Atomic.bind_eq_ok] at writes
  obtain ⟨t, routedStep, rest⟩ := writes
  rw [List.foldlM_cons, Atomic.bind_eq_ok] at rest
  obtain ⟨u, paidStep, last⟩ := rest
  cases last
  obtain ⟨routed, routedOk, routedKept⟩ := Atomic.bind_eq_ok.mp routedStep
  obtain rfl := Atomic.pure_eq_ok.mp routedKept
  obtain ⟨bank, paidOk, paidKept⟩ := Atomic.bind_eq_ok.mp paidStep
  obtain rfl := Atomic.pure_eq_ok.mp paidKept
  exact ⟨routed, bank, routedOk, paidOk, rfl⟩

theorem newAnteHandler_of_fees {s : AnteState} (verdicts : ∀ e, options.verdict e simulate tx = .ok ())
    (policy : Decorators.policyAnteHandle options.stakingKeeper options.fees.ctx tx = .ok ())
    {routed : FeePay.AnteState} (routedOk : FeePay.MsgIsFeePayTx.anteHandle options.fees s.fees simulate tx = .ok routed)
    {bank : Bank}
    (paidOk : FeeShare.FeeSharePayoutDecorator.anteHandle options.feeShareKeeper s.feeShare routed.bank tx = .ok bank) :
    newAnteHandler options s simulate tx = .ok { s with fees := { routed with bank := bank } } := by
  obtain ⟨_, filtered, changed⟩ := Atomic.bind_eq_ok.mp policy
  simp [newAnteHandler, anteDecorators, Decorator.anteHandle, verdicts, filtered, changed, routedOk, paidOk,
    bind, Except.bind, pure, Except.pure]

end Chain

def deliverOptions : HandlerOptions where
  verdict := fun _ _ _ => .ok ()
  stakingKeeper := ⟨Bech32.identity, fun _ => .error "validator does not exist"⟩
  fees := ⟨⟨1, false, []⟩, ⟨Bech32.identity, "ujuno", FeeShare.govAuthority⟩,
    ⟨GlobalFee.getDefaultBypassFeeMessages, GlobalFee.maxBypassMinFeeMsgGasUsage⟩, true, true,
    fun _ _ _ _ => .ok (), fun _ => true⟩
  feeShareKeeper := FeeShare.payoutKeeper

def payerBank : Bank :=
  ⟨fun h d => if h = .account "juno1deployer" ∧ d = "ujuno" then 10 else 0, fun _ => false, fun _ _ => 0⟩

def deliverState : AnteState := ⟨⟨⟨⟨false⟩, KVStore.Keyed.empty, KVStore.Keyed.empty⟩, ⟨[]⟩, payerBank⟩,
  FeeShare.payoutState⟩

def feeTx : Tx := ⟨FeeShare.payoutMsgs, [⟨"ujuno", 3⟩], 200000, "juno1deployer", none⟩

theorem payoutMsgs_pass_policy {tx : Tx} (msgs : tx.msgs = FeeShare.payoutMsgs) :
    Decorators.policyAnteHandle deliverOptions.stakingKeeper deliverOptions.fees.ctx tx = .ok () := by
  simp [Decorators.policyAnteHandle, Decorators.msgFilterAnteHandle, Decorators.hasInvalidMsgs,
    Decorators.MsgChangeRateDecorator.anteHandle, Decorators.MsgChangeRateDecorator.hasInvalidCommissionRateMsgs,
    msgs, FeeShare.payoutMsgs, bind, Except.bind]

theorem feeTx_accepted : ∃ s', newAnteHandler deliverOptions deliverState false feeTx = .ok s' := by
  have charged : Coins.isZero [⟨"ujuno", 3⟩] = false := by decide
  have valid : Coins.isValid [⟨"ujuno", 3⟩] = true := by decide
  obtain ⟨deducted, sent⟩ : ∃ b', payerBank.sendCoins (.account "juno1deployer") (.module feeCollectorName)
      [⟨"ujuno", 3⟩] = .ok b' := by
    rw [Bank.sendCoins_ok_iff]
    exact ⟨valid, by simp [payerBank, Bank.spendable, Bank.lockedCoins]⟩
  have routed : FeePay.MsgIsFeePayTx.anteHandle deliverOptions.fees deliverState.fees false feeTx =
      .ok { deliverState.fees with bank := deducted } := by
    simp [FeePay.MsgIsFeePayTx.anteHandle, FeePay.isValidFeePayTransaction, deliverState, deliverOptions,
      GlobalFee.FeeDecorator.anteHandle, FeePay.DeductFeeDecorator.anteHandle,
      FeePay.DeductFeeDecorator.checkTxFeeWithValidatorMinGasPrices, FeePay.DeductFeeDecorator.checkDeductFee,
      FeePay.deductFees, Bank.sendCoinsFromAccountToModule, feeTx, charged, valid, sent, bind, Except.bind, pure, Except.pure]
  -- the fee collector now holds the 3ujuno, of which the withdrawer's share is 2ujuno
  have collected : deducted.balance (.module feeCollectorName) "ujuno" = 3 := by
    rw [Bank.sendCoins_balance sent]
    simp [payerBank, Bank.share, Coins.total]
  have unblocked : deducted.blocked "juno1withdrawer" = false := by
    rw [Bank.sendCoins_blocked sent]
    rfl
  obtain ⟨shared, paid⟩ : ∃ b', deducted.sendCoins (.module feeCollectorName) (.account "juno1withdrawer")
      [⟨"ujuno", 2⟩] = .ok b' := by
    rw [Bank.sendCoins_ok_iff]
    exact ⟨by decide, by simp [collected]⟩
  have enabled : FeeShare.defaultParams.enableFeeShare = true := rfl
  have payout : FeeShare.FeeSharePayoutDecorator.anteHandle FeeShare.payoutKeeper FeeShare.payoutState deducted feeTx =
      .ok shared := by
    simp [FeeShare.FeeSharePayoutDecorator.anteHandle, FeeShare.Keeper.feeSharePayout, enabled, feeTx,
      FeeShare.payoutMsgs_payees, show FeeShare.payoutState.params = FeeShare.defaultParams from rfl,
      FeeShare.collectorFee_split, FeeShare.payEvenly, Bank.sendCoinsFromModuleToAccount, unblocked, paid,
      bind, Except.bind, pure, Except.pure]
  exact ⟨_, newAnteHandler_of_fees (fun _ => rfl) (payoutMsgs_pass_policy rfl) routed payout⟩

/-- A fee-pay transaction the ante handler accepts leaves every account's balance as it
was: its charge moves from the feepay module account to the fee collector, and its zero fee
pays no developer. -/
theorem feePay_tx_costs_accounts_nothing (options : HandlerOptions) (s s' : AnteState) (simulate : Bool)
    (tx : Tx) (feePay : FeePay.isValidFeePayTransaction s.fees.feePay tx = true)
    (accepted : newAnteHandler options s simulate tx = .ok s') (addr d : String) :
    s'.fees.bank.balance (.account addr) d = s.fees.bank.balance (.account addr) d := by
  obtain ⟨routed, bank, routedOk, paidOk, rfl⟩ := newAnteHandler_fees accepted
  have zero : Coins.isZero tx.fee = true := ((FeePay.isValidFeePayTransaction_iff _ _).mp feePay).2.1
  have unpaid := FeeShare.feeSharePayout_of_isZero zero (FeeShare.FeeSharePayoutDecorator.anteHandle_ok paidOk)
  rw [unpaid]
  exact FeePay.route_feePay_accounts feePay routedOk addr d

/-! The same contract, registered with feepay and prepaid 1000ujuno, pays for a call without
a fee: 200000 gas at the global price of 0.0025ujuno cost it 500ujuno. -/

def prepaidBank : Bank :=
  ⟨fun h d => if h = .module FeePay.moduleName ∧ d = "ujuno" then 1000 else 0, fun _ => false, fun _ _ => 0⟩

def feePayState : AnteState :=
  ⟨⟨⟨⟨true⟩, KVStore.Keyed.empty.put ⟨"juno1contract", 1000, 10⟩, KVStore.Keyed.empty⟩,
    ⟨[⟨"ujuno", legacyNewDecWithPrec 25 4⟩]⟩, prepaidBank⟩, FeeShare.payoutState⟩

def feePayTx : Tx := ⟨FeeShare.payoutMsgs, [], 200000, "juno1deployer", none⟩

theorem feePayTx_accepted : ∃ s', newAnteHandler deliverOptions feePayState false feePayTx = .ok s' := by
  have valid : FeePay.isValidFeePayTransaction feePayState.fees.feePay feePayTx = true := by decide
  have wf : GlobalFee.WellFormed feePayState.fees.globalFee.minimumGasPrices :=
    ⟨List.pairwise_singleton _ _, by decide, by decide⟩
  have msgs : feePayTx.msgs = [.executeContract "juno1deployer" "juno1contract" []] := rfl
  have found : feePayState.fees.feePay.contracts.get? "juno1contract" = some ⟨"juno1contract", 1000, 10⟩ := by
    decide
  have price : FeePay.bondPrice feePayState.fees.globalFee.minimumGasPrices deliverOptions.fees.keeper.bondDenom =
      some ⟨"ujuno", legacyNewDecWithPrec 25 4⟩ := by decide
  obtain ⟨charged, pays, -⟩ := FeePay.handleZeroFees_pays msgs wf (by decide) (by decide) found price (by decide)
    (by decide) (by decide)
  have ready : FeePay.PayerReady deliverOptions.fees feePayTx := ⟨rfl, fun g h => by simp [feePayTx] at h, rfl⟩
  have routed : FeePay.MsgIsFeePayTx.anteHandle deliverOptions.fees feePayState.fees false feePayTx = .ok charged := by
    unfold FeePay.MsgIsFeePayTx.anteHandle
    simp only [valid, if_true]
    rw [FeePay.deduct_anteHandle_feePay (by decide), FeePay.checkDeductFee_ready ready true]
    have delivered : deliverOptions.fees.ctx.isCheckTx = false := rfl
    simp [pays, GlobalFee.FeeDecorator.anteHandle, delivered, bind, Except.bind, pure, Except.pure]
  -- the charge leaves the withdrawer unblocked, and a zero fee is split into no coins
  have unblocked : charged.bank.blocked "juno1withdrawer" = false := by
    obtain ⟨_, _, _, _, -, -, -, sent, -⟩ := FeePay.handleZeroFees_writes deliverOptions.fees pays
    rw [Bank.sendCoins_blocked sent]
    rfl
  have enabled : FeeShare.defaultParams.enableFeeShare = true := rfl
  have payout : FeeShare.FeeSharePayoutDecorator.anteHandle FeeShare.payoutKeeper FeeShare.payoutState charged.bank
      feePayTx = .ok charged.bank := by
    simp [FeeShare.FeeSharePayoutDecorator.anteHandle, FeeShare.Keeper.feeSharePayout, enabled, feePayTx,
      FeeShare.payoutMsgs_payees, show FeeShare.payoutState.params = FeeShare.defaultParams from rfl,
      FeeShare.feePayLogic_of_isZero (FeeShare.allowedFees_of_isZero _ (rfl : Coins.isZero [] = true)),
      FeeShare.payEvenly, Bank.sendCoinsFromModuleToAccount, unblocked, Bank.sendCoins_nil, bind, Except.bind,
      pure, Except.pure]
  exact ⟨_, newAnteHandler_of_fees (fun _ => rfl) (payoutMsgs_pass_policy rfl) routed payout⟩

theorem feePay_tx_leaves_payer :
    FeePay.isValidFeePayTransaction feePayState.fees.feePay feePayTx = true ∧
      ∃ s', newAnteHandler deliverOptions feePayState false feePayTx = .ok s' ∧
        s'.fees.bank.balance (.account "juno1deployer") "ujuno" =
          feePayState.fees.bank.balance (.account "juno1deployer") "ujuno" := by
  obtain ⟨s', accepted⟩ := feePayTx_accepted
  have valid : FeePay.isValidFeePayTransaction feePayState.fees.feePay feePayTx = true := by decide
  exact ⟨valid, s', accepted,
    feePay_tx_costs_accounts_nothing deliverOptions feePayState s' false feePayTx valid accepted "juno1deployer" "ujuno"⟩

end Juno.App
