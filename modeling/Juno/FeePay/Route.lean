import Juno.FeePay.Ledger

/-! The fee route as a whole.

The deduct decorator's steps in turn (the node's own minimum gas prices, the payer and
fee grant checks, the fee-pay path with its fallback, the standard deduction) are
characterised, and the route's decision is assembled from them and from the global fee
decorator's rule: a fee-pay transaction is paid by its contract or falls back to the
global fee rule; any other transaction must meet the global fee rule, the node's prices
and the deduction.
-/

set_option autoImplicit false

namespace Juno.FeePay

open Sdk KVStore GlobalFee


theorem isValidFeePayTransaction_iff (st : State) (tx : Tx) :
    isValidFeePayTransaction st tx = true ↔ st.params.enableFeepay = true ∧ Coins.isZero tx.fee = true ∧
      ∃ sender contract funds, tx.msgs = [.executeContract sender contract funds] ∧
        st.contracts.has contract = true := by
  unfold isValidFeePayTransaction
  split
  · rename_i sender contract funds msgs
    simp [msgs, Keeper.isContractRegistered, and_assoc]
  · rename_i other
    simp only [Bool.and_false, Bool.false_eq_true, false_iff, not_and]
    rintro - - ⟨sender, contract, funds, msgs, -⟩
    exact other sender contract funds msgs

theorem eq_nil_of_isZero {fee : Coins} (nonzero : ∀ c ∈ fee, c.amount ≠ 0) (zero : Coins.isZero fee = true) :
    fee = [] := by
  cases fee with
  | nil => rfl
  | cons c rest =>
    simp only [Coins.isZero, List.all_cons, Bool.and_eq_true, decide_eq_true_eq] at zero
    exact absurd zero.1 (nonzero c List.mem_cons_self)

theorem deductFees_ok_iff (bank : Bank) (payer : String) (fee : Coins) :
    (∃ bank', deductFees bank payer fee = .ok bank') ↔
      Coins.isValid fee = true ∧ ∀ c ∈ fee, c.amount ≤ bank.spendable (.account payer) c.denom := by
  rw [← Bank.sendCoins_ok_iff bank (.account payer) (.module feeCollectorName) fee]
  unfold deductFees
  by_cases valid : Coins.isValid fee = true
  · simp only [valid, Bool.not_true, Bool.false_eq_true, if_false, Bank.sendCoinsFromAccountToModule]
    cases bank.sendCoins (.account payer) (.module feeCollectorName) fee <;> simp
  · -- the fee is refused before the send, which would refuse it as well
    have refused : ¬ ∃ b', bank.sendCoins (.account payer) (.module feeCollectorName) fee = .ok b' :=
      fun sent => valid ((Bank.sendCoins_ok_iff _ _ _ _).mp sent).1
    simp [valid, refused]

theorem deductFees_nil (bank : Bank) (payer : String) : deductFees bank payer [] = .ok bank := by
  rfl


section NodePrices
variable {env : AnteEnv} {tx : Tx}

theorem checkTxFee_fee {b : Bool} {fee : Coins}
    (h : DeductFeeDecorator.checkTxFeeWithValidatorMinGasPrices env b tx = .ok fee) : fee = tx.fee := by
  unfold DeductFeeDecorator.checkTxFeeWithValidatorMinGasPrices at h
  split_ifs at h
  · rw [Atomic.bind_eq_ok] at h
    obtain ⟨required, -, rest⟩ := h
    split_ifs at rest
    · cases rest
    · cases rest
      rfl
  · cases h
    rfl

theorem checkTxFee_feePay : DeductFeeDecorator.checkTxFeeWithValidatorMinGasPrices env true tx = .ok tx.fee := by
  simp [DeductFeeDecorator.checkTxFeeWithValidatorMinGasPrices, pure, Except.pure]

theorem checkTxFee_ok_iff (check : env.ctx.isCheckTx = true) (node : WellFormed env.ctx.minGasPrices)
    (small : tx.gas.toNat < 2 ^ 63) :
    (∃ fee, DeductFeeDecorator.checkTxFeeWithValidatorMinGasPrices env false tx = .ok fee) ↔
      LocalMinGasRule env.ctx.minGasPrices tx := by
  unfold DeductFeeDecorator.checkTxFeeWithValidatorMinGasPrices LocalMinGasRule
  by_cases zero : DecCoins.isZero env.ctx.minGasPrices = true
  · simp [zero, pure, Except.pure]
  · have sorted : Coins.Sorted (gasFees env.ctx.minGasPrices tx.gas.toNat) := by
      unfold Coins.Sorted gasFees
      exact List.pairwise_map.mpr node.sorted
    rw [int64OfUint64_of_lt small, requiredFees_eq node (Int.natCast_nonneg _), ← Coins.isAnyGTE_iff sorted]
    simp only [check, zero, Bool.not_false, Bool.and_true, if_true]
    by_cases gte : Coins.isAnyGTE tx.fee (gasFees env.ctx.minGasPrices tx.gas.toNat) = true
    · simp [gte, bind, Except.bind, pure, Except.pure]
    · simp [gte, bind, Except.bind, throw, throwThe, MonadExceptOf.throw]

end NodePrices

section Deduct
variable {env : AnteEnv} {s : AnteState} {tx : Tx}

theorem checkDeductFee_ready (ready : PayerReady env tx) (b : Bool) :
    DeductFeeDecorator.checkDeductFee env s b tx tx.fee =
      if b then (do
        match ← DeductFeeDecorator.handleZeroFees env s (deductFeesFrom tx) tx with
        | .ok s => return (true, s)
        | .error feePayErr =>
          match deductFees s.bank (deductFeesFrom tx) tx.fee with
          | .ok bank => return (false, { s with bank := bank })
          | .error sdkErr =>
            throw ("error deducting fees; fee pay error: " ++ feePayErr ++ ", sdk error: " ++ sdkErr))
      else if !Coins.isZero tx.fee then (do
        let bank ← deductFees s.bank (deductFeesFrom tx) tx.fee
        return (b, { s with bank := bank }))
      else return (b, s) := by
  obtain ⟨collector, granter, known⟩ := ready
  unfold DeductFeeDecorator.checkDeductFee
  simp only [collector, Bool.not_true, Bool.false_eq_true, if_false]
  cases hg : tx.feeGranter with
  | none =>
    simp only [deductFeesFrom, hg, Option.getD_none] at known ⊢
    -- the two sides then differ only in how the restated matches are named
    conv_lhs => simp only [known, bind, Except.bind, Bool.not_true, Bool.false_eq_true, if_false]
    rfl
  | some g =>
    obtain ⟨enabled, allowed⟩ := granter g hg
    simp only [deductFeesFrom, hg, Option.getD_some] at known ⊢
    -- the granter pays when it is the payer or its grant accepts the fee
    by_cases same : g = tx.feePayer
    · subst same
      conv_lhs => simp only [enabled, known, ne_eq, not_true_eq_false, Bool.not_true, Bool.false_eq_true,
        if_false, bind, Except.bind]
      rfl
    · have used := allowed.resolve_left same
      conv_lhs => simp only [enabled, known, ne_eq, same, not_false_eq_true, used, Bool.not_true,
        Bool.false_eq_true, if_false, if_true, bind, Except.bind]
      rfl
theorem payerReady_of_ok {b : Bool} {r : Bool × AnteState}
    (ok : DeductFeeDecorator.checkDeductFee env s b tx tx.fee = .ok r) : PayerReady env tx := by
  unfold DeductFeeDecorator.checkDeductFee at ok
  by_cases collector : env.feeCollectorSet = true
  · simp only [collector, Bool.not_true, Bool.false_eq_true, if_false] at ok
    rw [Atomic.bind_eq_ok] at ok
    obtain ⟨payer, resolved, rest⟩ := ok
    have known : env.accountExists payer = true := by
      by_contra unknown
      rw [Bool.not_eq_true] at unknown
      simp [unknown, throw, throwThe, MonadExceptOf.throw, bind, Except.bind] at rest
    -- the payer the match resolves is the granter, when one is set
    cases hg : tx.feeGranter with
    | none =>
      simp only [hg, Except.ok.injEq] at resolved
      subst resolved
      refine ⟨collector, fun g none => by simp [hg] at none, ?_⟩
      simpa [deductFeesFrom, hg] using known
    | some g =>
      simp only [hg] at resolved
      by_cases enabled : env.feegrantEnabled = true
      · by_cases same : g = tx.feePayer
        · simp only [enabled, same, ne_eq, not_true_eq_false, Bool.not_true, Bool.false_eq_true, if_false,
            Except.ok.injEq] at resolved
          subst resolved
          refine ⟨collector, fun g' some => ?_, ?_⟩
          · simp only [hg, Option.some.injEq] at some
            exact ⟨enabled, Or.inl (some ▸ same)⟩
          · simpa [deductFeesFrom, hg, same] using known
        · simp only [enabled, ne_eq, same, not_false_eq_true, if_true, Bool.not_true, Bool.false_eq_true,
            if_false] at resolved
          split at resolved
          · rename_i used
            simp only [Except.ok.injEq] at resolved
            subst resolved
            refine ⟨collector, fun g' some => ?_, ?_⟩
            · simp only [hg, Option.some.injEq] at some
              exact ⟨enabled, Or.inr (some ▸ used)⟩
            · simpa [deductFeesFrom, hg] using known
          · cases resolved
      · simp [enabled] at resolved
  · simp [collector, throw, throwThe, MonadExceptOf.throw, bind, Except.bind] at ok

theorem checkDeductFee_standard_ok_iff (ready : PayerReady env tx) (nonzero : ∀ c ∈ tx.fee, c.amount ≠ 0) :
    (∃ r, DeductFeeDecorator.checkDeductFee env s false tx tx.fee = .ok r) ↔
      Deductible s.bank (deductFeesFrom tx) tx.fee := by
  rw [checkDeductFee_ready ready false, Deductible]
  simp only [Bool.false_eq_true, if_false]
  by_cases zero : Coins.isZero tx.fee = true
  · have empty := eq_nil_of_isZero nonzero zero
    simp only [zero, Bool.not_true, Bool.false_eq_true, if_false]
    exact iff_of_true ⟨_, rfl⟩ (Or.inl empty)
  · have nonempty : tx.fee ≠ [] := fun empty => zero (by rw [empty]; rfl)
    simp only [zero, Bool.not_false, if_true, nonempty, false_or, ← deductFees_ok_iff]
    cases deductFees s.bank (deductFeesFrom tx) tx.fee <;> simp [bind, Except.bind, pure, Except.pure]

end Deduct

section FeePayOutcome
variable {env : AnteEnv} {s : AnteState} {tx : Tx} {sender contract : String} {funds : Coins}
  (msgs : tx.msgs = [.executeContract sender contract funds])

include msgs in
theorem txContract_eq : txContract tx = some contract := by
  simp [txContract, msgs]

variable (wf : WellFormed s.globalFee.minimumGasPrices) (bond : validateDenom env.keeper.bondDenom = true)
  (small : tx.gas.toNat < 2 ^ 63)
include msgs wf bond small

theorem handleZeroFees_of_covers (covers : FeePayCovers env s tx) :
    ∃ s', DeductFeeDecorator.handleZeroFees env s (deductFeesFrom tx) tx = .ok (.ok s') ∧
      ∃ fpc p, s.feePay.contracts.get? contract = some fpc ∧
        bondPrice s.globalFee.minimumGasPrices env.keeper.bondDenom = some p ∧ FeePaid env s s' tx fpc p := by
  obtain ⟨c, fpc, p, hc, found, price, below, fits, funded⟩ := covers
  rw [txContract_eq msgs, Option.some.injEq] at hc
  subst hc
  obtain ⟨s', pays, effect⟩ := handleZeroFees_pays msgs wf bond small found price below fits funded
  exact ⟨s', pays, fpc, p, found, price, effect⟩

theorem handleZeroFees_of_not_covers (uncovered : ¬ FeePayCovers env s tx)
    (noPanic : FeePayNoPanic env s tx) :
    ∃ e, DeductFeeDecorator.handleZeroFees env s (deductFeesFrom tx) tx = .ok (.error e) := by
  by_cases usable : ∃ fpc p, s.feePay.contracts.get? contract = some fpc ∧
      bondPrice s.globalFee.minimumGasPrices env.keeper.bondDenom = some p ∧
      Keeper.getContractUses s.feePay fpc (deductFeesFrom tx) < fpc.walletLimit
  · -- the path reaches the balance checks and one of them fails
    obtain ⟨fpc, p, found, price, below⟩ := usable
    apply handleZeroFees_refuses msgs wf bond small found price below
      (noPanic contract fpc p (txContract_eq msgs) found price below)
    rintro ⟨fits, funded⟩
    exact uncovered ⟨contract, fpc, p, txContract_eq msgs, found, price, below, fits, funded⟩
  · apply handleZeroFees_declines msgs wf bond
    intro fpc p found price
    by_contra room
    exact usable ⟨fpc, p, found, price, UInt64.not_le.mp room⟩

theorem handleZeroFees_of_panic (panic : ¬ FeePayNoPanic env s tx) :
    ∃ e, DeductFeeDecorator.handleZeroFees env s (deductFeesFrom tx) tx = .error e := by
  unfold FeePayNoPanic at panic
  push Not at panic
  obtain ⟨c, fpc, p, hc, found, price, below, big⟩ := panic
  rw [txContract_eq msgs, Option.some.injEq] at hc
  subst hc
  exact handleZeroFees_panics msgs wf bond small found price below big

end FeePayOutcome

theorem distinct_of_deductible {bank : Bank} {payer : String} {fee : Coins}
    (h : Deductible bank payer fee) : (fee.map Coin.denom).Nodup := by
  rcases h with empty | ⟨valid, -⟩
  · rw [empty]
    exact List.nodup_nil
  · exact Coins.distinct_of_sorted (Coins.sorted_of_isValid valid)

section Route
variable {env : AnteEnv} {s : AnteState} {tx : Tx} (positive : tx.gas ≠ 0)
include positive

theorem deduct_anteHandle_feePay :
    DeductFeeDecorator.anteHandle env s true false tx = DeductFeeDecorator.checkDeductFee env s true tx tx.fee := by
  simp [DeductFeeDecorator.anteHandle, positive, checkTxFee_feePay, bind, Except.bind]

theorem route_feePay_paid (wf : WellFormed s.globalFee.minimumGasPrices)
    (bond : validateDenom env.keeper.bondDenom = true) (small : tx.gas.toNat < 2 ^ 63)
    (valid : isValidFeePayTransaction s.feePay tx = true) (covers : FeePayCovers env s tx) {s' : AnteState}
    (h : MsgIsFeePayTx.anteHandle env s false tx = .ok s') :
    ∃ contract fpc p, txContract tx = some contract ∧ s.feePay.contracts.get? contract = some fpc ∧
      bondPrice s.globalFee.minimumGasPrices env.keeper.bondDenom = some p ∧ FeePaid env s s' tx fpc p := by
  obtain ⟨-, -, sender, contract, funds, msgs, -⟩ := (isValidFeePayTransaction_iff _ _).mp valid
  unfold MsgIsFeePayTx.anteHandle at h
  simp only [valid, if_true] at h
  rw [deduct_anteHandle_feePay positive, Atomic.bind_eq_ok] at h
  obtain ⟨r, deducted, rest⟩ := h
  rw [checkDeductFee_ready (payerReady_of_ok deducted) true] at deducted
  obtain ⟨s'', pays, fpc, p, found, price, effect⟩ := handleZeroFees_of_covers msgs wf bond small covers
  simp only [if_true, pays, bind, Except.bind, pure, Except.pure, Except.ok.injEq] at deducted
  subst deducted
  simp [FeeDecorator.anteHandle, bind, Except.bind, pure, Except.pure] at rest
  subst rest
  exact ⟨contract, fpc, p, txContract_eq msgs, found, price, effect⟩

variable (check : env.ctx.isCheckTx = true) (node : WellFormed env.ctx.minGasPrices)
  (small : tx.gas.toNat < 2 ^ 63) (nonzero : ∀ c ∈ tx.fee, c.amount ≠ 0)
include check node small nonzero

theorem deduct_anteHandle_standard_ok_iff :
    (∃ r, DeductFeeDecorator.anteHandle env s false false tx = .ok r) ↔
      LocalMinGasRule env.ctx.minGasPrices tx ∧ PayerReady env tx ∧
        Deductible s.bank (deductFeesFrom tx) tx.fee := by
  have gas : decide (tx.gas = 0) = false := decide_eq_false positive
  unfold DeductFeeDecorator.anteHandle
  simp only [gas, Bool.and_false, Bool.false_eq_true, if_false, Bool.not_false, if_true]
  constructor
  · rintro ⟨r, h⟩
    rw [Atomic.bind_eq_ok] at h
    obtain ⟨fee, hfee, deducted⟩ := h
    have same := checkTxFee_fee hfee
    subst same
    have ready := payerReady_of_ok deducted
    exact ⟨(checkTxFee_ok_iff check node small).mp ⟨_, hfee⟩, ready,
      (checkDeductFee_standard_ok_iff ready nonzero).mp ⟨r, deducted⟩⟩
  · rintro ⟨atNode, ready, deductible⟩
    obtain ⟨fee, hfee⟩ := (checkTxFee_ok_iff check node small).mpr atNode
    have same := checkTxFee_fee hfee
    subst same
    obtain ⟨r, deducted⟩ := (checkDeductFee_standard_ok_iff ready nonzero).mpr deductible
    refine ⟨r, ?_⟩
    rw [Atomic.bind_eq_ok]
    exact ⟨tx.fee, hfee, deducted⟩

variable (wf : WellFormed s.globalFee.minimumGasPrices) (bond : validateDenom env.keeper.bondDenom = true)
include wf bond

theorem route_standard_ok_iff (invalid : isValidFeePayTransaction s.feePay tx = false) :
    (∃ s', MsgIsFeePayTx.anteHandle env s false tx = .ok s') ↔
      PayerReady env tx ∧
        GlobalFeeRule env.feeDecorator
          (requirement s.globalFee env.keeper.bondDenom env.ctx.minGasPrices tx.gas.toNat) tx ∧
        LocalMinGasRule env.ctx.minGasPrices tx ∧ Deductible s.bank (deductFeesFrom tx) tx.fee := by
  unfold MsgIsFeePayTx.anteHandle
  simp only [invalid, Bool.false_eq_true, if_false]
  constructor
  · rintro ⟨s', h⟩
    rw [Atomic.bind_eq_ok] at h
    obtain ⟨u, admitted, rest⟩ := h
    rw [Atomic.bind_eq_ok] at rest
    obtain ⟨r, deducted, -⟩ := rest
    obtain ⟨atNode, ready, deductible⟩ :=
      (deduct_anteHandle_standard_ok_iff positive check node small nonzero).mp ⟨r, deducted⟩
    have rule := (GlobalFee.anteHandle_ok_iff env.feeDecorator check wf bond node small
      (distinct_of_deductible deductible)).mp admitted
    exact ⟨ready, rule, atNode, deductible⟩
  · rintro ⟨ready, rule, atNode, deductible⟩
    have admitted := (GlobalFee.anteHandle_ok_iff env.feeDecorator check wf bond node small
      (distinct_of_deductible deductible)).mpr rule
    obtain ⟨r, deducted⟩ :=
      (deduct_anteHandle_standard_ok_iff positive check node small nonzero).mpr ⟨atNode, ready, deductible⟩
    refine ⟨r.2, ?_⟩
    rw [Atomic.bind_eq_ok]
    refine ⟨(), admitted, ?_⟩
    rw [Atomic.bind_eq_ok]
    exact ⟨r, deducted, rfl⟩

/-- A fee-pay transaction is paid by its contract, or falls back to the global fee rule
when the fee-pay path declines without a panic. -/
theorem route_feePay_ok_iff (valid : isValidFeePayTransaction s.feePay tx = true) :
    (∃ s', MsgIsFeePayTx.anteHandle env s false tx = .ok s') ↔
      PayerReady env tx ∧ (FeePayCovers env s tx ∨ (FeePayNoPanic env s tx ∧
        GlobalFeeRule env.feeDecorator
          (requirement s.globalFee env.keeper.bondDenom env.ctx.minGasPrices tx.gas.toNat) tx)) := by
  obtain ⟨-, zero, sender, contract, funds, msgs, -⟩ := (isValidFeePayTransaction_iff _ _).mp valid
  have empty := eq_nil_of_isZero nonzero zero
  unfold MsgIsFeePayTx.anteHandle
  simp only [valid, if_true]
  rw [deduct_anteHandle_feePay positive]
  by_cases ready : PayerReady env tx
  · rw [checkDeductFee_ready ready true]
    simp only [if_true]
    by_cases covers : FeePayCovers env s tx
    · obtain ⟨s', pays, -⟩ := handleZeroFees_of_covers msgs wf bond small covers
      simp [pays, ready, covers, bind, Except.bind, pure, Except.pure, FeeDecorator.anteHandle]
    · by_cases noPanic : FeePayNoPanic env s tx
      · -- the fallback deducts the empty fee and hands the transaction to the global fee rule
        obtain ⟨e, declined⟩ := handleZeroFees_of_not_covers msgs wf bond small covers noPanic
        have admitted := GlobalFee.anteHandle_ok_iff env.feeDecorator check wf bond node small
          (by rw [empty]; exact List.nodup_nil)
        simp only [declined, empty, deductFees_nil, bind, Except.bind, pure, Except.pure]
        rw [← admitted]
        simp only [ready, covers, noPanic, true_and, false_or]
        cases env.feeDecorator.anteHandle env.ctx false false s.globalFee env.keeper.bondDenom tx <;> simp
      · obtain ⟨e, panics⟩ := handleZeroFees_of_panic msgs wf bond small noPanic
        simp [panics, ready, covers, noPanic, bind, Except.bind]
  · simp only [ready, false_and, iff_false]
    rintro ⟨s', h⟩
    rw [Atomic.bind_eq_ok] at h
    obtain ⟨r, deducted, -⟩ := h
    exact ready (payerReady_of_ok deducted)

end Route

section Supply
open Supply
variable {env : AnteEnv} {s : AnteState} {tx : Tx}

theorem deductFees_netChange {bank bank' : Bank} {acc : String} {fees : Coins}
    (h : deductFees bank acc fees = .ok bank') (d : String) :
    NetChange (bank.balance · d) (bank'.balance · d) 0 := by
  unfold deductFees at h
  split_ifs at h
  split at h
  · rename_i sent
    cases h
    exact Bank.sendCoins_netChange sent d
  · cases h

theorem handleZeroFees_netChange {deductFeesFrom : String} {s' : AnteState}
    (h : DeductFeeDecorator.handleZeroFees env s deductFeesFrom tx = .ok (.ok s')) (d : String) :
    NetChange (s.bank.balance · d) (s'.bank.balance · d) 0 := by
  obtain ⟨_, _, _, _, -, -, -, sent, -⟩ := handleZeroFees_writes env h
  exact Bank.sendCoins_netChange sent d

theorem deduct_anteHandle_checkDeductFee {isFeePayTx simulate : Bool} {r : Bool × AnteState}
    (h : DeductFeeDecorator.anteHandle env s isFeePayTx simulate tx = .ok r) :
    DeductFeeDecorator.checkDeductFee env s isFeePayTx tx tx.fee = .ok r := by
  unfold DeductFeeDecorator.anteHandle at h
  dsimp only at h
  split at h
  · cases h
  · split at h
    · rw [Atomic.bind_eq_ok] at h
      obtain ⟨fee, checked, deducted⟩ := h
      rwa [← checkTxFee_fee checked]
    · exact h

theorem checkDeductFee_cases {b : Bool} {r : Bool × AnteState}
    (h : DeductFeeDecorator.checkDeductFee env s b tx tx.fee = .ok r) :
    DeductFeeDecorator.handleZeroFees env s (deductFeesFrom tx) tx = .ok (.ok r.2) ∨
      (∃ bank, deductFees s.bank (deductFeesFrom tx) tx.fee = .ok bank ∧ r.2 = { s with bank := bank }) ∨
      r.2 = s := by
  rw [checkDeductFee_ready (payerReady_of_ok h) b] at h
  cases b with
  | true =>
    simp only [if_true] at h
    rw [Atomic.bind_eq_ok] at h
    obtain ⟨outcome, charged, rest⟩ := h
    cases outcome with
    | ok s' =>
      -- the contract paid
      cases rest
      exact .inl charged
    | error feePayErr =>
      -- the fallback to the standard deduction
      dsimp only at rest
      split at rest
      · rename_i bank deducted
        cases rest
        exact .inr (.inl ⟨bank, deducted, rfl⟩)
      · cases rest
  | false =>
    simp only [Bool.false_eq_true, if_false] at h
    split_ifs at h
    · rw [Atomic.bind_eq_ok] at h
      obtain ⟨bank, deducted, rest⟩ := h
      cases rest
      exact .inr (.inl ⟨bank, deducted, rfl⟩)
    · cases h
      exact .inr (.inr rfl)

theorem route_deducts {simulate : Bool} {s' : AnteState}
    (h : MsgIsFeePayTx.anteHandle env s simulate tx = .ok s') :
    ∃ r, DeductFeeDecorator.anteHandle env s (isValidFeePayTransaction s.feePay tx) simulate tx = .ok r ∧
      s' = r.2 := by
  unfold MsgIsFeePayTx.anteHandle at h
  dsimp only at h
  split at h
  · -- the fee-pay decorator first, then the global fee decorator
    obtain ⟨r, deducted, rest⟩ := Atomic.bind_eq_ok.mp h
    obtain ⟨-, -, kept⟩ := Atomic.bind_eq_ok.mp rest
    exact ⟨r, deducted, (Atomic.pure_eq_ok.mp kept).symm⟩
  · -- the global fee decorator first
    obtain ⟨-, -, rest⟩ := Atomic.bind_eq_ok.mp h
    obtain ⟨r, deducted, kept⟩ := Atomic.bind_eq_ok.mp rest
    exact ⟨r, deducted, (Atomic.pure_eq_ok.mp kept).symm⟩

/-- What the route leaves: the state of a fee the contract paid, the state with the fee
deducted the standard way, or the state as it was. -/
theorem route_outcome {simulate : Bool} {s' : AnteState}
    (h : MsgIsFeePayTx.anteHandle env s simulate tx = .ok s') :
    DeductFeeDecorator.handleZeroFees env s (deductFeesFrom tx) tx = .ok (.ok s') ∨
      (∃ bank, deductFees s.bank (deductFeesFrom tx) tx.fee = .ok bank ∧ s' = { s with bank := bank }) ∨
      s' = s := by
  obtain ⟨r, deducted, rfl⟩ := route_deducts h
  exact checkDeductFee_cases (deduct_anteHandle_checkDeductFee deducted)

theorem route_netChange {simulate : Bool} {s' : AnteState}
    (h : MsgIsFeePayTx.anteHandle env s simulate tx = .ok s') (d : String) :
    NetChange (s.bank.balance · d) (s'.bank.balance · d) 0 := by
  rcases route_outcome h with paid | ⟨bank, deducted, rfl⟩ | rfl
  · exact handleZeroFees_netChange paid d
  · exact deductFees_netChange deducted d
  · exact NetChange.refl _

theorem route_feePay_accounts {simulate : Bool} {s' : AnteState}
    (valid : isValidFeePayTransaction s.feePay tx = true)
    (h : MsgIsFeePayTx.anteHandle env s simulate tx = .ok s') (addr d : String) :
    s'.bank.balance (.account addr) d = s.bank.balance (.account addr) d := by
  obtain ⟨-, zero, -⟩ := (isValidFeePayTransaction_iff _ _).mp valid
  rcases route_outcome h with paid | ⟨bank, deducted, rfl⟩ | rfl
  · obtain ⟨_, _, _, _, -, -, -, sent, -⟩ := handleZeroFees_writes env paid
    exact Bank.sendCoinsFromModuleToModule_account sent addr d
  · -- a fee the deduction accepts is valid, so a zero one is empty
    have valid : Coins.isValid tx.fee = true := ((deductFees_ok_iff _ _ _).mp ⟨bank, deducted⟩).1
    have empty := eq_nil_of_isZero (fun c mem => (Coins.positive_of_isValid valid mem).ne') zero
    rw [empty, deductFees_nil, Except.ok.injEq] at deducted
    rw [← deducted]
  · rfl

end Supply

/-! A relayer's client update, a message type the app lets through without a fee, sent
with no fee to a node whose own minimum gas price is 0.0025ujuno; no global prices are
set. -/

def relayerEnv : AnteEnv where
  ctx := ⟨1, true, [⟨"ujuno", legacyNewDecWithPrec 25 4⟩]⟩
  keeper := ⟨Bech32.identity, "ujuno", "juno10d07y265gmmuvt4z0w9aw880jnsr700jvss730"⟩
  feeDecorator := ⟨getDefaultBypassFeeMessages, maxBypassMinFeeMsgGasUsage⟩
  feeCollectorSet := true
  feegrantEnabled := true
  useGrantedFees := fun _ _ _ _ => .ok ()
  accountExists := fun _ => true

def relayerState : AnteState where
  feePay := ⟨⟨true⟩, KVStore.Keyed.empty, KVStore.Keyed.empty⟩
  globalFee := ⟨[]⟩
  bank := ⟨fun _ _ => 0, fun _ => false, fun _ _ => 0⟩

def relayerTx : Tx := ⟨[.other "/ibc.core.client.v1.MsgUpdateClient"], [], 200000, "juno1relayer", none⟩

theorem wellFormed_relayerState : WellFormed relayerState.globalFee.minimumGasPrices := by
  refine ⟨?_, ?_, ?_⟩ <;> simp [relayerState]

theorem wellFormed_relayerNode : WellFormed relayerEnv.ctx.minGasPrices :=
  ⟨List.pairwise_singleton _ _, by decide, by decide⟩

theorem bypass_tx_refused_by_node_prices :
    GlobalFeeRule relayerEnv.feeDecorator (requirement relayerState.globalFee relayerEnv.keeper.bondDenom
      relayerEnv.ctx.minGasPrices relayerTx.gas.toNat) relayerTx ∧
    isValidFeePayTransaction relayerState.feePay relayerTx = false ∧
    PayerReady relayerEnv relayerTx ∧ Deductible relayerState.bank (deductFeesFrom relayerTx) relayerTx.fee ∧
    ¬ ∃ s', MsgIsFeePayTx.anteHandle relayerEnv relayerState false relayerTx = .ok s' := by
  have bypass : relayerEnv.feeDecorator.containsOnlyBypassMinFeeMsgs relayerTx.msgs = true := by decide
  have cheap : relayerTx.gas ≤ relayerEnv.feeDecorator.maxTotalBypassMinFeeMsgGasUsage := by decide
  have invalid : isValidFeePayTransaction relayerState.feePay relayerTx = false := by decide
  have ready : PayerReady relayerEnv relayerTx := ⟨rfl, fun g h => by simp [relayerTx] at h, rfl⟩
  have deductible : Deductible relayerState.bank (deductFeesFrom relayerTx) relayerTx.fee := Or.inl rfl
  have rule : GlobalFeeRule relayerEnv.feeDecorator (requirement relayerState.globalFee relayerEnv.keeper.bondDenom
      relayerEnv.ctx.minGasPrices relayerTx.gas.toNat) relayerTx :=
    ⟨fun c hc => by simp [charged, relayerTx] at hc, Or.inl ⟨bypass, cheap⟩⟩
  refine ⟨rule, invalid, ready, deductible, ?_⟩
  -- the node's price 0.0025ujuno asks 500ujuno of 200000 gas, and the fee is empty
  have short : ¬ LocalMinGasRule relayerEnv.ctx.minGasPrices relayerTx := by
    rintro (zero | ⟨c, hc, -⟩)
    · exact absurd zero (by decide)
    · simp [relayerTx] at hc
  rw [route_standard_ok_iff (by decide) rfl wellFormed_relayerNode (by decide) (by simp [relayerTx])
    wellFormed_relayerState (by decide) invalid]
  intro accepted
  exact short accepted.2.2.1

end Juno.FeePay
