import Juno.FeePay.Ledger

/-! Wallet usage counts of the feepay contracts.

The fee-pay path covers a transaction for a contract and the wallet its fee is
deducted from only while the wallet's usage count is below the contract's wallet
limit, and then adds one to the count. No other operation lowers a count.
Unregistering is meant to clear the contract's counts, but it reads their keys
relative to the usage prefix and deletes them from the module store, where they
name nothing: every count survives, also into a new registration of the contract.

So over a run in which the contract's limit never rises above its limit at the
start, the transactions it covers for one wallet are at most that limit less the
wallet's count at the start.
-/

set_option autoImplicit false

namespace Juno.FeePay

open Sdk KVStore

def usesAt (s : State) (key : String) : Nat := ((s.uses.find? key).getD 0).toNat

theorem getContractUses_toNat (s : State) (fpc : FeePayContract) (w : String) :
    (Keeper.getContractUses s fpc w).toNat = usesAt s (usesKey fpc.contractAddress w) := rfl

def chargedContract (tx : Tx) : Option String :=
  match tx.msgs with
  | .executeContract _ contract _ :: _ => some contract
  | _ => none

section Steps
variable (env : AnteEnv) (wasm : String → Option ContractInfo) {s s' : AnteState}

theorem handleZeroFees_paid {w : String} {tx : Tx} (h : DeductFeeDecorator.handleZeroFees env s w tx = .ok (.ok s')) :
    ∃ contract fpc fee bank, chargedContract tx = some contract ∧ s.feePay.contracts.get? contract = some fpc ∧
      Keeper.hasWalletExceededUsageLimit s.feePay fpc w = false ∧ s' = paid s fpc w fee bank := by
  unfold DeductFeeDecorator.handleZeroFees at h
  split at h
  · rename_i contract _ _ msgs
    split at h
    · cases h
    · rename_i fpc found
      dsimp only at h
      split_ifs at h with empty exceeded
      · cases h
      · cases h
      obtain ⟨fee, -, rest⟩ := Atomic.bind_eq_ok.mp h
      split_ifs at rest with uncovered
      · cases rest
      obtain ⟨coin, -, rest⟩ := Atomic.bind_eq_ok.mp rest
      obtain ⟨payment, -, rest⟩ := Atomic.bind_eq_ok.mp rest
      split at rest
      · cases rest
      rename_i bank _
      rw [Atomic.pure_eq_ok] at rest
      cases rest
      exact ⟨contract, fpc, fee, bank, by simp [chargedContract, msgs], getContract_ok found,
        by simpa using exceeded, rfl⟩
  · cases h

theorem usesAt_paid {fpc : FeePayContract} {w : String} {fee : UInt64} {bank : Bank}
    (below : Keeper.hasWalletExceededUsageLimit s.feePay fpc w = false) (key : String) :
    usesAt (paid s fpc w fee bank).feePay key =
      usesAt s.feePay key + if key = usesKey fpc.contractAddress w then 1 else 0 := by
  have lt : (Keeper.getContractUses s.feePay fpc w).toNat < fpc.walletLimit.toNat := by
    simpa [Keeper.hasWalletExceededUsageLimit, UInt64.le_iff_toNat_le] using below
  -- rewriting the record keeps the counts, so the count read before the increment is the old one
  have unchanged : Keeper.getContractUses (Keeper.setContractBalance s.feePay fpc (fpc.balance - fee))
      { fpc with balance := fpc.balance - fee } w = Keeper.getContractUses s.feePay fpc w := rfl
  simp only [usesAt, paid, Keeper.incrementContractUses, unchanged]
  simp only [Keeper.setContractBalance, Store.find?_set]
  split
  · rename_i same
    subst same
    -- the count stays below the limit, a `uint64`, so adding one does not wrap
    have fits : (Keeper.getContractUses s.feePay fpc w).toNat + 1 < 2 ^ 64 :=
      lt_of_le_of_lt lt (UInt64.toNat_lt _)
    simp only [Option.getD_some, if_true, UInt64.toNat_add, UInt64.toNat_one]
    rw [Nat.mod_eq_of_lt fits]
    rfl
  · rename_i ne
    rw [if_neg (Ne.symm ne)]
    rfl

theorem usesAt_deliver_le (hrp : JunoAddresses env.keeper.codec) {op : Operation}
    (h : deliver env wasm s op = .ok s') (key : String) : usesAt s.feePay key ≤ usesAt s'.feePay key := by
  cases op with
  | registerFeePayContract senderAddress fpc =>
    simp only [deliver, Atomic.bind_eq_ok, Atomic.pure_eq_ok] at h
    obtain ⟨feePay, registered, rfl⟩ := h
    obtain ⟨-, rfl⟩ := registerContract_writes env.keeper wasm registered
    exact le_refl _
  | fundFeePayContract senderAddress contractAddress amount =>
    simp only [deliver, Atomic.bind_eq_ok, Atomic.pure_eq_ok] at h
    obtain ⟨r, funded, rfl⟩ := h
    obtain ⟨fpc, c, senderAddr, amount64, -, -, -, -, -, written⟩ := fundFeePayContract_writes env.keeper funded
    rw [written]
    exact le_refl _
  | updateFeePayContractWalletLimit senderAddress contractAddress walletLimit =>
    simp only [deliver, Atomic.bind_eq_ok, Atomic.pure_eq_ok] at h
    obtain ⟨feePay, updated, rfl⟩ := h
    obtain ⟨fpc, -, rfl⟩ := updateFeePayContractWalletLimit_writes env.keeper wasm updated
    exact le_refl _
  | unregisterFeePayContract senderAddress contractAddress =>
    simp only [deliver, Atomic.bind_eq_ok, Atomic.pure_eq_ok] at h
    obtain ⟨r, unregistered, rfl⟩ := h
    rw [unregisterFeePayContract_state env.keeper wasm hrp unregistered]
    exact le_refl _
  | handleZeroFees deductFeesFrom tx =>
    simp only [deliver] at h
    split at h
    · rename_i s'' charged
      cases h
      obtain ⟨contract, fpc, fee, bank, -, -, below, rfl⟩ := handleZeroFees_paid env charged
      rw [usesAt_paid below]
      exact Nat.le_add_right _ _
    · cases h
    · cases h

end Steps

/-! ### Transactions a contract covers over a run -/

/-- The operation is a transaction of wallet `w` whose fee contract `c` covers. -/
def covers (env : AnteEnv) (wasm : String → Option ContractInfo) (c w : String) (s : AnteState) :
    Operation → Bool
  | .handleZeroFees payer tx =>
    payer == w && chargedContract tx == some c && (deliver env wasm s (.handleZeroFees payer tx)).isOk
  | _ => false

def coveredCount (env : AnteEnv) (wasm : String → Option ContractInfo) (c w : String) :
    AnteState → List Operation → Nat
  | _, [] => 0
  | s, op :: rest =>
    (if covers env wasm c w s op then 1 else 0) + coveredCount env wasm c w (Atomic.commit (deliver env wasm) s op) rest

section Run
variable (env : AnteEnv) (wasm : String → Option ContractInfo) {c w : String}

theorem handleZeroFees_uses {s s' : AnteState} {tx : Tx}
    (h : DeductFeeDecorator.handleZeroFees env s w tx = .ok (.ok s')) :
    ∃ c fpc, chargedContract tx = some c ∧ s.feePay.contracts.get? c = some fpc ∧
      usesAt s.feePay (usesKey c w) < fpc.walletLimit.toNat ∧
      usesAt s'.feePay (usesKey c w) = usesAt s.feePay (usesKey c w) + 1 := by
  obtain ⟨c, fpc, fee, bank, charged, found, below, rfl⟩ := handleZeroFees_paid env h
  have key : fpc.contractAddress = c := Keyed.key_of_get? found
  have lt : usesAt s.feePay (usesKey c w) < fpc.walletLimit.toNat := by
    rw [← key, ← getContractUses_toNat]
    simpa [Keeper.hasWalletExceededUsageLimit, UInt64.le_iff_toNat_le] using below
  refine ⟨c, fpc, charged, found, lt, ?_⟩
  rw [usesAt_paid below, key, if_pos rfl]

/-- A covered transaction found the contract with the wallet below its limit, and added one to
the wallet's count. -/
theorem covers_step {s : AnteState} {op : Operation} (covered : covers env wasm c w s op = true) :
    ∃ fpc, s.feePay.contracts.get? c = some fpc ∧ usesAt s.feePay (usesKey c w) < fpc.walletLimit.toNat ∧
      ∃ s', deliver env wasm s op = .ok s' ∧ usesAt s'.feePay (usesKey c w) = usesAt s.feePay (usesKey c w) + 1 := by
  cases op with
  | handleZeroFees payer tx =>
    simp only [covers, Bool.and_eq_true, beq_iff_eq] at covered
    obtain ⟨⟨rfl, charged⟩, succeeded⟩ := covered
    cases delivered : deliver env wasm s (.handleZeroFees payer tx) with
    | error e =>
      rw [delivered] at succeeded
      cases succeeded
    | ok s' =>
      have paidFor : DeductFeeDecorator.handleZeroFees env s payer tx = .ok (.ok s') := by
        simp only [deliver] at delivered
        split at delivered
        · cases delivered
          assumption
        · cases delivered
        · cases delivered
      obtain ⟨c', fpc, charged', found, below, counted⟩ := handleZeroFees_uses env paidFor
      have same : c' = c := Option.some.inj (charged'.symm.trans charged)
      subst same
      exact ⟨fpc, found, below, s', rfl, counted⟩
  | _ => simp [covers] at covered

/-- Over a run in which the contract's limit is at most `L` whenever it is registered, the
transactions of `w` it covers are at most `L` less the wallet's count at the start. The
induction is on the run; a covered transaction uses up one unit of `L`, any other operation
keeps or raises the count. -/
theorem coveredCount_le (hrp : JunoAddresses env.keeper.codec) (L : Nat) (s : AnteState) (run : List Operation)
    (bounded : ∀ pre, pre <+: run → ∀ fpc', (Atomic.execute (deliver env wasm) s pre).feePay.contracts.get? c = some fpc' →
      fpc'.walletLimit.toNat ≤ L) :
    coveredCount env wasm c w s run ≤ L - usesAt s.feePay (usesKey c w) := by
  induction run generalizing s with
  | nil => simp [coveredCount]
  | cons op rest ih =>
    have later := ih (Atomic.commit (deliver env wasm) s op) (fun pre pfx fpc' found =>
      bounded (op :: pre) (List.cons_prefix_cons.mpr ⟨rfl, pfx⟩) fpc' (by rwa [Atomic.execute_cons]))
    rw [coveredCount]
    by_cases covered : covers env wasm c w s op = true
    · obtain ⟨fpc, found, below, s', delivered, counted⟩ := covers_step env wasm covered
      have limit := bounded [] (List.nil_prefix) fpc (by rwa [Atomic.execute_nil])
      rw [Atomic.commit_of_ok delivered, counted] at later
      rw [if_pos covered, Atomic.commit_of_ok delivered]
      omega
    · have raised : usesAt s.feePay (usesKey c w) ≤
          usesAt (Atomic.commit (deliver env wasm) s op).feePay (usesKey c w) := by
        rcases @Atomic.commit_cases AnteState Operation String (deliver env wasm) s op with same | committed
        · rw [same]
        · exact usesAt_deliver_le env wasm hrp committed _
      rw [if_neg covered]
      omega

theorem wallet_limit_enforced (hrp : JunoAddresses env.keeper.codec) (s : AnteState) (run : List Operation)
    {fpc : FeePayContract} (registered : s.feePay.contracts.get? c = some fpc)
    (notRaised : ∀ pre, pre <+: run → ∀ fpc',
      (Atomic.execute (deliver env wasm) s pre).feePay.contracts.get? c = some fpc' → fpc'.walletLimit ≤ fpc.walletLimit) :
    (∀ s₁ tx s₂, DeductFeeDecorator.handleZeroFees env s₁ w tx = .ok (.ok s₂) → chargedContract tx = some c →
      ∃ fpc₁, s₁.feePay.contracts.get? c = some fpc₁ ∧ Keeper.getContractUses s₁.feePay fpc₁ w < fpc₁.walletLimit ∧
        (Keeper.getContractUses s₂.feePay fpc₁ w).toNat = (Keeper.getContractUses s₁.feePay fpc₁ w).toNat + 1) ∧
    coveredCount env wasm c w s run ≤ fpc.walletLimit.toNat - (Keeper.getContractUses s.feePay fpc w).toNat := by
  constructor
  · intro s₁ tx s₂ h charged
    obtain ⟨c', fpc₁, charged', found, below, counted⟩ := handleZeroFees_uses env h
    have same : c' = c := Option.some.inj (charged'.symm.trans charged)
    subst same
    have key : fpc₁.contractAddress = c' := Keyed.key_of_get? found
    refine ⟨fpc₁, found, ?_, ?_⟩
    · rw [UInt64.lt_iff_toNat_lt, getContractUses_toNat, key]
      exact below
    · rw [getContractUses_toNat, getContractUses_toNat, key]
      exact counted
  · have key : fpc.contractAddress = c := Keyed.key_of_get? registered
    rw [getContractUses_toNat, key]
    apply coveredCount_le env wasm hrp _ s run
    intro pre pfx fpc' found
    exact UInt64.le_iff_toNat_le.mp (notRaised pre pfx fpc' found)

end Run

/-! ### The eligibility query

`FeePayWalletIsEligible` reads the usage count alone. So it never turns away a wallet the
fee-pay path covers, though it may answer eligible where the path refuses for the contract's
balance or a missing fee price. -/

section Eligibility

variable (env : AnteEnv) {s s' : AnteState}

theorem feePayWalletIsEligible_ok_iff (k : Keeper) (st : State) (c w : String) :
    k.feePayWalletIsEligible st c w = .ok true ↔
      (k.codec.decode c).isSome ∧ (k.codec.decode w).isSome ∧
        ∃ fpc, st.contracts.get? c = some fpc ∧ Keeper.hasWalletExceededUsageLimit st fpc w = false := by
  unfold Keeper.feePayWalletIsEligible Keeper.isWalletEligible Keeper.getContract
  -- both decodings, then the record lookup, in the order the query makes them
  cases decodedC : k.codec.decode c <;> cases decodedW : k.codec.decode w <;> cases st.contracts.get? c <;>
    simp [Bech32.accAddressFromBech32, decodedC, decodedW, Except.mapError, bind, Except.bind]

/-- The eligibility query never turns away a wallet the fee-pay path covers: when the path pays
for a transaction of the wallet `w` on the contract it calls, and both addresses decode, the
query for them in the state the path started from answers eligible. -/
theorem walletIsEligible_of_covered {w contract : String} {tx : Tx} (charged : chargedContract tx = some contract)
    (covered : DeductFeeDecorator.handleZeroFees env s w tx = .ok (.ok s'))
    (contractDecodes : (env.keeper.codec.decode contract).isSome)
    (walletDecodes : (env.keeper.codec.decode w).isSome) :
    env.keeper.feePayWalletIsEligible s.feePay contract w = .ok true := by
  obtain ⟨called, fpc, -, -, charges, found, below, -⟩ := handleZeroFees_paid env covered
  obtain rfl : called = contract := Option.some.inj (charges.symm.trans charged)
  exact (feePayWalletIsEligible_ok_iff env.keeper s.feePay called w).mpr
    ⟨contractDecodes, walletDecodes, fpc, found, below⟩

end Eligibility

/-! ### A contract with one used wallet -/

def lowerJunoCodec : Bech32 where
  decode s := if "juno1".toList.isPrefixOf s.toList then some s else none
  decode_canonical s a h := by
    by_cases juno : "juno1".toList.isPrefixOf s.toList = true
    · rw [if_pos juno, Option.some.injEq] at h
      subst h
      rw [if_pos juno]
    · rw [if_neg juno] at h
      cases h
  bytes := textBytes
  bytes_injective := textBytes_injective

theorem junoAddresses_lowerJunoCodec : JunoAddresses lowerJunoCodec := by
  intro s a decoded
  by_cases juno : "juno1".toList.isPrefixOf s.toList = true
  · left
    rw [String.startsWith_string_iff]
    exact List.isPrefixOf_iff_prefix.mp juno
  · have rejected : lowerJunoCodec.decode s = none := if_neg juno
    rw [rejected] at decoded
    cases decoded

def usageKeeper : Keeper := { wrapKeeper with codec := lowerJunoCodec }

def usageEnv : AnteEnv := { wrapEnv with keeper := usageKeeper }

def usedState : AnteState :=
  ⟨⟨⟨true⟩, Keyed.empty.put ⟨"juno1contract", 0, 10⟩, Keyed.empty.put ("juno1contract-juno1wallet", 1)⟩,
    ⟨[⟨"ujuno", legacyNewDec 0⟩]⟩, wrapGenesis.bank⟩

theorem unregister_keeps_usage_count :
    (usageKeeper.unregisterFeePayContract wrapWasm usedState.feePay usedState.bank "juno1creator" "juno1contract").map
      (fun r => (r.1.contracts.get? "juno1contract", Keeper.getContractUses r.1 ⟨"juno1contract", 0, 10⟩ "juno1wallet")) =
      .ok (none, 1) := by
  cases unregistered : usageKeeper.unregisterFeePayContract wrapWasm usedState.feePay usedState.bank "juno1creator"
    "juno1contract" with
  | error e =>
    have succeeds : (usageKeeper.unregisterFeePayContract wrapWasm usedState.feePay usedState.bank "juno1creator"
        "juno1contract").isOk = true := by decide +kernel
    rw [unregistered] at succeeds
    cases succeeds
  | ok r =>
    -- the record goes; the usage key read relative to its prefix names nothing in the module store
    simp only [Except.map]
    rw [unregisterFeePayContract_state usageKeeper wrapWasm junoAddresses_lowerJunoCodec unregistered]
    decide

def freeTx : Tx := ⟨[.executeContract "juno1wallet" "juno1contract" []], [], 100, "juno1wallet", none⟩

theorem wallet_covered_once :
    coveredCount usageEnv wrapWasm "juno1contract" "juno1wallet" usedState [.handleZeroFees "juno1wallet" freeTx] = 1 ∧
      coveredCount usageEnv wrapWasm "juno1contract" "juno1wallet" usedState [.handleZeroFees "juno1wallet" freeTx] ≤
        10 - 1 := by
  refine ⟨by decide +kernel, ?_⟩
  have bound := (wallet_limit_enforced usageEnv wrapWasm junoAddresses_lowerJunoCodec usedState
    [.handleZeroFees "juno1wallet" freeTx] (c := "juno1contract") (w := "juno1wallet")
    (show usedState.feePay.contracts.get? "juno1contract" = some ⟨"juno1contract", 0, 10⟩ by decide) ?_).2
  · exact bound
  intro pre pfx fpc' found
  rcases List.prefix_cons_iff.mp pfx with rfl | ⟨t, rfl, rest⟩
  · have same : fpc' = ⟨"juno1contract", 0, 10⟩ := Option.some.inj (found.symm.trans (by decide))
    subst same
    decide
  · rw [List.prefix_nil.mp rest] at found
    have same : fpc' = ⟨"juno1contract", 0, 10⟩ := Option.some.inj (found.symm.trans (by decide +kernel))
    subst same
    decide

theorem free_tx_wallet_reported_eligible :
    chargedContract freeTx = some "juno1contract" ∧
      (usageEnv.keeper.codec.decode "juno1contract").isSome ∧ (usageEnv.keeper.codec.decode "juno1wallet").isSome ∧
      ∃ s', DeductFeeDecorator.handleZeroFees usageEnv usedState "juno1wallet" freeTx = .ok (.ok s') ∧
        usageEnv.keeper.feePayWalletIsEligible usedState.feePay "juno1contract" "juno1wallet" = .ok true := by
  have charged : chargedContract freeTx = some "juno1contract" := rfl
  have contractDecodes : (usageEnv.keeper.codec.decode "juno1contract").isSome := by decide
  have walletDecodes : (usageEnv.keeper.codec.decode "juno1wallet").isSome := by decide
  -- juno1wallet is below its limit and gas is free, so the path pays
  have covers : (match DeductFeeDecorator.handleZeroFees usageEnv usedState "juno1wallet" freeTx with
      | .ok (.ok _) => true
      | _ => false) = true := by decide +kernel
  split at covers
  · rename_i s' covered
    exact ⟨charged, contractDecodes, walletDecodes, s', covered,
      walletIsEligible_of_covered usageEnv charged covered contractDecodes walletDecodes⟩
  · cases covers

end Juno.FeePay
