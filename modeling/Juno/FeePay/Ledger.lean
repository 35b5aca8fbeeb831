import Juno.FeePay.Ante

/-! The feepay ledger.

The module account holds the prepaid funds of every registered contract in the
bond denomination; each contract record keeps its share in a `uint64`. Five
operations move funds or rewrite records: registering (balance forced to zero),
funding, updating the wallet limit, unregistering with a refund, and the
fee-pay ante path charging a transaction to a contract. `unaccounted` is what
the module holds beyond the records' sum.

Every operation keeps `unaccounted`, except that funding adds to the record's
balance with `uint64` arithmetic: past `2^64 - 1` the balance wraps and the
module keeps funds no record accounts for (`unaccounted_deliver`). The module
therefore stays solvent over every run (`solvent_of_reachable`), but funds can
be lost to their contract.

Unregistering deletes the contract's usage keys from the module store without
their prefix. Since addresses start with the chain's human-readable part, `juno1`
(or `JUNO1`), those keys name nothing there: unregistering removes the contract
record and no usage count.
-/

set_option autoImplicit false

namespace Juno.FeePay

open Sdk KVStore

def prepaid (fpc : FeePayContract) : Int := fpc.balance.toNat

/-- The bond-denomination funds of the module account that no contract record accounts for. -/
def unaccounted (bondDenom : String) (s : AnteState) : Int :=
  s.bank.balance (.module moduleName) bondDenom - s.feePay.contracts.sumBy prepaid

/-- The operations that move prepaid funds or rewrite contract records. -/
inductive Operation
  | registerFeePayContract (senderAddress : String) (feePayContract : FeePayContract)
  | fundFeePayContract (senderAddress contractAddress : String) (amount : Coins)
  | updateFeePayContractWalletLimit (senderAddress contractAddress : String) (walletLimit : UInt64)
  | unregisterFeePayContract (senderAddress contractAddress : String)
  /-- The fee-pay ante path charging the transaction to its contract. -/
  | handleZeroFees (deductFeesFrom : String) (tx : Tx)

/-- One operation; a failed one, or a panic in the ante path, commits nothing. -/
def deliver (env : AnteEnv) (wasm : String → Option ContractInfo) (s : AnteState) :
    Operation → Except String AnteState
  | .registerFeePayContract senderAddress feePayContract => do
    let feePay ← env.keeper.registerFeePayContract wasm s.feePay senderAddress feePayContract
    pure { s with feePay := feePay }
  | .fundFeePayContract senderAddress contractAddress amount => do
    let r ← env.keeper.fundFeePayContract s.feePay s.bank senderAddress contractAddress amount
    pure { s with feePay := r.1, bank := r.2 }
  | .updateFeePayContractWalletLimit senderAddress contractAddress walletLimit => do
    let feePay ← env.keeper.updateFeePayContractWalletLimit wasm s.feePay senderAddress contractAddress
      walletLimit
    pure { s with feePay := feePay }
  | .unregisterFeePayContract senderAddress contractAddress => do
    let r ← env.keeper.unregisterFeePayContract wasm s.feePay s.bank senderAddress contractAddress
    pure { s with feePay := r.1, bank := r.2 }
  | .handleZeroFees deductFeesFrom tx =>
    match DeductFeeDecorator.handleZeroFees env s deductFeesFrom tx with
    | .ok (.ok s') => .ok s'
    | .ok (.error e) => .error e
    | .error e => .error e

/-- How many times a funding operation wraps its contract's balance past `2^64 - 1`. -/
def carries (s : AnteState) : Operation → Nat
  | .fundFeePayContract _ contractAddress [c] =>
    match s.feePay.contracts.get? contractAddress with
    | some fpc => (fpc.balance.toNat + c.amount.toNat) / 2 ^ 64
    | none => 0
  | _ => 0

/-! ### What each operation writes -/

section Writes
variable (k : Keeper) (wasm : String → Option ContractInfo)

theorem getContract_ok {s : State} {contractAddress : String} {fpc : FeePayContract}
    (h : Keeper.getContract s contractAddress = .ok fpc) : s.contracts.get? contractAddress = some fpc := by
  unfold Keeper.getContract at h
  split at h
  · cases h
    assumption
  · cases h

theorem registerContract_writes {s s' : State} {senderAddress : String} {fpc : FeePayContract}
    (h : k.registerContract wasm s senderAddress fpc = .ok s') :
    s.contracts.has fpc.contractAddress = false ∧ s' = Keeper.setFeePayContract s fpc := by
  simp only [Keeper.registerContract, Atomic.bind_eq_ok] at h
  obtain ⟨-, -, rest⟩ := h
  by_cases big : 1000000 < fpc.walletLimit
  · simp [big] at rest
  by_cases registered : Keeper.isContractRegistered s fpc.contractAddress = true
  · simp [big, registered] at rest
  simp only [big, registered, if_false, Bool.false_eq_true, Atomic.bind_eq_ok, Atomic.pure_eq_ok] at rest
  obtain ⟨-, -, -, -, -, -, rfl⟩ := rest
  exact ⟨by simpa [Keeper.isContractRegistered] using registered, rfl⟩

theorem fundFeePayContract_writes {s : State} {bank : Bank} {senderAddress contractAddress : String}
    {amount : Coins} {r : State × Bank}
    (h : k.fundFeePayContract s bank senderAddress contractAddress amount = .ok r) :
    ∃ fpc c senderAddr amount64, s.contracts.get? contractAddress = some fpc ∧ amount = [c] ∧
      c.denom = k.bondDenom ∧ bank.sendCoinsFromAccountToModule senderAddr moduleName [c] = .ok r.2 ∧
      (amount64.toNat : Int) = c.amount ∧ r.1 = Keeper.setContractBalance s fpc (fpc.balance + amount64) := by
  simp only [Keeper.fundFeePayContract, Atomic.bind_eq_ok] at h
  obtain ⟨-, -, rest⟩ := h
  by_cases single : amount.length = 1
  · obtain ⟨c, rfl⟩ := List.length_eq_one_iff.mp single
    simp only [single, ne_eq, not_true_eq_false, if_false, Atomic.bind_eq_ok] at rest
    obtain ⟨fpc, found, senderAddr, -, funded⟩ := rest
    simp only [Keeper.fundContract, List.foldl_cons, List.foldl_nil] at funded
    -- only a coin of the bond denomination is credited; any other coin leaves `Coin.empty`
    by_cases bond : c.denom = k.bondDenom
    · by_cases empty : c = Coin.empty
      · simp [empty] at funded
      simp only [bond, if_true, empty, if_false, Atomic.bind_eq_ok, Atomic.pure_eq_ok] at funded
      obtain ⟨bank', sent, amount64, converted, rfl⟩ := funded
      exact ⟨fpc, c, senderAddr, amount64, getContract_ok found, rfl, bond, sent,
        toNat_of_intToUint64 converted, rfl⟩
    · simp [bond] at funded
  · simp [single] at rest

theorem updateFeePayContractWalletLimit_writes {s s' : State} {senderAddress contractAddress : String}
    {walletLimit : UInt64}
    (h : k.updateFeePayContractWalletLimit wasm s senderAddress contractAddress walletLimit = .ok s') :
    ∃ fpc, s.contracts.get? contractAddress = some fpc ∧
      s' = { s with contracts := s.contracts.put { fpc with walletLimit := walletLimit } } := by
  simp only [Keeper.updateFeePayContractWalletLimit, Atomic.bind_eq_ok] at h
  obtain ⟨-, -, -, -, fpc, found, rest⟩ := h
  by_cases big : 1000000 < walletLimit
  · simp [big] at rest
  simp only [big, if_false, Keeper.updateContractWalletLimit, Atomic.bind_eq_ok, Atomic.pure_eq_ok] at rest
  obtain ⟨-, -, -, -, -, -, -, -, rfl⟩ := rest
  exact ⟨fpc, getContract_ok found, rfl⟩

theorem unregisterFeePayContract_writes {s : State} {bank : Bank} {senderAddress contractAddress : String}
    {r : State × Bank} (h : k.unregisterFeePayContract wasm s bank senderAddress contractAddress = .ok r) :
    ∃ contract contractAddr coins recipient, s.contracts.get? contractAddress = some contract ∧
      k.codec.decode contractAddress = some contractAddr ∧
      Coins.total coins k.bondDenom = contract.balance.toNat ∧
      bank.sendCoinsFromModuleToAccount moduleName recipient coins = .ok r.2 ∧
      r.1 = ((s.uses.records.map Prod.fst).filter (fun key => key.startsWith contractAddress)).foldl
        Keeper.rootDelete { s with contracts := s.contracts.delete contractAddress } := by
  simp only [Keeper.unregisterFeePayContract, Keeper.unregisterContract, Atomic.bind_eq_ok,
    Atomic.pure_eq_ok] at h
  obtain ⟨-, -, contract, found, contractAddr, decoded, -, -, -, -, coin, made, coins, sanitized,
    recipient, -, bank', sent, rfl⟩ := h
  obtain ⟨-, -, rfl⟩ := newCoin_ok_iff.mp made
  exact ⟨contract, contractAddr, coins, recipient, getContract_ok found,
    (Bech32.accAddressFromBech32_ok_iff _ _ _).mp decoded, Coins.total_of_newCoins_single sanitized, sent, rfl⟩

theorem deliver_fundFeePayContract {env : AnteEnv} {wasm : String → Option ContractInfo} {s : AnteState}
    {senderAddress contractAddress : String} {amount : Coins} {r : State × Bank}
    (h : env.keeper.fundFeePayContract s.feePay s.bank senderAddress contractAddress amount = .ok r) :
    deliver env wasm s (.fundFeePayContract senderAddress contractAddress amount) =
      .ok { s with feePay := r.1, bank := r.2 } := by
  simp [deliver, h, bind, Except.bind, pure, Except.pure]

theorem fundFeePayContract_succeeds {s : State} {bank bank' : Bank} {senderAddress contractAddress
    senderAddr contractAddr : String} {fpc : FeePayContract} {c : Coin}
    (contract : k.codec.decode contractAddress = some contractAddr)
    (sender : k.codec.decode senderAddress = some senderAddr)
    (found : s.contracts.get? contractAddress = some fpc) (bond : c.denom = k.bondDenom)
    (nonempty : c ≠ Coin.empty) (nonneg : 0 ≤ c.amount) (fits : c.amount < 2 ^ 64)
    (sent : bank.sendCoinsFromAccountToModule senderAddr moduleName [c] = .ok bank') :
    k.fundFeePayContract s bank senderAddress contractAddress [c] =
      .ok (Keeper.setContractBalance s fpc (fpc.balance + UInt64.ofNat c.amount.toNat), bank') := by
  have fetched : Keeper.getContract s contractAddress = .ok fpc := by
    simp [Keeper.getContract, found]
  simp [Keeper.fundFeePayContract, Keeper.fundContract, Bech32.accAddressFromBech32, contract, sender,
    fetched, bond, nonempty, sent, intToUint64_of_lt nonneg fits, bind, Except.bind, pure, Except.pure]

end Writes

section Charge
variable (env : AnteEnv)

theorem feePrice_denom (prices : DecCoins) (found : DeductFeeDecorator.feePrice env prices ≠ DecCoin.empty) :
    (DeductFeeDecorator.feePrice env prices).denom = env.keeper.bondDenom := by
  unfold DeductFeeDecorator.feePrice at found ⊢
  -- the fold returns its start or the last price of the bond denomination
  have last : ∀ (acc : DecCoin) (rest : DecCoins),
      rest.foldl (fun acc c => if c.denom = env.keeper.bondDenom then c else acc) acc = acc ∨
        (rest.foldl (fun acc c => if c.denom = env.keeper.bondDenom then c else acc) acc).denom =
          env.keeper.bondDenom := by
    intro acc rest
    induction rest generalizing acc with
    | nil => exact .inl rfl
    | cons c rest ih =>
      rw [List.foldl_cons]
      by_cases bond : c.denom = env.keeper.bondDenom
      · rw [if_pos bond]
        rcases ih c with same | denom
        · exact .inr (by rw [same]; exact bond)
        · exact .inr denom
      · rw [if_neg bond]
        exact ih acc
  rcases last DecCoin.empty prices with same | denom
  · exact absurd same found
  · exact denom

theorem handleZeroFees_writes {s s' : AnteState} {deductFeesFrom : String} {tx : Tx}
    (h : DeductFeeDecorator.handleZeroFees env s deductFeesFrom tx = .ok (.ok s')) :
    ∃ contract fpc fee payment, s.feePay.contracts.get? contract = some fpc ∧ fee ≤ fpc.balance ∧
      Coins.total payment env.keeper.bondDenom = fee.toNat ∧
      s.bank.sendCoinsFromModuleToModule moduleName feeCollectorName payment = .ok s'.bank ∧
      s'.feePay.contracts = s.feePay.contracts.put { fpc with balance := fpc.balance - fee } := by
  unfold DeductFeeDecorator.handleZeroFees at h
  split at h
  · rename_i contract _ _ _
    split at h
    · cases h
    · rename_i fpc found
      dsimp only at h
      split_ifs at h with empty exceeded
      · cases h
      · cases h
      rw [Atomic.bind_eq_ok] at h
      obtain ⟨fee, converted, rest⟩ := h
      split_ifs at rest with uncovered
      · cases rest
      rw [Atomic.bind_eq_ok] at rest
      obtain ⟨coin, made, rest⟩ := rest
      rw [Atomic.bind_eq_ok] at rest
      obtain ⟨payment, sanitized, rest⟩ := rest
      split at rest
      · cases rest
      rename_i bank sent
      rw [Atomic.pure_eq_ok] at rest
      cases rest
      obtain ⟨-, -, rfl⟩ := newCoin_ok_iff.mp made
      have covered : fee ≤ fpc.balance := by
        simpa [Keeper.canContractCoverFee] using uncovered
      have charged : Coins.total payment env.keeper.bondDenom = fee.toNat := by
        rw [← feePrice_denom env _ empty, Coins.total_of_newCoins_single sanitized, toNat_of_intToUint64 converted]
      exact ⟨contract, fpc, fee, payment, getContract_ok found, covered, charged, sent, rfl⟩
  · cases h

end Charge

/-! ### The ledger, operation by operation -/

/-- The chain's addresses: the human-readable part `juno` and the separator, in lower
or upper case, as bech32 accepts both. -/
def JunoAddresses (codec : Bech32) : Prop :=
  ∀ s a, codec.decode s = some a → s.startsWith "juno1" = true ∨ s.startsWith "JUNO1" = true

theorem startsWith_store_false {key addr pre : String} (under : key.startsWith addr = true)
    (hrp : addr.startsWith "juno1" = true ∨ addr.startsWith "JUNO1" = true) (store : pre.startsWith "c" = true) :
    key.startsWith pre = false := by
  rw [Bool.eq_false_iff]
  intro prefixed
  simp only [String.startsWith_string_iff] at under hrp store prefixed
  -- two prefixes of one key are comparable, and these two differ in their first letter
  have c := store.trans prefixed
  rcases hrp with lower | upper
  · rcases List.prefix_or_prefix_of_prefix (lower.trans under) c with h | h
    · exact absurd h (by decide)
    · exact absurd h (by decide)
  · rcases List.prefix_or_prefix_of_prefix (upper.trans under) c with h | h
    · exact absurd h (by decide)
    · exact absurd h (by decide)

theorem foldl_rootDelete_eq_self (keys : List String) (s : State)
    (outside : ∀ key ∈ keys, key.startsWith "contracts" = false ∧ key.startsWith "contract-uses" = false) :
    keys.foldl Keeper.rootDelete s = s := by
  induction keys generalizing s with
  | nil => rfl
  | cons key rest ih =>
    rw [List.foldl_cons, ih _ (fun key' mem => outside key' (List.mem_cons_of_mem key mem))]
    obtain ⟨contracts, uses⟩ := outside key List.mem_cons_self
    rw [Keeper.rootDelete, if_neg (by simp [contracts]), if_neg (by simp [uses])]

/-- Unregistering deletes the contract's record and nothing else from the feepay store: its usage
keys, read relative to their prefix, name no key of the module store. -/
theorem unregisterFeePayContract_state (k : Keeper) (wasm : String → Option ContractInfo) (hrp : JunoAddresses k.codec)
    {s : State} {bank : Bank} {senderAddress contractAddress : String} {r : State × Bank}
    (h : k.unregisterFeePayContract wasm s bank senderAddress contractAddress = .ok r) :
    r.1 = { s with contracts := s.contracts.delete contractAddress } := by
  obtain ⟨-, contractAddr, -, -, -, decoded, -, -, written⟩ := unregisterFeePayContract_writes k wasm h
  rw [written, foldl_rootDelete_eq_self]
  intro key mem
  have under := (List.mem_filter.mp mem).2
  exact ⟨startsWith_store_false under (hrp _ _ decoded) (by simp),
    startsWith_store_false under (hrp _ _ decoded) (by simp)⟩

theorem sumBy_put_registered {contracts : Keyed FeePayContract.contractAddress} {fpc : FeePayContract}
    (found : contracts.get? fpc.contractAddress = some fpc) (fpc' : FeePayContract)
    (same : fpc'.contractAddress = fpc.contractAddress) :
    (contracts.put fpc').sumBy prepaid = contracts.sumBy prepaid - prepaid fpc + prepaid fpc' := by
  rw [Keyed.sumBy_put, same, Keyed.weightAt_of_get? prepaid found]

section Deliver
variable (env : AnteEnv) (wasm : String → Option ContractInfo) {s s' : AnteState}

theorem unaccounted_registerFeePayContract {senderAddress : String} {fpc : FeePayContract}
    (h : deliver env wasm s (.registerFeePayContract senderAddress fpc) = .ok s') :
    unaccounted env.keeper.bondDenom s' = unaccounted env.keeper.bondDenom s := by
  simp only [deliver, Atomic.bind_eq_ok, Atomic.pure_eq_ok] at h
  obtain ⟨feePay, registered, rfl⟩ := h
  obtain ⟨fresh, rfl⟩ := registerContract_writes env.keeper wasm registered
  -- the new record starts at zero, and no record was there before
  simp [unaccounted, Keeper.setFeePayContract, Keyed.sumBy_put, Keyed.weightAt_of_has prepaid fresh, prepaid]

theorem unaccounted_updateFeePayContractWalletLimit {senderAddress contractAddress : String}
    {walletLimit : UInt64}
    (h : deliver env wasm s (.updateFeePayContractWalletLimit senderAddress contractAddress walletLimit) =
      .ok s') :
    unaccounted env.keeper.bondDenom s' = unaccounted env.keeper.bondDenom s := by
  simp only [deliver, Atomic.bind_eq_ok, Atomic.pure_eq_ok] at h
  obtain ⟨feePay, updated, rfl⟩ := h
  obtain ⟨fpc, found, rfl⟩ := updateFeePayContractWalletLimit_writes env.keeper wasm updated
  have keyed : fpc.contractAddress = contractAddress := Keyed.key_of_get? found
  subst keyed
  simp only [unaccounted]
  rw [sumBy_put_registered found { fpc with walletLimit := walletLimit } rfl]
  simp [prepaid]

theorem unaccounted_unregisterFeePayContract (hrp : JunoAddresses env.keeper.codec)
    {senderAddress contractAddress : String}
    (h : deliver env wasm s (.unregisterFeePayContract senderAddress contractAddress) = .ok s') :
    unaccounted env.keeper.bondDenom s' = unaccounted env.keeper.bondDenom s := by
  simp only [deliver, Atomic.bind_eq_ok, Atomic.pure_eq_ok] at h
  obtain ⟨r, unregistered, rfl⟩ := h
  obtain ⟨contract, contractAddr, coins, recipient, found, decoded, refund, sent, -⟩ :=
    unregisterFeePayContract_writes env.keeper wasm unregistered
  have records : r.1.contracts = s.feePay.contracts.delete contractAddress := by
    rw [unregisterFeePayContract_state env.keeper wasm hrp unregistered]
  have refunded := Bank.sendCoinsFromModuleToAccount_balance sent env.keeper.bondDenom
  simp only [unaccounted, records, Keyed.sumBy_delete, Keyed.weightAt_of_get? prepaid found, refunded,
    refund, prepaid]
  ring

theorem unaccounted_fundFeePayContract {senderAddress contractAddress : String} {amount : Coins}
    (h : deliver env wasm s (.fundFeePayContract senderAddress contractAddress amount) = .ok s') :
    unaccounted env.keeper.bondDenom s' =
      unaccounted env.keeper.bondDenom s + 2 ^ 64 * carries s (.fundFeePayContract senderAddress contractAddress amount) := by
  simp only [deliver, Atomic.bind_eq_ok, Atomic.pure_eq_ok] at h
  obtain ⟨r, funded, rfl⟩ := h
  obtain ⟨fpc, c, senderAddr, amount64, found, rfl, bond, sent, credited, written⟩ :=
    fundFeePayContract_writes env.keeper funded
  have keyed : fpc.contractAddress = contractAddress := Keyed.key_of_get? found
  subst keyed
  have received := Bank.sendCoinsFromAccountToModule_balance sent env.keeper.bondDenom
  have coin : Coins.total [c] env.keeper.bondDenom = c.amount := by simp [Coins.total, bond]
  -- the record's balance is a `uint64` sum: it wraps past `2^64 - 1`
  have wrapped : ((fpc.balance + amount64).toNat : Int) =
      (fpc.balance.toNat + amount64.toNat) % 2 ^ 64 := by
    rw [UInt64.toNat_add]
    push_cast
    rfl
  have split := Nat.mod_add_div (fpc.balance.toNat + amount64.toNat) (2 ^ 64)
  have carried : carries s (.fundFeePayContract senderAddress fpc.contractAddress [c]) =
      (fpc.balance.toNat + amount64.toNat) / 2 ^ 64 := by
    simp only [carries, found]
    congr 2
    omega
  rw [carried, unaccounted, unaccounted, written, Keeper.setContractBalance, received, coin]
  dsimp only
  rw [sumBy_put_registered found { fpc with balance := fpc.balance + amount64 } rfl]
  simp only [prepaid]
  push_cast at split ⊢
  omega

theorem unaccounted_handleZeroFees {deductFeesFrom : String} {tx : Tx}
    (h : deliver env wasm s (.handleZeroFees deductFeesFrom tx) = .ok s') :
    unaccounted env.keeper.bondDenom s' = unaccounted env.keeper.bondDenom s := by
  have charged : DeductFeeDecorator.handleZeroFees env s deductFeesFrom tx = .ok (.ok s') := by
    simp only [deliver] at h
    split at h
    · rename_i charged
      cases h
      exact charged
    · cases h
    · cases h
  obtain ⟨contract, fpc, fee, payment, found, covered, paid, sent, written⟩ := handleZeroFees_writes env charged
  have keyed : fpc.contractAddress = contract := Keyed.key_of_get? found
  subst keyed
  have moved := Bank.sendCoinsFromModuleToModule_balance sent (by decide) env.keeper.bondDenom
  have sub : (fpc.balance - fee).toNat = fpc.balance.toNat - fee.toNat :=
    UInt64.toNat_sub_of_le _ _ covered
  have le : fee.toNat ≤ fpc.balance.toNat := UInt64.le_iff_toNat_le.mp covered
  rw [unaccounted, unaccounted, written, sumBy_put_registered found { fpc with balance := fpc.balance - fee } rfl,
    moved, paid]
  simp only [prepaid, sub]
  omega

/-- Every operation keeps the unaccounted funds, except a funding whose sum wraps past
`2^64 - 1`: each wrap leaves `2^64` to no record. -/
theorem unaccounted_deliver (hrp : JunoAddresses env.keeper.codec) {op : Operation}
    (h : deliver env wasm s op = .ok s') :
    unaccounted env.keeper.bondDenom s' = unaccounted env.keeper.bondDenom s + 2 ^ 64 * carries s op := by
  cases op with
  | registerFeePayContract senderAddress fpc =>
    rw [unaccounted_registerFeePayContract env wasm h]
    simp [carries]
  | fundFeePayContract senderAddress contractAddress amount =>
    exact unaccounted_fundFeePayContract env wasm h
  | updateFeePayContractWalletLimit senderAddress contractAddress walletLimit =>
    rw [unaccounted_updateFeePayContractWalletLimit env wasm h]
    simp [carries]
  | unregisterFeePayContract senderAddress contractAddress =>
    rw [unaccounted_unregisterFeePayContract env wasm hrp h]
    simp [carries]
  | handleZeroFees deductFeesFrom tx =>
    rw [unaccounted_handleZeroFees env wasm h]
    simp [carries]

end Deliver

section Runs
variable (env : AnteEnv) (wasm : String → Option ContractInfo) (hrp : JunoAddresses env.keeper.codec)
include hrp

theorem unaccounted_of_reachable {start s : AnteState} (reach : Atomic.Reachable (deliver env wasm) start s) :
    ∃ n : Nat, unaccounted env.keeper.bondDenom s = unaccounted env.keeper.bondDenom start + 2 ^ 64 * n := by
  have preserves : Atomic.Preserves (deliver env wasm) (fun s =>
      ∃ n : Nat, unaccounted env.keeper.bondDenom s = unaccounted env.keeper.bondDenom start + 2 ^ 64 * n) := by
    rintro s op s' ⟨n, before⟩ step
    refine ⟨n + carries s op, ?_⟩
    rw [unaccounted_deliver env wasm hrp step, before]
    push_cast
    ring
  exact preserves.reachable ⟨0, by simp⟩ reach

/-- A module account that starts solvent stays solvent: it always holds at least what the
contract records add up to, so every refund and every fee-pay charge is covered. -/
theorem solvent_of_reachable {start s : AnteState} (solvent : 0 ≤ unaccounted env.keeper.bondDenom start)
    (reach : Atomic.Reachable (deliver env wasm) start s) : 0 ≤ unaccounted env.keeper.bondDenom s := by
  obtain ⟨n, grown⟩ := unaccounted_of_reachable env wasm hrp reach
  have wraps : (0 : Int) ≤ 2 ^ 64 * n := by positivity
  rw [grown]
  linarith

end Runs

/-! A contract registered and funded with `2^64 - 1`ujuno, then funded with one more. -/

def wrapKeeper : Keeper :=
  ⟨Bech32.identity, "ujuno", "juno10d07y265gmmuvt4z0w9aw880jnsr700jvss730"⟩

def wrapEnv : AnteEnv :=
  ⟨⟨1, false, []⟩, wrapKeeper, ⟨[], 0⟩, true, false, fun _ _ _ _ => .ok (), fun _ => true⟩

def wrapWasm (contract : String) : Option ContractInfo :=
  if contract = "juno1contract" then some ⟨"juno1creator", ""⟩ else none

def wrapGenesis : AnteState :=
  ⟨⟨⟨true⟩, Keyed.empty, Keyed.empty⟩, ⟨[]⟩,
    ⟨fun h d => if h = .account "juno1funder" ∧ d = "ujuno" then 2 ^ 64 else 0, fun _ => false, fun _ _ => 0⟩⟩

theorem fund_wraps_contract_balance :
    ∃ s₁ s₂ s₃,
      deliver wrapEnv wrapWasm wrapGenesis (.registerFeePayContract "juno1creator" ⟨"juno1contract", 0, 10⟩) =
        .ok s₁ ∧
      deliver wrapEnv wrapWasm s₁ (.fundFeePayContract "juno1funder" "juno1contract" [⟨"ujuno", 2 ^ 64 - 1⟩]) =
        .ok s₂ ∧
      deliver wrapEnv wrapWasm s₂ (.fundFeePayContract "juno1funder" "juno1contract" [⟨"ujuno", 1⟩]) = .ok s₃ ∧
      s₃.feePay.contracts.get? "juno1contract" = some ⟨"juno1contract", 0, 10⟩ ∧
      unaccounted "ujuno" wrapGenesis = 0 ∧ unaccounted "ujuno" s₃ = 2 ^ 64 := by
  have registered : deliver wrapEnv wrapWasm wrapGenesis
      (.registerFeePayContract "juno1creator" ⟨"juno1contract", 0, 10⟩) =
      .ok { wrapGenesis with feePay := Keeper.setFeePayContract wrapGenesis.feePay ⟨"juno1contract", 0, 10⟩ } := by
    simp [deliver, Keeper.registerFeePayContract, Keeper.registerContract, wrapEnv, wrapKeeper, Bech32.identity,
      Bech32.accAddressFromBech32, Keeper.isContractRegistered, wrapGenesis, Keeper.contractInfo, wrapWasm,
      Keeper.isContractManager, Keyed.has, bind, Except.bind, pure, Except.pure]
  set s₁ := { wrapGenesis with feePay := Keeper.setFeePayContract wrapGenesis.feePay ⟨"juno1contract", 0, 10⟩ }
  have found₁ : s₁.feePay.contracts.get? "juno1contract" = some ⟨"juno1contract", 0, 10⟩ := rfl
  obtain ⟨bank₂, sent₂⟩ : ∃ bank₂, s₁.bank.sendCoinsFromAccountToModule "juno1funder" moduleName
      [⟨"ujuno", 2 ^ 64 - 1⟩] = .ok bank₂ := by
    rw [Bank.sendCoinsFromAccountToModule, Bank.sendCoins_ok_iff]
    refine ⟨by decide, ?_⟩
    simp [s₁, wrapGenesis, Bank.spendable, Bank.lockedCoins]
  have funded₂ := @fundFeePayContract_succeeds wrapKeeper s₁.feePay _ _ _ _ "juno1funder" "juno1contract" _ _
    rfl rfl found₁ rfl (by decide) (by decide) (by decide) sent₂
  have step₂ : deliver wrapEnv wrapWasm s₁
      (.fundFeePayContract "juno1funder" "juno1contract" [⟨"ujuno", 2 ^ 64 - 1⟩]) = _ :=
    deliver_fundFeePayContract funded₂
  set s₂ := { s₁ with feePay := (Keeper.setContractBalance s₁.feePay ⟨"juno1contract", 0, 10⟩
    (0 + UInt64.ofNat (2 ^ 64 - 1 : Int).toNat), bank₂).1, bank := bank₂ } with s₂_def
  have found₂ : s₂.feePay.contracts.get? "juno1contract" =
      some ⟨"juno1contract", 0 + UInt64.ofNat (2 ^ 64 - 1 : Int).toNat, 10⟩ := rfl
  have left₂ : bank₂.spendable (.account "juno1funder") "ujuno" = 1 := by
    rw [Bank.spendable, Bank.sendCoins_balance sent₂, Bank.sendCoins_lockedCoins sent₂]
    simp [Bank.share, Bank.lockedCoins, Coins.total, s₁, wrapGenesis]
  obtain ⟨bank₃, sent₃⟩ : ∃ bank₃, s₂.bank.sendCoinsFromAccountToModule "juno1funder" moduleName
      [⟨"ujuno", 1⟩] = .ok bank₃ := by
    rw [Bank.sendCoinsFromAccountToModule, Bank.sendCoins_ok_iff]
    refine ⟨by decide, ?_⟩
    simp [s₂, left₂]
  have funded₃ := @fundFeePayContract_succeeds wrapKeeper s₂.feePay _ _ _ _ "juno1funder" "juno1contract" _ _
    rfl rfl found₂ rfl (by decide) (by decide) (by decide) sent₃
  have step₃ : deliver wrapEnv wrapWasm s₂ (.fundFeePayContract "juno1funder" "juno1contract" [⟨"ujuno", 1⟩]) = _ :=
    deliver_fundFeePayContract funded₃
  have genesis : unaccounted "ujuno" wrapGenesis = 0 := by
    simp [unaccounted, wrapGenesis, Keyed.sumBy, Keyed.empty]
  -- the first funding fits below `2^64`, the second wraps the balance to zero
  have carried₂ : carries s₁ (.fundFeePayContract "juno1funder" "juno1contract" [⟨"ujuno", 2 ^ 64 - 1⟩]) = 0 := by
    simp [carries, found₁]
  have carried₃ : carries s₂ (.fundFeePayContract "juno1funder" "juno1contract" [⟨"ujuno", 1⟩]) = 1 := by
    simp only [carries, found₂]
    decide
  have u₁ := unaccounted_registerFeePayContract wrapEnv wrapWasm registered
  have u₂ := unaccounted_fundFeePayContract wrapEnv wrapWasm step₂
  have u₃ := unaccounted_fundFeePayContract wrapEnv wrapWasm step₃
  simp only [show wrapEnv.keeper.bondDenom = "ujuno" from rfl] at u₁ u₂ u₃
  refine ⟨s₁, s₂, _, registered, step₂, step₃, rfl, genesis, ?_⟩
  rw [u₃, carried₃, u₂, carried₂, u₁, genesis]
  norm_num

def junoCodec : Bech32 :=
  ⟨fun s => if s.startsWith "juno1" = true then some s else none, fun s a h => by
    by_cases juno : s.startsWith "juno1" = true
    · simp only [juno, if_true, Option.some.injEq] at h
      subst h
      simp [juno]
    · simp [juno] at h, textBytes, textBytes_injective⟩

def junoEnv : AnteEnv := { wrapEnv with keeper := { wrapKeeper with codec := junoCodec } }

theorem genesis_stays_solvent :
    JunoAddresses junoEnv.keeper.codec ∧ 0 ≤ unaccounted "ujuno" wrapGenesis ∧
      0 ≤ unaccounted "ujuno" (Atomic.execute (deliver junoEnv wrapWasm) wrapGenesis
        [.registerFeePayContract "juno1creator" ⟨"juno1contract", 0, 10⟩,
          .fundFeePayContract "juno1funder" "juno1contract" [⟨"ujuno", 5⟩]]) := by
  have hrp : JunoAddresses junoEnv.keeper.codec := by
    intro s a decoded
    by_cases juno : s.startsWith "juno1" = true
    · exact .inl juno
    · have rejected : junoEnv.keeper.codec.decode s = none := if_neg juno
      rw [rejected] at decoded
      cases decoded
  have genesis : 0 ≤ unaccounted "ujuno" wrapGenesis := by
    simp [unaccounted, wrapGenesis, Keyed.sumBy, Keyed.empty]
  exact ⟨hrp, genesis, solvent_of_reachable junoEnv wrapWasm hrp genesis ⟨_, rfl⟩⟩

end Juno.FeePay
