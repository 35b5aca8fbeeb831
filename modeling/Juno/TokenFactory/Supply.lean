import Juno.TokenFactory.Authority
import Juno.TokenFactory.Mint

/-! The supply of every denomination under the tokenfactory.

A mint creates its coins in the module account and sends them on; a burn sends them back
to the module account and destroys them there; the creation fee and force transfers are
sends. An operation that succeeds therefore changes the supply of a denomination by what
it mints of it minus what it burns of it, and along any run, where a failed operation
leaves the state as it was, the supply changes by the sum of that over the operations
that committed (`supply_of_run`).

Mints, burns and force transfers first check that their coin is a factory denomination,
and apart from those coins the module only moves the creation fee: along any run, no
balance of a denomination that is neither changes (`native_balances_of_run`).
-/

set_option autoImplicit false

namespace Juno.TokenFactory

open Sdk KVStore Supply

namespace Keeper

variable (k : Keeper) {s s' : State}

/-! ### What each keeper function asks of the bank -/

theorem setAuthorityMetadata_eq {denom admin : String} (h : k.setAuthorityMetadata s denom admin = .ok s') :
    s'.bank = s.bank ∧ s'.params = s.params := by
  unfold setAuthorityMetadata at h
  split_ifs at h
  cases h
  exact ⟨rfl, rfl⟩

theorem createDenomAfterValidation_eq {creatorAddr denom : String}
    (h : k.createDenomAfterValidation s creatorAddr denom = .ok s') : s'.bank = s.bank ∧ s'.params = s.params := by
  unfold createDenomAfterValidation at h
  dsimp only at h
  -- stated apart from the goal: the bank and params of the state with the new metadata are
  -- those of s only up to unfolding
  have kept := k.setAuthorityMetadata_eq h
  exact kept

theorem chargeForCreateDenom_eq {creatorAddr : String} (h : k.chargeForCreateDenom s creatorAddr = .ok s') :
    s'.params = s.params ∧ (s'.bank = s.bank ∨ ∃ acc,
      s.bank.sendCoinsFromAccountToModule acc distributionModuleName s.params.denomCreationFee = .ok s'.bank) := by
  unfold chargeForCreateDenom at h
  split_ifs at h with charged
  · obtain ⟨acc, -, h⟩ := Atomic.bind_eq_ok.mp h
    obtain ⟨bank, sent, h⟩ := Atomic.bind_eq_ok.mp h
    rw [Atomic.pure_eq_ok] at h
    subst h
    exact ⟨rfl, .inr ⟨acc, sent⟩⟩
  · rw [Atomic.pure_eq_ok] at h
    subst h
    exact ⟨rfl, .inl rfl⟩

theorem mintTo_eq {amount : Coin} {recipient : String} (h : k.mintTo s amount recipient = .ok s') :
    (∃ p, deconstructDenom k.codec amount.denom = .ok p) ∧ s'.params = s.params ∧
      ∃ coins minted addr, single amount = .ok coins ∧ s.bank.mintCoins moduleName coins = .ok minted ∧
        minted.sendCoinsFromModuleToAccount moduleName addr coins = .ok s'.bank := by
  unfold Keeper.mintTo at h
  obtain ⟨p, factory, h⟩ := Atomic.bind_eq_ok.mp h
  obtain ⟨coins, made, h⟩ := Atomic.bind_eq_ok.mp h
  obtain ⟨minted, mint, h⟩ := Atomic.bind_eq_ok.mp h
  obtain ⟨addr, -, h⟩ := Atomic.bind_eq_ok.mp h
  split_ifs at h
  · cases h
  obtain ⟨coins', made', h⟩ := Atomic.bind_eq_ok.mp h
  rw [made, Except.ok.injEq] at made'
  subst made'
  obtain ⟨bank, sent, h⟩ := Atomic.bind_eq_ok.mp h
  rw [Atomic.pure_eq_ok] at h
  subst h
  exact ⟨⟨p, factory⟩, rfl, coins, minted, addr, made, mint, sent⟩

theorem burnFrom_eq {amount : Coin} {holder : String} (h : k.burnFrom s amount holder = .ok s') :
    (∃ p, deconstructDenom k.codec amount.denom = .ok p) ∧ s'.params = s.params ∧
      ∃ coins taken addr, single amount = .ok coins ∧
        s.bank.sendCoinsFromAccountToModule addr moduleName coins = .ok taken ∧
        taken.burnCoins moduleName coins = .ok s'.bank := by
  unfold Keeper.burnFrom at h
  obtain ⟨p, factory, h⟩ := Atomic.bind_eq_ok.mp h
  obtain ⟨addr, -, h⟩ := Atomic.bind_eq_ok.mp h
  split_ifs at h
  · cases h
  obtain ⟨coins, made, h⟩ := Atomic.bind_eq_ok.mp h
  obtain ⟨taken, take, h⟩ := Atomic.bind_eq_ok.mp h
  obtain ⟨coins', made', h⟩ := Atomic.bind_eq_ok.mp h
  rw [made, Except.ok.injEq] at made'
  subst made'
  obtain ⟨burnt, burn, h⟩ := Atomic.bind_eq_ok.mp h
  rw [Atomic.pure_eq_ok] at h
  subst h
  exact ⟨⟨p, factory⟩, rfl, coins, taken, addr, made, take, burn⟩

theorem forceTransfer_eq {amount : Coin} {fromAddr toAddr : String}
    (h : k.forceTransfer s amount fromAddr toAddr = .ok s') :
    (∃ p, deconstructDenom k.codec amount.denom = .ok p) ∧ s'.params = s.params ∧
      ∃ coins fromAcc toAcc, single amount = .ok coins ∧
        s.bank.sendCoins (.account fromAcc) (.account toAcc) coins = .ok s'.bank := by
  unfold forceTransfer at h
  obtain ⟨p, factory, h⟩ := Atomic.bind_eq_ok.mp h
  obtain ⟨fromAcc, -, h⟩ := Atomic.bind_eq_ok.mp h
  split_ifs at h
  · cases h
  obtain ⟨toAcc, -, h⟩ := Atomic.bind_eq_ok.mp h
  split_ifs at h
  · cases h
  obtain ⟨coins, made, h⟩ := Atomic.bind_eq_ok.mp h
  obtain ⟨bank, sent, h⟩ := Atomic.bind_eq_ok.mp h
  rw [Atomic.pure_eq_ok] at h
  subst h
  exact ⟨⟨p, factory⟩, rfl, coins, fromAcc, toAcc, made, sent⟩

theorem createDenom_eq {creatorAddr subdenom : String} {r : State × String}
    (h : k.createDenom s creatorAddr subdenom = .ok r) :
    ∃ charged, k.chargeForCreateDenom s creatorAddr = .ok charged ∧ r.1.bank = charged.bank ∧
      r.1.params = charged.params := by
  unfold createDenom at h
  obtain ⟨denom, -, h⟩ := Atomic.bind_eq_ok.mp h
  obtain ⟨charged, charge, h⟩ := Atomic.bind_eq_ok.mp h
  obtain ⟨created, create, h⟩ := Atomic.bind_eq_ok.mp h
  rw [Atomic.pure_eq_ok] at h
  subst h
  exact ⟨charged, charge, k.createDenomAfterValidation_eq create⟩

end Keeper

/-! ### The supply of one denomination through a step -/

/-- What a step does to the supply of `d`: it keeps the params, changes the sum of the
balances of `d` over all holders by `delta`, and leaves each of them alone when `d` is
neither a factory denomination nor named by the creation fee. -/
structure SupplyEffect (k : Keeper) (d : String) (delta : Int) (s s' : State) : Prop where
  params : s'.params = s.params
  netChange : NetChange (s.bank.balance · d) (s'.bank.balance · d) delta
  frame : (∀ p, deconstructDenom k.codec d ≠ .ok p) → Coins.total s.params.denomCreationFee d = 0 →
    (s'.bank.balance · d) = (s.bank.balance · d)

namespace SupplyEffect

variable {k : Keeper} {d : String} {a b : Int} {s t u : State}

theorem of_eq (bank : t.bank = s.bank) (params : t.params = s.params) : SupplyEffect k d 0 s t where
  params := params
  netChange := by
    rw [bank]
    exact NetChange.refl _
  frame _ _ := by rw [bank]

theorem trans (first : SupplyEffect k d a s t) (second : SupplyEffect k d b t u) :
    SupplyEffect k d (a + b) s u where
  params := second.params.trans first.params
  netChange := first.netChange.trans second.netChange
  frame native unnamed := by
    rw [second.frame native (first.params ▸ unnamed), first.frame native unnamed]

end SupplyEffect

namespace Keeper

variable (k : Keeper) {s s' : State} (d : String)

theorem total_single_of_native {amount : Coin} {coins : Coins} (made : single amount = .ok coins)
    (factory : ∃ p, deconstructDenom k.codec amount.denom = .ok p)
    (native : ∀ p, deconstructDenom k.codec d ≠ .ok p) : Coins.total coins d = 0 := by
  rw [Coins.total_newCoins_single made, if_neg]
  rintro rfl
  obtain ⟨p, factory⟩ := factory
  exact native p factory

theorem chargeForCreateDenom_effect {creatorAddr : String} (h : k.chargeForCreateDenom s creatorAddr = .ok s') :
    SupplyEffect k d 0 s s' := by
  obtain ⟨params, same | ⟨acc, sent⟩⟩ := k.chargeForCreateDenom_eq h
  · exact .of_eq same params
  · exact ⟨params, Bank.sendCoins_netChange sent d, fun _ unnamed => Bank.sendCoins_frame sent unnamed⟩

theorem createDenom_effect {creatorAddr subdenom : String} {r : State × String}
    (h : k.createDenom s creatorAddr subdenom = .ok r) : SupplyEffect k d 0 s r.1 := by
  obtain ⟨charged, charge, bank, params⟩ := k.createDenom_eq h
  exact (k.chargeForCreateDenom_effect d charge).trans (.of_eq bank params)

theorem mintTo_effect {amount : Coin} {recipient : String} (h : k.mintTo s amount recipient = .ok s') :
    SupplyEffect k d (if amount.denom = d then amount.amount else 0) s s' := by
  obtain ⟨factory, params, coins, minted, addr, made, mint, sent⟩ := k.mintTo_eq h
  have both := (Bank.mintCoins_netChange mint d).trans (Bank.sendCoinsFromModuleToAccount_netChange sent d)
  rw [add_zero, Coins.total_newCoins_single made] at both
  refine ⟨params, both, fun native _ => ?_⟩
  have absent := k.total_single_of_native d made factory native
  rw [Bank.sendCoinsFromModuleToAccount_frame sent absent, Bank.addCoins_frame mint absent]

theorem burnFrom_effect {amount : Coin} {holder : String} (h : k.burnFrom s amount holder = .ok s') :
    SupplyEffect k d (if amount.denom = d then -amount.amount else 0) s s' := by
  obtain ⟨factory, params, coins, taken, addr, made, take, burn⟩ := k.burnFrom_eq h
  have both := (Bank.sendCoins_netChange take d).trans (Bank.burnCoins_netChange burn d)
  have burnt : (0 + -Coins.total coins d) = if amount.denom = d then -amount.amount else 0 := by
    rw [Coins.total_newCoins_single made]
    split_ifs <;> omega
  rw [burnt] at both
  refine ⟨params, both, fun native _ => ?_⟩
  have absent := k.total_single_of_native d made factory native
  rw [Bank.subUnlockedCoins_frame burn absent, Bank.sendCoins_frame take absent]

theorem forceTransfer_effect {amount : Coin} {fromAddr toAddr : String}
    (h : k.forceTransfer s amount fromAddr toAddr = .ok s') : SupplyEffect k d 0 s s' := by
  obtain ⟨factory, params, coins, fromAcc, toAcc, made, sent⟩ := k.forceTransfer_eq h
  exact ⟨params, Bank.sendCoins_netChange sent d,
    fun native _ => Bank.sendCoins_frame sent (k.total_single_of_native d made factory native)⟩

theorem sendCoins_effect {t : State} {fromAddr toAddr : Holder} {coins : Coins} {bank : Bank}
    (sent : t.bank.sendCoins fromAddr toAddr coins = .ok bank)
    (absent : (∀ p, deconstructDenom k.codec d ≠ .ok p) → Coins.total coins d = 0) :
    SupplyEffect k d 0 t { t with bank := bank } :=
  ⟨rfl, Bank.sendCoins_netChange sent d, fun native _ => Bank.sendCoins_frame sent (absent native)⟩

/-! ### The message server and the bindings, down to the keeper functions -/

theorem msgMint_mintTo {msg : MsgMint} (h : k.msgMint s msg = .ok s') : ∃ addr, k.mintTo s msg.amount addr = .ok s' := by
  simp only [Keeper.msgMint] at h
  by_cases missing : (s.denomMetadata.find? msg.amount.denom).isNone = true
  · simp [missing] at h
  by_cases other : msg.sender = Keeper.getAuthorityMetadata s msg.amount.denom
  · simp only [missing, other, ne_eq, not_true_eq_false, if_false, Bool.false_eq_true] at h
    exact ⟨_, h⟩
  · simp [missing, other] at h

theorem msgBurn_burnFrom {msg : MsgBurn} (h : k.msgBurn s msg = .ok s') : ∃ addr, k.burnFrom s msg.amount addr = .ok s' := by
  by_cases other : msg.sender = Keeper.getAuthorityMetadata s msg.amount.denom
  · simp only [Keeper.msgBurn, ← other, ne_eq, not_true_eq_false, if_false, Atomic.bind_eq_ok] at h
    obtain ⟨addr, -, burnt⟩ := h
    exact ⟨addr, burnt⟩
  · simp [Keeper.msgBurn, other] at h

theorem msgForceTransfer_forceTransfer {msg : MsgForceTransfer} (h : k.msgForceTransfer s msg = .ok s') :
    k.forceTransfer s msg.amount msg.transferFromAddress msg.transferToAddress = .ok s' := by
  simp only [Keeper.msgForceTransfer] at h
  by_cases enabled : isCapabilityEnabled k.enabledCapabilities enableForceTransfer = true
  · by_cases other : msg.sender = Keeper.getAuthorityMetadata s msg.amount.denom
    · simpa [enabled, other] using h
    · simp [enabled, other] at h
  · simp [enabled] at h

theorem msgCreateDenom_createDenom {msg : MsgCreateDenom} {r : State × String} (h : k.msgCreateDenom s msg = .ok r) :
    k.createDenom s msg.sender msg.subdenom = .ok r := by
  unfold msgCreateDenom at h
  obtain ⟨_, -, h⟩ := Atomic.bind_eq_ok.mp h
  obtain ⟨_, -, h⟩ := Atomic.bind_eq_ok.mp h
  exact h

theorem msgChangeAdmin_eq {msg : MsgChangeAdmin} (h : k.msgChangeAdmin s msg = .ok s') :
    s'.bank = s.bank ∧ s'.params = s.params := by
  simp only [Keeper.msgChangeAdmin] at h
  by_cases other : msg.sender = Keeper.getAuthorityMetadata s msg.denom
  · simp only [other, ne_eq, not_true_eq_false, if_false] at h
    exact k.setAuthorityMetadata_eq h
  · simp [other] at h

theorem msgSetDenomMetadata_eq {msg : MsgSetDenomMetadata} (h : k.msgSetDenomMetadata s msg = .ok s') :
    s'.bank = s.bank ∧ s'.params = s.params := by
  simp only [Keeper.msgSetDenomMetadata] at h
  by_cases enabled : isCapabilityEnabled k.enabledCapabilities enableSetMetadata = true
  · by_cases other : msg.sender = Keeper.getAuthorityMetadata s msg.metadata.base
    · simp only [enabled, other, Bool.not_true, Bool.false_eq_true, if_false, ne_eq, not_true_eq_false,
        Atomic.bind_eq_ok] at h
      obtain ⟨-, -, h⟩ := h
      simp only [pure, Except.pure, Except.ok.injEq] at h
      subst h
      exact ⟨rfl, rfl⟩
    · simp [enabled, other, Atomic.bind_eq_ok] at h
  · simp [enabled] at h

theorem performSetMetadata_eq {contractAddr denom : String} {metadata : Metadata}
    (h : k.performSetMetadata s contractAddr denom metadata = .ok s') : s'.bank = s.bank ∧ s'.params = s.params := by
  unfold performSetMetadata at h
  dsimp only at h
  split at h
  · simp at h
  obtain ⟨written, -, h⟩ := Atomic.bind_eq_ok.mp h
  obtain ⟨_, -, h⟩ := Atomic.bind_eq_ok.mp h
  rw [Atomic.pure_eq_ok] at h
  subst h
  exact ⟨rfl, rfl⟩

end Keeper

/-! ### Every entry point -/

namespace Operation

/-- What an operation that succeeds adds to the supply of `d`: the amount of a mint of `d`,
less the amount of a burn of `d`, and nothing for the rest. -/
def minted (d : String) : Operation → Int
  | mint msg => if msg.amount.denom = d then msg.amount.amount else 0
  | burn msg => if msg.amount.denom = d then -msg.amount.amount else 0
  | performMint _ denom amount _ => if denom = d then amount else 0
  | performBurn _ denom amount _ => if denom = d then -amount else 0
  | _ => 0

end Operation

section Deliver
variable (k : Keeper) {s s' : State} (d : String)

theorem performMint_effect {contractAddr denom mintToAddress : String} {amount : Int}
    (h : k.performMint s contractAddr denom amount mintToAddress = .ok s') :
    SupplyEffect k d (if denom = d then amount else 0) s s' := by
  unfold Keeper.performMint at h
  obtain ⟨rcpt, -, h⟩ := Atomic.bind_eq_ok.mp h
  obtain ⟨_, -, h⟩ := Atomic.bind_eq_ok.mp h
  obtain ⟨minted, mint, h⟩ := Atomic.bind_eq_ok.mp h
  obtain ⟨addr, mintTo⟩ := k.msgMint_mintTo mint
  have mintEffect := k.mintTo_effect d mintTo
  split at h
  · -- a recipient the bank refuses keeps nothing: the coins stay with the contract
    rw [Atomic.pure_eq_ok] at h
    subst h
    exact mintEffect
  · obtain ⟨coins, made, h⟩ := Atomic.bind_eq_ok.mp h
    obtain ⟨bank, sent, h⟩ := Atomic.bind_eq_ok.mp h
    rw [Atomic.pure_eq_ok] at h
    subst h
    -- the coins sent on are those the mint made, of a factory denomination
    have factory := (k.mintTo_eq mintTo).1
    have forwarded := Keeper.sendCoins_effect k d sent (k.total_single_of_native d made factory)
    have both := mintEffect.trans forwarded
    rwa [add_zero] at both

theorem deliver_effect {op : Operation} (h : deliver k s op = .ok s') (notUpdate : ∀ msg, op ≠ .updateParams msg) :
    SupplyEffect k d (op.minted d) s s' := by
  cases op with
  | createDenom msg =>
    obtain ⟨r, created, h⟩ := Atomic.bind_eq_ok.mp h
    rw [Atomic.pure_eq_ok] at h
    subst h
    exact k.createDenom_effect d (k.msgCreateDenom_createDenom created)
  | mint msg =>
    obtain ⟨-, -, minted⟩ := Atomic.bind_eq_ok.mp h
    obtain ⟨addr, mintTo⟩ := k.msgMint_mintTo minted
    exact k.mintTo_effect d mintTo
  | burn msg =>
    obtain ⟨-, -, burnt⟩ := Atomic.bind_eq_ok.mp h
    obtain ⟨addr, burnFrom⟩ := k.msgBurn_burnFrom burnt
    exact k.burnFrom_effect d burnFrom
  | forceTransfer msg =>
    obtain ⟨-, -, moved⟩ := Atomic.bind_eq_ok.mp h
    exact k.forceTransfer_effect d (k.msgForceTransfer_forceTransfer moved)
  | changeAdmin msg =>
    obtain ⟨-, -, changed⟩ := Atomic.bind_eq_ok.mp h
    obtain ⟨bank, params⟩ := k.msgChangeAdmin_eq changed
    exact .of_eq bank params
  | setDenomMetadata msg =>
    obtain ⟨-, -, written⟩ := Atomic.bind_eq_ok.mp h
    obtain ⟨bank, params⟩ := k.msgSetDenomMetadata_eq written
    exact .of_eq bank params
  | updateParams msg => exact absurd rfl (notUpdate msg)
  | performCreateDenom contractAddr subdenom metadata =>
    simp only [deliver, Keeper.performCreateDenom] at h
    obtain ⟨⟨created, newDenom⟩, create, h⟩ := Atomic.bind_eq_ok.mp h
    have createEffect := k.createDenom_effect d (k.msgCreateDenom_createDenom create)
    cases metadata with
    | none =>
      rw [Atomic.pure_eq_ok] at h
      subst h
      exact createEffect
    | some metadata =>
      obtain ⟨bank, params⟩ := k.performSetMetadata_eq h
      have both := createEffect.trans (.of_eq bank params)
      rwa [add_zero] at both
  | performMint contractAddr denom amount mintToAddress => exact performMint_effect k d h
  | changeAdminBinding contractAddr denom newAdminAddress =>
    simp only [deliver, Keeper.changeAdmin] at h
    obtain ⟨_, -, h⟩ := Atomic.bind_eq_ok.mp h
    obtain ⟨_, -, changed⟩ := Atomic.bind_eq_ok.mp h
    obtain ⟨bank, params⟩ := k.msgChangeAdmin_eq changed
    exact .of_eq bank params
  | performBurn contractAddr denom amount burnFromAddress =>
    simp only [deliver, Keeper.performBurn] at h
    obtain ⟨-, -, burnt⟩ := Atomic.bind_eq_ok.mp h
    obtain ⟨addr, burnFrom⟩ := k.msgBurn_burnFrom burnt
    exact k.burnFrom_effect d burnFrom
  | performForceTransfer contractAddr denom amount fromAddress toAddress =>
    simp only [deliver, Keeper.performForceTransfer] at h
    obtain ⟨_, -, h⟩ := Atomic.bind_eq_ok.mp h
    obtain ⟨_, -, h⟩ := Atomic.bind_eq_ok.mp h
    obtain ⟨_, -, moved⟩ := Atomic.bind_eq_ok.mp h
    exact k.forceTransfer_effect d (k.msgForceTransfer_forceTransfer moved)
  | performSetMetadata contractAddr denom metadata =>
    obtain ⟨bank, params⟩ := k.performSetMetadata_eq h
    exact .of_eq bank params

theorem deliver_updateParams {msg : MsgUpdateParams} (h : deliver k s (.updateParams msg) = .ok s') :
    s' = { s with params := msg.params } := by
  obtain ⟨-, -, updated⟩ := Atomic.bind_eq_ok.mp h
  simp only [Keeper.msgUpdateParams] at updated
  split_ifs at updated
  · simp at updated
  · exact (Atomic.pure_eq_ok.mp updated).symm

/-- Every operation that succeeds either updates the parameters, leaving the bank alone, or keeps
them and has its supply effect. -/
theorem deliver_cases {op : Operation} (h : deliver k s op = .ok s') :
    (∃ msg, op = .updateParams msg ∧ s' = { s with params := msg.params }) ∨ SupplyEffect k d (op.minted d) s s' := by
  by_cases update : ∃ msg, op = .updateParams msg
  · obtain ⟨msg, rfl⟩ := update
    exact .inl ⟨msg, rfl, deliver_updateParams k h⟩
  · exact .inr (deliver_effect k d h fun msg same => update ⟨msg, same⟩)

theorem deliver_netChange {op : Operation} (h : deliver k s op = .ok s') :
    NetChange (s.bank.balance · d) (s'.bank.balance · d) (op.minted d) := by
  rcases deliver_cases k d h with ⟨msg, rfl, rfl⟩ | effect
  · exact NetChange.refl _
  · exact effect.netChange

end Deliver

/-! ### Runs -/

/-- Along any run of tokenfactory messages and binding calls, each failed one leaving the state
as it was, the supply of every denomination changes by what the operations that committed
minted of it less what they burnt of it. -/
theorem supply_change_of_run (k : Keeper) (s : State) (ops : List Operation) (d : String) :
    NetChange (s.bank.balance · d) ((Atomic.execute (deliver k) s ops).bank.balance · d)
      ((Atomic.committed (deliver k) s ops).map (Operation.minted d)).sum :=
  Atomic.execute_accumulate
    (fun (t u : State) (delta : Int) => NetChange (t.bank.balance · d) (u.bank.balance · d) delta)
    (Operation.minted d) (fun _ => NetChange.refl _) (fun first second => first.trans second)
    (fun _ _ _ h => deliver_netChange k d h) s ops

/-- Along any run of tokenfactory messages and binding calls, no holder's balance of a
denomination changes when DeconstructDenom rejects it and neither the creation fee at the start
nor one the run's parameter updates set names it: the module never mints, burns or moves the
chain's other coins. -/
theorem native_balances_of_run (k : Keeper) (s : State) (ops : List Operation) {d : String}
    (native : ∀ p, deconstructDenom k.codec d ≠ .ok p) (unnamed : ∀ c ∈ s.params.denomCreationFee, c.denom ≠ d)
    (updates : ∀ msg, .updateParams msg ∈ ops → ∀ c ∈ msg.params.denomCreationFee, c.denom ≠ d)
    (holder : Holder) : (Atomic.execute (deliver k) s ops).bank.balance holder d = s.bank.balance holder d := by
  -- along the run the fee never names `d`, so the balances of `d` stay
  have keeps : ∀ t op next, op ∈ ops →
      (∀ c ∈ t.params.denomCreationFee, c.denom ≠ d) ∧ (t.bank.balance · d) = (s.bank.balance · d) →
      deliver k t op = .ok next →
      (∀ c ∈ next.params.denomCreationFee, c.denom ≠ d) ∧ (next.bank.balance · d) = (s.bank.balance · d) := by
    rintro t op next mem ⟨fee, balances⟩ h
    rcases deliver_cases k d h with ⟨msg, rfl, rfl⟩ | effect
    · exact ⟨updates msg mem, balances⟩
    · have absent : Coins.total t.params.denomCreationFee d = 0 := by
        apply Coins.total_of_not_mem
        intro named
        obtain ⟨c, mem, same⟩ := List.mem_map.mp named
        exact fee c mem same
      exact ⟨effect.params ▸ fee, (effect.frame native absent).trans balances⟩
  have kept := (Atomic.execute_preserves _ ops keeps ⟨unnamed, rfl⟩).2
  exact congrFun kept holder

def feeState : State := ⟨⟨[⟨"uatom", 10⟩]⟩, Keyed.empty, Keyed.empty, ⟨fun _ _ => 100, fun _ => false, fun _ _ => 0⟩⟩

def nativeTransferOps : List Operation :=
  [.forceTransfer ⟨"juno1contract", ⟨"ujuno", 5⟩, "juno1victim", "juno1contract"⟩,
    .performForceTransfer "juno1contract" "ujuno" 5 "juno1victim" "juno1contract"]

theorem victim_keeps_ujuno :
    (∀ p, deconstructDenom mintKeeper.codec "ujuno" ≠ .ok p) ∧
      (∀ c ∈ feeState.params.denomCreationFee, c.denom ≠ "ujuno") ∧
      (∀ msg, .updateParams msg ∈ nativeTransferOps → ∀ c ∈ msg.params.denomCreationFee, c.denom ≠ "ujuno") ∧
      (Atomic.execute (deliver mintKeeper) feeState nativeTransferOps).bank.balance (.account "juno1victim") "ujuno" =
        100 :=
  ⟨deconstructDenom_of_no_slash _ (by decide), by simp [feeState], by simp [nativeTransferOps],
    native_balances_of_run mintKeeper feeState nativeTransferOps (deconstructDenom_of_no_slash _ (by decide))
      (by simp [feeState]) (by simp [nativeTransferOps]) _⟩

end Juno.TokenFactory
