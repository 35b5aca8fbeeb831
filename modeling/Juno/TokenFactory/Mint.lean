import Juno.TokenFactory.Denoms

/-! Minting through the wasm bindings.

PerformMint has the tokenfactory mint the coins to the calling contract, then checks
whether the bank refuses the recipient and, if not, sends the coins on. The check
wraps the error of the mint, which is nil once the mint succeeded, and a wrapped nil
is nil: for a refused recipient the call succeeds with the coins left with the
contract. Otherwise the recipient is credited and nobody else.
-/

set_option autoImplicit false

namespace Juno.TokenFactory

open Sdk KVStore

variable (k : Keeper)

theorem mintTo_balance {s s' : State} {amount : Coin} {mintTo : String} (h : k.mintTo s amount mintTo = .ok s') :
    ∃ addr coins, k.codec.decode mintTo = some addr ∧ Keeper.single amount = .ok coins ∧
      s' = { s with bank := s'.bank } ∧ s'.bank.blocked = s.bank.blocked ∧
      ∀ holder d, s'.bank.balance holder d = s.bank.balance holder d + Bank.share (.account addr) coins holder d := by
  unfold Keeper.mintTo at h
  obtain ⟨_, -, h⟩ := Atomic.bind_eq_ok.mp h
  obtain ⟨coins, made, h⟩ := Atomic.bind_eq_ok.mp h
  obtain ⟨minted, mint, h⟩ := Atomic.bind_eq_ok.mp h
  obtain ⟨addr, decoded, h⟩ := Atomic.bind_eq_ok.mp h
  split_ifs at h with moduleAcc
  · cases h
  obtain ⟨coins', made', h⟩ := Atomic.bind_eq_ok.mp h
  rw [made, Except.ok.injEq] at made'
  subst made'
  obtain ⟨bank, sent, h⟩ := Atomic.bind_eq_ok.mp h
  rw [Atomic.pure_eq_ok] at h
  subst h
  have credited := Bank.addCoins_eq mint
  unfold Bank.sendCoinsFromModuleToAccount at sent
  split_ifs at sent with blocked
  refine ⟨addr, coins, (Bech32.accAddressFromBech32_ok_iff _ _ _).mp decoded, made, rfl, ?_, ?_⟩
  · rw [Bank.sendCoins_blocked sent, credited, Bank.blocked_foldl_addCoin]
  · intro holder d
    rw [Bank.sendCoins_balance sent, credited, Bank.foldl_addCoin_balance]
    ring

theorem msgMint_balance {s s' : State} {msg : MsgMint} (h : k.msgMint s msg = .ok s') :
    ∃ addr coins, k.codec.decode (if msg.mintToAddress = "" then msg.sender else msg.mintToAddress) = some addr ∧
      Keeper.single msg.amount = .ok coins ∧ s' = { s with bank := s'.bank } ∧ s'.bank.blocked = s.bank.blocked ∧
      ∀ holder d, s'.bank.balance holder d = s.bank.balance holder d + Bank.share (.account addr) coins holder d := by
  simp only [Keeper.msgMint] at h
  by_cases missing : (s.denomMetadata.find? msg.amount.denom).isNone = true
  · simp [missing] at h
  by_cases other : msg.sender = Keeper.getAuthorityMetadata s msg.amount.denom
  · simp only [missing, other, ne_eq, not_true_eq_false, if_false, Bool.false_eq_true] at h
    rw [← other] at h
    exact mintTo_balance k h
  · simp [missing, other] at h

/-- PerformMint credits the recipient, or the contract itself when the bank refuses the recipient,
and changes no other balance and nothing else. -/
theorem performMint_balance {s s' : State} {contractAddr denom mintToAddress : String} {amount : Int}
    (canonical : k.codec.decode contractAddr = some contractAddr)
    (h : k.performMint s contractAddr denom amount mintToAddress = .ok s') :
    ∃ rcpt coins, k.codec.decode mintToAddress = some rcpt ∧ Keeper.single ⟨denom, amount⟩ = .ok coins ∧
      s' = { s with bank := s'.bank } ∧
      ∀ holder d, s'.bank.balance holder d = s.bank.balance holder d +
        Bank.share (.account (if s.bank.blocked rcpt then contractAddr else rcpt)) coins holder d := by
  unfold Keeper.performMint at h
  obtain ⟨rcpt, parsed, h⟩ := Atomic.bind_eq_ok.mp h
  obtain ⟨_, -, h⟩ := Atomic.bind_eq_ok.mp h
  obtain ⟨minted, mint, h⟩ := Atomic.bind_eq_ok.mp h
  obtain ⟨addr, coins, decoded, made, kept, unblocked, credited⟩ := msgMint_balance k mint
  -- the mint credits the contract itself, whose address is canonical
  simp only [ite_self, canonical, Option.some.injEq] at decoded
  subst decoded
  have rcptDecoded : k.codec.decode mintToAddress = some rcpt := by
    unfold Keeper.parseAddress at parsed
    split at parsed
    · cases parsed
      assumption
    · cases parsed
  refine ⟨rcpt, coins, rcptDecoded, made, ?_⟩
  rw [← unblocked]
  split at h
  · -- a blocked recipient: the call returns the minted state
    rename_i blocked
    rw [Atomic.pure_eq_ok] at h
    subst h
    rw [if_pos blocked]
    exact ⟨kept, credited⟩
  · rename_i free
    obtain ⟨coins', made', h⟩ := Atomic.bind_eq_ok.mp h
    rw [made, Except.ok.injEq] at made'
    subst made'
    obtain ⟨bank, sent, h⟩ := Atomic.bind_eq_ok.mp h
    rw [Atomic.pure_eq_ok] at h
    subst h
    refine ⟨by rw [kept], ?_⟩
    intro holder d
    rw [if_neg free, Bank.sendCoins_balance sent, credited]
    ring

def mintKeeper : Keeper :=
  ⟨Bech32.identity, fun _ => false, [], Metadata.validate, "juno10d07y265gmmuvt4z0w9aw880jnsr700jvss730"⟩

def blockedState : State :=
  ⟨⟨[]⟩, Keyed.empty.put ("factory/juno1contract/token", "juno1contract"),
    Keyed.empty.put ("factory/juno1contract/token", ⟨"", [⟨"factory/juno1contract/token", 0, []⟩],
      "factory/juno1contract/token", "factory/juno1contract/token", "factory/juno1contract/token",
      "factory/juno1contract/token"⟩),
    ⟨fun _ _ => 0, fun a => a = "juno1collector", fun _ _ => 0⟩⟩

theorem blocked_mint_stays_with_contract :
    ∃ s', mintKeeper.performMint blockedState "juno1contract" "factory/juno1contract/token" 5 "juno1collector" =
        .ok s' ∧
      s'.bank.balance (.account "juno1contract") "factory/juno1contract/token" = 5 ∧
      s'.bank.balance (.account "juno1collector") "factory/juno1contract/token" = 0 := by
  have layout : "factory/juno1contract/token" = moduleDenomPrefix ++ "/" ++ "juno1contract" ++ "/" ++ "token" := by
    decide
  have parsed : deconstructDenom Bech32.identity "factory/juno1contract/token" = .ok ("juno1contract", "token") := by
    rw [layout, deconstructDenom_layout Bech32.identity (by decide) (by decide)]
    rfl
  obtain ⟨s', minted⟩ : ∃ s', mintKeeper.performMint blockedState "juno1contract" "factory/juno1contract/token" 5
      "juno1collector" = .ok s' := by
    cases result : mintKeeper.performMint blockedState "juno1contract" "factory/juno1contract/token" 5
        "juno1collector" with
    | ok s' => exact ⟨s', rfl⟩
    | error e =>
      -- with the denomination read, the rest of the call evaluates
      have succeeds : (mintKeeper.performMint blockedState "juno1contract" "factory/juno1contract/token" 5
          "juno1collector").isOk = true := by
        simp only [Keeper.performMint, Keeper.msgMint, Keeper.mintTo, mintKeeper, parsed]
        decide +kernel
      rw [result] at succeeds
      cases succeeds
  refine ⟨s', minted, ?_⟩
  obtain ⟨rcpt, coins, decoded, made, -, credited⟩ := performMint_balance mintKeeper rfl minted
  cases decoded
  rw [Keeper.single, Coins.newCoins_single (by decide) (by decide), Except.ok.injEq] at made
  subst made
  constructor
  · rw [credited]
    decide
  · rw [credited]
    decide

end Juno.TokenFactory
