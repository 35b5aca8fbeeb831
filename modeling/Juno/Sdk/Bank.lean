import Juno.Sdk.Coins
import Juno.Semantics.Atomic
import Juno.Semantics.Supply

/-! The bank keeper, as far as the modules move coins through it.

Balances of accounts and module accounts per denomination, after the SDK keeper's
`subUnlockedCoins` and `addCoins`. A send first takes every coin from the sender,
failing on an invalid coin set or on a coin its spendable balance does not cover,
then credits the recipient; a failed send changes nothing. What a vesting account
still locks at the current block time (`LockedCoins`) is part of the state and is
arbitrary. Send restrictions and the creation of recipient accounts are left out;
sends to a module account assume that module account exists, as it does in the app.
-/

set_option autoImplicit false

namespace Sdk

inductive Holder
  | account (address : String)
  | module (name : String)
  deriving DecidableEq, Repr

def feeCollectorName : String := "fee_collector"

structure Bank where
  balance : Holder → String → Int
  /-- Addresses the keeper refuses to pay from a module account. -/
  blocked : String → Bool
  /-- What each account's vesting schedule locks now, per denomination. -/
  locked : String → String → Nat

namespace Bank

/-- `LockedCoins`: a module account is no vesting account and locks nothing. -/
def lockedCoins (b : Bank) : Holder → String → Nat
  | .account addr, denom => b.locked addr denom
  | .module _, _ => 0

/-- The balance less what is locked: what `subUnlockedCoins` may take. -/
def spendable (b : Bank) (holder : Holder) (denom : String) : Int :=
  b.balance holder denom - b.lockedCoins holder denom

def setBalance (b : Bank) (holder : Holder) (denom : String) (amount : Int) : Bank :=
  { b with balance := fun h d => if h = holder ∧ d = denom then amount else b.balance h d }

/-- One round of `subUnlockedCoins`' loop: the locked amount must not exceed the balance,
and the rest must cover the coin. -/
def subCoin (addr : Holder) (b : Bank) (coin : Coin) : Except String Bank :=
  let balance := b.balance addr coin.denom
  let locked : Int := b.lockedCoins addr coin.denom
  if balance < locked then .error "locked amount exceeds account balance funds"
  else if balance - locked < coin.amount then .error "spendable balance is smaller than the amount"
  else .ok (b.setBalance addr coin.denom (balance - coin.amount))

def addCoin (addr : Holder) (b : Bank) (coin : Coin) : Bank :=
  b.setBalance addr coin.denom (b.balance addr coin.denom + coin.amount)

def subUnlockedCoins (b : Bank) (addr : Holder) (amt : Coins) : Except String Bank :=
  if !Coins.isValid amt then .error "invalid coins" else amt.foldlM (subCoin addr) b

def addCoins (b : Bank) (addr : Holder) (amt : Coins) : Except String Bank :=
  if !Coins.isValid amt then .error "invalid coins" else .ok (amt.foldl (addCoin addr) b)

def sendCoins (b : Bank) (fromAddr toAddr : Holder) (amt : Coins) : Except String Bank := do
  let b ← b.subUnlockedCoins fromAddr amt
  b.addCoins toAddr amt

def sendCoinsFromModuleToModule (b : Bank) (senderModule recipientModule : String) (amt : Coins) :
    Except String Bank :=
  b.sendCoins (.module senderModule) (.module recipientModule) amt

def sendCoinsFromAccountToModule (b : Bank) (senderAddr : String) (recipientModule : String)
    (amt : Coins) : Except String Bank :=
  b.sendCoins (.account senderAddr) (.module recipientModule) amt

def sendCoinsFromModuleToAccount (b : Bank) (senderModule : String) (recipientAddr : String)
    (amt : Coins) : Except String Bank :=
  if b.blocked recipientAddr then .error "is not allowed to receive funds"
  else b.sendCoins (.module senderModule) (.account recipientAddr) amt

def mintCoins (b : Bank) (moduleName : String) (amounts : Coins) : Except String Bank :=
  b.addCoins (.module moduleName) amounts

def burnCoins (b : Bank) (moduleName : String) (amounts : Coins) : Except String Bank :=
  b.subUnlockedCoins (.module moduleName) amounts

/-! ## What a send does -/

@[simp] theorem balance_setBalance (b : Bank) (holder : Holder) (denom : String) (amount : Int)
    (h : Holder) (d : String) :
    (b.setBalance holder denom amount).balance h d =
      if h = holder ∧ d = denom then amount else b.balance h d := rfl

@[simp] theorem blocked_setBalance (b : Bank) (holder : Holder) (denom : String) (amount : Int) :
    (b.setBalance holder denom amount).blocked = b.blocked := rfl

@[simp] theorem lockedCoins_setBalance (b : Bank) (holder : Holder) (denom : String) (amount : Int) :
    (b.setBalance holder denom amount).lockedCoins = b.lockedCoins := rfl

@[simp] theorem spendable_module (b : Bank) (name d : String) :
    b.spendable (.module name) d = b.balance (.module name) d := by
  simp [spendable, lockedCoins]

theorem subCoin_ok {addr : Holder} {b b' : Bank} {coin : Coin} (h : subCoin addr b coin = .ok b') :
    coin.amount ≤ b.spendable addr coin.denom ∧
      b' = b.setBalance addr coin.denom (b.balance addr coin.denom - coin.amount) := by
  unfold subCoin at h
  dsimp only at h
  split_ifs at h with short uncovered
  cases h
  exact ⟨by unfold spendable; omega, rfl⟩

theorem subCoin_of_covered {addr : Holder} {b : Bank} {coin : Coin} (nonneg : 0 ≤ coin.amount)
    (covered : coin.amount ≤ b.spendable addr coin.denom) :
    subCoin addr b coin = .ok (b.setBalance addr coin.denom (b.balance addr coin.denom - coin.amount)) := by
  unfold spendable at covered
  -- a nonnegative coin within the spendable balance passes the lock check as well
  have unlocked : ¬ b.balance addr coin.denom < b.lockedCoins addr coin.denom := by omega
  have enough : ¬ b.balance addr coin.denom - b.lockedCoins addr coin.denom < coin.amount := by omega
  simp only [subCoin, unlocked, enough, if_false]

def share (source : Holder) (amt : Coins) (h : Holder) (d : String) : Int :=
  if h = source then Coins.total amt d else 0

theorem foldlM_subCoin_balance (addr : Holder) (amt : Coins) {b b' : Bank}
    (h : amt.foldlM (subCoin addr) b = .ok b') (holder : Holder) (d : String) :
    b'.balance holder d = b.balance holder d - share addr amt holder d := by
  induction amt generalizing b with
  | nil =>
    cases h
    simp [share]
  | cons coin rest ih =>
    rw [List.foldlM_cons, Atomic.bind_eq_ok] at h
    obtain ⟨middle, first, tail⟩ := h
    rw [ih tail]
    obtain ⟨-, rfl⟩ := subCoin_ok first
    by_cases at_addr : holder = addr
    · by_cases same : d = coin.denom
      · subst at_addr same
        simp [share, Coins.total_cons]
        omega
      · simp [share, Coins.total_cons, at_addr, same, Ne.symm same]
    · simp [share, at_addr]

theorem foldl_addCoin_balance (addr : Holder) (amt : Coins) (b : Bank) (holder : Holder) (d : String) :
    (amt.foldl (addCoin addr) b).balance holder d = b.balance holder d + share addr amt holder d := by
  induction amt generalizing b with
  | nil => simp [share]
  | cons coin rest ih =>
    rw [List.foldl_cons, ih]
    by_cases at_addr : holder = addr
    · by_cases same : d = coin.denom
      · subst at_addr same
        simp [addCoin, share, Coins.total_cons]
        omega
      · simp [addCoin, share, Coins.total_cons, at_addr, same, Ne.symm same]
    · simp [addCoin, share, at_addr]

@[simp] theorem blocked_foldl_addCoin (addr : Holder) (amt : Coins) (b : Bank) :
    (amt.foldl (addCoin addr) b).blocked = b.blocked := by
  induction amt generalizing b with
  | nil => rfl
  | cons coin rest ih => exact ih _

@[simp] theorem locked_foldl_addCoin (addr : Holder) (amt : Coins) (b : Bank) :
    (amt.foldl (addCoin addr) b).locked = b.locked := by
  induction amt generalizing b with
  | nil => rfl
  | cons coin rest ih => exact ih _

theorem addCoins_eq {b b' : Bank} {addr : Holder} {amt : Coins} (h : b.addCoins addr amt = .ok b') :
    b' = amt.foldl (addCoin addr) b := by
  unfold addCoins at h
  split_ifs at h
  cases h
  rfl

theorem foldlM_subCoin_ok_iff (addr : Holder) {amt : Coins} (sorted : Coins.Sorted amt)
    (nonneg : ∀ c ∈ amt, 0 ≤ c.amount) (b : Bank) :
    (∃ b', amt.foldlM (subCoin addr) b = .ok b') ↔ ∀ coin ∈ amt, coin.amount ≤ b.spendable addr coin.denom := by
  induction amt generalizing b with
  | nil => simp [pure, Except.pure]
  | cons coin rest ih =>
    rw [Coins.Sorted, List.pairwise_cons] at sorted
    obtain ⟨above, tail⟩ := sorted
    simp only [List.forall_mem_cons] at nonneg ⊢
    rw [List.foldlM_cons]
    by_cases covered : coin.amount ≤ b.spendable addr coin.denom
    · -- Taking `coin` leaves the spendable balances of the later denominations as they were.
      have later : ∀ c ∈ rest, (b.setBalance addr coin.denom (b.balance addr coin.denom - coin.amount)).spendable
          addr c.denom = b.spendable addr c.denom := by
        intro c hc
        have ne : c.denom ≠ coin.denom := ne_of_gt (above c hc)
        simp [spendable, ne]
      rw [subCoin_of_covered nonneg.1 covered]
      simp only [bind, Except.bind]
      rw [ih tail nonneg.2]
      constructor
      · intro all
        exact ⟨covered, fun c hc => (later c hc) ▸ all c hc⟩
      · rintro ⟨-, all⟩ c hc
        rw [later c hc]
        exact all c hc
    · simp only [covered, false_and, iff_false]
      rintro ⟨b', h⟩
      rw [Atomic.bind_eq_ok] at h
      obtain ⟨middle, first, -⟩ := h
      exact covered (subCoin_ok first).1

theorem subUnlockedCoins_ok_iff (b : Bank) (addr : Holder) (amt : Coins) :
    (∃ b', b.subUnlockedCoins addr amt = .ok b') ↔
      Coins.isValid amt = true ∧ ∀ coin ∈ amt, coin.amount ≤ b.spendable addr coin.denom := by
  unfold subUnlockedCoins
  by_cases valid : Coins.isValid amt = true
  · simp only [valid, Bool.not_true, Bool.false_eq_true, if_false, true_and]
    exact foldlM_subCoin_ok_iff addr (Coins.sorted_of_isValid valid)
      (fun c hc => (Coins.positive_of_isValid valid hc).le) b
  · simp [valid]

/-- A send succeeds exactly on a valid coin set the sender's spendable balance covers. -/
theorem sendCoins_ok_iff (b : Bank) (fromAddr toAddr : Holder) (amt : Coins) :
    (∃ b', b.sendCoins fromAddr toAddr amt = .ok b') ↔
      Coins.isValid amt = true ∧ ∀ coin ∈ amt, coin.amount ≤ b.spendable fromAddr coin.denom := by
  rw [← subUnlockedCoins_ok_iff]
  unfold sendCoins
  constructor
  · rintro ⟨b', h⟩
    rw [Atomic.bind_eq_ok] at h
    obtain ⟨middle, first, -⟩ := h
    exact ⟨middle, first⟩
  · rintro ⟨middle, first⟩
    -- The credit cannot fail once the debit accepted the coin set.
    have valid : Coins.isValid amt = true := ((subUnlockedCoins_ok_iff b fromAddr amt).mp ⟨middle, first⟩).1
    refine ⟨amt.foldl (addCoin toAddr) middle, ?_⟩
    simp [first, bind, Except.bind, addCoins, valid]

theorem sendCoins_balance {b b' : Bank} {fromAddr toAddr : Holder} {amt : Coins}
    (h : b.sendCoins fromAddr toAddr amt = .ok b') (holder : Holder) (d : String) :
    b'.balance holder d =
      b.balance holder d - share fromAddr amt holder d + share toAddr amt holder d := by
  unfold sendCoins at h
  rw [Atomic.bind_eq_ok] at h
  obtain ⟨middle, first, second⟩ := h
  unfold subUnlockedCoins at first
  unfold addCoins at second
  split_ifs at first second with invalid
  cases second
  rw [foldl_addCoin_balance, foldlM_subCoin_balance fromAddr amt first]

theorem sendCoins_keeps {b b' : Bank} {fromAddr toAddr : Holder} {amt : Coins}
    (h : b.sendCoins fromAddr toAddr amt = .ok b') : b'.blocked = b.blocked ∧ b'.locked = b.locked := by
  unfold sendCoins at h
  rw [Atomic.bind_eq_ok] at h
  obtain ⟨middle, first, second⟩ := h
  unfold subUnlockedCoins at first
  unfold addCoins at second
  split_ifs at first second
  cases second
  have taken : (middle.blocked, middle.locked) = (b.blocked, b.locked) := by
    refine Atomic.foldlM_observe (fun b : Bank => (b.blocked, b.locked)) (subCoin fromAddr) amt ?_ first
    intro s coin next step
    obtain ⟨-, rfl⟩ := subCoin_ok step
    rfl
  rw [Prod.mk.injEq] at taken
  simp only [blocked_foldl_addCoin, locked_foldl_addCoin, taken, and_self]

theorem sendCoins_blocked {b b' : Bank} {fromAddr toAddr : Holder} {amt : Coins}
    (h : b.sendCoins fromAddr toAddr amt = .ok b') : b'.blocked = b.blocked :=
  (sendCoins_keeps h).1

theorem sendCoins_lockedCoins {b b' : Bank} {fromAddr toAddr : Holder} {amt : Coins}
    (h : b.sendCoins fromAddr toAddr amt = .ok b') : b'.lockedCoins = b.lockedCoins := by
  funext holder d
  cases holder <;> simp [lockedCoins, (sendCoins_keeps h).2]

theorem sendCoins_single_ok_iff (b : Bank) (fromAddr toAddr : Holder) {denom : String} {amount : Int}
    (valid : validateDenom denom = true) (nonneg : 0 ≤ amount) :
    (∃ b', b.sendCoins fromAddr toAddr (if amount = 0 then [] else [⟨denom, amount⟩]) = .ok b') ↔
      amount = 0 ∨ amount ≤ b.spendable fromAddr denom := by
  rw [sendCoins_ok_iff]
  by_cases zero : amount = 0
  · simp [zero, Coins.isValid]
  · have positive : 0 < amount := lt_of_le_of_ne nonneg (Ne.symm zero)
    simp [zero, Coins.isValid, valid, positive]

theorem share_single (source : Holder) (denom : String) (amount : Int) (h : Holder) (d : String) :
    share source (if amount = 0 then [] else [⟨denom, amount⟩]) h d =
      if h = source ∧ d = denom then amount else 0 := by
  by_cases at_source : h = source
  · by_cases same : d = denom
    · by_cases zero : amount = 0 <;> simp [share, Coins.total, at_source, same, zero]
    · by_cases zero : amount = 0 <;> simp [share, Coins.total, at_source, same, Ne.symm same, zero]
  · simp [share, at_source]

/-! ### A module account's balance across the keeper's sends -/

theorem sendCoinsFromModuleToAccount_balance {b b' : Bank} {senderModule recipientAddr : String}
    {amt : Coins} (h : b.sendCoinsFromModuleToAccount senderModule recipientAddr amt = .ok b') (d : String) :
    b'.balance (.module senderModule) d = b.balance (.module senderModule) d - Coins.total amt d := by
  unfold sendCoinsFromModuleToAccount at h
  split_ifs at h
  rw [sendCoins_balance h]
  simp [share]

theorem sendCoinsFromAccountToModule_balance {b b' : Bank} {senderAddr recipientModule : String}
    {amt : Coins} (h : b.sendCoinsFromAccountToModule senderAddr recipientModule amt = .ok b') (d : String) :
    b'.balance (.module recipientModule) d = b.balance (.module recipientModule) d + Coins.total amt d := by
  rw [sendCoins_balance h]
  simp [share]

theorem sendCoinsFromModuleToModule_balance {b b' : Bank} {senderModule recipientModule : String}
    {amt : Coins} (h : b.sendCoinsFromModuleToModule senderModule recipientModule amt = .ok b')
    (distinct : senderModule ≠ recipientModule) (d : String) :
    b'.balance (.module senderModule) d = b.balance (.module senderModule) d - Coins.total amt d := by
  unfold sendCoinsFromModuleToModule at h
  rw [sendCoins_balance h]
  simp [share, distinct]

theorem sendCoinsFromModuleToModule_account {b b' : Bank} {senderModule recipientModule : String}
    {amt : Coins} (h : b.sendCoinsFromModuleToModule senderModule recipientModule amt = .ok b') (addr d : String) :
    b'.balance (.account addr) d = b.balance (.account addr) d := by
  rw [sendCoins_balance h]
  simp [share]

/-! ### The supply of a denomination

Sends change the balances of a denomination at the sender and the recipient and leave their
sum over all holders alone; a mint adds the coins' amount to it and a burn takes it away. -/

open Supply

theorem sendCoins_netChange {b b' : Bank} {fromAddr toAddr : Holder} {amt : Coins}
    (h : b.sendCoins fromAddr toAddr amt = .ok b') (d : String) :
    NetChange (b.balance · d) (b'.balance · d) 0 :=
  (NetChange.transfer _ fromAddr toAddr (Coins.total amt d)).congr_right fun holder =>
    (sendCoins_balance h holder d).symm

theorem sendCoinsFromModuleToAccount_netChange {b b' : Bank} {senderModule recipientAddr : String}
    {amt : Coins} (h : b.sendCoinsFromModuleToAccount senderModule recipientAddr amt = .ok b') (d : String) :
    NetChange (b.balance · d) (b'.balance · d) 0 := by
  unfold sendCoinsFromModuleToAccount at h
  split_ifs at h
  exact sendCoins_netChange h d

theorem addCoins_netChange {b b' : Bank} {addr : Holder} {amt : Coins} (h : b.addCoins addr amt = .ok b')
    (d : String) : NetChange (b.balance · d) (b'.balance · d) (Coins.total amt d) := by
  rw [addCoins_eq h]
  exact (NetChange.single _ addr (Coins.total amt d)).congr_right fun holder =>
    (foldl_addCoin_balance addr amt b holder d).symm

theorem subUnlockedCoins_netChange {b b' : Bank} {addr : Holder} {amt : Coins}
    (h : b.subUnlockedCoins addr amt = .ok b') (d : String) :
    NetChange (b.balance · d) (b'.balance · d) (-Coins.total amt d) := by
  unfold subUnlockedCoins at h
  split_ifs at h
  refine (NetChange.single _ addr (-Coins.total amt d)).congr_right fun holder => ?_
  rw [foldlM_subCoin_balance addr amt h, share]
  split_ifs <;> omega

theorem mintCoins_netChange {b b' : Bank} {moduleName : String} {amounts : Coins}
    (h : b.mintCoins moduleName amounts = .ok b') (d : String) :
    NetChange (b.balance · d) (b'.balance · d) (Coins.total amounts d) :=
  addCoins_netChange h d

theorem burnCoins_netChange {b b' : Bank} {moduleName : String} {amounts : Coins}
    (h : b.burnCoins moduleName amounts = .ok b') (d : String) :
    NetChange (b.balance · d) (b'.balance · d) (-Coins.total amounts d) :=
  subUnlockedCoins_netChange h d

theorem sendCoins_nil (b : Bank) (fromAddr toAddr : Holder) : b.sendCoins fromAddr toAddr [] = .ok b := rfl

theorem sendCoinsFromModuleToAccount_nil {b b' : Bank} {senderModule recipientAddr : String}
    (h : b.sendCoinsFromModuleToAccount senderModule recipientAddr [] = .ok b') : b' = b := by
  unfold sendCoinsFromModuleToAccount at h
  split_ifs at h
  rw [sendCoins_nil, Except.ok.injEq] at h
  exact h.symm

theorem sendCoins_frame {b b' : Bank} {fromAddr toAddr : Holder} {amt : Coins}
    (h : b.sendCoins fromAddr toAddr amt = .ok b') {d : String} (absent : Coins.total amt d = 0) :
    (b'.balance · d) = (b.balance · d) := by
  funext holder
  rw [sendCoins_balance h]
  simp [share, absent]

theorem sendCoinsFromModuleToAccount_frame {b b' : Bank} {senderModule recipientAddr : String} {amt : Coins}
    (h : b.sendCoinsFromModuleToAccount senderModule recipientAddr amt = .ok b') {d : String}
    (absent : Coins.total amt d = 0) : (b'.balance · d) = (b.balance · d) := by
  unfold sendCoinsFromModuleToAccount at h
  split_ifs at h
  exact sendCoins_frame h absent

theorem addCoins_frame {b b' : Bank} {addr : Holder} {amt : Coins} (h : b.addCoins addr amt = .ok b')
    {d : String} (absent : Coins.total amt d = 0) : (b'.balance · d) = (b.balance · d) := by
  funext holder
  rw [addCoins_eq h, foldl_addCoin_balance]
  simp [share, absent]

theorem subUnlockedCoins_frame {b b' : Bank} {addr : Holder} {amt : Coins}
    (h : b.subUnlockedCoins addr amt = .ok b') {d : String} (absent : Coins.total amt d = 0) :
    (b'.balance · d) = (b.balance · d) := by
  unfold subUnlockedCoins at h
  split_ifs at h
  funext holder
  rw [foldlM_subCoin_balance addr amt h]
  simp [share, absent]

end Bank

end Sdk
