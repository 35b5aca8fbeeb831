import Juno.Sdk.Bank
import Juno.Sdk.Wasm
import Juno.Semantics.Atomic

/-! The x/drip module: accounts on an allow-list send coins to the fee collector, to be
distributed to the stakers at the next block.

The parameters switch the module on and name the allowed senders. `Params.Validate`
accepts an allow-list whose addresses are not blank, decode, and do not repeat
(`assertValidAddresses_ok_iff`). `SetParams` validates before it stores, so genesis and
every `MsgUpdateParams` the authority sends can only store valid parameters;
`MsgUpdateParams` validates them a second time first. `MsgDistributeTokens` moves the
sender's valid coins to the fee collector when the module is on and the sender is on
the allow-list in force.
-/

set_option autoImplicit false

namespace Juno.Drip

open Sdk

structure Params where
  enableDrip : Bool
  allowedAddresses : List String
  deriving DecidableEq, Repr

def defaultParams : Params := ⟨true, []⟩

def assertValidAddress (codec : Bech32) (idx : List String) (a : String) : Except String (List String) :=
  if a = "" then .error ("address: " ++ a ++ ": address cannot be blank")
  else match codec.accAddressFromBech32 a with
    | .error err => .error ("address: " ++ a ++ ": " ++ err)
    | .ok _ => if a ∈ idx then .error ("address: " ++ a ++ ": duplicate") else .ok (a :: idx)

/-- `assertValidAddresses`; the map of seen addresses is a list. -/
def assertValidAddresses (codec : Bech32) (addrs : List String) : Except String Unit :=
  (addrs.foldlM (assertValidAddress codec) []).map fun _ => ()

/-- `Params.Validate`; the type checks of `validateBool` and `validateArray` cannot fail on
typed parameters. -/
def Params.validate (codec : Bech32) (p : Params) : Except String Unit :=
  assertValidAddresses codec p.allowedAddresses

structure Keeper where
  codec : Bech32
  feeCollectorName : String
  authority : String

/-- The module store, with the parameters once they are set, and the bank. -/
structure State where
  params : Option Params
  bank : Bank

structure MsgDistributeTokens where
  senderAddress : String
  amount : Coins

structure MsgUpdateParams where
  authority : String
  params : Params

structure GenesisState where
  params : Params

/-- `Keeper.GetParams`: the zero parameters, the module off and no one allowed, until set. -/
def getParams (s : State) : Params :=
  match s.params with
  | some p => p
  | none => ⟨false, []⟩

namespace Keeper

variable (k : Keeper)

def setParams (s : State) (p : Params) : Except String State := do
  p.validate k.codec
  pure { s with params := some p }

def distributeTokens (s : State) (msg : MsgDistributeTokens) : Except String State :=
  if msg.senderAddress = "" then .error "sender address cannot be empty"
  else match k.codec.accAddressFromBech32 msg.senderAddress with
  | .error err => .error ("invalid sender address: " ++ err ++ ": " ++ err)
  | .ok _ =>
    if msg.amount.isEmpty then .error ("invalid coins: " ++ Coins.string msg.amount)
    else if !Coins.isValid msg.amount then .error ("invalid coins: " ++ Coins.string msg.amount)
    else
      let params := getParams s
      if !params.enableDrip then .error "drip module is disabled by governance"
      -- Check if sender is allowed
      else if !params.allowedAddresses.contains msg.senderAddress then
        .error "this address is not allowed to use the module, you can request access from governance"
      else do
        let sender ← k.codec.accAddressFromBech32 msg.senderAddress
        let bank ← s.bank.sendCoinsFromAccountToModule sender k.feeCollectorName msg.amount
        pure { s with bank := bank }

/-- `msgServer.UpdateParams`: the parameters are validated, and validated again as they are set. -/
def updateParams (s : State) (req : MsgUpdateParams) : Except String State :=
  if k.authority ≠ req.authority then
    .error ("invalid authority; expected " ++ k.authority ++ ", got " ++ req.authority ++
      ": expected gov account as only signer for proposal message")
  else do
    req.params.validate k.codec
    k.setParams s req.params

def initGenesis (s : State) (data : GenesisState) : Except String State := k.setParams s data.params

def exportGenesis (s : State) : GenesisState := ⟨getParams s⟩

end Keeper

/-- The module's messages. -/
inductive Operation
  | distributeTokens (msg : MsgDistributeTokens)
  | updateParams (req : MsgUpdateParams)

def deliver (k : Keeper) (s : State) : Operation → Except String State
  | .distributeTokens msg => k.distributeTokens s msg
  | .updateParams req => k.updateParams s req

/-! ### Validation -/

theorem assertValidAddress_ok_iff (codec : Bech32) (idx : List String) (a : String) (r : List String) :
    assertValidAddress codec idx a = .ok r ↔ a ≠ "" ∧ (codec.decode a).isSome ∧ a ∉ idx ∧ r = a :: idx := by
  unfold assertValidAddress
  by_cases blank : a = ""
  · simp [blank]
  · cases decoded : codec.decode a with
    | none => simp [blank, Bech32.accAddressFromBech32, decoded]
    | some addr =>
      by_cases seen : a ∈ idx
      · simp [blank, Bech32.accAddressFromBech32, decoded, seen]
      · simp [blank, Bech32.accAddressFromBech32, decoded, seen, eq_comm]

theorem foldlM_assertValidAddress_ok_iff (codec : Bech32) (addrs idx : List String) :
    (∃ r, addrs.foldlM (assertValidAddress codec) idx = .ok r) ↔
      (∀ a ∈ addrs, a ≠ "" ∧ (codec.decode a).isSome) ∧ addrs.Nodup ∧ ∀ a ∈ addrs, a ∉ idx := by
  have loop := Atomic.foldlM_seen_ok_iff (assertValidAddress codec) id (fun a => a ≠ "" ∧ (codec.decode a).isSome)
    (fun seen a r => by simp only [assertValidAddress_ok_iff, id, and_assoc]) addrs idx
  simpa only [List.map_id, id] using loop

/-- `assertValidAddresses` passes exactly the lists of addresses that are not blank, decode,
and do not repeat. -/
theorem assertValidAddresses_ok_iff (codec : Bech32) (addrs : List String) :
    assertValidAddresses codec addrs = .ok () ↔ (∀ a ∈ addrs, a ≠ "" ∧ (codec.decode a).isSome) ∧ addrs.Nodup := by
  have loop := foldlM_assertValidAddress_ok_iff codec addrs []
  simp only [List.not_mem_nil, not_false_eq_true, implies_true, and_true] at loop
  rw [← loop]
  unfold assertValidAddresses
  cases addrs.foldlM (assertValidAddress codec) [] <;> simp [Except.map]

theorem defaultParams_validate (codec : Bech32) : defaultParams.validate codec = .ok () := rfl

namespace Keeper

variable (k : Keeper)

theorem setParams_ok_iff (s s' : State) (p : Params) :
    k.setParams s p = .ok s' ↔ p.validate k.codec = .ok () ∧ s' = { s with params := some p } := by
  unfold setParams
  cases p.validate k.codec <;> simp [bind, Except.bind, pure, Except.pure, eq_comm]

theorem updateParams_ok_iff (s s' : State) (req : MsgUpdateParams) :
    k.updateParams s req = .ok s' ↔
      req.authority = k.authority ∧ req.params.validate k.codec = .ok () ∧ s' = { s with params := some req.params } := by
  unfold updateParams
  by_cases signer : k.authority = req.authority
  · rw [if_neg (not_not.mpr signer)]
    cases valid : req.params.validate k.codec with
    | error e => simp [bind, Except.bind]
    | ok u => simp [bind, Except.bind, setParams_ok_iff, valid, signer]
  · rw [if_pos signer]
    simp [Ne.symm signer]

/-- A distribution succeeds exactly when the sender is a nonblank address that decodes and is
on the allow-list in force, the module is on, the coins are valid and not empty, and the bank
moves them from the sender to the fee collector. -/
theorem distributeTokens_ok_iff (s s' : State) (msg : MsgDistributeTokens) :
    k.distributeTokens s msg = .ok s' ↔
      msg.senderAddress ≠ "" ∧ msg.amount ≠ [] ∧ Coins.isValid msg.amount = true ∧
        (getParams s).enableDrip = true ∧ msg.senderAddress ∈ (getParams s).allowedAddresses ∧
        ∃ sender bank, k.codec.decode msg.senderAddress = some sender ∧
          s.bank.sendCoinsFromAccountToModule sender k.feeCollectorName msg.amount = .ok bank ∧
          s' = { s with bank := bank } := by
  unfold distributeTokens
  by_cases blank : msg.senderAddress = ""
  · simp [blank]
  cases decoded : k.codec.decode msg.senderAddress with
  | none => simp [blank, Bech32.accAddressFromBech32, decoded]
  | some sender =>
    by_cases empty : msg.amount = []
    · simp [blank, Bech32.accAddressFromBech32, decoded, empty]
    by_cases valid : Coins.isValid msg.amount = true
    · by_cases on : (getParams s).enableDrip = true
      · by_cases allowed : msg.senderAddress ∈ (getParams s).allowedAddresses
        · have passed : (!(getParams s).allowedAddresses.contains msg.senderAddress) = false := by simpa using allowed
          simp only [blank, if_false, Bech32.accAddressFromBech32, decoded, List.isEmpty_iff, empty, valid,
            Bool.not_true, Bool.false_eq_true, on, passed, bind, Except.bind]
          cases sent : s.bank.sendCoinsFromAccountToModule sender k.feeCollectorName msg.amount with
          | error e => simp [blank, empty, allowed, sent]
          | ok bank => simp [blank, empty, allowed, sent, pure, Except.pure, eq_comm]
        · simp [blank, Bech32.accAddressFromBech32, decoded, empty, valid, on, allowed]
      · simp [blank, Bech32.accAddressFromBech32, decoded, empty, valid, on]
    · simp [blank, Bech32.accAddressFromBech32, decoded, empty, valid]

end Keeper

/-! ### Runs -/

/-- The parameters in force validate: those stored, or the zero ones before any are. -/
def ParamsValid (k : Keeper) (s : State) : Prop := (getParams s).validate k.codec = .ok ()

theorem paramsValid_preserved (k : Keeper) : Atomic.Preserves (deliver k) (ParamsValid k) := by
  intro s op s' valid step
  cases op with
  | distributeTokens msg =>
    -- a distribution leaves the parameters alone
    obtain ⟨-, -, -, -, -, _, _, -, -, rfl⟩ := (k.distributeTokens_ok_iff s s' msg).mp step
    exact valid
  | updateParams req =>
    obtain ⟨-, checked, rfl⟩ := (k.updateParams_ok_iff s s' req).mp step
    exact checked

/-- From a genesis that `InitGenesis` accepts, through any run of drip messages, the
allow-list in force holds no blank address, none that does not decode, and no repeat. -/
theorem allowList_wellFormed_of_run (k : Keeper) (s s₀ : State) (genesis : GenesisState)
    (init : k.initGenesis s genesis = .ok s₀) (ops : List Operation) :
    (∀ a ∈ (getParams (Atomic.execute (deliver k) s₀ ops)).allowedAddresses, a ≠ "" ∧ (k.codec.decode a).isSome) ∧
      (getParams (Atomic.execute (deliver k) s₀ ops)).allowedAddresses.Nodup := by
  have start : ParamsValid k s₀ := by
    obtain ⟨checked, rfl⟩ := (k.setParams_ok_iff s s₀ genesis.params).mp init
    exact checked
  exact (assertValidAddresses_ok_iff k.codec _).mp ((paramsValid_preserved k).reachable start ⟨ops, rfl⟩)

/-! Governance allows one contract, which then sends 100ujuno to the stakers. -/

def dripKeeper : Keeper := ⟨Bech32.identity, feeCollectorName, "juno10d07y265gmmuvt4z0w9aw880jnsr700jvss730"⟩

def dripBank : Bank :=
  ⟨fun h d => if h = .account "juno1contract" ∧ d = "ujuno" then 1000 else 0, fun _ => false, fun _ _ => 0⟩

def dripOps : List Operation :=
  [.updateParams ⟨dripKeeper.authority, ⟨true, ["juno1contract"]⟩⟩,
    .distributeTokens ⟨"juno1contract", [⟨"ujuno", 100⟩]⟩]

theorem allowList_wellFormed_after_genesis :
    ∃ s₀, dripKeeper.initGenesis ⟨none, dripBank⟩ ⟨defaultParams⟩ = .ok s₀ ∧
      (∀ a ∈ (getParams (Atomic.execute (deliver dripKeeper) s₀ dripOps)).allowedAddresses,
        a ≠ "" ∧ (dripKeeper.codec.decode a).isSome) ∧
      (getParams (Atomic.execute (deliver dripKeeper) s₀ dripOps)).allowedAddresses.Nodup := by
  have init : dripKeeper.initGenesis ⟨none, dripBank⟩ ⟨defaultParams⟩ = .ok ⟨some defaultParams, dripBank⟩ := rfl
  exact ⟨_, init, allowList_wellFormed_of_run dripKeeper _ _ _ init dripOps⟩

end Juno.Drip
