import Mathlib.Data.String.Basic
import Juno.App.Helpers
import Juno.Semantics.Atomic
import Juno.Semantics.FirstFailure
import Juno.Semantics.Store
import Juno.Sdk.Wasm

/-! The x/cw-hooks keeper and message server.

The module keeps two sets of contract addresses, one under the prefix for
staking events and one under the prefix for governance events, keyed by the
bytes of the decoded address. `ExecuteMessageOnContracts` sends one sudo message
to every contract of a set in store order, the order of the address bytes, and
returns at the first call that fails. How each call ends is a parameter,
`outcome`, a function of the contract.

Registering and unregistering take a sender that is the contract's creator,
when it has one, and its admin, when it has one.

`InitGenesis` runs `ValidateGenesis` and succeeds exactly on the genesis it
accepts, one whose addresses all decode; the module's check for `genesis
validate` reads the parameters only.
-/

set_option autoImplicit false

namespace Juno.CwHooks

open Sdk KVStore Helpers FirstFailure

/-- A registered contract: the bytes the store keys it by, and the address whose bytes they
are, which `String()` gives back. -/
structure Contract where
  bytes : List Nat
  address : String
  deriving DecidableEq, Repr

/-- A set of registered contracts, iterated in the order of their address bytes. -/
abbrev Registered := Keyed Contract.bytes

def contractOf (codec : Bech32) (address : String) : Contract := ⟨codec.bytes address, address⟩

inductive KeyPrefix where
  | staking
  | gov
  deriving DecidableEq, Repr

structure State where
  staking : Registered
  gov : Registered

def State.contracts (s : State) : KeyPrefix → Registered
  | .staking => s.staking
  | .gov => s.gov

def State.setContracts (s : State) : KeyPrefix → Registered → State
  | .staking, r => { s with staking := r }
  | .gov, r => { s with gov := r }

@[simp] theorem State.contracts_setContracts (s : State) (keyPrefix : KeyPrefix) (r : Registered) :
    (s.setContracts keyPrefix r).contracts keyPrefix = r := by
  cases keyPrefix <;> rfl

theorem State.contracts_setContracts_ne (s : State) {keyPrefix other : KeyPrefix} (r : Registered)
    (ne : keyPrefix ≠ other) : (s.setContracts keyPrefix r).contracts other = s.contracts other := by
  cases keyPrefix <;> cases other <;> first | rfl | exact absurd rfl ne

/-- What the keeper is built with: the address codec and the wasm keeper's contract info. -/
structure Keeper where
  codec : Bech32
  wasm : String → Option ContractInfo

structure MsgRegisterStaking where
  contractAddress : String
  registerAddress : String
  deriving DecidableEq, Repr

structure MsgRegisterGovernance where
  contractAddress : String
  registerAddress : String
  deriving DecidableEq, Repr

structure MsgUnregisterStaking where
  contractAddress : String
  registerAddress : String
  deriving DecidableEq, Repr

structure MsgUnregisterGovernance where
  contractAddress : String
  registerAddress : String
  deriving DecidableEq, Repr

def isContractRegistered (codec : Bech32) (s : State) (keyPrefix : KeyPrefix) (contract : String) : Bool :=
  (s.contracts keyPrefix).has (codec.bytes contract)

def setContract (codec : Bech32) (s : State) (keyPrefix : KeyPrefix) (contract : String) : State :=
  s.setContracts keyPrefix ((s.contracts keyPrefix).put (contractOf codec contract))

def deleteContract (codec : Bech32) (s : State) (keyPrefix : KeyPrefix) (contract : String) : State :=
  s.setContracts keyPrefix ((s.contracts keyPrefix).delete (codec.bytes contract))

/-- `GetAllContractsBech32`: the registered addresses in store order. -/
def getAllContracts (s : State) (keyPrefix : KeyPrefix) : List String :=
  (s.contracts keyPrefix).records.map Contract.address

/-- The loop of `ExecuteMessageOnContracts`: the contracts that received the message, in
order, and the error it returns. -/
def executeEach (outcome : String → SudoOutcome) : List String → List String × Option String
  | [] => ([], none)
  | c :: rest =>
    match executeContract (outcome c) with
    | some err => ([c], some err)
    | none => let r := executeEach outcome rest; (c :: r.1, r.2)

def executeMessageOnContracts (s : State) (keyPrefix : KeyPrefix) (outcome : String → SudoOutcome) :
    List String × Option String :=
  executeEach outcome (getAllContracts s keyPrefix)

namespace Keeper

variable (k : Keeper)

def isContractSenderAuthorized (sender contract : String) : Except String Unit :=
  match k.wasm contract with
  | none => .error (wrapf "invalid address" ("contract does not exist: " ++ contract))
  | some info =>
    if info.creator ≠ "" ∧ info.creator ≠ sender then
      .error (wrapf "unauthorized" "sender is not the contract creator")
    else if info.admin ≠ "" ∧ info.admin ≠ sender then
      .error (wrapf "unauthorized" "sender is not the contract admin")
    else .ok ()

def handleContractRegister (s : State) (sender contractAddr : String) (keyPrefix : KeyPrefix)
    (prefixModuleName : String) : Except String State := do
  let contract ← (k.codec.accAddressFromBech32 contractAddr).mapError
    (fun err => wrapf "invalid address" ("invalid contract address (" ++ err ++ ")"))
  if isContractRegistered k.codec s keyPrefix contract then
    throw (wrapf "invalid request" ("contract already registered for " ++ prefixModuleName))
  k.isContractSenderAuthorized sender contract
  return setContract k.codec s keyPrefix contract

def handleContractRemoval (s : State) (sender contractAddr : String) (keyPrefix : KeyPrefix)
    (prefixModuleName : String) : Except String State := do
  let contract ← (k.codec.accAddressFromBech32 contractAddr).mapError
    (fun err => wrapf "invalid address" ("invalid contract address (" ++ err ++ ")"))
  if ¬ isContractRegistered k.codec s keyPrefix contract then
    throw (wrapf "invalid request" ("contract is not registered for " ++ prefixModuleName))
  k.isContractSenderAuthorized sender contract
  return deleteContract k.codec s keyPrefix contract

def checkAddresses (registerAddress contractAddress : String) : Except String Unit := do
  let _ ← (k.codec.accAddressFromBech32 registerAddress).mapError (wrapf · "invalid register address")
  let _ ← (k.codec.accAddressFromBech32 contractAddress).mapError (wrapf · "invalid contract address")
  return ()

def msgRegisterStaking (s : State) (req : MsgRegisterStaking) : Except String State := do
  k.checkAddresses req.registerAddress req.contractAddress
  k.handleContractRegister s req.registerAddress req.contractAddress .staking "staking"

def msgRegisterGovernance (s : State) (req : MsgRegisterGovernance) : Except String State := do
  k.checkAddresses req.registerAddress req.contractAddress
  k.handleContractRegister s req.registerAddress req.contractAddress .gov "governance"

def msgUnregisterGovernance (s : State) (req : MsgUnregisterGovernance) : Except String State := do
  k.checkAddresses req.registerAddress req.contractAddress
  k.handleContractRemoval s req.registerAddress req.contractAddress .gov "governance"

def msgUnregisterStaking (s : State) (req : MsgUnregisterStaking) : Except String State := do
  k.checkAddresses req.registerAddress req.contractAddress
  k.handleContractRemoval s req.registerAddress req.contractAddress .staking "staking"

end Keeper

/-! ### Delivery -/

section Delivery
variable (outcome : String → SudoOutcome)

def delivers (contract : String) : Bool := (executeContract (outcome contract)).isNone

/-- The loop sends the message to the contracts up to and including the first failing call, and
returns an error exactly when some call fails. -/
theorem executeEach_eq (contracts : List String) :
    (executeEach outcome contracts).1 = throughFirstFailure (delivers outcome) contracts ∧
      ((executeEach outcome contracts).2 = none ↔ ∀ c ∈ contracts, delivers outcome c = true) := by
  induction contracts with
  | nil => simp [executeEach]
  | cons c rest ih =>
    cases called : executeContract (outcome c) with
    | some err =>
      have fails : delivers outcome c = false := by simp [delivers, called]
      simp [executeEach, called, throughFirstFailure_cons_fail _ rest fails, fails]
    | none =>
      have passes : delivers outcome c = true := by simp [delivers, called]
      simp [executeEach, called, throughFirstFailure_cons_pass _ rest passes, passes, ih.1, ih.2]

end Delivery

/-! ### Who registers a contract -/

section Registration
variable (k : Keeper)

/-- The sender must be the contract's creator when it has one and its admin when it has one:
a contract whose admin is not its creator can be registered by no one. -/
theorem isContractSenderAuthorized_ok_iff (sender contract : String) :
    k.isContractSenderAuthorized sender contract = .ok () ↔
      ∃ info, k.wasm contract = some info ∧ (info.creator = "" ∨ info.creator = sender) ∧
        (info.admin = "" ∨ info.admin = sender) := by
  unfold Keeper.isContractSenderAuthorized
  cases found : k.wasm contract with
  | none => simp
  | some info =>
    -- each disjunction is the negation of the check that throws
    have creator : (info.creator = "" ∨ info.creator = sender) ↔ ¬ (info.creator ≠ "" ∧ info.creator ≠ sender) := by
      tauto
    have admin : (info.admin = "" ∨ info.admin = sender) ↔ ¬ (info.admin ≠ "" ∧ info.admin ≠ sender) := by
      tauto
    simp only [Option.some.injEq, exists_eq_left', creator, admin]
    split_ifs with throwsCreator throwsAdmin
    · simp [throwsCreator]
    · simp [throwsCreator, throwsAdmin]
    · simp [throwsCreator, throwsAdmin]

end Registration

/-! ### Genesis -/

structure Params where
  contractGasLimit : UInt64
  deriving DecidableEq, Repr

def Params.validate (_ : Params) : Except String Unit := .ok ()

structure GenesisState where
  params : Params
  stakingContractAddresses : List String
  govContractAddresses : List String
  deriving DecidableEq, Repr

def validateGenesis (codec : Bech32) (data : GenesisState) : Except String Unit := do
  data.stakingContractAddresses.forM fun v => do
    let _ ← codec.accAddressFromBech32 v
    pure ()
  data.govContractAddresses.forM fun v => do
    let _ ← codec.accAddressFromBech32 v
    pure ()
  data.params.validate

/-- The module's `ValidateGenesis`, which `genesis validate` runs: the parameters only, under
"params". The addresses are left to `InitGenesis`. -/
def AppModuleBasic.validateGenesis (data : GenesisState) : Except String Unit :=
  data.params.validate.mapError fun err => "params: " ++ err

def importContract (codec : Bech32) (keyPrefix : KeyPrefix) (s : State) (v : String) : Except String State := do
  let accAddr ← codec.accAddressFromBech32 v
  pure (setContract codec s keyPrefix accAddr)

def initGenesis (codec : Bech32) (data : GenesisState) : Except String (Params × State) := do
  validateGenesis codec data
  data.params.validate
  let s ← data.stakingContractAddresses.foldlM (importContract codec .staking) ⟨Keyed.empty, Keyed.empty⟩
  let s ← data.govContractAddresses.foldlM (importContract codec .gov) s
  pure (data.params, s)

def exportGenesis (params : Params) (s : State) : GenesisState :=
  ⟨params, getAllContracts s .staking, getAllContracts s .gov⟩

@[simp] theorem State.setContracts_setContracts (s : State) (keyPrefix : KeyPrefix) (r r' : Registered) :
    (s.setContracts keyPrefix r).setContracts keyPrefix r' = s.setContracts keyPrefix r' := by
  cases keyPrefix <;> rfl

/-- Every registered contract is the record of a canonical address: the address decodes to
itself, and the record is keyed by its bytes. -/
def Canonical (codec : Bech32) (s : State) : Prop :=
  ∀ keyPrefix, ∀ c ∈ (s.contracts keyPrefix).records,
    codec.decode c.address = some c.address ∧ contractOf codec c.address = c

section Genesis

variable {codec : Bech32}

theorem AppModuleBasic.validateGenesis_ok (data : GenesisState) : AppModuleBasic.validateGenesis data = .ok () :=
  rfl

theorem forM_accAddressFromBech32_ok_iff (addresses : List String) :
    addresses.forM (fun v => do let _ ← codec.accAddressFromBech32 v; pure ()) = .ok () ↔
      ∀ v ∈ addresses, (codec.decode v).isSome := by
  rw [Atomic.forM_eq_ok]
  refine forall₂_congr fun v _ => ?_
  cases found : codec.decode v <;> simp [Bech32.accAddressFromBech32, found, bind, Except.bind, pure, Except.pure]

theorem validateGenesis_ok_iff (data : GenesisState) :
    validateGenesis codec data = .ok () ↔
      (∀ v ∈ data.stakingContractAddresses, (codec.decode v).isSome) ∧
        ∀ v ∈ data.govContractAddresses, (codec.decode v).isSome := by
  constructor
  · intro validated
    obtain ⟨⟨⟩, staking, validated⟩ := Atomic.bind_eq_ok.mp validated
    obtain ⟨⟨⟩, gov, -⟩ := Atomic.bind_eq_ok.mp validated
    exact ⟨(forM_accAddressFromBech32_ok_iff _).mp staking, (forM_accAddressFromBech32_ok_iff _).mp gov⟩
  · rintro ⟨staking, gov⟩
    rw [validateGenesis, (forM_accAddressFromBech32_ok_iff _).mpr staking,
      (forM_accAddressFromBech32_ok_iff _).mpr gov]
    rfl

theorem foldlM_importContract_ok (keyPrefix : KeyPrefix) {addresses : List String}
    (decoded : ∀ v ∈ addresses, (codec.decode v).isSome) (s : State) :
    ∃ s', addresses.foldlM (importContract codec keyPrefix) s = .ok s' := by
  apply Atomic.foldlM_exists_ok
  intro t v mem
  obtain ⟨a, found⟩ := Option.isSome_iff_exists.mp (decoded v mem)
  exact ⟨setContract codec t keyPrefix a,
    by simp [importContract, Bech32.accAddressFromBech32, found, bind, Except.bind, pure, Except.pure]⟩

/-- `InitGenesis` succeeds exactly on the genesis that `ValidateGenesis`, its first step,
accepts: every address it then imports decodes. -/
theorem initGenesis_ok_iff_validateGenesis (data : GenesisState) :
    (∃ imported, initGenesis codec data = .ok imported) ↔ validateGenesis codec data = .ok () := by
  constructor
  · rintro ⟨imported, started⟩
    obtain ⟨⟨⟩, validated, -⟩ := Atomic.bind_eq_ok.mp started
    exact validated
  · intro validated
    obtain ⟨staking, gov⟩ := (validateGenesis_ok_iff data).mp validated
    obtain ⟨s, stakingImported⟩ := foldlM_importContract_ok .staking staking ⟨Keyed.empty, Keyed.empty⟩
    obtain ⟨s', govImported⟩ := foldlM_importContract_ok .gov gov s
    refine ⟨(data.params, s'), ?_⟩
    rw [initGenesis, validated]
    simp only [Params.validate, stakingImported, govImported, bind, Except.bind, pure, Except.pure]

theorem foldlM_importContract (keyPrefix : KeyPrefix) (addresses : List String)
    (canonical : ∀ v ∈ addresses, codec.decode v = some v) (s : State) :
    addresses.foldlM (importContract codec keyPrefix) s =
      .ok (s.setContracts keyPrefix ((addresses.map (contractOf codec)).foldl Keyed.put (s.contracts keyPrefix))) := by
  induction addresses generalizing s with
  | nil => cases keyPrefix <;> rfl
  | cons v rest ih =>
    have step : importContract codec keyPrefix s v = .ok (setContract codec s keyPrefix v) := by
      simp [importContract, Bech32.accAddressFromBech32, canonical v List.mem_cons_self, bind, Except.bind,
        pure, Except.pure]
    rw [List.foldlM_cons, step]
    simp only [bind, Except.bind]
    rw [ih fun w mem => canonical w (List.mem_cons_of_mem v mem)]
    simp [setContract]

theorem initGenesis_exportGenesis (params : Params) {s : State} (canonical : Canonical codec s) :
    initGenesis codec (exportGenesis params s) = .ok (params, s) := by
  have decoded : ∀ keyPrefix, ∀ v ∈ getAllContracts s keyPrefix, codec.decode v = some v := by
    intro keyPrefix v mem
    obtain ⟨c, stored, rfl⟩ := List.mem_map.mp mem
    exact (canonical keyPrefix c stored).1
  -- each address imports as the record it was exported from
  have records : ∀ keyPrefix, (getAllContracts s keyPrefix).map (contractOf codec) = (s.contracts keyPrefix).records := by
    intro keyPrefix
    rw [getAllContracts, List.map_map]
    exact List.map_congr_left (fun c mem => (canonical keyPrefix c mem).2) |>.trans (List.map_id _)
  have validated : validateGenesis codec (exportGenesis params s) = .ok () :=
    (validateGenesis_ok_iff _).mpr ⟨fun v mem => by rw [decoded .staking v mem]; rfl,
      fun v mem => by rw [decoded .gov v mem]; rfl⟩
  rw [initGenesis, validated]
  simp only [exportGenesis, Params.validate, foldlM_importContract .staking _ (decoded .staking),
    foldlM_importContract .gov _ (decoded .gov), records, bind, Except.bind, pure, Except.pure]
  cases s
  simp [State.contracts, State.setContracts, Keyed.foldl_put_records]

end Genesis

end Juno.CwHooks
