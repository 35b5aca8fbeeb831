import Mathlib.Data.String.Basic
import Juno.App.Helpers
import Juno.Semantics.Atomic
import Juno.Semantics.Store
import Juno.Sdk.Wasm

/-! The x/clock keeper and message server.

The module keeps one record per registered contract under the prefix
`contracts`, keyed by the address as the registering message wrote it, with a
flag that says whether the contract is jailed. The end blocker calls every
unjailed contract; a contract's manager (its wasm admin, or its creator without
one) registers, unregisters and unjails it. `MustAccAddressFromBech32` panics on
a malformed address: in a message handler the panic fails the transaction, and
the model returns it as an error.
-/

set_option autoImplicit false

namespace Juno.Clock

open Sdk KVStore Helpers

structure ClockContract where
  contractAddress : String
  isJailed : Bool
  deriving DecidableEq, Repr

/-- The contract store, iterated in address order. -/
abbrev Contracts := Keyed ClockContract.contractAddress

/-- What the keeper is built with: the address codec and the wasm keeper's contract info. -/
structure Keeper where
  codec : Bech32
  wasm : String → Option ContractInfo

def errContractNotJailed : String := "contract is not jailed"
def errContractAlreadyJailed : String := "contract is already jailed"

structure MsgRegisterClockContract where
  senderAddress : String
  contractAddress : String
  deriving DecidableEq, Repr

structure MsgUnregisterClockContract where
  senderAddress : String
  contractAddress : String
  deriving DecidableEq, Repr

structure MsgUnjailClockContract where
  senderAddress : String
  contractAddress : String
  deriving DecidableEq, Repr

/-- `validateAddresses`, which every message's `ValidateBasic` is. -/
def validateAddresses (codec : Bech32) : List String → Except String Unit
  | [] => .ok ()
  | address :: rest =>
    match codec.decode address with
    | none => .error (wrapf "invalid address" ("invalid address: " ++ address))
    | some _ => validateAddresses codec rest

namespace Keeper

variable (k : Keeper)

def isClockContract (s : Contracts) (contractAddress : String) : Bool := s.has contractAddress

def getClockContract (s : Contracts) (contractAddress : String) : Except String ClockContract :=
  match s.get? contractAddress with
  | some contract => .ok contract
  | none => .error errContractNotRegistered

def setClockContract (s : Contracts) (contract : ClockContract) : Contracts := s.put contract

def removeContract (s : Contracts) (contractAddress : String) : Contracts :=
  if s.has contractAddress then s.delete contractAddress else s

def isContractManager (senderAddress contractAddress : String) : Except String Unit := do
  -- `MustAccAddressFromBech32`: a panic
  let contractAddr ← k.codec.accAddressFromBech32 contractAddress
  match k.wasm contractAddr with
  | none => throw errInvalidCWContract
  | some info =>
    let adminExists := info.admin ≠ ""
    if adminExists ∧ info.admin ≠ senderAddress then throw errContractNotAdmin
    else if ¬ adminExists ∧ info.creator ≠ senderAddress then throw errContractNotCreator
    else return ()

def registerContract (s : Contracts) (senderAddress contractAddress : String) : Except String Contracts := do
  if isClockContract s contractAddress then throw errContractAlreadyRegistered
  k.isContractManager senderAddress contractAddress
  return setClockContract s ⟨contractAddress, false⟩

def unregisterContract (s : Contracts) (senderAddress contractAddress : String) :
    Except String Contracts := do
  if ¬ isClockContract s contractAddress then throw errContractNotRegistered
  k.isContractManager senderAddress contractAddress
  return removeContract s contractAddress

def setJailStatus (s : Contracts) (contractAddress : String) (isJailed : Bool) : Except String Contracts := do
  let contract ← getClockContract s contractAddress
  if contract.isJailed = isJailed then
    if isJailed then throw errContractAlreadyJailed else throw errContractNotJailed
  return setClockContract s { contract with isJailed := isJailed }

def setJailStatusBySender (s : Contracts) (senderAddress contractAddress : String) (jailStatus : Bool) :
    Except String Contracts := do
  k.isContractManager senderAddress contractAddress
  setJailStatus s contractAddress jailStatus

/-! The message server: each handler runs the message's `ValidateBasic` first. -/

def msgRegisterClockContract (s : Contracts) (req : MsgRegisterClockContract) : Except String Contracts := do
  validateAddresses k.codec [req.senderAddress, req.contractAddress]
  k.registerContract s req.senderAddress req.contractAddress

def msgUnregisterClockContract (s : Contracts) (req : MsgUnregisterClockContract) :
    Except String Contracts := do
  validateAddresses k.codec [req.senderAddress, req.contractAddress]
  k.unregisterContract s req.senderAddress req.contractAddress

def msgUnjailClockContract (s : Contracts) (req : MsgUnjailClockContract) : Except String Contracts := do
  validateAddresses k.codec [req.senderAddress, req.contractAddress]
  k.setJailStatusBySender s req.senderAddress req.contractAddress false

end Keeper

/-! ### What each keeper function does -/

section Reads

theorem validateAddresses_ok_iff (codec : Bech32) (addresses : List String) :
    validateAddresses codec addresses = .ok () ↔ ∀ a ∈ addresses, (codec.decode a).isSome := by
  induction addresses with
  | nil => simp [validateAddresses]
  | cons address rest ih =>
    unfold validateAddresses
    cases h : codec.decode address with
    | none => simp [h]
    | some a => simp [h, ih]

theorem setJailStatus_ok_iff (s s' : Contracts) (contractAddress : String) (isJailed : Bool) :
    Keeper.setJailStatus s contractAddress isJailed = .ok s' ↔
      ∃ contract, s.get? contractAddress = some contract ∧ contract.isJailed ≠ isJailed ∧
        s' = s.put { contract with isJailed := isJailed } := by
  unfold Keeper.setJailStatus
  cases found : s.get? contractAddress with
  | none => simp [Keeper.getClockContract, found, bind, Except.bind]
  | some contract =>
    simp only [Keeper.getClockContract, found, bind, Except.bind]
    by_cases same : contract.isJailed = isJailed
    · cases isJailed <;> simp [same]
    · simp only [same, if_false, Keeper.setClockContract, pure, Except.pure, Except.ok.injEq]
      simp [Ne.symm same, eq_comm]

theorem setJailStatus_jail {s : Contracts} {contract : ClockContract}
    (found : s.get? contract.contractAddress = some contract) (unjailed : contract.isJailed = false) :
    Keeper.setJailStatus s contract.contractAddress true =
      .ok (s.put { contract with isJailed := true }) := by
  simp [Keeper.setJailStatus, Keeper.getClockContract, found, unjailed, Keeper.setClockContract, bind,
    Except.bind, pure, Except.pure]

end Reads

section MessageServer
variable (k : Keeper) {s s' : Contracts}

/-- A handler behind `ValidateBasic` succeeds when both addresses decode and its keeper call does. -/
theorem validated_ok_iff {α : Type} (codec : Bech32) (senderAddress contractAddress : String)
    (call : Unit → Except String α) (r : α) :
    (validateAddresses codec [senderAddress, contractAddress] >>= call) = .ok r ↔
      (codec.decode senderAddress).isSome ∧ (codec.decode contractAddress).isSome ∧ call () = .ok r := by
  rw [Atomic.bind_eq_ok]
  constructor
  · rintro ⟨⟨⟩, valid, called⟩
    have decoded := (validateAddresses_ok_iff codec _).mp valid
    simp only [List.mem_cons, List.not_mem_nil, or_false, forall_eq_or_imp, forall_eq] at decoded
    exact ⟨decoded.1, decoded.2, called⟩
  · rintro ⟨sender, contract, called⟩
    refine ⟨(), (validateAddresses_ok_iff codec _).mpr ?_, called⟩
    simp [sender, contract]

theorem registerContract_ok_iff (senderAddress contractAddress : String) :
    k.registerContract s senderAddress contractAddress = .ok s' ↔
      s.has contractAddress = false ∧ k.isContractManager senderAddress contractAddress = .ok () ∧
        s' = s.put ⟨contractAddress, false⟩ := by
  unfold Keeper.registerContract
  cases has : s.has contractAddress
  · cases manager : k.isContractManager senderAddress contractAddress with
    | error e => simp [Keeper.isClockContract, has, bind, Except.bind]
    | ok u =>
      simp [Keeper.isClockContract, has, Keeper.setClockContract, bind, Except.bind, pure,
        Except.pure, eq_comm]
  · simp [Keeper.isClockContract, has]

theorem unregisterContract_ok_iff (senderAddress contractAddress : String) :
    k.unregisterContract s senderAddress contractAddress = .ok s' ↔
      s.has contractAddress = true ∧ k.isContractManager senderAddress contractAddress = .ok () ∧
        s' = s.delete contractAddress := by
  unfold Keeper.unregisterContract
  cases has : s.has contractAddress
  · simp [Keeper.isClockContract, has]
  · cases manager : k.isContractManager senderAddress contractAddress with
    | error e => simp [Keeper.isClockContract, has, bind, Except.bind]
    | ok u =>
      simp [Keeper.isClockContract, has, Keeper.removeContract, bind, Except.bind, pure,
        Except.pure, eq_comm]

theorem setJailStatusBySender_ok_iff (senderAddress contractAddress : String) (jailStatus : Bool) :
    k.setJailStatusBySender s senderAddress contractAddress jailStatus = .ok s' ↔
      k.isContractManager senderAddress contractAddress = .ok () ∧
        Keeper.setJailStatus s contractAddress jailStatus = .ok s' := by
  unfold Keeper.setJailStatusBySender
  cases k.isContractManager senderAddress contractAddress <;> simp [bind, Except.bind]

end MessageServer

/-! ### Genesis

The genesis of the module holds its parameters only: the registered contracts are neither
exported nor imported. -/

structure Params where
  contractGasLimit : UInt64
  deriving DecidableEq, Repr

def Params.validate (p : Params) : Except String Unit :=
  if p.contractGasLimit < 100000 then
    .error ("invalid contract gas limit: " ++ toString p.contractGasLimit ++ ". Must be above 100000: invalid request")
  else .ok ()

structure GenesisState where
  params : Params
  deriving DecidableEq, Repr

def validateGenesis (data : GenesisState) : Except String Unit := data.params.validate

/-- The module's `ValidateGenesis`, which `genesis validate` runs: the parameters, under "params". -/
def AppModuleBasic.validateGenesis (data : GenesisState) : Except String Unit :=
  data.params.validate.mapError fun err => "params: " ++ err

def initGenesis (data : GenesisState) : Except String (Params × Contracts) := do
  validateGenesis data
  data.params.validate
  pure (data.params, Keyed.empty)

def exportGenesis (params : Params) : GenesisState := ⟨params⟩

theorem initGenesis_ok_iff (data : GenesisState) (imported : Params × Contracts) :
    initGenesis data = .ok imported ↔ data.params.validate = .ok () ∧ imported = (data.params, Keyed.empty) := by
  unfold initGenesis validateGenesis
  cases data.params.validate <;> simp [bind, Except.bind, pure, Except.pure, eq_comm]

theorem initGenesis_exportGenesis {params : Params} (valid : params.validate = .ok ()) :
    initGenesis (exportGenesis params) = .ok (params, Keyed.empty) :=
  (initGenesis_ok_iff _ _).mpr ⟨valid, rfl⟩

theorem initGenesis_of_appModuleBasic {data : GenesisState}
    (validated : AppModuleBasic.validateGenesis data = .ok ()) :
    initGenesis data = .ok (data.params, Keyed.empty) := by
  refine (initGenesis_ok_iff _ _).mpr ⟨?_, rfl⟩
  cases valid : data.params.validate with
  | error err => simp [AppModuleBasic.validateGenesis, valid, Except.mapError] at validated
  | ok u => rfl

end Juno.Clock
