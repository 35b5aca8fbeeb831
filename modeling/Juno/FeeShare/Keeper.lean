import Juno.Sdk.Bank
import Juno.Sdk.Wasm

/-! The x/feeshare keeper and message server.

One record per registered contract, under its canonical address, names the
deployer and the withdrawer that receives the contract's share of fees. A
contract created by a factory (its admin is the gov module or another contract,
or it has no admin and a contract created it) may be registered by anyone, but
only to pay itself; any other registration, and every update or cancellation,
must be signed by the contract's manager: its wasm admin, or its creator when it
has none. A missing contract info is a nil dereference in the handlers, a panic.

The records are keyed by the bytes of their decoded contract address, which the
model keys by that canonical address, and stored as given: the messages write the
canonical text, a genesis record keeps its own. Two reverse maps, contract-by-deployer
and contract-by-withdrawer, set a key made of the address's bytes followed by the
contract's. Every wasm contract address is 32 bytes long, so such a key splits in
one way only, and the maps are modelled as the sets of pairs (address, contract)
whose key is set. A nil address (one that does not decode) contributes no bytes,
which the pair with the empty address stands for.
-/

set_option autoImplicit false
-- the record type shares the module's name, as in the source
set_option linter.dupNamespace false

namespace Juno.FeeShare

open Sdk KVStore

structure Params where
  enableFeeShare : Bool
  developerShares : LegacyDec
  allowedDenoms : List String
  deriving DecidableEq, Repr

def legacyOneDec : LegacyDec := legacyNewDec 1

def validateShares (v : LegacyDec) : Except String Unit :=
  if v.raw < 0 then .error "value cannot be negative: math.LegacyDec"
  else if legacyOneDec.raw < v.raw then .error "value cannot be greater than 1: math.LegacyDec"
  else .ok ()

def validateArray (denoms : List String) : Except String Unit :=
  if denoms.any (· = "") then .error "denom cannot be blank" else .ok ()

def Params.validate (p : Params) : Except String Unit := do
  validateShares p.developerShares
  validateArray p.allowedDenoms

def defaultParams : Params := ⟨true, legacyNewDecWithPrec 50 2, []⟩

theorem Params.validate_ok_iff (p : Params) :
    p.validate = .ok () ↔
      0 ≤ p.developerShares.raw ∧ p.developerShares.raw ≤ legacyOneDec.raw ∧ "" ∉ p.allowedDenoms := by
  unfold Params.validate validateShares validateArray
  by_cases negative : p.developerShares.raw < 0
  · simp [negative, bind, Except.bind]
  · by_cases above : legacyOneDec.raw < p.developerShares.raw
    · simp [negative, above, bind, Except.bind]
    · by_cases blank : "" ∈ p.allowedDenoms
      · simp [negative, above, blank, bind, Except.bind]
      · simp [negative, above, blank, bind, Except.bind, not_lt.mp negative, not_lt.mp above]

theorem defaultParams_validate : defaultParams.validate = .ok () := by
  rw [Params.validate_ok_iff]
  decide

structure FeeShare where
  contractAddress : String
  deployerAddress : String
  withdrawerAddress : String
  deriving DecidableEq, Repr

/-- A reverse map: the pairs (address, contract) whose key is set. -/
abbrev Index := List (String × String)

/-- A record under the address its contract text decodes to. -/
structure Entry where
  contract : String
  feeshare : FeeShare
  deriving DecidableEq, Repr

structure State where
  params : Params
  feeShares : Keyed Entry.contract
  deployers : Index
  withdrawers : Index

def getFeeShare (s : State) (contract : String) : Option FeeShare := (s.feeShares.get? contract).map Entry.feeshare

def setFeeShare (s : State) (contract : String) (feeshare : FeeShare) : State :=
  { s with feeShares := s.feeShares.put ⟨contract, feeshare⟩ }

def deleteFeeShare (s : State) (contract : String) : State :=
  { s with feeShares := s.feeShares.delete contract }

section Records
variable {s s' : State} {contract c : String}

theorem getFeeShare_of_put_self {fs : FeeShare} (stored : s'.feeShares = s.feeShares.put ⟨contract, fs⟩) :
    getFeeShare s' contract = some fs := by
  simp [getFeeShare, stored]

theorem getFeeShare_of_put_ne {fs : FeeShare} (stored : s'.feeShares = s.feeShares.put ⟨contract, fs⟩)
    (ne : c ≠ contract) : getFeeShare s' c = getFeeShare s c := by
  simp [getFeeShare, stored, Keyed.get?_put_ne s.feeShares ⟨contract, fs⟩ (Ne.symm ne)]

theorem getFeeShare_of_delete_self (stored : s'.feeShares = s.feeShares.delete contract) :
    getFeeShare s' contract = none := by
  simp [getFeeShare, stored]

theorem getFeeShare_of_delete_ne (stored : s'.feeShares = s.feeShares.delete contract) (ne : c ≠ contract) :
    getFeeShare s' c = getFeeShare s c := by
  simp [getFeeShare, stored, Keyed.get?_delete_ne s.feeShares ne]

theorem mem_of_getFeeShare {fs : FeeShare} (found : getFeeShare s c = some fs) :
    (⟨c, fs⟩ : Entry) ∈ s.feeShares.records := by
  obtain ⟨e, got, rfl⟩ := Option.map_eq_some_iff.mp found
  have key : e.contract = c := Keyed.key_of_get? got
  subst key
  exact Keyed.mem_of_get? got

end Records

def setDeployerMap (s : State) (deployer contract : String) : State :=
  { s with deployers := s.deployers.insert (deployer, contract) }

def deleteDeployerMap (s : State) (deployer contract : String) : State :=
  { s with deployers := s.deployers.filter (· ≠ (deployer, contract)) }

def setWithdrawerMap (s : State) (withdrawer contract : String) : State :=
  { s with withdrawers := s.withdrawers.insert (withdrawer, contract) }

def deleteWithdrawerMap (s : State) (withdrawer contract : String) : State :=
  { s with withdrawers := s.withdrawers.filter (· ≠ (withdrawer, contract)) }

/-- What the keeper is built with; `govModuleAddress` is the gov module account's address. -/
structure Keeper where
  codec : Bech32
  authority : String
  govModuleAddress : String

structure MsgRegisterFeeShare where
  contractAddress : String
  deployerAddress : String
  withdrawerAddress : String

structure MsgUpdateFeeShare where
  contractAddress : String
  deployerAddress : String
  withdrawerAddress : String

structure MsgCancelFeeShare where
  contractAddress : String
  deployerAddress : String

structure MsgUpdateParams where
  authority : String
  params : Params

def errFeeShareDisabled : String := "feeshare module is disabled by governance"

namespace Keeper

variable (k : Keeper) (wasm : String → Option ContractInfo)

/-- `sdk.AccAddressFromBech32` with the handler's own error text. -/
def decodeAs (what s : String) : Except String String :=
  match k.codec.decode s with
  | some a => .ok a
  | none => .error ("invalid " ++ what ++ " " ++ s)

/-- `wasmKeeper.GetContractInfo`, dereferenced by every caller. -/
def getContractInfo (contract : String) : Except String ContractInfo :=
  match wasm contract with
  | some info => .ok info
  | none => .error "runtime error: invalid memory address or nil pointer dereference"

def getIfContractWasCreatedFromFactory (msgSender : String) (info : ContractInfo) : Bool :=
  -- Gov Module Admin: only register to self
  if info.admin = k.govModuleAddress then true
  else if info.admin.length = 0 then
    -- There is no admin: a factory if a contract created it
    match k.codec.decode info.creator with
    | none => false
    | some creator => (wasm creator).isSome
  else
    match k.codec.decode info.admin with
    | none => false
    | some admin => if admin = msgSender then false else (wasm admin).isSome

def getContractAdminOrCreatorAddress (contract deployer : String) : Except String String := do
  let _ ← k.decodeAs "deployer address" deployer
  let info ← getContractInfo wasm contract
  if info.admin.length = 0 then
    if info.creator ≠ deployer then
      throw ("you are not the creator of this contract " ++ info.creator)
    let _ ← k.decodeAs "creator address" info.creator
    k.decodeAs "creator address" info.creator
  else
    if info.admin ≠ deployer then
      throw ("you are not an admin of this contract " ++ deployer)
    let _ ← k.decodeAs "admin address" info.admin
    k.decodeAs "admin address" info.admin

def registerFeeShare (s : State) (msg : MsgRegisterFeeShare) : Except String State := do
  if !s.params.enableFeeShare then throw errFeeShareDisabled
  let contract ← k.decodeAs "contract address" msg.contractAddress
  if s.feeShares.has contract then
    throw ("contract is already registered " ++ contract)
  let withdrawer ← k.decodeAs "withdrawer address" msg.withdrawerAddress
  let msgSender ← k.decodeAs "deployer address" msg.deployerAddress
  let info ← getContractInfo wasm contract
  let deployer ← (if k.getIfContractWasCreatedFromFactory wasm msgSender info then
      -- Anyone may register a contract from a factory, to itself only
      if msg.withdrawerAddress ≠ msg.contractAddress then
        .error "withdrawer address must be the same as the contract address if it is from a factory contract"
      else k.decodeAs "contract address" msg.contractAddress
    else k.getContractAdminOrCreatorAddress wasm contract msg.deployerAddress : Except String String)
  let s := setFeeShare s contract ⟨contract, deployer, withdrawer⟩
  let s := setDeployerMap s deployer contract
  return setWithdrawerMap s withdrawer contract

def updateFeeShare (s : State) (msg : MsgUpdateFeeShare) : Except String State := do
  if !s.params.enableFeeShare then throw errFeeShareDisabled
  let contract ← k.decodeAs "contract address" msg.contractAddress
  let feeshare ← (match getFeeShare s contract with
    | some feeshare => .ok feeshare
    | none => .error ("contract " ++ msg.contractAddress ++ " is not registered") : Except String FeeShare)
  if msg.withdrawerAddress = feeshare.withdrawerAddress then
    throw ("feeshare with withdraw address " ++ msg.withdrawerAddress ++ " is already registered")
  let _ ← k.getContractAdminOrCreatorAddress wasm contract msg.deployerAddress
  let withdrawAddr ← k.decodeAs "withdrawer address" feeshare.withdrawerAddress
  let newWithdrawAddr ← k.decodeAs "WithdrawerAddress" msg.withdrawerAddress
  let s := deleteWithdrawerMap s withdrawAddr contract
  let s := setWithdrawerMap s newWithdrawAddr contract
  -- the record read under `contract` keeps its contract text, which decodes to `contract`
  return setFeeShare s contract { feeshare with withdrawerAddress := newWithdrawAddr }

def cancelFeeShare (s : State) (msg : MsgCancelFeeShare) : Except String State := do
  if !s.params.enableFeeShare then throw errFeeShareDisabled
  let contract ← k.decodeAs "contract address" msg.contractAddress
  let fee ← (match getFeeShare s contract with
    | some fee => .ok fee
    | none => .error ("contract " ++ msg.contractAddress ++ " is not registered") : Except String FeeShare)
  let _ ← k.getContractAdminOrCreatorAddress wasm contract msg.deployerAddress
  let s := deleteFeeShare s contract
  let s := deleteDeployerMap s ((k.codec.decode fee.deployerAddress).getD "") contract
  match k.codec.decode fee.withdrawerAddress with
  | some withdrawAddr => return deleteWithdrawerMap s withdrawAddr contract
  | none => return s

def setParams (s : State) (p : Params) : Except String State := do
  p.validate
  return { s with params := p }

def updateParams (s : State) (req : MsgUpdateParams) : Except String State :=
  if k.authority ≠ req.authority then
    .error ("invalid authority; expected " ++ k.authority ++ ", got " ++ req.authority)
  else setParams s req.params

end Keeper

/-! ### Genesis -/

structure GenesisState where
  params : Params
  feeShare : List FeeShare

def FeeShare.validate (codec : Bech32) (fs : FeeShare) : Except String Unit := do
  let _ ← codec.accAddressFromBech32 fs.contractAddress
  let _ ← codec.accAddressFromBech32 fs.deployerAddress
  if fs.withdrawerAddress = "" then throw "withdrawer address cannot be empty: invalid address"
  let _ ← codec.accAddressFromBech32 fs.withdrawerAddress
  return ()

/-- `GenesisState.Validate`: each record is valid, and no contract address text appears twice. -/
def GenesisState.validate (codec : Bech32) (gs : GenesisState) : Except String Unit := do
  let _ ← gs.feeShare.foldlM (fun (seenContract : List String) fs => do
    if fs.contractAddress ∈ seenContract then
      throw ("contract duplicated on genesis \x27" ++ fs.contractAddress ++ "\x27")
    fs.validate codec
    return fs.contractAddress :: seenContract) []
  gs.params.validate

namespace Keeper

variable (k : Keeper)

/-- One genesis record: the record as given under its decoded contract address, the deployer map,
and the withdrawer map when the withdrawer decodes. -/
def initFeeShare (s : State) (share : FeeShare) : Except String State :=
  -- `GetContractAddr()` is a nil interface for an undecodable address, and `Bytes()` panics on it
  match k.codec.decode share.contractAddress with
  | none => .error "runtime error: invalid memory address or nil pointer dereference"
  | some contract =>
    let s := setFeeShare s contract share
    let s := setDeployerMap s ((k.codec.decode share.deployerAddress).getD "") contract
    match k.codec.decode share.withdrawerAddress with
    | some withdrawer => .ok (setWithdrawerMap s withdrawer contract)
    | none => .ok s

def initGenesis (data : GenesisState) : Except String State := do
  let s ← setParams ⟨data.params, Keyed.empty, [], []⟩ data.params
  data.feeShare.foldlM k.initFeeShare s

end Keeper

def exportGenesis (s : State) : GenesisState := ⟨s.params, s.feeShares.records.map Entry.feeshare⟩

end Juno.FeeShare
