import Juno.Sdk.Bank
import Juno.Sdk.Wasm

/-! The x/feepay keeper and message server.

The module keeps one record per registered contract, under the contract address
as written in the registering message, with the contract's prepaid balance and
the number of fee-paid transactions each wallet may make; usage counts sit in a
second store under `contract-wallet`. The prepaid funds themselves are held by
the module account in the bank. Contract managers are the contract's wasm admin
or, without one, its creator.

The module store is one key space: parameters under a one-byte key and the two
record stores under the prefixes `contracts` and `contract-uses`. Unregistering
iterates the usage store but deletes the keys it finds from the module store
without their prefix, which `rootDelete` models.
-/

set_option autoImplicit false

namespace Juno.FeePay

open Sdk KVStore

def moduleName : String := "feepay"

structure FeePayContract where
  contractAddress : String
  balance : UInt64
  walletLimit : UInt64
  deriving DecidableEq, Repr

structure Params where
  enableFeepay : Bool
  deriving DecidableEq, Repr

structure State where
  params : Params
  contracts : Keyed FeePayContract.contractAddress
  uses : KVStore.Store String UInt64

/-- What the keeper is built with. -/
structure Keeper where
  codec : Bech32
  bondDenom : String
  authority : String

def usesKey (contractAddress walletAddress : String) : String :=
  contractAddress ++ "-" ++ walletAddress

/-- `math.Int.Uint64`, which panics outside `[0, 2^64)`. -/
def intToUint64 (i : Int) : Except String UInt64 :=
  if 0 ≤ i ∧ i < 2 ^ 64 then .ok (UInt64.ofNat i.toNat) else .error "Uint64() out of bound"

theorem intToUint64_of_lt {i : Int} (h0 : 0 ≤ i) (h : i < 2 ^ 64) :
    intToUint64 i = .ok (UInt64.ofNat i.toNat) := by
  unfold intToUint64
  rw [if_pos ⟨h0, h⟩]

theorem toNat_ofNat_toNat {i : Int} (h0 : 0 ≤ i) (h : i < 2 ^ 64) :
    ((UInt64.ofNat i.toNat).toNat : Int) = i := by
  have fits : i.toNat < 2 ^ 64 := by omega
  rw [UInt64.toNat_ofNat_of_lt' fits]
  exact Int.toNat_of_nonneg h0

theorem toNat_of_intToUint64 {i : Int} {u : UInt64} (h : intToUint64 i = .ok u) : (u.toNat : Int) = i := by
  unfold intToUint64 at h
  split_ifs at h with fits
  cases h
  exact toNat_ofNat_toNat fits.1 fits.2

namespace Keeper

variable (k : Keeper) (wasm : String → Option ContractInfo)

def isContractRegistered (s : State) (contractAddr : String) : Bool := s.contracts.has contractAddr

def getContract (s : State) (contractAddress : String) : Except String FeePayContract :=
  match s.contracts.get? contractAddress with
  | some fpc => .ok fpc
  | none => .error "contract not registered"

def setFeePayContract (s : State) (feepay : FeePayContract) : State :=
  { s with contracts := s.contracts.put feepay }

def isContractManager (senderAddress : String) (contractInfo : ContractInfo) : Except String Unit :=
  let adminExists := 0 < contractInfo.admin.length
  let isSenderAdmin := contractInfo.admin = senderAddress
  let isSenderCreator := contractInfo.creator = senderAddress
  if adminExists ∧ ¬ isSenderAdmin then .error "sender is not the contract admin"
  else if ¬ adminExists ∧ ¬ isSenderCreator then .error "sender is not the contract creator"
  else .ok ()

def contractInfo (contractAddr : String) : Except String ContractInfo :=
  match wasm contractAddr with
  | some info => .ok info
  | none => .error "invalid CosmWasm contract"

def registerContract (s : State) (senderAddress : String) (feePayContract : FeePayContract) :
    Except String State := do
  let _ ← k.codec.accAddressFromBech32 senderAddress
  if 1000000 < feePayContract.walletLimit then throw "invalid wallet limit; must be between 0 and 1,000,000"
  -- the contract was already registered
  if isContractRegistered s feePayContract.contractAddress then throw "contract already registered"
  let contractAddr ← k.codec.accAddressFromBech32 feePayContract.contractAddress
  let info ← contractInfo wasm contractAddr
  isContractManager senderAddress info
  return setFeePayContract s feePayContract

/-- `store.Delete(key)` on the module store, which dispatches on the key's prefix. -/
def rootDelete (s : State) (key : String) : State :=
  if key.startsWith "contracts" then { s with contracts := s.contracts.delete (key.drop 9).toString }
  else if key.startsWith "contract-uses" then { s with uses := s.uses.delete (key.drop 13).toString }
  else s

def unregisterContract (s : State) (bank : Bank) (senderAddress contractAddress : String) :
    Except String (State × Bank) := do
  let _ ← k.codec.accAddressFromBech32 senderAddress
  let contract ← getContract s contractAddress
  let contractAddr ← k.codec.accAddressFromBech32 contractAddress
  let info ← contractInfo wasm contractAddr
  isContractManager senderAddress info
  let s := { s with contracts := s.contracts.delete contractAddress }
  -- the usage keys come from the prefix store but are deleted from the module store
  let usageKeys := (s.uses.records.map Prod.fst).filter (fun key => key.startsWith contractAddress)
  let s := usageKeys.foldl rootDelete s
  let coins ← Coins.newCoins [← newCoin k.bondDenom contract.balance.toNat]
  -- refund to the admin, or to the creator without one
  let refundAddr := if info.admin ≠ "" then info.admin else info.creator
  let recipient ← (match k.codec.decode refundAddr with
    | some a => .ok a
    | none => .error "MustAccAddressFromBech32 panicked" : Except String String)
  let bank ← bank.sendCoinsFromModuleToAccount moduleName recipient coins
  return (s, bank)

def setContractBalance (s : State) (fpc : FeePayContract) (newBalance : UInt64) : State :=
  { s with contracts := s.contracts.put { fpc with balance := newBalance } }

def fundContract (s : State) (bank : Bank) (fpc : FeePayContract) (senderAddr : String)
    (coins : Coins) : Except String (State × Bank) := do
  -- only the bond denomination is credited; the last such coin wins
  let transferCoin := coins.foldl (fun acc c => if c.denom = k.bondDenom then c else acc) Coin.empty
  if transferCoin = Coin.empty then throw "fee pay contracts only accept juno funds"
  let bank ← bank.sendCoinsFromAccountToModule senderAddr moduleName coins
  let amount ← intToUint64 transferCoin.amount
  return (setContractBalance s fpc (fpc.balance + amount), bank)

def canContractCoverFee (fpc : FeePayContract) (fee : UInt64) : Bool := fee ≤ fpc.balance

/-- A missing usage record unmarshals to zero uses. -/
def getContractUses (s : State) (fpc : FeePayContract) (walletAddress : String) : UInt64 :=
  (s.uses.find? (usesKey fpc.contractAddress walletAddress)).getD 0

def incrementContractUses (s : State) (fpc : FeePayContract) (walletAddress : String)
    (increment : UInt64) : State :=
  let uses := getContractUses s fpc walletAddress
  { s with uses := s.uses.set (usesKey fpc.contractAddress walletAddress) (uses + increment) }

def hasWalletExceededUsageLimit (s : State) (fpc : FeePayContract) (walletAddress : String) : Bool :=
  fpc.walletLimit ≤ getContractUses s fpc walletAddress

def isWalletEligible (s : State) (fpc : FeePayContract) (walletAddress : String) : Except String Bool :=
  if hasWalletExceededUsageLimit s fpc walletAddress then .error "wallet exceeded usage limit" else .ok true

def updateContractWalletLimit (s : State) (fpc : FeePayContract) (senderAddress : String)
    (walletLimit : UInt64) : Except String State := do
  let contractAddr ← k.codec.accAddressFromBech32 fpc.contractAddress
  let info ← contractInfo wasm contractAddr
  isContractManager senderAddress info
  return { s with contracts := s.contracts.put { fpc with walletLimit := walletLimit } }

/-! ### Message server -/

def registerFeePayContract (s : State) (senderAddress : String) (feePayContract : FeePayContract) :
    Except String State :=
  -- Prevent client from overriding initial contract balance of zero
  k.registerContract wasm s senderAddress { feePayContract with balance := 0 }

def unregisterFeePayContract (s : State) (bank : Bank) (senderAddress contractAddress : String) :
    Except String (State × Bank) :=
  k.unregisterContract wasm s bank senderAddress contractAddress

def fundFeePayContract (s : State) (bank : Bank) (senderAddress contractAddress : String)
    (amount : Coins) : Except String (State × Bank) := do
  let _ ← k.codec.accAddressFromBech32 contractAddress
  if amount.length ≠ 1 then throw "fee pay contracts only accept juno funds"
  let contract ← getContract s contractAddress
  let senderAddr ← k.codec.accAddressFromBech32 senderAddress
  k.fundContract s bank contract senderAddr amount

def updateFeePayContractWalletLimit (s : State) (senderAddress contractAddress : String)
    (walletLimit : UInt64) : Except String State := do
  let _ ← k.codec.accAddressFromBech32 senderAddress
  let _ ← k.codec.accAddressFromBech32 contractAddress
  let contract ← getContract s contractAddress
  if 1000000 < walletLimit then throw "invalid wallet limit; must be between 0 and 1,000,000"
  k.updateContractWalletLimit wasm s contract senderAddress walletLimit

def updateParams (s : State) (authority : String) (params : Params) : Except String State :=
  if k.authority ≠ authority then .error "invalid authority"
  else .ok { s with params := params }

/-! ### Query server -/

def feePayWalletIsEligible (s : State) (contractAddress walletAddress : String) : Except String Bool := do
  -- Check if wallet & contract address are valid
  let _ ← (k.codec.accAddressFromBech32 contractAddress).mapError fun _ => "invalid address"
  let _ ← (k.codec.accAddressFromBech32 walletAddress).mapError fun _ => "invalid address"
  let fpc ← getContract s contractAddress
  isWalletEligible s fpc walletAddress

end Keeper

/-! ### Genesis -/

structure GenesisState where
  params : Params
  feePayContracts : List FeePayContract
  deriving DecidableEq, Repr

def GenesisState.validate (codec : Bech32) (gs : GenesisState) : Except String Unit :=
  gs.feePayContracts.forM fun contract => do
    let _ ← codec.accAddressFromBech32 contract.contractAddress
    pure ()

/-- `InitGenesis` on the module's empty store: `SetParams` checks nothing, and each contract is
stored as it is listed. -/
def initGenesis (data : GenesisState) : State :=
  data.feePayContracts.foldl Keeper.setFeePayContract ⟨data.params, Keyed.empty, Keyed.empty⟩

def exportGenesis (s : State) : GenesisState := ⟨s.params, s.contracts.records⟩

theorem foldl_setFeePayContract (contracts : List FeePayContract) (s : State) :
    contracts.foldl Keeper.setFeePayContract s = { s with contracts := contracts.foldl Keyed.put s.contracts } := by
  induction contracts generalizing s with
  | nil => rfl
  | cons contract rest ih => rw [List.foldl_cons, ih]; rfl

theorem initGenesis_exportGenesis (s : State) : initGenesis (exportGenesis s) = { s with uses := Keyed.empty } := by
  rw [initGenesis, exportGenesis, foldl_setFeePayContract]
  dsimp only
  rw [Keyed.foldl_put_records]

end Juno.FeePay
