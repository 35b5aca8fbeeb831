import Juno.Sdk.Bank
import Juno.Sdk.Wasm

/-! The x/tokenfactory keeper, its message server and the CosmWasm bindings.

Anyone may create a denomination `factory/{creator}/{subdenom}`, paying the
denomination creation fee to the community pool; the creator becomes its admin.
Only the admin mints, burns, force-transfers, changes the admin or sets the bank
metadata. Burning from another account, force transfers and metadata updates
are capabilities the keeper is built with; an empty capability list enables all.
Contracts reach the same handlers through the bindings, which validate the
message they build first. `PerformSetMetadata`, also run when a contract creates
a denomination with metadata, writes the bank metadata itself.

The authority metadata of a denomination is its admin, the empty string when
nothing is stored. The bank keeps the denominations' metadata; the keeper is
built with a metadata check, the bank's `Metadata.Validate` (`Metadata.validate`)
in the app. The creator index and the gas the creation consumes are left out.
-/

set_option autoImplicit false

namespace Juno.TokenFactory

open Sdk KVStore

def moduleName : String := "tokenfactory"

def moduleDenomPrefix : String := "factory"

def maxSubdenomLength : Nat := 44

def maxHrpLength : Nat := 16

def maxCreatorLength : Nat := 59 + maxHrpLength

/-- The module account of the community pool, which `FundCommunityPool` pays into. -/
def distributionModuleName : String := "distribution"

def enableSetMetadata : String := "enable_metadata"

def enableForceTransfer : String := "enable_force_transfer"

def enableBurnFrom : String := "enable_burn_from"

/-- `IsCapabilityEnabled`: an empty list enables every capability. -/
def isCapabilityEnabled (enabledCapabilities : List String) (capability : String) : Bool :=
  if enabledCapabilities.length = 0 then true else enabledCapabilities.any (· = capability)

def errUnauthorized : String := "unauthorized account"

def errCapabilityNotEnabled : String := "this capability is not enabled on chain"

def errModuleAccount : String := "interacting with module accounts not allowed"

/-- `GetTokenDenom`: `factory/{creator}/{subdenom}`, lengths counted in bytes. -/
def getTokenDenom (creator subdenom : String) : Except String String :=
  if maxSubdenomLength < subdenom.utf8ByteSize then .error "subdenom too long, max length is 44 bytes"
  else if maxCreatorLength < creator.utf8ByteSize then .error "creator too long, max length is 75 bytes"
  else if creator.contains '/' then .error "invalid creator"
  else
    let denom := moduleDenomPrefix ++ "/" ++ creator ++ "/" ++ subdenom
    if validateDenom denom then .ok denom else .error ("invalid denom: " ++ denom)

def deconstructDenom (codec : Bech32) (denom : String) : Except String (String × String) :=
  if !validateDenom denom then .error ("invalid denom: " ++ denom)
  else
    let strParts := denom.splitOn "/"
    if strParts.length < 3 then .error ("not enough parts of denom " ++ denom)
    else if strParts.getD 0 "" ≠ moduleDenomPrefix then
      .error ("denom prefix is incorrect. Is: " ++ strParts.getD 0 "" ++ ".  Should be: factory")
    else match codec.decode (strParts.getD 1 "") with
      | none => .error "Invalid creator address"
      | some creatorAddr =>
        -- a subdenom may itself contain slashes
        .ok (creatorAddr, "/".intercalate (strParts.drop 2))

structure DenomUnit where
  denom : String
  exponent : Nat
  aliases : List String
  deriving DecidableEq, Repr

/-- Bank denomination metadata; the bindings' `Metadata` has the same fields. -/
structure Metadata where
  description : String
  denomUnits : List DenomUnit
  base : String
  display : String
  name : String
  symbol : String
  deriving DecidableEq, Repr

/-! ### The bank's metadata validation -/

/-- `unicode.IsSpace`: what `strings.TrimSpace` strips. -/
def isSpace (c : Char) : Bool :=
  c = '\t' || c = '\n' || c = '\x0B' || c = '\x0C' || c = '\r' || c = ' ' || c = '\x85' || c = '\xA0' ||
    c = '\u1680' || ('\u2000' ≤ c && c ≤ '\u200A') || c = '\u2028' || c = '\u2029' || c = '\u202F' ||
    c = '\u205F' || c = '\u3000'

def isBlank (s : String) : Bool := s.toList.all isSpace

/-- `DenomUnit.Validate`: a valid denomination, and aliases neither repeated nor blank. -/
def DenomUnit.validate (denomUnit : DenomUnit) : Except String Unit := do
  if !validateDenom denomUnit.denom then throw "invalid denom unit"
  let _ ← denomUnit.aliases.foldlM (fun (seenAliases : List String) aliasText =>
    if aliasText ∈ seenAliases then .error ("duplicate denomination unit alias " ++ aliasText)
    else if isBlank aliasText then .error ("alias for denom unit " ++ denomUnit.denom ++ " cannot be blank")
    else .ok (aliasText :: seenAliases)) []

/-- What the loop of `Metadata.Validate` over the denomination units carries. -/
structure UnitScan where
  index : Nat
  hasDisplay : Bool
  currentExponent : Nat
  seenUnits : List String

/-- One unit of the loop: the first is the base at exponent 0, the later ones ascend
strictly, none is repeated and each validates. -/
def Metadata.scanUnit (m : Metadata) (scan : UnitScan) (denomUnit : DenomUnit) : Except String UnitScan := do
  if scan.index = 0 then
    if denomUnit.denom ≠ m.base then
      throw ("metadata's first denomination unit must be the one with base denom " ++ m.base)
    if denomUnit.exponent ≠ 0 then
      throw ("the exponent for base denomination unit " ++ m.base ++ " must be 0")
  else if denomUnit.exponent ≤ scan.currentExponent then
    throw "the denomination units must be sorted in ascending order"
  if denomUnit.denom ∈ scan.seenUnits then throw ("duplicate denomination unit " ++ denomUnit.denom)
  denomUnit.validate
  pure ⟨scan.index + 1, scan.hasDisplay || denomUnit.denom = m.display, denomUnit.exponent,
    denomUnit.denom :: scan.seenUnits⟩

def Metadata.validate (m : Metadata) : Except String Unit := do
  if isBlank m.name then throw "name field cannot be blank"
  if isBlank m.symbol then throw "symbol field cannot be blank"
  if !validateDenom m.base then throw "invalid metadata base denom"
  if !validateDenom m.display then throw "invalid metadata display denom"
  let scan ← m.denomUnits.foldlM m.scanUnit ⟨0, false, 0, []⟩
  if !scan.hasDisplay then
    throw ("metadata must contain a denomination unit with display denom " ++ m.display)

structure Params where
  denomCreationFee : Coins

def Params.validate (p : Params) : Except String Unit :=
  if p.denomCreationFee.isValid then .ok ()
  else .error ("invalid denom creation fee: " ++ Coins.string p.denomCreationFee)

structure State where
  params : Params
  /-- The admin in each denomination's `DenomAuthorityMetadata`. -/
  authorityMetadata : Store String String
  /-- The bank's denomination metadata. -/
  denomMetadata : Store String Metadata
  bank : Bank

/-- What the keeper is built with. -/
structure Keeper where
  codec : Bech32
  /-- The module accounts' addresses (`permAddrMap`). -/
  isModuleAcc : String → Bool
  enabledCapabilities : List String
  /-- The bank's `Metadata.Validate`. -/
  validateMetadata : Metadata → Except String Unit
  authority : String

namespace Keeper

variable (k : Keeper)

/-- `GetAuthorityMetadata`: nothing stored reads as the empty admin. -/
def getAuthorityMetadata (s : State) (denom : String) : String :=
  (s.authorityMetadata.find? denom).getD ""

def setAuthorityMetadata (s : State) (denom admin : String) : Except String State :=
  if admin ≠ "" ∧ (k.codec.decode admin).isNone then .error ("decoding bech32 failed: " ++ admin)
  else .ok { s with authorityMetadata := s.authorityMetadata.set denom admin }

def setAdmin (s : State) (denom admin : String) : Except String State :=
  k.setAuthorityMetadata s denom admin

def validateCreateDenom (s : State) (creatorAddr subdenom : String) : Except String String := do
  let denom ← getTokenDenom creatorAddr subdenom
  if (s.denomMetadata.find? denom).isSome then
    throw "attempting to create a denom that already exists (has bank metadata)"
  return denom

def chargeForCreateDenom (s : State) (creatorAddr : String) : Except String State := do
  if s.params.denomCreationFee ≠ [] then
    let accAddr ← k.codec.accAddressFromBech32 creatorAddr
    let bank ← s.bank.sendCoinsFromAccountToModule accAddr distributionModuleName s.params.denomCreationFee
    return { s with bank := bank }
  return s

def createDenomAfterValidation (s : State) (creatorAddr denom : String) : Except String State :=
  let denomMetaData : Metadata := ⟨"", [⟨denom, 0, []⟩], denom, denom, denom, denom⟩
  let s := { s with denomMetadata := s.denomMetadata.set denom denomMetaData }
  k.setAuthorityMetadata s denom creatorAddr

def createDenom (s : State) (creatorAddr subdenom : String) : Except String (State × String) := do
  let denom ← validateCreateDenom s creatorAddr subdenom
  let s ← k.chargeForCreateDenom s creatorAddr
  let s ← k.createDenomAfterValidation s creatorAddr denom
  return (s, denom)

/-- `sdk.NewCoins` of one coin, which panics on an invalid coin. -/
def single (amount : Coin) : Except String Coins := Coins.newCoins [amount]

def mintTo (s : State) (amount : Coin) (mintTo : String) : Except String State := do
  let _ ← deconstructDenom k.codec amount.denom
  let bank ← s.bank.mintCoins moduleName (← single amount)
  let addr ← k.codec.accAddressFromBech32 mintTo
  if k.isModuleAcc addr then throw errModuleAccount
  let bank ← bank.sendCoinsFromModuleToAccount moduleName addr (← single amount)
  return { s with bank := bank }

def burnFrom (s : State) (amount : Coin) (burnFrom : String) : Except String State := do
  let _ ← deconstructDenom k.codec amount.denom
  let addr ← k.codec.accAddressFromBech32 burnFrom
  if k.isModuleAcc addr then throw errModuleAccount
  let bank ← s.bank.sendCoinsFromAccountToModule addr moduleName (← single amount)
  let bank ← bank.burnCoins moduleName (← single amount)
  return { s with bank := bank }

def forceTransfer (s : State) (amount : Coin) (fromAddr toAddr : String) : Except String State := do
  let _ ← deconstructDenom k.codec amount.denom
  let fromAcc ← k.codec.accAddressFromBech32 fromAddr
  if k.isModuleAcc fromAcc then throw errModuleAccount
  let toAcc ← k.codec.accAddressFromBech32 toAddr
  if k.isModuleAcc toAcc then throw errModuleAccount
  let bank ← s.bank.sendCoins (.account fromAcc) (.account toAcc) (← single amount)
  return { s with bank := bank }

end Keeper

/-! ### Messages -/

structure MsgCreateDenom where
  sender : String
  subdenom : String

structure MsgMint where
  sender : String
  amount : Coin
  mintToAddress : String

structure MsgBurn where
  sender : String
  amount : Coin
  burnFromAddress : String

structure MsgForceTransfer where
  sender : String
  amount : Coin
  transferFromAddress : String
  transferToAddress : String

structure MsgChangeAdmin where
  sender : String
  denom : String
  newAdmin : String

structure MsgSetDenomMetadata where
  sender : String
  metadata : Metadata

structure MsgUpdateParams where
  authority : String
  params : Params

section ValidateBasic
variable (codec : Bech32)

def checkAddress (what address : String) : Except String Unit :=
  match codec.decode address with
  | some _ => .ok ()
  | none => .error ("Invalid " ++ what ++ " address")

/-- `Coin.IsValid`, and nonzero where a message asks for it. -/
def checkAmount (amount : Coin) (nonzero : Bool) : Except String Unit :=
  if !amount.validate || (nonzero && amount.amount = 0) then .error "invalid coins" else .ok ()

def MsgMint.validateBasic (m : MsgMint) : Except String Unit := do
  checkAddress codec "sender" m.sender
  if m.mintToAddress ≠ "" then checkAddress codec "mint to" m.mintToAddress
  checkAmount m.amount true

def MsgBurn.validateBasic (m : MsgBurn) : Except String Unit := do
  checkAddress codec "sender" m.sender
  checkAmount m.amount true
  if m.burnFromAddress ≠ "" then checkAddress codec "burn from" m.burnFromAddress

def MsgForceTransfer.validateBasic (m : MsgForceTransfer) : Except String Unit := do
  checkAddress codec "sender" m.sender
  checkAddress codec "from" m.transferFromAddress
  checkAddress codec "to" m.transferToAddress
  checkAmount m.amount false

def MsgChangeAdmin.validateBasic (m : MsgChangeAdmin) : Except String Unit := do
  checkAddress codec "sender" m.sender
  checkAddress codec "" m.newAdmin
  let _ ← deconstructDenom codec m.denom

def MsgSetDenomMetadata.validateBasic (validateMetadata : Metadata → Except String Unit)
    (m : MsgSetDenomMetadata) : Except String Unit := do
  checkAddress codec "sender" m.sender
  validateMetadata m.metadata
  let _ ← deconstructDenom codec m.metadata.base

def MsgUpdateParams.validateBasic (m : MsgUpdateParams) : Except String Unit := do
  let _ ← (codec.accAddressFromBech32 m.authority).mapError ("invalid authority address: " ++ ·)
  m.params.validate

end ValidateBasic

namespace Keeper

variable (k : Keeper)

/-! ### Message server -/

def msgCreateDenom (s : State) (msg : MsgCreateDenom) : Except String (State × String) := do
  let _ ← (match k.codec.decode msg.sender with
    | some a => .ok a
    | none => .error "Invalid sender address" : Except String String)
  let _ ← getTokenDenom msg.sender msg.subdenom
  k.createDenom s msg.sender msg.subdenom

def msgMint (s : State) (msg : MsgMint) : Except String State := do
  -- pay some extra gas cost to give a better error here.
  if (s.denomMetadata.find? msg.amount.denom).isNone then throw ("denom does not exist: " ++ msg.amount.denom)
  let admin := getAuthorityMetadata s msg.amount.denom
  if msg.sender ≠ admin then throw errUnauthorized
  let mintToAddress := if msg.mintToAddress = "" then msg.sender else msg.mintToAddress
  k.mintTo s msg.amount mintToAddress

def msgBurn (s : State) (msg : MsgBurn) : Except String State := do
  let admin := getAuthorityMetadata s msg.amount.denom
  if msg.sender ≠ admin then throw errUnauthorized
  let burnFromAddress ← (if msg.burnFromAddress = "" then .ok msg.sender
    else if !isCapabilityEnabled k.enabledCapabilities enableBurnFrom then .error errCapabilityNotEnabled
    else .ok msg.burnFromAddress : Except String String)
  k.burnFrom s msg.amount burnFromAddress

def msgForceTransfer (s : State) (msg : MsgForceTransfer) : Except String State := do
  if !isCapabilityEnabled k.enabledCapabilities enableForceTransfer then throw errCapabilityNotEnabled
  let admin := getAuthorityMetadata s msg.amount.denom
  if msg.sender ≠ admin then throw errUnauthorized
  k.forceTransfer s msg.amount msg.transferFromAddress msg.transferToAddress

def msgChangeAdmin (s : State) (msg : MsgChangeAdmin) : Except String State := do
  let admin := getAuthorityMetadata s msg.denom
  if msg.sender ≠ admin then throw errUnauthorized
  k.setAdmin s msg.denom msg.newAdmin

def msgSetDenomMetadata (s : State) (msg : MsgSetDenomMetadata) : Except String State := do
  if !isCapabilityEnabled k.enabledCapabilities enableSetMetadata then throw errCapabilityNotEnabled
  -- Defense in depth validation of metadata
  k.validateMetadata msg.metadata
  let admin := getAuthorityMetadata s msg.metadata.base
  if msg.sender ≠ admin then throw errUnauthorized
  return { s with denomMetadata := s.denomMetadata.set msg.metadata.base msg.metadata }

/-- `UpdateParams`: `SetParams` stores the parameters as the authority gives them. -/
def msgUpdateParams (s : State) (req : MsgUpdateParams) : Except String State := do
  if k.authority ≠ req.authority then
    throw ("invalid authority; expected " ++ k.authority ++ ", got " ++ req.authority)
  return { s with params := req.params }

/-! ### CosmWasm bindings

`contractAddr` is the calling contract's canonical address. -/

/-- `parseAddress`: decoding, then the address format check decoding already implies. -/
def parseAddress (addr : String) : Except String String :=
  match k.codec.decode addr with
  | some a => .ok a
  | none => .error ("address from bech32: decoding bech32 failed: " ++ addr)

def performSetMetadata (s : State) (contractAddr denom : String) (metadata : Metadata) :
    Except String State := do
  -- ensure contract address is admin of denom
  if getAuthorityMetadata s denom ≠ contractAddr then throw "only admin can set metadata"
  -- ensure we are setting proper denom metadata (bank uses Base field, fill it if missing)
  let metadata ← (if metadata.base = "" then .ok { metadata with base := denom }
    else if metadata.base ≠ denom then .error "Base must be the same as denom"
    else .ok metadata : Except String Metadata)
  k.validateMetadata metadata
  return { s with denomMetadata := s.denomMetadata.set metadata.base metadata }

def performCreateDenom (s : State) (contractAddr subdenom : String) (metadata : Option Metadata) :
    Except String State := do
  let (s, newDenom) ← k.msgCreateDenom s ⟨contractAddr, subdenom⟩
  match metadata with
  | some metadata => k.performSetMetadata s contractAddr newDenom metadata
  | none => return s

def performMint (s : State) (contractAddr denom : String) (amount : Int) (mintToAddress : String) :
    Except String State := do
  let rcpt ← k.parseAddress mintToAddress
  let coin : Coin := ⟨denom, amount⟩
  let sdkMsg : MsgMint := ⟨contractAddr, coin, contractAddr⟩
  sdkMsg.validateBasic k.codec
  let s ← k.msgMint s sdkMsg
  -- `errorsmod.Wrapf` of the nil error the successful mint left is nil: the call succeeds
  if s.bank.blocked rcpt then return s
  let bank ← s.bank.sendCoins (.account contractAddr) (.account rcpt) (← single coin)
  return { s with bank := bank }

def changeAdmin (s : State) (contractAddr denom newAdminAddress : String) : Except String State := do
  let newAdminAddr ← k.parseAddress newAdminAddress
  let sdkMsg : MsgChangeAdmin := ⟨contractAddr, denom, newAdminAddr⟩
  sdkMsg.validateBasic k.codec
  k.msgChangeAdmin s sdkMsg

def performBurn (s : State) (contractAddr denom : String) (amount : Int) (burnFromAddress : String) :
    Except String State := do
  let coin : Coin := ⟨denom, amount⟩
  let sdkMsg : MsgBurn := ⟨contractAddr, coin, if burnFromAddress ≠ "" then burnFromAddress else contractAddr⟩
  sdkMsg.validateBasic k.codec
  k.msgBurn s sdkMsg

def performForceTransfer (s : State) (contractAddr denom : String) (amount : Int)
    (fromAddress toAddress : String) : Except String State := do
  let _ ← k.parseAddress fromAddress
  let _ ← k.parseAddress toAddress
  let sdkMsg : MsgForceTransfer := ⟨contractAddr, ⟨denom, amount⟩, fromAddress, toAddress⟩
  sdkMsg.validateBasic k.codec
  k.msgForceTransfer s sdkMsg

end Keeper

end Juno.TokenFactory
