import Juno.TokenFactory.Keeper

/-! Who may do what to a tokenfactory denomination.

Every entry point, message or binding, that acts on a denomination checks that
its signer is the denomination's admin before it mints, burns, moves coins,
changes the admin or writes metadata; a parameter update checks that its signer
is the module's authority. The capabilities are checked by the message server: force
transfers always, burns whenever a burn-from address is given, metadata updates
always. The bindings reach the message server for everything except metadata,
so a contract sets the metadata of its denominations with the capability off
(`binding_sets_metadata_without_capability`).
-/

set_option autoImplicit false

namespace Juno.TokenFactory

open Sdk KVStore

/-- The tokenfactory entry points: the messages, each after its `ValidateBasic`, and the
bindings a contract calls with its own address. -/
inductive Operation
  | createDenom (msg : MsgCreateDenom)
  | mint (msg : MsgMint)
  | burn (msg : MsgBurn)
  | forceTransfer (msg : MsgForceTransfer)
  | changeAdmin (msg : MsgChangeAdmin)
  | setDenomMetadata (msg : MsgSetDenomMetadata)
  | updateParams (msg : MsgUpdateParams)
  | performCreateDenom (contractAddr subdenom : String) (metadata : Option Metadata)
  | performMint (contractAddr denom : String) (amount : Int) (mintToAddress : String)
  | changeAdminBinding (contractAddr denom newAdminAddress : String)
  | performBurn (contractAddr denom : String) (amount : Int) (burnFromAddress : String)
  | performForceTransfer (contractAddr denom : String) (amount : Int) (fromAddress toAddress : String)
  | performSetMetadata (contractAddr denom : String) (metadata : Metadata)

namespace Operation

def sender : Operation → String
  | createDenom msg => msg.sender
  | mint msg => msg.sender
  | burn msg => msg.sender
  | forceTransfer msg => msg.sender
  | changeAdmin msg => msg.sender
  | setDenomMetadata msg => msg.sender
  | updateParams msg => msg.authority
  | performCreateDenom contractAddr .. => contractAddr
  | performMint contractAddr .. => contractAddr
  | changeAdminBinding contractAddr .. => contractAddr
  | performBurn contractAddr .. => contractAddr
  | performForceTransfer contractAddr .. => contractAddr
  | performSetMetadata contractAddr .. => contractAddr

end Operation

def deliver (k : Keeper) (s : State) : Operation → Except String State
  | .createDenom msg => do
    let r ← k.msgCreateDenom s msg
    pure r.1
  | .mint msg => do
    msg.validateBasic k.codec
    k.msgMint s msg
  | .burn msg => do
    msg.validateBasic k.codec
    k.msgBurn s msg
  | .forceTransfer msg => do
    msg.validateBasic k.codec
    k.msgForceTransfer s msg
  | .changeAdmin msg => do
    msg.validateBasic k.codec
    k.msgChangeAdmin s msg
  | .setDenomMetadata msg => do
    msg.validateBasic k.codec k.validateMetadata
    k.msgSetDenomMetadata s msg
  | .updateParams msg => do
    msg.validateBasic k.codec
    k.msgUpdateParams s msg
  | .performCreateDenom contractAddr subdenom metadata => k.performCreateDenom s contractAddr subdenom metadata
  | .performMint contractAddr denom amount mintToAddress =>
    k.performMint s contractAddr denom amount mintToAddress
  | .changeAdminBinding contractAddr denom newAdminAddress => k.changeAdmin s contractAddr denom newAdminAddress
  | .performBurn contractAddr denom amount burnFromAddress =>
    k.performBurn s contractAddr denom amount burnFromAddress
  | .performForceTransfer contractAddr denom amount fromAddress toAddress =>
    k.performForceTransfer s contractAddr denom amount fromAddress toAddress
  | .performSetMetadata contractAddr denom metadata => k.performSetMetadata s contractAddr denom metadata

/-! ### The admin and capability checks of the message server -/

section MessageServer
variable (k : Keeper) {s s' : State}

theorem msgMint_admin {msg : MsgMint} (h : k.msgMint s msg = .ok s') :
    msg.sender = Keeper.getAuthorityMetadata s msg.amount.denom := by
  simp only [Keeper.msgMint] at h
  by_cases missing : (s.denomMetadata.find? msg.amount.denom).isNone = true
  · simp [missing] at h
  by_cases other : msg.sender = Keeper.getAuthorityMetadata s msg.amount.denom
  · exact other
  · simp [missing, other] at h

theorem msgBurn_admin {msg : MsgBurn} (h : k.msgBurn s msg = .ok s') :
    msg.sender = Keeper.getAuthorityMetadata s msg.amount.denom := by
  simp only [Keeper.msgBurn] at h
  by_cases other : msg.sender = Keeper.getAuthorityMetadata s msg.amount.denom
  · exact other
  · simp [other] at h

theorem msgForceTransfer_admin {msg : MsgForceTransfer} (h : k.msgForceTransfer s msg = .ok s') :
    msg.sender = Keeper.getAuthorityMetadata s msg.amount.denom ∧
      isCapabilityEnabled k.enabledCapabilities enableForceTransfer = true := by
  simp only [Keeper.msgForceTransfer] at h
  by_cases enabled : isCapabilityEnabled k.enabledCapabilities enableForceTransfer = true
  · by_cases other : msg.sender = Keeper.getAuthorityMetadata s msg.amount.denom
    · exact ⟨other, enabled⟩
    · simp [enabled, other] at h
  · simp [enabled] at h

theorem msgChangeAdmin_admin {msg : MsgChangeAdmin} (h : k.msgChangeAdmin s msg = .ok s') :
    msg.sender = Keeper.getAuthorityMetadata s msg.denom := by
  simp only [Keeper.msgChangeAdmin] at h
  by_cases other : msg.sender = Keeper.getAuthorityMetadata s msg.denom
  · exact other
  · simp [other] at h

theorem msgSetDenomMetadata_admin {msg : MsgSetDenomMetadata} (h : k.msgSetDenomMetadata s msg = .ok s') :
    msg.sender = Keeper.getAuthorityMetadata s msg.metadata.base ∧
      isCapabilityEnabled k.enabledCapabilities enableSetMetadata = true := by
  simp only [Keeper.msgSetDenomMetadata] at h
  by_cases enabled : isCapabilityEnabled k.enabledCapabilities enableSetMetadata = true
  · by_cases other : msg.sender = Keeper.getAuthorityMetadata s msg.metadata.base
    · exact ⟨other, enabled⟩
    · simp [enabled, other, Atomic.bind_eq_ok] at h
  · simp [enabled] at h

theorem msgSetDenomMetadata_disabled {msg : MsgSetDenomMetadata}
    (disabled : isCapabilityEnabled k.enabledCapabilities enableSetMetadata = false) :
    k.msgSetDenomMetadata s msg = .error errCapabilityNotEnabled := by
  simp [Keeper.msgSetDenomMetadata, disabled, throw, throwThe, MonadExceptOf.throw, bind, Except.bind]

end MessageServer

/-! ### The bindings -/

section Bindings
variable (k : Keeper) {s s' : State}

theorem performForceTransfer_admin {contractAddr denom fromAddress toAddress : String} {amount : Int}
    (h : k.performForceTransfer s contractAddr denom amount fromAddress toAddress = .ok s') :
    contractAddr = Keeper.getAuthorityMetadata s denom ∧
      isCapabilityEnabled k.enabledCapabilities enableForceTransfer = true := by
  simp only [Keeper.performForceTransfer, Atomic.bind_eq_ok] at h
  obtain ⟨-, -, -, -, -, -, moved⟩ := h
  exact msgForceTransfer_admin k moved

theorem performMint_admin {contractAddr denom mintToAddress : String} {amount : Int}
    (h : k.performMint s contractAddr denom amount mintToAddress = .ok s') :
    contractAddr = Keeper.getAuthorityMetadata s denom := by
  simp only [Keeper.performMint, Atomic.bind_eq_ok] at h
  obtain ⟨_, _, _, _, _, minted, _⟩ := h
  exact msgMint_admin k minted

theorem changeAdmin_admin {contractAddr denom newAdminAddress : String}
    (h : k.changeAdmin s contractAddr denom newAdminAddress = .ok s') :
    contractAddr = Keeper.getAuthorityMetadata s denom := by
  simp only [Keeper.changeAdmin, Atomic.bind_eq_ok] at h
  obtain ⟨_, _, _, _, changed⟩ := h
  exact msgChangeAdmin_admin k changed

theorem performSetMetadata_admin {contractAddr denom : String} {metadata : Metadata}
    (h : k.performSetMetadata s contractAddr denom metadata = .ok s') :
    contractAddr = Keeper.getAuthorityMetadata s denom := by
  simp only [Keeper.performSetMetadata] at h
  by_cases other : contractAddr = Keeper.getAuthorityMetadata s denom
  · exact other
  · simp [Ne.symm other] at h

theorem msgCreateDenom_fresh {sender subdenom denom : String} (decoded : (k.codec.decode sender).isSome)
    (made : getTokenDenom sender subdenom = .ok denom) (fresh : s.denomMetadata.find? denom = none)
    (free : s.params.denomCreationFee = []) :
    k.msgCreateDenom s ⟨sender, subdenom⟩ = .ok ({ s with
      denomMetadata := s.denomMetadata.set denom ⟨"", [⟨denom, 0, []⟩], denom, denom, denom, denom⟩,
      authorityMetadata := s.authorityMetadata.set denom sender }, denom) := by
  obtain ⟨a, ha⟩ := Option.isSome_iff_exists.mp decoded
  simp [Keeper.msgCreateDenom, ha, made, Keeper.createDenom, Keeper.validateCreateDenom, fresh,
    Keeper.chargeForCreateDenom, free, Keeper.createDenomAfterValidation, Keeper.setAuthorityMetadata, bind,
    Except.bind, pure, Except.pure]

/-- The metadata binding checks the admin but not the capability. -/
theorem performSetMetadata_writes {contractAddr denom : String} {metadata : Metadata}
    (admin : Keeper.getAuthorityMetadata s denom = contractAddr) (base : metadata.base = "")
    (valid : k.validateMetadata { metadata with base := denom } = .ok ()) :
    k.performSetMetadata s contractAddr denom metadata =
      .ok { s with denomMetadata := s.denomMetadata.set denom { metadata with base := denom } } := by
  simp [Keeper.performSetMetadata, admin, base, valid, bind, Except.bind, pure, Except.pure]

end Bindings

/-! ### Every entry point -/

namespace Operation

def denom? : Operation → Option String
  | createDenom _ => none
  | mint msg => some msg.amount.denom
  | burn msg => some msg.amount.denom
  | forceTransfer msg => some msg.amount.denom
  | changeAdmin msg => some msg.denom
  | setDenomMetadata msg => some msg.metadata.base
  | updateParams _ => none
  | performCreateDenom .. => none
  | performMint _ denom .. => some denom
  | changeAdminBinding _ denom _ => some denom
  | performBurn _ denom .. => some denom
  | performForceTransfer _ denom .. => some denom
  | performSetMetadata _ denom _ => some denom

end Operation

section Deliver
variable (k : Keeper) {s s' : State}

/-- Whatever an operation does to an existing denomination, its signer is that
denomination's admin. -/
theorem deliver_admin {op : Operation} (h : deliver k s op = .ok s') {d : String} (acts : op.denom? = some d) :
    op.sender = Keeper.getAuthorityMetadata s d := by
  cases op with
  | createDenom msg => cases acts
  | mint msg =>
    cases acts
    simp only [deliver, Atomic.bind_eq_ok] at h
    obtain ⟨-, -, minted⟩ := h
    exact msgMint_admin k minted
  | burn msg =>
    cases acts
    simp only [deliver, Atomic.bind_eq_ok] at h
    obtain ⟨-, -, burnt⟩ := h
    exact msgBurn_admin k burnt
  | forceTransfer msg =>
    cases acts
    simp only [deliver, Atomic.bind_eq_ok] at h
    obtain ⟨-, -, moved⟩ := h
    exact (msgForceTransfer_admin k moved).1
  | changeAdmin msg =>
    cases acts
    simp only [deliver, Atomic.bind_eq_ok] at h
    obtain ⟨-, -, changed⟩ := h
    exact msgChangeAdmin_admin k changed
  | setDenomMetadata msg =>
    cases acts
    simp only [deliver, Atomic.bind_eq_ok] at h
    obtain ⟨-, -, written⟩ := h
    exact (msgSetDenomMetadata_admin k written).1
  | updateParams => cases acts
  | performCreateDenom => cases acts
  | performMint =>
    cases acts
    exact performMint_admin k h
  | changeAdminBinding =>
    cases acts
    exact changeAdmin_admin k h
  | performBurn contractAddr denom amount burnFromAddress =>
    cases acts
    simp only [deliver, Keeper.performBurn, Atomic.bind_eq_ok] at h
    obtain ⟨-, -, burnt⟩ := h
    exact msgBurn_admin k burnt
  | performForceTransfer =>
    cases acts
    exact (performForceTransfer_admin k h).1
  | performSetMetadata =>
    cases acts
    exact performSetMetadata_admin k h

end Deliver

/-! A contract that creates a denomination with metadata under a keeper whose
capabilities leave metadata updates off. -/

def capabilityKeeper : Keeper :=
  ⟨Bech32.identity, fun _ => false, [enableBurnFrom, enableForceTransfer], Metadata.validate,
    "juno10d07y265gmmuvt4z0w9aw880jnsr700jvss730"⟩

def emptyState : State :=
  ⟨⟨[]⟩, Keyed.empty, Keyed.empty, ⟨fun _ _ => 0, fun _ => false, fun _ _ => 0⟩⟩

/-- Metadata left without a base, which the binding fills in with the denomination. -/
def tokenMetadata : Metadata :=
  ⟨"a token", [⟨"factory/juno1contract/token", 0, []⟩], "", "factory/juno1contract/token", "token", "TKN"⟩

theorem binding_sets_metadata_without_capability :
    isCapabilityEnabled capabilityKeeper.enabledCapabilities enableSetMetadata = false ∧
      ∃ s', capabilityKeeper.performCreateDenom emptyState "juno1contract" "token" (some tokenMetadata) = .ok s' ∧
        s'.denomMetadata.find? "factory/juno1contract/token" =
          some { tokenMetadata with base := "factory/juno1contract/token" } ∧
        capabilityKeeper.msgSetDenomMetadata s'
          ⟨"juno1contract", { tokenMetadata with base := "factory/juno1contract/token" }⟩ =
          .error errCapabilityNotEnabled := by
  have made : getTokenDenom "juno1contract" "token" = .ok "factory/juno1contract/token" := by
    have short : ¬ maxSubdenomLength < "token".utf8ByteSize := by decide
    have creator : ¬ maxCreatorLength < "juno1contract".utf8ByteSize := by decide
    have slash : ¬ ("juno1contract".contains '/') = true := by simp
    have valid : validateDenom ("factory" ++ "/" ++ "juno1contract" ++ "/" ++ "token") = true := by decide
    unfold getTokenDenom
    rw [if_neg short, if_neg creator, if_neg slash]
    simp only [moduleDenomPrefix, valid, if_true]
    decide
  have created := msgCreateDenom_fresh capabilityKeeper (s := emptyState) rfl made rfl rfl
  set s₁ := ({ emptyState with
      denomMetadata := emptyState.denomMetadata.set "factory/juno1contract/token"
        ⟨"", [⟨"factory/juno1contract/token", 0, []⟩], "factory/juno1contract/token", "factory/juno1contract/token",
          "factory/juno1contract/token", "factory/juno1contract/token"⟩,
      authorityMetadata := emptyState.authorityMetadata.set "factory/juno1contract/token" "juno1contract" } : State)
  have admin : Keeper.getAuthorityMetadata s₁ "factory/juno1contract/token" = "juno1contract" := by
    simp [s₁, Keeper.getAuthorityMetadata, Store.find?_set]
  have written := @performSetMetadata_writes capabilityKeeper s₁ _ _ tokenMetadata admin rfl
    (by decide)
  set named : Metadata := { tokenMetadata with base := "factory/juno1contract/token" }
  refine ⟨by decide, { s₁ with denomMetadata := s₁.denomMetadata.set "factory/juno1contract/token" named },
    ?_, ?_, msgSetDenomMetadata_disabled capabilityKeeper (by decide)⟩
  · simp [Keeper.performCreateDenom, created, written, bind, Except.bind]
  · simp [Store.find?_set]

def adminState : State :=
  { emptyState with authorityMetadata := emptyState.authorityMetadata.set "factory/juno1contract/token" "juno1contract" }

theorem contract_sets_metadata_as_admin :
    (∃ s', deliver capabilityKeeper adminState
        (.performSetMetadata "juno1contract" "factory/juno1contract/token" tokenMetadata) = .ok s') ∧
      Operation.sender (.performSetMetadata "juno1contract" "factory/juno1contract/token" tokenMetadata) =
        Keeper.getAuthorityMetadata adminState "factory/juno1contract/token" := by
  have admin : Keeper.getAuthorityMetadata adminState "factory/juno1contract/token" = "juno1contract" := by
    simp [adminState, Keeper.getAuthorityMetadata, Store.find?_set]
  have written := @performSetMetadata_writes capabilityKeeper adminState _ _ tokenMetadata admin rfl
    (by decide)
  have delivered : deliver capabilityKeeper adminState
      (.performSetMetadata "juno1contract" "factory/juno1contract/token" tokenMetadata) = _ := written
  exact ⟨⟨_, delivered⟩, deliver_admin capabilityKeeper delivered rfl⟩

end Juno.TokenFactory
