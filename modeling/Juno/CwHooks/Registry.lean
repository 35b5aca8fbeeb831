import Juno.CwHooks.Keeper

/-! Runs of the x/cw-hooks message server.

Each message is delivered with the contract infos the wasm keeper holds at
that moment, since admins change between transactions. A message changes the
registration of one contract, the one its contract address decodes to, and
only when `isContractSenderAuthorized` accepts its sender. So over any run, a
contract's registration changes only by messages from a sender that is its
creator, when it has one, and its admin, when it has one; a contract whose
creator and admin are two different accounts keeps its registration.
-/

set_option autoImplicit false

namespace Juno.CwHooks

open Sdk KVStore Helpers

inductive Msg where
  | registerStaking (req : MsgRegisterStaking)
  | registerGovernance (req : MsgRegisterGovernance)
  | unregisterStaking (req : MsgUnregisterStaking)
  | unregisterGovernance (req : MsgUnregisterGovernance)

structure Operation where
  wasm : String → Option ContractInfo
  msg : Msg

def Operation.registerAddress (op : Operation) : String :=
  match op.msg with
  | .registerStaking req => req.registerAddress
  | .registerGovernance req => req.registerAddress
  | .unregisterStaking req => req.registerAddress
  | .unregisterGovernance req => req.registerAddress

def deliver (k : Keeper) (s : State) (op : Operation) : Except String State :=
  let current : Keeper := { k with wasm := op.wasm }
  match op.msg with
  | .registerStaking req => current.msgRegisterStaking s req
  | .registerGovernance req => current.msgRegisterGovernance s req
  | .unregisterStaking req => current.msgUnregisterStaking s req
  | .unregisterGovernance req => current.msgUnregisterGovernance s req

/-! ### Writes to one contract -/

section Frame
variable (codec : Bech32) (s : State) (keyPrefix other : KeyPrefix) {contract d : String}

theorem isContractRegistered_setContract_ne (ne : contract ≠ d) :
    isContractRegistered codec (setContract codec s keyPrefix contract) other d =
      isContractRegistered codec s other d := by
  -- distinct addresses have distinct bytes
  have apart : codec.bytes contract ≠ codec.bytes d := fun same => ne (codec.bytes_injective same)
  by_cases same : keyPrefix = other
  · subst same
    have kept := Keyed.get?_put_ne (s.contracts keyPrefix) (contractOf codec contract) apart
    simp [isContractRegistered, setContract, Keyed.has, kept]
  · simp [isContractRegistered, setContract, State.contracts_setContracts_ne s _ same]

theorem isContractRegistered_deleteContract_ne (ne : contract ≠ d) :
    isContractRegistered codec (deleteContract codec s keyPrefix contract) other d =
      isContractRegistered codec s other d := by
  have apart : codec.bytes contract ≠ codec.bytes d := fun same => ne (codec.bytes_injective same)
  by_cases same : keyPrefix = other
  · subst same
    simp [isContractRegistered, deleteContract, Keyed.has, Keyed.get?_delete_ne _ (Ne.symm apart)]
  · simp [isContractRegistered, deleteContract, State.contracts_setContracts_ne s _ same]

end Frame

section Handlers
variable (k : Keeper) {s s' : State} {sender contractAddr prefixModuleName : String} {keyPrefix : KeyPrefix}

theorem authorized_write_ok {contract : String} {written : State}
    (h : (k.isContractSenderAuthorized sender contract >>= fun _ => pure written) = .ok s') :
    k.isContractSenderAuthorized sender contract = .ok () ∧ s' = written := by
  obtain ⟨u, authorized, stored⟩ := Atomic.bind_eq_ok.mp h
  cases u
  exact ⟨authorized, (Atomic.pure_eq_ok.mp stored).symm⟩

theorem handleContractRegister_ok
    (h : k.handleContractRegister s sender contractAddr keyPrefix prefixModuleName = .ok s') :
    ∃ contract, k.codec.decode contractAddr = some contract ∧
      k.isContractSenderAuthorized sender contract = .ok () ∧ s' = setContract k.codec s keyPrefix contract := by
  unfold Keeper.handleContractRegister at h
  cases decoded : k.codec.decode contractAddr with
  | none => simp [Bech32.accAddressFromBech32, decoded, Except.mapError, bind, Except.bind] at h
  | some contract =>
    simp only [Bech32.accAddressFromBech32, decoded, Except.mapError, bind, Except.bind] at h
    split_ifs at h
    exact ⟨contract, rfl, authorized_write_ok k h⟩

theorem handleContractRemoval_ok
    (h : k.handleContractRemoval s sender contractAddr keyPrefix prefixModuleName = .ok s') :
    ∃ contract, k.codec.decode contractAddr = some contract ∧
      k.isContractSenderAuthorized sender contract = .ok () ∧ s' = deleteContract k.codec s keyPrefix contract := by
  unfold Keeper.handleContractRemoval at h
  cases decoded : k.codec.decode contractAddr with
  | none => simp [Bech32.accAddressFromBech32, decoded, Except.mapError, bind, Except.bind] at h
  | some contract =>
    simp only [Bech32.accAddressFromBech32, decoded, Except.mapError, bind, Except.bind] at h
    split_ifs at h
    exact ⟨contract, rfl, authorized_write_ok k h⟩

theorem checked_ok {rest : Except String State} (h : (k.checkAddresses sender contractAddr >>= fun _ => rest) = .ok s') :
    rest = .ok s' := by
  obtain ⟨_, -, ran⟩ := Atomic.bind_eq_ok.mp h
  exact ran

end Handlers

section Steps
variable (k : Keeper) {s s' : State} {op : Operation}

theorem deliver_writes (h : deliver k s op = .ok s') :
    ∃ contract keyPrefix, k.codec.decode contract = some contract ∧
      { k with wasm := op.wasm }.isContractSenderAuthorized op.registerAddress contract = .ok () ∧
      (s' = setContract k.codec s keyPrefix contract ∨ s' = deleteContract k.codec s keyPrefix contract) := by
  unfold deliver at h
  cases msg : op.msg with
  | registerStaking req =>
    simp only [msg, Keeper.msgRegisterStaking] at h
    obtain ⟨contract, decoded, authorized, rfl⟩ := handleContractRegister_ok _ (checked_ok _ h)
    exact ⟨contract, .staking, k.codec.decode_canonical _ _ decoded,
      by simpa [Operation.registerAddress, msg] using authorized, .inl rfl⟩
  | registerGovernance req =>
    simp only [msg, Keeper.msgRegisterGovernance] at h
    obtain ⟨contract, decoded, authorized, rfl⟩ := handleContractRegister_ok _ (checked_ok _ h)
    exact ⟨contract, .gov, k.codec.decode_canonical _ _ decoded,
      by simpa [Operation.registerAddress, msg] using authorized, .inl rfl⟩
  | unregisterStaking req =>
    simp only [msg, Keeper.msgUnregisterStaking] at h
    obtain ⟨contract, decoded, authorized, rfl⟩ := handleContractRemoval_ok _ (checked_ok _ h)
    exact ⟨contract, .staking, k.codec.decode_canonical _ _ decoded,
      by simpa [Operation.registerAddress, msg] using authorized, .inr rfl⟩
  | unregisterGovernance req =>
    simp only [msg, Keeper.msgUnregisterGovernance] at h
    obtain ⟨contract, decoded, authorized, rfl⟩ := handleContractRemoval_ok _ (checked_ok _ h)
    exact ⟨contract, .gov, k.codec.decode_canonical _ _ decoded,
      by simpa [Operation.registerAddress, msg] using authorized, .inr rfl⟩

/-- A message that changes the registration of `d` was sent by a sender `d` accepts. -/
theorem deliver_changes_registration (keyPrefix : KeyPrefix) (d : String) (h : deliver k s op = .ok s')
    (changed : isContractRegistered k.codec s' keyPrefix d ≠ isContractRegistered k.codec s keyPrefix d) :
    { k with wasm := op.wasm }.isContractSenderAuthorized op.registerAddress d = .ok () := by
  obtain ⟨contract, written, -, authorized, write⟩ := deliver_writes k h
  -- the message wrote `contract`; any other contract keeps its registration
  by_cases same : contract = d
  · rw [← same]
    exact authorized
  · apply absurd _ changed
    rcases write with rfl | rfl
    · apply isContractRegistered_setContract_ne _ _ _ _ same
    · apply isContractRegistered_deleteContract_ne _ _ _ _ same

end Steps

/-! ### Runs -/

section Runs
variable (k : Keeper) (keyPrefix : KeyPrefix) (d : String)

/-- Over any run, the registration of `d` changes only through a message whose sender `d`
accepts when the message is delivered. -/
theorem registration_changed_by_authorized_sender (s : State) (run : List Operation)
    (changed : isContractRegistered k.codec (Atomic.execute (deliver k) s run) keyPrefix d ≠
      isContractRegistered k.codec s keyPrefix d) :
    ∃ op ∈ run, { k with wasm := op.wasm }.isContractSenderAuthorized op.registerAddress d = .ok () := by
  obtain ⟨before, op, after, split, change, -⟩ :=
    Atomic.execute_last_change (fun s => isContractRegistered k.codec s keyPrefix d) s run changed
  -- the last change committed, so its message was delivered
  rcases @Atomic.commit_cases State Operation String (deliver k) (Atomic.execute (deliver k) s before) op with
    same | committed
  · exact absurd (congrArg (fun s => isContractRegistered k.codec s keyPrefix d) same) change
  · refine ⟨op, by rw [split]; simp, ?_⟩
    apply deliver_changes_registration k keyPrefix d committed change

theorem not_authorized_of_foreign_admin {wasm : String → Option ContractInfo}
    (foreign : ∀ info, wasm d = some info → info.creator ≠ "" ∧ info.admin ≠ "" ∧ info.creator ≠ info.admin)
    (sender : String) : { k with wasm := wasm }.isContractSenderAuthorized sender d ≠ .ok () := by
  intro authorized
  obtain ⟨info, found, isCreator, isAdmin⟩ := (isContractSenderAuthorized_ok_iff _ sender d).mp authorized
  obtain ⟨creator, admin, differ⟩ := foreign info found
  apply differ
  rw [isCreator.resolve_left creator, isAdmin.resolve_left admin]

/-- While the contract under `d` is missing or has an admin that is not its creator, no run
changes its registration. -/
theorem foreign_admin_contract_keeps_registration (s : State) (run : List Operation)
    (foreign : ∀ op ∈ run, ∀ info, op.wasm d = some info →
      info.creator ≠ "" ∧ info.admin ≠ "" ∧ info.creator ≠ info.admin) :
    isContractRegistered k.codec (Atomic.execute (deliver k) s run) keyPrefix d =
      isContractRegistered k.codec s keyPrefix d := by
  induction run generalizing s with
  | nil => rfl
  | cons op rest ih =>
    rw [Atomic.execute_cons, ih _ (fun o mem => foreign o (List.mem_cons_of_mem op mem))]
    -- one message: it fails, or it leaves `d` alone since no sender is accepted
    rcases @Atomic.commit_cases State Operation String (deliver k) s op with same | committed
    · rw [same]
    · by_contra changed
      apply not_authorized_of_foreign_admin k d (foreign op List.mem_cons_self) op.registerAddress
      exact deliver_changes_registration k keyPrefix d committed changed

end Runs

/-! ### Restarts

The handlers register the records of decoded addresses, which the codec decodes to themselves,
and so does `InitGenesis`. So the export of every state that messages reach from an import imports back as
it is. -/

section Restarts
variable (k : Keeper) {s s' : State}

theorem canonical_setContract (canonical : Canonical k.codec s) {keyPrefix : KeyPrefix} {contract : String}
    (decoded : k.codec.decode contract = some contract) : Canonical k.codec (setContract k.codec s keyPrefix contract) := by
  intro other c mem
  by_cases same : keyPrefix = other
  · subst same
    rw [setContract, State.contracts_setContracts] at mem
    rcases mem_insertBy _ mem with rfl | old
    · exact ⟨decoded, rfl⟩
    · exact canonical keyPrefix c old
  · rw [setContract, State.contracts_setContracts_ne s _ same] at mem
    exact canonical other c mem

theorem canonical_deleteContract (canonical : Canonical k.codec s) (keyPrefix : KeyPrefix) (contract : String) :
    Canonical k.codec (deleteContract k.codec s keyPrefix contract) := by
  intro other c mem
  by_cases same : keyPrefix = other
  · subst same
    rw [deleteContract, State.contracts_setContracts] at mem
    exact canonical keyPrefix c (List.mem_filter.mp mem).1
  · rw [deleteContract, State.contracts_setContracts_ne s _ same] at mem
    exact canonical other c mem

theorem deliver_preserves_canonical : Atomic.Preserves (deliver k) (Canonical k.codec) := by
  intro s op s' canonical h
  obtain ⟨contract, keyPrefix, decoded, -, write⟩ := deliver_writes k h
  rcases write with rfl | rfl
  · exact canonical_setContract k canonical decoded
  · exact canonical_deleteContract k canonical keyPrefix contract

theorem importContract_ok {keyPrefix : KeyPrefix} {v : String} (h : importContract k.codec keyPrefix s v = .ok s') :
    ∃ a, k.codec.decode v = some a ∧ s' = setContract k.codec s keyPrefix a := by
  unfold importContract at h
  cases decoded : k.codec.decode v with
  | none => simp [Bech32.accAddressFromBech32, decoded, bind, Except.bind] at h
  | some a =>
    simp only [Bech32.accAddressFromBech32, decoded, bind, Except.bind, pure, Except.pure, Except.ok.injEq] at h
    exact ⟨a, rfl, h.symm⟩

theorem foldlM_importContract_canonical (keyPrefix : KeyPrefix) (addresses : List String)
    (canonical : Canonical k.codec s) (h : addresses.foldlM (importContract k.codec keyPrefix) s = .ok s') :
    Canonical k.codec s' := by
  refine Atomic.foldlM_preserves (Canonical k.codec) _ addresses ?_ canonical h
  intro t v next _ holds step
  obtain ⟨a, decoded, rfl⟩ := importContract_ok k step
  exact canonical_setContract k holds (k.codec.decode_canonical _ _ decoded)

theorem initGenesis_canonical {data : GenesisState} {params : Params} (h : initGenesis k.codec data = .ok (params, s)) :
    Canonical k.codec s := by
  unfold initGenesis at h
  obtain ⟨⟨⟩, -, h⟩ := Atomic.bind_eq_ok.mp h
  obtain ⟨⟨⟩, -, h⟩ := Atomic.bind_eq_ok.mp h
  obtain ⟨registered, staking, h⟩ := Atomic.bind_eq_ok.mp h
  obtain ⟨imported, gov, h⟩ := Atomic.bind_eq_ok.mp h
  obtain ⟨-, rfl⟩ := Prod.mk.inj (Atomic.pure_eq_ok.mp h)
  have empty : Canonical k.codec ⟨Keyed.empty, Keyed.empty⟩ := by
    intro keyPrefix v mem
    cases keyPrefix <;> cases mem
  exact foldlM_importContract_canonical k .gov _ (foldlM_importContract_canonical k .staking _ empty staking) gov

/-- A chain started from a genesis that `InitGenesis` accepts exports, after any run of
messages, a genesis that imports back to the same parameters and registrations. -/
theorem export_reimports_of_run {data : GenesisState} {params : Params} (h : initGenesis k.codec data = .ok (params, s))
    (run : List Operation) :
    initGenesis k.codec (exportGenesis params (Atomic.execute (deliver k) s run)) =
      .ok (params, Atomic.execute (deliver k) s run) :=
  initGenesis_exportGenesis params ((deliver_preserves_canonical k).execute (initGenesis_canonical k h) run)

end Restarts

/-! A contract created by its own account, and one created by a factory whose admin is a DAO. -/

def hooksKeeper : Keeper := ⟨Bech32.identity, fun _ => none⟩

def noContracts : State := ⟨Keyed.empty, Keyed.empty⟩

def ownContract (contract : String) : Option ContractInfo :=
  if contract = "juno1contract" then some ⟨"juno1creator", ""⟩ else none

def factoryContract (contract : String) : Option ContractInfo :=
  if contract = "juno1contract" then some ⟨"juno1factory", "juno1dao"⟩ else none

def creatorRun : List Operation := [⟨ownContract, .registerStaking ⟨"juno1contract", "juno1creator"⟩⟩]

def factoryRun : List Operation :=
  [⟨factoryContract, .registerStaking ⟨"juno1contract", "juno1factory"⟩⟩,
    ⟨factoryContract, .registerGovernance ⟨"juno1contract", "juno1dao"⟩⟩]

theorem creator_registers_own_contract :
    isContractRegistered hooksKeeper.codec (Atomic.execute (deliver hooksKeeper) noContracts creatorRun) .staking
        "juno1contract" ≠ isContractRegistered hooksKeeper.codec noContracts .staking "juno1contract" ∧
      ∃ op ∈ creatorRun,
        { hooksKeeper with wasm := op.wasm }.isContractSenderAuthorized op.registerAddress "juno1contract" = .ok () := by
  have changed : isContractRegistered hooksKeeper.codec (Atomic.execute (deliver hooksKeeper) noContracts creatorRun)
      .staking "juno1contract" ≠ isContractRegistered hooksKeeper.codec noContracts .staking "juno1contract" := by
    decide
  exact ⟨changed, registration_changed_by_authorized_sender hooksKeeper .staking "juno1contract" _ _ changed⟩

theorem factory_contract_stays_unregistered :
    (∀ op ∈ factoryRun, ∀ info, op.wasm "juno1contract" = some info →
        info.creator ≠ "" ∧ info.admin ≠ "" ∧ info.creator ≠ info.admin) ∧
      isContractRegistered hooksKeeper.codec (Atomic.execute (deliver hooksKeeper) noContracts factoryRun) .gov
        "juno1contract" = isContractRegistered hooksKeeper.codec noContracts .gov "juno1contract" := by
  have foreign : ∀ op ∈ factoryRun, ∀ info, op.wasm "juno1contract" = some info →
      info.creator ≠ "" ∧ info.admin ≠ "" ∧ info.creator ≠ info.admin := by
    intro op mem info found
    simp only [factoryRun, List.mem_cons, List.not_mem_nil, or_false] at mem
    rcases mem with rfl | rfl <;>
    · simp only [factoryContract, if_pos, Option.some.injEq] at found
      subst found
      decide
  exact ⟨foreign, foreign_admin_contract_keeps_registration hooksKeeper .gov "juno1contract" _ _ foreign⟩

theorem creator_run_restarts :
    initGenesis hooksKeeper.codec ⟨⟨100000⟩, [], []⟩ = .ok (⟨100000⟩, noContracts) ∧
      initGenesis hooksKeeper.codec
          (exportGenesis ⟨100000⟩ (Atomic.execute (deliver hooksKeeper) noContracts creatorRun)) =
        .ok (⟨100000⟩, Atomic.execute (deliver hooksKeeper) noContracts creatorRun) := by
  have started : initGenesis hooksKeeper.codec ⟨⟨100000⟩, [], []⟩ = .ok (⟨100000⟩, noContracts) := rfl
  exact ⟨started, export_reimports_of_run hooksKeeper started creatorRun⟩

end Juno.CwHooks
