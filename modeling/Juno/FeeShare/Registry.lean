import Juno.FeeShare.Keeper
import Juno.Semantics.Atomic

/-! Who sets a contract's fee-share withdrawer.

A registration outside the factory branch, an update and a cancellation all
pass `GetContractAdminOrCreatorAddress`, so their signer is the contract's
manager: its wasm admin, or its creator when it has none. The factory branch
lets anyone register, but only with the contract as its own withdrawer.
Managers change as wasm admins do, so each message is delivered with the
contract infos of its moment.
-/

set_option autoImplicit false
set_option linter.dupNamespace false

namespace Juno.FeeShare

open Sdk KVStore

def IsManager (wasm : String → Option ContractInfo) (contract signer : String) : Prop :=
  ∃ info, wasm contract = some info ∧ (if info.admin = "" then info.creator = signer else info.admin = signer)

section Messages
variable (k : Keeper) (wasm : String → Option ContractInfo) {s s' : State}

theorem decodeAs_ok_iff (what address a : String) :
    k.decodeAs what address = .ok a ↔ k.codec.decode address = some a := by
  unfold Keeper.decodeAs
  cases k.codec.decode address <;> simp

theorem getContractInfo_ok_iff (contract : String) (info : ContractInfo) :
    Keeper.getContractInfo wasm contract = .ok info ↔ wasm contract = some info := by
  unfold Keeper.getContractInfo
  cases wasm contract <;> simp

theorem getContractAdminOrCreatorAddress_manager {contract deployer a : String}
    (h : k.getContractAdminOrCreatorAddress wasm contract deployer = .ok a) :
    IsManager wasm contract deployer := by
  unfold Keeper.getContractAdminOrCreatorAddress at h
  obtain ⟨_, -, h⟩ := Atomic.bind_eq_ok.mp h
  obtain ⟨info, found, h⟩ := Atomic.bind_eq_ok.mp h
  refine ⟨info, (getContractInfo_ok_iff wasm contract info).mp found, ?_⟩
  -- each branch throws unless the deployer is the one the branch compares against
  by_cases noAdmin : info.admin.length = 0
  · have empty : info.admin = "" := String.length_eq_zero_iff.mp noAdmin
    by_cases creator : info.creator = deployer
    · rw [if_pos empty]
      exact creator
    · simp [noAdmin, creator] at h
  · have nonempty : info.admin ≠ "" := fun empty => noAdmin (by simp [empty])
    by_cases admin : info.admin = deployer
    · rw [if_neg nonempty]
      exact admin
    · simp [noAdmin, admin] at h

theorem getContractAdminOrCreatorAddress_decoded {contract deployer a : String}
    (h : k.getContractAdminOrCreatorAddress wasm contract deployer = .ok a) : k.codec.decode a = some a := by
  unfold Keeper.getContractAdminOrCreatorAddress at h
  obtain ⟨_, -, h⟩ := Atomic.bind_eq_ok.mp h
  obtain ⟨info, -, h⟩ := Atomic.bind_eq_ok.mp h
  -- each branch passes its check and ends with decoding the creator, or the admin
  by_cases noAdmin : info.admin.length = 0
  · by_cases creator : info.creator = deployer
    · simp only [noAdmin, creator, ne_eq, not_true_eq_false, if_true, if_false] at h
      obtain ⟨_, -, h⟩ := Atomic.bind_eq_ok.mp h
      exact k.codec.decode_canonical _ _ ((decodeAs_ok_iff k _ _ _).mp h)
    · simp [noAdmin, creator] at h
  · rw [if_neg noAdmin] at h
    by_cases admin : info.admin = deployer
    · simp only [admin, ne_eq, not_true_eq_false, if_false] at h
      obtain ⟨_, -, h⟩ := Atomic.bind_eq_ok.mp h
      exact k.codec.decode_canonical _ _ ((decodeAs_ok_iff k _ _ _).mp h)
    · simp [admin] at h

theorem registerFeeShare_writes {msg : MsgRegisterFeeShare} (h : k.registerFeeShare wasm s msg = .ok s') :
    ∃ contract withdrawer deployer, k.codec.decode msg.contractAddress = some contract ∧
      k.codec.decode msg.withdrawerAddress = some withdrawer ∧ k.codec.decode deployer = some deployer ∧
      s.feeShares.has contract = false ∧ s'.params = s.params ∧
      s'.feeShares = s.feeShares.put ⟨contract, ⟨contract, deployer, withdrawer⟩⟩ ∧
      s'.deployers = s.deployers.insert (deployer, contract) ∧
      s'.withdrawers = s.withdrawers.insert (withdrawer, contract) ∧
      (withdrawer = contract ∨ IsManager wasm contract msg.deployerAddress) := by
  unfold Keeper.registerFeeShare at h
  by_cases enabled : s.params.enableFeeShare = true
  swap
  · simp [enabled] at h
  simp only [enabled, Bool.not_true, Bool.false_eq_true, if_false] at h
  obtain ⟨contract, decoded, h⟩ := Atomic.bind_eq_ok.mp h
  by_cases has : s.feeShares.has contract = true
  · simp [has] at h
  simp only [has, Bool.false_eq_true, if_false] at h
  obtain ⟨withdrawer, withdrawerDecoded, h⟩ := Atomic.bind_eq_ok.mp h
  obtain ⟨msgSender, -, h⟩ := Atomic.bind_eq_ok.mp h
  obtain ⟨info, -, h⟩ := Atomic.bind_eq_ok.mp h
  obtain ⟨deployer, chosen, h⟩ := Atomic.bind_eq_ok.mp h
  rw [decodeAs_ok_iff] at decoded withdrawerDecoded
  have written := (Atomic.pure_eq_ok.mp h).symm
  subst written
  by_cases factory : k.getIfContractWasCreatedFromFactory wasm msgSender info = true
  · -- the factory branch takes only the contract's own address, as withdrawer and deployer
    rw [if_pos factory] at chosen
    by_cases differs : msg.withdrawerAddress ≠ msg.contractAddress
    · rw [if_pos differs] at chosen
      cases chosen
    rw [if_neg differs, decodeAs_ok_iff] at chosen
    rw [not_not] at differs
    have self : withdrawer = contract := by
      rw [differs, decoded] at withdrawerDecoded
      exact (Option.some.inj withdrawerDecoded).symm
    exact ⟨contract, withdrawer, deployer, decoded, withdrawerDecoded, k.codec.decode_canonical _ _ chosen,
      by simpa using has, rfl, rfl, rfl, rfl, .inl self⟩
  · rw [if_neg factory] at chosen
    exact ⟨contract, withdrawer, deployer, decoded, withdrawerDecoded,
      getContractAdminOrCreatorAddress_decoded k wasm chosen, by simpa using has, rfl, rfl, rfl, rfl,
      .inr (getContractAdminOrCreatorAddress_manager k wasm chosen)⟩

theorem updateFeeShare_writes {msg : MsgUpdateFeeShare} (h : k.updateFeeShare wasm s msg = .ok s') :
    ∃ contract feeshare withdrawAddr withdrawer, k.codec.decode msg.contractAddress = some contract ∧
      getFeeShare s contract = some feeshare ∧ IsManager wasm contract msg.deployerAddress ∧
      k.codec.decode feeshare.withdrawerAddress = some withdrawAddr ∧
      k.codec.decode msg.withdrawerAddress = some withdrawer ∧ s'.params = s.params ∧
      s'.feeShares = s.feeShares.put ⟨contract, { feeshare with withdrawerAddress := withdrawer }⟩ ∧
      s'.deployers = s.deployers ∧
      s'.withdrawers = (s.withdrawers.filter (· ≠ (withdrawAddr, contract))).insert (withdrawer, contract) := by
  unfold Keeper.updateFeeShare at h
  by_cases enabled : s.params.enableFeeShare = true
  swap
  · simp [enabled] at h
  simp only [enabled, Bool.not_true, Bool.false_eq_true, if_false] at h
  obtain ⟨contract, decoded, h⟩ := Atomic.bind_eq_ok.mp h
  obtain ⟨feeshare, found, h⟩ := Atomic.bind_eq_ok.mp h
  have stored : getFeeShare s contract = some feeshare := by
    cases hs : getFeeShare s contract <;> simp_all
  by_cases same : msg.withdrawerAddress = feeshare.withdrawerAddress
  · simp [same] at h
  simp only [same, if_false] at h
  obtain ⟨_, manager, h⟩ := Atomic.bind_eq_ok.mp h
  obtain ⟨withdrawAddr, withdrawAddrDecoded, h⟩ := Atomic.bind_eq_ok.mp h
  obtain ⟨withdrawer, withdrawerDecoded, h⟩ := Atomic.bind_eq_ok.mp h
  rw [decodeAs_ok_iff] at decoded withdrawAddrDecoded withdrawerDecoded
  have written := (Atomic.pure_eq_ok.mp h).symm
  subst written
  exact ⟨contract, feeshare, withdrawAddr, withdrawer, decoded, stored,
    getContractAdminOrCreatorAddress_manager k wasm manager, withdrawAddrDecoded, withdrawerDecoded,
    rfl, rfl, rfl, rfl⟩

theorem cancelFeeShare_writes {msg : MsgCancelFeeShare} (h : k.cancelFeeShare wasm s msg = .ok s') :
    ∃ contract fee, k.codec.decode msg.contractAddress = some contract ∧ getFeeShare s contract = some fee ∧
      IsManager wasm contract msg.deployerAddress ∧ s'.params = s.params ∧
      s'.feeShares = s.feeShares.delete contract ∧
      s'.deployers = s.deployers.filter (· ≠ ((k.codec.decode fee.deployerAddress).getD "", contract)) ∧
      s'.withdrawers = (match k.codec.decode fee.withdrawerAddress with
        | some withdrawAddr => s.withdrawers.filter (· ≠ (withdrawAddr, contract))
        | none => s.withdrawers) := by
  unfold Keeper.cancelFeeShare at h
  by_cases enabled : s.params.enableFeeShare = true
  swap
  · simp [enabled] at h
  simp only [enabled, Bool.not_true, Bool.false_eq_true, if_false] at h
  obtain ⟨contract, decoded, h⟩ := Atomic.bind_eq_ok.mp h
  obtain ⟨fee, found, h⟩ := Atomic.bind_eq_ok.mp h
  have stored : getFeeShare s contract = some fee := by
    cases hs : getFeeShare s contract <;> simp_all
  obtain ⟨_, manager, h⟩ := Atomic.bind_eq_ok.mp h
  rw [decodeAs_ok_iff] at decoded
  refine ⟨contract, fee, decoded, stored, getContractAdminOrCreatorAddress_manager k wasm manager, ?_⟩
  -- the withdrawer-map entry goes only when the record's withdrawer decodes
  cases withdrawAddr : k.codec.decode fee.withdrawerAddress with
  | none =>
    simp only [withdrawAddr, Atomic.pure_eq_ok] at h
    subst h
    simp [deleteDeployerMap, deleteFeeShare]
  | some w =>
    simp only [withdrawAddr, Atomic.pure_eq_ok] at h
    subst h
    simp [deleteWithdrawerMap, deleteDeployerMap, deleteFeeShare]

theorem updateParams_feeShares {req : MsgUpdateParams} (h : k.updateParams s req = .ok s') :
    s'.feeShares = s.feeShares ∧ s'.deployers = s.deployers ∧ s'.withdrawers = s.withdrawers := by
  unfold Keeper.updateParams Keeper.setParams at h
  split_ifs at h
  obtain ⟨_, -, h⟩ := Atomic.bind_eq_ok.mp h
  rw [← Atomic.pure_eq_ok.mp h]
  exact ⟨rfl, rfl, rfl⟩

end Messages

/-! ### Runs of the registry -/

inductive Msg where
  | registerFeeShare (msg : MsgRegisterFeeShare)
  | updateFeeShare (msg : MsgUpdateFeeShare)
  | cancelFeeShare (msg : MsgCancelFeeShare)
  | updateParams (req : MsgUpdateParams)

/-- A message with the contract infos the wasm keeper holds when it is delivered. -/
structure Operation where
  wasm : String → Option ContractInfo
  msg : Msg

def Operation.signer (op : Operation) : String :=
  match op.msg with
  | .registerFeeShare msg => msg.deployerAddress
  | .updateFeeShare msg => msg.deployerAddress
  | .cancelFeeShare msg => msg.deployerAddress
  | .updateParams req => req.authority

def deliver (k : Keeper) (s : State) (op : Operation) : Except String State :=
  match op.msg with
  | .registerFeeShare msg => k.registerFeeShare op.wasm s msg
  | .updateFeeShare msg => k.updateFeeShare op.wasm s msg
  | .cancelFeeShare msg => k.cancelFeeShare op.wasm s msg
  | .updateParams req => k.updateParams s req

/-- The operation registers `c`, or updates it, with the withdrawer `w`. -/
def Operation.Writes (k : Keeper) (op : Operation) (c w : String) : Prop :=
  match op.msg with
  | .registerFeeShare msg => k.codec.decode msg.contractAddress = some c ∧ k.codec.decode msg.withdrawerAddress = some w
  | .updateFeeShare msg => k.codec.decode msg.contractAddress = some c ∧ k.codec.decode msg.withdrawerAddress = some w
  | .cancelFeeShare _ | .updateParams _ => False

def withdrawerOf (c : String) (s : State) : Option String := (getFeeShare s c).map FeeShare.withdrawerAddress

section Steps
variable (k : Keeper) {s s' : State} {op : Operation} (c : String)

theorem withdrawerOf_put_ne {contract : String} {fs : FeeShare} (stored : s'.feeShares = s.feeShares.put ⟨contract, fs⟩)
    (ne : contract ≠ c) : withdrawerOf c s' = withdrawerOf c s := by
  rw [withdrawerOf, withdrawerOf, getFeeShare_of_put_ne stored (Ne.symm ne)]

/-- A step that changes the withdrawer of `c` is signed by its manager and deletes the record or
writes the withdrawer it names, or registers `c` to itself. -/
theorem deliver_changes_withdrawer (h : deliver k s op = .ok s') (changed : withdrawerOf c s' ≠ withdrawerOf c s) :
    (IsManager op.wasm c op.signer ∧
        (withdrawerOf c s' = none ∨ ∃ w, withdrawerOf c s' = some w ∧ op.Writes k c w)) ∨
      (withdrawerOf c s = none ∧ withdrawerOf c s' = some c) := by
  obtain ⟨wasm, msg⟩ := op
  cases msg with
  | registerFeeShare msg =>
    obtain ⟨contract, withdrawer, deployer, decoded, withdrawerDecoded, -, fresh, -, stored, -, -, chosen⟩ :=
      registerFeeShare_writes k wasm h
    by_cases same : contract = c
    · subst same
      have before : withdrawerOf contract s = none := by
        simp [withdrawerOf, getFeeShare, Keyed.has] at fresh ⊢
        exact fresh
      have after : withdrawerOf contract s' = some withdrawer := by
        simp [withdrawerOf, getFeeShare_of_put_self stored]
      rcases chosen with rfl | manager
      · exact .inr ⟨before, after⟩
      · exact .inl ⟨manager, .inr ⟨withdrawer, after, decoded, withdrawerDecoded⟩⟩
    · exact absurd (withdrawerOf_put_ne c stored same) changed
  | updateFeeShare msg =>
    obtain ⟨contract, feeshare, -, withdrawer, decoded, found, manager, -, withdrawerDecoded, -, stored, -⟩ :=
      updateFeeShare_writes k wasm h
    by_cases same : contract = c
    · subst same
      have after : withdrawerOf contract s' = some withdrawer := by
        simp [withdrawerOf, getFeeShare_of_put_self stored]
      exact .inl ⟨manager, .inr ⟨withdrawer, after, decoded, withdrawerDecoded⟩⟩
    · exact absurd (withdrawerOf_put_ne c stored same) changed
  | cancelFeeShare msg =>
    obtain ⟨contract, -, decoded, -, manager, -, stored, -⟩ := cancelFeeShare_writes k wasm h
    by_cases same : contract = c
    · subst same
      exact .inl ⟨manager, .inl (by simp [withdrawerOf, getFeeShare_of_delete_self stored])⟩
    · exact absurd (by rw [withdrawerOf, withdrawerOf, getFeeShare_of_delete_ne stored (Ne.symm same)]) changed
  | updateParams req =>
    have kept := (updateParams_feeShares k h).1
    exact absurd (by simp [withdrawerOf, getFeeShare, kept]) changed

end Steps

section Runs
variable (k : Keeper) (s₀ : State) (run : List Operation) (c : String)

theorem withdrawer_set_by_manager :
    (∀ w, withdrawerOf c (Atomic.execute (deliver k) s₀ run) = some w →
        w = c ∨ withdrawerOf c s₀ = some w ∨
          ∃ op ∈ run, op.Writes k c w ∧ IsManager op.wasm c op.signer) ∧
      ∀ before op after, run = before ++ op :: after →
        withdrawerOf c (Atomic.execute (deliver k) s₀ before) ≠ none →
        withdrawerOf c (Atomic.commit (deliver k) (Atomic.execute (deliver k) s₀ before) op) ≠
          withdrawerOf c (Atomic.execute (deliver k) s₀ before) →
        IsManager op.wasm c op.signer := by
  constructor
  · intro w final
    by_cases changed : withdrawerOf c (Atomic.execute (deliver k) s₀ run) ≠ withdrawerOf c s₀
    · obtain ⟨before, op, after, split, change, last⟩ :=
        Atomic.execute_last_change (withdrawerOf c) s₀ run changed
      -- the last change committed, so the step succeeded
      rcases @Atomic.commit_cases State Operation String (deliver k) (Atomic.execute (deliver k) s₀ before) op
        with same | committed
      · exact absurd (congrArg (withdrawerOf c) same) change
      rw [final] at last
      rcases deliver_changes_withdrawer k c committed change with ⟨manager, deleted | ⟨w', written, writes⟩⟩ | ⟨-, self⟩
      · rw [← last] at deleted
        cases deleted
      · rw [← last, Option.some.injEq] at written
        subst written
        exact .inr (.inr ⟨op, by rw [split]; simp, writes, manager⟩)
      · rw [← last, Option.some.injEq] at self
        exact .inl self
    · rw [not_not, final] at changed
      exact .inr (.inl changed.symm)
  · intro before op after _ registered change
    rcases @Atomic.commit_cases State Operation String (deliver k) (Atomic.execute (deliver k) s₀ before) op
      with same | committed
    · exact absurd (congrArg (withdrawerOf c) same) change
    -- registering a contract to itself needs it unregistered, which it was not
    rcases deliver_changes_withdrawer k c committed change with ⟨manager, -⟩ | ⟨unregistered, -⟩
    · exact manager
    · exact absurd unregistered registered

end Runs

end Juno.FeeShare
