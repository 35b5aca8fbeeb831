import Juno.Clock.EndBlocker

/-! Runs of the clock module: its messages and its end blocks, from the empty store
of genesis (the module's genesis holds only parameters).

Each message is delivered with the contract infos the wasm keeper holds at that
moment, since admins change between transactions. Every message validates its
addresses, so every stored address decodes and the end blocker never panics. A
message changes the record of its own contract only, and only when its sender is
that contract's manager; an end block only jails. So a jailed contract is freed
only by a message from its manager.
-/

set_option autoImplicit false

namespace Juno.Clock

open Sdk KVStore Helpers

inductive Msg where
  | registerClockContract (req : MsgRegisterClockContract)
  | unregisterClockContract (req : MsgUnregisterClockContract)
  | unjailClockContract (req : MsgUnjailClockContract)

def Msg.senderAddress : Msg → String
  | .registerClockContract req => req.senderAddress
  | .unregisterClockContract req => req.senderAddress
  | .unjailClockContract req => req.senderAddress

def Msg.contractAddress : Msg → String
  | .registerClockContract req => req.contractAddress
  | .unregisterClockContract req => req.contractAddress
  | .unjailClockContract req => req.contractAddress

inductive Operation where
  | message (wasm : String → Option ContractInfo) (msg : Msg)
  | endBlock (outcome : String → SudoOutcome)

def deliverMsg (k : Keeper) (s : Contracts) : Msg → Except String Contracts
  | .registerClockContract req => k.msgRegisterClockContract s req
  | .unregisterClockContract req => k.msgUnregisterClockContract s req
  | .unjailClockContract req => k.msgUnjailClockContract s req

def deliver (k : Keeper) (s : Contracts) : Operation → Except String Contracts
  | .message wasm msg => deliverMsg { k with wasm } s msg
  | .endBlock outcome => Prod.fst <$> endBlocker k outcome s

def Decodable (k : Keeper) (s : Contracts) : Prop :=
  ∀ c ∈ s.records, (k.codec.decode c.contractAddress).isSome

section Deliver
variable (k : Keeper) {s s' : Contracts}

theorem deliver_endBlock {outcome : String → SudoOutcome} (decodable : Decodable k s)
    (h : deliver k s (.endBlock outcome) = .ok s') :
    ∀ a, s'.get? a = (s.get? a).map (jailIn (poisoned outcome s.records)) := by
  obtain ⟨s'', run, store⟩ := endBlocker_eq k outcome s decodable
  simp only [deliver, run, Functor.map, Except.map, Except.ok.injEq] at h
  subst h
  exact store

/-- A message that succeeds passed its sender's manager check on its own contract, whose address
decodes, and left every other record as it was. -/
theorem deliverMsg_frame {msg : Msg} (h : deliverMsg k s msg = .ok s') :
    k.isContractManager msg.senderAddress msg.contractAddress = .ok () ∧
      (k.codec.decode msg.contractAddress).isSome ∧ ∀ a, a ≠ msg.contractAddress → s'.get? a = s.get? a := by
  cases msg with
  | registerClockContract req =>
    obtain ⟨-, decoded, register⟩ := (validated_ok_iff _ _ _ _ _).mp h
    obtain ⟨-, manager, rfl⟩ := (registerContract_ok_iff k _ _).mp register
    exact ⟨manager, decoded, fun a other => Keyed.get?_put_ne s ⟨req.contractAddress, false⟩ (Ne.symm other)⟩
  | unregisterClockContract req =>
    obtain ⟨-, decoded, unregister⟩ := (validated_ok_iff _ _ _ _ _).mp h
    obtain ⟨-, manager, rfl⟩ := (unregisterContract_ok_iff k _ _).mp unregister
    exact ⟨manager, decoded, fun a other => Keyed.get?_delete_ne s other⟩
  | unjailClockContract req =>
    obtain ⟨-, decoded, unjail⟩ := (validated_ok_iff _ _ _ _ _).mp h
    obtain ⟨manager, jail⟩ := (setJailStatusBySender_ok_iff k _ _ _).mp unjail
    obtain ⟨c, found, -, rfl⟩ := (setJailStatus_ok_iff _ _ _ _).mp jail
    -- the unjailed record is the one found under the message's address
    have key : c.contractAddress = req.contractAddress := Keyed.key_of_get? found
    refine ⟨manager, decoded, fun a other => Keyed.get?_put_ne s { c with isJailed := false } ?_⟩
    rw [key]
    exact Ne.symm other

theorem decodable_of_agree {x : String} (decodable : Decodable k s) (decoded : (k.codec.decode x).isSome)
    (agree : ∀ a, a ≠ x → s'.get? a = s.get? a) : Decodable k s' := by
  intro d hd
  by_cases same : d.contractAddress = x
  · rw [same]
    exact decoded
  · have found : s.get? d.contractAddress = some d := by
      rw [← agree _ same]
      exact Keyed.get?_of_mem s' hd
    exact decodable d (Keyed.mem_of_get? found)

theorem decodable_preserved : Atomic.Preserves (deliver k) (Decodable k) := by
  intro s op s' decodable h
  cases op with
  | message wasm msg =>
    obtain ⟨-, decoded, agree⟩ := deliverMsg_frame { k with wasm } h
    exact decodable_of_agree k decodable decoded agree
  | endBlock outcome =>
    intro d hd
    -- the end block keeps every address: a record it leaves is one it read, maybe jailed
    have stored := deliver_endBlock k decodable h d.contractAddress
    rw [Keyed.get?_of_mem s' hd] at stored
    obtain ⟨c, found, same⟩ := Option.map_eq_some_iff.mp stored.symm
    have key : c.contractAddress = d.contractAddress := Keyed.key_of_get? found
    rw [← key]
    exact decodable c (Keyed.mem_of_get? found)

theorem decodable_of_reachable (reach : Atomic.Reachable (deliver k) Keyed.empty s) : Decodable k s :=
  (decodable_preserved k).reachable (fun _ h => by cases h) reach

/-- From genesis on, the end blocker never panics: every stored address decodes. -/
theorem endBlocker_ok_of_reachable (reach : Atomic.Reachable (deliver k) Keyed.empty s)
    (outcome : String → SudoOutcome) :
    ∃ s', endBlocker k outcome s =
      .ok (s', (called outcome s.records).map ClockContract.contractAddress) := by
  obtain ⟨s', run, _⟩ := endBlocker_eq k outcome s (decodable_of_reachable k reach)
  exact ⟨s', run⟩

end Deliver

/-! A contract with a creator and no admin, registered by its creator and jailed by an end block
in which its call runs out of gas. -/

def managedKeeper : Keeper :=
  ⟨Bech32.identity, fun c => if c = "juno1contract" then some ⟨"juno1creator", ""⟩ else none⟩

def outOfGas (_ : String) : SudoOutcome := .panicked (.outOfGas "EndBlock")

def jailingRun : List Operation :=
  [.message managedKeeper.wasm (.registerClockContract ⟨"juno1creator", "juno1contract"⟩), .endBlock outOfGas]

theorem endBlocker_ok_after_jailing :
    ∃ s', endBlocker managedKeeper outOfGas (Atomic.execute (deliver managedKeeper) Keyed.empty jailingRun) =
      .ok (s', (called outOfGas (Atomic.execute (deliver managedKeeper) Keyed.empty jailingRun).records).map
        ClockContract.contractAddress) :=
  endBlocker_ok_of_reachable managedKeeper ⟨jailingRun, rfl⟩ outOfGas

/-! ### Who changes a contract's record -/

section Authority
variable (k : Keeper) {s s' : Contracts} (a : String)

def jailedAt (s : Contracts) : Option Bool := (s.get? a).map ClockContract.isJailed

/-- A message changes the record under `a` only when its sender is the manager of `a` by the
contract infos it was delivered with; an end block changes it only by jailing. -/
theorem deliver_changes_jailedAt {op : Operation} (decodable : Decodable k s)
    (h : deliver k s op = .ok s') (changed : jailedAt a s' ≠ jailedAt a s) :
    (∃ wasm msg, op = .message wasm msg ∧ { k with wasm }.isContractManager msg.senderAddress a = .ok ()) ∨
      jailedAt a s' = some true := by
  cases op with
  | message wasm msg =>
    obtain ⟨manager, -, agree⟩ := deliverMsg_frame { k with wasm } h
    left
    by_cases same : msg.contractAddress = a
    · exact ⟨wasm, msg, rfl, same ▸ manager⟩
    · exact absurd (by simp [jailedAt, agree a (Ne.symm same)]) changed
  | endBlock outcome =>
    right
    have store := deliver_endBlock k decodable h a
    unfold jailedAt at changed ⊢
    rw [store] at changed ⊢
    cases found : s.get? a with
    | none => simp [found] at changed
    | some c =>
      -- the record changed, so the end block jailed it
      by_cases poison : c ∈ poisoned outcome s.records
      · simp [jailIn, poison]
      · simp [found, jailIn, poison] at changed

/-- From genesis on, a jailed contract that a run leaves unjailed was freed, or registered
again, by a message from its manager when that message was delivered. -/
theorem unjailed_only_by_manager (reach : Atomic.Reachable (deliver k) Keyed.empty s)
    (actions : List Operation) (jailed : jailedAt a s = some true)
    (free : jailedAt a (Atomic.execute (deliver k) s actions) = some false) :
    ∃ wasm msg, Operation.message wasm msg ∈ actions ∧
      { k with wasm }.isContractManager msg.senderAddress a = .ok () := by
  have changed : jailedAt a (Atomic.execute (deliver k) s actions) ≠ jailedAt a s := by
    rw [free, jailed]
    simp
  obtain ⟨before, op, after, split, change, final⟩ := Atomic.execute_last_change (jailedAt a) s actions changed
  set middle := Atomic.execute (deliver k) s before
  have reached : Atomic.Reachable (deliver k) Keyed.empty middle := reach.trans ⟨before, rfl⟩
  -- the last change committed, so the operation succeeded
  rcases @Atomic.commit_cases Contracts Operation String (deliver k) middle op with same | committed
  · exact absurd (congrArg (jailedAt a) same) change
  · rcases deliver_changes_jailedAt k a (decodable_of_reachable k reached) committed change with
      ⟨wasm, msg, rfl, manager⟩ | jailedAfter
    · exact ⟨wasm, msg, by rw [split]; simp, manager⟩
    · rw [free, jailedAfter] at final
      simp at final

end Authority

def unjailByCreator : Operation :=
  .message managedKeeper.wasm (.unjailClockContract ⟨"juno1creator", "juno1contract"⟩)

theorem creator_unjails_contract :
    jailedAt "juno1contract" (Atomic.execute (deliver managedKeeper) Keyed.empty jailingRun) = some true ∧
      jailedAt "juno1contract" (Atomic.execute (deliver managedKeeper)
        (Atomic.execute (deliver managedKeeper) Keyed.empty jailingRun) [unjailByCreator]) = some false ∧
      ∃ wasm msg, Operation.message wasm msg ∈ [unjailByCreator] ∧
        { managedKeeper with wasm }.isContractManager msg.senderAddress "juno1contract" = .ok () := by
  have jailed : jailedAt "juno1contract" (Atomic.execute (deliver managedKeeper) Keyed.empty jailingRun) =
      some true := by
    decide
  have free : jailedAt "juno1contract" (Atomic.execute (deliver managedKeeper)
      (Atomic.execute (deliver managedKeeper) Keyed.empty jailingRun) [unjailByCreator]) = some false := by
    decide
  exact ⟨jailed, free, unjailed_only_by_manager managedKeeper "juno1contract" ⟨jailingRun, rfl⟩ _ jailed free⟩

end Juno.Clock
