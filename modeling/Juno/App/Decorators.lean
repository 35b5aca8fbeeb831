import Juno.Sdk.Tx
import Juno.Sdk.Wasm
import Juno.Semantics.Atomic

/-! Juno's message-policy ante decorators.

`MsgFilterDecorator` rejects a transaction with an IBC `MsgTimeoutOnClose`
among its messages; it looks at the transaction's own messages only.
`MsgChangeRateDecorator` walks the messages and, recursively, the inner
messages of every authz `MsgExec`; it rejects a validator creation whose
commission may change by more than 5% a day, an edit that moves a validator's
commission rate by more than 5 points or names an unknown or malformed
validator, and an exec whose inner messages do not unpack. The ante chain runs
the filter first.

The staking keeper is read through the validator operator codec and the
commission rate it stores for a validator.
-/

set_option autoImplicit false

namespace Juno.Decorators

open Sdk

def maxChangeRate : LegacyDec := legacyNewDecWithPrec 5 2

/-- The maximum rate as `%f` prints a `LegacyDec`. -/
def maxChangeRateText : String := "0.050000000000000000"

/-- What the change-rate decorator reads from the staking keeper. -/
structure StakingKeeper where
  /-- `sdk.ValAddressFromBech32` -/
  valCodec : Bech32
  /-- `GetValidator`: the validator's commission rate, or the keeper's error. -/
  getValidator : String → Except String LegacyDec

def hasInvalidMsgs (msgs : List Msg) : Bool :=
  msgs.any fun
    | .timeoutOnClose => true
    | _ => false

/-- `MsgFilterDecorator.AnteHandle`, up to the call of the next decorator. -/
def msgFilterAnteHandle (ctx : Context) (tx : Tx) : Except String Unit :=
  if hasInvalidMsgs tx.msgs then
    .error ("tx contains unsupported message types at height " ++ toString ctx.blockHeight)
  else .ok ()

structure MsgChangeRateDecorator where
  sk : StakingKeeper
  maxCommissionChangeRate : LegacyDec

def newChangeRateDecorator (sk : StakingKeeper) : MsgChangeRateDecorator := ⟨sk, maxChangeRate⟩

namespace MsgChangeRateDecorator

variable (mcr : MsgChangeRateDecorator)

def isInvalidCreateMessage (maxChangeRate : LegacyDec) : Bool :=
  decide (mcr.maxCommissionChangeRate.raw < maxChangeRate.raw)

def isInvalidEditMessage (validatorAddress : String) (commissionRate : Option LegacyDec) : Except String Unit :=
  match commissionRate with
  -- the commission rate is not being modified
  | none => .ok ()
  | some rate =>
    match mcr.sk.valCodec.decode validatorAddress with
    | none => .error "invalid validator address"
    | some valAddr => do
      let current ← mcr.sk.getValidator valAddr
      if rate.raw < (current.sub mcr.maxCommissionChangeRate).raw ∨
          (current.add mcr.maxCommissionChangeRate).raw < rate.raw then
        .error ("commission rate cannot change by more than " ++ maxChangeRateText ++ "%")
      else .ok ()

/-- `hasInvalidCommissionRateMsgs`: an exec's inner messages are checked before the messages
after it, and the first error is returned. -/
def hasInvalidCommissionRateMsgs : List Msg → Except String Unit
  | [] => .ok ()
  | msg :: msgs => do
    (match msg with
      | .exec _ none => .error "exec messages do not unpack"
      | .exec _ (some inner) => hasInvalidCommissionRateMsgs inner
      | _ => .ok () : Except String Unit)
    (match msg with
      | .createValidator rate =>
        if mcr.isInvalidCreateMessage rate then
          .error ("max change rate must not exceed " ++ maxChangeRateText ++ "%")
        else .ok ()
      | .editValidator validatorAddress commissionRate => mcr.isInvalidEditMessage validatorAddress commissionRate
      | _ => .ok () : Except String Unit)
    hasInvalidCommissionRateMsgs msgs

/-- `MsgChangeRateDecorator.AnteHandle`, up to the call of the next decorator. -/
def anteHandle (tx : Tx) : Except String Unit := mcr.hasInvalidCommissionRateMsgs tx.msgs

end MsgChangeRateDecorator

def policyAnteHandle (sk : StakingKeeper) (ctx : Context) (tx : Tx) : Except String Unit := do
  msgFilterAnteHandle ctx tx
  (newChangeRateDecorator sk).anteHandle tx

/-! ### Messages at every depth -/

/-- `m` is one of `msgs`, or an inner message of an authz exec among them, at any depth. -/
inductive Nested : Msg → List Msg → Prop
  | top {m : Msg} {msgs : List Msg} : m ∈ msgs → Nested m msgs
  | inside {m : Msg} {grantee : String} {inner msgs : List Msg} :
      Msg.exec grantee (some inner) ∈ msgs → Nested m inner → Nested m msgs

theorem not_nested_nil (m : Msg) : ¬ Nested m [] := by
  rintro (⟨⟨⟩⟩ | ⟨⟨⟩, _⟩)

theorem nested_cons_iff {m msg : Msg} {msgs : List Msg} :
    Nested m (msg :: msgs) ↔
      m = msg ∨ (∃ grantee inner, msg = .exec grantee (some inner) ∧ Nested m inner) ∨ Nested m msgs := by
  constructor
  · rintro (⟨mem⟩ | ⟨mem, deep⟩)
    · rcases List.mem_cons.mp mem with same | later
      · exact .inl same
      · exact .inr (.inr (.top later))
    · rcases List.mem_cons.mp mem with same | later
      · exact .inr (.inl ⟨_, _, same.symm, deep⟩)
      · exact .inr (.inr (.inside later deep))
  · rintro (rfl | ⟨grantee, inner, rfl, deep⟩ | later)
    · exact .top List.mem_cons_self
    · exact .inside List.mem_cons_self deep
    · cases later with
      | top mem => exact .top (List.mem_cons_of_mem _ mem)
      | inside mem deep => exact .inside (List.mem_cons_of_mem _ mem) deep

theorem forall_nested_cons {p : Msg → Prop} {msg : Msg} {msgs : List Msg} :
    (∀ m, Nested m (msg :: msgs) → p m) ↔
      p msg ∧ (∀ grantee inner, msg = .exec grantee (some inner) → ∀ m, Nested m inner → p m) ∧
        ∀ m, Nested m msgs → p m := by
  simp only [nested_cons_iff]
  constructor
  · intro all
    exact ⟨all msg (.inl rfl), fun g inner same m deep => all m (.inr (.inl ⟨g, inner, same, deep⟩)),
      fun m later => all m (.inr (.inr later))⟩
  · rintro ⟨first, inside, rest⟩ m (rfl | ⟨g, inner, same, deep⟩ | later)
    · exact first
    · exact inside g inner same m deep
    · exact rest m later

def CommissionOk (mcr : MsgChangeRateDecorator) : Msg → Prop
  | .exec _ none => False
  | .createValidator rate => mcr.isInvalidCreateMessage rate = false
  | .editValidator validatorAddress commissionRate => mcr.isInvalidEditMessage validatorAddress commissionRate = .ok ()
  | _ => True

/-- The change-rate decorator accepts exactly when every message, at every depth, passes. -/
theorem hasInvalidCommissionRateMsgs_ok_iff (mcr : MsgChangeRateDecorator) :
    (msgs : List Msg) →
      mcr.hasInvalidCommissionRateMsgs msgs = .ok () ↔ ∀ m, Nested m msgs → CommissionOk mcr m
  | [] => by
    simp [MsgChangeRateDecorator.hasInvalidCommissionRateMsgs, not_nested_nil]
  | msg :: msgs => by
    have later := hasInvalidCommissionRateMsgs_ok_iff mcr msgs
    rw [forall_nested_cons, ← later]
    cases msg with
    | exec grantee inner =>
      cases inner with
      | none => simp [MsgChangeRateDecorator.hasInvalidCommissionRateMsgs, CommissionOk, bind, Except.bind]
      | some inner =>
        -- the inner messages are checked first, then the messages after the exec
        have deep := hasInvalidCommissionRateMsgs_ok_iff mcr inner
        have execOk : CommissionOk mcr (.exec grantee (some inner)) ↔ True := Iff.rfl
        cases checked : mcr.hasInvalidCommissionRateMsgs inner with
        | error e =>
          have bad : ¬ ∀ m, Nested m inner → CommissionOk mcr m := by
            rw [← deep, checked]
            simp
          simp [MsgChangeRateDecorator.hasInvalidCommissionRateMsgs, checked, execOk, bind, Except.bind, bad]
        | ok u =>
          have good : ∀ m, Nested m inner → CommissionOk mcr m := deep.mp checked
          simp [MsgChangeRateDecorator.hasInvalidCommissionRateMsgs, checked, execOk, bind, Except.bind]
          exact fun _ => good
    | createValidator rate =>
      by_cases invalid : mcr.isInvalidCreateMessage rate = true
      · simp [MsgChangeRateDecorator.hasInvalidCommissionRateMsgs, invalid, CommissionOk, bind, Except.bind]
      · simp [MsgChangeRateDecorator.hasInvalidCommissionRateMsgs, invalid, CommissionOk, bind, Except.bind]
    | editValidator validatorAddress commissionRate =>
      cases edit : mcr.isInvalidEditMessage validatorAddress commissionRate with
      | error e => simp [MsgChangeRateDecorator.hasInvalidCommissionRateMsgs, edit, CommissionOk, bind, Except.bind]
      | ok u => simp [MsgChangeRateDecorator.hasInvalidCommissionRateMsgs, edit, CommissionOk, bind, Except.bind]
    | executeContract sender contract funds =>
      simp [MsgChangeRateDecorator.hasInvalidCommissionRateMsgs, CommissionOk, bind, Except.bind]
    | timeoutOnClose => simp [MsgChangeRateDecorator.hasInvalidCommissionRateMsgs, CommissionOk, bind, Except.bind]
    | other typeUrl => simp [MsgChangeRateDecorator.hasInvalidCommissionRateMsgs, CommissionOk, bind, Except.bind]

theorem hasInvalidMsgs_iff (msgs : List Msg) : hasInvalidMsgs msgs = true ↔ Msg.timeoutOnClose ∈ msgs := by
  unfold hasInvalidMsgs
  rw [List.any_eq_true]
  constructor
  · rintro ⟨m, mem, timeout⟩
    cases m <;> simp_all
  · intro mem
    exact ⟨_, mem, rfl⟩

/-- The two decorators accept a transaction exactly when no timeout-on-close is among its own
messages and every message at every depth passes the change-rate checks: a timeout-on-close
inside an authz exec passes both. -/
theorem policyAnteHandle_ok_iff (sk : StakingKeeper) (ctx : Context) (tx : Tx) :
    policyAnteHandle sk ctx tx = .ok () ↔
      Msg.timeoutOnClose ∉ tx.msgs ∧ ∀ m, Nested m tx.msgs → CommissionOk (newChangeRateDecorator sk) m := by
  rw [← hasInvalidMsgs_iff, ← hasInvalidCommissionRateMsgs_ok_iff]
  unfold policyAnteHandle msgFilterAnteHandle MsgChangeRateDecorator.anteHandle
  cases hasInvalidMsgs tx.msgs <;> simp [bind, Except.bind]

/-! An IBC timeout-on-close packed in an authz exec. -/

def execTimeoutOnClose : Tx := ⟨[.exec "juno1grantee" (some [.timeoutOnClose])], [], 200000, "juno1grantee", none⟩

theorem nested_timeout_on_close_passes (sk : StakingKeeper) (ctx : Context) :
    Nested .timeoutOnClose execTimeoutOnClose.msgs ∧ policyAnteHandle sk ctx execTimeoutOnClose = .ok () := by
  refine ⟨.inside List.mem_cons_self (.top List.mem_cons_self), ?_⟩
  have filtered : msgFilterAnteHandle ctx execTimeoutOnClose = .ok () := by
    simp [msgFilterAnteHandle, hasInvalidMsgs, execTimeoutOnClose]
  have rated : (newChangeRateDecorator sk).anteHandle execTimeoutOnClose = .ok () := by
    simp [MsgChangeRateDecorator.anteHandle, MsgChangeRateDecorator.hasInvalidCommissionRateMsgs,
      execTimeoutOnClose, bind, Except.bind]
  simp [policyAnteHandle, filtered, rated, bind, Except.bind]

end Juno.Decorators
