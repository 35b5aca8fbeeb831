import Juno.CwHooks.Keeper

/-! The staking and governance callbacks of x/cw-hooks.

Each staking callback skips the first blocks, looks up the validator or the
delegation it reports, and returns what `ExecuteMessageOnContracts` returns
over the staking contracts. A governance callback looks up the proposal or the
vote and delivers to the governance contracts; when delivery fails it prints
the error and returns the result of `fmt.Println`, whose error shadows the
delivery's. A lookup is described by its result (found or not, and its error);
the JSON encoding of the message never fails for these types and is left out,
with the message itself, since the callback's outcome parameter stands for the
contracts' answers to it.

The staking keeper passes a callback's error on, so the staking operation that
triggered it fails. Either way the contracts after the first failing one do not
receive the event.
-/

set_option autoImplicit false

namespace Juno.CwHooks

open KVStore FirstFailure Helpers

def skipUntilHeight : Int := 2

/-- What a staking keeper lookup (`Validator` or `Delegation`) returns: whether it found the
object, and its error. -/
structure Lookup where
  found : Bool
  err : Option String
  deriving DecidableEq, Repr

/-! ### Staking callbacks -/

section Staking
variable (s : State) (height : Int) (lookup : Lookup) (outcome : String → SudoOutcome)

/-- The body the staking callbacks share: nothing found is not an error. -/
def stakingCallback : List String × Option String :=
  if height ≤ skipUntilHeight then ([], none)
  else if !lookup.found then ([], none)
  else match lookup.err with
    | some err => ([], some err)
    | none => executeMessageOnContracts s .staking outcome

/-- `AfterValidatorCreated` returns the lookup's error when it finds no validator. -/
def afterValidatorCreated : List String × Option String :=
  if height ≤ skipUntilHeight then ([], none)
  else if !lookup.found then ([], lookup.err)
  else match lookup.err with
    | some err => ([], some err)
    | none => executeMessageOnContracts s .staking outcome

def afterValidatorRemoved : List String × Option String := stakingCallback s height lookup outcome
def beforeDelegationCreated : List String × Option String := stakingCallback s height lookup outcome
def beforeDelegationSharesModified : List String × Option String := stakingCallback s height lookup outcome
def afterDelegationModified : List String × Option String := stakingCallback s height lookup outcome
def beforeValidatorSlashed : List String × Option String := stakingCallback s height lookup outcome
def beforeValidatorModified : List String × Option String := stakingCallback s height lookup outcome
def afterValidatorBonded : List String × Option String := stakingCallback s height lookup outcome
def afterValidatorBeginUnbonding : List String × Option String := stakingCallback s height lookup outcome
def beforeDelegationRemoved : List String × Option String := stakingCallback s height lookup outcome

def afterUnbondingInitiated : List String × Option String := ([], none)

/-- Past the first blocks, a callback whose lookup succeeds delivers to the staking contracts up
to and including the first failing call, and fails exactly when some registered contract's
call fails. -/
theorem stakingCallback_delivers (late : skipUntilHeight < height) (found : lookup.found = true)
    (clean : lookup.err = none) :
    (stakingCallback s height lookup outcome).1 =
        throughFirstFailure (delivers outcome) (getAllContracts s .staking) ∧
      ((stakingCallback s height lookup outcome).2 = none ↔
        ∀ c ∈ getAllContracts s .staking, delivers outcome c = true) := by
  have notEarly : ¬ height ≤ skipUntilHeight := not_le.mpr late
  simpa [stakingCallback, notEarly, found, clean, executeMessageOnContracts] using
    executeEach_eq outcome (getAllContracts s .staking)

end Staking

/-! ### Governance callbacks -/

section Gov
variable (s : State) (lookup : Option String) (printed : Option String) (outcome : String → SudoOutcome)

/-- The body the governance callbacks share; `lookup` is the error of the proposal or vote lookup
and `printed` the error `fmt.Println` returns. -/
def govCallback : List String × Option String :=
  match lookup with
  | some err => ([], some err)
  | none =>
    let r := executeMessageOnContracts s .gov outcome
    match r.2 with
    -- `_, err = fmt.Println(...)` overwrites the delivery error
    | some _ => (r.1, printed)
    | none => (r.1, none)

def afterProposalSubmission : List String × Option String := govCallback s lookup printed outcome
def afterProposalDeposit : List String × Option String := govCallback s lookup printed outcome
def afterProposalVote : List String × Option String := govCallback s lookup printed outcome

def afterProposalVotingPeriodEnded : List String × Option String :=
  let r := executeMessageOnContracts s .gov outcome
  match r.2 with
  | some _ => (r.1, printed)
  | none => (r.1, none)

def afterProposalFailedMinDeposit : List String × Option String := ([], none)

/-- A governance callback whose lookup succeeds delivers to the governance contracts up to and
including the first failing call; a failing contract's error is dropped for what printing
returns. -/
theorem govCallback_delivers :
    (govCallback s none printed outcome).1 = throughFirstFailure (delivers outcome) (getAllContracts s .gov) ∧
      (govCallback s none printed outcome).2 =
        if ∀ c ∈ getAllContracts s .gov, delivers outcome c = true then none else printed := by
  obtain ⟨delivered, errors⟩ := executeEach_eq outcome (getAllContracts s .gov)
  unfold govCallback executeMessageOnContracts
  cases result : (executeEach outcome (getAllContracts s .gov)).2 with
  | none =>
    simp only [result, if_pos (errors.mp result)]
    simp [← delivered]
  | some err =>
    -- some call failed, so not every contract received the message cleanly
    have notAll : ¬ ∀ c ∈ getAllContracts s .gov, delivers outcome c = true := by
      rw [← errors, result]
      simp
    simp only [result, if_neg notAll]
    simp [← delivered]

end Gov

/-! Two contracts registered for both kinds of event; the first one's call fails. -/

def hooksState : State :=
  ⟨(Keyed.empty.put (contractOf Sdk.Bech32.identity "juno1first")).put (contractOf Sdk.Bech32.identity "juno1second"),
    (Keyed.empty.put (contractOf Sdk.Bech32.identity "juno1first")).put (contractOf Sdk.Bech32.identity "juno1second")⟩

def firstFails (contract : String) : SudoOutcome :=
  if contract = "juno1first" then .returned (some "execute wasm contract failed") else .returned none

theorem first_failing_hook_blocks_later_contracts :
    firstFails "juno1second" = .returned none ∧
      afterDelegationModified hooksState 10 ⟨true, none⟩ firstFails =
        (["juno1first"], some "execute wasm contract failed") ∧
      afterProposalVote hooksState none none firstFails = (["juno1first"], none) := by
  have contracts : getAllContracts hooksState .staking = ["juno1first", "juno1second"] ∧
      getAllContracts hooksState .gov = ["juno1first", "juno1second"] := by
    decide
  refine ⟨rfl, ?_, ?_⟩
  · simp [afterDelegationModified, stakingCallback, skipUntilHeight, executeMessageOnContracts, contracts.1,
      executeEach, firstFails, executeContract]
  · simp [afterProposalVote, govCallback, executeMessageOnContracts, contracts.2, executeEach, firstFails,
      executeContract]

theorem stakingCallback_delivers_at_height_ten :
    skipUntilHeight < 10 ∧
      (stakingCallback hooksState 10 ⟨true, none⟩ firstFails).1 =
        throughFirstFailure (delivers firstFails) (getAllContracts hooksState .staking) ∧
      ((stakingCallback hooksState 10 ⟨true, none⟩ firstFails).2 = none ↔
        ∀ c ∈ getAllContracts hooksState .staking, delivers firstFails c = true) := by
  have late : skipUntilHeight < 10 := by decide
  exact ⟨late, stakingCallback_delivers hooksState 10 ⟨true, none⟩ firstFails late rfl rfl⟩

end Juno.CwHooks
