import Juno.Semantics.FirstFailure
import Juno.Clock.Keeper

/-! The clock end blocker.

`EndBlocker` reads all contracts in address order and walks them with one
error variable `err`, declared with the read and written only by
`ExecuteContract`. A jailed contract is skipped. For an unjailed one,
`handleError` first looks at `err` as the previous iterations left it, and if
it holds an error the contract is jailed and skipped without being called;
otherwise the contract is called and `handleError` jails it when its own call
failed. Nothing resets `err`, so from the first failing call on every later
unjailed contract is jailed without being called.

How a contract's call ends is a parameter, `outcome`, a function of the contract's
stored address: the contract, its gas limit and the chain state it reads are
outside the model. The model returns the contracts called, in call order, with
the store.
-/

set_option autoImplicit false

namespace Juno.Clock

open Sdk KVStore Helpers FirstFailure

/-- The variables the loop of `EndBlocker` shares across its iterations. -/
structure Loop where
  contracts : Contracts
  err : Option String
  errorExecs : List String
  errorExists : Bool
  /-- The contracts whose sudo entry point was called, in call order. -/
  executed : List String

section EndBlocker
variable (k : Keeper) (outcome : String → SudoOutcome)

/-- `handleError`: on an error, flag it, note the contract and jail it; a failed jailing is
only logged. The second component says whether there was an error. -/
def handleError (l : Loop) (idx : Nat) (contractAddress : String) : Loop × Bool :=
  match l.err with
  | none => (l, false)
  | some _ =>
    let contracts := match Keeper.setJailStatus l.contracts contractAddress true with
      | .ok contracts => contracts
      | .error _ => l.contracts
    ({ l with errorExists := true, errorExecs := l.errorExecs.set idx contractAddress, contracts }, true)

def endBlockerStep (l : Loop) (idx : Nat) (contract : ClockContract) : Except String Loop := do
  if contract.isJailed then return l
  -- `MustAccAddressFromBech32`: a panic
  let _ ← k.codec.accAddressFromBech32 contract.contractAddress
  -- `err` is the one the previous iterations left
  let (l, failed) := handleError l idx contract.contractAddress
  if failed then return l
  let l := { l with err := executeContract (outcome contract.contractAddress),
                    executed := l.executed ++ [contract.contractAddress] }
  return (handleError l idx contract.contractAddress).1

def endBlockerLoop : List ClockContract → Nat → Loop → Except String Loop
  | [], _, l => .ok l
  | contract :: rest, idx, l => do
    let l ← endBlockerStep k outcome l idx contract
    endBlockerLoop rest (idx + 1) l

def endBlocker (s : Contracts) : Except String (Contracts × List String) := do
  let contracts := s.records
  let l ← endBlockerLoop k outcome contracts 0 ⟨s, none, List.replicate contracts.length "", false, []⟩
  return (l.contracts, l.executed)

end EndBlocker

/-! ### What the loop does

Among the unjailed contracts in store order, the loop calls those up to and
including the first whose call fails, and jails that one and every unjailed
contract after it. -/

section Spec
variable (outcome : String → SudoOutcome)

def succeeds (contract : ClockContract) : Bool := (executeContract (outcome contract.contractAddress)).isNone

def unjailed (contracts : List ClockContract) : List ClockContract := contracts.filter (fun c => !c.isJailed)

/-- The unjailed contracts from the first failing call on. -/
def poisoned (contracts : List ClockContract) : List ClockContract :=
  (unjailed contracts).dropWhile (succeeds outcome)

/-- The unjailed contracts up to and including the first failing call. -/
def called (contracts : List ClockContract) : List ClockContract :=
  throughFirstFailure (succeeds outcome) (unjailed contracts)

/-- A record as the loop leaves it, given the contracts it jails. -/
def jailIn (jailed : List ClockContract) (contract : ClockContract) : ClockContract :=
  if contract ∈ jailed then { contract with isJailed := true } else contract

@[simp] theorem unjailed_nil : unjailed [] = [] := rfl

theorem unjailed_cons_jailed {c : ClockContract} (rest : List ClockContract) (h : c.isJailed = true) :
    unjailed (c :: rest) = unjailed rest := by
  simp [unjailed, h]

theorem unjailed_cons_free {c : ClockContract} (rest : List ClockContract) (h : c.isJailed = false) :
    unjailed (c :: rest) = c :: unjailed rest := by
  simp [unjailed, h]

theorem isJailed_of_mem_unjailed {c : ClockContract} {contracts : List ClockContract}
    (h : c ∈ unjailed contracts) : c.isJailed = false := by
  simpa [unjailed] using (List.mem_filter.mp h).2

theorem get?_put_jailIn {s : Contracts} {c : ClockContract} {J : List ClockContract}
    (found : s.get? c.contractAddress = some c) (free : ∀ d ∈ J, d.isJailed = false) (a : String) :
    ((s.put { c with isJailed := true }).get? a).map (jailIn J) = (s.get? a).map (jailIn (c :: J)) := by
  by_cases same : c.contractAddress = a
  · subst same
    -- the jailed record is none of the unjailed `J`
    have outside : { c with isJailed := true } ∉ J := fun mem => by simpa using free _ mem
    have put : (s.put { c with isJailed := true }).get? c.contractAddress = some { c with isJailed := true } :=
      Keyed.get?_put_self s _
    simp [put, found, jailIn, outside]
  · rw [Keyed.get?_put_ne s { c with isJailed := true } same]
    cases stored : s.get? a with
    | none => rfl
    | some d =>
      -- the record under `a` is not `c`, whose key differs
      have other : d ≠ c := fun h => same (h ▸ Keyed.key_of_get? stored)
      simp [jailIn, other]

end Spec

section Steps
variable (k : Keeper) (outcome : String → SudoOutcome) {l : Loop} {i : Nat} {c : ClockContract}

theorem handleError_none (fresh : l.err = none) (contractAddress : String) :
    handleError l i contractAddress = (l, false) := by
  simp [handleError, fresh]

theorem handleError_jail {e : String} (stale : l.err = some e)
    (found : l.contracts.get? c.contractAddress = some c) (free : c.isJailed = false) :
    (handleError l i c.contractAddress).2 = true ∧
      (handleError l i c.contractAddress).1.err = l.err ∧
      (handleError l i c.contractAddress).1.executed = l.executed ∧
      (handleError l i c.contractAddress).1.contracts = l.contracts.put { c with isJailed := true } := by
  simp [handleError, stale, setJailStatus_jail found free]

theorem endBlockerStep_jailed (jailed : c.isJailed = true) : endBlockerStep k outcome l i c = .ok l := by
  simp [endBlockerStep, jailed, pure, Except.pure]

theorem endBlockerStep_stale {a e : String} (free : c.isJailed = false)
    (decoded : k.codec.decode c.contractAddress = some a) (stale : l.err = some e) :
    endBlockerStep k outcome l i c = .ok (handleError l i c.contractAddress).1 := by
  have failed : (handleError l i c.contractAddress).2 = true := by simp [handleError, stale]
  simp [endBlockerStep, free, Bech32.accAddressFromBech32, decoded, failed, bind, Except.bind, pure,
    Except.pure]

theorem endBlockerStep_fresh {a : String} (free : c.isJailed = false)
    (decoded : k.codec.decode c.contractAddress = some a) (fresh : l.err = none) :
    endBlockerStep k outcome l i c =
      .ok (handleError
        { l with err := executeContract (outcome c.contractAddress), executed := l.executed ++ [c.contractAddress] }
        i c.contractAddress).1 := by
  simp [endBlockerStep, free, Bech32.accAddressFromBech32, decoded, handleError_none fresh, bind,
    Except.bind, pure, Except.pure]

end Steps

/-! ### Runs of the loop

Both run lemmas carry the same frame: the contracts still to visit are sorted by
address, are the records the store holds under their addresses, and decode. -/

section Runs
variable (k : Keeper) (outcome : String → SudoOutcome)

def Pending (k : Keeper) (contracts : Contracts) (xs : List ClockContract) : Prop :=
  xs.Pairwise (fun a b => a.contractAddress < b.contractAddress) ∧
    (∀ c ∈ xs, contracts.get? c.contractAddress = some c) ∧
    (∀ c ∈ xs, (k.codec.decode c.contractAddress).isSome)

theorem Pending.tail {contracts : Contracts} {c : ClockContract} {rest : List ClockContract}
    (pending : Pending k contracts (c :: rest)) :
    Pending k contracts rest ∧ Pending k (contracts.put { c with isJailed := true }) rest := by
  obtain ⟨sorted, stored, decodable⟩ := pending
  rw [List.pairwise_cons] at sorted
  have stored' : ∀ d ∈ rest, contracts.get? d.contractAddress = some d :=
    fun d hd => stored d (List.mem_cons_of_mem c hd)
  have decodable' : ∀ d ∈ rest, (k.codec.decode d.contractAddress).isSome :=
    fun d hd => decodable d (List.mem_cons_of_mem c hd)
  refine ⟨⟨sorted.2, stored', decodable'⟩, sorted.2, fun d hd => ?_, decodable'⟩
  -- every later contract has a larger address than the jailed one
  rw [Keyed.get?_put_ne contracts { c with isJailed := true } (ne_of_lt (sorted.1 d hd))]
  exact stored' d hd

theorem Pending.head {contracts : Contracts} {c : ClockContract} {rest : List ClockContract}
    (pending : Pending k contracts (c :: rest)) :
    contracts.get? c.contractAddress = some c ∧ ∃ a, k.codec.decode c.contractAddress = some a :=
  ⟨pending.2.1 c List.mem_cons_self, Option.isSome_iff_exists.mp (pending.2.2 c List.mem_cons_self)⟩

theorem endBlockerLoop_stale {e : String} (xs : List ClockContract) :
    ∀ {i : Nat} {l : Loop}, l.err = some e → Pending k l.contracts xs →
      ∃ l', endBlockerLoop k outcome xs i l = .ok l' ∧ l'.err = some e ∧ l'.executed = l.executed ∧
        ∀ a, l'.contracts.get? a = (l.contracts.get? a).map (jailIn (unjailed xs)) := by
  induction xs with
  | nil =>
    intro i l _ _
    refine ⟨l, rfl, by assumption, rfl, fun a => ?_⟩
    cases l.contracts.get? a <;> simp [jailIn]
  | cons c rest ih =>
    intro i l stale pending
    obtain ⟨found, a, decoded⟩ := pending.head
    cases jailed : c.isJailed
    · -- an unjailed contract is jailed without a call
      obtain ⟨failed, err, executed, contracts⟩ := handleError_jail (i := i) stale found jailed
      obtain ⟨l', run, err', executed', store⟩ :=
        ih (i := i + 1) (err.trans stale) (contracts ▸ pending.tail.2)
      refine ⟨l', ?_, err', executed'.trans executed, fun b => ?_⟩
      · simp [endBlockerLoop, endBlockerStep_stale k outcome jailed decoded stale, bind, Except.bind, run]
      · rw [store b, contracts, unjailed_cons_free rest jailed]
        exact get?_put_jailIn found (fun d hd => isJailed_of_mem_unjailed hd) b
    · obtain ⟨l', run, err', executed', store⟩ := ih (i := i + 1) stale pending.tail.1
      refine ⟨l', ?_, err', executed', fun b => ?_⟩
      · simp [endBlockerLoop, endBlockerStep_jailed k outcome jailed, bind, Except.bind, run]
      · rw [store b, unjailed_cons_jailed rest jailed]

/-- Without a pending error, the loop calls the unjailed contracts up to the first failing
call and jails that one and every unjailed contract after it. -/
theorem endBlockerLoop_fresh (xs : List ClockContract) :
    ∀ {i : Nat} {l : Loop}, l.err = none → Pending k l.contracts xs →
      ∃ l', endBlockerLoop k outcome xs i l = .ok l' ∧
        l'.executed = l.executed ++ (called outcome xs).map ClockContract.contractAddress ∧
        ∀ a, l'.contracts.get? a = (l.contracts.get? a).map (jailIn (poisoned outcome xs)) := by
  induction xs with
  | nil =>
    intro i l _ _
    refine ⟨l, rfl, by simp [called], fun a => ?_⟩
    cases l.contracts.get? a <;> simp [jailIn, poisoned]
  | cons c rest ih =>
    intro i l fresh pending
    obtain ⟨found, a, decoded⟩ := pending.head
    cases jailed : c.isJailed
    · cases ok : succeeds outcome c
      · -- the first failing call: the contract is jailed, and an error is pending from here on
        have failing : (executeContract (outcome c.contractAddress)).isSome := by simpa [succeeds] using ok
        obtain ⟨e, failed⟩ := Option.isSome_iff_exists.mp failing
        set l₁ : Loop :=
          { l with err := executeContract (outcome c.contractAddress), executed := l.executed ++ [c.contractAddress] }
        obtain ⟨_, err, executed, contracts⟩ :=
          handleError_jail (e := e) (l := l₁) (i := i) (by simp [l₁, failed]) (by simpa [l₁] using found) jailed
        obtain ⟨l', run, _, executed', store⟩ := endBlockerLoop_stale k outcome (e := e) rest (i := i + 1)
          (err.trans (by simp [l₁, failed])) (contracts ▸ pending.tail.2)
        refine ⟨l', ?_, ?_, fun b => ?_⟩
        · simp [endBlockerLoop, endBlockerStep_fresh k outcome jailed decoded fresh, bind, Except.bind, run, l₁]
        · simp [executed', executed, l₁, called, unjailed_cons_free rest jailed,
            throughFirstFailure_cons_fail _ _ ok]
        · rw [store b, contracts]
          simp only [l₁, poisoned, unjailed_cons_free rest jailed, List.dropWhile_cons, ok]
          exact get?_put_jailIn found (fun d hd => isJailed_of_mem_unjailed hd) b
      · -- a successful call: nothing is jailed and no error is pending
        have clean : executeContract (outcome c.contractAddress) = none := by
          simpa [succeeds, Option.isNone_iff_eq_none] using ok
        set l₁ : Loop :=
          { l with err := executeContract (outcome c.contractAddress), executed := l.executed ++ [c.contractAddress] }
        have quiet : l₁.err = none := clean
        obtain ⟨l', run, executed', store⟩ := ih (i := i + 1) (l := l₁) quiet pending.tail.1
        refine ⟨l', ?_, ?_, fun b => ?_⟩
        · simp only [endBlockerLoop, endBlockerStep_fresh k outcome jailed decoded fresh, bind, Except.bind]
          show endBlockerLoop k outcome rest (i + 1) (handleError l₁ i c.contractAddress).1 = .ok l'
          rw [handleError_none quiet]
          exact run
        · simp [executed', l₁, called, unjailed_cons_free rest jailed, throughFirstFailure_cons_pass _ _ ok]
        · simp [store b, l₁, poisoned, unjailed_cons_free rest jailed, ok]
    · obtain ⟨l', run, executed', store⟩ := ih (i := i + 1) fresh pending.tail.1
      refine ⟨l', ?_, ?_, fun b => ?_⟩
      · simp [endBlockerLoop, endBlockerStep_jailed k outcome jailed, bind, Except.bind, run]
      · simp [executed', called, unjailed_cons_jailed rest jailed]
      · simp [store b, poisoned, unjailed_cons_jailed rest jailed]

/-- The end blocker over a store whose addresses decode: it calls `called` and jails `poisoned`. -/
theorem endBlocker_eq (s : Contracts) (decodable : ∀ c ∈ s.records, (k.codec.decode c.contractAddress).isSome) :
    ∃ s', endBlocker k outcome s = .ok (s', (called outcome s.records).map ClockContract.contractAddress) ∧
      ∀ a, s'.get? a = (s.get? a).map (jailIn (poisoned outcome s.records)) := by
  have pending : Pending k s s.records := ⟨s.sorted, fun c hc => Keyed.get?_of_mem s hc, decodable⟩
  obtain ⟨l', run, executed, store⟩ := endBlockerLoop_fresh k outcome s.records (i := 0)
    (l := ⟨s, none, List.replicate s.records.length "", false, []⟩) rfl pending
  refine ⟨l'.contracts, ?_, store⟩
  simp [endBlocker, run, executed, bind, Except.bind, pure, Except.pure]

end Runs

/-! ### What the end blocker is for

Every contract unjailed at the start of the block is called once, in store
order, and a contract ends the block jailed exactly when it was jailed before or
its own call failed. The loop does this exactly when at most one unjailed
contract comes at or after the first failing call: the last one may fail, no
earlier one may. -/

section Intent
variable (outcome : String → SudoOutcome)

def MeetsIntent (s s' : Contracts) (executed : List String) : Prop :=
  executed = (unjailed s.records).map ClockContract.contractAddress ∧
    ∀ a, (s'.get? a).map ClockContract.isJailed =
      (s.get? a).map (fun c => c.isJailed || !succeeds outcome c)

theorem isJailed_jailIn {contracts : List ClockContract} {c : ClockContract}
    (short : (poisoned outcome contracts).length ≤ 1) :
    (jailIn (poisoned outcome contracts) c).isJailed =
      if c ∈ unjailed contracts then !succeeds outcome c else c.isJailed := by
  by_cases poison : c ∈ poisoned outcome contracts
  · have unjailedMem : c ∈ unjailed contracts := List.dropWhile_subset _ poison
    simp [jailIn, poison, unjailedMem, fail_of_mem_dropWhile (succeeds outcome) short poison]
  · by_cases free : c ∈ unjailed contracts
    · -- outside the poisoned tail, an unjailed contract's call succeeded
      simp [jailIn, poison, free, pass_of_not_mem_dropWhile (succeeds outcome) free poison,
        isJailed_of_mem_unjailed free]
    · simp [jailIn, poison, free]

theorem endBlocker_meets_intent_iff (k : Keeper) (s : Contracts)
    (decodable : ∀ c ∈ s.records, (k.codec.decode c.contractAddress).isSome) {s' : Contracts}
    {executed : List String} (run : endBlocker k outcome s = .ok (s', executed)) :
    MeetsIntent outcome s s' executed ↔ (poisoned outcome s.records).length ≤ 1 := by
  obtain ⟨s'', run', store⟩ := endBlocker_eq k outcome s decodable
  rw [run'] at run
  obtain ⟨rfl, rfl⟩ := Prod.mk.inj (Except.ok.inj run).symm
  constructor
  · rintro ⟨calls, -⟩
    -- the calls made and the unjailed contracts have the same number of elements
    have lengths : (called outcome s.records).length = (unjailed s.records).length := by
      simpa using congrArg List.length calls
    exact (length_throughFirstFailure (succeeds outcome) _).mp lengths
  · intro short
    refine ⟨?_, fun a => ?_⟩
    · rw [called, (throughFirstFailure_eq_self_iff (succeeds outcome) _).mpr short]
    · rw [store a]
      cases stored : s.get? a with
      | none => rfl
      | some c =>
        have mem : c ∈ s.records := Keyed.mem_of_get? stored
        by_cases free : c.isJailed <;> simp [isJailed_jailIn outcome short, unjailed, mem, free]

end Intent

/-! Two unjailed contracts, the first of which runs out of gas. -/

def clockKeeper : Keeper := ⟨Bech32.identity, fun _ => none⟩

def twoContracts : Contracts := (Keyed.empty.put ⟨"juno1first", false⟩).put ⟨"juno1second", false⟩

def firstOutOfGas (contractAddress : String) : SudoOutcome :=
  if contractAddress = "juno1first" then .panicked (.outOfGas "EndBlock") else .returned none

theorem endBlocker_jails_uncalled_contract :
    firstOutOfGas "juno1second" = .returned none ∧
      ∃ s', endBlocker clockKeeper firstOutOfGas twoContracts = .ok (s', ["juno1first"]) ∧
        s'.get? "juno1first" = some ⟨"juno1first", true⟩ ∧
        s'.get? "juno1second" = some ⟨"juno1second", true⟩ := by
  obtain ⟨s', run, store⟩ := endBlocker_eq clockKeeper firstOutOfGas twoContracts (fun c _ => rfl)
  have records : twoContracts.records = [⟨"juno1first", false⟩, ⟨"juno1second", false⟩] := by decide
  -- the first call fails, so the second contract is never called and both are jailed
  have calls : (called firstOutOfGas twoContracts.records).map ClockContract.contractAddress = ["juno1first"] := by
    rw [records]
    decide
  have jails : poisoned firstOutOfGas twoContracts.records = twoContracts.records := by
    rw [records]
    decide
  refine ⟨rfl, s', calls ▸ run, ?_, ?_⟩
  · rw [store, jails, records]
    decide
  · rw [store, jails, records]
    decide

/-- The same block misses the intent: two contracts come at or after the first failing call. -/
theorem endBlocker_misses_intent_after_out_of_gas :
    ∃ s' executed, endBlocker clockKeeper firstOutOfGas twoContracts = .ok (s', executed) ∧
      ¬ MeetsIntent firstOutOfGas twoContracts s' executed := by
  obtain ⟨s', run, _⟩ := endBlocker_eq clockKeeper firstOutOfGas twoContracts (fun c _ => rfl)
  refine ⟨s', _, run, ?_⟩
  rw [endBlocker_meets_intent_iff firstOutOfGas clockKeeper twoContracts (fun c _ => rfl) run]
  decide

end Juno.Clock
