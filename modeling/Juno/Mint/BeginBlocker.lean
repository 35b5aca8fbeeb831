import Juno.Mint.Minter
import Juno.Semantics.Atomic

/-! The mint BeginBlocker and the burns between blocks, as a state machine.

The state is what BeginBlocker reads and writes: the stored minter and params and
the bank supply of the mint denomination. Between blocks the supply falls through
burns: those of the wasm burner plugin also lower the target through
`ReduceTargetSupply`, any other burn lowers the supply alone. The params of a run
are fixed. The bank's own guarantee that a burn never exceeds the supply is taken
as the condition under which its `BurnCoins` succeeds.

A block succeeds whenever its values leave room within the 256 bits of `math.Int`
(`WithinBitLen`); a supply near `2^256` makes a phase change overflow.
-/

set_option autoImplicit false

namespace Juno.Mint

open Sdk FixedPoint

structure State where
  minter : Minter
  params : Params
  supply : Int
  deriving DecidableEq, Repr

/-- `Keeper.MintCoins`: skipped when no coins need to be minted; the bank adds to the supply. -/
def mintCoins (supply : Int) (denom : String) (newCoins : Coins) : Except String Int :=
  if newCoins.isEmpty then .ok supply else intAdd supply (Coins.total newCoins denom)

def phaseUpdate (m : Minter) (params : Params) (totalSupply : Int) (currentBlock : UInt64) :
    Except String Minter :=
  let nextPhase := m.nextPhase params totalSupply
  if nextPhase ≠ m.phase then m.enterPhase params totalSupply nextPhase currentBlock else .ok m

def beginBlocker (s : State) (height : Int64) : Except String (Option Coin × State) :=
  if s.minter.inflation.raw = 0 then .ok (none, s) else do
  let currentBlock := height.toUInt64
  let totalSupply := s.supply
  let minter ← phaseUpdate s.minter s.params totalSupply currentBlock
  let mintedCoin ← minter.blockProvision s.params totalSupply
  let mintedCoins ← Coins.newCoins [mintedCoin]
  let supply ← mintCoins totalSupply s.params.mintDenom mintedCoins
  return (some mintedCoin, { s with minter := minter, supply := supply })

def reduceTargetSupply (s : State) (burnCoin : Coin) : Except String State :=
  if burnCoin.denom ≠ s.params.mintDenom then
    .error "tried reducing target supply with non staking token"
  else do
    let targetSupply ← intSub s.minter.targetSupply burnCoin.amount
    return { s with minter := { s.minter with targetSupply := targetSupply } }

/-- The bank's `BurnCoins` of the mint denomination: valid coins, at most the supply. -/
def bankBurnCoins (s : State) (amt : Coins) : Except String State :=
  let burned := Coins.total amt s.params.mintDenom
  if Coins.isValid amt ∧ burned ≤ s.supply then .ok { s with supply := s.supply - burned }
  else .error "insufficient funds"

/-- `BurnerWasmPlugin.BurnCoins`: burn, then lower the target by each mint-denomination coin. -/
def burnCoins (s : State) (amt : Coins) : Except String State := do
  let s ← bankBurnCoins s amt
  amt.foldlM (fun s amount =>
    if amount.denom = s.params.mintDenom then reduceTargetSupply s amount else .ok s) s

inductive Event where
  | beginBlock (height : Int64)
  | burnCoins (amt : Coins)
  | burn (amount : Int)
  deriving Repr

def step (s : State) : Event → Except String State
  | .beginBlock height => (beginBlocker s height).map Prod.snd
  | .burnCoins amt => burnCoins s amt
  | .burn amount =>
    if 0 ≤ amount ∧ amount ≤ s.supply then .ok { s with supply := s.supply - amount }
    else .error "insufficient funds"

/-! ## One block -/

theorem mintCoins_ok {supply r : Int} {denom : String} {newCoins : Coins} (h : mintCoins supply denom newCoins = .ok r) :
    r = supply + Coins.total newCoins denom := by
  unfold mintCoins at h
  split_ifs at h with empty
  · simp [List.isEmpty_iff.mp empty, (Except.ok.inj h).symm]
  · exact checkedInt_ok h

theorem mintCoins_of_within {supply : Int} {denom : String} {newCoins : Coins}
    (nonneg : 0 ≤ supply + Coins.total newCoins denom) (within : supply + Coins.total newCoins denom < 2 ^ maxBitLen) :
    mintCoins supply denom newCoins = .ok (supply + Coins.total newCoins denom) := by
  unfold mintCoins
  split_ifs with empty
  · simp [List.isEmpty_iff.mp empty]
  · exact checkedInt_of_nonneg _ nonneg within

theorem phaseUpdate_target {m m' : Minter} {params : Params} {supply : Int} (nonneg : 0 ≤ supply)
    (provisions : 0 ≤ m.annualProvisions.raw) {currentBlock : UInt64}
    (h : phaseUpdate m params supply currentBlock = .ok m') :
    0 ≤ m'.annualProvisions.raw ∧ supply ≤ m'.targetSupply := by
  unfold phaseUpdate at h
  dsimp only at h
  split_ifs at h with change
  · exact ⟨enterPhase_annualProvisions_nonneg nonneg h, le_enterPhase_targetSupply nonneg h⟩
  · -- The phase stays only while the supply is below the running phase's target.
    have stay := (nextPhase_eq_phase_iff m params supply).mp (not_not.mp change)
    cases h
    exact ⟨provisions, le_of_lt stay.2⟩

/-- What a block needs to stay within `math.Int`: room for a phase's provisions on top of the
supply, room for the stored provisions, and a target within `MaxBitLen`. -/
structure WithinBitLen (s : State) : Prop where
  supply : 2 * s.supply < 2 ^ maxBitLen
  provisions : s.supply + s.minter.annualProvisions.truncateInt < 2 ^ maxBitLen
  target : s.minter.targetSupply < 2 ^ maxBitLen

theorem phaseUpdate_within {s : State} (nonneg : 0 ≤ s.supply) (within : WithinBitLen s) (currentBlock : UInt64) :
    ∃ m', phaseUpdate s.minter s.params s.supply currentBlock = .ok m' ∧
      s.supply + m'.annualProvisions.truncateInt < 2 ^ maxBitLen ∧ m'.targetSupply < 2 ^ maxBitLen := by
  unfold phaseUpdate
  dsimp only
  split_ifs with change
  · obtain ⟨m', entered⟩ := enterPhase_ok s.minter s.params nonneg within.supply _ currentBlock
    obtain ⟨room, target⟩ := enterPhase_within nonneg entered
    exact ⟨m', entered, by have := within.supply; omega, by have := within.supply; omega⟩
  · exact ⟨s.minter, rfl, within.provisions, within.target⟩

/-- What a successful BeginBlocker can do: return early at zero inflation, or mint the
block provision of the phase-updated minter and store that minter. -/
theorem beginBlocker_cases {s next : State} {height : Int64} {minted : Option Coin}
    (h : beginBlocker s height = .ok (minted, next)) :
    (s.minter.inflation.raw = 0 ∧ minted = none ∧ next = s) ∨
      ∃ minter coin coins supply, minted = some coin ∧
        phaseUpdate s.minter s.params s.supply height.toUInt64 = .ok minter ∧
        minter.blockProvision s.params s.supply = .ok coin ∧
        Coins.newCoins [coin] = .ok coins ∧
        mintCoins s.supply s.params.mintDenom coins = .ok supply ∧
        next = { s with minter := minter, supply := supply } := by
  unfold beginBlocker at h
  split_ifs at h with zero
  · cases h
    exact .inl ⟨zero, rfl, rfl⟩
  · obtain ⟨minter, updated, h⟩ := Atomic.bind_eq_ok.mp h
    obtain ⟨coin, provision, h⟩ := Atomic.bind_eq_ok.mp h
    obtain ⟨coins, made, h⟩ := Atomic.bind_eq_ok.mp h
    obtain ⟨supply, minted', h⟩ := Atomic.bind_eq_ok.mp h
    cases h
    exact .inr ⟨minter, coin, coins, supply, rfl, updated, provision, made, minted', rfl⟩

theorem beginBlocker_bounded {s next : State} {height : Int64} {minted : Option Coin}
    (h : beginBlocker s height = .ok (minted, next)) :
    next.params = s.params ∧ s.supply ≤ next.supply ∧
      ∀ coin, minted = some coin → 0 ≤ coin.amount ∧ s.supply + coin.amount ≤ next.minter.targetSupply := by
  rcases beginBlocker_cases h with ⟨-, rfl, rfl⟩ | ⟨minter, coin, coins, supply, rfl, -, provision, made, added, rfl⟩
  · exact ⟨rfl, le_rfl, by simp⟩
  · obtain ⟨denom, nonneg, bound⟩ := blockProvision_bounded provision
    have total := Coins.total_of_newCoins_single made
    rw [denom] at total
    refine ⟨rfl, ?_, ?_⟩
    · simp only [mintCoins_ok added, total]
      omega
    · rintro c ⟨⟩
      exact ⟨nonneg, bound⟩

/-- With valid params whose blocks per year stay below `2^63`, nonnegative provisions and
supply, and values within `math.Int`, BeginBlocker does not panic. -/
theorem beginBlocker_ok {s : State} (height : Int64) (valid : s.params.validate = .ok ())
    (small : s.params.blocksPerYear.toNat < 2 ^ 63) (provisions : 0 ≤ s.minter.annualProvisions.raw)
    (nonneg : 0 ≤ s.supply) (within : WithinBitLen s) : ∃ minted next, beginBlocker s height = .ok (minted, next) := by
  unfold beginBlocker
  split_ifs with zero
  · exact ⟨_, _, rfl⟩
  · obtain ⟨minter, updated, room, fits⟩ := phaseUpdate_within nonneg within height.toUInt64
    obtain ⟨provisions', target⟩ := phaseUpdate_target nonneg provisions updated
    obtain ⟨coin, provision⟩ := blockProvision_ok valid small provisions' nonneg target room fits
    obtain ⟨denom, amount, bound⟩ := blockProvision_bounded provision
    have valid' := validateMintDenom_ok ((validate_ok_iff s.params).mp valid).1
    rw [← denom] at valid'
    have made : Coins.newCoins [coin] = .ok (if coin.amount = 0 then [] else [coin]) :=
      Coins.newCoins_single valid' amount
    -- the minted coin keeps the supply within the target, and so within `MaxBitLen`
    have total := Coins.total_of_newCoins_single made
    rw [denom] at total
    have added := @mintCoins_of_within s.supply s.params.mintDenom (if coin.amount = 0 then [] else [coin])
      (by omega) (by omega)
    simp only [bind, Except.bind, updated, provision, made, added]
    exact ⟨_, _, rfl⟩

/-! ## Runs -/

/-- What every state of a run keeps: the run's params, nonnegative provisions and supply. -/
structure Healthy (params : Params) (s : State) : Prop where
  params_eq : s.params = params
  provisions_nonneg : 0 ≤ s.minter.annualProvisions.raw
  supply_nonneg : 0 ≤ s.supply

theorem reduceTargetSupply_keeps {s next : State} {burnCoin : Coin}
    (h : reduceTargetSupply s burnCoin = .ok next) :
    next.params = s.params ∧ next.supply = s.supply ∧
      next.minter.annualProvisions = s.minter.annualProvisions := by
  unfold reduceTargetSupply at h
  split_ifs at h
  obtain ⟨target, -, h⟩ := Atomic.bind_eq_ok.mp h
  rw [Atomic.pure_eq_ok] at h
  subst h
  exact ⟨rfl, rfl, rfl⟩

theorem foldlM_reduce_keeps (amt : Coins) {s next : State}
    (h : amt.foldlM (fun s amount =>
      if amount.denom = s.params.mintDenom then reduceTargetSupply s amount else .ok s) s = .ok next) :
    next.params = s.params ∧ next.supply = s.supply ∧
      next.minter.annualProvisions = s.minter.annualProvisions := by
  have kept := Atomic.foldlM_observe (fun s : State => (s.params, s.supply, s.minter.annualProvisions))
    _ amt (fun s amount after reduced => ?_) h
  · simpa using kept
  · split_ifs at reduced
    · obtain ⟨params, supply, provisions⟩ := reduceTargetSupply_keeps reduced
      simp [params, supply, provisions]
    · cases reduced
      rfl

theorem burnCoins_keeps {s next : State} {amt : Coins} (h : burnCoins s amt = .ok next) :
    next.params = s.params ∧ 0 ≤ s.supply - Coins.total amt s.params.mintDenom ∧
      next.supply = s.supply - Coins.total amt s.params.mintDenom ∧
      next.minter.annualProvisions = s.minter.annualProvisions := by
  unfold burnCoins at h
  simp only [bind, Except.bind] at h
  split at h
  · cases h
  · rename_i burned bank
    unfold bankBurnCoins at bank
    dsimp only at bank
    split_ifs at bank with enough
    cases bank
    obtain ⟨params, supply, provisions⟩ := foldlM_reduce_keeps amt h
    exact ⟨params, by omega, supply, provisions⟩

theorem healthy_preserved (params : Params) : Atomic.Preserves step (Healthy params) := by
  intro s event next healthy h
  cases event with
  | beginBlock height =>
    simp only [step, Except.map] at h
    split at h
    · cases h
    · rename_i result block
      obtain ⟨minted, after⟩ := result
      cases h
      obtain ⟨same, grows, -⟩ := beginBlocker_bounded block
      refine ⟨same.trans healthy.params_eq, ?_, by have := healthy.supply_nonneg; dsimp only; omega⟩
      rcases beginBlocker_cases block with ⟨-, -, rfl⟩ | ⟨minter, -, -, -, -, updated, -, -, -, rfl⟩
      · exact healthy.provisions_nonneg
      · exact (phaseUpdate_target healthy.supply_nonneg healthy.provisions_nonneg updated).1
  | burnCoins amt =>
    obtain ⟨same, nonneg, supply, provisions⟩ := burnCoins_keeps h
    exact ⟨same.trans healthy.params_eq, provisions ▸ healthy.provisions_nonneg, supply ▸ nonneg⟩
  | burn amount =>
    simp only [step] at h
    split_ifs at h with enough
    cases h
    exact ⟨healthy.params_eq, healthy.provisions_nonneg, by simp only; omega⟩

/-- Along every run of blocks and burns under params whose blocks per year stay below
`2^63`, each block at a state within `math.Int`'s bounds mints a nonnegative amount that keeps
the supply within the target of the minter in force after the block's phase update. -/
theorem beginBlocker_mint_bounded {params : Params} (valid : params.validate = .ok ())
    (small : params.blocksPerYear.toNat < 2 ^ 63) {start s : State} (healthy : Healthy params start)
    (reach : Atomic.Reachable step start s) (within : WithinBitLen s) (height : Int64) :
    ∃ minted next, beginBlocker s height = .ok (minted, next) ∧
      ∀ coin, minted = some coin → 0 ≤ coin.amount ∧ s.supply + coin.amount ≤ next.minter.targetSupply := by
  have current := (healthy_preserved params).reachable healthy reach
  have same := current.params_eq
  obtain ⟨minted, next, block⟩ := beginBlocker_ok height (same ▸ valid) (same ▸ small)
    current.provisions_nonneg current.supply_nonneg within
  exact ⟨minted, next, block, (beginBlocker_bounded block).2.2⟩

def genesisMinter : Minter := ⟨legacyNewDecWithPrec 40 2, legacyNewDec 0, 0, 0, 0⟩

theorem genesis_block_mints_within_target :
    defaultParams.validate = .ok () ∧ defaultParams.blocksPerYear.toNat < 2 ^ 63 ∧
      WithinBitLen ⟨genesisMinter, defaultParams, 1000000⟩ ∧
      ∃ minted next, beginBlocker ⟨genesisMinter, defaultParams, 1000000⟩ 2 = .ok (minted, next) ∧
        ∀ coin, minted = some coin → 0 ≤ coin.amount ∧ 1000000 + coin.amount ≤ next.minter.targetSupply := by
  have valid : defaultParams.validate = .ok () := by decide +kernel
  have small : defaultParams.blocksPerYear.toNat < 2 ^ 63 := by decide +kernel
  have healthy : Healthy defaultParams ⟨genesisMinter, defaultParams, 1000000⟩ := ⟨rfl, by decide, by decide⟩
  have within : WithinBitLen ⟨genesisMinter, defaultParams, 1000000⟩ := ⟨by decide, by decide, by decide⟩
  exact ⟨valid, small, within,
    beginBlocker_mint_bounded valid small healthy (Atomic.Reachable.refl _) within 2⟩

/-- A supply one below `2^256` enters its first phase with a target past `MaxBitLen`, and the
addition panics. -/
example :
    beginBlocker ⟨genesisMinter, defaultParams, 2 ^ 256 - 1⟩ 2 = .error "integer overflow" := by
  decide +kernel

/-! ## Blocks per year past `2^63`

`Params.Validate` only rejects zero blocks per year. A count of `2^64 - 1` reads as
`-1` through `int64`, so the block provision is the negated annual provision and
`sdk.NewCoin` panics on its negative amount. -/

def wrappingParams : Params := ⟨"ujuno", UInt64.ofNat (2 ^ 64 - 1)⟩

def wrappingMinter : Minter := ⟨legacyNewDecWithPrec 40 2, legacyNewDec 1, 1, 0, 1000⟩

theorem beginBlocker_panics_on_wrapping_blocksPerYear :
    wrappingParams.validate = .ok () ∧ 0 ≤ wrappingMinter.inflation.raw ∧
      0 ≤ wrappingMinter.annualProvisions.raw ∧
      beginBlocker ⟨wrappingMinter, wrappingParams, 100⟩ 1 = .error "negative coin amount" := by
  refine ⟨by decide +kernel, by decide, by decide, ?_⟩
  decide +kernel

end Juno.Mint
