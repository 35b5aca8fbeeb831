import Juno.Sdk.Coins
import Juno.Semantics.Atomic

/-! The x/mint minter.

Parameters as `Params.Validate` checks them, the inflation rate of each phase,
the phase schedule driven by the target supply, the annual provisions of a new
phase and the per-block provision with its clamp to the phase target. The
division by blocks per year goes through the `int64` conversion of the stored
`uint64`, as `sdkmath.NewInt(int64(params.BlocksPerYear))` does. Products, sums,
differences and truncations panic past the widths of `math.Int` and `LegacyDec`.
-/

set_option autoImplicit false

namespace Juno.Mint

open Sdk FixedPoint

structure Params where
  mintDenom : String
  blocksPerYear : UInt64
  deriving DecidableEq, Repr

/-- Blank after trimming white space, then `sdk.ValidateDenom`. -/
def validateMintDenom (denom : String) : Except String Unit :=
  if denom.toList.all Char.isWhitespace then .error "mint denom cannot be blank"
  else if validateDenom denom then .ok () else .error "invalid denom"

def validateBlocksPerYear (v : UInt64) : Except String Unit :=
  if v = 0 then .error "blocks per year must be positive" else .ok ()

def Params.validate (p : Params) : Except String Unit := do
  validateMintDenom p.mintDenom
  validateBlocksPerYear p.blocksPerYear

def defaultParams : Params := ⟨"stake", UInt64.ofNat (60 * 60 * 8766 / 5)⟩

structure Minter where
  inflation : LegacyDec
  annualProvisions : LegacyDec
  phase : UInt64
  startPhaseBlock : UInt64
  targetSupply : Int
  deriving DecidableEq, Repr

def Minter.phaseInflationRate (phase : UInt64) : LegacyDec :=
  if 12 < phase then legacyZeroDec
  else if phase = 1 then legacyNewDecWithPrec 40 2
  else if phase = 2 then legacyNewDecWithPrec 20 2
  else if phase = 3 then legacyNewDecWithPrec 10 2
  else legacyNewDecWithPrec (13 - int64OfUint64 phase) 2

def Minter.nextPhase (m : Minter) (_ : Params) (currentSupply : Int) : UInt64 :=
  if m.phase = 0 then 1
  else if currentSupply < m.targetSupply then m.phase
  else m.phase + 1

def Minter.nextAnnualProvisions (m : Minter) (_ : Params) (totalSupply : Int) : Except String LegacyDec :=
  legacyMulInt m.inflation totalSupply

def Minter.enterPhase (m : Minter) (params : Params) (totalSupply : Int)
    (nextPhase currentBlock : UInt64) : Except String Minter := do
  let m := { m with
    inflation := Minter.phaseInflationRate nextPhase
    phase := nextPhase
    startPhaseBlock := currentBlock }
  let annualProvisions ← m.nextAnnualProvisions params totalSupply
  let m := { m with annualProvisions := annualProvisions }
  let truncated ← legacyTruncateInt m.annualProvisions
  let targetSupply ← intAdd totalSupply truncated
  return { m with targetSupply := targetSupply }

def Minter.blockProvision (m : Minter) (params : Params) (totalSupply : Int) :
    Except String Coin :=
  let divisor := int64OfUint64 params.blocksPerYear
  -- big.Int Quo panics on a zero divisor
  if divisor = 0 then throw "division by zero" else do
  let provisionAmt := m.annualProvisions.quoInt divisor
  let futureSupply ← intAdd totalSupply (← legacyTruncateInt provisionAmt)
  -- Because of rounding, we might mint too many tokens in this phase, let's limit it
  if m.targetSupply < futureSupply then
    let amount ← intSub m.targetSupply totalSupply
    newCoin params.mintDenom amount
  else
    let amount ← legacyTruncateInt provisionAmt
    newCoin params.mintDenom amount

/-! ## Specifications -/

theorem validate_ok_iff (p : Params) :
    p.validate = .ok () ↔ validateMintDenom p.mintDenom = .ok () ∧ p.blocksPerYear ≠ 0 := by
  unfold Params.validate validateBlocksPerYear
  cases validateMintDenom p.mintDenom with
  | error e => simp [bind, Except.bind]
  | ok u => by_cases zero : p.blocksPerYear = 0 <;> simp [bind, Except.bind, zero]

theorem validateMintDenom_ok {denom : String} (h : validateMintDenom denom = .ok ()) :
    validateDenom denom = true := by
  unfold validateMintDenom at h
  split_ifs at h with blank valid
  · exact valid

theorem phaseInflationRate_nonneg (phase : UInt64) : 0 ≤ (Minter.phaseInflationRate phase).raw := by
  unfold Minter.phaseInflationRate legacyZeroDec legacyNewDecWithPrec
  split_ifs with large
  all_goals try decide
  -- Phases 0 and 4 to 12 read `13 - phase` percent, a positive rate.
  have small : phase.toNat ≤ 12 := by
    rw [UInt64.lt_iff_toNat_lt] at large
    simp only [UInt64.reduceToNat] at large
    omega
  rw [int64OfUint64_of_lt (by omega)]
  simp only
  omega

theorem nextPhase_eq_phase_iff (m : Minter) (params : Params) (supply : Int) :
    m.nextPhase params supply = m.phase ↔ m.phase ≠ 0 ∧ supply < m.targetSupply := by
  unfold Minter.nextPhase
  by_cases zero : m.phase = 0
  · simp [zero]
  · by_cases below : supply < m.targetSupply
    · simp [zero, below]
    · have wraps : m.phase + 1 ≠ m.phase := by
        intro same
        have := congrArg UInt64.toNat same
        rw [UInt64.toNat_add] at this
        simp only [UInt64.reduceToNat] at this
        omega
      simp [zero, below, wraps]

theorem phaseInflationRate_le_unit (phase : UInt64) : (Minter.phaseInflationRate phase).raw ≤ precisionUnit := by
  rw [show ((precisionUnit : Nat) : Int) = 10 ^ 18 from rfl]
  unfold Minter.phaseInflationRate legacyZeroDec legacyNewDecWithPrec
  split_ifs with large
  all_goals try decide
  -- the other phases read `13 - phase` percent, at most thirteen
  have small : phase.toNat ≤ 12 := by
    rw [UInt64.lt_iff_toNat_lt] at large
    simp only [UInt64.reduceToNat] at large
    omega
  rw [int64OfUint64_of_lt (by omega)]
  simp only
  omega

theorem enterPhase_eq {m m' : Minter} {params : Params} {supply : Int} {nextPhase currentBlock : UInt64}
    (h : m.enterPhase params supply nextPhase currentBlock = .ok m') :
    m'.annualProvisions = (Minter.phaseInflationRate nextPhase).mulInt supply ∧
      m'.targetSupply = supply + m'.annualProvisions.truncateInt := by
  unfold Minter.enterPhase at h
  obtain ⟨annual, multiplied, h⟩ := Atomic.bind_eq_ok.mp h
  obtain ⟨truncated, truncation, h⟩ := Atomic.bind_eq_ok.mp h
  obtain ⟨target, added, h⟩ := Atomic.bind_eq_ok.mp h
  rw [Atomic.pure_eq_ok] at h
  subst h
  obtain rfl := legacyMulInt_ok multiplied
  obtain rfl := checkedInt_ok truncation
  obtain rfl := checkedInt_ok added
  exact ⟨rfl, rfl⟩

/-- A phase change succeeds while twice the supply stays within `MaxBitLen`: a rate of at most
one keeps the provisions, and so the new target, within twice the supply. -/
theorem enterPhase_ok (m : Minter) (params : Params) {supply : Int} (nonneg : 0 ≤ supply)
    (room : 2 * supply < 2 ^ maxBitLen) (nextPhase currentBlock : UInt64) :
    ∃ m', m.enterPhase params supply nextPhase currentBlock = .ok m' := by
  have rateNonneg := phaseInflationRate_nonneg nextPhase
  have rateBound := phaseInflationRate_le_unit nextPhase
  have truncated := FixedPoint.Fixed.truncateInt_mulInt_le precisionUnit_pos rateNonneg rateBound nonneg
  have truncNonneg := FixedPoint.Fixed.truncateInt_nonneg (FixedPoint.Fixed.mulInt_nonneg rateNonneg nonneg)
  -- the product needs at most `maxDecBitLen` bits: the rate is below `2^60`, the supply below `2^255`
  have product : (Minter.phaseInflationRate nextPhase).raw * supply < 2 ^ maxDecBitLen := by
    have below : (Minter.phaseInflationRate nextPhase).raw ≤ 2 ^ 60 :=
      rateBound.trans (by unfold precisionUnit; norm_num)
    have widths : (2 : Int) ^ maxDecBitLen = 2 ^ 60 * 2 ^ 255 := by
      rw [← pow_add]
      rfl
    have supplyBound : supply < 2 ^ 255 := by
      have halves : (2 : Int) ^ maxBitLen = 2 * 2 ^ 255 := by
        rw [← pow_succ']
        rfl
      omega
    rw [widths]
    nlinarith
  have fitsProduct := fitsBitLen_of_nonneg (Int.mul_nonneg rateNonneg nonneg) product
  -- the truncated provisions and the new target stay within `MaxBitLen` by the room left
  have truncation : legacyTruncateInt ((Minter.phaseInflationRate nextPhase).mulInt supply) =
      .ok ((Minter.phaseInflationRate nextPhase).mulInt supply).truncateInt :=
    checkedInt_of_nonneg _ truncNonneg (by omega)
  have added : intAdd supply ((Minter.phaseInflationRate nextPhase).mulInt supply).truncateInt =
      .ok (supply + ((Minter.phaseInflationRate nextPhase).mulInt supply).truncateInt) :=
    checkedInt_of_nonneg _ (by omega) (by omega)
  simp only [Minter.enterPhase, Minter.nextAnnualProvisions, legacyMulInt, fitsProduct, if_true, truncation, added,
    bind, Except.bind, pure, Except.pure, Except.ok.injEq, exists_eq']

theorem enterPhase_annualProvisions_nonneg {m m' : Minter} {params : Params} {supply : Int}
    (nonneg : 0 ≤ supply) {nextPhase currentBlock : UInt64}
    (h : m.enterPhase params supply nextPhase currentBlock = .ok m') : 0 ≤ m'.annualProvisions.raw := by
  rw [(enterPhase_eq h).1]
  exact FixedPoint.Fixed.mulInt_nonneg (phaseInflationRate_nonneg nextPhase) nonneg

theorem le_enterPhase_targetSupply {m m' : Minter} {params : Params} {supply : Int}
    (nonneg : 0 ≤ supply) {nextPhase currentBlock : UInt64}
    (h : m.enterPhase params supply nextPhase currentBlock = .ok m') : supply ≤ m'.targetSupply := by
  have truncated := FixedPoint.Fixed.truncateInt_nonneg (enterPhase_annualProvisions_nonneg nonneg h)
  rw [(enterPhase_eq h).2]
  omega

theorem enterPhase_within {m m' : Minter} {params : Params} {supply : Int} (nonneg : 0 ≤ supply)
    {nextPhase currentBlock : UInt64} (h : m.enterPhase params supply nextPhase currentBlock = .ok m') :
    supply + m'.annualProvisions.truncateInt ≤ 2 * supply ∧ m'.targetSupply ≤ 2 * supply := by
  obtain ⟨annual, target⟩ := enterPhase_eq h
  have truncated := FixedPoint.Fixed.truncateInt_mulInt_le precisionUnit_pos (phaseInflationRate_nonneg nextPhase)
    (phaseInflationRate_le_unit nextPhase) nonneg
  rw [← annual] at truncated
  omega

theorem blockProvision_bounded {m : Minter} {params : Params} {supply : Int} {coin : Coin}
    (h : m.blockProvision params supply = .ok coin) :
    coin.denom = params.mintDenom ∧ 0 ≤ coin.amount ∧ supply + coin.amount ≤ m.targetSupply := by
  unfold Minter.blockProvision at h
  dsimp only at h
  split_ifs at h with zero
  obtain ⟨truncated, truncation, h⟩ := Atomic.bind_eq_ok.mp h
  obtain ⟨future, added, h⟩ := Atomic.bind_eq_ok.mp h
  obtain rfl := checkedInt_ok added
  split_ifs at h with overshoot
  · -- clamped to the target
    obtain ⟨amount, subtracted, made⟩ := Atomic.bind_eq_ok.mp h
    obtain rfl := checkedInt_ok subtracted
    obtain ⟨-, nonneg, rfl⟩ := newCoin_ok_iff.mp made
    exact ⟨rfl, nonneg, by simp⟩
  · -- the share itself, truncated a second time to the same value
    obtain ⟨amount, truncation', made⟩ := Atomic.bind_eq_ok.mp h
    rw [truncation, Except.ok.injEq] at truncation'
    subst truncation'
    obtain ⟨-, nonneg, rfl⟩ := newCoin_ok_iff.mp made
    exact ⟨rfl, nonneg, by simpa using not_lt.mp overshoot⟩

/-- With a nonnegative provision, a divisor that does not wrap, a target not below the supply
and within `MaxBitLen`, and room for the stored provisions on top of the supply, the block
provision succeeds. -/
theorem blockProvision_ok {m : Minter} {params : Params} {supply : Int}
    (valid : params.validate = .ok ()) (small : params.blocksPerYear.toNat < 2 ^ 63)
    (provisions : 0 ≤ m.annualProvisions.raw) (nonneg : 0 ≤ supply) (target : supply ≤ m.targetSupply)
    (room : supply + m.annualProvisions.truncateInt < 2 ^ maxBitLen) (fits : m.targetSupply < 2 ^ maxBitLen) :
    ∃ coin, m.blockProvision params supply = .ok coin := by
  obtain ⟨denomOk, positive⟩ := (validate_ok_iff params).mp valid
  have denom := validateMintDenom_ok denomOk
  have divisor : int64OfUint64 params.blocksPerYear = params.blocksPerYear.toNat :=
    int64OfUint64_of_lt small
  have nonzero : params.blocksPerYear.toNat ≠ 0 := by
    intro zero
    exact positive (UInt64.toNat_inj.mp (by simpa using zero))
  unfold Minter.blockProvision
  rw [divisor]
  simp only [Nat.cast_eq_zero, nonzero, if_false]
  -- the block's share truncates to at most the stored provisions
  have shareNonneg := FixedPoint.Fixed.truncateInt_nonneg
    (FixedPoint.Fixed.quoInt_nonneg provisions (Int.natCast_nonneg params.blocksPerYear.toNat))
  have shareBound := FixedPoint.Fixed.truncateInt_quoInt_le precisionUnit_pos provisions
    (by omega : (0 : Int) < params.blocksPerYear.toNat)
  set share := m.annualProvisions.quoInt params.blocksPerYear.toNat
  have truncation : legacyTruncateInt share = .ok share.truncateInt :=
    checkedInt_of_nonneg _ shareNonneg (by omega)
  have added : intAdd supply share.truncateInt = .ok (supply + share.truncateInt) :=
    checkedInt_of_nonneg _ (by omega) (by omega)
  have subtracted : intSub m.targetSupply supply = .ok (m.targetSupply - supply) :=
    checkedInt_of_nonneg _ (by omega) (by omega)
  simp only [bind, Except.bind, truncation, added]
  split_ifs with overshoot
  · exact ⟨_, by simp only [subtracted]; exact newCoin_ok_iff.mpr ⟨denom, by omega, rfl⟩⟩
  · exact ⟨_, newCoin_ok_iff.mpr ⟨denom, shareNonneg, rfl⟩⟩

/-! ### Genesis -/

structure GenesisState where
  minter : Minter
  params : Params
  deriving DecidableEq, Repr

def initGenesis (data : GenesisState) : Except String (Minter × Params) := do
  data.params.validate
  pure (data.minter, data.params)

def exportGenesis (minter : Minter) (params : Params) : GenesisState := ⟨minter, params⟩

/-- `ValidateMinter`: a negative inflation is refused (the message goes on to print it). -/
def validateMinter (minter : Minter) : Except String Unit :=
  if minter.inflation.raw < 0 then .error "mint parameter Inflation should be positive" else .ok ()

def validateGenesis (data : GenesisState) : Except String Unit := do
  data.params.validate
  validateMinter data.minter

theorem initGenesis_exportGenesis (minter : Minter) {params : Params} (valid : params.validate = .ok ()) :
    initGenesis (exportGenesis minter params) = .ok (minter, params) := by
  simp [initGenesis, exportGenesis, valid, bind, Except.bind, pure, Except.pure]

theorem initGenesis_of_validateGenesis {data : GenesisState} (validated : validateGenesis data = .ok ()) :
    initGenesis data = .ok (data.minter, data.params) := by
  cases valid : data.params.validate with
  | error err => simp [validateGenesis, valid, bind, Except.bind] at validated
  | ok u => simp [initGenesis, valid, bind, Except.bind, pure, Except.pure]

end Juno.Mint
