import Mathlib.Algebra.Order.Field.Rat
import Mathlib.Tactic.Linarith
import Mathlib.Tactic.Ring

/-! Decimal fixed point.

A value is an integer count of `1 / unit` steps. Products with integers are
exact; quotients truncate toward zero as big-integer `Quo` does; reading back an
integer truncates, takes the ceiling, or rounds half to even symmetrically about
zero. `toRat` gives the rational each value stands for, and the rounding bounds
are stated both on the raw integers and on that meaning.
-/

set_option autoImplicit false

namespace FixedPoint

structure Fixed (unit : Nat) where
  raw : Int
  deriving DecidableEq, Repr

/-- Round `n / unit` to the nearest natural number, ties to the even one. -/
def halfEven (unit n : Nat) : Nat :=
  if 2 * (n % unit) < unit then n / unit
  else if unit < 2 * (n % unit) then n / unit + 1
  else if n / unit % 2 = 0 then n / unit else n / unit + 1

/-- Round `n / unit` half to even, symmetrically about zero. -/
def roundQuo (unit : Nat) (n : Int) : Int :=
  if n < 0 then -(halfEven unit n.natAbs : Int) else halfEven unit n.natAbs

/-- The least integer at least `n / unit`: the truncated quotient, plus one on a
positive remainder. -/
def ceilQuo (unit : Nat) (n : Int) : Int :=
  if 0 < n.tmod unit then n.tdiv unit + 1 else n.tdiv unit

variable {unit : Nat}

namespace Fixed

def ofInt (n : Int) : Fixed unit := ⟨n * unit⟩

def mulInt (d : Fixed unit) (n : Int) : Fixed unit := ⟨d.raw * n⟩

def quoInt (d : Fixed unit) (n : Int) : Fixed unit := ⟨d.raw.tdiv n⟩

def mul (d e : Fixed unit) : Fixed unit := ⟨roundQuo unit (d.raw * e.raw)⟩

def add (d e : Fixed unit) : Fixed unit := ⟨d.raw + e.raw⟩

def sub (d e : Fixed unit) : Fixed unit := ⟨d.raw - e.raw⟩

def truncateInt (d : Fixed unit) : Int := d.raw.tdiv unit

def roundInt (d : Fixed unit) : Int := roundQuo unit d.raw

def ceil (d : Fixed unit) : Fixed unit := ofInt (ceilQuo unit d.raw)

def toRat (d : Fixed unit) : ℚ := d.raw / unit

end Fixed

/-! ## Integer rounding -/

theorem halfEven_mul_le (unit n : Nat) : 2 * unit * halfEven unit n ≤ 2 * n + unit := by
  have split := Nat.div_add_mod n unit
  unfold halfEven
  generalize n / unit = q at split ⊢
  generalize n % unit = r at split ⊢
  split_ifs <;> linarith

theorem halfEven_mul_unit {unit : Nat} (positive : 0 < unit) (n : Nat) :
    halfEven unit (n * unit) = n := by
  simp [halfEven, Nat.mul_mod_left, Nat.mul_div_cancel _ positive, positive]

theorem roundQuo_nonneg {n : Int} (hn : 0 ≤ n) : 0 ≤ roundQuo unit n := by
  simp [roundQuo, not_lt.mpr hn]

theorem roundQuo_mul_le {n : Int} (hn : 0 ≤ n) :
    2 * unit * roundQuo unit n ≤ 2 * n + unit := by
  have bound := halfEven_mul_le unit n.natAbs
  simp only [roundQuo, not_lt.mpr hn, if_false]
  zify at bound
  rwa [abs_of_nonneg hn] at bound

theorem roundQuo_mul_unit {unit : Nat} (positive : 0 < unit) (n : Int) :
    roundQuo unit (n * unit) = n := by
  rcases Int.lt_or_le n 0 with negative | nonneg
  · have lt : n * unit < 0 := Int.mul_neg_of_neg_of_pos negative (by exact_mod_cast positive)
    have abs : (n * unit).natAbs = n.natAbs * unit := by simp [Int.natAbs_mul]
    simp only [roundQuo, lt, if_true, abs, halfEven_mul_unit positive]
    omega
  · have ge : ¬ n * unit < 0 := not_lt.mpr (Int.mul_nonneg nonneg (by omega))
    have abs : (n * unit).natAbs = n.natAbs * unit := by simp [Int.natAbs_mul]
    simp only [roundQuo, ge, if_false, abs, halfEven_mul_unit positive]
    omega

/-- The ceiling quotient is the least integer whose multiple of `unit` reaches `n`. -/
theorem ceilQuo_spec {unit : Nat} (positive : 0 < unit) (n : Int) :
    n ≤ ceilQuo unit n * unit ∧ (ceilQuo unit n - 1) * unit < n := by
  have hu : (0 : Int) < unit := by exact_mod_cast positive
  have split := Int.tmod_add_tdiv_mul n unit
  have above := Int.lt_tmod_of_pos n hu
  have below := Int.tmod_lt_of_pos n hu
  unfold ceilQuo
  generalize n.tdiv unit = q at split ⊢
  generalize n.tmod unit = r at split above below ⊢
  split_ifs <;> constructor <;> linarith

theorem ceilQuo_nonneg {unit : Nat} (positive : 0 < unit) {n : Int} (hn : 0 ≤ n) :
    0 ≤ ceilQuo unit n := by
  have hu : (0 : Int) < unit := by exact_mod_cast positive
  obtain ⟨reach, least⟩ := ceilQuo_spec positive n
  by_contra negative
  nlinarith

theorem ceilQuo_mul_unit {unit : Nat} (positive : 0 < unit) (n : Int) : ceilQuo unit (n * unit) = n := by
  have hu : (0 : Int) < unit := by exact_mod_cast positive
  obtain ⟨reach, least⟩ := ceilQuo_spec positive (n * unit)
  have ge : n ≤ ceilQuo unit (n * unit) := le_of_mul_le_mul_right reach hu
  have lt : ceilQuo unit (n * unit) - 1 < n := lt_of_mul_lt_mul_right least hu.le
  omega

theorem tdiv_mul_le (a b : Int) (ha : 0 ≤ a) (hb : 0 < b) : a.tdiv b * b ≤ a := by
  rw [Int.tdiv_eq_ediv_of_nonneg ha]
  exact Int.ediv_mul_le a (ne_of_gt hb)

namespace Fixed

@[simp] theorem raw_ofInt (n : Int) : (ofInt n : Fixed unit).raw = n * unit := rfl
@[simp] theorem raw_mulInt (d : Fixed unit) (n : Int) : (d.mulInt n).raw = d.raw * n := rfl
@[simp] theorem raw_quoInt (d : Fixed unit) (n : Int) : (d.quoInt n).raw = d.raw.tdiv n := rfl
@[simp] theorem raw_add (d e : Fixed unit) : (d.add e).raw = d.raw + e.raw := rfl
@[simp] theorem raw_sub (d e : Fixed unit) : (d.sub e).raw = d.raw - e.raw := rfl

theorem mul_ofInt (positive : 0 < unit) (d : Fixed unit) (n : Int) :
    d.mul (ofInt n) = d.mulInt n := by
  have assoc : d.raw * (n * unit) = d.raw * n * unit := by ring
  simp only [mul, raw_ofInt, assoc, roundQuo_mul_unit positive, mulInt]

theorem roundInt_ofInt (positive : 0 < unit) (n : Int) : (ofInt n : Fixed unit).roundInt = n :=
  roundQuo_mul_unit positive n

theorem roundInt_ceil (positive : 0 < unit) (d : Fixed unit) :
    d.ceil.roundInt = ceilQuo unit d.raw :=
  roundInt_ofInt positive _

theorem truncateInt_nonneg {d : Fixed unit} (hd : 0 ≤ d.raw) : 0 ≤ d.truncateInt :=
  Int.tdiv_nonneg hd (Int.natCast_nonneg unit)

theorem quoInt_nonneg {d : Fixed unit} {n : Int} (hd : 0 ≤ d.raw) (hn : 0 ≤ n) :
    0 ≤ (d.quoInt n).raw :=
  Int.tdiv_nonneg hd hn

theorem mulInt_nonneg {d : Fixed unit} {n : Int} (hd : 0 ≤ d.raw) (hn : 0 ≤ n) :
    0 ≤ (d.mulInt n).raw :=
  Int.mul_nonneg hd hn

theorem truncateInt_quoInt_le (positive : 0 < unit) {d : Fixed unit} (hd : 0 ≤ d.raw) {n : Int} (hn : 0 < n) :
    (d.quoInt n).truncateInt ≤ d.truncateInt := by
  have hu : (0 : Int) < unit := by exact_mod_cast positive
  have quotient : d.raw.tdiv n ≤ d.raw := by
    rw [Int.tdiv_eq_ediv_of_nonneg hd]
    exact Int.ediv_le_self n hd
  unfold truncateInt
  rw [raw_quoInt, Int.tdiv_eq_ediv_of_nonneg (Int.tdiv_nonneg hd hn.le),
    Int.tdiv_eq_ediv_of_nonneg hd (b := (unit : Int))]
  exact Int.ediv_le_ediv hu quotient

theorem truncateInt_mulInt_le (positive : 0 < unit) {d : Fixed unit} (hd : 0 ≤ d.raw) (atMostOne : d.raw ≤ unit)
    {n : Int} (hn : 0 ≤ n) : (d.mulInt n).truncateInt ≤ n := by
  have hu : (0 : Int) < unit := by exact_mod_cast positive
  unfold truncateInt
  rw [raw_mulInt, Int.tdiv_eq_ediv_of_nonneg (Int.mul_nonneg hd hn)]
  apply Int.ediv_le_of_le_mul hu
  calc d.raw * n ≤ unit * n := Int.mul_le_mul_of_nonneg_right atMostOne hn
    _ = n * unit := Int.mul_comm _ _

/-! ## What the values stand for -/

theorem toRat_mulInt (d : Fixed unit) (n : Int) : (d.mulInt n).toRat = d.toRat * n := by
  simp only [toRat, raw_mulInt, Int.cast_mul]
  ring

theorem toRat_quoInt_mul_le (positive : 0 < unit) {d : Fixed unit} (hd : 0 ≤ d.raw) {n : Int}
    (hn : 0 < n) : (d.quoInt n).toRat * n ≤ d.toRat := by
  have hu : (0 : ℚ) < unit := by exact_mod_cast positive
  have bound : (d.raw.tdiv n * n : ℚ) ≤ d.raw := by exact_mod_cast tdiv_mul_le d.raw n hd hn
  rw [toRat, toRat, raw_quoInt, div_mul_eq_mul_div, div_le_div_iff_of_pos_right hu]
  exact bound

/-- Rounding half to even exceeds a nonnegative value by at most one half. -/
theorem roundInt_le_toRat (positive : 0 < unit) {d : Fixed unit} (hd : 0 ≤ d.raw) :
    (d.roundInt : ℚ) ≤ d.toRat + 1 / 2 := by
  have hu : (0 : ℚ) < unit := by exact_mod_cast positive
  have bound : (2 * unit * d.roundInt : ℚ) ≤ 2 * d.raw + unit := by
    exact_mod_cast @roundQuo_mul_le unit d.raw hd
  rw [toRat, div_add' _ _ _ hu.ne', le_div_iff₀ hu]
  nlinarith

end Fixed

end FixedPoint
