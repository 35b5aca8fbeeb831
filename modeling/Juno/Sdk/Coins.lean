import Juno.Arithmetic.FixedPoint
import Juno.Semantics.Store
import Mathlib.Data.String.Basic
import Mathlib.Data.List.Sort
import Mathlib.Data.List.Dedup

/-! The Cosmos SDK value types the modules compute with.

`LegacyDec` is the 18-digit decimal of `cosmossdk.io/math`, `Coin` and `Coins`
and their decimal counterparts are those of `types/coin.go`, with the documented
behaviour of the operations the modules call: denomination validation, the
panicking constructors as `Except`, sorting by denomination, binary search,
`AmountOf`, `IsAnyGTE`, `DenomsSubsetOf` and the coalescing `Add`. Integers are
unbounded: the 256-bit overflow panics of `math.Int` are not modelled.
-/

set_option autoImplicit false

namespace Sdk

/-- `int64(v)` for a `uint64` v: the same bits read in two's complement. -/
def int64OfUint64 (v : UInt64) : Int := v.toInt64.toInt

theorem int64OfUint64_of_lt {v : UInt64} (small : v.toNat < 2 ^ 63) :
    int64OfUint64 v = v.toNat := by
  show v.toBitVec.toInt = _
  rw [BitVec.toInt_eq_toNat_cond]
  simp only [UInt64.toNat_toBitVec]
  split <;> omega

def precisionUnit : Nat := 10 ^ 18

theorem precisionUnit_pos : 0 < precisionUnit := by decide

abbrev LegacyDec := FixedPoint.Fixed precisionUnit

def legacyNewDec (i : Int) : LegacyDec := FixedPoint.Fixed.ofInt i

def legacyNewDecWithPrec (i : Int) (prec : Nat) : LegacyDec := ⟨i * 10 ^ (18 - prec)⟩

def legacyZeroDec : LegacyDec := ⟨0⟩

/-! `math.Int` holds integers of at most `MaxBitLen` bits besides the sign, and `LegacyDec`
products at most `maxDecBitLen`; an operation whose result is wider panics. -/

def maxBitLen : Nat := 256

/-- `maxDecBitLen`: `MaxBitLen` and the bits a truncation to an integer drops. -/
def maxDecBitLen : Nat := maxBitLen + 59

def fitsBitLen (bits : Nat) (x : Int) : Bool := decide (x.natAbs < 2 ^ bits)

/-- A `math.Int` result, which panics past `MaxBitLen`. -/
def checkedInt (msg : String) (x : Int) : Except String Int :=
  if fitsBitLen maxBitLen x then .ok x else .error msg

def intAdd (i i2 : Int) : Except String Int := checkedInt "integer overflow" (i + i2)

def intSub (i i2 : Int) : Except String Int := checkedInt "integer overflow" (i - i2)

def legacyMulInt (d : LegacyDec) (i : Int) : Except String LegacyDec :=
  if fitsBitLen maxDecBitLen (d.raw * i) then .ok (d.mulInt i) else .error "Int overflow"

/-- `LegacyDec.TruncateInt`, whose `NewIntFromBigInt` panics past `MaxBitLen`. -/
def legacyTruncateInt (d : LegacyDec) : Except String Int :=
  checkedInt "NewIntFromBigInt() out of bound" d.truncateInt

theorem fitsBitLen_of_nonneg {bits : Nat} {x : Int} (nonneg : 0 ≤ x) (small : x < 2 ^ bits) :
    fitsBitLen bits x = true := by
  have cast : ((2 ^ bits : Nat) : Int) = 2 ^ bits := by push_cast; rfl
  simp only [fitsBitLen, decide_eq_true_eq]
  omega

theorem checkedInt_ok {msg : String} {x y : Int} (h : checkedInt msg x = .ok y) : y = x := by
  unfold checkedInt at h
  split_ifs at h
  exact (Except.ok.inj h).symm

theorem checkedInt_of_nonneg (msg : String) {x : Int} (nonneg : 0 ≤ x) (small : x < 2 ^ maxBitLen) :
    checkedInt msg x = .ok x := by
  simp [checkedInt, fitsBitLen_of_nonneg nonneg small]

theorem legacyMulInt_ok {d e : LegacyDec} {i : Int} (h : legacyMulInt d i = .ok e) : e = d.mulInt i := by
  unfold legacyMulInt at h
  split_ifs at h
  exact (Except.ok.inj h).symm

def isDenomChar (c : Char) : Bool :=
  c.isAlphanum || c = '/' || c = ':' || c = '.' || c = '_' || c = '-'

/-- `ValidateDenom` against the default expression `[a-zA-Z][a-zA-Z0-9/:._-]{2,127}`. -/
def validateDenom (denom : String) : Bool :=
  match denom.toList with
  | [] => false
  | c :: rest => c.isAlpha && 2 ≤ rest.length && rest.length ≤ 127 && rest.all isDenomChar

structure Coin where
  denom : String
  amount : Int
  deriving DecidableEq, Repr

def Coin.empty : Coin := ⟨"", 0⟩

def Coin.validate (coin : Coin) : Bool := validateDenom coin.denom && decide (0 ≤ coin.amount)

/-- `sdk.NewCoin`, which panics on an invalid denomination or a negative amount. -/
def newCoin (denom : String) (amount : Int) : Except String Coin :=
  if validateDenom denom then
    if 0 ≤ amount then .ok ⟨denom, amount⟩ else .error "negative coin amount"
  else .error "invalid denom"

theorem newCoin_ok_iff {denom : String} {amount : Int} {coin : Coin} :
    newCoin denom amount = .ok coin ↔ validateDenom denom = true ∧ 0 ≤ amount ∧ coin = ⟨denom, amount⟩ := by
  unfold newCoin
  split_ifs with valid nonneg
  · constructor
    · intro h
      cases h
      exact ⟨valid, nonneg, rfl⟩
    · rintro ⟨-, -, rfl⟩
      rfl
  · simp [nonneg]
  · simp [valid]

abbrev Coins := List Coin

namespace Coins

def sort (coins : Coins) : Coins := coins.mergeSort (fun a b => decide (a.denom ≤ b.denom))

def isZero (coins : Coins) : Bool := coins.all (fun coin => coin.amount = 0)

def Sorted (coins : Coins) : Prop := coins.Pairwise (fun a b => a.denom < b.denom)

def isValid (coins : Coins) : Bool :=
  coins.all (fun coin => validateDenom coin.denom && decide (0 < coin.amount)) &&
    decide (coins.IsChain (fun a b : Coin => a.denom < b.denom))

def removeZeroCoins (coins : Coins) : Coins := coins.filter (fun coin => coin.amount ≠ 0)

def string (coins : Coins) : String := ",".intercalate (coins.map fun coin => toString coin.amount ++ coin.denom)

/-- `sdk.NewCoins`: drop zero coins, sort, and panic unless the result is valid. -/
def newCoins (coins : Coins) : Except String Coins :=
  let sanitized := sort (removeZeroCoins coins)
  if isValid sanitized then .ok sanitized else .error "invalid coins"

/-- `Coins.Find`: binary search over coins sorted by denomination. -/
def find (coins : Coins) (denom : String) : Bool × Coin :=
  match coins with
  | [] => (false, Coin.empty)
  | [coin] => if coin.denom = denom then (true, coin) else (false, Coin.empty)
  | first :: second :: rest =>
    let all := first :: second :: rest
    let midIdx := all.length / 2
    let coin := all.getD midIdx Coin.empty
    if denom < coin.denom then find (all.take midIdx) denom
    else if denom = coin.denom then (true, coin)
    else find (all.drop (midIdx + 1)) denom
termination_by coins.length
decreasing_by
  all_goals simp only [List.length_take, List.length_drop, List.length_cons]
  all_goals omega

/-- `AmountOf`, without the denomination check its callers never trip. -/
def amountOf (coins : Coins) (denom : String) : Int :=
  let (found, coin) := find coins denom
  if found then coin.amount else 0

def isAnyGTE (coins other : Coins) : Bool :=
  if other.isEmpty then false
  else coins.any (fun coin =>
    decide (amountOf other coin.denom ≤ coin.amount) && decide (amountOf other coin.denom ≠ 0))

def denomsSubsetOf (coins other : Coins) : Bool :=
  if other.length < coins.length then false
  else coins.all (fun coin => amountOf other coin.denom ≠ 0)

def total (coins : Coins) (denom : String) : Int :=
  ((coins.filter (fun coin => coin.denom = denom)).map Coin.amount).sum

/-- `Coins.Add`: amounts summed per denomination, zero sums dropped, then sorted. -/
def add (coins other : Coins) : Coins :=
  let all := coins ++ other
  sort (((all.map Coin.denom).dedup.map (fun denom => ⟨denom, total all denom⟩)).filter
    (fun coin => coin.amount ≠ 0))

@[simp] theorem total_nil (denom : String) : total [] denom = 0 := rfl

theorem total_cons (coin : Coin) (rest : Coins) (d : String) :
    total (coin :: rest) d = (if coin.denom = d then coin.amount else 0) + total rest d := by
  by_cases same : coin.denom = d <;> simp [total, same]

theorem total_append (a b : Coins) (d : String) : total (a ++ b) d = total a d + total b d := by
  simp [total, List.filter_append]

theorem total_of_not_mem {coins : Coins} {d : String} (absent : d ∉ coins.map Coin.denom) :
    total coins d = 0 := by
  unfold total
  rw [List.filter_eq_nil_iff.mpr]
  · rfl
  · intro c hc same
    exact absurd (List.mem_map.mpr ⟨c, hc, by simpa using same⟩) absent

theorem total_nonneg {coins : Coins} (nonneg : ∀ c ∈ coins, 0 ≤ c.amount) (d : String) :
    0 ≤ total coins d := by
  induction coins with
  | nil => simp
  | cons c rest ih =>
    have head : 0 ≤ c.amount := nonneg c List.mem_cons_self
    have tail := ih (fun c' hc' => nonneg c' (List.mem_cons_of_mem c hc'))
    rw [total_cons]
    split_ifs <;> omega

theorem total_removeZeroCoins (coins : Coins) (d : String) : total (removeZeroCoins coins) d = total coins d := by
  unfold removeZeroCoins
  induction coins with
  | nil => rfl
  | cons c rest ih =>
    by_cases zero : c.amount = 0
    · have drop : (c :: rest).filter (fun coin => coin.amount ≠ 0) =
          rest.filter (fun coin => coin.amount ≠ 0) := by simp [zero]
      rw [drop, ih, total_cons c, zero]
      simp
    · have keep : (c :: rest).filter (fun coin => coin.amount ≠ 0) =
          c :: rest.filter (fun coin => coin.amount ≠ 0) := by simp [zero]
      rw [keep, total_cons, total_cons, ih]

theorem total_map_distinct {denoms : List String} (distinct : denoms.Nodup) (amount : String → Int)
    (d : String) :
    total (denoms.map (fun d' => (⟨d', amount d'⟩ : Coin))) d = if d ∈ denoms then amount d else 0 := by
  induction denoms with
  | nil => simp
  | cons d' rest ih =>
    rw [List.nodup_cons] at distinct
    rw [List.map_cons, total_cons, ih distinct.2]
    by_cases same : d' = d
    · subst same
      simp [distinct.1]
    · by_cases mem : d ∈ rest <;> simp [same, mem, Ne.symm same]

theorem newCoins_single {denom : String} {amount : Int} (valid : validateDenom denom = true)
    (nonneg : 0 ≤ amount) :
    newCoins [⟨denom, amount⟩] = .ok (if amount = 0 then [] else [⟨denom, amount⟩]) := by
  by_cases zero : amount = 0
  · simp [newCoins, removeZeroCoins, sort, isValid, zero]
  · have positive : 0 < amount := lt_of_le_of_ne nonneg (Ne.symm zero)
    simp [newCoins, removeZeroCoins, sort, isValid, zero, valid, positive]

theorem total_of_newCoins_single {coin : Coin} {coins : Coins} (h : newCoins [coin] = .ok coins) :
    total coins coin.denom = coin.amount := by
  unfold newCoins at h
  dsimp only at h
  split_ifs at h with valid
  cases h
  by_cases zero : coin.amount = 0 <;> simp [removeZeroCoins, sort, total, zero]

theorem total_newCoins_single {coin : Coin} {coins : Coins} (h : newCoins [coin] = .ok coins) (d : String) :
    total coins d = if coin.denom = d then coin.amount else 0 := by
  by_cases same : coin.denom = d
  · rw [if_pos same, ← same]
    exact total_of_newCoins_single h
  · unfold newCoins at h
    dsimp only at h
    split_ifs at h
    cases h
    by_cases zero : coin.amount = 0 <;> simp [removeZeroCoins, sort, total, zero, same]

/-! ### Binary search -/

def lookup (coins : Coins) (denom : String) : Option Coin := coins.find? (fun c => c.denom = denom)

theorem sorted_of_isValid {coins : Coins} (h : isValid coins = true) : Sorted coins := by
  simp only [isValid, Bool.and_eq_true, decide_eq_true_eq] at h
  exact List.isChain_iff_pairwise.mp h.2

theorem positive_of_isValid {coins : Coins} (h : isValid coins = true) {c : Coin} (hc : c ∈ coins) :
    0 < c.amount := by
  simp only [isValid, Bool.and_eq_true, decide_eq_true_eq, List.all_eq_true] at h
  exact (h.1 c hc).2

theorem lookup_split {all : Coins} (sorted : Sorted all) {i : Nat} (hi : i < all.length)
    (denom : String) :
    lookup all denom =
      if denom < (all.getD i Coin.empty).denom then lookup (all.take i) denom
      else if denom = (all.getD i Coin.empty).denom then some (all.getD i Coin.empty)
      else lookup (all.drop (i + 1)) denom := by
  have split : all = all.take i ++ all[i] :: all.drop (i + 1) := by
    rw [List.getElem_cons_drop, List.take_append_drop]
  have mid : all.getD i Coin.empty = all[i] := by
    rw [List.getD_eq_getElem?_getD, List.getElem?_eq_getElem hi, Option.getD_some]
  have sorted' : (all.take i ++ all[i] :: all.drop (i + 1)).Pairwise
      (fun a b => a.denom < b.denom) := by
    rw [← split]
    exact sorted
  rw [mid]
  conv_lhs => rw [split]
  exact KVStore.find?_split Coin.denom sorted' denom

/-- Binary search over strictly sorted coins finds exactly the coin of the denomination. -/
theorem find_eq_lookup {coins : Coins} (sorted : Sorted coins) (denom : String) :
    find coins denom = ((lookup coins denom).isSome, (lookup coins denom).getD Coin.empty) := by
  fun_induction find coins denom with
  | case1 => rfl
  | case2 coin same => simp [lookup, same]
  | case3 coin differ => simp [lookup, differ]
  | case4 first second rest all midIdx coin lt ih =>
    have hi : midIdx < all.length := by simp only [midIdx, all, List.length_cons]; omega
    rw [ih (sorted.sublist (List.take_sublist _ _)), lookup_split sorted hi, if_pos lt]
  | case5 first second rest all midIdx coin ge same =>
    have hi : midIdx < all.length := by simp only [midIdx, all, List.length_cons]; omega
    rw [lookup_split sorted hi, if_neg ge, if_pos same]
    rfl
  | case6 first second rest all midIdx coin ge differ ih =>
    have hi : midIdx < all.length := by simp only [midIdx, all, List.length_cons]; omega
    rw [ih (sorted.sublist (List.drop_sublist _ _)), lookup_split sorted hi, if_neg ge,
      if_neg differ]

theorem find_denom (coins : Coins) (denom : String) (found : (find coins denom).1 = true) :
    (find coins denom).2.denom = denom := by
  fun_induction find coins denom with
  | case1 => cases found
  | case2 coin same => exact same
  | case3 coin differ => cases found
  | case4 first second rest all midIdx coin lt ih => exact ih found
  | case5 first second rest all midIdx coin ge same => exact same.symm
  | case6 first second rest all midIdx coin ge differ ih => exact ih found

/-! ### Sorting and the lookups built on binary search -/

theorem sort_perm (coins : Coins) : (sort coins).Perm coins := List.mergeSort_perm _ _

theorem mem_sort {coins : Coins} {c : Coin} : c ∈ sort coins ↔ c ∈ coins := (sort_perm coins).mem_iff

theorem length_sort (coins : Coins) : (sort coins).length = coins.length := (sort_perm coins).length_eq

theorem distinct_of_sorted {coins : Coins} (sorted : Sorted coins) : (coins.map Coin.denom).Nodup :=
  List.nodup_iff_pairwise_ne.mpr (List.pairwise_map.mpr (sorted.imp ne_of_lt))

theorem sorted_sort {coins : Coins} (distinct : (coins.map Coin.denom).Nodup) : Sorted (sort coins) := by
  have ordered : (sort coins).Pairwise (fun a b => decide (a.denom ≤ b.denom) = true) := by
    apply List.pairwise_mergeSort
    · intro a b c hab hbc
      simp only [decide_eq_true_eq] at hab hbc ⊢
      exact le_trans hab hbc
    · intro a b
      simpa using le_total a.denom b.denom
  have distinct' : ((sort coins).map Coin.denom).Nodup :=
    ((sort_perm coins).map Coin.denom).nodup_iff.mpr distinct
  have ne : (sort coins).Pairwise (fun a b => a.denom ≠ b.denom) :=
    List.pairwise_map.mp (List.nodup_iff_pairwise_ne.mp distinct')
  refine (ordered.and ne).imp ?_
  rintro a b ⟨le, differ⟩
  exact lt_of_le_of_ne (by simpa using le) differ

theorem lookup_eq_some_iff {coins : Coins} (sorted : Sorted coins) {d : String} {r : Coin} :
    lookup coins d = some r ↔ r ∈ coins ∧ r.denom = d := by
  constructor
  · intro h
    exact ⟨List.mem_of_find?_eq_some h, by simpa using List.find?_some h⟩
  · rintro ⟨mem, rfl⟩
    exact KVStore.find?_of_mem Coin.denom sorted mem

theorem amountOf_of_mem {coins : Coins} (sorted : Sorted coins) {r : Coin} (h : r ∈ coins) :
    amountOf coins r.denom = r.amount := by
  have found : lookup coins r.denom = some r := (lookup_eq_some_iff sorted).mpr ⟨h, rfl⟩
  simp [amountOf, find_eq_lookup sorted, found]

theorem amountOf_of_absent {coins : Coins} (sorted : Sorted coins) {d : String}
    (absent : ∀ r ∈ coins, r.denom ≠ d) : amountOf coins d = 0 := by
  have none : lookup coins d = none := by
    rw [lookup, List.find?_eq_none]
    intro r hr
    simpa using absent r hr
  simp [amountOf, find_eq_lookup sorted, none]

theorem total_perm {a b : Coins} (h : a.Perm b) (d : String) : total a d = total b d := by
  unfold total
  exact ((h.filter _).map _).sum_eq

theorem total_add (a b : Coins) (d : String) : total (add a b) d = total a d + total b d := by
  unfold add
  dsimp only
  rw [total_perm (sort_perm _), show ∀ l : Coins, l.filter (fun coin => coin.amount ≠ 0) =
    removeZeroCoins l from fun _ => rfl, total_removeZeroCoins,
    total_map_distinct (List.nodup_dedup _) (total (a ++ b)), total_append]
  by_cases mem : d ∈ ((a ++ b).map Coin.denom).dedup
  · rw [if_pos mem]
  · rw [if_neg mem, ← total_append, total_of_not_mem (by simpa using mem)]

theorem distinct_add (a b : Coins) : ((add a b).map Coin.denom).Nodup := by
  unfold add
  dsimp only
  rw [((sort_perm _).map Coin.denom).nodup_iff]
  refine List.Nodup.sublist (List.Sublist.map _ List.filter_sublist) ?_
  rw [List.map_map]
  simpa [Function.comp_def] using List.nodup_dedup _

theorem isZero_iff (coins : Coins) : isZero coins = true ↔ ∀ c ∈ coins, c.amount = 0 := by
  simp [isZero]

theorem total_of_isZero {coins : Coins} (zero : isZero coins = true) (d : String) : total coins d = 0 := by
  rw [isZero_iff] at zero
  unfold total
  apply List.sum_eq_zero
  simp only [List.mem_map, List.mem_filter]
  rintro _ ⟨c, ⟨mem, -⟩, rfl⟩
  exact zero c mem

theorem add_of_isZero {a b : Coins} (zero : isZero (a ++ b) = true) : add a b = [] := by
  unfold add
  dsimp only
  rw [List.filter_eq_nil_iff.mpr, sort, List.mergeSort_nil]
  simp only [List.mem_map]
  rintro _ ⟨d, -, rfl⟩
  simp [total_of_isZero zero d]

section Lookups
variable {other : Coins} (sorted : Sorted other)
include sorted

theorem amountOf_ne_zero_iff (d : String) :
    amountOf other d ≠ 0 ↔ ∃ r ∈ other, r.denom = d ∧ r.amount ≠ 0 := by
  constructor
  · intro h
    by_cases present : ∃ r ∈ other, r.denom = d
    · obtain ⟨r, hr, rfl⟩ := present
      rw [amountOf_of_mem sorted hr] at h
      exact ⟨r, hr, rfl, h⟩
    · push Not at present
      exact absurd (amountOf_of_absent sorted present) h
  · rintro ⟨r, hr, rfl, nonzero⟩
    rwa [amountOf_of_mem sorted hr]

theorem isAnyGTE_iff (coins : Coins) :
    isAnyGTE coins other = true ↔
      ∃ c ∈ coins, ∃ r ∈ other, r.denom = c.denom ∧ r.amount ≤ c.amount ∧ r.amount ≠ 0 := by
  unfold isAnyGTE
  by_cases empty : other.isEmpty = true
  · have nil : other = [] := List.isEmpty_iff.mp empty
    subst nil
    simp
  · rw [if_neg empty, List.any_eq_true]
    apply exists_congr
    intro c
    apply and_congr_right
    intro _
    simp only [Bool.and_eq_true, decide_eq_true_eq]
    constructor
    · rintro ⟨reach, nonzero⟩
      obtain ⟨r, hr, same, ne⟩ := (amountOf_ne_zero_iff sorted c.denom).mp nonzero
      rw [← same, amountOf_of_mem sorted hr] at reach
      exact ⟨r, hr, same, reach, ne⟩
    · rintro ⟨r, hr, same, le, ne⟩
      rw [← same, amountOf_of_mem sorted hr]
      exact ⟨le, ne⟩

end Lookups

section Requirements
variable {other : Coins} (sorted : Sorted other) (nonzero : ∀ r ∈ other, r.amount ≠ 0)
include sorted nonzero

theorem amountOf_ne_zero_iff_of_nonzero (d : String) :
    amountOf other d ≠ 0 ↔ ∃ r ∈ other, r.denom = d := by
  rw [amountOf_ne_zero_iff sorted]
  constructor
  · rintro ⟨r, hr, same, -⟩
    exact ⟨r, hr, same⟩
  · rintro ⟨r, hr, same⟩
    exact ⟨r, hr, same, nonzero r hr⟩

theorem isAnyGTE_iff_of_nonzero (coins : Coins) :
    isAnyGTE coins other = true ↔ ∃ c ∈ coins, ∃ r ∈ other, r.denom = c.denom ∧ r.amount ≤ c.amount := by
  rw [isAnyGTE_iff sorted]
  constructor
  · rintro ⟨c, mem, r, hr, same, le, -⟩
    exact ⟨c, mem, r, hr, same, le⟩
  · rintro ⟨c, mem, r, hr, same, le⟩
    exact ⟨c, mem, r, hr, same, le, nonzero r hr⟩

/-- For coins of distinct denominations, `DenomsSubsetOf` asks that each denomination be
required; the length comparison in front never decides. -/
theorem denomsSubsetOf_iff {coins : Coins} (distinct : (coins.map Coin.denom).Nodup) :
    denomsSubsetOf coins other = true ↔ ∀ c ∈ coins, ∃ r ∈ other, r.denom = c.denom := by
  unfold denomsSubsetOf
  by_cases longer : other.length < coins.length
  · rw [if_pos longer]
    simp only [Bool.false_eq_true, false_iff]
    intro all
    have sub : coins.map Coin.denom ⊆ other.map Coin.denom := by
      intro d hd
      obtain ⟨c, hc, rfl⟩ := List.mem_map.mp hd
      obtain ⟨r, hr, same⟩ := all c hc
      exact List.mem_map.mpr ⟨r, hr, same⟩
    have bound := distinct.length_le_of_subset sub
    simp only [List.length_map] at bound
    omega
  · rw [if_neg longer, List.all_eq_true]
    simp only [decide_eq_true_eq]
    exact forall₂_congr (fun c _ => amountOf_ne_zero_iff_of_nonzero sorted nonzero c.denom)

end Requirements

end Coins

structure DecCoin where
  denom : String
  amount : LegacyDec
  deriving DecidableEq, Repr

abbrev DecCoins := List DecCoin

def DecCoins.isZero (coins : DecCoins) : Bool := coins.all (fun coin => coin.amount.raw = 0)

end Sdk
