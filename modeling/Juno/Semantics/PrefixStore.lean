import Juno.Semantics.Store

/-! Prefix stores.

A store whose keys are sequences can be cut into prefix stores: the prefix store of `p`
(`prefix.NewStore(parent, p)`) reads and writes the parent under `p ++ key`, and its
iterator visits the parent's keys that start with `p`, with `p` cut off, in key order.
A write under a key that does not start with `p` is invisible to it, and a write under
`p ++ key` shows as `key`. A field ended by a separator it does not contain is read back
from every key that continues it, which keeps the prefix stores of two such fields apart.

Over byte keys, `PrefixEndBytes p` bounds an iteration above every key that starts with `p`:
a key lies below it exactly when it lies below `p` or extends `p`
(`belowEnd_prefixEndBytes`).
-/

set_option autoImplicit false

namespace KVStore

theorem eq_of_prefix_of_separator {α : Type} {sep : α} {a b rest : List α} (notInA : sep ∉ a)
    (notInB : sep ∉ b) (h : a ++ [sep] <+: b ++ sep :: rest) : a = b := by
  induction a generalizing b with
  | nil =>
    cases b with
    | nil => rfl
    | cons y b =>
      -- the separator would be the first symbol of `b`
      obtain ⟨same, -⟩ := List.cons_prefix_cons.mp h
      exact absurd (same ▸ List.mem_cons_self) notInB
  | cons x a ih =>
    cases b with
    | nil =>
      obtain ⟨same, -⟩ := List.cons_prefix_cons.mp h
      exact absurd (same ▸ List.mem_cons_self) notInA
    | cons y b =>
      obtain ⟨same, rest⟩ := List.cons_prefix_cons.mp h
      rw [same, ih (fun mem => notInA (List.mem_cons_of_mem x mem))
        (fun mem => notInB (List.mem_cons_of_mem y mem)) rest]

theorem append_cons_eq_iff_of_not_mem {α : Type} {sep : α} {a b c d : List α} (notInA : sep ∉ a)
    (notInB : sep ∉ b) : a ++ sep :: b = c ++ sep :: d ↔ a = c ∧ b = d := by
  constructor
  · intro same
    rcases List.append_eq_append_iff.mp same with ⟨a', rfl, rest⟩ | ⟨c', rfl, rest⟩
    · cases a' with
      | nil => simpa using rest
      | cons x a' =>
        -- the second key's separator would lie in `b`
        obtain ⟨rfl, rfl⟩ := List.cons_eq_cons.mp rest
        exact absurd (List.mem_append_right a' List.mem_cons_self) notInB
    · cases c' with
      | nil => simpa [@eq_comm _ b] using rest
      | cons x c' =>
        -- the second key's separator would lie in `a`
        obtain ⟨rfl, -⟩ := List.cons_eq_cons.mp rest
        exact absurd (List.mem_append_right c List.mem_cons_self) notInA
  · rintro ⟨rfl, rfl⟩
    rfl

namespace Store

variable {α ν : Type} [LinearOrder α]

/-- The keys `prefix.NewStore(s, p).Iterator(nil, nil)` visits. -/
def prefixKeys (s : Store (List α) ν) (p : List α) : List (List α) :=
  s.records.filterMap fun r => if p <+: r.1 then some (r.1.drop p.length) else none

def prefixValues (s : Store (List α) ν) (p : List α) : List ν :=
  s.records.filterMap fun r => if p <+: r.1 then some r.2 else none

theorem lt_of_append_lt_append_left {p a b : List α} (h : p ++ a < p ++ b) : a < b := by
  by_contra notBelow
  rcases (not_lt.mp notBelow).lt_or_eq with below | same
  · exact lt_asymm h (List.append_left_lt below)
  · rw [same] at h
    exact lt_irrefl _ h

theorem find?_eq_some_iff (s : Store (List α) ν) (key : List α) (v : ν) :
    s.find? key = some v ↔ (key, v) ∈ s.records := by
  constructor
  · intro found
    obtain ⟨r, hr, rfl⟩ := Option.map_eq_some_iff.mp found
    rw [← Keyed.key_of_get? hr]
    exact Keyed.mem_of_get? hr
  · intro mem
    simp [find?, Keyed.get?_of_mem s mem]

theorem find?_isSome_iff (s : Store (List α) ν) (key : List α) :
    (s.find? key).isSome ↔ ∃ r ∈ s.records, r.1 = key := by
  rw [Option.isSome_iff_exists]
  simp only [find?_eq_some_iff]
  constructor
  · rintro ⟨v, mem⟩
    exact ⟨_, mem, rfl⟩
  · rintro ⟨⟨k, v⟩, mem, rfl⟩
    exact ⟨v, mem⟩

/-- The iterator of a prefix store visits a value exactly when some key under the prefix holds it. -/
theorem mem_prefixValues (s : Store (List α) ν) (p : List α) (v : ν) :
    v ∈ s.prefixValues p ↔ ∃ key, s.find? (p ++ key) = some v := by
  simp only [find?_eq_some_iff, prefixValues, List.mem_filterMap]
  constructor
  · rintro ⟨r, mem, cut⟩
    split_ifs at cut with under
    cases cut
    obtain ⟨key, whole⟩ := under
    exact ⟨key, by rwa [whole]⟩
  · rintro ⟨key, mem⟩
    exact ⟨_, mem, by rw [if_pos (List.prefix_append p key)]⟩

theorem mem_prefixKeys (s : Store (List α) ν) (p key : List α) :
    key ∈ s.prefixKeys p ↔ (s.find? (p ++ key)).isSome := by
  rw [find?_isSome_iff, prefixKeys, List.mem_filterMap]
  constructor
  · rintro ⟨r, mem, cut⟩
    split_ifs at cut with under
    · cases cut
      exact ⟨r, mem, (List.prefix_iff_eq_append.mp under).symm⟩
  · rintro ⟨r, mem, whole⟩
    refine ⟨r, mem, ?_⟩
    rw [if_pos (whole ▸ List.prefix_append p key), whole, List.drop_left]

theorem prefixKeys_sorted (s : Store (List α) ν) (p : List α) :
    (s.prefixKeys p).Pairwise (· < ·) := by
  refine List.Pairwise.filterMap _ ?_ s.sorted
  intro a b below ka cutA kb cutB
  split_ifs at cutA cutB with underA underB
  cases cutA
  cases cutB
  apply lt_of_append_lt_append_left (p := p)
  rwa [List.prefix_iff_eq_append.mp underA, List.prefix_iff_eq_append.mp underB]

end Store

/-! ### Iteration bounds over byte keys -/

/-- Raw store keys. -/
abbrev Bytes := List (Fin 256)

/-- Go's `byte(n)`: the low eight bits. -/
def byte (n : Nat) : Fin 256 := Fin.ofNat 256 n

/-- `PrefixEndBytes`: drop the trailing 0xFF bytes and increment the last byte left. With nothing
left there is no key above all the extensions of `p`, and the iterator takes no upper bound. -/
def prefixEndBytes (p : Bytes) : Option Bytes :=
  match p.reverse.dropWhile (· = 255) with
  | [] => none
  | last :: rest => some ((last + 1) :: rest).reverse

def belowEnd (stop : Option Bytes) (key : Bytes) : Bool :=
  match stop with
  | none => true
  | some e => decide (key < e)

theorem lt_or_prefix_of_all_max {ffs : Bytes} (all : ∀ b ∈ ffs, b = 255) :
    ∀ key : Bytes, key < ffs ∨ ffs <+: key := by
  induction ffs with
  | nil => intro key; exact .inr List.nil_prefix
  | cons f ffs ih =>
    intro key
    have top : f = 255 := all f List.mem_cons_self
    cases key with
    | nil => exact .inl (List.nil_lt_cons _ _)
    | cons c key =>
      -- a first byte below 0xFF decides; otherwise the rest of the key does
      by_cases same : c = f
      · rcases ih (fun b mem => all b (List.mem_cons_of_mem f mem)) key with below | longer
        · exact .inl (List.cons_lt_cons_iff.mpr (.inr ⟨same, below⟩))
        · exact .inr (List.cons_prefix_cons.mpr ⟨same.symm, longer⟩)
      · have below : c < f := by
          rw [top] at same ⊢
          exact lt_of_le_of_ne (Fin.le_last c) same
        exact .inl (List.cons_lt_cons_iff.mpr (.inl below))

theorem lt_succ_iff_le {b c : Fin 256} (ne : b ≠ 255) : c < b + 1 ↔ c ≤ b := by
  have notTop : b.val ≠ 255 := fun h => ne (Fin.ext h)
  have := b.isLt
  rw [Fin.lt_def, Fin.le_def, Fin.val_add]
  simp only [Fin.val_one']
  omega

theorem lt_append_succ_iff {b : Fin 256} (ne : b ≠ 255) {ffs : Bytes} (all : ∀ f ∈ ffs, f = 255)
    (q : Bytes) : ∀ key : Bytes, key < q ++ [b + 1] ↔ key < q ++ b :: ffs ∨ q ++ b :: ffs <+: key := by
  induction q with
  | nil =>
    intro key
    cases key with
    | nil => simp [List.nil_lt_cons]
    | cons c key =>
      simp only [List.nil_append, List.cons_lt_cons_iff, List.not_lt_nil, and_false, or_false,
        List.cons_prefix_cons, lt_succ_iff_le ne]
      -- past the byte `b` itself, the rest of the key lies below the run or extends it
      have rest := lt_or_prefix_of_all_max all key
      constructor
      · intro le
        rcases le.lt_or_eq with lt | eq
        · exact .inl (.inl lt)
        · rcases rest with below | longer
          · exact .inl (.inr ⟨eq, below⟩)
          · exact .inr ⟨eq.symm, longer⟩
      · rintro ((lt | ⟨eq, -⟩) | ⟨eq, -⟩)
        · exact lt.le
        · exact eq.le
        · exact eq.ge
  | cons a q ih =>
    intro key
    cases key with
    | nil => simp [List.nil_lt_cons]
    | cons c key =>
      simp only [List.cons_append, List.cons_lt_cons_iff, List.cons_prefix_cons, ih key]
      constructor
      · rintro (lt | ⟨eq, below | longer⟩)
        · exact .inl (.inl lt)
        · exact .inl (.inr ⟨eq, below⟩)
        · exact .inr ⟨eq.symm, longer⟩
      · rintro ((lt | ⟨eq, below⟩) | ⟨eq, longer⟩)
        · exact .inl lt
        · exact .inr ⟨eq, .inl below⟩
        · exact .inr ⟨eq.symm, .inr longer⟩

/-- An iteration up to `PrefixEndBytes p` visits the keys below `p` and every key that extends
`p`, the longer ones included. -/
theorem belowEnd_prefixEndBytes (p key : Bytes) :
    belowEnd (prefixEndBytes p) key = true ↔ key < p ∨ p <+: key := by
  unfold prefixEndBytes
  split
  case h_1 trimmed =>
    -- every byte of `p` is 0xFF: there is no bound
    have all : ∀ b ∈ p, b = 255 := fun b mem => by
      simpa using List.dropWhile_eq_nil_iff.mp trimmed b (List.mem_reverse.mpr mem)
    simpa [belowEnd] using lt_or_prefix_of_all_max all key
  case h_2 last rest trimmed =>
    -- `p` is `rest.reverse ++ last :: ffs`, with `last` not 0xFF and `ffs` all 0xFF
    have whole := List.takeWhile_append_dropWhile (p := (· = (255 : Fin 256))) (l := p.reverse)
    rw [trimmed] at whole
    have split : p = rest.reverse ++ last :: (p.reverse.takeWhile (· = 255)).reverse := by
      rw [← List.reverse_reverse p]
      conv => lhs; rw [← whole]
      simp
    have ne : last ≠ 255 := by
      simpa [trimmed] using List.head_dropWhile_not (· = (255 : Fin 256)) (l := p.reverse) (by simp [trimmed])
    have all : ∀ f ∈ (p.reverse.takeWhile (· = 255)).reverse, f = 255 := fun f mem => by
      simpa using List.mem_takeWhile_imp (List.mem_reverse.mp mem)
    rw [split]
    simpa [belowEnd] using lt_append_succ_iff ne all rest.reverse key

end KVStore
