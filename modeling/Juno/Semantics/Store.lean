import Mathlib

/-! Key-value stores.

A store holds records under a key computed from each record, in increasing key
order, so a key has at most one record and iteration visits the records in key
order, as a prefix iterator over a sorted key space does. A store of plain
values is the special case of pairs keyed by their first component. Writes and
deletes are stated by what a later read returns and by how a weighted sum over
all records moves.
-/

set_option autoImplicit false

namespace KVStore

variable {κ ν : Type} [LinearOrder κ]

structure Keyed (key : ν → κ) where
  records : List ν
  sorted : records.Pairwise (fun a b => key a < key b)

def insertBy (key : ν → κ) (v : ν) : List ν → List ν
  | [] => [v]
  | w :: rest =>
    if key v < key w then v :: w :: rest
    else if key v = key w then v :: rest
    else w :: insertBy key v rest

section
variable (key : ν → κ)

theorem mem_insertBy {v x : ν} {l : List ν} (h : x ∈ insertBy key v l) : x = v ∨ x ∈ l := by
  induction l with
  | nil => simpa [insertBy] using h
  | cons w rest ih =>
    simp only [insertBy] at h
    split_ifs at h with lt eq
    · simpa using h
    · rcases List.mem_cons.mp h with rfl | tail
      · exact .inl rfl
      · exact .inr (List.mem_cons_of_mem w tail)
    · rcases List.mem_cons.mp h with rfl | tail
      · exact .inr List.mem_cons_self
      · rcases ih tail with same | old
        · exact .inl same
        · exact .inr (List.mem_cons_of_mem w old)

theorem sorted_insertBy (v : ν) {l : List ν} (hl : l.Pairwise (fun a b => key a < key b)) :
    (insertBy key v l).Pairwise (fun a b => key a < key b) := by
  induction l with
  | nil => simp [insertBy]
  | cons w rest ih =>
    rw [List.pairwise_cons] at hl
    obtain ⟨above, tail⟩ := hl
    simp only [insertBy]
    split_ifs with lt eq
    · refine List.Pairwise.cons ?_ (List.Pairwise.cons above tail)
      intro x hx
      rcases List.mem_cons.mp hx with rfl | later
      · exact lt
      · exact lt_trans lt (above x later)
    · refine List.Pairwise.cons ?_ tail
      intro x hx
      rw [eq]
      exact above x hx
    · -- `v` goes after `w`, so every record of the new tail is above `w`.
      have gt : key w < key v := lt_of_le_of_ne (not_lt.mp lt) (Ne.symm eq)
      refine List.Pairwise.cons ?_ (ih tail)
      intro x hx
      rcases mem_insertBy key hx with rfl | old
      · exact gt
      · exact above x old

theorem find?_insertBy_self (v : ν) (l : List ν) :
    (insertBy key v l).find? (fun w => key w = key v) = some v := by
  induction l with
  | nil => simp [insertBy]
  | cons w rest ih =>
    simp only [insertBy]
    split_ifs with lt eq
    · simp
    · simp
    · simp [Ne.symm eq, ih]

theorem find?_insertBy_ne {k : κ} (v : ν) (l : List ν) (ne : key v ≠ k) :
    (insertBy key v l).find? (fun w => key w = k) = l.find? (fun w => key w = k) := by
  induction l with
  | nil => simp [insertBy, ne]
  | cons w rest ih =>
    simp only [insertBy]
    split_ifs with lt eq
    · simp [List.find?_cons, ne]
    · simp [ne, ← eq]
    · simp only [List.find?_cons, ih]

theorem insertBy_of_lt {v : ν} {l : List ν} (above : ∀ w ∈ l, key w < key v) :
    insertBy key v l = l ++ [v] := by
  induction l with
  | nil => rfl
  | cons w rest ih =>
    have below := above w List.mem_cons_self
    rw [insertBy, if_neg (not_lt.mpr below.le), if_neg (ne_of_gt below),
      ih fun x mem => above x (List.mem_cons_of_mem w mem), List.cons_append]

theorem find?_below {k : κ} {w : ν} {rest : List ν}
    (hl : (w :: rest).Pairwise (fun a b => key a < key b)) (below : k < key w) :
    (w :: rest).find? (fun x => key x = k) = none := by
  rw [List.pairwise_cons] at hl
  rw [List.find?_eq_none]
  intro x hx
  rcases List.mem_cons.mp hx with rfl | later
  · simpa using ne_of_gt below
  · simpa using ne_of_gt (lt_trans below (hl.1 x later))

theorem find?_of_mem {v : ν} {l : List ν} (hl : l.Pairwise (fun a b => key a < key b)) (h : v ∈ l) :
    l.find? (fun x => key x = key v) = some v := by
  induction l with
  | nil => cases h
  | cons w rest ih =>
    rw [List.pairwise_cons] at hl
    rcases List.mem_cons.mp h with rfl | later
    · simp
    · have ne : key w ≠ key v := ne_of_lt (hl.1 v later)
      simp [ne, ih hl.2 later]

/-- Searching a sorted list split at `m`: below `m` only the front can hold the key,
above it only the back. This is the step of a binary search. -/
theorem find?_split {A B : List ν} {m : ν} (hl : (A ++ m :: B).Pairwise (fun a b => key a < key b))
    (k : κ) :
    (A ++ m :: B).find? (fun x => key x = k) =
      if k < key m then A.find? (fun x => key x = k)
      else if k = key m then some m else B.find? (fun x => key x = k) := by
  rw [List.pairwise_append] at hl
  obtain ⟨-, right, across⟩ := hl
  have front : ∀ a ∈ A, key a < key m := fun a ha => across a ha m List.mem_cons_self
  rw [List.find?_append]
  split_ifs with lt eq
  · rw [find?_below key right lt, Option.or_none]
  · have none : A.find? (fun x => key x = k) = none := by
      rw [List.find?_eq_none]
      intro a ha
      simpa [eq] using ne_of_lt (front a ha)
    rw [none, Option.none_or]
    simp [eq]
  · have gt : key m < k := lt_of_le_of_ne (not_lt.mp lt) (Ne.symm eq)
    have none : A.find? (fun x => key x = k) = none := by
      rw [List.find?_eq_none]
      intro a ha
      simpa using ne_of_lt (lt_trans (front a ha) gt)
    rw [none, Option.none_or]
    simp [Ne.symm eq]

end

namespace Keyed

variable {key : ν → κ}

def empty : Keyed key := ⟨[], List.Pairwise.nil⟩

def get? (s : Keyed key) (k : κ) : Option ν := s.records.find? (fun v => key v = k)

def has (s : Keyed key) (k : κ) : Bool := (s.get? k).isSome

def put (s : Keyed key) (v : ν) : Keyed key := ⟨insertBy key v s.records, sorted_insertBy key v s.sorted⟩

def delete (s : Keyed key) (k : κ) : Keyed key :=
  ⟨s.records.filter (fun v => key v ≠ k), List.Pairwise.filter _ s.sorted⟩

def sumBy (f : ν → Int) (s : Keyed key) : Int := (s.records.map f).sum

def weightAt (f : ν → Int) (s : Keyed key) (k : κ) : Int := ((s.get? k).map f).getD 0

@[simp] theorem get?_empty (k : κ) : (empty : Keyed key).get? k = none := rfl

@[simp] theorem get?_put_self (s : Keyed key) (v : ν) : (s.put v).get? (key v) = some v :=
  find?_insertBy_self key v s.records

@[simp] theorem get?_put_ne (s : Keyed key) (v : ν) {k : κ} (ne : key v ≠ k) :
    (s.put v).get? k = s.get? k :=
  find?_insertBy_ne key v s.records ne

theorem get?_put (s : Keyed key) (v : ν) (k : κ) :
    (s.put v).get? k = if key v = k then some v else s.get? k := by
  by_cases same : key v = k
  · rw [if_pos same, ← same, get?_put_self]
  · rw [if_neg same, get?_put_ne s v same]

@[simp] theorem get?_delete_self (s : Keyed key) (k : κ) : (s.delete k).get? k = none := by
  simp [get?, delete, List.find?_eq_none]

@[simp] theorem get?_delete_ne (s : Keyed key) {k k' : κ} (ne : k' ≠ k) :
    (s.delete k).get? k' = s.get? k' := by
  simp only [get?, delete, List.find?_filter]
  -- A record found under `k'` is never one the delete drops.
  congr 1
  funext v
  by_cases hv : key v = k'
  · simp [hv, ne]
  · simp [hv]

theorem ext_records {s t : Keyed key} (same : s.records = t.records) : s = t := by
  cases s
  cases t
  cases same
  rfl

theorem foldl_put_records (s : Keyed key) : s.records.foldl put empty = s := by
  have appends : ∀ (l : List ν) (t : Keyed key), (t.records ++ l).Pairwise (fun a b => key a < key b) →
      (l.foldl put t).records = t.records ++ l := by
    intro l
    induction l with
    | nil => intro t _; simp
    | cons v rest ih =>
      intro t sorted
      have above : ∀ w ∈ t.records, key w < key v :=
        fun w mem => (List.pairwise_append.mp sorted).2.2 w mem v List.mem_cons_self
      have putEnd : (t.put v).records = t.records ++ [v] := insertBy_of_lt key above
      rw [List.foldl_cons, ih (t.put v) (by rwa [putEnd, List.append_assoc, List.singleton_append]), putEnd,
        List.append_assoc, List.singleton_append]
  exact ext_records (appends s.records empty s.sorted)

theorem key_of_get? {s : Keyed key} {k : κ} {v : ν} (h : s.get? k = some v) : key v = k := by
  simpa using List.find?_some h

theorem mem_of_get? {s : Keyed key} {k : κ} {v : ν} (h : s.get? k = some v) : v ∈ s.records :=
  List.mem_of_find?_eq_some h

theorem get?_of_mem (s : Keyed key) {v : ν} (h : v ∈ s.records) : s.get? (key v) = some v :=
  find?_of_mem key s.sorted h

section Weights
variable (f : ν → Int)

theorem weightAt_of_get? {s : Keyed key} {k : κ} {v : ν} (h : s.get? k = some v) :
    s.weightAt f k = f v := by
  simp [weightAt, h]

theorem weightAt_of_has {s : Keyed key} {k : κ} (h : s.has k = false) : s.weightAt f k = 0 := by
  simp only [has, Option.isSome_eq_false_iff, Option.isNone_iff_eq_none] at h
  simp [weightAt, h]

theorem sumBy_put (s : Keyed key) (v : ν) :
    (s.put v).sumBy f = s.sumBy f - s.weightAt f (key v) + f v := by
  obtain ⟨records, sorted⟩ := s
  simp only [sumBy, weightAt, get?, put]
  induction records with
  | nil => simp [insertBy]
  | cons w rest ih =>
    have tail := (List.pairwise_cons.mp sorted).2
    simp only [insertBy]
    split_ifs with lt eq
    · -- `v` becomes the new first record: nothing had its key.
      rw [find?_below key sorted lt]
      simp only [List.map_cons, List.sum_cons, Option.map_none, Option.getD_none]
      omega
    · have found : (w :: rest).find? (fun x => key x = key v) = some w := by simp [eq]
      rw [found]
      simp only [List.map_cons, List.sum_cons, Option.map_some, Option.getD_some]
      omega
    · have skip : (w :: rest).find? (fun x => key x = key v) = rest.find? (fun x => key x = key v) := by
        simp [Ne.symm eq]
      rw [skip]
      simp only [List.map_cons, List.sum_cons, ih tail]
      omega

theorem sumBy_delete (s : Keyed key) (k : κ) :
    (s.delete k).sumBy f = s.sumBy f - s.weightAt f k := by
  obtain ⟨records, sorted⟩ := s
  simp only [sumBy, weightAt, get?, delete]
  induction records with
  | nil => simp
  | cons w rest ih =>
    rw [List.pairwise_cons] at sorted
    by_cases hw : key w = k
    · -- Keys are unique, so `w` is the only record the filter drops.
      have keep : rest.filter (fun x => !decide (key x = k)) = rest := by
        rw [List.filter_eq_self]
        intro x hx
        simpa [← hw] using ne_of_gt (sorted.1 x hx)
      simp [hw, keep]
    · simp only [List.filter_cons, hw, ne_eq, not_false_eq_true, decide_true, if_true,
        List.map_cons, List.sum_cons, List.find?_cons, decide_false, ih sorted.2]
      omega

end Weights

end Keyed

/-- Plain values under keys: pairs keyed by their first component. -/
abbrev Store (κ ν : Type) [LinearOrder κ] := Keyed (Prod.fst : κ × ν → κ)

namespace Store

def find? (s : Store κ ν) (k : κ) : Option ν := (s.get? k).map Prod.snd

def set (s : Store κ ν) (k : κ) (v : ν) : Store κ ν := s.put (k, v)

theorem find?_set (s : Store κ ν) (k : κ) (v : ν) (k' : κ) :
    (s.set k v).find? k' = if k = k' then some v else s.find? k' := by
  simp only [find?, set, Keyed.get?_put]
  split_ifs <;> rfl

end Store

end KVStore
