import Juno.Semantics.PrefixStore

/-! Paginated queries over the gov proposals.

The gov wrapper pages through a collection in the order of its encoded keys, either direction. A request
without a key starts at an offset and collects up to `limit` results the predicate
accepts; at the entry after the last of them it records the next key, and either stops
or, when asked for the total, goes on counting what the predicate accepts. A request
from a key collects from that key on, counting every entry it reads against the limit,
and stops at the first entry past it. An offset past the end gives an empty page.

A proposal whose messages name a type URL the codec no longer registers reads as an
error. The request without a key skips such entries. The request from a key stops with
the error when it reads such an entry's value (`next_page_fails_on_removed_proposal`);
its skip follows the key read, which never fails. When every value decodes, the first
page and the pages from each next key return every accepted entry once, in key order
(`pageThrough_matches`), provided, when paging backwards, that no key extends another.

A backward page from a key iterates up to `PrefixEndBytes` of the key, so it also visits the
keys that extend it, which an earlier page already returned. The proposals' keys are eight
bytes each, so none extends another; over keys that do, backward paging can return one entry
on every page and never pass it (`reverse_paging_repeats_longer_key`). The proposals
collection has no prefix.
-/

set_option autoImplicit false

namespace Juno.Gov

open KVStore

/-- An entry as the collection's iterator reads it: its key, and its value or the error
decoding the value gave. -/
structure Entry (K V : Type) where
  key : K
  value : Except String V

/-- A collection: its entries in increasing order of their encoded keys, as the store holds them. -/
abbrev Collection (K V : Type) (encode : K → Bytes) := Keyed fun entry : Entry K V => encode entry.key

structure PageRequest (K : Type) where
  key : Option K
  offset : Nat
  limit : Nat
  countTotal : Bool
  reverse : Bool

structure PageResponse (K : Type) where
  nextKey : Option K
  total : Nat
  deriving DecidableEq

/-- What a paging loop fails with: the invalid iterator of an offset past the end, or an error
of the collection, the predicate or the transform. -/
inductive PaginateError
  | invalidIterator
  | error (msg : String)

def defaultLimit : Nat := 100

/-- `initPageRequestDefaults`: no request is the empty one, and no limit is the default limit
with the total counted. -/
def initPageRequestDefaults {K : Type} (pageRequest : Option (PageRequest K)) : PageRequest K :=
  let pageRequest := pageRequest.getD ⟨none, 0, 0, false, false⟩
  if pageRequest.limit = 0 then { pageRequest with limit := defaultLimit, countTotal := true }
  else pageRequest

def stringsContains (s substr : String) : Bool :=
  decide (substr.toList <:+: s.toList)

def noConcreteType : String := "no concrete type registered for type URL"

section Loops

variable {K V T : Type} (predicate : Option (K → V → Except String Bool))
  (transform : K → V → Except String T)

/-- The first case of the loop without a key: read the entry and collect it when the predicate
accepts it, skipping a value of an unregistered type. -/
def collectEntry (entry : Entry K V) (count : Nat) (results : List T) : Except String (Nat × List T) :=
  match entry.value with
  | .error err => if stringsContains err noConcreteType then .ok (count, results) else .error err
  | .ok value =>
    match predicate with
    | none => do
      let transformed ← transform entry.key value
      pure (count + 1, results ++ [transformed])
    | some predicateFunc => do
      let included ← predicateFunc entry.key value
      if included then do
        let transformed ← transform entry.key value
        pure (count + 1, results ++ [transformed])
      else pure (count, results)

def countEntry (entry : Entry K V) (count : Nat) : Except String Nat :=
  match predicate with
  | none => .ok (count + 1)
  | some predicateFunc =>
    match entry.value with
    | .error err => if stringsContains err noConcreteType then .ok count else .error err
    | .ok value => do
      let included ← predicateFunc entry.key value
      pure (if included then count + 1 else count)

/-- The loop of `collFilteredPaginateNoKey` over the entries left after the offset. Reading a
key never fails: the proposals' keys are numbers. -/
def noKeyLoop (offset limit : Nat) (countTotal : Bool) :
    List (Entry K V) → Nat → Option K → List T → Except String (List T × PageResponse K)
  | [], count, nextKey, results => .ok (results, ⟨nextKey, if countTotal then count + offset else 0⟩)
  | entry :: rest, count, nextKey, results =>
    if count < limit then do
      let (count, results) ← collectEntry predicate transform entry count results
      noKeyLoop offset limit countTotal rest count nextKey results
    else if count = limit then
      -- the entry after the last result gives the next key; counting the total falls through
      if !countTotal then .ok (results, ⟨some entry.key, 0⟩)
      else do
        let count ← countEntry predicate entry count
        noKeyLoop offset limit countTotal rest count (some entry.key) results
    else do
      let count ← countEntry predicate entry count
      noKeyLoop offset limit countTotal rest count nextKey results

/-- The loop of `collFilteredPaginateByKey`: every entry read counts against the limit, and
an entry's value is read with no skip. -/
def byKeyLoop (limit : Nat) : List (Entry K V) → Nat → List T → Except String (List T × PageResponse K)
  | [], _, results => .ok (results, ⟨none, 0⟩)
  | entry :: rest, count, results =>
    if count = limit then .ok (results, ⟨some entry.key, 0⟩)
    else
      match entry.value with
      | .error err => .error err
      | .ok value =>
        match predicate with
        | none => do
          let transformed ← transform entry.key value
          byKeyLoop limit rest (count + 1) (results ++ [transformed])
        | some predicateFunc => do
          let included ← predicateFunc entry.key value
          if included then do
            let transformed ← transform entry.key value
            byKeyLoop limit rest (count + 1) (results ++ [transformed])
          else byKeyLoop limit rest (count + 1) results

end Loops

section Paginate

variable {K V T : Type} {encode : K → Bytes} (coll : Collection K V encode)
  (predicate : Option (K → V → Except String Bool)) (transform : K → V → Except String T)

def iterAll (reverse : Bool) : List (Entry K V) :=
  if reverse then coll.records.reverse else coll.records

/-- The entries `getCollIter` visits from `start`: ascending, those at or after it; descending,
those below `PrefixEndBytes` of it. -/
def iterFrom (reverse : Bool) (start : K) : List (Entry K V) :=
  if reverse then coll.records.reverse.filter fun entry => belowEnd (prefixEndBytes (encode start)) (encode entry.key)
  else coll.records.filter fun entry => encode start ≤ encode entry.key

def collFilteredPaginateNoKey (reverse : Bool) (offset limit : Nat) (countTotal : Bool) :
    Except PaginateError (List T × PageResponse K) :=
  let entries := iterAll coll reverse
  -- `advanceIter` runs out of entries
  if entries.length < offset then .error .invalidIterator
  else (noKeyLoop predicate transform offset limit countTotal (entries.drop offset) 0 none []).mapError .error

def collFilteredPaginateByKey (key : K) (reverse : Bool) (limit : Nat) :
    Except String (List T × PageResponse K) :=
  byKeyLoop predicate transform limit (iterFrom coll reverse key) 0 []

def collectionFilteredPaginate (pageReq : Option (PageRequest K)) : Except String (List T × PageResponse K) :=
  let pageReq := initPageRequestDefaults pageReq
  if 0 < pageReq.offset ∧ pageReq.key.isSome then
    .error "invalid request, either offset or key is expected, got both"
  else
    match pageReq.key with
    | some key => collFilteredPaginateByKey coll predicate transform key pageReq.reverse pageReq.limit
    | none =>
      match collFilteredPaginateNoKey coll predicate transform pageReq.reverse pageReq.offset pageReq.limit
          pageReq.countTotal with
      -- the invalid iterator is an empty page
      | .error .invalidIterator => .ok ([], ⟨none, 0⟩)
      | .error (.error err) => .error err
      | .ok page => .ok page

/-- A client paging through the collection: the first page without a key, then each next page
from the key the last one returned, for at most `pages` pages. -/
def pageThrough (limit : Nat) (reverse : Bool) : Nat → Option K → Except String (List T)
  | 0, _ => .ok []
  | pages + 1, key => do
    let (results, pageRes) ← collectionFilteredPaginate coll predicate transform (some ⟨key, 0, limit, false, reverse⟩)
    match pageRes.nextKey with
    | none => pure results
    | some nextKey => do
      let more ← pageThrough limit reverse pages (some nextKey)
      pure (results ++ more)

end Paginate

/-! ### Pages when every value decodes -/

section Decoded

variable {K V T : Type} (predicate : Option (K → V → Bool)) (f : K → V → T)

def liftPredicate : Option (K → V → Except String Bool) :=
  predicate.map fun included key value => .ok (included key value)

def liftTransform : K → V → Except String T := fun key value => .ok (f key value)

/-- What paging should return: each decoded entry the predicate accepts, transformed. -/
def accepted (entries : List (Entry K V)) : List T :=
  entries.filterMap fun entry =>
    match entry.value with
    | .ok value => if (predicate.getD fun _ _ => true) entry.key value then some (f entry.key value) else none
    | .error _ => none

theorem accepted_append (first second : List (Entry K V)) :
    accepted predicate f (first ++ second) = accepted predicate f first ++ accepted predicate f second :=
  List.filterMap_append

def Decoded (entries : List (Entry K V)) : Prop := ∀ e ∈ entries, ∃ value, e.value = .ok value

theorem byKeyLoop_decoded (limit : Nat) :
    ∀ (entries : List (Entry K V)) (count : Nat) (results : List T), Decoded entries → count ≤ limit →
      byKeyLoop (liftPredicate predicate) (liftTransform f) limit entries count results =
        .ok (results ++ accepted predicate f (entries.take (limit - count)),
          ⟨(entries.drop (limit - count)).head?.map Entry.key, 0⟩) := by
  intro entries
  induction entries with
  | nil => intro count results _ _; simp [byKeyLoop, accepted]
  | cons e rest ih =>
    intro count results decoded within
    obtain ⟨value, read⟩ := decoded e List.mem_cons_self
    have later := fun c r (le : c ≤ limit) => ih c r (fun e' mem => decoded e' (List.mem_cons_of_mem e mem)) le
    by_cases full : count = limit
    · subst full
      simp [byKeyLoop, accepted]
    · -- one more entry is read: `limit - count` is one more than what is left after it
      have left : limit - count = limit - (count + 1) + 1 := by omega
      rw [left, List.take_succ_cons, List.drop_succ_cons]
      have next := later (count + 1)
      cases predicate with
      | none =>
        simp only [liftPredicate, Option.map_none] at next ⊢
        simp [byKeyLoop, full, read, liftTransform, bind, Except.bind, next _ (by omega), accepted]
      | some included =>
        simp only [liftPredicate, Option.map_some] at next ⊢
        by_cases accepts : included e.key value = true
        · simp [byKeyLoop, full, read, liftTransform, accepts, bind, Except.bind, next _ (by omega), accepted]
        · simp [byKeyLoop, full, read, accepts, bind, Except.bind, next _ (by omega), accepted]

theorem noKeyLoop_decoded (offset limit : Nat) :
    ∀ (entries : List (Entry K V)) (count : Nat) (results : List T), Decoded entries → count ≤ limit →
      ∃ scanned rest, entries = scanned ++ rest ∧ (count < limit → rest ≠ [] → scanned ≠ []) ∧
        noKeyLoop (liftPredicate predicate) (liftTransform f) offset limit false entries count none results =
          .ok (results ++ accepted predicate f scanned, ⟨rest.head?.map Entry.key, 0⟩) := by
  intro entries
  induction entries with
  | nil => intro count results _ _; exact ⟨[], [], rfl, by simp, by simp [noKeyLoop, accepted]⟩
  | cons e rest ih =>
    intro count results decoded within
    obtain ⟨value, read⟩ := decoded e List.mem_cons_self
    have later := fun c r (le : c ≤ limit) => ih c r (fun e' mem => decoded e' (List.mem_cons_of_mem e mem)) le
    by_cases room : count < limit
    · -- the entry is read and collected when accepted; the scan goes on from the rest
      have collected : ∃ c, c ≤ limit ∧ collectEntry (liftPredicate predicate) (liftTransform f) e count results =
          .ok (c, results ++ accepted predicate f [e]) := by
        cases predicate with
        | none =>
          exact ⟨count + 1, by omega, by simp [collectEntry, read, liftPredicate, liftTransform, accepted, bind,
            Except.bind, pure, Except.pure]⟩
        | some included =>
          by_cases accepts : included e.key value = true
          · exact ⟨count + 1, by omega, by simp [collectEntry, read, liftPredicate, liftTransform, accepts, accepted,
              bind, Except.bind, pure, Except.pure]⟩
          · exact ⟨count, by omega, by simp [collectEntry, read, liftPredicate, accepts, accepted,
              bind, Except.bind, pure, Except.pure]⟩
      obtain ⟨c, le, step⟩ := collected
      obtain ⟨scanned, left, split, progress, loop⟩ := later c (results ++ accepted predicate f [e]) le
      refine ⟨e :: scanned, left, by rw [split]; rfl, fun _ _ => List.cons_ne_nil _ _, ?_⟩
      simp only [noKeyLoop, room, if_true, step, bind, Except.bind, loop]
      rw [show e :: scanned = [e] ++ scanned from rfl, accepted_append, List.append_assoc]
    · have full : count = limit := by omega
      refine ⟨[], e :: rest, rfl, fun below => absurd below room, ?_⟩
      simp [noKeyLoop, full, accepted]

end Decoded

/-! ### Paging through a collection -/

section Run

variable {K V T : Type} {encode : K → Bytes} (coll : Collection K V encode)

/-- No stored key's encoding extends another's, as holds for keys of one fixed width. -/
def PrefixFree : Prop :=
  ∀ a ∈ coll.records, ∀ b ∈ coll.records, encode a.key <+: encode b.key → encode a.key = encode b.key

theorem prefixFree_of_width (width : Nat) (fixed : ∀ key, (encode key).length = width) :
    PrefixFree coll := fun a _ b _ longer => longer.eq_of_length (by rw [fixed, fixed])

theorem filter_of_pairwise_split {α : Type} {r : α → α → Prop} {q : α → Bool} {before after : List α} {x : α}
    (ordered : (before ++ x :: after).Pairwise r) (kept : q x = true)
    (dropsBefore : ∀ a ∈ before, r a x → q a = false) (keepsAfter : ∀ b ∈ after, r x b → q b = true) :
    (before ++ x :: after).filter q = x :: after := by
  rw [List.pairwise_append, List.pairwise_cons] at ordered
  obtain ⟨-, ⟨later, -⟩, earlier⟩ := ordered
  have none : before.filter q = [] :=
    List.filter_eq_nil_iff.mpr fun a mem => by simp [dropsBefore a mem (earlier a mem x List.mem_cons_self)]
  have all : after.filter q = after := List.filter_eq_self.mpr fun b mem => keepsAfter b mem (later b mem)
  rw [List.filter_append, none, List.filter_cons_of_pos kept, all, List.nil_append]

/-- A page that stopped at an entry is continued from its key: iterating from it visits that
entry and what followed it. Backwards this needs that no key extends the entry's, since the
bound `PrefixEndBytes` lets those back in. -/
theorem iterFrom_split (reverse : Bool) (prefixFree : reverse = true → PrefixFree coll)
    {before after : List (Entry K V)} {e : Entry K V}
    (split : iterAll coll reverse = before ++ e :: after) : iterFrom coll reverse e.key = e :: after := by
  cases reverse with
  | false =>
    simp only [iterAll, Bool.false_eq_true, if_false] at split
    have ordered := coll.sorted
    simp only [iterFrom, Bool.false_eq_true, if_false]
    rw [split] at ordered ⊢
    exact filter_of_pairwise_split ordered (by simp) (fun a _ below => by simpa using below)
      (fun b _ above => by simpa using above.le)
  | true =>
    simp only [iterAll, if_true] at split
    have ordered : coll.records.reverse.Pairwise (fun a b => encode b.key < encode a.key) :=
      List.pairwise_reverse.mpr coll.sorted
    have stored : ∀ x ∈ before ++ e :: after, x ∈ coll.records := fun x mem =>
      List.mem_reverse.mp (split ▸ mem)
    have eStored := stored e (List.mem_append_right before List.mem_cons_self)
    simp only [iterFrom, if_true]
    rw [split] at ordered ⊢
    refine filter_of_pairwise_split ordered ((belowEnd_prefixEndBytes _ _).mpr (.inr (List.prefix_refl _)))
      (fun a mem above => ?_) (fun b _ below => (belowEnd_prefixEndBytes _ _).mpr (.inl below))
    -- a key above `e`'s is past the bound unless it extends `e`'s, which prefix-freedom excludes
    rw [← Bool.not_eq_true, belowEnd_prefixEndBytes]
    rintro (below | longer)
    · exact lt_asymm above below
    · have same := prefixFree rfl e eStored a (stored a (List.mem_append_left _ mem)) longer
      exact lt_irrefl _ (same ▸ above)

theorem decoded_of_split (reverse : Bool) {before after : List (Entry K V)} {e : Entry K V}
    (decoded : Decoded (iterAll coll reverse)) (split : iterAll coll reverse = before ++ e :: after) :
    Decoded (e :: after) :=
  fun x mem => decoded x (split ▸ List.mem_append_right before mem)

variable (predicate : Option (K → V → Except String Bool)) (transform : K → V → Except String T)

theorem collectionFilteredPaginate_first {limit : Nat} (pos : 0 < limit) (reverse : Bool) :
    collectionFilteredPaginate coll predicate transform (some ⟨none, 0, limit, false, reverse⟩) =
      noKeyLoop predicate transform 0 limit false (iterAll coll reverse) 0 none [] := by
  have limited : limit ≠ 0 := by omega
  simp only [collectionFilteredPaginate, initPageRequestDefaults, Option.getD_some, limited, if_false,
    lt_self_iff_false, false_and, collFilteredPaginateNoKey, Nat.not_lt_zero, List.drop_zero]
  cases noKeyLoop predicate transform 0 limit false (iterAll coll reverse) 0 none [] <;> rfl

theorem collectionFilteredPaginate_next {limit : Nat} (pos : 0 < limit) (reverse : Bool) (key : K) :
    collectionFilteredPaginate coll predicate transform (some ⟨some key, 0, limit, false, reverse⟩) =
      byKeyLoop predicate transform limit (iterFrom coll reverse key) 0 [] := by
  have limited : limit ≠ 0 := by omega
  simp [collectionFilteredPaginate, initPageRequestDefaults, limited, collFilteredPaginateByKey]

end Run

section Through

variable {K V T : Type} {encode : K → Bytes} (coll : Collection K V encode) (predicate : Option (K → V → Bool))
  (f : K → V → T) {limit : Nat} (pos : 0 < limit) (reverse : Bool)
include pos

/-- From an entry a page stopped at, the pages left return the accepted entries from it on.
The induction is on the pages left; each page reads at least one entry. -/
theorem pageThrough_from (decoded : Decoded (iterAll coll reverse))
    (prefixFree : reverse = true → PrefixFree coll) :
    ∀ (pages : Nat) (before after : List (Entry K V)) (e : Entry K V),
      iterAll coll reverse = before ++ e :: after → after.length < pages →
      pageThrough coll (liftPredicate predicate) (liftTransform f) limit reverse pages (some e.key) =
        .ok (accepted predicate f (e :: after)) := by
  intro pages
  induction pages with
  | zero => intro _ _ _ _ short; omega
  | succ pages ih =>
    intro before after e split short
    have page := byKeyLoop_decoded predicate f limit (e :: after) 0 []
      (decoded_of_split coll reverse decoded split) (Nat.zero_le _)
    rw [Nat.sub_zero, List.nil_append] at page
    simp only [pageThrough, collectionFilteredPaginate_next coll _ _ pos, iterFrom_split coll reverse prefixFree split, page,
      bind, Except.bind]
    cases rest : (e :: after).drop limit with
    | nil =>
      have all : (e :: after).take limit = e :: after := List.take_of_length_le (List.drop_eq_nil_iff.mp rest)
      simp [all, pure, Except.pure]
    | cons e' after' =>
      -- the next page starts at `e'`, past what this page read
      have whole := List.take_append_drop limit (e :: after)
      rw [rest] at whole
      have resplit : iterAll coll reverse = (before ++ (e :: after).take limit) ++ e' :: after' := by
        rw [split, List.append_assoc, whole]
      have lengths := congrArg List.length rest
      simp only [List.length_drop, List.length_cons] at lengths
      have more := ih _ after' e' resplit (by omega)
      simp only [Option.map_some, List.head?_cons, more, pure, Except.pure]
      rw [← accepted_append, whole]

/-- When every value decodes and the predicate and the transform do not fail, the first page and
the pages from each next key return every accepted entry once, in the order of the iteration,
given a page for each entry; backwards, when no key extends another. -/
theorem pageThrough_matches (decoded : Decoded coll.records) (prefixFree : reverse = true → PrefixFree coll)
    (pages : Nat) (enough : coll.records.length < pages) :
    pageThrough coll (liftPredicate predicate) (liftTransform f) limit reverse pages none =
      .ok (accepted predicate f (iterAll coll reverse)) := by
  have decodedAll : Decoded (iterAll coll reverse) := by
    intro x mem
    cases reverse <;> simp only [iterAll, Bool.false_eq_true, if_false, if_true, List.mem_reverse] at mem <;>
      exact decoded x mem
  have total : (iterAll coll reverse).length = coll.records.length := by
    cases reverse <;> simp [iterAll]
  obtain ⟨pages, rfl⟩ : ∃ p, pages = p + 1 := ⟨pages - 1, by omega⟩
  obtain ⟨scanned, rest, split, progress, first⟩ :=
    noKeyLoop_decoded predicate f 0 limit (iterAll coll reverse) 0 [] decodedAll (Nat.zero_le _)
  rw [List.nil_append] at first
  simp only [pageThrough, collectionFilteredPaginate_first coll _ _ pos, first, bind, Except.bind]
  cases rest with
  | nil => simp [split, pure, Except.pure]
  | cons e after =>
    -- the first page read at least one entry, so the pages left cover the rest
    have read := progress pos (List.cons_ne_nil _ _)
    have lengths := congrArg List.length split
    have short : after.length < pages := by
      have : 0 < scanned.length := List.length_pos_iff.mpr read
      simp only [List.length_append, List.length_cons] at lengths
      omega
    simp only [Option.map_some, List.head?_cons, pageThrough_from coll predicate f pos reverse decodedAll prefixFree pages
      scanned after e split short, pure, Except.pure]
    rw [split, accepted_append]

end Through

/-- `collections.Uint64Key`, the proposals' key: the id in eight bytes, big-endian. -/
def uint64Key (id : Nat) : Bytes :=
  [56, 48, 40, 32, 24, 16, 8, 0].map fun shift => byte (id >>> shift)

theorem length_uint64Key (id : Nat) : (uint64Key id).length = 8 := rfl

def liveProposals : Collection Nat String uint64Key :=
  ⟨[⟨1, .ok "proposal 1"⟩, ⟨2, .ok "proposal 2"⟩, ⟨3, .ok "proposal 3"⟩], by decide⟩

theorem live_proposals_paged_one_by_one :
    (0 < 1 ∧ Decoded liveProposals.records ∧ (true = true → PrefixFree liveProposals) ∧
        liveProposals.records.length < 4) ∧
      pageThrough liveProposals (liftPredicate (none : Option (Nat → String → Bool)))
        (liftTransform fun _ proposal => proposal) 1 true 4 none = .ok ["proposal 3", "proposal 2", "proposal 1"] := by
  have decoded : Decoded liveProposals.records := by
    intro e mem
    simp only [liveProposals, List.mem_cons, List.not_mem_nil, or_false] at mem
    rcases mem with rfl | rfl | rfl <;> exact ⟨_, rfl⟩
  have prefixFree : true = true → PrefixFree liveProposals := fun _ =>
    prefixFree_of_width liveProposals 8 length_uint64Key
  exact ⟨⟨by decide, decoded, prefixFree, by decide⟩,
    (pageThrough_matches liveProposals none (fun _ proposal => proposal) (by decide) true decoded prefixFree 4
      (by decide)).trans (by decide)⟩

/-! Two entries whose keys extend one another, `[1]` and `[1, 0]`, paged backwards one at a
time: each page from the key `[1]` iterates up to `[2]`, so it meets `[1, 0]` first again. -/

def longerKeyEntries : Collection Bytes String id :=
  ⟨[⟨[byte 1], .ok "short"⟩, ⟨[byte 1, byte 0], .ok "long"⟩], by decide⟩

theorem longerKeyEntries_page_from_short :
    collectionFilteredPaginate longerKeyEntries none (liftTransform fun _ v => v) (some ⟨some [1], 0, 1, false, true⟩) =
      .ok (["long"], ⟨some [1], 0⟩) := by
  decide

/-- Paging backwards through keys that extend one another returns the longer key's entry on
every page and never reaches the shorter key's. The induction is on the pages left. -/
theorem reverse_paging_repeats_longer_key (pages : Nat) :
    pageThrough longerKeyEntries (liftPredicate none) (liftTransform fun _ v => v) 1 true (pages + 1) none =
      .ok (List.replicate (pages + 1) "long") := by
  have first : collectionFilteredPaginate longerKeyEntries none (liftTransform fun _ v => v)
      (some ⟨none, 0, 1, false, true⟩) = .ok (["long"], ⟨some [1], 0⟩) := by
    decide
  have later : ∀ n, pageThrough longerKeyEntries none (liftTransform fun _ v => v) 1 true n (some [1]) =
      .ok (List.replicate n "long") := by
    intro n
    induction n with
    | zero => rfl
    | succ n ih =>
      simp only [pageThrough, longerKeyEntries_page_from_short, ih, bind, Except.bind, pure, Except.pure]
      rfl
  simp only [pageThrough, liftPredicate, Option.map_none, first, later, bind, Except.bind, pure, Except.pure]
  rfl

/-! Three proposals, the second of which carries a message of a module since removed, paged
one at a time in key order. -/

def removedTypeError : String :=
  "no concrete type registered for type URL /pob.builder.v1.MsgUpdateParams against interface *types.Msg"

def removedProposals : Collection Nat String uint64Key :=
  ⟨[⟨1, .ok "proposal 1"⟩, ⟨2, .error removedTypeError⟩, ⟨3, .ok "proposal 3"⟩], by decide⟩

def keepProposal (_ : Nat) (proposal : String) : Except String String := .ok proposal

theorem next_page_fails_on_removed_proposal :
    collectionFilteredPaginate removedProposals none keepProposal (some ⟨none, 0, 1, false, false⟩) =
      .ok (["proposal 1"], ⟨some 2, 0⟩) ∧
    collectionFilteredPaginate removedProposals none keepProposal (some ⟨some 2, 0, 1, false, false⟩) =
      .error removedTypeError := by
  constructor <;> decide

end Juno.Gov
