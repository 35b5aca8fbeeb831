import Juno.TokenFactory.Authority
import Juno.Semantics.PrefixStore
import Juno.Semantics.Atomic

/-! The tokenfactory store layout.

All state of the module lives in one key-value store, under keys that join text with the
separator `|`: a denomination's authority metadata under `denoms|{denom}|authoritymetadata`,
the creator index under `creator|{creator}|{denom}` (holding the denomination), and the
parameters under the one byte `0x00`.

The kinds of key never meet: they differ in their first character, and the denomination is
cut out of a metadata key by its fixed ends, whatever characters it has. A creator's prefix
covers no index key of another creator when neither contains `|`, which holds of all text a
bech32 codec accepts. So every read returns what the last write to its own record wrote
(`store_layout_collision_free`).

Keys are sequences of characters; the store compares the bytes of their UTF-8 text, which
orders them the same way. The store holds bytes, and here a record is one of the three
kinds of value: bytes of another kind do not unmarshal as authority metadata.
-/

set_option autoImplicit false

namespace Juno.TokenFactory

open Sdk KVStore

def keySeparator : String := "|"

def denomAuthorityMetadataKey : String := "authoritymetadata"

def denomsPrefixKey : String := "denoms"

def creatorPrefixKey : String := "creator"

def paramsKey : List Char := [Char.ofNat 0]

/-- `GetDenomPrefixStore`: `strings.Join([DenomsPrefixKey, denom, ""], KeySeparator)`. -/
def getDenomPrefixStore (denom : String) : String :=
  keySeparator.intercalate [denomsPrefixKey, denom, ""]

/-- `GetCreatorPrefix`: `strings.Join([CreatorPrefixKey, creator, ""], KeySeparator)`. -/
def getCreatorPrefix (creator : String) : String :=
  keySeparator.intercalate [creatorPrefixKey, creator, ""]

/-- A record of the module store. -/
inductive Record
  | authorityMetadata (admin : String)
  | denom (denom : String)
  | params (params : Params)

abbrev ModuleStore := Store (List Char) Record

namespace Layout

/-- `GetAuthorityMetadata`: no bytes unmarshal to the empty admin. -/
def getAuthorityMetadata (store : ModuleStore) (denom : String) : Except String String :=
  match store.find? ((getDenomPrefixStore denom).toList ++ denomAuthorityMetadataKey.toList) with
  | none => .ok ""
  | some (.authorityMetadata admin) => .ok admin
  | some _ => .error "proto: illegal wire type"

def setAuthorityMetadata (codec : Bech32) (store : ModuleStore) (denom admin : String) :
    Except String ModuleStore :=
  if admin ≠ "" ∧ (codec.decode admin).isNone then .error ("decoding bech32 failed: " ++ admin)
  else .ok (store.set ((getDenomPrefixStore denom).toList ++ denomAuthorityMetadataKey.toList)
    (.authorityMetadata admin))

def addDenomFromCreator (store : ModuleStore) (creator denom : String) : ModuleStore :=
  store.set ((getCreatorPrefix creator).toList ++ denom.toList) (.denom denom)

/-- `GetDenomsFromCreator`: the keys of the creator's prefix store, as text. -/
def getDenomsFromCreator (store : ModuleStore) (creator : String) : List String :=
  (store.prefixKeys (getCreatorPrefix creator).toList).map String.ofList

def setParams (store : ModuleStore) (params : Params) : ModuleStore :=
  store.set paramsKey (.params params)

/-- The writes the keeper makes to its store. -/
inductive Write
  | setAuthorityMetadata (denom admin : String)
  | addDenomFromCreator (creator denom : String)
  | setParams (params : Params)

def Write.apply (codec : Bech32) (store : ModuleStore) : Write → Except String ModuleStore
  | .setAuthorityMetadata denom admin => Layout.setAuthorityMetadata codec store denom admin
  | .addDenomFromCreator creator denom => .ok (Layout.addDenomFromCreator store creator denom)
  | .setParams params => .ok (Layout.setParams store params)

/-- The keeper indexes denominations under creators that decode: the sender of
`MsgCreateDenom`, or the creator read back from a genesis denomination. -/
def Write.Valid (codec : Bech32) : Write → Prop
  | .addDenomFromCreator creator _ => (codec.decode creator).isSome
  | _ => True

def Write.adminOf (codec : Bech32) (denom : String) : Write → Option String
  | .setAuthorityMetadata d admin =>
    if d = denom ∧ ¬(admin ≠ "" ∧ (codec.decode admin).isNone) then some admin else none
  | _ => none

/-! ### The keys -/

theorem toList_getDenomPrefixStore (denom : String) :
    (getDenomPrefixStore denom).toList = "denoms|".toList ++ denom.toList ++ ['|'] := by
  simp [getDenomPrefixStore, keySeparator, denomsPrefixKey]

theorem toList_getCreatorPrefix (creator : String) :
    (getCreatorPrefix creator).toList = "creator|".toList ++ creator.toList ++ ['|'] := by
  simp [getCreatorPrefix, keySeparator, creatorPrefixKey]

theorem authorityKey_inj {d₁ d₂ : String}
    (h : (getDenomPrefixStore d₁).toList ++ denomAuthorityMetadataKey.toList =
      (getDenomPrefixStore d₂).toList ++ denomAuthorityMetadataKey.toList) : d₁ = d₂ := by
  rw [toList_getDenomPrefixStore, toList_getDenomPrefixStore, List.append_cancel_right_eq,
    List.append_cancel_right_eq] at h
  exact String.toList_injective (List.append_cancel_left h)

theorem authorityKey_ne_creatorKey (d creator denom : String) :
    (getDenomPrefixStore d).toList ++ denomAuthorityMetadataKey.toList ≠
      (getCreatorPrefix creator).toList ++ denom.toList := by
  rw [toList_getDenomPrefixStore, toList_getCreatorPrefix]
  simp

theorem authorityKey_ne_paramsKey (d : String) :
    (getDenomPrefixStore d).toList ++ denomAuthorityMetadataKey.toList ≠ paramsKey := by
  rw [toList_getDenomPrefixStore]
  simp [paramsKey]

theorem creatorKey_ne_paramsKey (creator denom : String) :
    (getCreatorPrefix creator).toList ++ denom.toList ≠ paramsKey := by
  rw [toList_getCreatorPrefix]
  simp [paramsKey]

section Creators

variable {codec : Bech32} (alphanumeric : codec.Alphanumeric)
include alphanumeric

theorem separator_not_mem {creator : String} (decoded : (codec.decode creator).isSome) :
    '|' ∉ creator.toList := by
  obtain ⟨a, found⟩ := Option.isSome_iff_exists.mp decoded
  exact alphanumeric.not_mem found (by decide)

theorem creator_eq_of_prefix {c₁ c₂ denom : String} (decoded₁ : (codec.decode c₁).isSome)
    (decoded₂ : (codec.decode c₂).isSome)
    (h : (getCreatorPrefix c₁).toList <+: (getCreatorPrefix c₂).toList ++ denom.toList) : c₁ = c₂ := by
  rw [toList_getCreatorPrefix, toList_getCreatorPrefix, List.append_assoc, List.append_assoc,
    List.append_assoc, List.prefix_append_right_inj, List.singleton_append] at h
  exact String.toList_injective (eq_of_prefix_of_separator (separator_not_mem alphanumeric decoded₁)
    (separator_not_mem alphanumeric decoded₂) h)

theorem creatorKey_eq_iff {c₁ c₂ d₁ d₂ : String} (decoded₁ : (codec.decode c₁).isSome)
    (decoded₂ : (codec.decode c₂).isSome) :
    (getCreatorPrefix c₁).toList ++ d₁.toList = (getCreatorPrefix c₂).toList ++ d₂.toList ↔
      c₁ = c₂ ∧ d₁ = d₂ := by
  constructor
  · intro same
    have creators : c₁ = c₂ :=
      creator_eq_of_prefix alphanumeric decoded₁ decoded₂ (same ▸ List.prefix_append _ _)
    subst creators
    exact ⟨rfl, String.toList_injective (List.append_cancel_left same)⟩
  · rintro ⟨rfl, rfl⟩
    rfl

end Creators

/-! ### Reads after writes -/

theorem mem_getDenomsFromCreator (store : ModuleStore) (creator denom : String) :
    denom ∈ getDenomsFromCreator store creator ↔
      (store.find? ((getCreatorPrefix creator).toList ++ denom.toList)).isSome := by
  rw [getDenomsFromCreator, List.mem_map, ← Store.mem_prefixKeys]
  constructor
  · rintro ⟨key, mem, rfl⟩
    rwa [String.toList_ofList]
  · intro mem
    exact ⟨denom.toList, mem, String.ofList_toList⟩

theorem commit_setAuthorityMetadata (codec : Bech32) (store : ModuleStore) (d admin : String) :
    Atomic.commit (Write.apply codec) store (.setAuthorityMetadata d admin) =
      if admin ≠ "" ∧ (codec.decode admin).isNone then store
      else store.set ((getDenomPrefixStore d).toList ++ denomAuthorityMetadataKey.toList)
        (.authorityMetadata admin) := by
  by_cases rejected : admin ≠ "" ∧ (codec.decode admin).isNone
  · rw [if_pos rejected]
    exact Atomic.commit_of_error (by rw [Write.apply, setAuthorityMetadata, if_pos rejected])
  · rw [if_neg rejected]
    exact Atomic.commit_of_ok (by rw [Write.apply, setAuthorityMetadata, if_neg rejected])

theorem getAuthorityMetadata_commit (codec : Bech32) (store : ModuleStore) (w : Write) (denom : String) :
    getAuthorityMetadata (Atomic.commit (Write.apply codec) store w) denom =
      match w.adminOf codec denom with
      | some admin => .ok admin
      | none => getAuthorityMetadata store denom := by
  cases w with
  | setAuthorityMetadata d admin =>
    rw [commit_setAuthorityMetadata]
    by_cases rejected : admin ≠ "" ∧ (codec.decode admin).isNone
    · have nothing : (Write.setAuthorityMetadata d admin).adminOf codec denom = none := by
        rw [Write.adminOf, if_neg (fun accepted => accepted.2 rejected)]
      rw [if_pos rejected, nothing]
    · rw [if_neg rejected]
      by_cases same : d = denom
      · subst same
        have recorded : (Write.setAuthorityMetadata d admin).adminOf codec d = some admin := by
          rw [Write.adminOf, if_pos ⟨rfl, rejected⟩]
        simp [getAuthorityMetadata, Store.find?_set, recorded]
      · have apart := mt authorityKey_inj same
        have nothing : (Write.setAuthorityMetadata d admin).adminOf codec denom = none := by
          rw [Write.adminOf, if_neg (fun accepted => same accepted.1)]
        simp [getAuthorityMetadata, Store.find?_set, nothing, apart]
  | addDenomFromCreator creator d =>
    have apart := (authorityKey_ne_creatorKey denom creator d).symm
    simp [Atomic.commit, Write.apply, addDenomFromCreator, getAuthorityMetadata, Store.find?_set, apart,
      Write.adminOf]
  | setParams params =>
    have apart := (authorityKey_ne_paramsKey denom).symm
    simp [Atomic.commit, Write.apply, setParams, getAuthorityMetadata, Store.find?_set, apart, Write.adminOf]

theorem getAuthorityMetadata_execute_of_none (codec : Bech32) (denom : String) :
    ∀ (store : ModuleStore) (ws : List Write), (∀ w ∈ ws, w.adminOf codec denom = none) →
      getAuthorityMetadata (Atomic.execute (Write.apply codec) store ws) denom =
        getAuthorityMetadata store denom := by
  intro store ws
  induction ws generalizing store with
  | nil => intro _; rfl
  | cons w ws ih =>
    intro untouched
    rw [Atomic.execute_cons, ih _ (fun w' mem => untouched w' (List.mem_cons_of_mem w mem)),
      getAuthorityMetadata_commit, untouched w List.mem_cons_self]

theorem mem_getDenomsFromCreator_commit {codec : Bech32} (alphanumeric : codec.Alphanumeric)
    (store : ModuleStore) {w : Write} (valid : w.Valid codec) {creator : String}
    (decoded : (codec.decode creator).isSome) (denom : String) :
    denom ∈ getDenomsFromCreator (Atomic.commit (Write.apply codec) store w) creator ↔
      denom ∈ getDenomsFromCreator store creator ∨ w = .addDenomFromCreator creator denom := by
  rw [mem_getDenomsFromCreator, mem_getDenomsFromCreator]
  cases w with
  | setAuthorityMetadata d admin =>
    rw [commit_setAuthorityMetadata]
    split_ifs
    · simp
    · simp [Store.find?_set, authorityKey_ne_creatorKey d creator denom]
  | addDenomFromCreator c d =>
    have same := @creatorKey_eq_iff codec alphanumeric c creator d denom valid decoded
    simp only [Atomic.commit, Write.apply, addDenomFromCreator, Store.find?_set, Write.addDenomFromCreator.injEq]
    split_ifs with written
    · simp [(same.mp written).1, (same.mp written).2]
    · have other : ¬(c = creator ∧ d = denom) := fun both => written (same.mpr both)
      simp [other]
  | setParams params =>
    have apart := (creatorKey_ne_paramsKey creator denom).symm
    simp [Atomic.commit, Write.apply, setParams, Store.find?_set, apart]

/-- Over a run of valid writes, a valid creator's denominations are those it had and those a
write indexed under it. The induction is on the run, one committed write at a time. -/
theorem mem_getDenomsFromCreator_execute {codec : Bech32} (alphanumeric : codec.Alphanumeric)
    {creator : String} (decoded : (codec.decode creator).isSome) (denom : String) :
    ∀ (store : ModuleStore) (ws : List Write), (∀ w ∈ ws, w.Valid codec) →
      (denom ∈ getDenomsFromCreator (Atomic.execute (Write.apply codec) store ws) creator ↔
        denom ∈ getDenomsFromCreator store creator ∨ .addDenomFromCreator creator denom ∈ ws) := by
  intro store ws
  induction ws generalizing store with
  | nil => intro _; simp
  | cons w ws ih =>
    intro valid
    rw [Atomic.execute_cons, ih _ (fun w' mem => valid w' (List.mem_cons_of_mem w mem)),
      mem_getDenomsFromCreator_commit alphanumeric store (valid w List.mem_cons_self) decoded, List.mem_cons,
      or_assoc, @eq_comm _ w]

theorem getDenomsFromCreator_nodup (store : ModuleStore) (creator : String) :
    (getDenomsFromCreator store creator).Nodup :=
  ((store.prefixKeys_sorted _).nodup).map (fun _ _ same => String.ofList_injective same)

theorem getAuthorityMetadata_execute_last (codec : Bech32) (store : ModuleStore) {pre post : List Write}
    {w : Write} {denom admin : String} (recorded : w.adminOf codec denom = some admin)
    (untouched : ∀ w' ∈ post, w'.adminOf codec denom = none) :
    getAuthorityMetadata (Atomic.execute (Write.apply codec) store (pre ++ w :: post)) denom = .ok admin := by
  rw [Atomic.execute_append, Atomic.execute_cons, getAuthorityMetadata_execute_of_none codec denom _ post untouched,
    getAuthorityMetadata_commit, recorded]

/-- The metadata keys of distinct denominations, the creator index keys and the parameters key
are all distinct, and a creator's prefix covers only its own index keys. So, over any run of
the keeper's writes, a denomination's authority metadata is what the last accepted write of it
stored, and a creator's denominations are exactly those indexed under it, each once. -/
theorem store_layout_collision_free (codec : Bech32) (alphanumeric : codec.Alphanumeric) :
    (∀ d₁ d₂ : String, d₁ ≠ d₂ →
      (getDenomPrefixStore d₁).toList ++ denomAuthorityMetadataKey.toList ≠
        (getDenomPrefixStore d₂).toList ++ denomAuthorityMetadataKey.toList) ∧
    (∀ d creator denom : String, (getDenomPrefixStore d).toList ++ denomAuthorityMetadataKey.toList ≠
      (getCreatorPrefix creator).toList ++ denom.toList) ∧
    (∀ d : String, (getDenomPrefixStore d).toList ++ denomAuthorityMetadataKey.toList ≠ paramsKey) ∧
    (∀ c₁ c₂ denom : String, (codec.decode c₁).isSome → (codec.decode c₂).isSome →
      (getCreatorPrefix c₁).toList <+: (getCreatorPrefix c₂).toList ++ denom.toList → c₁ = c₂) ∧
    ∀ (store : ModuleStore) (ws : List Write), (∀ w ∈ ws, w.Valid codec) →
      (∀ (denom admin : String) (pre post : List Write) (w : Write), ws = pre ++ w :: post →
        w.adminOf codec denom = some admin → (∀ w' ∈ post, w'.adminOf codec denom = none) →
        getAuthorityMetadata (Atomic.execute (Write.apply codec) store ws) denom = .ok admin) ∧
      (∀ denom : String, (∀ w ∈ ws, w.adminOf codec denom = none) →
        getAuthorityMetadata (Atomic.execute (Write.apply codec) store ws) denom =
          getAuthorityMetadata store denom) ∧
      (∀ creator : String, (codec.decode creator).isSome →
        (∀ denom : String, denom ∈ getDenomsFromCreator (Atomic.execute (Write.apply codec) store ws) creator ↔
          denom ∈ getDenomsFromCreator store creator ∨ .addDenomFromCreator creator denom ∈ ws) ∧
        (getDenomsFromCreator (Atomic.execute (Write.apply codec) store ws) creator).Nodup) := by
  refine ⟨fun d₁ d₂ distinct same => distinct (authorityKey_inj same), authorityKey_ne_creatorKey,
    authorityKey_ne_paramsKey, fun c₁ c₂ denom => creator_eq_of_prefix alphanumeric, ?_⟩
  intro store ws valid
  refine ⟨?_, fun denom => getAuthorityMetadata_execute_of_none codec denom store ws, ?_⟩
  · rintro denom admin pre post w rfl recorded untouched
    exact getAuthorityMetadata_execute_last codec store recorded untouched
  · intro creator decoded
    exact ⟨fun denom => mem_getDenomsFromCreator_execute alphanumeric decoded denom store ws valid,
      getDenomsFromCreator_nodup _ creator⟩

def alphanumericCodec : Bech32 :=
  ⟨fun s => if s.toList.all Char.isAlphanum then some s else none, by
    intro s a decoded
    split_ifs at decoded with letters
    cases decoded
    exact if_pos letters, textBytes, textBytes_injective⟩

theorem alphanumeric_alphanumericCodec : alphanumericCodec.Alphanumeric := by
  intro s a decoded c mem
  simp only [alphanumericCodec] at decoded
  split_ifs at decoded with letters
  exact List.all_eq_true.mp letters c mem

/-! Two creators each index a denomination; alice's listing shows hers. -/

def twoCreators : List Write :=
  [.addDenomFromCreator "juno1alice" "factory/juno1alice/x", .addDenomFromCreator "juno1bob" "factory/juno1bob/y"]

theorem alice_lists_own_denom :
    alphanumericCodec.Alphanumeric ∧
      "factory/juno1alice/x" ∈ getDenomsFromCreator
        (Atomic.execute (Write.apply alphanumericCodec) Keyed.empty twoCreators) "juno1alice" := by
  have valid : ∀ w ∈ twoCreators, w.Valid alphanumericCodec := by
    intro w mem
    simp only [twoCreators, List.mem_cons, List.not_mem_nil, or_false] at mem
    rcases mem with rfl | rfl
    · exact (by decide : (alphanumericCodec.decode "juno1alice").isSome = true)
    · exact (by decide : (alphanumericCodec.decode "juno1bob").isSome = true)
  refine ⟨alphanumeric_alphanumericCodec, ?_⟩
  exact (((store_layout_collision_free alphanumericCodec alphanumeric_alphanumericCodec).2.2.2.2 Keyed.empty
    twoCreators valid).2.2 "juno1alice" (by decide)).1 _ |>.mpr (.inr List.mem_cons_self)

end Layout

end Juno.TokenFactory
