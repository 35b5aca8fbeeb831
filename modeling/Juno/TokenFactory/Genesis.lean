import Juno.TokenFactory.Layout
import Juno.TokenFactory.Denoms

/-! The tokenfactory genesis.

`ExportGenesis` lists the values of the creators' prefix store, each a denomination, with the
admin read from its metadata key, and the parameters. `InitGenesis` runs after the bank's, on
the module's empty store: it writes the parameters, and for each listed denomination reads the
creator back out of it, creates the denomination for that creator (the default bank metadata,
the creator as admin, the creator index) and then writes the listed admin.

So an export imports back with the same parameters, the same denominations and the same
admins. Two things are not carried: the bank metadata of a denomination is replaced by the
default one the creation writes, whatever the bank's genesis held for it, and a denomination is
indexed under the creator as it decodes, not as the index held it.
-/

set_option autoImplicit false

namespace Juno.TokenFactory

open Sdk KVStore

/-- `GenesisDenom`: a denomination and the admin of its `DenomAuthorityMetadata`. -/
structure GenesisDenom where
  denom : String
  authorityMetadata : String
  deriving DecidableEq, Repr

structure GenesisState where
  params : Params
  factoryDenoms : List GenesisDenom

/-- One denomination of the loop of `GenesisState.Validate`, against the denominations seen
before it: no repeat, a denomination `DeconstructDenom` takes, and an admin that passes
`DenomAuthorityMetadata.Validate`. -/
def validateGenesisDenom (codec : Bech32) (seenDenoms : List String) (genDenom : GenesisDenom) :
    Except String (List String) :=
  if genDenom.denom ∈ seenDenoms then .error ("duplicate denom: " ++ genDenom.denom ++ ": invalid genesis")
  else match deconstructDenom codec genDenom.denom with
    | .error err => .error err
    | .ok _ =>
      if genDenom.authorityMetadata = "" then .ok (genDenom.denom :: seenDenoms)
      else match codec.accAddressFromBech32 genDenom.authorityMetadata with
        | .error err => .error ("Invalid admin address (" ++ err ++ "): invalid authority metadata")
        | .ok _ => .ok (genDenom.denom :: seenDenoms)

def GenesisState.validate (codec : Bech32) (gs : GenesisState) : Except String Unit := do
  gs.params.validate
  let _ ← gs.factoryDenoms.foldlM (validateGenesisDenom codec) []
  pure ()

namespace Layout

/-- `GetCreatorsPrefix`: `strings.Join([CreatorPrefixKey, ""], KeySeparator)`. -/
def getCreatorsPrefix : String := keySeparator.intercalate [creatorPrefixKey, ""]

/-- `GetParams`: no bytes read as the empty parameters; bytes of another record do not unmarshal. -/
def getParams (store : ModuleStore) : Except String Params :=
  match store.find? paramsKey with
  | none => .ok ⟨[]⟩
  | some (.params params) => .ok params
  | some _ => .error "proto: illegal wire type"

/-- The denominations `GetAllDenomsIterator` visits: the values of the creators' prefix store.
The index holds each denomination as its own text, and no other kind of record is written under
that prefix. -/
def getAllDenoms (store : ModuleStore) : List String :=
  (store.prefixValues getCreatorsPrefix.toList).filterMap fun
    | .denom denom => some denom
    | _ => none

def exportGenesis (store : ModuleStore) : Except String GenesisState := do
  let genDenoms ← (getAllDenoms store).mapM fun denom => do
    let authorityMetadata ← getAuthorityMetadata store denom
    pure (⟨denom, authorityMetadata⟩ : GenesisDenom)
  let params ← getParams store
  pure ⟨params, genDenoms⟩

/-- The bank metadata `createDenomAfterValidation` writes for a new denomination. -/
def denomMetaData (denom : String) : Metadata := ⟨"", [⟨denom, 0, []⟩], denom, denom, denom, denom⟩

/-- `createDenomAfterValidation` over the module store and the bank's metadata store: the
default metadata goes in under its base whatever the bank holds, then the creator becomes the
admin and the denomination is indexed under it. -/
def createDenomAfterValidation (codec : Bech32) (bank : Store String Metadata) (store : ModuleStore)
    (creatorAddr denom : String) : Except String (Store String Metadata × ModuleStore) := do
  let bank := bank.set (denomMetaData denom).base (denomMetaData denom)
  let store ← setAuthorityMetadata codec store denom creatorAddr
  pure (bank, addDenomFromCreator store creatorAddr denom)

def initGenesisDenom (codec : Bech32) (state : Store String Metadata × ModuleStore) (genDenom : GenesisDenom) :
    Except String (Store String Metadata × ModuleStore) := do
  let (creator, _) ← deconstructDenom codec genDenom.denom
  let (bank, store) ← createDenomAfterValidation codec state.1 state.2 creator genDenom.denom
  let store ← setAuthorityMetadata codec store genDenom.denom genDenom.authorityMetadata
  pure (bank, store)

/-- `InitGenesis` on the module's empty store, after the bank's genesis wrote its metadata. A nil
creation fee and the empty one are the same list here. -/
def initGenesis (codec : Bech32) (bank : Store String Metadata) (genState : GenesisState) :
    Except String (Store String Metadata × ModuleStore) :=
  genState.factoryDenoms.foldlM (initGenesisDenom codec) (bank, setParams Keyed.empty genState.params)

/-! ### The keys under the creators' prefix -/

theorem toList_getCreatorsPrefix : getCreatorsPrefix.toList = "creator|".toList := by
  simp [getCreatorsPrefix, keySeparator, creatorPrefixKey]

theorem creatorKey_eq_append (creator denom : String) :
    (getCreatorPrefix creator).toList ++ denom.toList =
      getCreatorsPrefix.toList ++ (creator.toList ++ '|' :: denom.toList) := by
  rw [toList_getCreatorPrefix, toList_getCreatorsPrefix]
  simp

theorem authorityKey_ne_creators (d : String) (key : List Char) :
    (getDenomPrefixStore d).toList ++ denomAuthorityMetadataKey.toList ≠ getCreatorsPrefix.toList ++ key := by
  rw [toList_getDenomPrefixStore, toList_getCreatorsPrefix]
  simp

theorem paramsKey_ne_creators (key : List Char) : paramsKey ≠ getCreatorsPrefix.toList ++ key := by
  rw [toList_getCreatorsPrefix]
  simp [paramsKey]

theorem creatorKey_eq_iff_of_not_mem {c₁ c₂ d₁ d₂ : String} (creatorFree : '|' ∉ c₁.toList)
    (denomFree : '|' ∉ d₁.toList) :
    (getCreatorPrefix c₁).toList ++ d₁.toList = (getCreatorPrefix c₂).toList ++ d₂.toList ↔ c₁ = c₂ ∧ d₁ = d₂ := by
  rw [creatorKey_eq_append, creatorKey_eq_append, List.append_cancel_left_eq,
    KVStore.append_cons_eq_iff_of_not_mem creatorFree denomFree]
  simp only [String.toList_inj]

theorem mem_getAllDenoms (store : ModuleStore) (denom : String) :
    denom ∈ getAllDenoms store ↔ ∃ key, store.find? (getCreatorsPrefix.toList ++ key) = some (.denom denom) := by
  simp only [getAllDenoms, List.mem_filterMap, Store.mem_prefixValues]
  constructor
  · rintro ⟨r, ⟨key, found⟩, named⟩
    cases r with
    | denom d =>
      obtain rfl : d = denom := Option.some.inj named
      exact ⟨key, found⟩
    | authorityMetadata _ => cases named
    | params _ => cases named
  · rintro ⟨key, found⟩
    exact ⟨.denom denom, ⟨key, found⟩, rfl⟩

/-! ### One imported denomination -/

def genesisCreator (codec : Bech32) (denom : String) : String :=
  match deconstructDenom codec denom with
  | .ok (creator, _) => creator
  | .error _ => ""

/-- What one imported denomination leaves under each key: the listed admin under its metadata
key, and the denomination under the index key of the creator read back from it. -/
def importedRead (codec : Bech32) (read : List Char → Option Record) (genDenom : GenesisDenom) :
    List Char → Option Record := fun key =>
  if (getDenomPrefixStore genDenom.denom).toList ++ denomAuthorityMetadataKey.toList = key then
    some (.authorityMetadata genDenom.authorityMetadata)
  else if (getCreatorPrefix (genesisCreator codec genDenom.denom)).toList ++ genDenom.denom.toList = key then
    some (.denom genDenom.denom)
  else read key

/-- A genesis `InitGenesis` takes: every denomination names a creator that decodes, and every
admin passes `DenomAuthorityMetadata.Validate`. -/
def Importable (codec : Bech32) (genState : GenesisState) : Prop :=
  ∀ genDenom ∈ genState.factoryDenoms,
    (∃ creator subdenom, deconstructDenom codec genDenom.denom = .ok (creator, subdenom)) ∧
      ¬(genDenom.authorityMetadata ≠ "" ∧ (codec.decode genDenom.authorityMetadata).isNone)

theorem initGenesisDenom_eq {codec : Bech32} {genDenom : GenesisDenom} {creator subdenom : String}
    (deconstructed : deconstructDenom codec genDenom.denom = .ok (creator, subdenom))
    (valid : ¬(genDenom.authorityMetadata ≠ "" ∧ (codec.decode genDenom.authorityMetadata).isNone))
    (bank : Store String Metadata) (store : ModuleStore) :
    initGenesisDenom codec (bank, store) genDenom =
      .ok (bank.set genDenom.denom (denomMetaData genDenom.denom),
        ((store.set ((getDenomPrefixStore genDenom.denom).toList ++ denomAuthorityMetadataKey.toList)
          (.authorityMetadata creator)).set ((getCreatorPrefix creator).toList ++ genDenom.denom.toList)
            (.denom genDenom.denom)).set
              ((getDenomPrefixStore genDenom.denom).toList ++ denomAuthorityMetadataKey.toList)
              (.authorityMetadata genDenom.authorityMetadata)) := by
  have creatorValid : ¬(creator ≠ "" ∧ (codec.decode creator).isNone) := by
    rw [deconstructDenom_creator_canonical deconstructed]
    simp
  simp only [initGenesisDenom, createDenomAfterValidation, deconstructed, setAuthorityMetadata,
    if_neg creatorValid, if_neg valid, addDenomFromCreator, bind, Except.bind, pure, Except.pure, denomMetaData]

theorem find?_initGenesisDenom {codec : Bech32} {genDenom : GenesisDenom} {creator subdenom : String}
    (deconstructed : deconstructDenom codec genDenom.denom = .ok (creator, subdenom))
    (valid : ¬(genDenom.authorityMetadata ≠ "" ∧ (codec.decode genDenom.authorityMetadata).isNone))
    {state next : Store String Metadata × ModuleStore} (h : initGenesisDenom codec state genDenom = .ok next) :
    next.1 = state.1.set genDenom.denom (denomMetaData genDenom.denom) ∧
      next.2.find? = importedRead codec state.2.find? genDenom := by
  rw [initGenesisDenom_eq deconstructed valid, Except.ok.injEq] at h
  subst h
  refine ⟨rfl, funext fun key => ?_⟩
  have creator : genesisCreator codec genDenom.denom = creator := by
    rw [genesisCreator, deconstructed]
  -- the second metadata write covers the first
  simp only [Store.find?_set, importedRead, creator]
  split_ifs <;> rfl

/-! ### The export -/

theorem exportGenesis_ok {store : ModuleStore} {params : Params} (paramsRead : getParams store = .ok params)
    (admins : ∀ denom ∈ getAllDenoms store, ∃ admin, getAuthorityMetadata store denom = .ok admin) :
    ∃ genDenoms, exportGenesis store = .ok ⟨params, genDenoms⟩ ∧
      genDenoms.map GenesisDenom.denom = getAllDenoms store ∧
      ∀ genDenom ∈ genDenoms, getAuthorityMetadata store genDenom.denom = .ok genDenom.authorityMetadata := by
  obtain ⟨genDenoms, listed, related⟩ := Atomic.mapM_exists_ok (fun denom => do
      let authorityMetadata ← getAuthorityMetadata store denom
      pure (⟨denom, authorityMetadata⟩ : GenesisDenom)) (getAllDenoms store) (by
    intro denom mem
    obtain ⟨admin, read⟩ := admins denom mem
    exact ⟨⟨denom, admin⟩, by rw [read]; rfl⟩)
  refine ⟨genDenoms, ?_, ?_⟩
  · rw [exportGenesis, listed]
    simp [paramsRead, bind, Except.bind, pure, Except.pure]
  clear listed admins
  generalize getAllDenoms store = denoms at related
  -- each entry is its denomination with the admin read from it
  induction related with
  | nil => simp
  | cons head _ ih =>
    obtain ⟨admin, read, entry⟩ := Atomic.bind_eq_ok.mp head
    rw [Atomic.pure_eq_ok] at entry
    subst entry
    obtain ⟨names, reads⟩ := ih
    refine ⟨by rw [List.map_cons, names], ?_⟩
    rintro genDenom (_ | ⟨_, mem⟩)
    · exact read
    · exact reads genDenom mem

/-! ### The import -/

section Import

variable {codec : Bech32}

theorem find?_setParams_empty (params : Params) (key : List Char) :
    (setParams Keyed.empty params).find? key = if paramsKey = key then some (.params params) else none := by
  rw [setParams, Store.find?_set]
  split_ifs <;> rfl

theorem foldl_importedRead_params (read : List Char → Option Record) (genDenoms : List GenesisDenom) :
    genDenoms.foldl (importedRead codec) read paramsKey = read paramsKey := by
  induction genDenoms generalizing read with
  | nil => rfl
  | cons genDenom rest ih =>
    rw [List.foldl_cons, ih]
    simp only [importedRead, if_neg (authorityKey_ne_paramsKey _), if_neg (creatorKey_ne_paramsKey _ _)]

theorem foldl_importedRead_authority_of_not_mem (read : List Char → Option Record) {denom : String}
    (genDenoms : List GenesisDenom) (absent : denom ∉ genDenoms.map GenesisDenom.denom) :
    genDenoms.foldl (importedRead codec) read
        ((getDenomPrefixStore denom).toList ++ denomAuthorityMetadataKey.toList) =
      read ((getDenomPrefixStore denom).toList ++ denomAuthorityMetadataKey.toList) := by
  induction genDenoms generalizing read with
  | nil => rfl
  | cons genDenom rest ih =>
    rw [List.map_cons, List.mem_cons, not_or] at absent
    have apart := mt authorityKey_inj (Ne.symm absent.1)
    rw [List.foldl_cons, ih _ absent.2]
    simp only [importedRead, if_neg apart, if_neg (authorityKey_ne_creatorKey denom _ _).symm]

theorem foldl_importedRead_authority (read : List Char → Option Record) {denom admin : String}
    (genDenoms : List GenesisDenom) (listed : denom ∈ genDenoms.map GenesisDenom.denom)
    (same : ∀ genDenom ∈ genDenoms, genDenom.denom = denom → genDenom.authorityMetadata = admin) :
    genDenoms.foldl (importedRead codec) read
      ((getDenomPrefixStore denom).toList ++ denomAuthorityMetadataKey.toList) = some (.authorityMetadata admin) := by
  induction genDenoms generalizing read with
  | nil => cases listed
  | cons genDenom rest ih =>
    rw [List.foldl_cons]
    by_cases later : denom ∈ rest.map GenesisDenom.denom
    · exact ih _ later fun g mem => same g (List.mem_cons_of_mem _ mem)
    · have here : genDenom.denom = denom := by
        rw [List.map_cons, List.mem_cons] at listed
        exact (listed.resolve_right later).symm
      rw [foldl_importedRead_authority_of_not_mem _ rest later]
      simp [importedRead, here, same genDenom List.mem_cons_self here]

def IndexOnly (codec : Bech32) (read : List Char → Option Record) : Prop :=
  ∀ key r, read (getCreatorsPrefix.toList ++ key) = some r →
    ∃ creator denom, codec.decode creator = some creator ∧
      getCreatorsPrefix.toList ++ key = (getCreatorPrefix creator).toList ++ denom.toList ∧ r = .denom denom

theorem indexOnly_importedRead {read : List Char → Option Record} (indexOnly : IndexOnly codec read)
    {genDenom : GenesisDenom}
    (canonical : codec.decode (genesisCreator codec genDenom.denom) = some (genesisCreator codec genDenom.denom)) :
    IndexOnly codec (importedRead codec read genDenom) := by
  intro key r found
  simp only [importedRead] at found
  split_ifs at found with metadata indexed
  · exact absurd metadata (authorityKey_ne_creators _ _)
  · cases found
    exact ⟨_, _, canonical, indexed.symm, rfl⟩
  · exact indexOnly key r found

theorem exists_importedRead_denom (alphanumeric : codec.Alphanumeric) {read : List Char → Option Record}
    (indexOnly : IndexOnly codec read) {genDenom : GenesisDenom}
    (canonical : codec.decode (genesisCreator codec genDenom.denom) = some (genesisCreator codec genDenom.denom))
    (denom : String) :
    (∃ key, importedRead codec read genDenom (getCreatorsPrefix.toList ++ key) = some (.denom denom)) ↔
      (∃ key, read (getCreatorsPrefix.toList ++ key) = some (.denom denom)) ∨ genDenom.denom = denom := by
  constructor
  · rintro ⟨key, found⟩
    simp only [importedRead] at found
    split_ifs at found with metadata indexed
    · exact absurd metadata (authorityKey_ne_creators _ _)
    · cases found
      exact .inr rfl
    · exact .inl ⟨key, found⟩
  · rintro (⟨key, found⟩ | rfl)
    · refine ⟨key, ?_⟩
      simp only [importedRead]
      split_ifs with metadata indexed
      · exact absurd metadata (authorityKey_ne_creators _ _)
      · obtain ⟨c, d, decoded, whole, named⟩ := indexOnly key _ found
        cases named
        have same := (creatorKey_eq_iff alphanumeric (by rw [canonical]; rfl) (by rw [decoded]; rfl)).mp
          (indexed.trans whole)
        rw [same.2]
      · exact found
    · refine ⟨(genesisCreator codec genDenom.denom).toList ++ '|' :: genDenom.denom.toList, ?_⟩
      simp only [importedRead]
      rw [if_neg (authorityKey_ne_creators _ _), if_pos (creatorKey_eq_append _ _)]

theorem foldl_importedRead_index (alphanumeric : codec.Alphanumeric) (genDenoms : List GenesisDenom)
    (canonical : ∀ genDenom ∈ genDenoms,
      codec.decode (genesisCreator codec genDenom.denom) = some (genesisCreator codec genDenom.denom)) :
    ∀ read, IndexOnly codec read →
      IndexOnly codec (genDenoms.foldl (importedRead codec) read) ∧
      ∀ denom, (∃ key, genDenoms.foldl (importedRead codec) read (getCreatorsPrefix.toList ++ key) =
          some (.denom denom)) ↔
        (∃ key, read (getCreatorsPrefix.toList ++ key) = some (.denom denom)) ∨
          denom ∈ genDenoms.map GenesisDenom.denom := by
  -- `IndexOnly` is carried along the imports
  induction genDenoms with
  | nil =>
    intro read indexOnly
    simp [indexOnly]
  | cons genDenom rest ih =>
    intro read indexOnly
    have here := canonical genDenom List.mem_cons_self
    obtain ⟨stays, entries⟩ := ih (fun g mem => canonical g (List.mem_cons_of_mem _ mem)) _
      (indexOnly_importedRead indexOnly here)
    refine ⟨stays, fun denom => ?_⟩
    rw [List.foldl_cons, entries, exists_importedRead_denom alphanumeric indexOnly here, List.map_cons,
      List.mem_cons, @eq_comm _ genDenom.denom denom, or_assoc]

theorem importedRead_creatorKey {read : List Char → Option Record} {genDenom : GenesisDenom}
    (creatorFree : '|' ∉ (genesisCreator codec genDenom.denom).toList) (denomFree : '|' ∉ genDenom.denom.toList)
    (creator denom : String) :
    (importedRead codec read genDenom ((getCreatorPrefix creator).toList ++ denom.toList)).isSome ↔
      (genDenom.denom = denom ∧ genesisCreator codec denom = creator) ∨
        (read ((getCreatorPrefix creator).toList ++ denom.toList)).isSome := by
  have metadata : (getDenomPrefixStore genDenom.denom).toList ++ denomAuthorityMetadataKey.toList ≠
      (getCreatorPrefix creator).toList ++ denom.toList := by
    rw [creatorKey_eq_append]
    exact authorityKey_ne_creators _ _
  simp only [importedRead, if_neg metadata]
  by_cases indexed : (getCreatorPrefix (genesisCreator codec genDenom.denom)).toList ++ genDenom.denom.toList =
      (getCreatorPrefix creator).toList ++ denom.toList
  · obtain ⟨rfl, rfl⟩ := (creatorKey_eq_iff_of_not_mem creatorFree denomFree).mp indexed
    simp
  · have other : ¬ (genDenom.denom = denom ∧ genesisCreator codec denom = creator) := by
      rintro ⟨rfl, rfl⟩
      exact indexed rfl
    simp [indexed, other]

theorem foldl_importedRead_creatorKey (genDenoms : List GenesisDenom)
    (free : ∀ genDenom ∈ genDenoms,
      '|' ∉ (genesisCreator codec genDenom.denom).toList ∧ '|' ∉ genDenom.denom.toList)
    (creator denom : String) (read : List Char → Option Record) :
    (genDenoms.foldl (importedRead codec) read ((getCreatorPrefix creator).toList ++ denom.toList)).isSome ↔
      (read ((getCreatorPrefix creator).toList ++ denom.toList)).isSome ∨
        (denom ∈ genDenoms.map GenesisDenom.denom ∧ genesisCreator codec denom = creator) := by
  induction genDenoms generalizing read with
  | nil => simp
  | cons genDenom rest ih =>
    obtain ⟨creatorFree, denomFree⟩ := free genDenom List.mem_cons_self
    rw [List.foldl_cons, ih (fun g mem => free g (List.mem_cons_of_mem _ mem)),
      importedRead_creatorKey creatorFree denomFree, List.map_cons, List.mem_cons, @eq_comm _ genDenom.denom]
    tauto

theorem find?_foldl_denomMetaData (bank : Store String Metadata) (genDenoms : List GenesisDenom) (denom : String) :
    (genDenoms.foldl (fun bank genDenom => bank.set genDenom.denom (denomMetaData genDenom.denom)) bank).find? denom =
      if denom ∈ genDenoms.map GenesisDenom.denom then some (denomMetaData denom) else bank.find? denom := by
  induction genDenoms generalizing bank with
  | nil => simp
  | cons genDenom rest ih =>
    rw [List.foldl_cons, ih, Store.find?_set]
    by_cases later : denom ∈ rest.map GenesisDenom.denom
    · simp [later]
    · by_cases here : genDenom.denom = denom
      · simp [here]
      · simp [later, here, Ne.symm here]

theorem initGenesis_ok {genState : GenesisState} (importable : Importable codec genState)
    (bank : Store String Metadata) :
    ∃ bank' store', initGenesis codec bank genState = .ok (bank', store') ∧
      store'.find? = genState.factoryDenoms.foldl (importedRead codec) (setParams Keyed.empty genState.params).find? ∧
      bank' = genState.factoryDenoms.foldl
        (fun bank genDenom => bank.set genDenom.denom (denomMetaData genDenom.denom)) bank := by
  obtain ⟨⟨bank', store'⟩, imported⟩ := Atomic.foldlM_exists_ok (initGenesisDenom codec) genState.factoryDenoms
    (bank, setParams Keyed.empty genState.params) (by
      intro state genDenom mem
      obtain ⟨⟨creator, subdenom, deconstructed⟩, valid⟩ := importable genDenom mem
      exact ⟨_, initGenesisDenom_eq deconstructed valid state.1 state.2⟩)
  have effect : ∀ state genDenom next, genDenom ∈ genState.factoryDenoms →
      initGenesisDenom codec state genDenom = .ok next →
        next.1 = state.1.set genDenom.denom (denomMetaData genDenom.denom) ∧
          next.2.find? = importedRead codec state.2.find? genDenom := by
    intro state genDenom next mem h
    obtain ⟨⟨creator, subdenom, deconstructed⟩, valid⟩ := importable genDenom mem
    exact find?_initGenesisDenom deconstructed valid h
  refine ⟨bank', store', imported, ?_, ?_⟩
  · exact Atomic.foldlM_track (fun state => state.2.find?) (importedRead codec) _ _
      (fun s g n mem h => (effect s g n mem h).2) imported
  · exact Atomic.foldlM_track Prod.fst (fun bank genDenom => bank.set genDenom.denom (denomMetaData genDenom.denom))
      _ _ (fun s g n mem h => (effect s g n mem h).1) imported

/-! What the imported store reads, from the reads `initGenesis_ok` gives. -/

section Reads

variable {genState : GenesisState} {store' : ModuleStore}
  (reads : store'.find? = genState.factoryDenoms.foldl (importedRead codec) (setParams Keyed.empty genState.params).find?)
include reads

theorem getParams_of_reads : getParams store' = .ok genState.params := by
  rw [getParams, reads, foldl_importedRead_params, find?_setParams_empty, if_pos rfl]

theorem mem_getAllDenoms_of_reads (alphanumeric : codec.Alphanumeric) (importable : Importable codec genState)
    (denom : String) : denom ∈ getAllDenoms store' ↔ denom ∈ genState.factoryDenoms.map GenesisDenom.denom := by
  have canonical : ∀ genDenom ∈ genState.factoryDenoms,
      codec.decode (genesisCreator codec genDenom.denom) = some (genesisCreator codec genDenom.denom) := by
    intro genDenom mem
    obtain ⟨⟨creator, subdenom, deconstructed⟩, -⟩ := importable genDenom mem
    rw [genesisCreator, deconstructed]
    exact deconstructDenom_creator_canonical deconstructed
  -- the store of the parameters alone holds nothing under the creators' prefix
  have nothing : ∀ key, (setParams Keyed.empty genState.params).find? (getCreatorsPrefix.toList ++ key) = none :=
    fun key => by rw [find?_setParams_empty, if_neg (paramsKey_ne_creators key)]
  have start : IndexOnly codec (setParams Keyed.empty genState.params).find? := by
    intro key r found
    rw [nothing] at found
    cases found
  rw [mem_getAllDenoms, reads, ((foldl_importedRead_index alphanumeric _ canonical) _ start).2]
  simp [nothing]

theorem mem_getDenomsFromCreator_of_reads (alphanumeric : codec.Alphanumeric) (importable : Importable codec genState)
    (creator denom : String) :
    denom ∈ getDenomsFromCreator store' creator ↔
      denom ∈ genState.factoryDenoms.map GenesisDenom.denom ∧ genesisCreator codec denom = creator := by
  have free : ∀ genDenom ∈ genState.factoryDenoms,
      '|' ∉ (genesisCreator codec genDenom.denom).toList ∧ '|' ∉ genDenom.denom.toList := by
    intro genDenom mem
    obtain ⟨⟨c, subdenom, deconstructed⟩, -⟩ := importable genDenom mem
    have canonical := deconstructDenom_creator_canonical deconstructed
    rw [genesisCreator, deconstructed]
    exact ⟨separator_not_mem alphanumeric (by rw [canonical]; rfl),
      separator_not_mem_of_validateDenom (validateDenom_of_deconstructDenom deconstructed)⟩
  have nothing : (setParams Keyed.empty genState.params).find? ((getCreatorPrefix creator).toList ++ denom.toList) =
      none := by
    rw [find?_setParams_empty, creatorKey_eq_append, if_neg (paramsKey_ne_creators _)]
  rw [mem_getDenomsFromCreator, reads, foldl_importedRead_creatorKey _ free, nothing]
  simp

theorem getAuthorityMetadata_of_reads {denom admin : String}
    (listed : denom ∈ genState.factoryDenoms.map GenesisDenom.denom)
    (same : ∀ genDenom ∈ genState.factoryDenoms, genDenom.denom = denom → genDenom.authorityMetadata = admin) :
    getAuthorityMetadata store' denom = .ok admin := by
  rw [getAuthorityMetadata, reads, foldl_importedRead_authority _ _ listed same]

end Reads

end Import

/-! ### Export, then import -/

/-- What export followed by import needs of the module store: its parameters and the metadata of
every listed denomination unmarshal, each listed denomination names a creator that decodes, and
its admin passes `DenomAuthorityMetadata.Validate`, as every admin the keeper writes does. -/
structure Exportable (codec : Bech32) (store : ModuleStore) : Prop where
  params : ∃ params, getParams store = .ok params
  creators : ∀ denom ∈ getAllDenoms store, ∃ creator subdenom, deconstructDenom codec denom = .ok (creator, subdenom)
  admins : ∀ denom ∈ getAllDenoms store, ∃ admin, getAuthorityMetadata store denom = .ok admin ∧
    ¬(admin ≠ "" ∧ (codec.decode admin).isNone)

/-- The creator index lists each denomination under the creator `InitGenesis` reads back from it,
the canonical text of the address in it, and nothing else: what the keeper writes when every
creating sender gives its address in canonical text. -/
def IndexedByCreator (codec : Bech32) (store : ModuleStore) : Prop :=
  ∀ creator denom, denom ∈ getDenomsFromCreator store creator ↔
    denom ∈ getAllDenoms store ∧ genesisCreator codec denom = creator

section RoundTrip

variable {codec : Bech32} {store : ModuleStore}

theorem exportGenesis_importable (exportable : Exportable codec store) :
    ∃ genState, exportGenesis store = .ok genState ∧ Importable codec genState ∧
      getParams store = .ok genState.params ∧ genState.factoryDenoms.map GenesisDenom.denom = getAllDenoms store ∧
      ∀ genDenom ∈ genState.factoryDenoms,
        getAuthorityMetadata store genDenom.denom = .ok genDenom.authorityMetadata := by
  obtain ⟨params, paramsRead⟩ := exportable.params
  obtain ⟨genDenoms, exported, listed, admins⟩ :=
    exportGenesis_ok paramsRead fun denom mem => (exportable.admins denom mem).imp fun _ read => read.1
  refine ⟨⟨params, genDenoms⟩, exported, ?_, paramsRead, listed, admins⟩
  intro genDenom mem
  have stored : genDenom.denom ∈ getAllDenoms store := listed ▸ List.mem_map_of_mem mem
  obtain ⟨admin, read, valid⟩ := exportable.admins _ stored
  -- the listed admin is the one read, which passes validation
  obtain rfl : genDenom.authorityMetadata = admin := Except.ok.inj ((admins genDenom mem).symm.trans read)
  exact ⟨exportable.creators _ stored, valid⟩

/-- An exported module store imports back with its parameters, its denominations and their
admins, whatever the bank held, and indexes each denomination under the creator read back from
it; the bank then holds the default metadata of every denomination. -/
theorem initGenesis_exportGenesis (alphanumeric : codec.Alphanumeric) (exportable : Exportable codec store)
    (bank : Store String Metadata) :
    ∃ genState bank' store', exportGenesis store = .ok genState ∧
      initGenesis codec bank genState = .ok (bank', store') ∧
      getParams store' = getParams store ∧
      (∀ denom, denom ∈ getAllDenoms store' ↔ denom ∈ getAllDenoms store) ∧
      (∀ denom ∈ getAllDenoms store, getAuthorityMetadata store' denom = getAuthorityMetadata store denom) ∧
      (∀ creator denom, denom ∈ getDenomsFromCreator store' creator ↔
        denom ∈ getAllDenoms store ∧ genesisCreator codec denom = creator) ∧
      ∀ denom, bank'.find? denom =
        if denom ∈ getAllDenoms store then some (denomMetaData denom) else bank.find? denom := by
  obtain ⟨genState, exported, importable, paramsRead, listed, admins⟩ := exportGenesis_importable exportable
  obtain ⟨bank', store', imported, reads, metadata⟩ := initGenesis_ok importable bank
  refine ⟨genState, bank', store', exported, imported, ?params, ?denoms, ?admins, ?index, ?bank⟩
  case params => rw [paramsRead, getParams_of_reads reads]
  case denoms =>
    intro denom
    rw [mem_getAllDenoms_of_reads reads alphanumeric importable, listed]
  case admins =>
    intro denom mem
    obtain ⟨admin, read, -⟩ := exportable.admins denom mem
    have same : ∀ genDenom ∈ genState.factoryDenoms, genDenom.denom = denom → genDenom.authorityMetadata = admin := by
      rintro genDenom listedDenom rfl
      exact Except.ok.inj ((admins genDenom listedDenom).symm.trans read)
    rw [read, getAuthorityMetadata_of_reads reads (listed ▸ mem) same]
  case index =>
    intro creator denom
    rw [mem_getDenomsFromCreator_of_reads reads alphanumeric importable, listed]
  case bank =>
    intro denom
    rw [metadata, find?_foldl_denomMetaData, listed]

end RoundTrip

/-! ### Validation

`ValidateGenesis` checks what the import needs: with no repeated denomination, each one's
admin is the one its entry lists. -/

section Validation

variable {codec : Bech32}

theorem validateGenesisDenom_ok_iff (seenDenoms : List String) (genDenom : GenesisDenom) (r : List String) :
    validateGenesisDenom codec seenDenoms genDenom = .ok r ↔
      ((∃ creator subdenom, deconstructDenom codec genDenom.denom = .ok (creator, subdenom)) ∧
        ¬(genDenom.authorityMetadata ≠ "" ∧ (codec.decode genDenom.authorityMetadata).isNone)) ∧
      genDenom.denom ∉ seenDenoms ∧ r = genDenom.denom :: seenDenoms := by
  unfold validateGenesisDenom
  by_cases seen : genDenom.denom ∈ seenDenoms
  · simp [seen]
  rw [if_neg seen]
  cases deconstructed : deconstructDenom codec genDenom.denom with
  | error err =>
    simp only [reduceCtorEq, exists_false, false_and]
  | ok parts =>
    obtain ⟨creator, subdenom⟩ := parts
    by_cases blank : genDenom.authorityMetadata = ""
    · simp [seen, blank, @eq_comm _ r]
    cases decoded : codec.decode genDenom.authorityMetadata with
    | none => simp [seen, blank, Bech32.accAddressFromBech32, decoded]
    | some admin => simp [seen, blank, Bech32.accAddressFromBech32, decoded, @eq_comm _ r]

/-- `ValidateGenesis` passes exactly the genesis with a valid creation fee, no repeated
denomination, and every denomination importable. -/
theorem validate_ok_iff (genState : GenesisState) :
    genState.validate codec = .ok () ↔
      genState.params.denomCreationFee.isValid = true ∧ Importable codec genState ∧
        (genState.factoryDenoms.map GenesisDenom.denom).Nodup := by
  have loop := Atomic.foldlM_seen_ok_iff (validateGenesisDenom codec) GenesisDenom.denom _
    validateGenesisDenom_ok_iff genState.factoryDenoms []
  simp only [List.not_mem_nil, not_false_eq_true, implies_true, and_true] at loop
  rw [Importable, ← loop]
  unfold GenesisState.validate Params.validate
  cases genState.params.denomCreationFee.isValid <;>
    cases genState.factoryDenoms.foldlM (validateGenesisDenom codec) [] <;>
      simp [bind, Except.bind, pure, Except.pure]

theorem initGenesis_ok_of_validate {genState : GenesisState} (validated : genState.validate codec = .ok ())
    (bank : Store String Metadata) : ∃ imported, initGenesis codec bank genState = .ok imported := by
  obtain ⟨-, importable, -⟩ := (validate_ok_iff genState).mp validated
  obtain ⟨bank', store', imported, -⟩ := initGenesis_ok importable bank
  exact ⟨(bank', store'), imported⟩

/-- A genesis that passes `ValidateGenesis` imports: `InitGenesis` does not panic on it, and the
module store then reads its parameters, lists exactly its denominations, and reads for each the
admin its entry lists. -/
theorem initGenesis_of_validate (alphanumeric : codec.Alphanumeric) {genState : GenesisState}
    (validated : genState.validate codec = .ok ()) (bank : Store String Metadata) :
    ∃ bank' store', initGenesis codec bank genState = .ok (bank', store') ∧
      getParams store' = .ok genState.params ∧
      (∀ denom, denom ∈ getAllDenoms store' ↔ denom ∈ genState.factoryDenoms.map GenesisDenom.denom) ∧
      ∀ genDenom ∈ genState.factoryDenoms,
        getAuthorityMetadata store' genDenom.denom = .ok genDenom.authorityMetadata := by
  obtain ⟨-, importable, distinct⟩ := (validate_ok_iff genState).mp validated
  obtain ⟨bank', store', imported, reads, -⟩ := initGenesis_ok importable bank
  refine ⟨bank', store', imported, getParams_of_reads reads, mem_getAllDenoms_of_reads reads alphanumeric importable,
    fun genDenom mem => getAuthorityMetadata_of_reads reads (List.mem_map_of_mem mem) ?_⟩
  -- no other entry lists the same denomination
  intro other otherMem same
  rw [List.inj_on_of_nodup_map distinct otherMem mem same]

def factoryGenesis : GenesisState :=
  ⟨⟨[]⟩, [⟨"factory/juno1alice/x", "juno1alice"⟩, ⟨"factory/juno1bob/y", ""⟩]⟩

theorem factoryGenesis_validate : factoryGenesis.validate alphanumericCodec = .ok () := by
  have layout : ∀ creator subdenom, '/' ∉ creator.toList →
      validateDenom (moduleDenomPrefix ++ "/" ++ creator ++ "/" ++ subdenom) = true →
      (alphanumericCodec.decode creator).isSome →
        ∃ c s, deconstructDenom alphanumericCodec (moduleDenomPrefix ++ "/" ++ creator ++ "/" ++ subdenom) = .ok (c, s) := by
    intro creator subdenom noSlash valid decodes
    rw [deconstructDenom_layout alphanumericCodec noSlash valid]
    obtain ⟨a, decoded⟩ := Option.isSome_iff_exists.mp decodes
    exact ⟨a, subdenom, by rw [decoded]⟩
  refine (validate_ok_iff factoryGenesis).mpr ⟨rfl, ?_, by decide⟩
  intro genDenom mem
  simp only [factoryGenesis, List.mem_cons, List.not_mem_nil, or_false] at mem
  rcases mem with rfl | rfl
  · exact ⟨layout "juno1alice" "x" (by decide) (by decide) (by decide), by decide⟩
  · exact ⟨layout "juno1bob" "y" (by decide) (by decide) (by decide), by decide⟩

theorem factory_genesis_imports :
    alphanumericCodec.Alphanumeric ∧ factoryGenesis.validate alphanumericCodec = .ok () ∧
      ∃ bank' store', initGenesis alphanumericCodec Keyed.empty factoryGenesis = .ok (bank', store') ∧
        getParams store' = .ok factoryGenesis.params ∧
        (∀ denom, denom ∈ getAllDenoms store' ↔ denom ∈ factoryGenesis.factoryDenoms.map GenesisDenom.denom) ∧
        ∀ genDenom ∈ factoryGenesis.factoryDenoms,
          getAuthorityMetadata store' genDenom.denom = .ok genDenom.authorityMetadata :=
  ⟨alphanumeric_alphanumericCodec, factoryGenesis_validate,
    initGenesis_of_validate alphanumeric_alphanumericCodec factoryGenesis_validate Keyed.empty⟩

end Validation

end Layout

end Juno.TokenFactory
