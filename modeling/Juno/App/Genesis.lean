import Juno.TokenFactory.Genesis
import Juno.FeeShare.Indexes
import Juno.FeePay.Keeper
import Juno.Clock.Keeper
import Juno.CwHooks.Keeper
import Juno.Mint.Minter

/-! Genesis export and import of the app.

`ExportAppStateAndValidators` runs every module's `ExportGenesis`. `InitChainer` runs every
module's `InitGenesis` on empty stores in `orderInitBlockers` order, where the bank comes before
the tokenfactory, and a panic stops the chain from starting.

Two kinds of state of Juno's own modules are not in their genesis, so they come back empty: the
clock's registered contracts, since the clock genesis holds its parameters only, and the feepay
wallet usage counts, which its `InitGenesis` leaves out. The rest comes back from an export
(`exported_state_reimports`): the mint minter and parameters, the feepay contracts with their
balances and limits, the feeshare records and what their reverse maps hold, the cw-hooks
registrations, and the tokenfactory parameters, denominations and admins. The import of each
module is proved against its export in that module; here they are put together.

The bank imports its metadata before the tokenfactory re-creates its denominations, and each
creation writes the default metadata, so a tokenfactory denomination comes back with that and
not with what its admin set (`restart_resets_factory_metadata`).

`genesis validate` runs each module's own check. A genesis that passes them, and whose cw-hooks
addresses decode, starts the chain (`chain_starts_of_validated_genesis`); the cw-hooks check reads
the parameters only, so a genesis with a hook address that does not decode passes every check and
does not start the chain (`validated_genesis_stops_chain_start`).
-/

set_option autoImplicit false

namespace Juno.App

open Sdk KVStore

/-- The state of the modelled modules: the bank's denomination metadata, and the stores of mint,
tokenfactory, feepay, feeshare, clock and cw-hooks. -/
structure AppState where
  denomMetadata : Store String TokenFactory.Metadata
  minter : Mint.Minter
  mintParams : Mint.Params
  tokenFactory : TokenFactory.ModuleStore
  feePay : FeePay.State
  feeShare : FeeShare.State
  clockParams : Clock.Params
  clockContracts : Clock.Contracts
  cwHooksParams : CwHooks.Params
  cwHooks : CwHooks.State

/-- The genesis of the modelled modules. -/
structure GenesisState where
  denomMetadata : List TokenFactory.Metadata
  mint : Mint.GenesisState
  tokenFactory : TokenFactory.GenesisState
  feePay : FeePay.GenesisState
  feeShare : FeeShare.GenesisState
  clock : Clock.GenesisState
  cwHooks : CwHooks.GenesisState

/-- What the keepers are built with: the one address codec, and the feeshare keeper's authorities. -/
structure AppKeepers where
  codec : Bech32
  authority : String
  govModuleAddress : String

def AppKeepers.feeShareKeeper (keepers : AppKeepers) : FeeShare.Keeper :=
  ⟨keepers.codec, keepers.authority, keepers.govModuleAddress⟩

/-- The bank's `InitGenesis` of denomination metadata: each under its base. -/
def bankInitDenomMetadata (metadata : List TokenFactory.Metadata) : Store String TokenFactory.Metadata :=
  metadata.foldl (fun store m => store.set m.base m) Keyed.empty

def bankExportDenomMetadata (store : Store String TokenFactory.Metadata) : List TokenFactory.Metadata :=
  store.records.map Prod.snd

theorem bankInitDenomMetadata_bankExportDenomMetadata {metadata : Store String TokenFactory.Metadata}
    (byBase : ∀ r ∈ metadata.records, r.2.base = r.1) :
    bankInitDenomMetadata (bankExportDenomMetadata metadata) = metadata := by
  -- each record goes back under its own key
  have rebuilt : ∀ (records : List (String × TokenFactory.Metadata)) (store : Store String TokenFactory.Metadata),
      (∀ r ∈ records, r.2.base = r.1) →
        (records.map Prod.snd).foldl (fun store m => store.set m.base m) store = records.foldl Keyed.put store := by
    intro records
    induction records with
    | nil => intro _ _; rfl
    | cons r rest ih =>
      intro store based
      rw [List.map_cons, List.foldl_cons, List.foldl_cons, based r List.mem_cons_self,
        ih _ fun r' mem => based r' (List.mem_cons_of_mem r mem)]
      rfl
  rw [bankInitDenomMetadata, bankExportDenomMetadata, rebuilt _ _ byBase, Keyed.foldl_put_records]

/-- `ExportAppStateAndValidators` over the modelled modules; the tokenfactory export panics on a
record that does not unmarshal. -/
def exportGenesis (s : AppState) : Except String GenesisState := do
  let tokenFactory ← TokenFactory.Layout.exportGenesis s.tokenFactory
  pure ⟨bankExportDenomMetadata s.denomMetadata, Mint.exportGenesis s.minter s.mintParams, tokenFactory,
    FeePay.exportGenesis s.feePay, FeeShare.exportGenesis s.feeShare, Clock.exportGenesis s.clockParams,
    CwHooks.exportGenesis s.cwHooksParams s.cwHooks⟩

/-- `InitChainer` over the modelled modules, in `orderInitBlockers` order: bank, mint,
tokenfactory, feepay, feeshare, clock, cw-hooks. -/
def initGenesis (keepers : AppKeepers) (genesis : GenesisState) : Except String AppState := do
  let denomMetadata := bankInitDenomMetadata genesis.denomMetadata
  let (minter, mintParams) ← Mint.initGenesis genesis.mint
  let (denomMetadata, tokenFactory) ←
    TokenFactory.Layout.initGenesis keepers.codec denomMetadata genesis.tokenFactory
  let feePay := FeePay.initGenesis genesis.feePay
  let feeShare ← keepers.feeShareKeeper.initGenesis genesis.feeShare
  let (clockParams, clockContracts) ← Clock.initGenesis genesis.clock
  let (cwHooksParams, cwHooks) ← CwHooks.initGenesis keepers.codec genesis.cwHooks
  pure ⟨denomMetadata, minter, mintParams, tokenFactory, feePay, feeShare, clockParams, clockContracts,
    cwHooksParams, cwHooks⟩

theorem exportGenesis_eq {s : AppState} {tokenFactory : TokenFactory.GenesisState}
    (exported : TokenFactory.Layout.exportGenesis s.tokenFactory = .ok tokenFactory) :
    exportGenesis s = .ok ⟨bankExportDenomMetadata s.denomMetadata, Mint.exportGenesis s.minter s.mintParams,
      tokenFactory, FeePay.exportGenesis s.feePay, FeeShare.exportGenesis s.feeShare,
      Clock.exportGenesis s.clockParams, CwHooks.exportGenesis s.cwHooksParams s.cwHooks⟩ := by
  rw [exportGenesis, exported]
  rfl

theorem initGenesis_eq {keepers : AppKeepers} {metadata : List TokenFactory.Metadata}
    {mintGenesis : Mint.GenesisState} {tokenFactoryGenesis : TokenFactory.GenesisState}
    {feePayGenesis : FeePay.GenesisState} {feeShareGenesis : FeeShare.GenesisState}
    {clockGenesis : Clock.GenesisState} {cwHooksGenesis : CwHooks.GenesisState} {minter : Mint.Minter}
    {mintParams : Mint.Params} {denomMetadata : Store String TokenFactory.Metadata}
    {tokenFactory : TokenFactory.ModuleStore} {feeShare : FeeShare.State} {clockParams : Clock.Params}
    {clockContracts : Clock.Contracts} {cwHooksParams : CwHooks.Params} {cwHooks : CwHooks.State}
    (mint : Mint.initGenesis mintGenesis = .ok (minter, mintParams))
    (factory : TokenFactory.Layout.initGenesis keepers.codec (bankInitDenomMetadata metadata)
      tokenFactoryGenesis = .ok (denomMetadata, tokenFactory))
    (fees : keepers.feeShareKeeper.initGenesis feeShareGenesis = .ok feeShare)
    (clock : Clock.initGenesis clockGenesis = .ok (clockParams, clockContracts))
    (hooks : CwHooks.initGenesis keepers.codec cwHooksGenesis = .ok (cwHooksParams, cwHooks)) :
    initGenesis keepers ⟨metadata, mintGenesis, tokenFactoryGenesis, feePayGenesis, feeShareGenesis, clockGenesis,
        cwHooksGenesis⟩ =
      .ok ⟨denomMetadata, minter, mintParams, tokenFactory, FeePay.initGenesis feePayGenesis, feeShare, clockParams,
        clockContracts, cwHooksParams, cwHooks⟩ := by
  simp only [initGenesis, mint, factory, fees, clock, hooks, bind, Except.bind, pure, Except.pure]

/-- What an export needs of the state to import back, module by module: the parameters pass the
validation their `SetParams` makes, each feeshare record is under the contract its text decodes
to and the reverse maps hold what the records name, the cw-hooks addresses are canonical, and the
tokenfactory store is exportable. -/
structure Exportable (keepers : AppKeepers) (s : AppState) : Prop where
  mintParams : s.mintParams.validate = .ok ()
  tokenFactory : TokenFactory.Layout.Exportable keepers.codec s.tokenFactory
  feeShareParams : s.feeShare.params.validate = .ok ()
  feeShareContracts : ∀ e ∈ s.feeShare.feeShares.records,
    keepers.codec.decode e.feeshare.contractAddress = some e.contract
  feeShareIndexes : FeeShare.Consistent keepers.feeShareKeeper s.feeShare
  clockParams : s.clockParams.validate = .ok ()
  cwHooks : CwHooks.Canonical keepers.codec s.cwHooks

theorem Exportable.setDenomMetadata {keepers : AppKeepers} {s : AppState} (exportable : Exportable keepers s)
    (metadata : Store String TokenFactory.Metadata) : Exportable keepers { s with denomMetadata := metadata } :=
  ⟨exportable.mintParams, exportable.tokenFactory, exportable.feeShareParams, exportable.feeShareContracts,
    exportable.feeShareIndexes, exportable.clockParams, exportable.cwHooks⟩

/-- The restart of an exportable state is its modules' restarts: once the tokenfactory and
feeshare import their own exports, the app's export imports to what they give, with mint, clock
and cw-hooks as exported and feepay without its usage counts. -/
theorem restart_of_modules (keepers : AppKeepers) {s : AppState} (exportable : Exportable keepers s)
    {tokenFactory : TokenFactory.GenesisState} {denomMetadata : Store String TokenFactory.Metadata}
    {store : TokenFactory.ModuleStore} {feeShare : FeeShare.State}
    (tfExported : TokenFactory.Layout.exportGenesis s.tokenFactory = .ok tokenFactory)
    (tfImported : TokenFactory.Layout.initGenesis keepers.codec
      (bankInitDenomMetadata (bankExportDenomMetadata s.denomMetadata)) tokenFactory = .ok (denomMetadata, store))
    (fsImported : keepers.feeShareKeeper.initGenesis (FeeShare.exportGenesis s.feeShare) = .ok feeShare) :
    ∃ genesis, exportGenesis s = .ok genesis ∧
      initGenesis keepers genesis = .ok ⟨denomMetadata, s.minter, s.mintParams, store,
        { s.feePay with uses := Keyed.empty }, feeShare, s.clockParams, Keyed.empty, s.cwHooksParams, s.cwHooks⟩ := by
  refine ⟨_, exportGenesis_eq tfExported, ?_⟩
  -- each module imports its own export, in the order of the chain's start
  rw [initGenesis_eq (Mint.initGenesis_exportGenesis s.minter exportable.mintParams) tfImported fsImported
    (Clock.initGenesis_exportGenesis exportable.clockParams)
    (CwHooks.initGenesis_exportGenesis s.cwHooksParams exportable.cwHooks), FeePay.initGenesis_exportGenesis]

/-- An exportable state exports, and its export imports back: every module's state comes back
but the clock's contracts and the feepay usage counts, which come back empty. The tokenfactory
comes back with its parameters, its denominations and their admins, and with its creator index
when that lists each denomination under the canonical text of its creator. -/
theorem exported_state_reimports (keepers : AppKeepers) (alphanumeric : keepers.codec.Alphanumeric) {s : AppState}
    (exportable : Exportable keepers s) (indexed : TokenFactory.Layout.IndexedByCreator keepers.codec s.tokenFactory) :
    ∃ genesis s', exportGenesis s = .ok genesis ∧ initGenesis keepers genesis = .ok s' ∧
      s'.minter = s.minter ∧ s'.mintParams = s.mintParams ∧
      TokenFactory.Layout.getParams s'.tokenFactory = TokenFactory.Layout.getParams s.tokenFactory ∧
      (∀ denom, denom ∈ TokenFactory.Layout.getAllDenoms s'.tokenFactory ↔
        denom ∈ TokenFactory.Layout.getAllDenoms s.tokenFactory) ∧
      (∀ denom ∈ TokenFactory.Layout.getAllDenoms s.tokenFactory,
        TokenFactory.Layout.getAuthorityMetadata s'.tokenFactory denom =
          TokenFactory.Layout.getAuthorityMetadata s.tokenFactory denom) ∧
      (∀ creator denom, denom ∈ TokenFactory.Layout.getDenomsFromCreator s'.tokenFactory creator ↔
        denom ∈ TokenFactory.Layout.getDenomsFromCreator s.tokenFactory creator) ∧
      s'.feePay = { s.feePay with uses := Keyed.empty } ∧
      s'.feeShare.params = s.feeShare.params ∧ s'.feeShare.feeShares = s.feeShare.feeShares ∧
      (∀ d c, (d, c) ∈ s'.feeShare.deployers ↔ (d, c) ∈ s.feeShare.deployers) ∧
      (∀ w c, (w, c) ∈ s'.feeShare.withdrawers ↔ (w, c) ∈ s.feeShare.withdrawers) ∧
      s'.clockParams = s.clockParams ∧ s'.clockContracts = Keyed.empty ∧
      s'.cwHooksParams = s.cwHooksParams ∧ s'.cwHooks = s.cwHooks := by
  obtain ⟨tokenFactory, denomMetadata, store, tfExported, tfImported, tfParams, tfDenoms, tfAdmins, tfIndex, -⟩ :=
    TokenFactory.Layout.initGenesis_exportGenesis alphanumeric exportable.tokenFactory
      (bankInitDenomMetadata (bankExportDenomMetadata s.denomMetadata))
  obtain ⟨feeShare, fsImported, fsParams, fsRecords, fsConsistent⟩ :=
    FeeShare.initGenesis_exportGenesis keepers.feeShareKeeper exportable.feeShareParams exportable.feeShareContracts
  obtain ⟨genesis, exported, imported⟩ := restart_of_modules keepers exportable tfExported tfImported fsImported
  have sameRecord : ∀ c, FeeShare.getFeeShare feeShare c = FeeShare.getFeeShare s.feeShare c := by
    simp [FeeShare.getFeeShare, fsRecords]
  refine ⟨genesis, _, exported, imported, rfl, rfl, tfParams, tfDenoms, tfAdmins, ?index, rfl, fsParams, fsRecords,
    ?deployers, ?withdrawers, rfl, rfl, rfl, rfl⟩
  case index =>
    -- the import indexes every denomination under its canonical creator, as the index did
    intro creator denom
    rw [tfIndex, indexed]
  case deployers =>
    intro d c
    rw [fsConsistent.deployers, sameRecord, exportable.feeShareIndexes.deployers]
  case withdrawers =>
    intro w c
    rw [fsConsistent.withdrawers, sameRecord, exportable.feeShareIndexes.withdrawers]

/-- A restart from an export keeps the bank metadata of every denomination but the tokenfactory's,
stored under their bases as the bank stores them, and gives each tokenfactory denomination the
metadata its creation writes, whatever was set for it since. -/
theorem restart_resets_factory_metadata (keepers : AppKeepers) (alphanumeric : keepers.codec.Alphanumeric)
    {s : AppState} (exportable : Exportable keepers s) (byBase : ∀ r ∈ s.denomMetadata.records, r.2.base = r.1) :
    ∃ genesis s', exportGenesis s = .ok genesis ∧ initGenesis keepers genesis = .ok s' ∧
      ∀ denom, s'.denomMetadata.find? denom =
        if denom ∈ TokenFactory.Layout.getAllDenoms s.tokenFactory then some (TokenFactory.Layout.denomMetaData denom)
        else s.denomMetadata.find? denom := by
  obtain ⟨tokenFactory, denomMetadata, store, tfExported, tfImported, -, -, -, -, metadata⟩ :=
    TokenFactory.Layout.initGenesis_exportGenesis alphanumeric exportable.tokenFactory
      (bankInitDenomMetadata (bankExportDenomMetadata s.denomMetadata))
  obtain ⟨feeShare, fsImported, -⟩ :=
    FeeShare.initGenesis_exportGenesis keepers.feeShareKeeper exportable.feeShareParams exportable.feeShareContracts
  obtain ⟨genesis, exported, imported⟩ := restart_of_modules keepers exportable tfExported tfImported fsImported
  refine ⟨genesis, _, exported, imported, fun denom => ?_⟩
  rw [metadata, bankInitDenomMetadata_bankExportDenomMetadata byBase]

theorem initGenesis_inv {keepers : AppKeepers} {genesis : GenesisState} {s' : AppState}
    (h : initGenesis keepers genesis = .ok s') :
    ∃ minter mintParams denomMetadata tokenFactory feeShare clockParams clockContracts cwHooksParams cwHooks,
      Mint.initGenesis genesis.mint = .ok (minter, mintParams) ∧
      TokenFactory.Layout.initGenesis keepers.codec (bankInitDenomMetadata genesis.denomMetadata)
        genesis.tokenFactory = .ok (denomMetadata, tokenFactory) ∧
      keepers.feeShareKeeper.initGenesis genesis.feeShare = .ok feeShare ∧
      Clock.initGenesis genesis.clock = .ok (clockParams, clockContracts) ∧
      CwHooks.initGenesis keepers.codec genesis.cwHooks = .ok (cwHooksParams, cwHooks) ∧
      s' = ⟨denomMetadata, minter, mintParams, tokenFactory, FeePay.initGenesis genesis.feePay, feeShare,
        clockParams, clockContracts, cwHooksParams, cwHooks⟩ := by
  unfold initGenesis at h
  obtain ⟨⟨minter, mintParams⟩, mint, h⟩ := Atomic.bind_eq_ok.mp h
  obtain ⟨⟨denomMetadata, tokenFactory⟩, factory, h⟩ := Atomic.bind_eq_ok.mp h
  obtain ⟨feeShare, fees, h⟩ := Atomic.bind_eq_ok.mp h
  obtain ⟨⟨clockParams, clockContracts⟩, clock, h⟩ := Atomic.bind_eq_ok.mp h
  obtain ⟨⟨cwHooksParams, cwHooks⟩, hooks, h⟩ := Atomic.bind_eq_ok.mp h
  rw [Atomic.pure_eq_ok] at h
  exact ⟨minter, mintParams, denomMetadata, tokenFactory, feeShare, clockParams, clockContracts, cwHooksParams,
    cwHooks, mint, factory, fees, clock, hooks, h.symm⟩

/-! ### A chain restarted from its export -/

def sampleKeepers : AppKeepers := ⟨TokenFactory.Layout.alphanumericCodec, "juno1gov", "juno1gov"⟩

def sampleDenom : String := TokenFactory.moduleDenomPrefix ++ "/" ++ "juno1alice" ++ "/" ++ "x"

/-- A chain with one clock contract, one feepay contract that a wallet used once, one feeshare
record, one staking hook and one tokenfactory denomination. -/
def sampleState : AppState where
  denomMetadata := Store.set Keyed.empty sampleDenom (TokenFactory.Layout.denomMetaData sampleDenom)
  minter := ⟨legacyZeroDec, legacyZeroDec, 0, 0, 0⟩
  mintParams := Mint.defaultParams
  tokenFactory := Atomic.execute (TokenFactory.Layout.Write.apply sampleKeepers.codec) Keyed.empty
    [.setParams ⟨[]⟩, .setAuthorityMetadata sampleDenom "juno1alice", .addDenomFromCreator "juno1alice" sampleDenom]
  feePay := ⟨⟨true⟩, Keyed.empty.put ⟨"juno1contract", 1000, 5⟩,
    Store.set Keyed.empty (FeePay.usesKey "juno1contract" "juno1alice") 1⟩
  feeShare := ⟨FeeShare.defaultParams, Keyed.empty.put ⟨"juno1contract", ⟨"juno1contract", "juno1alice", "juno1alice"⟩⟩,
    [("juno1alice", "juno1contract")], [("juno1alice", "juno1contract")]⟩
  clockParams := ⟨100000⟩
  clockContracts := Keyed.empty.put ⟨"juno1clock", false⟩
  cwHooksParams := ⟨100000⟩
  cwHooks := ⟨Keyed.empty.put (CwHooks.contractOf sampleKeepers.codec "juno1staker"), Keyed.empty⟩

theorem sample_denoms :
    TokenFactory.Layout.getAllDenoms sampleState.tokenFactory = [sampleDenom] ∧
      TokenFactory.Layout.getAuthorityMetadata sampleState.tokenFactory sampleDenom = .ok "juno1alice" := by
  refine ⟨by decide, ?_⟩
  -- the admin read is that of the last write recording one
  have recorded : (TokenFactory.Layout.Write.setAuthorityMetadata sampleDenom "juno1alice").adminOf
      sampleKeepers.codec sampleDenom = some "juno1alice" := by
    rw [TokenFactory.Layout.Write.adminOf, if_pos ⟨rfl, by decide⟩]
  exact @TokenFactory.Layout.getAuthorityMetadata_execute_last sampleKeepers.codec Keyed.empty [.setParams ⟨[]⟩]
    [.addDenomFromCreator "juno1alice" sampleDenom] _ sampleDenom "juno1alice" recorded
    (by simp [TokenFactory.Layout.Write.adminOf])

theorem mem_getDenomsFromCreator_created {codec : Bech32} {c d : String}
    (admin : ¬(c ≠ "" ∧ (codec.decode c).isNone)) (creatorFree : '|' ∉ c.toList) (denomFree : '|' ∉ d.toList)
    (creator denom : String) :
    denom ∈ TokenFactory.Layout.getDenomsFromCreator (Atomic.execute (TokenFactory.Layout.Write.apply codec)
      Keyed.empty [.setParams ⟨[]⟩, .setAuthorityMetadata d c, .addDenomFromCreator c d]) creator ↔
      c = creator ∧ d = denom := by
  open TokenFactory.Layout in
  rw [mem_getDenomsFromCreator, Atomic.execute_cons, Atomic.execute_cons, Atomic.execute_cons, Atomic.execute_nil,
    commit_setAuthorityMetadata, if_neg admin,
    Atomic.commit_of_ok (rfl : Write.apply codec _ (.addDenomFromCreator c d) = _),
    Atomic.commit_of_ok (rfl : Write.apply codec _ (.setParams ⟨[]⟩) = _),
    addDenomFromCreator, setParams, Store.find?_set, Store.find?_set, Store.find?_set,
    if_neg (authorityKey_ne_creatorKey d creator denom), if_neg (creatorKey_ne_paramsKey creator denom).symm]
  have key := @TokenFactory.Layout.creatorKey_eq_iff_of_not_mem c creator d denom creatorFree denomFree
  by_cases indexed : (TokenFactory.getCreatorPrefix c).toList ++ d.toList =
      (TokenFactory.getCreatorPrefix creator).toList ++ denom.toList
  · simp [key.mp indexed]
  · rw [if_neg indexed]
    simp only [Store.find?, Keyed.get?_empty, Option.map_none, Option.isSome_none, Bool.false_eq_true, false_iff]
    exact fun both => indexed (key.mpr both)

theorem sample_indexed : TokenFactory.Layout.IndexedByCreator sampleKeepers.codec sampleState.tokenFactory := by
  intro creator denom
  have creatorOf : TokenFactory.Layout.genesisCreator sampleKeepers.codec sampleDenom = "juno1alice" := by
    rw [TokenFactory.Layout.genesisCreator, sampleDenom,
      @TokenFactory.deconstructDenom_layout sampleKeepers.codec "juno1alice" "x" (by decide) (by decide)]
    rfl
  rw [sample_denoms.1, List.mem_singleton]
  rw [sampleState, mem_getDenomsFromCreator_created (by decide) (by decide) (by decide)]
  constructor
  · rintro ⟨rfl, rfl⟩
    exact ⟨rfl, creatorOf⟩
  · rintro ⟨rfl, rfl⟩
    exact ⟨creatorOf.symm, rfl⟩

theorem sample_exportable : Exportable sampleKeepers sampleState where
  mintParams := by decide
  tokenFactory := {
    params := ⟨⟨[]⟩, rfl⟩
    creators := by
      intro denom mem
      rw [sample_denoms.1, List.mem_singleton] at mem
      subst mem
      refine ⟨"juno1alice", "x", ?_⟩
      rw [sampleDenom, @TokenFactory.deconstructDenom_layout sampleKeepers.codec "juno1alice" "x" (by decide)
        (by decide)]
      rfl
    admins := by
      intro denom mem
      rw [sample_denoms.1, List.mem_singleton] at mem
      subst mem
      exact ⟨"juno1alice", sample_denoms.2, by decide⟩ }
  feeShareParams := FeeShare.defaultParams_validate
  feeShareContracts := by decide
  feeShareIndexes := FeeShare.initGenesis_consistent _ (by decide)
    (rfl : sampleKeepers.feeShareKeeper.initGenesis
      ⟨FeeShare.defaultParams, [⟨"juno1contract", "juno1alice", "juno1alice"⟩]⟩ = .ok sampleState.feeShare)
  clockParams := by decide
  cwHooks := by
    intro keyPrefix
    cases keyPrefix <;> decide

theorem sample_restart_keeps_registrations :
    ∃ genesis s', exportGenesis sampleState = .ok genesis ∧ initGenesis sampleKeepers genesis = .ok s' ∧
      s'.cwHooks = sampleState.cwHooks ∧ s'.feePay.contracts = sampleState.feePay.contracts ∧
      s'.feeShare.feeShares = sampleState.feeShare.feeShares ∧
      TokenFactory.Layout.getAuthorityMetadata s'.tokenFactory sampleDenom = .ok "juno1alice" ∧
      sampleDenom ∈ TokenFactory.Layout.getDenomsFromCreator s'.tokenFactory "juno1alice" ∧
      s'.clockContracts = Keyed.empty := by
  obtain ⟨genesis, s', exported, imported, -, -, -, -, admins, index, feePay, -, records, -, -, -, clock, -, cwHooks⟩ :=
    exported_state_reimports sampleKeepers TokenFactory.Layout.alphanumeric_alphanumericCodec sample_exportable
      sample_indexed
  refine ⟨genesis, s', exported, imported, cwHooks, by rw [feePay], records, ?_, ?_, clock⟩
  · rw [admins sampleDenom (by rw [sample_denoms.1]; exact List.mem_singleton_self _), sample_denoms.2]
  · rw [index, sampleState, mem_getDenomsFromCreator_created (by decide) (by decide) (by decide)]
    exact ⟨rfl, rfl⟩

def aliceMetadata : TokenFactory.Metadata :=
  ⟨"the token of alice", [⟨sampleDenom, 0, []⟩, ⟨"alice", 6, []⟩], sampleDenom, "alice", "Alice", "ALICE"⟩

def junoMetadata : TokenFactory.Metadata :=
  ⟨"the staking token", [⟨"ujuno", 0, []⟩, ⟨"juno", 6, []⟩], "ujuno", "juno", "Juno", "JUNO"⟩

def brandedState : AppState :=
  { sampleState with
    denomMetadata := Store.set (Store.set Keyed.empty sampleDenom aliceMetadata) "ujuno" junoMetadata }

theorem restart_resets_alice_metadata :
    ∃ genesis s', exportGenesis brandedState = .ok genesis ∧ initGenesis sampleKeepers genesis = .ok s' ∧
      s'.denomMetadata.find? sampleDenom = some (TokenFactory.Layout.denomMetaData sampleDenom) ∧
      s'.denomMetadata.find? "ujuno" = some junoMetadata := by
  have listed : TokenFactory.Layout.getAllDenoms brandedState.tokenFactory = [sampleDenom] := sample_denoms.1
  have exportable : Exportable sampleKeepers brandedState := sample_exportable.setDenomMetadata _
  obtain ⟨genesis, s', exported, imported, metadata⟩ :=
    restart_resets_factory_metadata sampleKeepers TokenFactory.Layout.alphanumeric_alphanumericCodec exportable
      (by decide)
  refine ⟨genesis, s', exported, imported, ?_, ?_⟩
  · rw [metadata, listed, if_pos (List.mem_singleton_self _)]
  · rw [metadata, listed, if_neg (by decide)]
    decide

def sampleStateWithoutDenoms : AppState :=
  { sampleState with tokenFactory := TokenFactory.Layout.setParams Keyed.empty ⟨[]⟩ }

/-- A codec of letters and digits that reads the all-capitals JUNO1ALICE as juno1alice, as
bech32 reads an address written in capitals. -/
def capitalsCodec : Bech32 where
  decode s := if s.toList.all Char.isAlphanum then if s = "JUNO1ALICE" then some "juno1alice" else some s else none
  decode_canonical s a h := by
    by_cases letters : s.toList.all Char.isAlphanum = true
    · by_cases upper : s = "JUNO1ALICE"
      · rw [if_pos letters, if_pos upper, Option.some.injEq] at h
        subst h
        decide
      · rw [if_pos letters, if_neg upper, Option.some.injEq] at h
        subst h
        rw [if_pos letters, if_neg upper]
    · rw [if_neg letters] at h
      cases h
  bytes := textBytes
  bytes_injective := textBytes_injective

theorem alphanumeric_capitalsCodec : capitalsCodec.Alphanumeric := by
  intro s a decoded c mem
  by_cases letters : s.toList.all Char.isAlphanum = true
  · exact List.all_eq_true.mp letters c mem
  · simp only [capitalsCodec, if_neg letters, reduceCtorEq] at decoded

def capitalsKeepers : AppKeepers := ⟨capitalsCodec, "juno1gov", "juno1gov"⟩

def capitalsDenom : String := TokenFactory.moduleDenomPrefix ++ "/" ++ "JUNO1ALICE" ++ "/" ++ "x"

/-- A chain whose one denomination was created by JUNO1ALICE, sending with its address in
capitals as `MsgCreateDenom` accepts: the keeper indexes it under that text. -/
def capitalsState : AppState where
  denomMetadata := Keyed.empty
  minter := ⟨legacyZeroDec, legacyZeroDec, 0, 0, 0⟩
  mintParams := Mint.defaultParams
  tokenFactory := Atomic.execute (TokenFactory.Layout.Write.apply capitalsCodec) Keyed.empty
    [.setParams ⟨[]⟩, .setAuthorityMetadata capitalsDenom "JUNO1ALICE", .addDenomFromCreator "JUNO1ALICE" capitalsDenom]
  feePay := ⟨⟨true⟩, Keyed.empty, Keyed.empty⟩
  feeShare := ⟨FeeShare.defaultParams, Keyed.empty, [], []⟩
  clockParams := ⟨100000⟩
  clockContracts := Keyed.empty
  cwHooksParams := ⟨100000⟩
  cwHooks := ⟨Keyed.empty, Keyed.empty⟩

theorem capitals_denoms :
    TokenFactory.Layout.getAllDenoms capitalsState.tokenFactory = [capitalsDenom] ∧
      TokenFactory.Layout.getAuthorityMetadata capitalsState.tokenFactory capitalsDenom = .ok "JUNO1ALICE" := by
  refine ⟨by decide, ?_⟩
  have recorded : (TokenFactory.Layout.Write.setAuthorityMetadata capitalsDenom "JUNO1ALICE").adminOf
      capitalsKeepers.codec capitalsDenom = some "JUNO1ALICE" := by
    rw [TokenFactory.Layout.Write.adminOf, if_pos ⟨rfl, by decide⟩]
  exact @TokenFactory.Layout.getAuthorityMetadata_execute_last capitalsKeepers.codec Keyed.empty [.setParams ⟨[]⟩]
    [.addDenomFromCreator "JUNO1ALICE" capitalsDenom] _ capitalsDenom "JUNO1ALICE" recorded
    (by simp [TokenFactory.Layout.Write.adminOf])

theorem genesisCreator_capitalsDenom :
    TokenFactory.Layout.genesisCreator capitalsCodec capitalsDenom = "juno1alice" := by
  rw [TokenFactory.Layout.genesisCreator, capitalsDenom,
    @TokenFactory.deconstructDenom_layout capitalsCodec "JUNO1ALICE" "x" (by decide) (by decide)]
  rfl

theorem capitals_exportable : Exportable capitalsKeepers capitalsState where
  mintParams := by decide
  tokenFactory := {
    params := ⟨⟨[]⟩, rfl⟩
    creators := by
      intro denom mem
      rw [capitals_denoms.1, List.mem_singleton] at mem
      subst mem
      refine ⟨"juno1alice", "x", ?_⟩
      rw [capitalsDenom, @TokenFactory.deconstructDenom_layout capitalsKeepers.codec "JUNO1ALICE" "x" (by decide)
        (by decide)]
      rfl
    admins := by
      intro denom mem
      rw [capitals_denoms.1, List.mem_singleton] at mem
      subst mem
      exact ⟨"JUNO1ALICE", capitals_denoms.2, by decide⟩ }
  feeShareParams := FeeShare.defaultParams_validate
  feeShareContracts := by
    intro share mem
    cases mem
  feeShareIndexes := FeeShare.consistent_empty _ _
  clockParams := by decide
  cwHooks := by
    intro keyPrefix contract mem
    cases keyPrefix <;> cases mem

/-- Two kinds of state a restart does not bring back: the clock contract and the wallet's feepay
usage, which no genesis holds; and the creator index of a denomination whose creator gave its
address in capitals, which the import moves to the decoded address. -/
theorem restart_loses_clock_usage_and_capitals_index :
    (∃ genesis s', exportGenesis sampleStateWithoutDenoms = .ok genesis ∧
      initGenesis sampleKeepers genesis = .ok s' ∧
      s'.clockContracts ≠ sampleStateWithoutDenoms.clockContracts ∧
      s'.feePay.uses ≠ sampleStateWithoutDenoms.feePay.uses) ∧
    ∃ genesis s', exportGenesis capitalsState = .ok genesis ∧ initGenesis capitalsKeepers genesis = .ok s' ∧
      capitalsDenom ∈ TokenFactory.Layout.getDenomsFromCreator capitalsState.tokenFactory "JUNO1ALICE" ∧
      capitalsDenom ∉ TokenFactory.Layout.getDenomsFromCreator s'.tokenFactory "JUNO1ALICE" ∧
      capitalsDenom ∈ TokenFactory.Layout.getDenomsFromCreator s'.tokenFactory "juno1alice" := by
  refine ⟨⟨_, _, rfl, rfl, ?_, ?_⟩, ?_⟩
  · intro same
    cases congrArg Keyed.records same
  · intro same
    cases congrArg Keyed.records same
  obtain ⟨tokenFactory, denomMetadata, store, tfExported, tfImported, -, -, -, tfIndex, -⟩ :=
    TokenFactory.Layout.initGenesis_exportGenesis alphanumeric_capitalsCodec capitals_exportable.tokenFactory
      (bankInitDenomMetadata (bankExportDenomMetadata capitalsState.denomMetadata))
  obtain ⟨feeShare, fsImported, -⟩ := FeeShare.initGenesis_exportGenesis capitalsKeepers.feeShareKeeper
    capitals_exportable.feeShareParams capitals_exportable.feeShareContracts
  obtain ⟨genesis, exported, imported⟩ :=
    restart_of_modules capitalsKeepers capitals_exportable tfExported tfImported fsImported
  have listed : capitalsDenom ∈ TokenFactory.Layout.getAllDenoms capitalsState.tokenFactory := by
    rw [capitals_denoms.1]
    exact List.mem_singleton_self _
  refine ⟨genesis, _, exported, imported, ?_, ?_, ?_⟩
  · rw [capitalsState, mem_getDenomsFromCreator_created (by decide) (by decide) (by decide)]
    exact ⟨rfl, rfl⟩
  · -- the import reads the creator back decoded, as juno1alice
    rw [tfIndex, genesisCreator_capitalsDenom]
    exact fun ⟨_, moved⟩ => absurd moved (by decide)
  · rw [tfIndex, genesisCreator_capitalsDenom]
    exact ⟨listed, rfl⟩

/-! ### What `genesis validate` checks

The command runs each module's `ValidateGenesis`. Those of mint, tokenfactory, feepay and
feeshare check what their `InitGenesis` needs; those of clock and cw-hooks check the parameters
only. The cw-hooks `InitGenesis` runs the module's full `ValidateGenesis`, which also decodes every
registered address, and panics when one does not. -/

/-- A genesis whose modules pass their checks starts the chain: the checks of `genesis validate`
for mint, tokenfactory, feeshare and clock, and for cw-hooks the `ValidateGenesis` that its
`InitGenesis` runs. The feepay import cannot fail. -/
theorem chain_starts_of_validated_genesis (keepers : AppKeepers) (genesis : GenesisState)
    (mint : Mint.validateGenesis genesis.mint = .ok ())
    (tokenFactory : genesis.tokenFactory.validate keepers.codec = .ok ())
    (feeShare : genesis.feeShare.validate keepers.codec = .ok ())
    (clock : Clock.AppModuleBasic.validateGenesis genesis.clock = .ok ())
    (cwHooks : CwHooks.validateGenesis keepers.codec genesis.cwHooks = .ok ()) :
    ∃ s, initGenesis keepers genesis = .ok s := by
  obtain ⟨metadata, mintGenesis, tokenFactoryGenesis, feePayGenesis, feeShareGenesis, clockGenesis,
    cwHooksGenesis⟩ := genesis
  obtain ⟨⟨denomMetadata, store⟩, factory⟩ :=
    TokenFactory.Layout.initGenesis_ok_of_validate tokenFactory (bankInitDenomMetadata metadata)
  obtain ⟨fees, feesImported⟩ := FeeShare.initGenesis_ok_of_validate keepers.feeShareKeeper feeShare
  obtain ⟨⟨hooksParams, hooks⟩, hooksImported⟩ := (CwHooks.initGenesis_ok_iff_validateGenesis _).mpr cwHooks
  exact ⟨_, initGenesis_eq (Mint.initGenesis_of_validateGenesis mint) factory feesImported
    (Clock.initGenesis_of_appModuleBasic clock) hooksImported⟩

/-- The chain starts only when every address of the cw-hooks genesis decodes. -/
theorem hooks_decode_of_initGenesis {keepers : AppKeepers} {genesis : GenesisState} {s' : AppState}
    (h : initGenesis keepers genesis = .ok s') :
    (∀ v ∈ genesis.cwHooks.stakingContractAddresses, (keepers.codec.decode v).isSome) ∧
      ∀ v ∈ genesis.cwHooks.govContractAddresses, (keepers.codec.decode v).isSome := by
  obtain ⟨_, _, _, _, _, _, _, _, _, -, -, -, -, hooks, -⟩ := initGenesis_inv h
  exact (CwHooks.validateGenesis_ok_iff _).mp ((CwHooks.initGenesis_ok_iff_validateGenesis _).mp ⟨_, hooks⟩)

def hookGenesis (stakingContract : String) : GenesisState :=
  ⟨[], ⟨⟨legacyZeroDec, legacyZeroDec, 0, 0, 0⟩, Mint.defaultParams⟩, ⟨⟨[]⟩, []⟩, ⟨⟨true⟩, []⟩,
    ⟨FeeShare.defaultParams, []⟩, ⟨⟨100000⟩⟩, ⟨⟨100000⟩, [stakingContract], []⟩⟩

theorem staker_genesis_starts :
    Mint.validateGenesis (hookGenesis "juno1staker").mint = .ok () ∧
      (hookGenesis "juno1staker").tokenFactory.validate sampleKeepers.codec = .ok () ∧
      (hookGenesis "juno1staker").feeShare.validate sampleKeepers.codec = .ok () ∧
      Clock.AppModuleBasic.validateGenesis (hookGenesis "juno1staker").clock = .ok () ∧
      CwHooks.validateGenesis sampleKeepers.codec (hookGenesis "juno1staker").cwHooks = .ok () ∧
      ∃ s, initGenesis sampleKeepers (hookGenesis "juno1staker") = .ok s := by
  have mint : Mint.validateGenesis (hookGenesis "juno1staker").mint = .ok () := by decide +kernel
  have tokenFactory : (hookGenesis "juno1staker").tokenFactory.validate sampleKeepers.codec = .ok () := by decide
  have feeShare : (hookGenesis "juno1staker").feeShare.validate sampleKeepers.codec = .ok () := by decide
  have clock : Clock.AppModuleBasic.validateGenesis (hookGenesis "juno1staker").clock = .ok () := by decide
  have cwHooks : CwHooks.validateGenesis sampleKeepers.codec (hookGenesis "juno1staker").cwHooks = .ok () := by
    decide
  exact ⟨mint, tokenFactory, feeShare, clock, cwHooks,
    chain_starts_of_validated_genesis sampleKeepers _ mint tokenFactory feeShare clock cwHooks⟩

/-- `genesis validate` passes a genesis on which the chain does not start: the cw-hooks check it
runs reads the parameters only, and the import panics on a staking contract that is not an
address. -/
theorem validated_genesis_stops_chain_start :
    ∃ genesis : GenesisState,
      Mint.validateGenesis genesis.mint = .ok () ∧ genesis.tokenFactory.validate sampleKeepers.codec = .ok () ∧
      genesis.feePay.validate sampleKeepers.codec = .ok () ∧
      genesis.feeShare.validate sampleKeepers.codec = .ok () ∧
      Clock.AppModuleBasic.validateGenesis genesis.clock = .ok () ∧
      CwHooks.AppModuleBasic.validateGenesis genesis.cwHooks = .ok () ∧
      ∀ s, initGenesis sampleKeepers genesis ≠ .ok s := by
  refine ⟨hookGenesis "juno1-hook", by decide +kernel, by decide, by decide, by decide, by decide,
    CwHooks.AppModuleBasic.validateGenesis_ok _, ?_⟩
  intro s started
  -- the staking contract is not made of letters and digits, so it does not decode
  have decodes := (hooks_decode_of_initGenesis started).1 "juno1-hook" List.mem_cons_self
  exact absurd decodes (by decide)

end Juno.App
