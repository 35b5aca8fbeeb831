import Juno.FeeShare.Registry

/-! The feeshare reverse maps against the records.

The maps are consistent when they hold exactly the pairs the records name: (d, c)
in the deployer map when the record under c has the deployer d (decoded, or the
empty address when it does not decode), and (w, c) in the withdrawer map when the
record under c has a withdrawer that decodes to w. InitGenesis builds consistent
maps from a genesis whose contracts decode to distinct addresses, and a store
imports its own export back.

`GenesisState.Validate` keeps a contract from appearing twice only as the same
text. The all-capitals form of an address decodes to the same address, so a
genesis may list one contract twice; InitGenesis then keeps the second record, in
capitals, and both records' map entries.

A genesis that passes `GenesisState.Validate` imports, and the export of every state that
messages reach from it passes `GenesisState.Validate` again: each record stays under the
contract its text decodes to, so no text appears twice.
-/

set_option autoImplicit false
set_option linter.dupNamespace false

namespace Juno.FeeShare

open Sdk KVStore

variable (k : Keeper)

/-- The deployer-map address of a record: its decoded deployer, or the empty (nil) address. -/
def deployerKey (fs : FeeShare) : String := (k.codec.decode fs.deployerAddress).getD ""

/-- Both reverse maps hold exactly the pairs the records name. -/
structure Consistent (s : State) : Prop where
  deployers : ∀ d c, (d, c) ∈ s.deployers ↔ ∃ fs, getFeeShare s c = some fs ∧ deployerKey k fs = d
  withdrawers : ∀ w c, (w, c) ∈ s.withdrawers ↔
    ∃ fs, getFeeShare s c = some fs ∧ k.codec.decode fs.withdrawerAddress = some w

/-! ### Changes under one contract -/

section Pointwise
variable {I I' : Index} {R R' : String → String → Prop} (c₀ : String)

theorem index_update (old : ∀ d c, (d, c) ∈ I ↔ R c d)
    (others : ∀ d c, c ≠ c₀ → ((d, c) ∈ I' ↔ (d, c) ∈ I)) (othersR : ∀ d c, c ≠ c₀ → (R' c d ↔ R c d))
    (here : ∀ d, (d, c₀) ∈ I' ↔ R' c₀ d) : ∀ d c, (d, c) ∈ I' ↔ R' c d := by
  intro d c
  by_cases same : c = c₀
  · subst same
    exact here d
  · rw [others d c same, othersR d c same]
    exact old d c

theorem mem_insert_ne {d c d' c' : String} (ne : c ≠ c') : (d, c) ∈ I.insert (d', c') ↔ (d, c) ∈ I := by
  rw [List.mem_insert_iff]
  simp [ne]

end Pointwise

section Records
variable {s s' : State} {c₀ : String}

theorem not_mem_of_fresh (consistent : Consistent k s) (fresh : getFeeShare s c₀ = none) (a : String) :
    (a, c₀) ∉ s.deployers ∧ (a, c₀) ∉ s.withdrawers := by
  constructor
  · rw [consistent.deployers]
    simp [fresh]
  · rw [consistent.withdrawers]
    simp [fresh]

/-- Consistent maps stay consistent when the records and the maps change under `c₀` only and the
maps' entries for `c₀` are those of the new record. -/
theorem consistent_of_change (consistent : Consistent k s) (c₀ : String)
    (records : ∀ c, c ≠ c₀ → getFeeShare s' c = getFeeShare s c)
    (deployersOthers : ∀ d c, c ≠ c₀ → ((d, c) ∈ s'.deployers ↔ (d, c) ∈ s.deployers))
    (withdrawersOthers : ∀ w c, c ≠ c₀ → ((w, c) ∈ s'.withdrawers ↔ (w, c) ∈ s.withdrawers))
    (deployersHere : ∀ d, (d, c₀) ∈ s'.deployers ↔ ∃ fs, getFeeShare s' c₀ = some fs ∧ deployerKey k fs = d)
    (withdrawersHere : ∀ w, (w, c₀) ∈ s'.withdrawers ↔
      ∃ fs, getFeeShare s' c₀ = some fs ∧ k.codec.decode fs.withdrawerAddress = some w) :
    Consistent k s' where
  deployers := index_update c₀ consistent.deployers deployersOthers
    (fun d c ne => by rw [records c ne]) deployersHere
  withdrawers := index_update c₀ consistent.withdrawers withdrawersOthers
    (fun w c ne => by rw [records c ne]) withdrawersHere

theorem consistent_of_fresh (consistent : Consistent k s) (fresh : getFeeShare s c₀ = none) {fs : FeeShare}
    (stored : s'.feeShares = s.feeShares.put ⟨c₀, fs⟩)
    (deployers : s'.deployers = s.deployers.insert (deployerKey k fs, c₀))
    (withdrawers : s'.withdrawers = match k.codec.decode fs.withdrawerAddress with
      | some w => s.withdrawers.insert (w, c₀)
      | none => s.withdrawers) :
    Consistent k s' := by
  have absent := not_mem_of_fresh k consistent fresh
  apply consistent_of_change k consistent c₀ (fun c ne => getFeeShare_of_put_ne stored ne)
  · intro d c ne
    rw [deployers, mem_insert_ne ne]
  · intro w c ne
    rw [withdrawers]
    split
    · exact mem_insert_ne ne
    · rfl
  · intro d
    rw [deployers, getFeeShare_of_put_self stored, List.mem_insert_iff]
    simp [(absent d).1, eq_comm]
  · intro w
    rw [withdrawers, getFeeShare_of_put_self stored]
    -- the withdrawer entry is there exactly when the record's withdrawer decodes
    split
    · rename_i decoded
      rw [List.mem_insert_iff]
      simp [(absent w).2, decoded, eq_comm]
    · rename_i decoded
      simp [(absent w).2, decoded]

end Records

/-! ### Genesis -/

section Genesis
variable {s s' : State}

theorem initFeeShare_writes {share : FeeShare} (h : k.initFeeShare s share = .ok s') :
    ∃ contract, k.codec.decode share.contractAddress = some contract ∧
      s'.feeShares = s.feeShares.put ⟨contract, share⟩ ∧
      s'.deployers = s.deployers.insert (deployerKey k share, contract) ∧
      s'.withdrawers = (match k.codec.decode share.withdrawerAddress with
        | some w => s.withdrawers.insert (w, contract)
        | none => s.withdrawers) := by
  unfold Keeper.initFeeShare at h
  cases decoded : k.codec.decode share.contractAddress with
  | none => simp [decoded] at h
  | some contract =>
    refine ⟨contract, rfl, ?_⟩
    -- the withdrawer map is written only for a withdrawer that decodes
    cases withdrawer : k.codec.decode share.withdrawerAddress with
    | none =>
      simp only [decoded, withdrawer, Except.ok.injEq] at h
      subst h
      exact ⟨rfl, rfl, rfl⟩
    | some w =>
      simp only [decoded, withdrawer, Except.ok.injEq] at h
      subst h
      exact ⟨rfl, rfl, rfl⟩

theorem foldlM_initFeeShare_consistent (shares : List FeeShare) (consistent : Consistent k s)
    (fresh : ∀ c ∈ shares.filterMap (k.codec.decode ·.contractAddress), getFeeShare s c = none)
    (distinct : (shares.filterMap (k.codec.decode ·.contractAddress)).Nodup)
    (h : shares.foldlM k.initFeeShare s = .ok s') : Consistent k s' := by
  -- each record finds its contract fresh, the records before it having decoded to others
  induction shares generalizing s with
  | nil =>
    rw [List.foldlM_nil, Atomic.pure_eq_ok] at h
    rw [← h]
    exact consistent
  | cons share rest ih =>
    rw [List.foldlM_cons] at h
    obtain ⟨s₁, first, h⟩ := Atomic.bind_eq_ok.mp h
    obtain ⟨contract, decoded, stored, deployers, withdrawers⟩ := initFeeShare_writes k first
    rw [List.filterMap_cons, decoded] at fresh distinct
    obtain ⟨unused, distinct⟩ := List.nodup_cons.mp distinct
    have consistent₁ : Consistent k s₁ :=
      consistent_of_fresh k consistent (fresh contract List.mem_cons_self) stored deployers withdrawers
    refine ih consistent₁ ?_ distinct h
    intro c mem
    have ne : c ≠ contract := fun same => unused (same ▸ mem)
    rw [getFeeShare_of_put_ne stored ne]
    exact fresh c (List.mem_cons_of_mem _ mem)

theorem consistent_empty (p : Params) : Consistent k ⟨p, Keyed.empty, [], []⟩ := by
  constructor <;> simp [getFeeShare]

theorem initGenesis_consistent {data : GenesisState}
    (distinct : (data.feeShare.filterMap (k.codec.decode ·.contractAddress)).Nodup)
    (h : k.initGenesis data = .ok s) : Consistent k s := by
  unfold Keeper.initGenesis Keeper.setParams at h
  obtain ⟨s₀, set, h⟩ := Atomic.bind_eq_ok.mp h
  obtain ⟨_, -, set⟩ := Atomic.bind_eq_ok.mp set
  rw [Atomic.pure_eq_ok] at set
  subst set
  exact foldlM_initFeeShare_consistent k data.feeShare (consistent_empty k data.params) (by simp [getFeeShare])
    distinct h

theorem initFeeShare_params {share : FeeShare} (h : k.initFeeShare s share = .ok s') : s'.params = s.params := by
  unfold Keeper.initFeeShare at h
  split at h
  · cases h
  · split at h <;> (cases h; rfl)

theorem initGenesis_eq_foldlM (data : GenesisState) (valid : data.params.validate = .ok ()) :
    k.initGenesis data = data.feeShare.foldlM k.initFeeShare ⟨data.params, Keyed.empty, [], []⟩ := by
  rw [Keeper.initGenesis, Keeper.setParams, valid]
  rfl

theorem foldlM_initFeeShare_ok (shares : List FeeShare)
    (decoded : ∀ share ∈ shares, (k.codec.decode share.contractAddress).isSome) (s : State) :
    ∃ s', shares.foldlM k.initFeeShare s = .ok s' := by
  apply Atomic.foldlM_exists_ok
  intro st share mem
  obtain ⟨contract, found⟩ := Option.isSome_iff_exists.mp (decoded share mem)
  simp only [Keeper.initFeeShare, found]
  split <;> exact ⟨_, rfl⟩

/-- A store whose records are under the contracts their texts decode to imports back from its
export with its parameters and records, and with maps consistent with them. -/
theorem initGenesis_exportGenesis (valid : s.params.validate = .ok ())
    (keys : ∀ e ∈ s.feeShares.records, k.codec.decode e.feeshare.contractAddress = some e.contract) :
    ∃ s', k.initGenesis (exportGenesis s) = .ok s' ∧ s'.params = s.params ∧ s'.feeShares = s.feeShares ∧
      Consistent k s' := by
  obtain ⟨s', imported⟩ := foldlM_initFeeShare_ok k (s.feeShares.records.map Entry.feeshare)
    (fun share mem => by
      obtain ⟨e, stored, rfl⟩ := List.mem_map.mp mem
      rw [keys e stored]
      rfl) ⟨s.params, Keyed.empty, [], []⟩
  have initialized : k.initGenesis (exportGenesis s) = .ok s' :=
    (initGenesis_eq_foldlM k (exportGenesis s) valid).trans imported
  refine ⟨s', initialized, ?_, ?_, ?_⟩
  · have kept := Atomic.foldlM_observe State.params k.initFeeShare _ (fun _ _ _ h => initFeeShare_params k h) imported
    exact kept
  · -- each record is put back under the contract its text decodes to, which is its key
    have tracked := Atomic.foldlM_track State.feeShares
      (fun (fs : Keyed Entry.contract) share => fs.put ⟨(k.codec.decode share.contractAddress).getD "", share⟩)
      k.initFeeShare _ (by
        intro st share next mem h
        obtain ⟨contract, decoded, stored, -⟩ := initFeeShare_writes k h
        rw [stored, decoded]
        rfl) imported
    have putBack : ∀ fs : Keyed Entry.contract, ∀ e ∈ s.feeShares.records,
        fs.put ⟨(k.codec.decode e.feeshare.contractAddress).getD "", e.feeshare⟩ = fs.put e := by
      intro fs e mem
      rw [keys e mem]
      rfl
    rw [tracked, List.foldl_map, List.foldl_ext _ _ _ putBack]
    exact Keyed.foldl_put_records s.feeShares
  · have contracts : (exportGenesis s).feeShare.filterMap (k.codec.decode ·.contractAddress) =
        s.feeShares.records.map Entry.contract := by
      rw [exportGenesis, List.filterMap_map]
      exact List.filterMap_eq_map_iff_forall_eq_some.mpr keys
    refine initGenesis_consistent k ?_ initialized
    rw [contracts]
    exact (List.pairwise_map.mpr s.feeShares.sorted).nodup

theorem FeeShare.validate_ok_iff (codec : Bech32) (share : FeeShare) :
    share.validate codec = .ok () ↔
      (codec.decode share.contractAddress).isSome ∧ (codec.decode share.deployerAddress).isSome ∧
        share.withdrawerAddress ≠ "" ∧ (codec.decode share.withdrawerAddress).isSome := by
  unfold FeeShare.validate
  cases contract : codec.decode share.contractAddress
  · simp [Bech32.accAddressFromBech32, contract, bind, Except.bind]
  cases deployer : codec.decode share.deployerAddress
  · simp [Bech32.accAddressFromBech32, contract, deployer, bind, Except.bind]
  by_cases blank : share.withdrawerAddress = ""
  · simp [Bech32.accAddressFromBech32, contract, deployer, blank, bind, Except.bind]
  cases withdrawer : codec.decode share.withdrawerAddress <;>
    simp [Bech32.accAddressFromBech32, contract, deployer, withdrawer, blank, bind, Except.bind, pure, Except.pure]

theorem GenesisState.validate_ok_iff (data : GenesisState) :
    data.validate k.codec = .ok () ↔
      (∀ share ∈ data.feeShare, share.validate k.codec = .ok ()) ∧
        (data.feeShare.map FeeShare.contractAddress).Nodup ∧ data.params.validate = .ok () := by
  unfold GenesisState.validate
  rw [Atomic.bind_eq_ok, exists_and_right,
    Atomic.foldlM_seen_ok_iff _ FeeShare.contractAddress (fun share => share.validate k.codec = .ok ())]
  · simp only [List.not_mem_nil, not_false_eq_true, implies_true, and_true, and_assoc]
  -- one step of the loop: the duplicate check, then the record's own
  intro seen share r
  by_cases dup : share.contractAddress ∈ seen
  · simp [dup, throw, throwThe, MonadExceptOf.throw, bind, Except.bind]
  · cases share.validate k.codec <;> simp [dup, bind, Except.bind, pure, Except.pure, @eq_comm _ r]

theorem initGenesis_ok_of_validate {data : GenesisState} (validated : data.validate k.codec = .ok ()) :
    ∃ s', k.initGenesis data = .ok s' := by
  obtain ⟨shares, -, valid⟩ := (GenesisState.validate_ok_iff k data).mp validated
  obtain ⟨s', imported⟩ := foldlM_initFeeShare_ok k data.feeShare
    (fun share mem => ((FeeShare.validate_ok_iff _ _).mp (shares share mem)).1) _
  exact ⟨s', (initGenesis_eq_foldlM k data valid).trans imported⟩

/-- The bech32 decoder on the addresses below: a lower-case juno address decodes to itself, and the
all-capitals form of juno1contract, which bech32 accepts, to juno1contract. -/
def caseCodec : Bech32 where
  decode s := if s = "JUNO1CONTRACT" then some "juno1contract"
    else if "juno1".toList.isPrefixOf s.toList then some s else none
  decode_canonical s a h := by
    by_cases upper : s = "JUNO1CONTRACT"
    · rw [if_pos upper, Option.some.injEq] at h
      subst h
      decide
    · by_cases juno : "juno1".toList.isPrefixOf s.toList = true
      · rw [if_neg upper, if_pos juno, Option.some.injEq] at h
        subst h
        rw [if_neg upper, if_pos juno]
      · rw [if_neg upper, if_neg juno] at h
        cases h
  bytes := textBytes
  bytes_injective := textBytes_injective

def genesisKeeper : Keeper := ⟨caseCodec, "juno1gov", "juno1gov"⟩

def distinctGenesis : GenesisState :=
  ⟨defaultParams, [⟨"juno1contract", "juno1alice", "juno1alice"⟩, ⟨"juno1other", "juno1bob", "juno1bob"⟩]⟩

def duplicatedGenesis : GenesisState :=
  ⟨defaultParams, [⟨"juno1contract", "juno1alice", "juno1alice"⟩, ⟨"JUNO1CONTRACT", "juno1bob", "juno1bob"⟩]⟩

theorem genesis_keeps_replaced_deployer :
    duplicatedGenesis.validate caseCodec = .ok () ∧
      ∃ s, genesisKeeper.initGenesis duplicatedGenesis = .ok s ∧
        ("juno1alice", "juno1contract") ∈ s.deployers ∧
        getFeeShare s "juno1contract" = some ⟨"JUNO1CONTRACT", "juno1bob", "juno1bob"⟩ ∧
        ¬ Consistent genesisKeeper s := by
  refine ⟨by decide, _, rfl, by decide, by decide, ?_⟩
  intro consistent
  -- the first deployer's entry would need a record for juno1contract with that deployer
  obtain ⟨fs, found, key⟩ := (consistent.deployers "juno1alice" "juno1contract").mp (by decide)
  have bob : fs = ⟨"JUNO1CONTRACT", "juno1bob", "juno1bob"⟩ := Option.some.inj (found.symm.trans (by decide))
  subst bob
  exact absurd key (by decide)

end Genesis

/-! ### The export of a run

`genesis validate` accepts the export of a state whose parameters and records are valid. Every
message stores decoded addresses only, and the import stores validated records under their
decoded contracts, so with a codec that takes no empty text every run from a validated genesis
exports a genesis that passes. -/

section Export
variable (wasm : String → Option ContractInfo) {s s' : State}

/-- What `GenesisState.Validate` asks of a state's export: valid parameters and valid records,
each under the contract its text decodes to. -/
structure ExportValid (s : State) : Prop where
  params : s.params.validate = .ok ()
  records : ∀ e ∈ s.feeShares.records, e.feeshare.validate k.codec = .ok ()
  keys : ∀ e ∈ s.feeShares.records, k.codec.decode e.feeshare.contractAddress = some e.contract

theorem ExportValid.put (valid : ExportValid k s) {contract : String} {share : FeeShare}
    (shareValid : share.validate k.codec = .ok ()) (key : k.codec.decode share.contractAddress = some contract)
    (params : s'.params = s.params) (stored : s'.feeShares = s.feeShares.put ⟨contract, share⟩) :
    ExportValid k s' := by
  refine ⟨by rw [params]; exact valid.params, ?_, ?_⟩
  all_goals
    intro other mem
    rw [stored] at mem
  · rcases mem_insertBy _ mem with rfl | old
    · exact shareValid
    · exact valid.records other old
  · rcases mem_insertBy _ mem with rfl | old
    · exact key
    · exact valid.keys other old

theorem registerFeeShare_exportValid (blank : k.codec.decode "" = none) {msg : MsgRegisterFeeShare}
    (valid : ExportValid k s) (h : k.registerFeeShare wasm s msg = .ok s') : ExportValid k s' := by
  obtain ⟨contract, withdrawer, deployer, contractDecoded, withdrawerDecoded, deployerDecoded, -, params, stored,
    -⟩ := registerFeeShare_writes k wasm h
  -- the record holds the decoded contract, deployer and withdrawer
  have key : k.codec.decode contract = some contract := k.codec.decode_canonical _ _ contractDecoded
  obtain ⟨withdrawerDecodes, nonblank⟩ := k.codec.decoded_valid blank withdrawerDecoded
  have recordValid : (⟨contract, deployer, withdrawer⟩ : FeeShare).validate k.codec = .ok () :=
    (FeeShare.validate_ok_iff _ _).mpr
      ⟨(k.codec.decoded_valid blank contractDecoded).1, by rw [deployerDecoded]; rfl, nonblank, withdrawerDecodes⟩
  exact valid.put k recordValid key params stored

theorem updateFeeShare_exportValid (blank : k.codec.decode "" = none) {msg : MsgUpdateFeeShare}
    (valid : ExportValid k s) (h : k.updateFeeShare wasm s msg = .ok s') : ExportValid k s' := by
  obtain ⟨contract, feeshare, -, withdrawer, -, found, -, -, withdrawerDecoded, params, stored, -⟩ :=
    updateFeeShare_writes k wasm h
  -- the stored record keeps its contract text and deployer, with a decoded withdrawer
  have mem := mem_of_getFeeShare found
  obtain ⟨contractDecodes, deployerDecodes, -⟩ := (FeeShare.validate_ok_iff _ _).mp (valid.records _ mem)
  obtain ⟨withdrawerDecodes, nonblank⟩ := k.codec.decoded_valid blank withdrawerDecoded
  have recordValid : ({ feeshare with withdrawerAddress := withdrawer } : FeeShare).validate k.codec = .ok () :=
    (FeeShare.validate_ok_iff _ _).mpr ⟨contractDecodes, deployerDecodes, nonblank, withdrawerDecodes⟩
  exact valid.put k recordValid (valid.keys _ mem) params stored

theorem cancelFeeShare_exportValid {msg : MsgCancelFeeShare} (valid : ExportValid k s)
    (h : k.cancelFeeShare wasm s msg = .ok s') : ExportValid k s' := by
  obtain ⟨contract, fee, -, -, -, params, stored, -⟩ := cancelFeeShare_writes k wasm h
  refine ⟨by rw [params]; exact valid.params, ?_, ?_⟩
  all_goals
    intro e mem
    rw [stored] at mem
  · exact valid.records e (List.mem_filter.mp mem).1
  · exact valid.keys e (List.mem_filter.mp mem).1

theorem updateParams_params_validate {req : MsgUpdateParams} (h : k.updateParams s req = .ok s') :
    s'.params.validate = .ok () := by
  unfold Keeper.updateParams Keeper.setParams at h
  split_ifs at h
  obtain ⟨⟨⟩, valid, h⟩ := Atomic.bind_eq_ok.mp h
  rw [← Atomic.pure_eq_ok.mp h]
  exact valid

theorem updateParams_exportValid {req : MsgUpdateParams} (valid : ExportValid k s)
    (h : k.updateParams s req = .ok s') : ExportValid k s' := by
  obtain ⟨feeShares, -⟩ := updateParams_feeShares k h
  refine ⟨updateParams_params_validate k h, ?_, ?_⟩
  all_goals rw [feeShares]
  · exact valid.records
  · exact valid.keys

theorem deliver_preserves_exportValid (blank : k.codec.decode "" = none) :
    Atomic.Preserves (deliver k) (ExportValid k) := by
  intro s op s' valid h
  unfold deliver at h
  split at h
  · exact registerFeeShare_exportValid k op.wasm blank valid h
  · exact updateFeeShare_exportValid k op.wasm blank valid h
  · exact cancelFeeShare_exportValid k op.wasm valid h
  · exact updateParams_exportValid k valid h

theorem initGenesis_exportValid {data : GenesisState} (validated : data.validate k.codec = .ok ())
    (h : k.initGenesis data = .ok s) : ExportValid k s := by
  obtain ⟨shares, -, params⟩ := (GenesisState.validate_ok_iff k data).mp validated
  rw [initGenesis_eq_foldlM k data params] at h
  refine Atomic.foldlM_preserves (ExportValid k) k.initFeeShare data.feeShare ?_ ⟨params, ?_, ?_⟩ h
  · intro t share next mem valid step
    obtain ⟨contract, decoded, stored, -⟩ := initFeeShare_writes k step
    exact valid.put k (shares share mem) decoded (initFeeShare_params k step) stored
  all_goals
    intro e mem
    cases mem

/-- The export of a state with valid parameters and records passes `GenesisState.Validate`: the
store keys the records by distinct contracts, and each text decodes to its key, so no text
appears twice. -/
theorem exportGenesis_validate (valid : ExportValid k s) : (exportGenesis s).validate k.codec = .ok () := by
  refine (GenesisState.validate_ok_iff k _).mpr ⟨?_, ?_, valid.params⟩
  · intro share mem
    obtain ⟨e, stored, rfl⟩ := List.mem_map.mp mem
    exact valid.records e stored
  · have decoded : ((s.feeShares.records.map Entry.feeshare).map FeeShare.contractAddress).map k.codec.decode =
        (s.feeShares.records.map Entry.contract).map some := by
      simp only [List.map_map]
      exact List.map_congr_left valid.keys
    apply List.Nodup.of_map k.codec.decode
    rw [exportGenesis, decoded]
    exact (List.pairwise_map.mpr s.feeShares.sorted).nodup.map (Option.some_injective _)

/-- `genesis validate` accepts the feeshare export of every state that messages reach from a
validated genesis, with a codec that takes no empty text as an address. -/
theorem export_validates_of_run (blank : k.codec.decode "" = none) {data : GenesisState}
    (validated : data.validate k.codec = .ok ()) (h : k.initGenesis data = .ok s) (run : List Operation) :
    (exportGenesis (Atomic.execute (deliver k) s run)).validate k.codec = .ok () :=
  exportGenesis_validate k ((deliver_preserves_exportValid k blank).execute (initGenesis_exportValid k validated h) run)

theorem distinct_genesis_exports_valid :
    genesisKeeper.codec.decode "" = none ∧ distinctGenesis.validate genesisKeeper.codec = .ok () ∧
      ∃ s, genesisKeeper.initGenesis distinctGenesis = .ok s ∧
        (exportGenesis (Atomic.execute (deliver genesisKeeper) s [])).validate genesisKeeper.codec = .ok () := by
  have blank : genesisKeeper.codec.decode "" = none := by decide
  have validated : distinctGenesis.validate genesisKeeper.codec = .ok () := by decide
  exact ⟨blank, validated, _, rfl, export_validates_of_run genesisKeeper blank validated rfl []⟩

end Export

end Juno.FeeShare
