import TirBase.RevocationTaint
import TirBase.TaintAgreement

/-! # Contamination on both builds

Both devices perform the same operations. Their contamination engines stay alike as long as every
Delta that is tagged has no descendants, and is known under its author on both. -/
namespace TirBase.BuildAgreement
open CoreHandle CrossBuildConvergence IncidentMatching IncidentRuns RevocationTaint TaintAgreement
open TagLogs TransitionRuns WriteAgreement

/-- The two devices, and the authors whose Deltas they do not know alike. -/
structure Devices where
  native : CoreHandle
  wasm : WasmCoreHandle
  apart : List Did

inductive SharedOperation
  | write (table key : String) (data : JsonValue) (env : WriteEnvironment)
      (wasmEnv : WasmWriteEnvironment)
  | delta (δ : Delta) (env : InboundEnvironment) (wasmEnv : WasmEnvironment)
  | revocation (δ : RevocationDelta) (env : InboundEnvironment) (wasmEnv : WasmEnvironment)
  | verifyData (rootDeltaId : DeltaId) (managerDid : Did) (managerSig : Bytes)
      (managerTokenExpiry nowSecs : ℤ) (env : ResolutionEnvironment) (wasmNow : ℤ)
  | adminClose (incidentId wasmIncidentId : IncidentId) (managerDid : Did)
      (managerSig wasmManagerSig : Bytes) (managerTokenExpiry nowSecs now wasmNow : ℤ)

section Steps
variable (lib : CoreLibraries)

def nativeStep (h : CoreHandle) : SharedOperation → CoreHandle
  | .write table key data env _ => (h.write lib table key data env).2
  | .delta δ env _ => (h.receiveDelta lib δ env).2
  | .revocation δ env _ => (h.processRevocation lib δ env).2
  | .verifyData root managerDid managerSig expiry nowSecs env _ =>
    nativeVerify lib.toIdentityLibraries env root managerDid managerSig expiry nowSecs h
  | .adminClose id _ managerDid managerSig _ expiry nowSecs now _ =>
    nativeClose lib.toIdentityLibraries now id managerDid managerSig expiry nowSecs h

def wasmStep (w : WasmCoreHandle) : SharedOperation → WasmCoreHandle
  | .write table key data _ env => (w.write lib table key data env).2
  | .delta δ _ env => (w.receiveDelta lib δ env).2
  | .revocation δ _ env => (w.processRevocation lib δ env).2
  | .verifyData root managerDid managerSig expiry nowSecs _ now =>
    (w.verifyData lib.toIdentityLibraries now root managerDid managerSig expiry nowSecs).2
  | .adminClose _ id managerDid _ managerSig expiry nowSecs _ now =>
    (w.adminClose lib.toIdentityLibraries now id managerDid managerSig expiry nowSecs).2

def wasmMerges (w : WasmCoreHandle) (δ : Delta) (env : WasmEnvironment) : Bool :=
  match (w.crdt.apply lib.toEngineLibraries .wasm δ env.now none).1 with
  | .ok (.merged _) => true
  | _ => false

/-- A Delta that one device notes under its author, and the other one does not. -/
def apartAfter (s : Devices) (op : SharedOperation) : List Did :=
  let dag := (nativeStep lib s.native op).crdt.dag
  match op with
  | .write table key data env wasmEnv =>
    let made := (WrittenDeltas.writtenDelta lib s.native table key data env).map Delta.id
    let own := s.native.identity.did
    if recordedWrite lib s.wasm table key data wasmEnv = made ∧
        made.all (fun id => decide (id ∈ dag.nodesByAuthor own)) = true
    then s.apart else own :: s.apart
  | .delta δ _ wasmEnv =>
    if wasmMerges lib s.wasm δ wasmEnv = true → δ.id ∈ dag.nodesByAuthor δ.authorDid
    then s.apart else δ.authorDid :: s.apart
  | _ => s.apart

def step (s : Devices) (op : SharedOperation) : Devices :=
  ⟨nativeStep lib s.native op, wasmStep lib s.wasm op, apartAfter lib s op⟩

def handed (effects : List RevocationEffect) : List DeltaId :=
  effects.flatMap fun effect =>
    match effect with
    | .cceTrigger _ deltaIds => deltaIds
    | .revocationApplied _ _ => []

def nativeHanded (h : CoreHandle) (δ : RevocationDelta) (env : InboundEnvironment) :
    List DeltaId :=
  let authored := if env.authoredFault then [] else h.crdt.dag.nodesByAuthor δ.targetDid
  handed (h.revocation.processIncomingDelta lib.toIdentityLibraries δ authored env.now).2.2

def wasmHanded (w : WasmCoreHandle) (δ : RevocationDelta) (env : WasmEnvironment) :
    List DeltaId :=
  handed (w.revocation.toRevocationSubsystem.processIncomingDelta lib.toIdentityLibraries δ
    (w.revocation.authoredDeltaIds δ.targetDid) env.now).2.2

def HandsAlike (s : Devices) : SharedOperation → Prop
  | .revocation δ env wasmEnv => nativeHanded lib s.native δ env = wasmHanded lib s.wasm δ wasmEnv
  | _ => True

/-- The incidents are the same, and the tag logs, up to identifiers and times. -/
def ShownAlike (s : Devices) : Prop :=
  ∃ m : Matching, m.Agree s.native.cce s.wasm.cce (logOf s.native.crdt.dag) s.wasm.readTags

structure SameStart (s : Devices) : Prop where
  identity : s.native.identity = s.wasm.identity
  author : s.native.crdt.authorDid = s.native.identity.did
  engine : { s.native.crdt with dag := s.wasm.crdt.dag } = s.wasm.crdt
  revocation : s.native.revocation = s.wasm.revocation.toRevocationSubsystem
  capability : s.native.capability = s.wasm.capability
  ids : s.native.crdt.dag.ids.Nodup
  authored : ∀ did, s.native.crdt.dag.nodesByAuthor did = s.wasm.revocation.authoredDeltaIds did
  incidents : s.native.cce = .new ∧ s.wasm.cce = .new
  untagged : ∀ id, logOf s.native.crdt.dag id = []
  tagStore : s.wasm.tagStore = []
  cceDag : s.wasm.cceDag = .empty
  apart : s.apart = []

def Applies (r : RevocationSubsystem) (δ : RevocationDelta) (now : ℤ) : Prop :=
  δ.targetDid ∉ r.revokedDids ∧
    (r.processIncomingDelta lib.toIdentityLibraries δ [] now).1 = .ok .applied

/-- What keeps the two devices alike: a write that reaches its Delta reacts to no incident, a
device that is revoked has Deltas without descendants that both devices know, a certified root is
stored and none of its descendants arrived late, and the same incidents are closed. -/
def StaysAlike (s : Devices) : SharedOperation → Prop
  | .write table key data env wasmEnv =>
    stores lib s.native table key data env = wasmStores wasmEnv ∧
      ((WrittenDeltas.producing lib s.native table key data env).isSome = true →
        env.poisoned .crdt = wasmEnv.poisoned .crdt ∧
          (∀ actor, env.compaction ≠ some (.updateDocs actor)) ∧
          s.native.humanReactionIncident table key env = none ∧
          s.wasm.humanReactionIncident table key wasmEnv = none)
  | .delta _ _ _ => True
  | .revocation δ env wasmEnv =>
    Applies lib s.native.revocation δ env.now → δ.targetDid ∉ s.apart ∧
      (env.authoredFault = true → s.native.crdt.dag.nodesByAuthor δ.targetDid = []) ∧
      Separate s.native s.wasm env.taint wasmEnv.taint
        (s.native.crdt.dag.nodesByAuthor δ.targetDid)
  | .verifyData root managerDid managerSig expiry nowSecs env _ =>
    verifyManagerAuth lib.toIdentityLibraries managerDid managerSig (digestBytes root) expiry
        nowSecs = .ok () →
      Certifiable s.native.cce s.native.crdt.dag env root
  | .adminClose id wasmId managerDid managerSig wasmSig expiry nowSecs _ _ =>
    NamesSame s.native.cce s.wasm.cce id wasmId ∧
      (Accepts lib.toIdentityLibraries id managerDid managerSig expiry nowSecs ↔
        Accepts lib.toIdentityLibraries wasmId managerDid wasmSig expiry nowSecs)

end Steps

structure Alike (s : Devices) : Prop where
  did : s.native.identity.did = s.wasm.identity.did
  author : s.native.crdt.authorDid = s.native.identity.did
  engine : EngineAgrees s.native.crdt s.wasm.crdt
  revocation : RevocationAgrees s.native.revocation s.wasm.revocation.toRevocationSubsystem
  trustLevel : s.native.capability.trustLevel = s.wasm.capability.trustLevel
  ids : s.native.crdt.dag.ids.Nodup
  authored : ∀ did ∉ s.apart,
    s.native.crdt.dag.nodesByAuthor did = s.wasm.revocation.authoredDeltaIds did
  tainted : ∀ id v, view s.native.cce (.inl id) = some v → ∀ r ∈ v.roots,
    ∃ did ∈ s.native.revocation.revokedDids, r ∈ s.native.crdt.dag.nodesByAuthor did
  taints : TaintsAgree s.native s.wasm

theorem SameStart.alike {s : Devices} (h : SameStart s) : Alike s where
  did := by rw [h.identity]
  author := h.author
  engine := by
    rw [← h.engine]
    exact ⟨rfl, rfl, rfl, rfl, rfl, rfl⟩
  revocation := by
    rw [h.revocation]
    exact ⟨fun _ => rfl, rfl, rfl, rfl⟩
  trustLevel := by rw [h.capability]
  ids := h.ids
  authored := fun did _ => h.authored did
  tainted := by
    intro id v hv
    rw [h.incidents.1] at hv
    cases hv
  taints := by
    refine ⟨h.incidents.1 ▸ single_new, h.incidents.2 ▸ keyed_new, h.cceDag, .empty, ?_⟩
    rw [h.incidents.1, h.incidents.2]
    exact Matching.agree_new h.untagged fun id => by rw [WasmCoreHandle.readTags, h.tagStore]; rfl

/-- A Delta has one author in the DAG. -/
theorem author_unique {dag : ChangesetDag} (hids : dag.ids.Nodup) {id : DeltaId} {did did' : Did}
    (h : id ∈ dag.nodesByAuthor did) (h' : id ∈ dag.nodesByAuthor did') : did = did' := by
  obtain ⟨r, hr, hid⟩ := List.mem_map.mp h
  obtain ⟨r', hr', hid'⟩ := List.mem_map.mp h'
  obtain ⟨hrow, hauthor⟩ := List.mem_filter.mp hr
  obtain ⟨hrow', hauthor'⟩ := List.mem_filter.mp hr'
  obtain rfl := List.inj_on_of_nodup_map hids hrow hrow' (hid.trans hid'.symm)
  exact (of_decide_eq_true hauthor).symm.trans (of_decide_eq_true hauthor')

theorem mem_ids_of_author {dag : ChangesetDag} {id : DeltaId} {did : Did}
    (h : id ∈ dag.nodesByAuthor did) : id ∈ dag.ids := by
  obtain ⟨r, hr, hid⟩ := List.mem_map.mp h
  exact List.mem_map.mpr ⟨r, List.mem_of_mem_filter hr, hid⟩

theorem taintsAgree_same {h h' : CoreHandle} {w w' : WasmCoreHandle} (hs : TaintsAgree h w)
    (hcce : h'.cce = h.cce) (hlogs : ∀ id, logOf h'.crdt.dag id = logOf h.crdt.dag id)
    (hwasm : w'.cce = w.cce) (htags : w'.tagStore = w.tagStore) (hdag : w'.cceDag = w.cceDag) :
    TaintsAgree h' w' := by
  obtain ⟨m, hagree⟩ := hs.agree
  refine ⟨hcce ▸ hs.single, hwasm ▸ hs.keyed, hdag.trans hs.noDag, m, ?_⟩
  rw [hcce, hwasm]
  exact hagree.same (fun _ => rfl) (fun _ => rfl) hlogs fun id => by
    simp only [WasmCoreHandle.readTags, htags]

theorem authoredDeltaIds_record (r : WasmRevocationSubsystem) (author : Did) (id : DeltaId)
    (did : Did) : (r.recordAuthoredDelta author id).authoredDeltaIds did =
      if did = author then
        if id ∈ r.authoredDeltaIds author then r.authoredDeltaIds author
        else r.authoredDeltaIds author ++ [id]
      else r.authoredDeltaIds did := by
  unfold WasmRevocationSubsystem.recordAuthoredDelta WasmRevocationSubsystem.authoredDeltaIds
  by_cases hdid : did = author
  · subst hdid
    rw [if_pos rfl, AList.lookup_insert, Option.getD_some]
  · rw [if_neg hdid, AList.lookup_insert_ne hdid]

/-- The rows under an author where a node was stored, or was there. -/
def StoresUnder (dag dag' : ChangesetDag) (author : Did) (id : DeltaId) : Prop :=
  dag' = dag ∨ ∃ node : DagNode, node.deltaId = id ∧ node.authorDid = author ∧
    dag' = dag.insert node

section Stored
variable {dag dag' : ChangesetDag} {author : Did} {id : DeltaId}

theorem StoresUnder.others (h : StoresUnder dag dag' author id) {did : Did} (hdid : did ≠ author) :
    dag'.nodesByAuthor did = dag.nodesByAuthor did := by
  rcases h with rfl | ⟨node, -, rfl, rfl⟩
  · rfl
  · rw [nodesByAuthor_insert, if_neg fun hboth => hdid hboth.2.symm]

theorem StoresUnder.subset (h : StoresUnder dag dag' author id) (did : Did) :
    dag.nodesByAuthor did ⊆ dag'.nodesByAuthor did := by
  rcases h with rfl | ⟨node, -, -, rfl⟩
  · exact List.Subset.refl _
  · rw [nodesByAuthor_insert]
    split_ifs
    · exact List.subset_append_left _ _
    · exact List.Subset.refl _

theorem StoresUnder.logs (h : StoresUnder dag dag' author id) (δ : DeltaId) :
    logOf dag' δ = logOf dag δ := by
  rcases h with rfl | ⟨node, -, -, rfl⟩
  · rfl
  · exact logOf_insert dag node δ

theorem StoresUnder.ids (h : StoresUnder dag dag' author id) (hids : dag.ids.Nodup) :
    dag'.ids.Nodup := by
  rcases h with rfl | ⟨node, -, -, rfl⟩
  · exact hids
  · exact ChangesetDag.nodup_ids_insert hids node

/-- What both devices note under the author is the same. -/
theorem StoresUnder.recorded (h : StoresUnder dag dag' author id) {r : WasmRevocationSubsystem}
    (hsame : dag.nodesByAuthor author = r.authoredDeltaIds author)
    (hstored : id ∈ dag'.nodesByAuthor author) :
    dag'.nodesByAuthor author = (r.recordAuthoredDelta author id).authoredDeltaIds author := by
  rw [authoredDeltaIds_record, if_pos rfl, ← hsame]
  rcases h with rfl | ⟨node, rfl, rfl, rfl⟩
  · rw [if_pos hstored]
  · exact nodesByAuthor_insert_of_mem hstored

end Stored

structure Grown (s s' : Devices) : Prop where
  identity : s'.native.identity = s.native.identity
  wasmIdentity : s'.wasm.identity = s.wasm.identity
  revocation : s'.native.revocation = s.native.revocation
  wasmRevocation : s'.wasm.revocation.toRevocationSubsystem =
    s.wasm.revocation.toRevocationSubsystem
  capability : s'.native.capability = s.native.capability
  wasmCapability : s'.wasm.capability = s.wasm.capability
  cce : s'.native.cce = s.native.cce
  wasmCce : s'.wasm.cce = s.wasm.cce
  tagStore : s'.wasm.tagStore = s.wasm.tagStore
  cceDag : s'.wasm.cceDag = s.wasm.cceDag
  author : s'.native.crdt.authorDid = s.native.crdt.authorDid

structure RowsGrow (dag dag' : ChangesetDag) : Prop where
  ids : dag.ids.Nodup → dag'.ids.Nodup
  logs : ∀ id, logOf dag' id = logOf dag id
  rows : ∀ did, dag.nodesByAuthor did ⊆ dag'.nodesByAuthor did

theorem RowsGrow.trans {dag dag' dag'' : ChangesetDag} (h : RowsGrow dag dag')
    (h' : RowsGrow dag' dag'') : RowsGrow dag dag'' :=
  ⟨fun hids => h'.ids (h.ids hids), fun id => (h'.logs id).trans (h.logs id),
    fun did => List.Subset.trans (h.rows did) (h'.rows did)⟩

theorem StoresUnder.grow {dag dag' : ChangesetDag} {author : Did} {id : DeltaId}
    (h : StoresUnder dag dag' author id) : RowsGrow dag dag' := ⟨h.ids, h.logs, h.subset⟩

theorem Alike.grown {s s' : Devices} (h : Alike s) (hgrown : Grown s s')
    (hrows : RowsGrow s.native.crdt.dag s'.native.crdt.dag)
    (hengine : EngineAgrees s'.native.crdt s'.wasm.crdt)
    (hauthored : ∀ did ∉ s'.apart,
      s'.native.crdt.dag.nodesByAuthor did = s'.wasm.revocation.authoredDeltaIds did) :
    Alike s' where
  did := by rw [hgrown.identity, hgrown.wasmIdentity, h.did]
  author := by rw [hgrown.author, hgrown.identity, h.author]
  engine := hengine
  revocation := by
    rw [hgrown.revocation, hgrown.wasmRevocation]
    exact h.revocation
  trustLevel := by rw [hgrown.capability, hgrown.wasmCapability, h.trustLevel]
  ids := hrows.ids h.ids
  authored := hauthored
  tainted := by
    intro id v hv r hr
    rw [hgrown.cce] at hv
    obtain ⟨did, hdid, hmem⟩ := h.tainted id v hv r hr
    rw [hgrown.revocation]
    exact ⟨did, hdid, hrows.rows did hmem⟩
  taints := taintsAgree_same h.taints hgrown.cce hrows.logs hgrown.wasmCce hgrown.tagStore
    hgrown.cceDag

section Deltas
variable {lib : CoreLibraries} {s : Devices} {δ : Delta} {env : InboundEnvironment}
  {wasmEnv : WasmEnvironment}

theorem apply_of_unmerged {e : CrdtEngine} {δ : Delta} {now : ℤ}
    (h : ¬∃ n, (e.apply lib.toEngineLibraries .native δ now none).1 = .ok (.merged n))
    (fault : DagFault) : e.apply lib.toEngineLibraries .native δ now fault =
      e.apply lib.toEngineLibraries .native δ now none := by
  cases hgate : e.gate lib.toEngineLibraries δ with
  | reject code reason => simp only [CrdtEngine.apply, hgate]
  | quarantine reason => simp only [CrdtEngine.apply, hgate]
  | pass adopt =>
    cases hmerge : e.mergePayload lib.toEngineLibraries δ with
    | none =>
      have hadopted : (if adopt then e.addKnownSchema δ.schemaHash else e).mergePayload
          lib.toEngineLibraries δ = none := by
        cases adopt <;> exact hmerge
      simp only [CrdtEngine.apply, hgate, hadopted]
    | some doc =>
      have hstored : e.apply lib.toEngineLibraries .native δ now none = _ :=
        EngineRuns.apply_of_stored hgate hmerge now (.inr rfl)
      exact absurd ⟨_, congrArg Prod.fst hstored⟩ h

variable (lib) in
/-- The native storage may fail behind a merge that the WASM device has made. -/
theorem agrees_apply {e e' : CrdtEngine} (h : EngineAgrees e e') (δ : Delta) (now now' : ℤ)
    (fault : DagFault) :
    let native := e.apply lib.toEngineLibraries .native δ now fault
    let wasm := e'.apply lib.toEngineLibraries .wasm δ now' none
    EngineAgrees native.2 wasm.2 ∧ native.2.authorDid = e.authorDid ∧
      ((∃ n, wasm.1 = .ok (.merged n)) ∧ StoresUnder e.dag native.2.dag δ.authorDid δ.id ∨
        (∀ n, wasm.1 ≠ .ok (.merged n)) ∧ native.2.dag = e.dag) := by
  intro native wasm
  obtain ⟨houtcome, hengine⟩ : (e.apply lib.toEngineLibraries .native δ now none).1 = wasm.1 ∧
      EngineAgrees (e.apply lib.toEngineLibraries .native δ now none).2 wasm.2 :=
    h.apply δ now now'
  have hauthor : native.2.authorDid = e.authorDid :=
    (@EngineRuns.identity_step lib.toEngineLibraries .native e (.apply δ now fault)).1
  by_cases hmerged : ∃ n, (e.apply lib.toEngineLibraries .native δ now none).1 = .ok (.merged n)
  · obtain ⟨adopt, doc, hgate, hmerge, happly⟩ := CrdtEngine.apply_eq_merged hmerged
    have hwasm : ∃ n, wasm.1 = .ok (.merged n) := houtcome ▸ hmerged
    cases fault with
    | none =>
      refine ⟨hengine, hauthor, .inl ⟨hwasm, .inr ?_⟩⟩
      change ∃ node, _ ∧ _ ∧ (e.apply lib.toEngineLibraries .native δ now none).2.dag = _
      rw [happly]
      cases adopt <;> exact ⟨_, rfl, rfl, rfl⟩
    | some err =>
      have hfault := EngineRuns.apply_of_fault hgate hmerge now err
      rw [happly] at hengine
      refine ⟨?_, hauthor, .inl ⟨hwasm, .inl ?_⟩⟩
      · change EngineAgrees (e.apply lib.toEngineLibraries .native δ now (some err)).2 wasm.2
        rw [hfault]
        exact agrees_of_dag hengine e.dag
      · change (e.apply lib.toEngineLibraries .native δ now (some err)).2.dag = e.dag
        rw [hfault]
  · have hnot : ∀ n, wasm.1 ≠ .ok (.merged n) := fun n hn => hmerged ⟨n, houtcome.trans hn⟩
    have hsame : native = e.apply lib.toEngineLibraries .native δ now none :=
      apply_of_unmerged hmerged fault
    refine ⟨hsame ▸ hengine, hauthor, .inr ⟨hnot, ?_⟩⟩
    rw [hsame]
    exact CrdtEngine.dag_apply_of_not_merged fun n hn => hmerged ⟨n, hn⟩

variable (lib) in
theorem receiveDelta_eq (h : CoreHandle) (δ : Delta) (env : InboundEnvironment) :
    ∃ store transport migration, (h.receiveDelta lib δ env).2 =
      { h with
        crdt := (h.crdt.apply lib.toEngineLibraries .native δ env.now env.applyFault).2
        store := store, transport := transport, migration := migration } := by
  have hproject : ∀ h' : CoreHandle, ∃ store,
      h'.projectMerged lib δ env.storeFault = { h' with store := store } := by
    intro h'
    unfold projectMerged
    split
    · exact ⟨h'.store, rfl⟩
    · exact ⟨_, rfl⟩
  unfold receiveDelta
  dsimp only
  split
  · exact ⟨h.store, h.transport, h.migration, rfl⟩
  · obtain ⟨store, hstore⟩ := hproject
      { h with crdt := (h.crdt.apply lib.toEngineLibraries .native δ env.now env.applyFault).2 }
    rw [hstore]
    exact ⟨store, _, h.migration, rfl⟩
  · exact ⟨h.store, h.transport, _, rfl⟩
  · exact ⟨h.store, h.transport, h.migration, rfl⟩

variable (lib) in
theorem wasm_receiveDelta_eq (w : WasmCoreHandle) (δ : Delta) (env : WasmEnvironment) :
    ∃ tables deltaIndex migration durability, (w.receiveDelta lib δ env).2 =
      { w with
        crdt := (w.crdt.apply lib.toEngineLibraries .wasm δ env.now none).2
        revocation := if wasmMerges lib w δ env then
          w.revocation.recordAuthoredDelta δ.authorDid δ.id else w.revocation
        tables := tables, deltaIndex := deltaIndex, migration := migration
        durability := durability } := by
  unfold WasmCoreHandle.receiveDelta wasmMerges
  generalize w.crdt.apply lib.toEngineLibraries .wasm δ env.now none = applied
  obtain ⟨result, e⟩ := applied
  cases result with
  | error err => exact ⟨_, _, _, _, rfl⟩
  | ok outcome =>
    cases outcome with
    | merged n =>
      obtain ⟨deltaIndex, hproject⟩ := wasm_projectMerged_eq lib
        { w with crdt := e, revocation := w.revocation.recordAuthoredDelta δ.authorDid δ.id } δ
      dsimp only at hproject ⊢
      rw [hproject]
      exact ⟨_, _, _, _, rfl⟩
    | quarantined reason => exact ⟨_, _, _, _, rfl⟩
    | rejected reason => exact ⟨_, _, _, _, rfl⟩

theorem alike_delta (h : Alike s) (δ : Delta) (env : InboundEnvironment)
    (wasmEnv : WasmEnvironment) : Alike (step lib s (.delta δ env wasmEnv)) := by
  obtain ⟨store, transport, migration, hnative⟩ := receiveDelta_eq lib s.native δ env
  obtain ⟨tables, deltaIndex, migration', durability, hwasm⟩ :=
    wasm_receiveDelta_eq lib s.wasm δ wasmEnv
  obtain ⟨hengine, hauthor, hcases⟩ :=
    agrees_apply lib h.engine δ env.now wasmEnv.now env.applyFault
  have hmerges : (∃ n, (s.wasm.crdt.apply lib.toEngineLibraries .wasm δ wasmEnv.now none).1 =
      .ok (.merged n)) ↔ wasmMerges lib s.wasm δ wasmEnv = true := by
    unfold wasmMerges
    split
    · rename_i n hn
      exact iff_of_true ⟨n, hn⟩ rfl
    · rename_i hn
      exact iff_of_false (fun ⟨n, hmerged⟩ => hn n hmerged) Bool.false_ne_true
  have hapart : (step lib s (.delta δ env wasmEnv)).apart =
      if wasmMerges lib s.wasm δ wasmEnv = true →
          δ.id ∈ (s.native.receiveDelta lib δ env).2.crdt.dag.nodesByAuthor δ.authorDid
      then s.apart else δ.authorDid :: s.apart := rfl
  have hstored : StoresUnder s.native.crdt.dag
      (s.native.crdt.apply lib.toEngineLibraries .native δ env.now env.applyFault).2.dag
      δ.authorDid δ.id := by
    rcases hcases with ⟨-, hstored⟩ | ⟨-, hsame⟩
    · exact hstored
    · exact .inl hsame
  refine h.grown ?_ ?_ ?_ fun did hdid => ?_
  · change Grown s ⟨(s.native.receiveDelta lib δ env).2, (s.wasm.receiveDelta lib δ wasmEnv).2, _⟩
    rw [hnative, hwasm]
    refine ⟨rfl, rfl, rfl, ?_, rfl, rfl, rfl, rfl, rfl, rfl, hauthor⟩
    dsimp only
    split_ifs <;> rfl
  · change RowsGrow _ (s.native.receiveDelta lib δ env).2.crdt.dag
    rw [hnative]
    exact hstored.grow
  · change EngineAgrees (s.native.receiveDelta lib δ env).2.crdt
      (s.wasm.receiveDelta lib δ wasmEnv).2.crdt
    rw [hnative, hwasm]
    exact hengine
  · rw [hapart] at hdid
    change (s.native.receiveDelta lib δ env).2.crdt.dag.nodesByAuthor did =
      (s.wasm.receiveDelta lib δ wasmEnv).2.revocation.authoredDeltaIds did
    rw [hwasm]
    rw [hnative] at hdid ⊢
    dsimp only at hdid ⊢
    rcases hcases with ⟨hmerged, -⟩ | ⟨hnot, hsame⟩
    · rw [if_pos (hmerges.mp hmerged)]
      by_cases hown : did = δ.authorDid
      · subst hown
        split_ifs at hdid with hnoted
        · exact hstored.recorded (h.authored _ hdid) (hnoted (hmerges.mp hmerged))
        · exact absurd List.mem_cons_self hdid
      · rw [hstored.others hown, authoredDeltaIds_record, if_neg hown]
        refine h.authored did fun hmem => hdid ?_
        split_ifs
        · exact hmem
        · exact .tail _ hmem
    · have hunmerged : ¬wasmMerges lib s.wasm δ wasmEnv = true := fun hm =>
        (hmerges.mpr hm).elim hnot
      rw [if_pos fun hm => absurd hm hunmerged] at hdid
      rw [if_neg hunmerged, hsame]
      exact h.authored did hdid

end Deltas

section Writes
variable {lib : CoreLibraries} {s : Devices} {table key : String} {data : JsonValue}
  {env : WriteEnvironment} {wasmEnv : WasmWriteEnvironment}

/-- A compaction that does not load the document again marks rows at most. -/
theorem compactAfterWrite_dag (table : String) {fault : Option CrdtEngine.CompactionFault}
    (hfault : ∀ actor, fault ≠ some (.updateDocs actor)) (e : CrdtEngine) :
    ∃ dag, (e.compactAfterWrite lib.toEngineLibraries table fault).2 = { e with dag := dag } := by
  unfold CrdtEngine.compactAfterWrite CrdtEngine.maybeCompact
  split_ifs
  · cases fault with
    | none => exact ⟨_, rfl⟩
    | some f =>
      cases f with
      | markNodes => exact ⟨e.dag, rfl⟩
      | updateDocs actor => exact absurd rfl (hfault actor)
  · exact ⟨e.dag, rfl⟩

theorem SameRows.grow {dag dag' : ChangesetDag} (h : SameRows dag dag') : RowsGrow dag dag' := by
  refine ⟨fun hids => ?_, fun id => ?_, fun did => ?_⟩
  · rw [ChangesetDag.ids_of_graph h.graph]
    exact hids
  · rw [logOf, h.tags]
    rfl
  · rw [h.authors]
    exact List.Subset.refl _

variable (lib) in
/-- What a write stores under the name of the device. -/
theorem written_cases (h : CoreHandle) (table key : String) (data : JsonValue)
    (env : WriteEnvironment) :
    let out := written lib h table key data env
    out.2.authorDid = h.crdt.authorDid ∧
      (out.1 = none ∧ SameRows h.crdt.dag out.2.dag ∨
        ∃ δ dag₁, out.1 = some δ ∧ SameRows h.crdt.dag dag₁ ∧
          StoresUnder dag₁ out.2.dag h.crdt.authorDid δ.id) := by
  unfold written
  split_ifs
  · have hcompact : ∀ e : CrdtEngine, SameRows e.dag
        (e.compactAfterWrite lib.toEngineLibraries table env.compaction).2.dag ∧
        (e.compactAfterWrite lib.toEngineLibraries table env.compaction).2.authorDid =
          e.authorDid := by
      intro e
      refine ⟨sameRows_compactAfterWrite lib.toEngineLibraries e table env.compaction, ?_⟩
      obtain ⟨doc, dag, hdoc⟩ := CrdtEngine.maybeCompact_engine lib.toEngineLibraries e
        (e.compactionPolicyFor table) env.compaction
      rw [CrdtEngine.compactAfterWrite, hdoc]
    obtain ⟨hauthor, hcases⟩ := writeEngine_cases hcompact h.crdt table key data env.produce
    refine ⟨hauthor, ?_⟩
    rcases hcases with ⟨err, herr, hrows⟩ | ⟨δ, dag₁, node, hok, hrows, hid, hnode, hdag⟩
    · exact .inl ⟨congrArg Except.toOption herr, hrows⟩
    · exact .inr ⟨δ, dag₁, congrArg Except.toOption hok, hrows, .inr ⟨node, hid, hnode, hdag⟩⟩
  · exact ⟨rfl, .inl ⟨rfl, .refl _⟩⟩

theorem gate_eq (h : Alike s) : s.native.capability.ensureLocalTrustAllowsIo =
    s.wasm.capability.ensureLocalTrustAllowsIo := by
  simp only [Capability.CapabilityManager.ensureLocalTrustAllowsIo, h.trustLevel]

theorem agrees_written (h : Alike s)
    (hstores : stores lib s.native table key data env = wasmStores wasmEnv)
    (hcrdt : env.poisoned .crdt = wasmEnv.poisoned .crdt)
    (hcompaction : ∀ actor, env.compaction ≠ some (.updateDocs actor)) :
    EngineAgrees (written lib s.native table key data env).2
      (wasmWritten lib s.wasm table key data wasmEnv).2 := by
  unfold written wasmWritten
  rw [gate_eq h, hstores, hcrdt]
  split_ifs
  · exact agrees_writeEngine h.engine (compactAfterWrite_dag table hcompaction) table key data
      env.produce wasmEnv.produce
  · exact h.engine

theorem alike_write_refused (h : Alike s)
    (hstores : stores lib s.native table key data env = wasmStores wasmEnv)
    (hrefused : (WrittenDeltas.producing lib s.native table key data env).isSome = false) :
    Alike (step lib s (.write table key data env wasmEnv)) := by
  have hgate := hrefused
  rw [producing_isSome, gate_eq h, hstores] at hgate
  have hnone : recordedWrite lib s.wasm table key data wasmEnv = none ∧
      ∃ err, s.wasm.write lib table key data wasmEnv = (.error err, s.wasm) := by
    rcases wasm_producing_cases lib s.wasm table key data wasmEnv with
      ⟨hproducing, -, hwrite⟩ | ⟨-, hstored, -⟩
    · refine ⟨?_, hwrite⟩
      rw [recordedWrite, WasmCoreHandle.writtenDelta, hproducing]
      split_ifs <;> rfl
    · rw [hgate] at hstored
      cases hstored
  obtain ⟨hrecorded, err', hwasm⟩ := hnone
  rcases WrittenDeltas.producing_cases lib s.native table key data env with
    ⟨hproducing, err, store, hnative⟩ | ⟨store, hproducing, -⟩
  · have hmade : WrittenDeltas.writtenDelta lib s.native table key data env = none := by
      rw [WrittenDeltas.writtenDelta, hproducing]
      rfl
    have happly : step lib s (.write table key data env wasmEnv) =
        ⟨{ s.native with store := store }, s.wasm, s.apart⟩ := by
      simp only [step, nativeStep, wasmStep, apartAfter, hnative, hwasm, hmade, hrecorded]
      rw [if_pos ⟨rfl, rfl⟩]
    rw [happly]
    exact ⟨h.did, h.author, h.engine, h.revocation, h.trustLevel, h.ids, h.authored, h.tainted,
      taintsAgree_same h.taints rfl (fun _ => rfl) rfl rfl rfl⟩
  · rw [hproducing] at hrefused
    cases hrefused

/-- What a write notes on both devices, unless the device is apart from then on. -/
theorem authored_written (h : Alike s) {made : Option Delta} {dag' : ChangesetDag}
    {noted : Option DeltaId} (hcases : made = none ∧ SameRows s.native.crdt.dag dag' ∨
      ∃ δ dag₁, made = some δ ∧ SameRows s.native.crdt.dag dag₁ ∧
        StoresUnder dag₁ dag' s.native.crdt.authorDid δ.id) {did : Did}
    (hdid : did ∉ if noted = made.map Delta.id ∧ (made.map Delta.id).all
        (fun id => decide (id ∈ dag'.nodesByAuthor s.native.crdt.authorDid)) = true
      then s.apart else s.native.crdt.authorDid :: s.apart) :
    dag'.nodesByAuthor did = (noted.elim s.wasm.revocation
      (s.wasm.revocation.recordAuthoredDelta s.wasm.identity.did)).authoredDeltaIds did := by
  have hown : s.wasm.identity.did = s.native.crdt.authorDid := by rw [h.author, h.did]
  have hbefore : did ∉ s.apart := by
    intro hmem
    apply hdid
    split_ifs
    · exact hmem
    · exact .tail _ hmem
  rw [hown]
  by_cases hsame : did = s.native.crdt.authorDid
  · subst hsame
    split_ifs at hdid with hnoted
    · obtain ⟨rfl, hstored⟩ := hnoted
      rcases hcases with ⟨rfl, hrows⟩ | ⟨δ, dag₁, rfl, hrows, hstores⟩
      · rw [hrows.authors]
        exact h.authored _ hbefore
      · refine hstores.recorded ?_ (of_decide_eq_true hstored)
        rw [hrows.authors]
        exact h.authored _ hbefore
    · exact absurd List.mem_cons_self hdid
  · have hwasm : (noted.elim s.wasm.revocation (s.wasm.revocation.recordAuthoredDelta
        s.native.crdt.authorDid)).authoredDeltaIds did = s.wasm.revocation.authoredDeltaIds did := by
      cases noted with
      | none => rfl
      | some id =>
        refine (authoredDeltaIds_record _ _ id did).trans ?_
        rw [if_neg hsame]
    rw [hwasm, ← h.authored did hbefore]
    rcases hcases with ⟨-, hrows⟩ | ⟨δ, dag₁, -, hrows, hstores⟩
    · exact hrows.authors did
    · rw [hstores.others hsame]
      exact hrows.authors did

theorem alike_write (h : Alike s)
    (hop : StaysAlike lib s (.write table key data env wasmEnv)) :
    Alike (step lib s (.write table key data env wasmEnv)) := by
  obtain ⟨hstores, hreached⟩ := hop
  cases hproducing : (WrittenDeltas.producing lib s.native table key data env).isSome with
  | false => exact alike_write_refused h hstores hproducing
  | true =>
    obtain ⟨hcrdt, hcompaction, hreaction, hreaction'⟩ := hreached hproducing
    obtain ⟨hmade, store, durability, migration, transport, hnative⟩ :=
      write_of_no_reaction lib data hreaction
    obtain ⟨-, tables, deltaIndex, durability', migration', hwasm⟩ :=
      wasm_write_of_no_reaction lib data hreaction'
    obtain ⟨hauthor, hcases⟩ := written_cases lib s.native table key data env
    have hapart : (step lib s (.write table key data env wasmEnv)).apart =
        if recordedWrite lib s.wasm table key data wasmEnv =
              (WrittenDeltas.writtenDelta lib s.native table key data env).map Delta.id ∧
            ((WrittenDeltas.writtenDelta lib s.native table key data env).map Delta.id).all
              (fun id => decide (id ∈ (s.native.write lib table key data env).2.crdt.dag.nodesByAuthor
                s.native.identity.did)) = true
        then s.apart else s.native.identity.did :: s.apart := rfl
    rw [hmade, hnative, h.author.symm] at hapart
    refine h.grown ?_ ?_ ?_ fun did hdid => ?_
    · change Grown s ⟨(s.native.write lib table key data env).2,
        (s.wasm.write lib table key data wasmEnv).2, _⟩
      rw [hnative, hwasm]
      refine ⟨rfl, rfl, rfl, ?_, rfl, rfl, rfl, rfl, rfl, rfl, hauthor⟩
      dsimp only
      cases recordedWrite lib s.wasm table key data wasmEnv <;> rfl
    · change RowsGrow _ (s.native.write lib table key data env).2.crdt.dag
      rw [hnative]
      rcases hcases with ⟨-, hrows⟩ | ⟨δ, dag₁, -, hrows, hstored⟩
      · exact SameRows.grow hrows
      · exact (SameRows.grow hrows).trans hstored.grow
    · change EngineAgrees (s.native.write lib table key data env).2.crdt
        (s.wasm.write lib table key data wasmEnv).2.crdt
      rw [hnative, hwasm]
      exact agrees_written h hstores hcrdt hcompaction
    · change (s.native.write lib table key data env).2.crdt.dag.nodesByAuthor did =
        (s.wasm.write lib table key data wasmEnv).2.revocation.authoredDeltaIds did
      rw [hnative, hwasm]
      rw [hapart] at hdid
      dsimp only at hdid ⊢
      exact authored_written h hcases hdid

end Writes

section Revocations
variable {lib : CoreLibraries} {s : Devices} {δ : RevocationDelta} {env : InboundEnvironment}
  {wasmEnv : WasmEnvironment}

variable (lib) in
theorem applies_iff (δ : RevocationDelta) (h : RevocationAgrees s.native.revocation
      s.wasm.revocation.toRevocationSubsystem) (now now' : ℤ) :
    Applies lib s.native.revocation δ now ↔
      Applies lib s.wasm.revocation.toRevocationSubsystem δ now' := by
  have hstatus := (processIncomingDelta_agrees lib.toIdentityLibraries h δ [] [] now now').1
  rw [Applies, Applies, h.revokedDids, hstatus]

/-- A revocation that applies hands on the Deltas that were found, and no other one does. -/
theorem handed_cases (r : RevocationSubsystem) (δ : RevocationDelta) (authored : List DeltaId)
    (now : ℤ) :
    let out := r.processIncomingDelta lib.toIdentityLibraries δ authored now
    (¬Applies lib r δ now ∧ out.2.2 = [] ∧ out.2.1.revokedDids = r.revokedDids) ∨
      Applies lib r δ now ∧ out.2.1.revokedDids = r.revokedDids ++ [δ.targetDid] ∧
        ∃ complete, out.2.2 = .revocationApplied δ.targetDid complete ::
          if authored = [] then [] else [.cceTrigger δ.targetDid authored] := by
  intro out
  obtain ⟨-, hrevocation, hcases⟩ := processIncomingDelta_cases lib r δ authored now
  rcases hcases with ⟨-, heffects, hsame, hknown⟩ | ⟨complete, happlied, hnew, hrevoked, -, heffects⟩
  · refine .inl ⟨fun happlies => happlies.1 (hknown happlies.2), heffects, ?_⟩
    exact (congrArg RevocationSubsystem.revokedDids hrevocation).trans hsame
  · refine .inr ⟨⟨hnew, happlied⟩, ?_, complete, heffects⟩
    exact (congrArg RevocationSubsystem.revokedDids hrevocation).trans hrevoked

theorem handed_trigger (targetDid : Did) (complete : RevocationDelta) (authored : List DeltaId) :
    handed (.revocationApplied targetDid complete ::
      if authored = [] then [] else [.cceTrigger targetDid authored]) = authored := by
  by_cases hauthored : authored = []
  · rw [if_pos hauthored, hauthored]
    rfl
  · rw [if_neg hauthored]
    simp [handed]

theorem found_alike (h : Alike s) (hop : StaysAlike lib s (.revocation δ env wasmEnv))
    (happlies : Applies lib s.native.revocation δ env.now) :
    (if env.authoredFault then [] else s.native.crdt.dag.nodesByAuthor δ.targetDid) =
        s.native.crdt.dag.nodesByAuthor δ.targetDid ∧
      s.wasm.revocation.authoredDeltaIds δ.targetDid =
        s.native.crdt.dag.nodesByAuthor δ.targetDid := by
  obtain ⟨hapart, hfault, -⟩ := hop happlies
  refine ⟨?_, (h.authored _ hapart).symm⟩
  split_ifs with hlost
  · exact (hfault hlost).symm
  · rfl

theorem handsAlike_revocation (h : Alike s)
    (hop : StaysAlike lib s (.revocation δ env wasmEnv)) :
    HandsAlike lib s (.revocation δ env wasmEnv) := by
  change nativeHanded lib s.native δ env = wasmHanded lib s.wasm δ wasmEnv
  have hiff := applies_iff lib δ h.revocation env.now wasmEnv.now
  unfold nativeHanded wasmHanded
  dsimp only
  rcases handed_cases s.native.revocation δ (if env.authoredFault then []
      else s.native.crdt.dag.nodesByAuthor δ.targetDid) env.now with
    ⟨hnot, heffects, -⟩ | ⟨happlies, -, complete, heffects⟩
  · rcases handed_cases s.wasm.revocation.toRevocationSubsystem δ
        (s.wasm.revocation.authoredDeltaIds δ.targetDid) wasmEnv.now with
      ⟨-, heffects', -⟩ | ⟨happlies', -⟩
    · rw [heffects, heffects']
    · exact absurd (hiff.mpr happlies') hnot
  · rcases handed_cases s.wasm.revocation.toRevocationSubsystem δ
        (s.wasm.revocation.authoredDeltaIds δ.targetDid) wasmEnv.now with
      ⟨hnot', -⟩ | ⟨-, -, complete', heffects'⟩
    · exact absurd (hiff.mp happlies) hnot'
    · obtain ⟨hfound, hfound'⟩ := found_alike h hop happlies
      rw [heffects, heffects', handed_trigger, handed_trigger, hfound, hfound']

theorem taints_processRevocation (lib : CoreLibraries) (h : CoreHandle) (δ : RevocationDelta)
    (env : InboundEnvironment) :
    let authored := if env.authoredFault then [] else h.crdt.dag.nodesByAuthor δ.targetDid
    let out := h.revocation.processIncomingDelta lib.toIdentityLibraries δ authored env.now
    let effected := out.2.2.foldl (fun h effect => h.revocationEffect lib env effect)
      { h with revocation := out.2.1 }
    (h.processRevocation lib δ env).2.cce = effected.cce ∧
      (h.processRevocation lib δ env).2.crdt.dag = effected.crdt.dag := by
  unfold processRevocation
  dsimp only
  split <;> exact ⟨rfl, rfl⟩

theorem wasm_taints_processRevocation (lib : CoreLibraries) (w : WasmCoreHandle)
    (δ : RevocationDelta) (env : WasmEnvironment) :
    let out := w.revocation.toRevocationSubsystem.processIncomingDelta lib.toIdentityLibraries δ
      (w.revocation.authoredDeltaIds δ.targetDid) env.now
    let effected := out.2.2.foldl (WasmCoreHandle.revocationEffect env)
      { w with revocation := { w.revocation with toRevocationSubsystem := out.2.1 } }
    (w.processRevocation lib δ env).2.cce = effected.cce ∧
      (w.processRevocation lib δ env).2.tagStore = effected.tagStore ∧
        (w.processRevocation lib δ env).2.cceDag = effected.cceDag := by
  unfold WasmCoreHandle.processRevocation
  dsimp only
  split <;> exact ⟨rfl, rfl, rfl⟩

theorem foldl_effects (lib : CoreLibraries) (h : CoreHandle) (env : InboundEnvironment)
    (targetDid : Did) (complete : RevocationDelta) (authored : List DeltaId) :
    ∃ transport, (RevocationEffect.revocationApplied targetDid complete ::
        if authored = [] then [] else [.cceTrigger targetDid authored]).foldl
          (fun h effect => h.revocationEffect lib env effect) h =
      authored.foldl (fun h id => h.tagRoot (env.taint id) id (.deviceRevocation id))
        { h with transport := transport } := by
  refine ⟨RevocationGossip.enqueueRevocationGossip lib.wire h.transport complete env.now, ?_⟩
  rw [List.foldl_cons]
  by_cases hauthored : authored = []
  · rw [if_pos hauthored, hauthored]
    rfl
  · rw [if_neg hauthored]
    rfl

theorem wasm_foldl_effects (w : WasmCoreHandle) (env : WasmEnvironment) (targetDid : Did)
    (complete : RevocationDelta) (authored : List DeltaId) :
    (RevocationEffect.revocationApplied targetDid complete ::
        if authored = [] then [] else [.cceTrigger targetDid authored]).foldl
          (WasmCoreHandle.revocationEffect env) w =
      authored.foldl (fun w id => w.tagRoot (env.taint id) id (.deviceRevocation id)) w := by
  rw [List.foldl_cons]
  by_cases hauthored : authored = []
  · rw [if_pos hauthored, hauthored]
    rfl
  · rw [if_neg hauthored]
    rfl

/-- The gates close alike, whatever has been tagged. -/
theorem alike_of_taints (h : Alike s)
    (htaints : TaintsAgree (s.native.processRevocation lib δ env).2
      (s.wasm.processRevocation lib δ wasmEnv).2)
    (hdag : ∃ new, Appends s.native.crdt.dag (s.native.processRevocation lib δ env).2.crdt.dag new)
    (htainted : ∀ id v, view (s.native.processRevocation lib δ env).2.cce (.inl id) = some v →
      ∀ r ∈ v.roots, ∃ did ∈ (s.native.processRevocation lib δ env).2.revocation.revokedDids,
        r ∈ s.native.crdt.dag.nodesByAuthor did) :
    Alike (step lib s (.revocation δ env wasmEnv)) := by
  obtain ⟨new, hdag⟩ := hdag
  obtain ⟨cce, dag, store, transport, hnative⟩ := processRevocation_eq lib s.native δ env
  obtain ⟨tagStore, cce', hwasm⟩ := wasm_processRevocation_eq lib s.wasm δ wasmEnv
  obtain ⟨hstatus, hagrees⟩ := processIncomingDelta_agrees lib.toIdentityLibraries h.revocation δ
    (if env.authoredFault then [] else s.native.crdt.dag.nodesByAuthor δ.targetDid)
    (s.wasm.revocation.authoredDeltaIds δ.targetDid) env.now wasmEnv.now
  have hengine := agrees_of_dag h.engine dag
  change Alike ⟨(s.native.processRevocation lib δ env).2,
    (s.wasm.processRevocation lib δ wasmEnv).2, s.apart⟩
  rw [hnative, hstatus] at htaints hdag htainted ⊢
  rw [hwasm] at htaints ⊢
  generalize (s.wasm.revocation.toRevocationSubsystem.processIncomingDelta lib.toIdentityLibraries δ
    (s.wasm.revocation.authoredDeltaIds δ.targetDid) wasmEnv.now).1 = status
    at htaints hdag htainted ⊢
  have hids : ∀ {dag' : ChangesetDag}, Appends s.native.crdt.dag dag' new → dag'.ids.Nodup := by
    intro dag' hdag'
    rw [ChangesetDag.ids_of_graph hdag'.graph]
    exact h.ids
  by_cases happlied : status = .ok .applied
  · subst happlied
    refine ⟨h.did, h.author, hengine.markDidRevoked δ.targetDid, hagrees, ?_, hids hdag,
      fun did hdid => (hdag.authors did).trans (h.authored did hdid), fun id v hv r hr => ?_,
      htaints⟩
    · simp only [closeGates, wasmCloseGates, h.did]
      split_ifs
      · rfl
      · exact h.trustLevel
    · obtain ⟨did, hdid, hmem⟩ := htainted id v hv r hr
      exact ⟨did, hdid, (hdag.authors did).symm ▸ hmem⟩
  · rw [closeGates_of_ne _ δ _ happlied] at htaints hdag htainted ⊢
    rw [wasmCloseGates_of_ne _ δ _ happlied] at htaints ⊢
    refine ⟨h.did, h.author, hengine, hagrees, h.trustLevel, hids hdag,
      fun did hdid => (hdag.authors did).trans (h.authored did hdid), fun id v hv r hr => ?_,
      htaints⟩
    obtain ⟨did, hdid, hmem⟩ := htainted id v hv r hr
    exact ⟨did, hdid, (hdag.authors did).symm ▸ hmem⟩

theorem revokedDids_processRevocation (lib : CoreLibraries) (h : CoreHandle) (δ : RevocationDelta)
    (env : InboundEnvironment) :
    let authored := if env.authoredFault then [] else h.crdt.dag.nodesByAuthor δ.targetDid
    (h.processRevocation lib δ env).2.revocation.revokedDids =
      (h.revocation.processIncomingDelta lib.toIdentityLibraries δ authored
        env.now).2.1.revokedDids := by
  intro authored
  obtain ⟨cce, dag, store, transport, hprocess⟩ := processRevocation_eq lib h δ env
  rw [hprocess]
  unfold closeGates
  split <;> rfl

theorem alike_revocation (h : Alike s) (hop : StaysAlike lib s (.revocation δ env wasmEnv)) :
    Alike (step lib s (.revocation δ env wasmEnv)) := by
  have hiff := applies_iff lib δ h.revocation env.now wasmEnv.now
  obtain ⟨hcce, hdag⟩ := taints_processRevocation lib s.native δ env
  obtain ⟨hcce', htags, hcceDag⟩ := wasm_taints_processRevocation lib s.wasm δ wasmEnv
  have hrevoked := revokedDids_processRevocation lib s.native δ env
  rcases handed_cases s.native.revocation δ (if env.authoredFault then []
      else s.native.crdt.dag.nodesByAuthor δ.targetDid) env.now with
    ⟨hnot, heffects, hsame⟩ | ⟨happlies, hrecorded, complete, heffects⟩
  · have hnothing : (s.wasm.revocation.toRevocationSubsystem.processIncomingDelta
        lib.toIdentityLibraries δ (s.wasm.revocation.authoredDeltaIds δ.targetDid)
        wasmEnv.now).2.2 = [] := by
      rcases handed_cases s.wasm.revocation.toRevocationSubsystem δ
          (s.wasm.revocation.authoredDeltaIds δ.targetDid) wasmEnv.now with
        ⟨-, heffects', -⟩ | ⟨happlies', -⟩
      · exact heffects'
      · exact absurd (hiff.mpr happlies') hnot
    rw [heffects] at hcce hdag
    rw [hnothing] at hcce' htags hcceDag
    refine alike_of_taints h (taintsAgree_same h.taints hcce (fun id => by rw [hdag]; rfl) hcce'
      htags hcceDag) ⟨fun _ => [], by rw [hdag]; exact .refl s.native.crdt.dag⟩
      fun id v hv r hr => ?_
    rw [hcce] at hv
    rw [hrevoked, hsame]
    exact h.tainted id v hv r hr
  · obtain ⟨hfound, hfound'⟩ := found_alike h hop happlies
    obtain ⟨-, -, hseparate⟩ := hop happlies
    obtain ⟨complete', heffects'⟩ : ∃ complete',
        (s.wasm.revocation.toRevocationSubsystem.processIncomingDelta lib.toIdentityLibraries δ
          (s.wasm.revocation.authoredDeltaIds δ.targetDid) wasmEnv.now).2.2 =
          .revocationApplied δ.targetDid complete' ::
            if s.wasm.revocation.authoredDeltaIds δ.targetDid = [] then []
            else [.cceTrigger δ.targetDid (s.wasm.revocation.authoredDeltaIds δ.targetDid)] := by
      rcases handed_cases s.wasm.revocation.toRevocationSubsystem δ
          (s.wasm.revocation.authoredDeltaIds δ.targetDid) wasmEnv.now with
        ⟨hnot', -⟩ | ⟨-, -, complete', heffects'⟩
      · exact absurd (hiff.mp happlies) hnot'
      · exact ⟨complete', heffects'⟩
    rw [heffects, hfound] at hcce hdag
    rw [heffects', hfound', wasm_foldl_effects] at hcce' htags hcceDag
    obtain ⟨transport, htagged⟩ := foldl_effects lib { s.native with revocation :=
        (s.native.revocation.processIncomingDelta lib.toIdentityLibraries δ
          (s.native.crdt.dag.nodesByAuthor δ.targetDid) env.now).2.1 } env δ.targetDid complete
      (s.native.crdt.dag.nodesByAuthor δ.targetDid)
    rw [htagged] at hcce hdag
    rw [hfound] at hrevoked hrecorded
    have hall : AllTaggable s.native s.wasm env.taint wasmEnv.taint
        (s.native.crdt.dag.nodesByAuthor δ.targetDid) := by
      refine ⟨hseparate, h.ids.sublist (List.filter_sublist.map _), fun id => mem_ids_of_author,
        fun id hid k v hv hroot => ?_⟩
      obtain ⟨did, hdid, hmem⟩ := h.tainted k v hv id hroot
      exact happlies.1 (author_unique h.ids hid hmem ▸ hdid)
    obtain ⟨htaints, hnew, hopened⟩ := taintsAgree_tagEach
      (h := { s.native with
        revocation := (s.native.revocation.processIncomingDelta lib.toIdentityLibraries δ
          (s.native.crdt.dag.nodesByAuthor δ.targetDid) env.now).2.1
        transport := transport })
      (w := { s.wasm with
        revocation := { s.wasm.revocation with toRevocationSubsystem :=
          (s.wasm.revocation.toRevocationSubsystem.processIncomingDelta lib.toIdentityLibraries δ
            (s.native.crdt.dag.nodesByAuthor δ.targetDid) wasmEnv.now).2.1 } })
      ⟨h.taints.single, h.taints.keyed, h.taints.noDag, h.taints.agree⟩
      ⟨⟨hall.tags, hall.childless, hall.drawn, hall.wasmDrawn, hall.fresh, hall.wasmFresh⟩,
        hall.nodup, hall.stored, hall.rootless⟩
    refine alike_of_taints h (taintsAgree_same htaints hcce (fun id => by rw [hdag]) hcce' htags
      hcceDag) ?_ fun id v hv r hr => ?_
    · obtain ⟨new, hnew⟩ := hnew
      exact ⟨new, by rw [hdag]; exact hnew⟩
    · rw [hcce] at hv
      rw [hrevoked, hrecorded]
      rcases hopened _ v hv with hold | ⟨root, hroot, hroots⟩
      · obtain ⟨did, hdid, hmem⟩ := h.tainted id v hold r hr
        exact ⟨did, List.mem_append_left _ hdid, hmem⟩
      · rw [hroots, List.mem_singleton] at hr
        subst hr
        exact ⟨δ.targetDid, List.mem_append_right _ (List.mem_singleton_self _), hroot⟩

end Revocations

section Calls
variable {lib : CoreLibraries} {s : Devices} {root : DeltaId} {managerDid : Did}
  {managerSig : Bytes} {expiry nowSecs : ℤ}

theorem alike_of_marks (h : Alike s) {cce : ContaminationEngine} {dag : ChangesetDag}
    {store : LocalStore} {cce' : ContaminationEngine} {tagStore : List (DeltaId × DeltaTag)}
    (hdag : ∃ new, Appends s.native.crdt.dag dag new)
    (htainted : ∀ id v, view cce (.inl id) = some v →
      ∃ u, view s.native.cce (.inl id) = some u ∧ u.roots = v.roots)
    (htaints : TaintsAgree
      { s.native with cce := cce, crdt := { s.native.crdt with dag := dag }, store := store }
      { s.wasm with cce := cce', tagStore := tagStore }) :
    Alike
      ⟨{ s.native with cce := cce, crdt := { s.native.crdt with dag := dag }, store := store },
        { s.wasm with cce := cce', tagStore := tagStore }, s.apart⟩ := by
  obtain ⟨new, hdag⟩ := hdag
  refine ⟨h.did, h.author, agrees_of_dag h.engine dag, h.revocation, h.trustLevel, ?_,
    fun did hdid => (hdag.authors did).trans (h.authored did hdid), fun id v hv r hr => ?_, htaints⟩
  · rw [ChangesetDag.ids_of_graph hdag.graph]
    exact h.ids
  · obtain ⟨u, hu, hroots⟩ := htainted id v hv
    obtain ⟨did, hdid, hmem⟩ := h.tainted id u hu r (hroots ▸ hr)
    exact ⟨did, hdid, (hdag.authors did).symm ▸ hmem⟩

theorem alike_verifyData (h : Alike s) {env : ResolutionEnvironment} {now : ℤ}
    (hop : StaysAlike lib s (.verifyData root managerDid managerSig expiry nowSecs env now)) :
    Alike (step lib s (.verifyData root managerDid managerSig expiry nowSecs env now)) := by
  cases hauth : verifyManagerAuth lib.toIdentityLibraries managerDid managerSig (digestBytes root)
      expiry nowSecs with
  | error e =>
    have hsame : step lib s (.verifyData root managerDid managerSig expiry nowSecs env now) = s := by
      simp only [step, nativeStep, wasmStep, apartAfter, nativeVerify,
        ContaminationEngine.verifyData, WasmCoreHandle.verifyData, hauth]
    rw [hsame]
    exact h
  | ok u =>
    have hcertifiable := hop hauth
    have htaints := taintsAgree_verify h.taints hcertifiable hauth now
    obtain ⟨hshown, hdag⟩ := verifyData_single h.taints.single hcertifiable hauth s.native.store
    obtain ⟨m, hagree⟩ := h.taints.agree
    obtain ⟨cce', tagStore, hwasm, -⟩ := wasm_verifyData_single
      (h.taints.single.matched hagree h.taints.keyed) hauth now
    rw [hwasm] at htaints
    change Alike ⟨_, (s.wasm.verifyData lib.toIdentityLibraries now root managerDid managerSig expiry
      nowSecs).2, s.apart⟩
    rw [hwasm]
    exact alike_of_marks h ⟨_, hdag⟩ (fun id v hv => ⟨v, (hshown _).symm.trans hv, rfl⟩) htaints

theorem alike_adminClose (h : Alike s) {id wasmId : IncidentId} {wasmSig : Bytes} {now wasmNow : ℤ}
    (hop : StaysAlike lib s
      (.adminClose id wasmId managerDid managerSig wasmSig expiry nowSecs now wasmNow)) :
    Alike (step lib s
      (.adminClose id wasmId managerDid managerSig wasmSig expiry nowSecs now wasmNow)) := by
  obtain ⟨hnames, haccepts⟩ := hop
  have htaints := taintsAgree_close h.taints hnames managerDid haccepts now wasmNow
  refine alike_of_marks h ⟨_, .refl s.native.crdt.dag⟩ (fun other v hv => ?_) htaints
  rcases adminClose_cases lib.toIdentityLibraries now id managerDid managerSig expiry nowSecs
    s.native.cce with ⟨-, hcce⟩ | ⟨u, -, hu, -, hview⟩
  · rw [hcce] at hv
    exact ⟨v, hv, rfl⟩
  · rw [hview] at hv
    split_ifs at hv with hk
    · cases hv
      exact ⟨u, hk ▸ hu, rfl⟩
    · exact ⟨v, hv, rfl⟩

end Calls

section Runs
variable {lib : CoreLibraries} {s : Devices}

theorem alike_step (h : Alike s) (op : SharedOperation) (hop : StaysAlike lib s op) :
    Alike (step lib s op) ∧ HandsAlike lib s op := by
  cases op with
  | write table key data env wasmEnv => exact ⟨alike_write h hop, trivial⟩
  | delta δ env wasmEnv => exact ⟨alike_delta h δ env wasmEnv, trivial⟩
  | revocation δ env wasmEnv => exact ⟨alike_revocation h hop, handsAlike_revocation h hop⟩
  | verifyData root managerDid managerSig expiry nowSecs env now =>
    exact ⟨alike_verifyData h hop, trivial⟩
  | adminClose id wasmId managerDid managerSig wasmSig expiry nowSecs now wasmNow =>
    exact ⟨alike_adminClose h hop, trivial⟩

theorem alike_run (h : Alike s) (ops : List SharedOperation)
    (hops : Guarded (step lib) (StaysAlike lib) s ops) :
    Alike (run (step lib) s ops) ∧ Guarded (step lib) (HandsAlike lib) s ops := by
  induction ops generalizing s with
  | nil => exact ⟨h, trivial⟩
  | cons op ops ih =>
    obtain ⟨hnext, hhands⟩ := alike_step h op hops.1
    obtain ⟨hrun, hrest⟩ := ih hnext hops.2
    exact ⟨hrun, hhands, hrest⟩

end Runs

/-- Two devices that start alike hand on the same Deltas and show the same incidents and tag logs,
as long as every step keeps them alike. -/
theorem shownAlike_of_staysAlike (lib : CoreLibraries) (s : Devices) (ops : List SharedOperation)
    (hsame : SameStart s) (hops : Guarded (step lib) (StaysAlike lib) s ops) :
    (∀ earlier later, ops = earlier ++ later → ShownAlike (run (step lib) s earlier)) ∧
      Guarded (step lib) (HandsAlike lib) s ops := by
  refine ⟨?_, (alike_run hsame.alike ops hops).2⟩
  rintro earlier later rfl
  have hearlier := ((guarded_append _ _ _ _ _).mp hops).1
  exact (alike_run hsame.alike earlier hearlier).1.taints.agree

def sampleDevices : Devices :=
  ⟨sampleHandle ⟨.empty, .empty, [], []⟩, .ofNative (sampleHandle ⟨.empty, .empty, [], []⟩), []⟩

theorem sameStart_sample : SameStart sampleDevices :=
  ⟨rfl, rfl, rfl, rfl, rfl, List.nodup_nil, fun _ => rfl, ⟨rfl, rfl⟩, fun _ => rfl, rfl, rfl, rfl⟩

def sampleTaint (first : IncidentId) (id : DeltaId) : TaintEnvironment :=
  ⟨first + id.setWidth 128, 99, 9, none, none, fun _ => false⟩

def sampleNative : InboundEnvironment := { calmInbound with taint := sampleTaint 0 }

def sampleWasm : WasmEnvironment := ⟨10, .ok false, sampleTaint 20⟩

def sampleDelta (id : DeltaId) (parents : List DeltaId) : Delta :=
  ⟨id, CrdtEngine.sampleDid₂, List.replicate 64 0, 0, [], .low, parents, [], 1, 5⟩

def sampleOperations : List SharedOperation :=
  [.delta (sampleDelta 7 []) sampleNative sampleWasm,
    .delta (sampleDelta 8 [7]) sampleNative sampleWasm,
    .revocation sampleRevocation sampleNative sampleWasm]

/-- Two Deltas, one the parent of the other, and the revocation of their author. The same Deltas are
handed on; one composite is left on the native device, and two incidents on the other. -/
theorem parent_and_child_differ :
    let after := run (step (sampleCoreLibraries [])) sampleDevices sampleOperations
    SameStart sampleDevices ∧
      Guarded (step (sampleCoreLibraries [])) (HandsAlike (sampleCoreLibraries [])) sampleDevices
        sampleOperations ∧
      after.native.cce.compositeIncidents.entries.map (fun e => e.2.contaminationRoots) = [[7, 8]] ∧
      after.wasm.cce.incidents.entries.map (fun e => (e.2.contaminationRoots, e.2.state)) =
        [([8], .open_), ([7], .open_)] ∧
      after.wasm.cce.compositeIncidents.entries = [] ∧ ¬ShownAlike after := by
  intro after
  have hregistries : after.native.cce.compositeIncidents.entries.map
        (fun e => e.2.contaminationRoots) = [[7, 8]] ∧
      after.wasm.cce.incidents.entries.map (fun e => (e.2.contaminationRoots, e.2.state)) =
        [([8], .open_), ([7], .open_)] ∧
      after.wasm.cce.compositeIncidents.entries = [] ∧
      (view after.native.cce (.inr 99)).isSome = true := by decide +kernel
  obtain ⟨hnative, hincidents, hwasm, hcomposite⟩ := hregistries
  have hhands : HandsAlike (sampleCoreLibraries []) (run (step (sampleCoreLibraries []))
      sampleDevices (sampleOperations.take 2)) (.revocation sampleRevocation sampleNative
        sampleWasm) := by
    unfold HandsAlike
    decide +kernel
  refine ⟨sameStart_sample, ⟨trivial, trivial, hhands, trivial⟩, hnative, hincidents, hwasm, ?_⟩
  rintro ⟨m, hagree⟩
  obtain ⟨v, hv⟩ := Option.isSome_iff_exists.mp hcomposite
  obtain ⟨k', v', hpair, hv', -⟩ := hagree.matched hv
  cases k' with
  | inl id' => cases m.kinds _ hpair
  | inr id' =>
    rw [view] at hv'
    obtain ⟨comp, hcomp, -⟩ := Option.map_eq_some_iff.mp hv'
    have hmem := AList.mem_lookup_iff.mp hcomp
    rw [hwasm] at hmem
    exact absurd hmem List.not_mem_nil

def sampleWrite : SharedOperation :=
  .write "items" "k" .null (calmWrite 1) ⟨fun _ => false, false, none, false, false, false,
    ⟨⟨fun l => l, fun l => .refl l⟩, 1, none, none⟩, ⟨1, 2, 1, none, none, fun _ => false⟩⟩

def sampleAlike : List SharedOperation :=
  [sampleWrite, .delta (sampleDelta 7 []) sampleNative sampleWasm,
    .revocation sampleRevocation sampleNative sampleWasm,
    .verifyData 7 CrdtEngine.sampleDid₂ (List.replicate 64 0) 10 0
      ⟨1, 2, fun _ _ => 5, none, fun _ => false, fun _ => none, fun _ => false, fun _ => none⟩ 1,
    .adminClose 7 27 CrdtEngine.sampleDid₂ (List.replicate 64 0) (List.replicate 64 0) 10 0 1 1]

theorem shownAlike_of_staysAlike_sample :
    ShownAlike (run (step (sampleCoreLibraries [])) sampleDevices sampleAlike) := by
  let lib := sampleCoreLibraries []
  let before := fun n => run (step lib) sampleDevices (sampleAlike.take n)
  have hwrite : StaysAlike lib sampleDevices sampleWrite := by
    refine ⟨by decide +kernel, fun _ => ⟨rfl, fun actor h => (by cases h), ?_, ?_⟩⟩
    · decide +kernel
    · decide +kernel
  have hrevocation : StaysAlike lib (before 2)
      (.revocation sampleRevocation sampleNative sampleWasm) := by
    have hrows : (before 2).native.crdt.dag.nodesByAuthor CrdtEngine.sampleDid₂ = [7] := by
      decide +kernel
    have hedges : (before 2).native.crdt.dag.edges = [] := by decide +kernel
    have happart : (before 2).apart = [] := by decide +kernel
    intro _
    change CrdtEngine.sampleDid₂ ∉ (before 2).apart ∧ (_ → _ = _) ∧ Separate _ _ _ _
      ((before 2).native.crdt.dag.nodesByAuthor CrdtEngine.sampleDid₂)
    rw [hrows, happart]
    refine ⟨List.not_mem_nil, fun h => (by cases h), ?_⟩
    refine ⟨fun id _ => ⟨⟨rfl, rfl⟩, rfl⟩, fun id _ c hc => ?_, List.nodup_singleton _,
      List.nodup_singleton _, fun id hid => ?_, fun id hid => ?_⟩
    · rw [hedges] at hc
      cases hc
    · rw [List.mem_singleton.mp hid]
      decide +kernel
    · rw [List.mem_singleton.mp hid]
      decide +kernel
  have hverify : StaysAlike lib (before 3) (.verifyData 7 CrdtEngine.sampleDid₂
      (List.replicate 64 0) 10 0 ⟨1, 2, fun _ _ => 5, none, fun _ => false, fun _ => none,
        fun _ => false, fun _ => none⟩ 1) := by
    have hedges : (before 3).native.crdt.dag.edges = [] := by decide +kernel
    have hstored : (7 : DeltaId) ∈ (before 3).native.crdt.dag.ids := by decide +kernel
    refine fun _ => ⟨rfl, hstored, fun _ => ⟨rfl, fun _ c hc => ?_⟩⟩
    rw [hedges] at hc
    cases hc
  have hclose : StaysAlike lib (before 4) (.adminClose 7 27 CrdtEngine.sampleDid₂
      (List.replicate 64 0) (List.replicate 64 0) 10 0 1 1) := by
    have hnative : (view (before 4).native.cce (.inl 7)).map IncidentView.roots = some [7] := by
      decide +kernel
    have hwasm : (view (before 4).wasm.cce (.inl 27)).map IncidentView.roots = some [7] := by
      decide +kernel
    refine ⟨hnative.trans hwasm.symm, iff_of_true ?_ ?_⟩
    · unfold Accepts
      decide +kernel
    · unfold Accepts
      decide +kernel
  exact (shownAlike_of_staysAlike lib sampleDevices sampleAlike sameStart_sample
    ⟨hwrite, trivial, hrevocation, hverify, hclose, trivial⟩).1 sampleAlike []
      (List.append_nil sampleAlike).symm

end TirBase.BuildAgreement
