import TirBase.DeviceRuns
import TirBase.LogLaws
import TirBase.ReceiptSoundness
import TirBase.TokenEntitlement
import TirBase.WrittenDeltas

/-! # The tag logs of a device

Nodes are stored by writes, by merges and by replays; tags come from the contamination engine, from
revoked migrations and from replays. -/
namespace TirBase.DeviceLogs
open CoreHandle CrdtEngine DeviceRuns EngineRuns IncidentRuns TagLogs TransitionRuns

inductive TaintOperation
  | device (op : DeviceOperation)
  | tagRoot (env : TaintEnvironment) (root : DeltaId) (source : TaintSource)
  | verifyContamination (rootDeltaId : DeltaId) (managerToken : Bytes) (nowSecs : ℤ)
      (env : ResolutionEnvironment)
  | adminCloseIco (icoId : IncidentId) (managerToken : Bytes) (nowSecs : ℤ)
      (env : ResolutionEnvironment)

def taintStep (lib : CoreLibraries) (biscuit : Capability.BiscuitLibrary)
    (config : DeploymentConfig) (h : CoreHandle) : TaintOperation → CoreHandle
  | .device op => deviceStep lib biscuit config h op
  | .tagRoot env root source => h.tagRoot env root source
  | .verifyContamination rootDeltaId managerToken nowSecs env =>
    (h.verifyContamination lib biscuit rootDeltaId managerToken nowSecs env).2
  | .adminCloseIco icoId managerToken nowSecs env =>
    (h.adminCloseIco lib biscuit icoId managerToken nowSecs env).2

/-- Nothing but other columns of the rows has changed. -/
structure SameLogs (dag dag' : ChangesetDag) : Prop where
  graph : dag'.graph = dag.graph
  tags : ∀ id, tagsOf dag' id = tagsOf dag id

theorem SameLogs.refl (dag : ChangesetDag) : SameLogs dag dag := ⟨rfl, fun _ => rfl⟩

/-- A Delta is tainted by its ancestors only, and never by a human reaction. -/
def Traced (dag : ChangesetDag) (id : DeltaId) : DeltaTag → Prop
  | .contaminated rootId _ => id ∈ dag.bfsDescendants rootId
  | .contaminatedByHumanReaction _ => False
  | _ => True

theorem traced_of_lawful {cce : ContaminationEngine} {dag : ChangesetDag} {id : DeltaId}
    {t : DeltaTag} (h : Lawful cce dag id t) : Traced dag id t := by
  cases t with
  | contaminated rootId incidentId => exact h
  | contaminatedByHumanReaction incidentId => exact h
  | decontaminated incidentId resolvedAt => trivial
  | resolved byManagerDid at_ => trivial
  | contaminatedByCorruptedMigration migrationId => trivial
  | replayComplete migrationId => trivial

theorem descendants_mono {dag dag' : ChangesetDag} (hedges : dag.edges ⊆ dag'.edges)
    {root id : DeltaId} (h : id ∈ dag.bfsDescendants root) : id ∈ dag'.bfsDescendants root := by
  rw [ChangesetDag.mem_bfsDescendants_iff] at h ⊢
  refine h.lift (fun v => v) fun p c hchild => ?_
  exact ChangesetDag.mem_children.mpr (hedges (ChangesetDag.mem_children.mp hchild))

theorem Traced.mono {dag dag' : ChangesetDag} (hedges : dag.edges ⊆ dag'.edges) {id : DeltaId}
    {t : DeltaTag} (h : Traced dag id t) : Traced dag' id t := by
  cases t with
  | contaminated rootId incidentId => exact descendants_mono hedges h
  | contaminatedByHumanReaction incidentId => exact h
  | decontaminated incidentId resolvedAt => trivial
  | resolved byManagerDid at_ => trivial
  | contaminatedByCorruptedMigration migrationId => trivial
  | replayComplete migrationId => trivial

structure TracedGrowth (dag dag' : ChangesetDag) : Prop where
  edges : dag.edges ⊆ dag'.edges
  grows : Grows (Traced dag') dag dag'

theorem TracedGrowth.refl (dag : ChangesetDag) : TracedGrowth dag dag :=
  ⟨List.Subset.refl _, .refl _ _⟩

theorem TracedGrowth.trans {dag dag' dag'' : ChangesetDag} (h : TracedGrowth dag dag')
    (h' : TracedGrowth dag' dag'') : TracedGrowth dag dag'' :=
  ⟨List.Subset.trans h.edges h'.edges, (h.grows.mono fun _ _ ht => ht.mono h'.edges).trans h'.grows⟩

theorem TracedGrowth.insert (dag : ChangesetDag) (node : DagNode) :
    TracedGrowth dag (dag.insert node) :=
  ⟨fun _ he => ChangesetDag.mem_edges_insert.mpr (.inl he), grows_insert _ dag node⟩

theorem SameLogs.grows {dag dag' : ChangesetDag} (h : SameLogs dag dag')
    (allowed : DeltaId → DeltaTag → Prop) : Grows allowed dag dag' := by
  refine ⟨fun id l hl => ⟨[], ?_, by simp⟩, fun id l hnone hl => ?_⟩
  · rw [h.tags, hl, List.append_nil]
  · rw [h.tags, hnone] at hl
    cases hl

theorem SameLogs.growth {dag dag' : ChangesetDag} (h : SameLogs dag dag') :
    TracedGrowth dag dag' := by
  refine ⟨?_, h.grows _⟩
  rw [ChangesetDag.edges_of_graph h.graph]
  exact List.Subset.refl _

theorem growth_foldl_appendTag (tag : DeltaTag) (htag : ∀ dag id, Traced dag id tag)
    (ids : List DeltaId) (dag : ChangesetDag) :
    TracedGrowth dag (ids.foldl (fun dag id => dag.appendTag id tag) dag) := by
  induction ids generalizing dag with
  | nil => exact .refl dag
  | cons id ids ih =>
    refine TracedGrowth.trans ⟨?_, ?_⟩ (ih (dag.appendTag id tag))
    · rw [ChangesetDag.edges_of_graph (ChangesetDag.graph_appendTag dag id tag)]
      exact List.Subset.refl _
    · rw [← appendTag_clean]
      exact grows_storeEach (fun _ _ => rfl) fun other _ => htag _ other

theorem growth_of_recorded {cce cce' : ContaminationEngine} {dag dag' : ChangesetDag}
    (h : CallRecorded cce dag cce' dag') : TracedGrowth dag dag' :=
  ⟨by rw [ChangesetDag.edges_of_graph h.graph]; exact List.Subset.refl _,
    h.grows.mono fun _ _ => traced_of_lawful⟩

theorem sameLogs_compactTable (lib : EngineLibraries) (e : CrdtEngine)
    (fault : Option CompactionFault) : SameLogs e.dag (compactTable lib e fault).dag := by
  refine ⟨(dag_compactTable e fault).2, fun id => ?_⟩
  cases fault with
  | some f =>
    cases f with
    | markNodes => rfl
    | updateDocs actor =>
      simp only [compactTable]
      split <;> rfl
  | none =>
    simp only [compactTable, tagsOf]
    rw [get_map (f := fun r => { r with compacted := true }) (fun _ => rfl), Option.map_map]
    rfl

theorem sameLogs_compactAfterWrite (lib : EngineLibraries) (e : CrdtEngine) (table : String)
    (fault : Option CompactionFault) :
    SameLogs e.dag (e.compactAfterWrite lib table fault).2.dag := by
  unfold compactAfterWrite maybeCompact
  split_ifs
  · exact sameLogs_compactTable lib e fault
  · exact .refl _

/-- A Delta that this device has signed with these tags. -/
structure SignedWith (lib : IdentityLibraries) (h : CoreHandle) (tags : List DeltaTag)
    (δ : Delta) : Prop where
  tags : δ.tags = tags
  id : δ.id = lib.computeId (lib.canonicalBytes δ)
  signature : δ.signature = lib.sign h.crdt.secretKey (lib.canonicalBytes δ)

/-- A production fails, or a signed Delta is stored; nothing else than the engine changes. -/
theorem produceWrite_logs (lib : CoreLibraries) (h : CoreHandle) (table key : String)
    (data : JsonValue) (env : WriteEnvironment) :
    ∃ e', (h.produceWrite lib table key data env).2 = { h with crdt := e' } ∧
      ((∃ err, (h.produceWrite lib table key data env).1 = .error err ∧
          SameLogs h.crdt.dag e'.dag) ∨
        ∃ δ compacted dag₁ node, (h.produceWrite lib table key data env).1 = .ok (δ, compacted) ∧
          SameLogs h.crdt.dag dag₁ ∧ NodeOf lib.toEngineLibraries δ node ∧
          e'.dag = dag₁.insert node ∧
          SignedWith lib.toIdentityLibraries h
            ((h.humanReactionIncident table key env).toList.map .contaminatedByHumanReaction) δ) := by
  by_cases hpoisoned : env.poisoned .crdt = true
  · refine ⟨h.crdt, ?_, .inl ⟨poisonError "crdt", ?_, .refl _⟩⟩ <;>
      simp only [produceWrite, hpoisoned, if_true]
  rw [Bool.not_eq_true] at hpoisoned
  obtain ⟨doc, hengine⟩ := writeScalar_engine lib.toEngineLibraries h.crdt table key data
  generalize hout : h.crdt.writeScalar lib.toEngineLibraries table key data = written at hengine
  obtain ⟨out, e⟩ := written
  dsimp only at hengine
  simp only [produceWrite, hpoisoned, Bool.false_eq_true, if_false, hout]
  cases out with
  | error err => exact ⟨e, rfl, .inl ⟨err, rfl, by rw [hengine]; exact .refl _⟩⟩
  | ok bytes =>
    dsimp only
    have hcompacted := sameLogs_compactAfterWrite lib.toEngineLibraries e table env.compaction
    have hkey : (e.compactAfterWrite lib.toEngineLibraries table env.compaction).2.secretKey =
        h.crdt.secretKey := by
      obtain ⟨doc', dag', hcompact⟩ := maybeCompact_engine lib.toEngineLibraries e
        (e.compactionPolicyFor table) env.compaction
      rw [compactAfterWrite, hcompact, hengine]
    rw [hengine] at hcompacted hkey ⊢
    generalize ({ h.crdt with doc := doc } : CrdtEngine).compactAfterWrite lib.toEngineLibraries
      table env.compaction = compacted at hcompacted hkey ⊢
    rcases produceDeltaWithTags_cases .native compacted.2 bytes .low []
      ((h.humanReactionIncident table key env).toList.map .contaminatedByHumanReaction)
      env.produce with ⟨err, hproduce⟩ | ⟨parents, hproduce⟩
    · rw [hproduce]
      exact ⟨_, rfl, .inl ⟨err, rfl, hcompacted⟩⟩
    · rw [hproduce]
      refine ⟨_, rfl, .inr ⟨_, _, compacted.2.dag, _, rfl, hcompacted, nodeOf_dagNode _ _, rfl,
        rfl, rfl, ?_⟩⟩
      rw [← hkey]
      rfl

/-- The DAG grows with traced tags, and the registries stay under their identifiers. -/
structure Traces (h h' : CoreHandle) : Prop where
  growth : TracedGrowth h.crdt.dag h'.crdt.dag
  keyed : Keyed h'.cce

theorem Traces.trans {h h' h'' : CoreHandle} (hfirst : Traces h h') (hsecond : Traces h' h'') :
    Traces h h'' := ⟨hfirst.growth.trans hsecond.growth, hsecond.keyed⟩

section Steps
variable {lib : CoreLibraries} {h : CoreHandle}

theorem traces_of_same {h' : CoreHandle} (hkeyed : Keyed h.cce) (hdag : h'.crdt.dag = h.crdt.dag)
    (hcce : h'.cce = h.cce) : Traces h h' :=
  ⟨hdag ▸ .refl _, hcce ▸ hkeyed⟩

theorem traces_tagRoot (hkeyed : Keyed h.cce) (env : TaintEnvironment) (root : DeltaId)
    (source : TaintSource) : Traces h (h.tagRoot env root source) := by
  have hread : Reads .clean h.crdt.dag := fun _ _ _ => rfl
  have hcall := recorded_tagContaminationRoot env hkeyed hread root source h.store
  exact ⟨growth_of_recorded hcall, hcall.keyed⟩

theorem traces_foldl_tagRoot (hkeyed : Keyed h.cce) (env : DeltaId → TaintEnvironment)
    (ids : List DeltaId) :
    Traces h (ids.foldl (fun h id => h.tagRoot (env id) id (.deviceRevocation id)) h) := by
  induction ids generalizing h with
  | nil => exact traces_of_same hkeyed rfl rfl
  | cons id ids ih =>
    have hfirst := traces_tagRoot hkeyed (env id) id (.deviceRevocation id)
    exact hfirst.trans (ih hfirst.keyed)

theorem traces_tagReaction (hkeyed : Keyed h.cce) (env : TaintEnvironment)
    (incident : Option IncidentId) (root : DeltaId) :
    Traces h (h.tagReaction env incident root) := by
  cases incident with
  | none => exact traces_of_same hkeyed rfl rfl
  | some id => exact traces_tagRoot hkeyed env root (.humanReaction id)

theorem cce_commitWrite (h : CoreHandle) (table : String) (δ : Delta) (compacted : Bool)
    (env : WriteEnvironment) : (h.commitWrite lib table δ compacted env).2.cce = h.cce := by
  have hcapture : ∀ h' : CoreHandle, (h'.captureWrite lib table δ env).cce = h'.cce := by
    intro h'
    unfold captureWrite
    split_ifs <;> rfl
  have hpublish : ∀ h' : CoreHandle, (h'.publishWrite lib δ env).2.cce = h'.cce := by
    intro h'
    unfold publishWrite
    split_ifs <;> rfl
  have hregister : (h.registerWrite lib δ compacted env).2.cce = h.cce := by
    unfold registerWrite
    by_cases hmutex : env.poisoned .durability = true
    · rw [if_pos hmutex]
    · rw [if_neg hmutex]
      dsimp only
      split <;> rfl
  unfold commitWrite
  dsimp only
  split
  · exact hregister
  · rw [hpublish, hcapture, hregister]

theorem traces_write (hkeyed : Keyed h.cce) (table key : String) (data : JsonValue)
    (env : WriteEnvironment) : Traces h (h.write lib table key data env).2 := by
  rcases WrittenDeltas.producing_cases lib h table key data env with
    ⟨-, out, store, hwrite⟩ | ⟨store, -, hwrite⟩
  · rw [hwrite]
    exact traces_of_same hkeyed rfl rfl
  · rw [hwrite]
    obtain ⟨e', hengine, hproduced⟩ :=
      produceWrite_logs lib { h with store := store } table key data env
    generalize hout : ({ h with store := store } : CoreHandle).produceWrite lib table key data env =
      out at hengine hproduced
    obtain ⟨out, h'⟩ := out
    dsimp only at hengine hproduced
    rcases hproduced with ⟨err, rfl, hlogs⟩ | ⟨δ, compacted, dag₁, node, rfl, hlogs, -, hdag, -⟩
    · rw [publishRow_of_error hout, hengine]
      exact ⟨hlogs.growth, hkeyed⟩
    · rw [publishRow_of_ok hout]
      have hstored : Traces h h' := by
        rw [hengine]
        refine ⟨?_, hkeyed⟩
        dsimp only
        rw [hdag]
        exact hlogs.growth.trans (.insert dag₁ node)
      have htagged := hstored.trans (traces_tagReaction hstored.keyed env.taint
        (({ h with store := store } : CoreHandle).humanReactionIncident table key env) δ.id)
      refine ⟨?_, ?_⟩
      · rw [(WrittenDeltas.crdt_commitWrite _ table δ compacted env).1]
        exact htagged.growth
      · rw [cce_commitWrite]
        exact htagged.keyed

variable (lib) in
theorem growth_apply (e : CrdtEngine) (δ : Delta) (now : ℤ) (fault : DagFault) :
    TracedGrowth e.dag (e.apply lib.toEngineLibraries .native δ now fault).2.dag := by
  by_cases hmerged : ∃ n, (e.apply lib.toEngineLibraries .native δ now fault).1 = .ok (.merged n)
  · obtain ⟨adopt, doc, -, -, happly⟩ := apply_eq_merged hmerged
    rw [happly]
    cases adopt <;> exact .insert _ _
  · push Not at hmerged
    rw [dag_apply_of_not_merged hmerged]
    exact .refl _

theorem cce_receiveDelta (h : CoreHandle) (δ : Delta) (env : InboundEnvironment) :
    (h.receiveDelta lib δ env).2.cce = h.cce := by
  have hproject : ∀ h' : CoreHandle, (h'.projectMerged lib δ env.storeFault).cce = h'.cce := by
    intro h'
    unfold projectMerged
    split <;> rfl
  simp only [receiveDelta]
  split <;> simp [issueDurabilityReceipt, hproject]

theorem traces_revocationEffects (hkeyed : Keyed h.cce) (env : InboundEnvironment)
    (effects : List RevocationEffect) :
    Traces h (effects.foldl (fun h effect => h.revocationEffect lib env effect) h) := by
  induction effects generalizing h with
  | nil => exact traces_of_same hkeyed rfl rfl
  | cons effect effects ih =>
    have hfirst : Traces h (h.revocationEffect lib env effect) := by
      cases effect with
      | revocationApplied targetDid complete => exact traces_of_same hkeyed rfl rfl
      | cceTrigger targetDid deltaIds => exact traces_foldl_tagRoot hkeyed env.taint deltaIds
    exact hfirst.trans (ih hfirst.keyed)

theorem traces_processRevocation (hkeyed : Keyed h.cce) (δ : RevocationDelta)
    (env : InboundEnvironment) : Traces h (h.processRevocation lib δ env).2 := by
  let authored := if env.authoredFault then [] else h.crdt.dag.nodesByAuthor δ.targetDid
  let out := h.revocation.processIncomingDelta lib.toIdentityLibraries δ authored env.now
  have heffects : Traces h (out.2.2.foldl (fun h effect => h.revocationEffect lib env effect)
      { h with revocation := out.2.1 }) := by
    refine Traces.trans ?_ (traces_revocationEffects ?_ env out.2.2)
    · exact traces_of_same hkeyed rfl rfl
    · exact hkeyed
  unfold processRevocation
  dsimp only
  split
  · exact heffects.trans (traces_of_same heffects.keyed rfl rfl)
  · exact heffects

theorem traces_revokeMigration (hkeyed : Keyed h.cce) (δ : MigrationRevocationDelta)
    (env : InboundEnvironment) : Traces h (h.revokeMigration lib δ env) := by
  simp only [revokeMigration]
  split
  · exact traces_of_same hkeyed rfl rfl
  · refine Traces.trans ⟨?_, ?_⟩ (traces_tagRoot ?_ _ _ _)
    · exact growth_foldl_appendTag (.contaminatedByCorruptedMigration δ.targetMigrationId)
        (fun _ _ => trivial) _ h.crdt.dag
    · exact hkeyed
    · exact hkeyed

theorem traces_receiveInbound (hkeyed : Keyed h.cce) (msg : GossipMessage)
    (env : InboundEnvironment) : Traces h (h.receiveInbound lib msg env).2 := by
  cases msg with
  | inboundDelta δ =>
    refine ⟨?_, ?_⟩
    · change TracedGrowth h.crdt.dag (h.receiveDelta lib δ env).2.crdt.dag
      rw [crdt_receiveDelta]
      exact growth_apply lib h.crdt δ env.now env.applyFault
    · change Keyed (h.receiveDelta lib δ env).2.cce
      rw [cce_receiveDelta]
      exact hkeyed
  | inboundRevocationDelta δ => exact traces_processRevocation hkeyed δ env
  | inboundMigrationRevocationDelta δ => exact traces_revokeMigration hkeyed δ env
  | inboundDurabilityReceipt receipt =>
    change Traces h (h.receiveReceipt lib receipt env)
    unfold receiveReceipt
    split <;> exact traces_of_same hkeyed rfl rfl
  | inboundMigrationDelta δ => exact traces_of_same hkeyed rfl rfl
  | inboundDeltaFragment fragment => exact traces_of_same hkeyed rfl rfl
  | relayDelta targetDid payload => exact traces_of_same hkeyed rfl rfl

theorem traces_initiateRevocation (hkeyed : Keyed h.cce) (targetDid managerToken : String)
    (env : InboundEnvironment) :
    Traces h (h.initiateRevocation lib targetDid managerToken env).2 := by
  unfold initiateRevocation
  split_ifs
  · exact traces_of_same hkeyed rfl rfl
  · exact traces_of_same hkeyed rfl rfl
  · refine Traces.trans ?_ (traces_processRevocation ?_ _ env)
    · exact traces_of_same hkeyed rfl rfl
    · exact hkeyed

theorem growth_replayCorruptedWindows (env : SchemaMigrationEngine.ReplayEnvironment)
    (m : SchemaMigrationEngine) (e : CrdtEngine) (preMigrationSchema : SchemaIdentifierHash) :
    TracedGrowth e.dag
      (m.replayCorruptedWindows lib.toMigrationLibraries env e preMigrationSchema).2.dag := by
  have hentry : ∀ (e : CrdtEngine) (entry : SideCarEntry), TracedGrowth e.dag
      (SchemaMigrationEngine.replayEntry lib.toMigrationLibraries env e entry).2.2.dag := by
    intro e entry
    unfold SchemaMigrationEngine.replayEntry
    split
    · exact .refl _
    · rename_i δ hparse
      have happlied := growth_apply lib e δ env.now (env.fault entry.id)
      split <;> rename_i happly <;> rw [happly] at happlied <;> exact happlied
  have hentries : ∀ (entries : List SideCarEntry) (m : SchemaMigrationEngine) (e : CrdtEngine),
      TracedGrowth e.dag (SchemaMigrationEngine.replayEntries lib.toMigrationLibraries env m e
        entries).2.2.dag := by
    intro entries
    induction entries with
    | nil => exact fun m e => .refl _
    | cons entry entries ih => exact fun m e => (hentry e entry).trans (ih _ _)
  have hsidecar : ∀ (m : SchemaMigrationEngine) (e : CrdtEngine) (id : MigrationId),
      TracedGrowth e.dag
        (m.replaySidecar lib.toMigrationLibraries env e id).2.dag := by
    intro m e id
    unfold SchemaMigrationEngine.replaySidecar
    dsimp only
    split_ifs
    · refine (hentries (m.loadEntriesOrdered id) m e).trans ?_
      exact growth_foldl_appendTag (.replayComplete id) (fun _ _ => trivial) _ _
    · exact hentries _ m e
  have hfold : ∀ (ids : List MigrationId) (m : SchemaMigrationEngine) (e : CrdtEngine),
      TracedGrowth e.dag (ids.foldl (fun s id => SchemaMigrationEngine.replaySidecar
        lib.toMigrationLibraries env s.1 s.2 id) (m, e)).2.dag := by
    intro ids
    induction ids with
    | nil => exact fun m e => .refl _
    | cons id ids ih => exact fun m e => (hsidecar m e id).trans (ih _ _)
  exact hfold _ _ e

theorem traces_finishJob (hkeyed : Keyed h.cce) (index : ℕ)
    (outcome : Except TirBaseError MigrationResult)
    (env : SchemaMigrationEngine.ReplayEnvironment) :
    Traces h (h.finishJob lib index outcome env) := by
  unfold finishJob
  split
  · dsimp only
    split
    · refine ⟨?_, hkeyed⟩
      exact growth_replayCorruptedWindows env _ (h.crdt.setCurrentSchema _) _
    · exact traces_of_same hkeyed rfl rfl
  · exact traces_of_same hkeyed rfl rfl

theorem keyed_close {accepted : Prop} {id : IncidentId} {s s' : IncidentRun}
    (hkeyed : Keyed s.cce) (heffect : CloseEffect accepted id s s') : Keyed s'.cce := by
  cases heffect with
  | refused hrefused hsame => exact hsame ▸ hkeyed
  | closed haccepted v hv hopen hview habsorbed hindex hdag hstore =>
    refine ⟨fun other w hw => ?_, fun other w hw => ?_⟩
    · rw [hview] at hw
      split_ifs at hw with hsame
      · cases hw
        exact (hkeyed.1 id v hv).trans (Sum.inl.inj hsame).symm
      · exact hkeyed.1 other w hw
    · rw [hview, if_neg (by simp)] at hw
      exact hkeyed.2 other w hw

variable (lib) in
theorem traces_deviceStep (biscuit : Capability.BiscuitLibrary) (config : DeploymentConfig)
    (hkeyed : Keyed h.cce) (op : DeviceOperation) :
    Traces h (deviceStep lib biscuit config h op) := by
  cases op with
  | write table key data env => exact traces_write hkeyed table key data env
  | receiveInbound msg env => exact traces_receiveInbound hkeyed msg env
  | initiateRevocation targetDid managerToken env =>
    exact traces_initiateRevocation hkeyed targetDid managerToken env
  | capability op => exact traces_of_same hkeyed rfl rfl
  | prepareJob index =>
    change Traces h (h.prepareJob lib index)
    unfold prepareJob
    split
    · dsimp only
      split <;> exact traces_of_same hkeyed rfl rfl
    · exact traces_of_same hkeyed rfl rfl
  | transformWrite table key value fault => exact traces_of_same hkeyed rfl rfl
  | finishJob index outcome env => exact traces_finishJob hkeyed index outcome env
  | cloudAck deltaId => exact traces_of_same hkeyed rfl rfl
  | restart started =>
    change Traces h (restart lib config h started)
    unfold restart
    split
    · rename_i h' hinit
      have hstarted := started_of_init hinit
      refine ⟨?_, ?_⟩
      · rw [hstarted.engine.dag]
        exact .refl _
      · rw [hstarted.contamination]
        exact keyed_new
    · exact traces_of_same hkeyed rfl rfl

variable (lib) in
theorem traces_taintStep (biscuit : Capability.BiscuitLibrary) (config : DeploymentConfig)
    (hkeyed : Keyed h.cce) (op : TaintOperation) :
    Traces h (taintStep lib biscuit config h op) := by
  cases op with
  | device op => exact traces_deviceStep lib biscuit config hkeyed op
  | tagRoot env root source => exact traces_tagRoot hkeyed env root source
  | verifyContamination rootDeltaId managerToken nowSecs env =>
    change Traces h (h.verifyContamination lib biscuit rootDeltaId managerToken nowSecs env).2
    unfold verifyContamination
    split
    · exact traces_of_same hkeyed rfl rfl
    · have hread : Reads .clean h.crdt.dag := fun _ _ _ => rfl
      rename_i claims hclaims
      have hcall := recorded_verifyData lib.toIdentityLibraries env hkeyed hread rootDeltaId
        h.identity.did (lib.sign h.identity.secretKey (digestBytes rootDeltaId))
        (wrapI64 (claims.expiresAt * 1000000)) nowSecs h.store
      exact ⟨growth_of_recorded hcall, hcall.keyed⟩
  | adminCloseIco icoId managerToken nowSecs env =>
    change Traces h (h.adminCloseIco lib biscuit icoId managerToken nowSecs env).2
    unfold adminCloseIco
    split
    · exact traces_of_same hkeyed rfl rfl
    · rename_i claims hclaims
      refine ⟨.refl _, ?_⟩
      exact keyed_close (s := ⟨h.cce, h.crdt.dag, h.store⟩) hkeyed
        (closeEffect lib.toIdentityLibraries _ env.now icoId h.identity.did
          (lib.sign h.identity.secretKey (uuidBytes icoId))
          (wrapI64 (claims.expiresAt * 1000000)) nowSecs)

end Steps

def sampleTaintStep : CoreHandle → TaintOperation → CoreHandle :=
  taintStep (sampleCoreLibraries []) Capability.sampleBiscuits sampleConfig

end TirBase.DeviceLogs
