import TirBase.CoreHandle

/-! # Runs of a device

What a native device goes through: calls of the application, messages from the mesh, migration
jobs, acknowledgements of the cloud, and restarts on its own database. -/
namespace TirBase.DeviceRuns
open CoreHandle Capability TransitionRuns

inductive DeviceOperation
  | write (table key : String) (data : JsonValue) (env : WriteEnvironment)
  | receiveInbound (msg : GossipMessage) (env : InboundEnvironment)
  | initiateRevocation (targetDid managerToken : String) (env : InboundEnvironment)
  | capability (op : Capability.Operation)
  | prepareJob (index : ℕ)
  | transformWrite (table key : String) (value : JsonValue) (fault : Option StoreFault)
  | finishJob (index : ℕ) (outcome : Except TirBaseError MigrationResult)
      (env : SchemaMigrationEngine.ReplayEnvironment)
  | cloudAck (deltaId : DeltaId)
  | restart (started : Bool)

variable (lib : CoreLibraries) (biscuit : BiscuitLibrary) (config : DeploymentConfig)

/-- `CoreHandle::init` on what the database of a closed device holds. -/
def restart (h : CoreHandle) (started : Bool) : CoreHandle :=
  match init lib config h.identity h.storage started with
  | .ok h' => h'
  | .error _ => h

def deviceStep (h : CoreHandle) : DeviceOperation → CoreHandle
  | .write table key data env => (h.write lib table key data env).2
  | .receiveInbound msg env => (h.receiveInbound lib msg env).2
  | .initiateRevocation targetDid managerToken env =>
    (h.initiateRevocation lib targetDid managerToken env).2
  | .capability op => { h with capability := Capability.step biscuit h.capability op }
  | .prepareJob index => h.prepareJob lib index
  | .transformWrite table key value fault => h.transformWrite lib table key value fault
  | .finishJob index outcome env => h.finishJob lib index outcome env
  | .cloudAck deltaId => { h with durability := h.durability.onCloudAck deltaId }
  | .restart started => restart lib config h started

variable {lib config}

/-- The engine that a start builds: nothing but the DAG comes from the database. -/
structure FreshEngine (identity : Identity) (dag : ChangesetDag) (current : SchemaIdentifierHash)
    (e : CrdtEngine) : Prop where
  doc : e.doc = .empty identity.publicKey.val
  lamport : e.lamport = 0
  authorDid : e.authorDid = identity.did
  revokedDids : e.revokedDids = []
  knownSchemaHash : e.knownSchemaHash = current
  dag : e.dag = dag

theorem registerDefinitions_fresh {identity : Identity} {dag : ChangesetDag}
    {current : SchemaIdentifierHash} {definitions : List (SchemaIdentifierHash × Schema)}
    {e e' : CrdtEngine} (he : FreshEngine identity dag current e)
    (h : registerDefinitions lib e definitions = .ok e') :
    FreshEngine identity dag current e' := by
  induction definitions generalizing e with
  | nil =>
    cases h
    exact he
  | cons definition rest ih =>
    simp only [registerDefinitions, CrdtEngine.registerSchemaDefinition] at h
    split_ifs at h with hhash
    have hregistered : FreshEngine identity dag current { e with
        schemaDefinitions := (definition.2.identifierHash lib.toIdentityLibraries, definition.2) ::
          e.schemaDefinitions } :=
      ⟨he.doc, he.lamport, he.authorDid, he.revokedDids, he.knownSchemaHash, he.dag⟩
    exact ih hregistered h

theorem registerDefinitions_accepts {definitions : List (SchemaIdentifierHash × Schema)}
    {e e' : CrdtEngine} (h : registerDefinitions lib e definitions = .ok e') (f : CrdtEngine) :
    ∃ f', registerDefinitions lib f definitions = .ok f' := by
  induction definitions generalizing e f with
  | nil => exact ⟨f, rfl⟩
  | cons definition rest ih =>
    simp only [registerDefinitions, CrdtEngine.registerSchemaDefinition] at h ⊢
    split_ifs at h with hhash
    simp only [hhash, if_false]
    exact ih h _

def startSchemaHash (lib : CoreLibraries) (config : DeploymentConfig) : SchemaIdentifierHash :=
  config.schemaVersionPath.head?.getD (initialSchemaHash lib config)

theorem initSchemas_fresh {identity : Identity} {dag : ChangesetDag} {e e' : CrdtEngine}
    (he : FreshEngine identity dag (initialSchemaHash lib config) e)
    (h : initSchemas lib config e = .ok e') :
    FreshEngine identity dag (startSchemaHash lib config) e' := by
  unfold initSchemas at h
  unfold startSchemaHash
  cases hpath : config.schemaVersionPath with
  | nil =>
    rw [hpath] at h
    simp only at h
    split_ifs at h
    cases h
    exact he
  | cons current rest =>
    rw [hpath] at h
    simp only at h
    split_ifs at h
    have hcurrent : FreshEngine identity dag current (e.setCurrentSchema current) :=
      ⟨he.doc, he.lamport, he.authorDid, he.revokedDids, rfl, he.dag⟩
    exact registerDefinitions_fresh hcurrent h

theorem initSchemas_accepts {e e' : CrdtEngine} (h : initSchemas lib config e = .ok e')
    (f : CrdtEngine) : ∃ f', initSchemas lib config f = .ok f' := by
  unfold initSchemas at h ⊢
  cases hpath : config.schemaVersionPath with
  | nil =>
    rw [hpath] at h
    simp only at h ⊢
    split_ifs at h with hdefinitions
    rw [if_neg hdefinitions]
    exact ⟨f, rfl⟩
  | cons current rest =>
    rw [hpath] at h
    simp only at h ⊢
    split_ifs at h with hlength
    rw [if_neg hlength]
    exact registerDefinitions_accepts h _

structure Started (lib : CoreLibraries) (config : DeploymentConfig) (device : Identity)
    (database : Storage) (h : CoreHandle) : Prop where
  identity : h.identity = device
  storage : h.storage = database
  engine : FreshEngine device database.dag (startSchemaHash lib config) h.crdt
  contamination : h.cce = .new
  trust : h.capability.trustLevel = .unverified
  revocations : h.revocation.revokedDids = []
  schema : h.migration.localSchemaHash = migrationLocalSchemaHash lib config
  registry : h.migration.revocationRegistry = .default
  blacklist : h.migration.blacklistedSenders = []
  windows : h.migration.corruptedSchemaWindows = ∅
  durability : h.durability = .new

theorem started_of_init {identity : Identity} {storage : Storage} {started : Bool}
    {h : CoreHandle} (hinit : init lib config identity storage started = .ok h) :
    Started lib config identity storage h := by
  unfold init at hinit
  simp only at hinit
  split at hinit
  · cases hinit
  · rename_i e hschemas
    cases hinit
    have hfresh : FreshEngine identity storage.dag (startSchemaHash lib config) e :=
      initSchemas_fresh ⟨rfl, rfl, rfl, rfl, rfl, rfl⟩ hschemas
    refine ⟨rfl, ?_, hfresh, rfl, rfl, rfl, rfl, rfl, rfl, rfl, rfl⟩
    simp only [CoreHandle.storage, hfresh.dag]
    rfl

theorem secretKey_registerDefinitions {definitions : List (SchemaIdentifierHash × Schema)}
    {e e' : CrdtEngine} (h : registerDefinitions lib e definitions = .ok e') :
    e'.secretKey = e.secretKey := by
  induction definitions generalizing e with
  | nil =>
    cases h
    rfl
  | cons definition rest ih =>
    simp only [registerDefinitions, CrdtEngine.registerSchemaDefinition] at h
    split_ifs at h with hhash
    have hregistered : registerDefinitions lib { e with
        schemaDefinitions := (definition.2.identifierHash lib.toIdentityLibraries, definition.2) ::
          e.schemaDefinitions } rest = .ok e' := h
    rw [ih hregistered]

theorem secretKey_of_init {identity : Identity} {storage : Storage} {started : Bool}
    {h : CoreHandle} (hinit : init lib config identity storage started = .ok h) :
    h.crdt.secretKey = identity.secretKey := by
  unfold init at hinit
  simp only at hinit
  split at hinit
  · cases hinit
  · rename_i e hschemas
    cases hinit
    unfold initSchemas at hschemas
    split at hschemas
    · split_ifs at hschemas
      cases hschemas
      rfl
    · dsimp only at hschemas
      split_ifs at hschemas
      rw [secretKey_registerDefinitions hschemas]
      rfl

/-- A configuration that was accepted once is accepted again, on any database. -/
theorem init_accepts {identity : Identity} {storage : Storage} {started : Bool} {h : CoreHandle}
    (hinit : init lib config identity storage started = .ok h) (identity' : Identity)
    (storage' : Storage) (started' : Bool) :
    ∃ h', init lib config identity' storage' started' = .ok h' := by
  unfold init at hinit ⊢
  simp only at hinit ⊢
  split at hinit
  · cases hinit
  · rename_i e hschemas
    obtain ⟨f, hf⟩ := initSchemas_accepts hschemas
      (CrdtEngine.new identity'.secretKey identity'.publicKey identity'.did
        (initialSchemaHash lib config) storage'.dag)
    rw [hf]
    exact ⟨_, rfl⟩

theorem started_restart {identity : Identity} {storage : Storage} {started : Bool}
    {h : CoreHandle} (hinit : init lib config identity storage started = .ok h) (h' : CoreHandle)
    (started' : Bool) :
    Started lib config h'.identity h'.storage (restart lib config h' started') := by
  obtain ⟨after, hafter⟩ := init_accepts hinit h'.identity h'.storage started'
  unfold restart
  rw [hafter]
  exact started_of_init hafter

end TirBase.DeviceRuns
