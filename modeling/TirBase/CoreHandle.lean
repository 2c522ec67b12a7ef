import TirBase.DurabilitySubsystem
import TirBase.RevocationGossip
import TirBase.SchemaMigration

/-! # The device

`CoreHandle` of the native build. A device is a set of subsystems; its rows, the Changeset DAG,
the quarantine ledger and the Side-Car Ledger are in the storage, and all else is memory. -/
namespace TirBase
open Automerge Capability ScalarProjection

structure CoreLibraries extends MigrationLibraries where
  messageToBytes : GossipMessage → Bytes
  messageFromBytes : Bytes → Option GossipMessage
  unquotedWrite : String → String → String → LocalStore → Except TirBaseError Unit × LocalStore
  unquotedRead : String → String → LocalStore → Except TirBaseError (Option String)
  parseJson : Bytes → Option JsonValue

namespace CoreLibraries

def wire (lib : CoreLibraries) : WireLibraries :=
  ⟨lib.serialiseDelta, fun bytes => (lib.parseDelta bytes).toOption, lib.messageToBytes,
    lib.messageFromBytes⟩

def store (lib : CoreLibraries) : StoreLibraries := ⟨lib.json, lib.unquotedWrite, lib.unquotedRead⟩

end CoreLibraries

structure DeploymentConfig where
  rootCaKeys : List KeyBytes
  revocationM : ℕ
  revocationN : ℕ
  biscuitTtlSecs : ℕ
  migrationCaPublicKey : Option KeyBytes
  schemaVersionPath : List SchemaIdentifierHash
  schemaDefinitions : List Schema
  meshMtu : ℕ
  deriving DecidableEq

structure Identity where
  secretKey : KeyBytes
  publicKey : KeyBytes
  did : Did
  deriving DecidableEq

structure Storage where
  store : LocalStore
  dag : ChangesetDag
  quarantineLedger : List QuarantineEntry
  sidecarLedger : List SideCarEntry
  deriving DecidableEq

/-- A migration that arrived: its job waits to validate it, or runs the transform. -/
inductive MigrationJob
  | waiting (delta : MigrationDelta) (senderDid : Did)
  | running (prepared : PreparedMigration)
  deriving DecidableEq

structure CoreHandle where
  identity : Identity
  store : LocalStore
  crdt : CrdtEngine
  cce : ContaminationEngine
  capability : CapabilityManager
  revocation : RevocationSubsystem
  migration : SchemaMigrationEngine
  durability : DurabilitySubsystem
  transport : MeshTransport
  migrationJobs : List MigrationJob
  deriving DecidableEq

/-- `WriteResult`. -/
structure WriteResult where
  deltaId : DeltaId
  durabilityTier : DurabilityTier
  unverifiedWarning : Option ℤ
  deriving DecidableEq

def defaultSchemaHash : SchemaIdentifierHash := 0

def defaultLinkCapacityBytes : ℕ := 1000000

namespace CoreHandle
variable (lib : CoreLibraries)

/-- Register the definitions under the versions of the path, position by position. -/
def registerDefinitions (crdt : CrdtEngine) :
    List (SchemaIdentifierHash × Schema) → Except TirBaseError CrdtEngine
  | [] => .ok crdt
  | (version, schema) :: rest =>
    match crdt.registerSchemaDefinition version (schema.identifierHash lib.toIdentityLibraries)
      schema with
    | .error e => .error e
    | .ok crdt => registerDefinitions crdt rest

def initSchemas (config : DeploymentConfig) (crdt : CrdtEngine) : Except TirBaseError CrdtEngine :=
  match config.schemaVersionPath with
  | [] =>
    if config.schemaDefinitions ≠ [] then
      .error (.schemaRegistrationFailed "schema_definitions provided but schema_version_path is empty — every definition must map to a path version")
    else .ok crdt
  | current :: _ =>
    let definitions := config.schemaDefinitions.length
    let versions := config.schemaVersionPath.length
    if config.schemaDefinitions ≠ [] ∧ definitions ≠ versions then
      .error (.schemaRegistrationFailed
        s!"schema_definitions length {definitions} does not match schema_version_path length {versions}")
    else
      registerDefinitions lib (crdt.setCurrentSchema current)
        (config.schemaVersionPath.zip config.schemaDefinitions)

def initialSchemaHash (config : DeploymentConfig) : SchemaIdentifierHash :=
  (config.schemaDefinitions.head?.map fun s => s.identifierHash lib.toIdentityLibraries).getD
    defaultSchemaHash

def migrationLocalSchemaHash (config : DeploymentConfig) : SchemaIdentifierHash :=
  if config.schemaDefinitions ≠ [] then initialSchemaHash lib config
  else config.schemaVersionPath.head?.getD defaultSchemaHash

/-- `build_schema_def_map`: definitions that do not read back are left out. -/
def buildSchemaDefMap (definitions : List Schema) : List (SchemaIdentifierHash × Schema) :=
  (definitions.filterMap fun s =>
    match lib.reparseSchema s with
    | .ok reparsed => some (reparsed.identifierHash lib.toIdentityLibraries, reparsed)
    | .error _ => none).reverse

/-- The transport after `start`; without a Swarm task nothing takes from the channel. -/
def initTransport (config : DeploymentConfig) (did : Did) (started : Bool) : MeshTransport where
  mtu := config.meshMtu
  discovery := ⟨4, ∅⟩
  reassemblyBuffer := .empty
  localDid := did
  scheduler := .new defaultLinkCapacityBytes
  outboundTx := some ⟨4096, !started, []⟩
  bleOutboundTx := none

/-- `CoreHandle::init` on an opened database. -/
def init (config : DeploymentConfig) (identity : Identity) (storage : Storage) (started : Bool) :
    Except TirBaseError CoreHandle :=
  let crdt := CrdtEngine.new identity.secretKey identity.publicKey identity.did
    (initialSchemaHash lib config) storage.dag
  match initSchemas lib config crdt with
  | .error e => .error e
  | .ok crdt =>
    .ok
      { identity := identity
        store := storage.store
        crdt := crdt
        cce := .new
        capability := .new config.rootCaKeys config.revocationM config.revocationN
          (decide (86400 < config.biscuitTtlSecs))
        revocation := .new (max config.revocationM 1) (max config.revocationN 1)
        migration := .new (config.migrationCaPublicKey.getD ⟨List.replicate 32 0, by simp⟩)
          (migrationLocalSchemaHash lib config) config.schemaVersionPath
          (max config.revocationM 1) storage.quarantineLedger storage.sidecarLedger
          (buildSchemaDefMap lib config.schemaDefinitions)
        durability := .new
        transport := initTransport config identity.did started
        migrationJobs := [] }

def storage (h : CoreHandle) : Storage :=
  ⟨h.store, h.crdt.dag, h.migration.quarantineLedger, h.migration.sidecarLedger⟩

inductive Mutex
  | capability | store | cce | migration | crdt | durability | transport
  deriving DecidableEq

/-- The error of locking a mutex whose holder panicked. -/
def poisonError (mutex : String) : TirBaseError :=
  .localStoreWriteFailed s!"{mutex} mutex poisoned: poisoned lock: another task failed inside"

structure WriteEnvironment where
  poisoned : Mutex → Bool
  storeFault : Option StoreFault
  compaction : Option CrdtEngine.CompactionFault
  produce : CrdtEngine.ProduceEnvironment
  taint : TaintEnvironment

/-- The incident that a write is tagged with: the row's, when the row is contaminated or the
current schema has quarantined entries. -/
def humanReactionIncident (h : CoreHandle) (table key : String) (env : WriteEnvironment) :
    Option IncidentId :=
  if env.poisoned .cce then none
  else if h.cce.isRowContaminated table key ||
      (!env.poisoned .migration && h.migration.isSchemaQuarantined) then
    h.cce.activeIncidentForRow table key
  else none

/-- Put the value into the document and sign a Delta over it. The Delta comes with whether the
document was compacted. -/
def produceWrite (h : CoreHandle) (table key : String) (data : JsonValue)
    (env : WriteEnvironment) : Except TirBaseError (Delta × Bool) × CoreHandle :=
  let tags := (h.humanReactionIncident table key env).toList.map .contaminatedByHumanReaction
  if env.poisoned .crdt then (.error (poisonError "crdt"), h)
  else
    let written := h.crdt.writeScalar lib.toEngineLibraries table key data
    match written.1 with
    | .error e => (.error e, { h with crdt := written.2 })
    | .ok automergeBytes =>
      let compacted := written.2.compactAfterWrite lib.toEngineLibraries table env.compaction
      let produced := compacted.2.produceDeltaWithTags lib.toEngineLibraries .native
        automergeBytes .low [] tags env.produce
      (produced.1.map fun δ => (δ, compacted.1), { h with crdt := produced.2 })

/-- Tag a root; an error of the contamination engine is dropped. -/
def tagRoot (h : CoreHandle) (env : TaintEnvironment) (root : DeltaId) (source : TaintSource) :
    CoreHandle :=
  let out := ContaminationEngine.tagContaminationRoot .clean env root source h.cce h.crdt.dag h.store
  { h with
    cce := out.2.1
    crdt := { h.crdt with dag := out.2.2.1 }
    store := out.2.2.2 }

/-- The contamination of a write that was tagged. -/
def tagReaction (h : CoreHandle) (env : TaintEnvironment) (incident : Option IncidentId)
    (root : DeltaId) : CoreHandle :=
  match incident with
  | none => h
  | some id => h.tagRoot env root (.humanReaction id)

/-- Register the Delta for durability; the bytes of a compacted one are dropped. -/
def registerWrite (h : CoreHandle) (δ : Delta) (compacted : Bool) (env : WriteEnvironment) :
    Except TirBaseError Unit × CoreHandle :=
  if env.poisoned .durability then (.error (poisonError "durability"), h)
  else
    let out := h.durability.registerDelta δ.id δ.id (lib.serialiseDelta δ) δ.causalParents ∅
    match out.1 with
    | .error e => (.error e, { h with durability := out.2 })
    | .ok () =>
      (.ok (), { h with durability :=
        if compacted then { out.2 with cloudQueue := out.2.cloudQueue.markCompacted δ.id }
        else out.2 })

/-- The Side-Car capture, which does not fail the write. -/
def captureWrite (h : CoreHandle) (table : String) (δ : Delta) (env : WriteEnvironment) :
    CoreHandle :=
  if env.poisoned .migration then h
  else
    { h with
      migration := (h.migration.recordCorruptedWindowWrite lib.toMigrationLibraries table
        (lib.serialiseDelta δ) δ.createdAt).2 }

/-- The publication: an error of the transport is logged, a poisoned one is returned. -/
def publishWrite (h : CoreHandle) (δ : Delta) (env : WriteEnvironment) :
    Except TirBaseError Unit × CoreHandle :=
  if env.poisoned .transport then (.error (poisonError "transport"), h)
  else (.ok (), { h with transport := (h.transport.sendDelta lib.wire h.identity.did δ).2 })

/-- `write`, once the Delta is made: it fails while the Delta is registered, or once it is when the
transport's mutex is poisoned. -/
def commitWrite (h : CoreHandle) (table : String) (δ : Delta) (compacted : Bool)
    (env : WriteEnvironment) : Except TirBaseError WriteResult × CoreHandle :=
  let registered := h.registerWrite lib δ compacted env
  match registered.1 with
  | .error e => (.error e, registered.2)
  | .ok () =>
    let published := (registered.2.captureWrite lib table δ env).publishWrite lib δ env
    (published.1.map fun _ =>
      ⟨δ.id, .uncommitted, h.capability.trustState.unverifiedWarning⟩, published.2)

/-- `write`, after the row is stored. -/
def publishRow (h : CoreHandle) (table key : String) (data : JsonValue) (env : WriteEnvironment) :
    Except TirBaseError WriteResult × CoreHandle :=
  let produced := h.produceWrite lib table key data env
  match produced.1 with
  | .error e => (.error e, produced.2)
  | .ok (δ, compacted) =>
    let tagged := produced.2.tagReaction env.taint (h.humanReactionIncident table key env) δ.id
    tagged.commitWrite lib table δ compacted env

def write (h : CoreHandle) (table key : String) (data : JsonValue) (env : WriteEnvironment) :
    Except TirBaseError WriteResult × CoreHandle :=
  if env.poisoned .capability then (.error (poisonError "capability"), h)
  else
    match h.capability.ensureLocalTrustAllowsIo with
    | .error e => (.error e, h)
    | .ok () =>
      if env.poisoned .store then (.error (poisonError "store"), h)
      else
        let stored := h.store.write lib.store env.storeFault table key data
        match stored.1 with
        | .error e => (.error e, { h with store := stored.2 })
        | .ok () => { h with store := stored.2 }.publishRow lib table key data env

/-- `read`. -/
def read (h : CoreHandle) (table key : String) : Except TirBaseError (JsonValue × Option ℤ) :=
  match h.capability.ensureLocalTrustAllowsIo with
  | .error e => .error e
  | .ok () =>
    match h.store.read lib.store table key with
    | .error e => .error e
    | .ok none => .error (.localStoreWriteFailed s!"key '{key}' not found in table '{table}'")
    | .ok (some data) => .ok (data, h.capability.trustState.unverifiedWarning)

@[simp] theorem durability_tagReaction (h : CoreHandle) (env : TaintEnvironment)
    (incident : Option IncidentId) (root : DeltaId) :
    (h.tagReaction env incident root).durability = h.durability := by
  cases incident <;> rfl

@[simp] theorem lamport_tagReaction (h : CoreHandle) (env : TaintEnvironment)
    (incident : Option IncidentId) (root : DeltaId) :
    (h.tagReaction env incident root).crdt.lamport = h.crdt.lamport := by
  cases incident <;> rfl

@[simp] theorem doc_tagReaction (h : CoreHandle) (env : TaintEnvironment)
    (incident : Option IncidentId) (root : DeltaId) :
    (h.tagReaction env incident root).crdt.doc = h.crdt.doc := by
  cases incident <;> rfl

variable {lib}

theorem publishRow_of_error {h h' : CoreHandle} {table key : String} {data : JsonValue}
    {env : WriteEnvironment} {e : TirBaseError}
    (hproduce : h.produceWrite lib table key data env = (.error e, h')) :
    h.publishRow lib table key data env = (.error e, h') := by
  simp only [publishRow, hproduce]

theorem publishRow_of_ok {h h' : CoreHandle} {table key : String} {data : JsonValue}
    {env : WriteEnvironment} {δ : Delta} {compacted : Bool}
    (hproduce : h.produceWrite lib table key data env = (.ok (δ, compacted), h')) :
    h.publishRow lib table key data env =
      (h'.tagReaction env.taint (h.humanReactionIncident table key env) δ.id).commitWrite lib table
        δ compacted env := by
  simp only [publishRow, hproduce]

/-- The values are put, the document is saved and perhaps compacted, and a Delta over it is
produced. -/
theorem produceWrite_eq (lib : CoreLibraries) (h : CoreHandle) (table key : String)
    (data : JsonValue) {env : WriteEnvironment} (hcrdt : env.poisoned .crdt = false) :
    h.produceWrite lib table key data env =
      let saved := CrdtEngine.savedDocument lib.json h.crdt table key data
      let compacted := ({ h.crdt with doc := saved.commit } : CrdtEngine).compactAfterWrite
        lib.toEngineLibraries table env.compaction
      let produced := compacted.2.produceDeltaWithTags lib.toEngineLibraries .native
        (lib.save saved) .low []
        ((h.humanReactionIncident table key env).toList.map .contaminatedByHumanReaction)
        env.produce
      (produced.1.map fun δ => (δ, compacted.1), { h with crdt := produced.2 }) := by
  simp only [produceWrite, hcrdt, CrdtEngine.writeScalar, Bool.false_eq_true, if_false]

variable (lib)

structure InboundEnvironment where
  now : ℤ
  applyFault : DagFault
  storeFault : Option StoreFault
  receiptId : Uuid
  quorumVerdict : Except TirBaseError Bool
  authoredFault : Bool
  taggingFault : Bool
  taint : DeltaId → TaintEnvironment

/-- A payload that is a JSON object names its row itself. `_data` is the whole value. -/
def envelopeProjection (envelope : JsonValue) : Option (String × String × JsonValue) :=
  match envelope with
  | .object members =>
    match (envelope.get? "_tirbase_table").bind JsonValue.asStr?,
      (envelope.get? "_tirbase_key").bind JsonValue.asStr? with
    | some table, some key =>
      match envelope.get? "_data" with
      | some data => some (table, key, data)
      | none =>
        let appData := members.filter fun m => m.1 ≠ "_tirbase_table" && m.1 ≠ "_tirbase_key"
        if appData.isEmpty then none else some (table, key, .object appData)
    | _, _ => none
  | _ => none

/-- A text is read as JSON once more where it is JSON. -/
def storedValue (json : JsonText) : JsonValue → JsonValue
  | .string s =>
    match json.fromStr s with
    | .ok value => value
    | .error _ => .string s
  | value => value

/-- The row that the merged document names, with the value that it shows under that key. -/
def documentProjection (doc : Document) : Option (String × String × JsonValue) :=
  match (readScalar doc "_tirbase_table").bind JsonValue.asStr?,
    (readScalar doc "_tirbase_key").bind JsonValue.asStr? with
  | some table, some key => (readScalar doc key).map fun value =>
      (table, key, storedValue lib.json value)
  | _, _ => none

def projection (doc : Document) (automergeBytes : Bytes) : Option (String × String × JsonValue) :=
  if automergeBytes = [] then none
  else
    match lib.parseJson automergeBytes with
    | some envelope => envelopeProjection envelope
    | none => documentProjection lib doc

/-- An error of the store is dropped. -/
def projectMerged (h : CoreHandle) (δ : Delta) (fault : Option StoreFault) : CoreHandle :=
  match projection lib h.crdt.doc δ.automergeBytes with
  | none => h
  | some (table, key, value) =>
    { h with store := (h.store.write lib.store fault table key value).2 }

/-- `issue_durability_receipt`: an error of the channel is dropped. -/
def issueDurabilityReceipt (h : CoreHandle) (stateHash : DeltaId) (receiptId : Uuid) (now : ℤ) :
    CoreHandle :=
  let signature := lib.sign h.identity.secretKey (receiptSigningPayload stateHash receiptId)
  let receipt : DurabilityReceipt :=
    ⟨receiptId, stateHash, h.identity.did, signature, none, none, now⟩
  let sent := h.transport.sendOnOutbound lib.wire [.inboundDurabilityReceipt receipt]
  { h with transport := sent.2 }

def receiveDelta (h : CoreHandle) (δ : Delta) (env : InboundEnvironment) :
    Except TirBaseError Unit × CoreHandle :=
  let applied := h.crdt.apply lib.toEngineLibraries .native δ env.now env.applyFault
  let h := { h with crdt := applied.2 }
  match applied.1 with
  | .error e => (.error e, h)
  | .ok (.merged _) =>
    (.ok (), (h.projectMerged lib δ env.storeFault).issueDurabilityReceipt lib δ.id env.receiptId
      env.now)
  | .ok (.quarantined reason) =>
    let migration := h.migration.quarantineIncoming lib.toMigrationLibraries δ.authorDid
      (lib.serialiseDelta δ) (some δ.schemaHash) reason env.now
    (.ok (), { h with migration := migration })
  | .ok (.rejected _) => (.ok (), h)

def receiveReceipt (h : CoreHandle) (receipt : DurabilityReceipt) (env : InboundEnvironment) :
    CoreHandle :=
  match lib.resolveDid receipt.issuerDid with
  | .error _ => h
  | .ok issuerKey =>
    let d := h.durability.registerPeerKey receipt.stateHash receipt.issuerDid issuerKey
    let out := d.receiveReceipt lib.toIdentityLibraries receipt receipt.stateHash env.quorumVerdict
    { h with durability := out.2 }

def revocationEffect (h : CoreHandle) (env : InboundEnvironment) : RevocationEffect → CoreHandle
  | .revocationApplied _ complete =>
    { h with
      transport := RevocationGossip.enqueueRevocationGossip lib.wire h.transport complete env.now }
  | .cceTrigger _ deltaIds =>
    deltaIds.foldl (fun h id => h.tagRoot (env.taint id) id (.deviceRevocation id)) h

/-- A revocation that applies closes the merge gate on the target and, when the target is this
device, its own I/O gate. -/
def processRevocation (h : CoreHandle) (δ : RevocationDelta) (env : InboundEnvironment) :
    Except TirBaseError RevocationStatus × CoreHandle :=
  let authored := if env.authoredFault then [] else h.crdt.dag.nodesByAuthor δ.targetDid
  let out := h.revocation.processIncomingDelta lib.toIdentityLibraries δ authored env.now
  let h := out.2.2.foldl (fun h effect => h.revocationEffect lib env effect)
    { h with revocation := out.2.1 }
  match out.1 with
  | .ok .applied =>
    (out.1, { h with
      crdt := h.crdt.markDidRevoked δ.targetDid
      capability := if δ.targetDid = h.identity.did then h.capability.applyRevocation env.now
                    else h.capability })
  | _ => (out.1, h)

/-- `char::is_whitespace`. -/
def isWhitespace (c : Char) : Bool :=
  let n := c.toNat
  decide (9 ≤ n ∧ n ≤ 13 ∨ n = 0x20 ∨ n = 0x85 ∨ n = 0xa0 ∨ n = 0x1680 ∨
    0x2000 ≤ n ∧ n ≤ 0x200a ∨ n = 0x2028 ∨ n = 0x2029 ∨ n = 0x202f ∨ n = 0x205f ∨ n = 0x3000)

/-- `trim().is_empty()`. -/
def isBlank (text : String) : Bool := text.toList.all isWhitespace

/-- `initiate_revocation`. -/
def initiateRevocation (h : CoreHandle) (targetDid managerToken : String)
    (env : InboundEnvironment) : Except TirBaseError Unit × CoreHandle :=
  if isBlank managerToken then
    (.error (.authorisationFailed "manager_token must not be blank"), h)
  else if isBlank targetDid then
    (.error (.authorisationFailed "target_did must not be blank"), h)
  else
    let part := RevocationSubsystem.producePartialDelta lib.toIdentityLibraries targetDid
      h.identity.did h.identity.secretKey env.now
    let h := { h with
      transport := RevocationGossip.enqueueRevocationGossip lib.wire h.transport part env.now }
    let out := h.processRevocation lib part env
    (out.1.map fun _ => (), out.2)

/-- A migration revocation that is accepted tags the Deltas of the migration's target schema and
the migration itself. -/
def revokeMigration (h : CoreHandle) (δ : MigrationRevocationDelta) (env : InboundEnvironment) :
    CoreHandle :=
  let out := h.migration.receiveRevocationDelta lib.toMigrationLibraries δ env.now
  match out.1 with
  | .error _ => h
  | .ok _ =>
    let h := { h with migration := out.2 }
    let authored := match h.migration.migrationTargets.lookup δ.targetMigrationId with
      | some schemaHash => if env.taggingFault then [] else h.crdt.dag.nodesBySchemaHash schemaHash
      | none => []
    let dag := authored.foldl (fun dag id =>
      dag.appendTag id (.contaminatedByCorruptedMigration δ.targetMigrationId)) h.crdt.dag
    { h with crdt := { h.crdt with dag := dag } }.tagRoot (env.taint δ.targetMigrationId)
      δ.targetMigrationId (.badMigration δ.targetMigrationId)

def receiveInbound (h : CoreHandle) (msg : GossipMessage) (env : InboundEnvironment) :
    Except TirBaseError Unit × CoreHandle :=
  match msg with
  | .inboundDelta δ => h.receiveDelta lib δ env
  | .inboundDurabilityReceipt receipt => (.ok (), h.receiveReceipt lib receipt env)
  | .inboundRevocationDelta δ => (.ok (), (h.processRevocation lib δ env).2)
  | .inboundMigrationDelta δ =>
    (.ok (), { h with migrationJobs := h.migrationJobs ++ [.waiting δ δ.authorDid] })
  | .inboundMigrationRevocationDelta δ => (.ok (), h.revokeMigration lib δ env)
  | .inboundDeltaFragment _ => (.ok (), h)
  | .relayDelta _ _ => (.ok (), h)

theorem revocationEffects_eq (env : InboundEnvironment) (effects : List RevocationEffect)
    (h : CoreHandle) : ∃ cce dag store transport,
      effects.foldl (fun h effect => h.revocationEffect lib env effect) h =
        { h with
          cce := cce, crdt := { h.crdt with dag := dag }, store := store, transport := transport } := by
  have htags : ∀ (ids : List DeltaId) (h : CoreHandle), ∃ cce dag store,
      ids.foldl (fun h id => h.tagRoot (env.taint id) id (.deviceRevocation id)) h =
        { h with cce := cce, crdt := { h.crdt with dag := dag }, store := store } := by
    intro ids
    induction ids with
    | nil => exact fun h => ⟨h.cce, h.crdt.dag, h.store, rfl⟩
    | cons id ids ih =>
      intro h
      obtain ⟨cce, dag, store, hids⟩ := ih (h.tagRoot (env.taint id) id (.deviceRevocation id))
      exact ⟨cce, dag, store, by rw [List.foldl_cons, hids]; rfl⟩
  induction effects generalizing h with
  | nil => exact ⟨h.cce, h.crdt.dag, h.store, h.transport, rfl⟩
  | cons effect effects ih =>
    obtain ⟨cce, dag, store, transport, heffects⟩ := ih (h.revocationEffect lib env effect)
    cases effect with
    | revocationApplied targetDid complete =>
      exact ⟨cce, dag, store, transport, by rw [List.foldl_cons, heffects]; rfl⟩
    | cceTrigger targetDid deltaIds =>
      obtain ⟨cce', dag', store', hids⟩ := htags deltaIds h
      refine ⟨cce, dag, store, transport, ?_⟩
      rw [List.foldl_cons, heffects]
      simp only [CoreHandle.revocationEffect, hids]

def closeGates (h : CoreHandle) (δ : RevocationDelta) (now : ℤ) :
    Except TirBaseError RevocationStatus → CoreHandle
  | .ok .applied => { h with
      crdt := h.crdt.markDidRevoked δ.targetDid
      capability := if δ.targetDid = h.identity.did then h.capability.applyRevocation now
                    else h.capability }
  | _ => h

theorem closeGates_of_ne (h : CoreHandle) (δ : RevocationDelta) (now : ℤ)
    {status : Except TirBaseError RevocationStatus} (hstatus : status ≠ .ok .applied) :
    closeGates h δ now status = h := by
  unfold closeGates
  split
  · exact absurd rfl hstatus
  · rfl

theorem processRevocation_eq (h : CoreHandle) (δ : RevocationDelta)
    (env : InboundEnvironment) :
    let authored := if env.authoredFault then [] else h.crdt.dag.nodesByAuthor δ.targetDid
    let out := h.revocation.processIncomingDelta lib.toIdentityLibraries δ authored env.now
    ∃ cce dag store transport, (h.processRevocation lib δ env).2 =
      closeGates { h with
        revocation := out.2.1, cce := cce, crdt := { h.crdt with dag := dag }, store := store
        transport := transport } δ env.now out.1 := by
  intro authored out
  obtain ⟨cce, dag, store, transport, heffects⟩ := revocationEffects_eq lib env out.2.2
    { h with revocation := out.2.1 }
  refine ⟨cce, dag, store, transport, ?_⟩
  have hclosed : (h.processRevocation lib δ env).2 = closeGates
      (out.2.2.foldl (fun h effect => h.revocationEffect lib env effect)
        { h with revocation := out.2.1 }) δ env.now out.1 := by
    simp only [processRevocation]
    change _ = closeGates _ δ env.now
      (h.revocation.processIncomingDelta lib.toIdentityLibraries δ authored env.now).1
    split
    · rename_i happlied
      rw [show (h.revocation.processIncomingDelta lib.toIdentityLibraries δ authored env.now).1 =
        .ok .applied from happlied]
      rfl
    · rename_i hnot
      exact (closeGates_of_ne _ δ env.now hnot).symm
  rw [hclosed, heffects]

theorem retags_tagRoot (h : CoreHandle) (env : TaintEnvironment) (root : DeltaId)
    (source : TaintSource) : h.crdt.dag.Retags (h.tagRoot env root source).crdt.dag :=
  ContaminationEngine.retags_tagContaminationRoot env root source h.cce h.crdt.dag h.store

theorem retags_foldl_tagRoot (env : DeltaId → TaintEnvironment) (ids : List DeltaId)
    (h : CoreHandle) : h.crdt.dag.Retags
      (ids.foldl (fun h id => h.tagRoot (env id) id (.deviceRevocation id)) h).crdt.dag := by
  induction ids generalizing h with
  | nil => exact .refl _
  | cons id ids ih => exact (h.retags_tagRoot (env id) id (.deviceRevocation id)).trans (ih _)

theorem retags_revocationEffects (env : InboundEnvironment) (effects : List RevocationEffect)
    (h : CoreHandle) : h.crdt.dag.Retags
      (effects.foldl (fun h effect => h.revocationEffect lib env effect) h).crdt.dag := by
  induction effects generalizing h with
  | nil => exact .refl _
  | cons effect effects ih =>
    refine ChangesetDag.Retags.trans ?_ (ih _)
    cases effect with
    | revocationApplied targetDid complete => exact .refl _
    | cceTrigger targetDid deltaIds => exact retags_foldl_tagRoot env.taint deltaIds h

theorem retags_processRevocation (h : CoreHandle) (δ : RevocationDelta)
    (env : InboundEnvironment) :
    h.crdt.dag.Retags (h.processRevocation lib δ env).2.crdt.dag := by
  let authored := if env.authoredFault then [] else h.crdt.dag.nodesByAuthor δ.targetDid
  let out := h.revocation.processIncomingDelta lib.toIdentityLibraries δ authored env.now
  have heffects := retags_revocationEffects lib env out.2.2 { h with revocation := out.2.1 }
  unfold processRevocation
  dsimp only
  split <;> exact heffects

theorem retags_revokeMigration (h : CoreHandle) (δ : MigrationRevocationDelta)
    (env : InboundEnvironment) : h.crdt.dag.Retags (h.revokeMigration lib δ env).crdt.dag := by
  simp only [revokeMigration]
  split
  · exact .refl _
  · exact (h.crdt.dag.retags_foldl_appendTag _ _).trans
      (retags_tagRoot { h with crdt := { h.crdt with dag := _ }, migration := _ } _ _ _)

variable {lib}

@[simp] theorem crdt_projectMerged (h : CoreHandle) (δ : Delta) (fault : Option StoreFault) :
    (h.projectMerged lib δ fault).crdt = h.crdt := by
  unfold projectMerged
  split <;> rfl

/-- An inbound Delta reaches the engine through `apply` only. -/
theorem crdt_receiveDelta (h : CoreHandle) (δ : Delta) (env : InboundEnvironment) :
    (h.receiveDelta lib δ env).2.crdt =
      (h.crdt.apply lib.toEngineLibraries .native δ env.now env.applyFault).2 := by
  simp only [receiveDelta]
  split <;> simp [issueDurabilityReceipt]

variable (lib)

/-- A waiting job validates its migration. It stays while another migration runs. -/
def prepareJob (h : CoreHandle) (index : ℕ) : CoreHandle :=
  match h.migrationJobs[index]? with
  | some (.waiting δ senderDid) =>
    let out := h.migration.prepareMigration lib.toMigrationLibraries δ senderDid
    let h := { h with migration := out.2 }
    match out.1 with
    | .ok prepared => { h with migrationJobs := h.migrationJobs.set index (.running prepared) }
    | .error (.migrationInProgress _) => h
    | .error _ => { h with migrationJobs := h.migrationJobs.eraseIdx index }
  | _ => h

/-- `write_row` of a running transform: the row alone is written. -/
def transformWrite (h : CoreHandle) (table key : String) (value : JsonValue)
    (fault : Option StoreFault) : CoreHandle :=
  { h with store := (h.store.write lib.store fault table key value).2 }

/-- A transform ended: commit the schema, unless it was revoked meanwhile, and replay what the
Side-Car Ledger kept for the schema that was left. -/
def finishJob (h : CoreHandle) (index : ℕ) (outcome : Except TirBaseError MigrationResult)
    (env : SchemaMigrationEngine.ReplayEnvironment) : CoreHandle :=
  match h.migrationJobs[index]? with
  | some (.running prepared) =>
    let sourceSchemaHash := h.migration.localSchemaHash
    let out := h.migration.finishMigration prepared.migrationId prepared.targetSchemaHash outcome
    let h := { h with migration := out.2, migrationJobs := h.migrationJobs.eraseIdx index }
    match out.1 with
    | .ok .success =>
      let replayed := h.migration.replayCorruptedWindows lib.toMigrationLibraries env
        (h.crdt.setCurrentSchema h.migration.localSchemaHash) sourceSchemaHash
      { h with migration := replayed.1, crdt := replayed.2 }
    | _ => h
  | _ => h

def sampleJson : JsonText where
  toString
    | .null => "null"
    | .bool b => if b then "true" else "false"
    | .string s => "\"" ++ s ++ "\""
    | .number (.posInt n) => toString n.val
    | _ => ""
  fromStr text :=
    if text = "null" then .ok .null
    else if text = "true" then .ok (.bool true)
    else if text = "false" then .ok (.bool false)
    else
      match text.toList with
      | '"' :: rest => .ok (.string (String.ofList rest.dropLast))
      | _ => .error "expected value at line 1 column 1"

def sampleCoreLibraries (saved : List (Bytes × List Change)) : CoreLibraries :=
  { CrdtEngine.sampleLibraries saved with
    json := sampleJson
    verifyStrict := fun _ _ _ => true
    parseDelta := fun _ => .error "expected value at line 1 column 1"
    reparseSchema := .ok
    messageToBytes := fun _ => []
    messageFromBytes := fun _ => none
    unquotedWrite := fun _ _ _ s => (.error (.localStoreWriteFailed "syntax error"), s)
    unquotedRead := fun _ _ _ => .ok none
    parseJson := fun _ => none }

def sampleConfig : DeploymentConfig := ⟨[], 1, 1, 86400, none, [], [], 0⟩

def sampleIdentity : Identity :=
  ⟨CrdtEngine.sampleKey 1, CrdtEngine.sampleKey 1, CrdtEngine.sampleDid₁⟩

def sampleHandle (storage : Storage) : CoreHandle :=
  ((init (sampleCoreLibraries []) sampleConfig sampleIdentity storage true).toOption).get rfl

def calmWrite (now : ℤ) : WriteEnvironment :=
  ⟨fun _ => false, none, none, ⟨⟨fun l => l, fun l => .refl l⟩, now, none, none⟩,
    ⟨1, 2, now, none, none, fun _ => false⟩⟩

def calmInbound : InboundEnvironment :=
  ⟨9, none, none, 3, .ok false, false, false, fun _ => ⟨1, 2, 9, none, none, fun _ => false⟩⟩

end CoreHandle

end TirBase
