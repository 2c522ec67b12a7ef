import TirBase.WasmCoreHandle

/-! # Writing in the WASM build

The engine keeps no DAG, so a Delta of this device has no parents and is stored nowhere: its
identifier is noted for the revocation of the device, and its row for the contamination engine. -/
namespace TirBase
open CoreHandle

namespace CrdtEngine

/-- `maybe_compact` of the WASM build: the snapshot goes to IndexedDB and the document stays. -/
def snapshotAfterWrite (e : CrdtEngine) (table : String) (backed : Bool) : Bool :=
  backed && shouldCompact (e.compactionPolicyFor table) e.doc.commit.changes.length

end CrdtEngine

namespace SchemaMigrationEngine

/-- The Side-Car capture of the WASM build: the object store holds an entry for each key. -/
def captureCorruptedWindowWrite (lib : MigrationLibraries) (m : SchemaMigrationEngine)
    (table : String) (deltaBytes : Bytes) (recordedTs : ℤ) : SchemaMigrationEngine :=
  match m.activeCorruptionMigration with
  | none => m
  | some migrationId =>
    let id := lib.sha256 (deltaBytes ++ timestampBytes recordedTs)
    if m.sidecarLedger.any fun e => e.migrationId = migrationId && e.id = id then m
    else
      { m with
        sidecarLedger := m.sidecarLedger.filter (fun e => e.id ≠ id) ++
          [⟨id, migrationId, table, deltaBytes, recordedTs, .pending⟩] }

end SchemaMigrationEngine

structure WasmWriteEnvironment where
  poisoned : Mutex → Bool
  revocationPoisoned : Bool
  storeFault : Option TirBaseError
  ledgerFault : Bool
  backed : Bool
  captureFault : Bool
  produce : CrdtEngine.ProduceEnvironment
  taint : TaintEnvironment

namespace WasmCoreHandle
variable (lib : CoreLibraries)

def humanReactionIncident (h : WasmCoreHandle) (table key : String) (env : WasmWriteEnvironment) :
    Option IncidentId :=
  if env.poisoned .cce then none
  else if h.cce.isRowContaminated table key ||
      (!env.poisoned .migration && !env.ledgerFault && h.migration.isSchemaQuarantined) then
    h.cce.activeIncidentForRow table key
  else none

def produceWrite (h : WasmCoreHandle) (table key : String) (data : JsonValue)
    (env : WasmWriteEnvironment) : Except TirBaseError (Delta × Bool) × WasmCoreHandle :=
  let tags := (h.humanReactionIncident table key env).toList.map .contaminatedByHumanReaction
  if env.poisoned .crdt then (.error (poisonError "crdt"), h)
  else
    let written := h.crdt.writeScalar lib.toEngineLibraries table key data
    match written.1 with
    | .error e => (.error e, { h with crdt := written.2 })
    | .ok automergeBytes =>
      let compacted := written.2.snapshotAfterWrite table env.backed
      let produced := written.2.produceDeltaWithTags lib.toEngineLibraries .wasm automergeBytes
        .low [] tags env.produce
      (produced.1.map fun δ => (δ, compacted), { h with crdt := produced.2 })

/-- `record_authored_delta` for this device, and `record_delta_row`. -/
def recordWrite (h : WasmCoreHandle) (deltaId : DeltaId) (table key : String)
    (env : WasmWriteEnvironment) : WasmCoreHandle :=
  let rows := (h.deltaIndex.lookup deltaId).getD []
  { h with
    revocation := if env.revocationPoisoned then h.revocation
      else h.revocation.recordAuthoredDelta h.identity.did deltaId
    deltaIndex := h.deltaIndex.insert deltaId
      (if (table, key) ∈ rows then rows else rows ++ [(table, key)]) }

def tagReaction (h : WasmCoreHandle) (env : TaintEnvironment) (incident : Option IncidentId)
    (root : DeltaId) : WasmCoreHandle :=
  match incident with
  | none => h
  | some id => h.tagRoot env root (.humanReaction id)

def registerWrite (h : WasmCoreHandle) (δ : Delta) (compacted : Bool)
    (env : WasmWriteEnvironment) : Except TirBaseError Unit × WasmCoreHandle :=
  if env.poisoned .durability then (.error (poisonError "durability"), h)
  else
    let out := h.durability.registerDelta δ.id δ.id (lib.serialiseDelta δ) δ.causalParents ∅
    match out.1 with
    | .error e => (.error e, { h with durability := out.2 })
    | .ok () =>
      (.ok (), { h with durability :=
        if compacted then { out.2 with cloudQueue := out.2.cloudQueue.markCompacted δ.id }
        else out.2 })

def captureWrite (h : WasmCoreHandle) (table : String) (δ : Delta) (env : WasmWriteEnvironment) :
    WasmCoreHandle :=
  if env.poisoned .migration || env.captureFault then h
  else
    { h with
      migration := h.migration.captureCorruptedWindowWrite lib.toMigrationLibraries table
        (lib.serialiseDelta δ) δ.createdAt }

/-- `write`, once the Delta is made; nothing is published. -/
def commitWrite (h : WasmCoreHandle) (table : String) (δ : Delta) (compacted : Bool)
    (env : WasmWriteEnvironment) : Except TirBaseError WriteResult × WasmCoreHandle :=
  let registered := h.registerWrite lib δ compacted env
  match registered.1 with
  | .error e => (.error e, registered.2)
  | .ok () =>
    (.ok ⟨δ.id, .uncommitted, h.capability.trustState.unverifiedWarning⟩,
      registered.2.captureWrite lib table δ env)

/-- `write`, after the row is stored. -/
def publishRow (h : WasmCoreHandle) (table key : String) (data : JsonValue)
    (env : WasmWriteEnvironment) : Except TirBaseError WriteResult × WasmCoreHandle :=
  let produced := h.produceWrite lib table key data env
  match produced.1 with
  | .error e => (.error e, produced.2)
  | .ok (δ, compacted) =>
    let recorded := produced.2.recordWrite δ.id table key env
    let tagged := recorded.tagReaction env.taint (h.humanReactionIncident table key env) δ.id
    tagged.commitWrite lib table δ compacted env

/-- `write` of the WASM build. -/
def write (h : WasmCoreHandle) (table key : String) (data : JsonValue)
    (env : WasmWriteEnvironment) : Except TirBaseError WriteResult × WasmCoreHandle :=
  if env.poisoned .capability then (.error (poisonError "capability"), h)
  else
    match h.capability.ensureLocalTrustAllowsIo with
    | .error e => (.error e, h)
    | .ok () =>
      if env.poisoned .store then (.error (poisonError "store"), h)
      else
        match env.storeFault with
        | some e => (.error e, h)
        | none =>
          { h with tables := h.tables.insert (table, key) data }.publishRow lib table key data env

/-- The device when a write comes to its Delta, if it gets so far. -/
def producing (h : WasmCoreHandle) (table key : String) (data : JsonValue)
    (env : WasmWriteEnvironment) : Option WasmCoreHandle :=
  if env.poisoned .capability then none
  else
    match h.capability.ensureLocalTrustAllowsIo with
    | .error _ => none
    | .ok () =>
      if env.poisoned .store || env.storeFault.isSome then none
      else some { h with tables := h.tables.insert (table, key) data }

def writtenDelta (h : WasmCoreHandle) (table key : String) (data : JsonValue)
    (env : WasmWriteEnvironment) : Option Delta :=
  (h.producing table key data env).bind fun h' =>
    (h'.produceWrite lib table key data env).1.toOption.map Prod.fst

end WasmCoreHandle
end TirBase
