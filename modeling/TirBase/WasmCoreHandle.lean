import TirBase.CoreHandle

/-! # The device of the WASM build

`CoreHandle` without SQLite: rows, tags and the rows of each Delta are in memory, the quarantine
ledger is an object store of IndexedDB, and the engine keeps no DAG. The arms of
`receive_inbound_wasm` for Deltas, revocations and receipts are written apart from the native
ones. -/
namespace TirBase
open Automerge Capability ScalarProjection

/-- The revocation subsystem of the WASM build, with the Deltas known by author. -/
structure WasmRevocationSubsystem extends RevocationSubsystem where
  authoredDeltas : AList fun _ : Did => List DeltaId
  deriving DecidableEq

namespace WasmRevocationSubsystem

/-- `record_authored_delta`. -/
def recordAuthoredDelta (r : WasmRevocationSubsystem) (authorDid : Did) (deltaId : DeltaId) :
    WasmRevocationSubsystem :=
  let ids := (r.authoredDeltas.lookup authorDid).getD []
  { r with authoredDeltas :=
      r.authoredDeltas.insert authorDid (if deltaId ∈ ids then ids else ids ++ [deltaId]) }

/-- `authored_delta_ids`. -/
def authoredDeltaIds (r : WasmRevocationSubsystem) (did : Did) : List DeltaId :=
  (r.authoredDeltas.lookup did).getD []

end WasmRevocationSubsystem

/-- `put` of the object store: an entry with the same key is replaced. -/
def putQuarantineEntry (ledger : List QuarantineEntry) (entry : QuarantineEntry) :
    List QuarantineEntry :=
  ledger.filter (fun e => e.id ≠ entry.id) ++ [entry]

structure WasmCoreHandle where
  identity : Identity
  tables : AList fun _ : String × String => JsonValue
  deltaIndex : AList fun _ : DeltaId => List (String × String)
  tagStore : List (DeltaId × DeltaTag)
  crdt : CrdtEngine
  cce : ContaminationEngine
  cceDag : ChangesetDag
  capability : CapabilityManager
  revocation : WasmRevocationSubsystem
  migration : SchemaMigrationEngine
  durability : DurabilitySubsystem

structure WasmEnvironment where
  now : ℤ
  quorumVerdict : Except TirBaseError Bool
  taint : DeltaId → TaintEnvironment

namespace WasmCoreHandle
variable (lib : CoreLibraries)

/-- `LocalStore::write` with the row noted for its Delta. -/
def project (h : WasmCoreHandle) (deltaId : DeltaId) (table key : String) (value : JsonValue) :
    WasmCoreHandle :=
  let rows := (h.deltaIndex.lookup deltaId).getD []
  { h with
    tables := h.tables.insert (table, key) value
    deltaIndex := h.deltaIndex.insert deltaId
      (if (table, key) ∈ rows then rows else rows ++ [(table, key)]) }

/-- The members of an envelope in key order: `_data` ends the walk and is the whole value. -/
def envelopeValue (appData : List (String × JsonValue)) :
    List (String × JsonValue) → Option JsonValue
  | [] => if appData = [] then none else some (.object appData)
  | (key, value) :: members =>
    if key = "_data" then some value
    else if key ≠ "_tirbase_table" ∧ key ≠ "_tirbase_key" then
      envelopeValue (appData ++ [(key, value)]) members
    else envelopeValue appData members

/-- The row that the projection of a merged Delta writes. -/
def projection (doc : Document) (automergeBytes : Bytes) : Option (String × String × JsonValue) :=
  if automergeBytes = [] then none
  else
    match lib.parseJson automergeBytes with
    | some (.object members) =>
      match ((JsonValue.object members).get? "_tirbase_table").bind JsonValue.asStr?,
        ((JsonValue.object members).get? "_tirbase_key").bind JsonValue.asStr? with
      | some table, some key => (envelopeValue [] members).map fun value => (table, key, value)
      | _, _ => none
    | some _ => none
    | none =>
      match (readScalar doc "_tirbase_table").bind JsonValue.asStr?,
        (readScalar doc "_tirbase_key").bind JsonValue.asStr? with
      | some table, some key =>
        match readScalar doc key with
        | some (.string s) =>
          match lib.json.fromStr s with
          | .ok value => some (table, key, value)
          | .error _ => some (table, key, .string s)
        | some value => some (table, key, value)
        | none => none
      | _, _ => none

def projectMerged (h : WasmCoreHandle) (δ : Delta) : WasmCoreHandle :=
  match projection lib h.crdt.doc δ.automergeBytes with
  | some (table, key, value) => h.project δ.id table key value
  | none => h

def quarantineIncoming (h : WasmCoreHandle) (δ : Delta) (reason : QuarantineReason) (now : ℤ) :
    WasmCoreHandle :=
  let rawBytes := lib.serialiseDelta δ
  let entry : QuarantineEntry :=
    ⟨lib.sha256 rawBytes, δ.authorDid, rawBytes, some δ.schemaHash, reason, now, none⟩
  { h with migration := { h.migration with
      quarantineLedger := putQuarantineEntry h.migration.quarantineLedger entry } }

/-- Whatever the outcome, the Delta is registered for durability; a full queue is ignored. -/
def receiveDelta (h : WasmCoreHandle) (δ : Delta) (env : WasmEnvironment) :
    Except TirBaseError Unit × WasmCoreHandle :=
  let applied := h.crdt.apply lib.toEngineLibraries .wasm δ env.now none
  let h := { h with crdt := applied.2 }
  match applied.1 with
  | .error e => (.error e, h)
  | .ok outcome =>
    let h := match outcome with
      | .merged _ =>
        { h with revocation := h.revocation.recordAuthoredDelta δ.authorDid δ.id }.projectMerged
          lib δ
      | .quarantined reason => h.quarantineIncoming lib δ reason env.now
      | .rejected _ => h
    (.ok (), { h with
      durability := (h.durability.registerDelta δ.id δ.id (lib.serialiseDelta δ) δ.causalParents
        ∅).2 })

/-- The receipt arm is the native one. -/
def receiveReceipt (h : WasmCoreHandle) (receipt : DurabilityReceipt) (env : WasmEnvironment) :
    WasmCoreHandle :=
  match lib.resolveDid receipt.issuerDid with
  | .error _ => h
  | .ok issuerKey =>
    let d := h.durability.registerPeerKey receipt.stateHash receipt.issuerDid issuerKey
    let out := d.receiveReceipt lib.toIdentityLibraries receipt receipt.stateHash env.quorumVerdict
    { h with durability := out.2 }

/-- The rows noted for the Deltas; the first Delta counts for a row. -/
def affectedRows (h : WasmCoreHandle) (deltaIds : List DeltaId) : List AffectedRow :=
  deltaIds.foldl (fun seen deltaId =>
    ((h.deltaIndex.lookup deltaId).getD []).foldl (fun seen (row : String × String) =>
      if seen.any fun r : AffectedRow => r.table == row.1 && r.rowKey == row.2 then seen
      else seen ++ [⟨row.1, row.2, deltaId⟩]) seen) []

/-- `tag_contamination_root` of the WASM build. -/
def tagRoot (h : WasmCoreHandle) (env : TaintEnvironment) (root : DeltaId) (source : TaintSource) :
    WasmCoreHandle :=
  let descendants := h.cceDag.bfsDescendants root
  let ico : IncidentContextObject := ⟨env.icoId, .open_, source, [root], descendants.toFinset,
    h.affectedRows descendants, none, env.now, env.now, []⟩
  { h with
    tagStore := h.tagStore ++ descendants.map fun id => (id, .contaminated root env.icoId)
    cce := (h.cce.register ico env.compositeId env.now).2 }

/-- Nothing is gossiped; the authored Deltas are tagged. -/
def revocationEffect (env : WasmEnvironment) (h : WasmCoreHandle) :
    RevocationEffect → WasmCoreHandle
  | .revocationApplied _ _ => h
  | .cceTrigger _ deltaIds =>
    deltaIds.foldl (fun h id => h.tagRoot (env.taint id) id (.deviceRevocation id)) h

def processRevocation (h : WasmCoreHandle) (δ : RevocationDelta) (env : WasmEnvironment) :
    Except TirBaseError RevocationStatus × WasmCoreHandle :=
  let authored := h.revocation.authoredDeltaIds δ.targetDid
  let out := h.revocation.toRevocationSubsystem.processIncomingDelta lib.toIdentityLibraries δ
    authored env.now
  let h := out.2.2.foldl (revocationEffect env)
    { h with revocation := { h.revocation with toRevocationSubsystem := out.2.1 } }
  match out.1 with
  | .ok .applied =>
    (out.1, { h with
      crdt := h.crdt.markDidRevoked δ.targetDid
      capability := if δ.targetDid = h.identity.did then h.capability.applyRevocation env.now
                    else h.capability })
  | _ => (out.1, h)

def ofNative (h : CoreHandle) : WasmCoreHandle where
  identity := h.identity
  tables := ∅
  deltaIndex := ∅
  tagStore := []
  crdt := h.crdt
  cce := h.cce
  cceDag := .empty
  capability := h.capability
  revocation := ⟨h.revocation, ∅⟩
  migration := h.migration
  durability := h.durability

end WasmCoreHandle

end TirBase
