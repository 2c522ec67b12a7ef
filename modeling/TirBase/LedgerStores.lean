import TirBase.CrossBuildConvergence
import TirBase.KeyedStores
import TirBase.QuarantineRelease
import TirBase.SideCarReplay

/-! # The two ledgers on each build

The native ledgers are SQLite tables, part of the migration engine. On the WASM build each ledger is an
object store of IndexedDB whose keys are the hexadecimal texts of the identifiers. -/
namespace TirBase
open KeyedStores SideCarReplay

namespace SchemaMigrationEngine
variable (lib : MigrationLibraries)

def getBySchemaHash (m : SchemaMigrationEngine) (hash : SchemaIdentifierHash) :
    List QuarantineEntry :=
  m.quarantineLedger.filter fun e => e.schemaHash = some hash

/-- `SideCarLedger::record`. -/
def recordSidecar (m : SchemaMigrationEngine) (migrationId : MigrationId) (table : String)
    (deltaBytes : Bytes) (recordedTs : ℤ) : DeltaId × SchemaMigrationEngine :=
  let id := lib.sha256 (deltaBytes ++ timestampBytes recordedTs)
  (id,
    if id ∈ m.sidecarLedger.map SideCarEntry.id then m
    else
      { m with
        sidecarLedger := m.sidecarLedger ++
          [⟨id, migrationId, table, deltaBytes, recordedTs, .pending⟩] })

/-- A write of the corruption window is recorded under the migration that opened it. -/
theorem recordCorruptedWindowWrite_eq (m : SchemaMigrationEngine) (table : String)
    (deltaBytes : Bytes) (recordedTs : ℤ) :
    m.recordCorruptedWindowWrite lib table deltaBytes recordedTs =
      match m.activeCorruptionMigration with
      | none => (none, m)
      | some migrationId =>
        let out := m.recordSidecar lib migrationId table deltaBytes recordedTs
        (some out.1, out.2) := by
  unfold recordCorruptedWindowWrite recordSidecar
  cases m.activeCorruptionMigration <;> rfl

end SchemaMigrationEngine

/-- Texts of 64 hexadecimal digits are ordered as the numbers are. -/
def QuarantineEntry.key (e : QuarantineEntry) : ℕ := e.id.toNat

def SideCarEntry.key (e : SideCarEntry) : ℕ := e.id.toNat

theorem QuarantineEntry.key_inj {a b : QuarantineEntry} : a.key = b.key ↔ a.id = b.id :=
  BitVec.toNat_inj

theorem SideCarEntry.key_inj {a b : SideCarEntry} : a.key = b.key ↔ a.id = b.id :=
  BitVec.toNat_inj

abbrev WasmQuarantineLedger := ObjectStore QuarantineEntry.key

abbrev WasmSideCarLedger := ObjectStore SideCarEntry.key

namespace WasmQuarantineLedger
variable (lib : MigrationLibraries)

/-- `scan_quarantine_entries`: an empty store opens no cursor. -/
def scan (s : WasmQuarantineLedger) : Except TirBaseError (List QuarantineEntry) :=
  if s.rows = [] then .error (.localStoreWriteFailed "quarantine cursor is null")
  else .ok s.rows

def quarantine (s : WasmQuarantineLedger) (senderDid : Did) (rawBytes : Bytes)
    (schemaHash : Option SchemaIdentifierHash) (reason : QuarantineReason) (receivedAt : ℤ) :
    DeltaId × WasmQuarantineLedger :=
  let id := lib.sha256 rawBytes
  (id, s.put ⟨id, senderDid, rawBytes, schemaHash, reason, receivedAt, none⟩)

def getBySchemaHash (s : WasmQuarantineLedger) (hash : SchemaIdentifierHash) :
    Except TirBaseError (List QuarantineEntry) :=
  s.scan.map fun all => all.filter fun e => e.schemaHash = some hash

def updateMigrationId (s : WasmQuarantineLedger) (entryId : DeltaId)
    (migrationId : Option MigrationId) : Except TirBaseError WasmQuarantineLedger :=
  match s.update? entryId.toNat fun entry => { entry with migrationId := migrationId } with
  | none =>
    let key := entryId.toHex
    .error (.localStoreWriteFailed s!"quarantine entry {key} not found for update")
  | some s => .ok s

/-- `release_for_migration`: the entries are returned as they were read. -/
def releaseForMigration (s : WasmQuarantineLedger) (schemaHash : SchemaIdentifierHash)
    (migrationId : MigrationId) :
    Except TirBaseError (List QuarantineEntry) × WasmQuarantineLedger :=
  match getBySchemaHash s schemaHash with
  | .error e => (.error e, s)
  | .ok matching =>
    let out := ObjectStore.updateEach
      (fun s (entry : QuarantineEntry) => updateMigrationId s entry.id (some migrationId)) s matching
    (out.1.map fun _ => matching, out.2)

end WasmQuarantineLedger

namespace WasmSideCarLedger
variable (lib : MigrationLibraries)

/-- `scan_sidecar_entries_for_migration`. -/
def loadEntriesOrdered (s : WasmSideCarLedger) (migrationId : MigrationId) :
    Except TirBaseError (List SideCarEntry) :=
  if s.rows = [] then .error (.localStoreWriteFailed "sidecar cursor is null")
  else .ok ((s.rows.filter fun e => e.migrationId = migrationId).insertionSort
    fun a b => a.recordedTs ≤ b.recordedTs)

/-- `record`: the entries of this migration are searched for the identifier. -/
def record (s : WasmSideCarLedger) (migrationId : MigrationId) (table : String)
    (deltaBytes : Bytes) (recordedTs : ℤ) : Except TirBaseError DeltaId × WasmSideCarLedger :=
  let id := lib.sha256 (deltaBytes ++ SchemaMigrationEngine.timestampBytes recordedTs)
  match s.loadEntriesOrdered migrationId with
  | .error e => (.error e, s)
  | .ok all =>
    if id ∈ all.map SideCarEntry.id then (.ok id, s)
    else (.ok id, s.put ⟨id, migrationId, table, deltaBytes, recordedTs, .pending⟩)

def updateEntryStatus (s : WasmSideCarLedger) (entryId : DeltaId) (status : ReplayStatus) :
    Except TirBaseError WasmSideCarLedger :=
  match s.update? entryId.toNat fun entry => { entry with replayStatus := status } with
  | none =>
    let key := entryId.toHex
    .error (.localStoreWriteFailed s!"sidecar entry {key} not found for update")
  | some s => .ok s

/-- Apply the Delta of an entry; anything but a merge is noted as a conflict. -/
def replayEntry (now : ℤ) (engine : CrdtEngine) (entry : SideCarEntry) :
    ReplayStatus × Option DeltaId × CrdtEngine :=
  match lib.parseDelta entry.deltaBytes with
  | .error e => (.conflict s!"deserialise error: {e}", none, engine)
  | .ok δ =>
    match engine.apply lib.toEngineLibraries .wasm δ now none with
    | (.ok (.merged _), engine) => (.replayed, some δ.id, engine)
    | (.ok (.quarantined reason), engine) =>
      let shown := SchemaMigrationEngine.debugReason reason
      (.conflict s!"quarantined during replay: {shown}", none, engine)
    | (.ok (.rejected reason), engine) =>
      (.conflict s!"rejected during replay: {reason}", none, engine)
    | (.error err, engine) =>
      let shown := err.message
      (.conflict s!"engine error: {shown}", none, engine)

def replayEntries (now : ℤ) : WasmSideCarLedger → CrdtEngine → List SideCarEntry →
    Except TirBaseError (List DeltaId) × WasmSideCarLedger
  | s, _, [] => (.ok [], s)
  | s, engine, entry :: entries =>
    let out := replayEntry lib now engine entry
    match updateEntryStatus s entry.id out.1 with
    | .error e => (.error e, s)
    | .ok s =>
      let rest := replayEntries now s out.2.2 entries
      (rest.1.map fun merged => out.2.1.toList ++ merged, rest.2)

/-- `replay_sidecar`, without the tags of the merged Deltas. -/
def replaySidecar (now : ℤ) (s : WasmSideCarLedger) (engine : CrdtEngine)
    (migrationId : MigrationId) : Except TirBaseError ReplaySummary × WasmSideCarLedger :=
  match s.loadEntriesOrdered migrationId with
  | .error e => (.error e, s)
  | .ok entries =>
    let out := replayEntries lib now s engine entries
    match out.1 with
    | .error e => (.error e, out.2)
    | .ok merged =>
      let conflicts := entries.length - merged.length
      let complete := decide (conflicts = 0 ∧ 0 < entries.length)
      let summary : ReplaySummary := ⟨entries.length, merged.length, conflicts, complete⟩
      if complete then
        let marked := ObjectStore.updateEach
          (fun s (entry : SideCarEntry) => updateEntryStatus s entry.id .complete) out.2 entries
        (marked.1.map fun _ => summary, marked.2)
      else (.ok summary, out.2)

end WasmSideCarLedger

end TirBase
