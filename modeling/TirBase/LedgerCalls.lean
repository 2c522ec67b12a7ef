import TirBase.LedgerStores
import TirBase.TransitionRuns

/-! # Calls on the ledgers of both builds

The same call is made on the SQLite and on the IndexedDB ledgers. From ledgers with the same entries
both answer alike and hold the same entries again, if the call reaches none of the places where the two
builds are written differently. -/
namespace TirBase.LedgerCalls
open CrossBuildConvergence KeyedStores SchemaMigrationEngine SideCarReplay TransitionRuns

structure EnginePair where
  native : CrdtEngine
  wasm : CrdtEngine
  agrees : EngineAgrees native wasm

inductive LedgerOperation
  | quarantine (senderDid : Did) (rawBytes : Bytes) (schemaHash : Option SchemaIdentifierHash)
      (reason : QuarantineReason) (receivedAt : ℤ)
  | getBySchemaHash (hash : SchemaIdentifierHash)
  | getAll
  | releaseForMigration (schemaHash : SchemaIdentifierHash) (migrationId : MigrationId)
  | record (migrationId : MigrationId) (table : String) (deltaBytes : Bytes) (recordedTs : ℤ)
  | replaySidecar (migrationId : MigrationId) (engines : EnginePair) (env : ReplayEnvironment)
      (wasmNow : ℤ)

/-- A replay may take entries of one time in another order and leave the same. -/
def LedgerOperation.Replays : LedgerOperation → Prop
  | .replaySidecar _ _ _ _ => True
  | _ => False

inductive LedgerAnswer
  | id (answer : Except TirBaseError DeltaId)
  | entries (answer : Except TirBaseError (List QuarantineEntry))
  | summary (answer : Except TirBaseError ReplaySummary)

def SameAnswer : LedgerAnswer → LedgerAnswer → Prop
  | .id a, .id b => a = b
  | .entries (.ok es), .entries (.ok es') => es.Perm es'
  | .entries (.error e), .entries (.error e') => e = e'
  | .summary a, .summary b => a = b
  | _, _ => False

structure Ledgers where
  native : SchemaMigrationEngine
  quarantine : WasmQuarantineLedger
  sidecar : WasmSideCarLedger

variable (lib : MigrationLibraries)

def nativeCall (m : SchemaMigrationEngine) : LedgerOperation → LedgerAnswer × SchemaMigrationEngine
  | .quarantine senderDid rawBytes schemaHash reason receivedAt =>
    (.id (.ok (lib.sha256 rawBytes)),
      m.quarantineIncoming lib senderDid rawBytes schemaHash reason receivedAt)
  | .getBySchemaHash hash => (.entries (.ok (m.getBySchemaHash hash)), m)
  | .getAll => (.entries (.ok m.quarantineLedger), m)
  | .releaseForMigration schemaHash migrationId =>
    let m := m.releaseForMigration schemaHash migrationId
    (.entries (.ok (m.getBySchemaHash schemaHash)), m)
  | .record migrationId table deltaBytes recordedTs =>
    let out := m.recordSidecar lib migrationId table deltaBytes recordedTs
    (.id (.ok out.1), out.2)
  | .replaySidecar migrationId engines env _ =>
    (.summary (.ok (replaySummary lib env m engines.native migrationId)),
      (m.replaySidecar lib env engines.native migrationId).1)

def wasmCall (quarantine : WasmQuarantineLedger) (sidecar : WasmSideCarLedger) :
    LedgerOperation → LedgerAnswer × WasmQuarantineLedger × WasmSideCarLedger
  | .quarantine senderDid rawBytes schemaHash reason receivedAt =>
    let out := quarantine.quarantine lib senderDid rawBytes schemaHash reason receivedAt
    (.id (.ok out.1), out.2, sidecar)
  | .getBySchemaHash hash => (.entries (quarantine.getBySchemaHash hash), quarantine, sidecar)
  | .getAll => (.entries quarantine.scan, quarantine, sidecar)
  | .releaseForMigration schemaHash migrationId =>
    let out := quarantine.releaseForMigration schemaHash migrationId
    (.entries out.1, out.2, sidecar)
  | .record migrationId table deltaBytes recordedTs =>
    let out := sidecar.record lib migrationId table deltaBytes recordedTs
    (.id out.1, quarantine, out.2)
  | .replaySidecar migrationId engines _ wasmNow =>
    let out := sidecar.replaySidecar lib wasmNow engines.wasm migrationId
    (.summary out.1, quarantine, out.2)

def step (s : Ledgers) (op : LedgerOperation) : Ledgers :=
  ⟨(nativeCall lib s.native op).2, (wasmCall lib s.quarantine s.sidecar op).2.1,
    (wasmCall lib s.quarantine s.sidecar op).2.2⟩

structure SameContents (s : Ledgers) : Prop where
  quarantine : s.native.quarantineLedger.Perm s.quarantine.rows
  sidecar : s.native.sidecarLedger.Perm s.sidecar.rows

/-- What was stored is still there, but for the migration that it is released for. -/
def QuarantineKept (before after : List QuarantineEntry) : Prop :=
  ∀ e ∈ before, ∃ e' ∈ after, { e' with migrationId := e.migrationId } = e

/-- What was recorded is still there, but for its replay status. -/
def SideCarKept (before after : List SideCarEntry) : Prop :=
  ∀ e ∈ before, ∃ e' ∈ after, { e' with replayStatus := e.replayStatus } = e

/-- Both builds answer alike, hold the same entries and alter none of them. -/
structure Agrees (s : Ledgers) (op : LedgerOperation) : Prop where
  answers : SameAnswer (nativeCall lib s.native op).1
    (wasmCall lib s.quarantine s.sidecar op).1
  contents : SameContents (step lib s op)
  nativeQuarantine : QuarantineKept s.native.quarantineLedger
    (step lib s op).native.quarantineLedger
  wasmQuarantine : QuarantineKept s.quarantine.rows (step lib s op).quarantine.rows
  nativeSidecar : SideCarKept s.native.sidecarLedger (step lib s op).native.sidecarLedger
  wasmSidecar : SideCarKept s.sidecar.rows (step lib s op).sidecar.rows

def ErrorFree (env : ReplayEnvironment) : CrdtEngine → List SideCarEntry → Prop
  | _, [] => True
  | engine, entry :: entries =>
    match lib.parseDelta entry.deltaBytes with
    | .error _ => ErrorFree env engine entries
    | .ok δ => env.fault entry.id = none ∧
      (engine.apply lib.toEngineLibraries .native δ env.now none).1.isOk ∧
        ErrorFree env (engine.apply lib.toEngineLibraries .native δ env.now none).2 entries

/-- A quarantined text is new or quarantined as it is stored; a ledger that is read has an entry; the
entries of a released schema are marked already; a recorded write is new or recorded under its
migration; entries of one time were recorded in the order of their identifiers, and meet no error of
the engine. -/
def Harmless (s : Ledgers) : LedgerOperation → Prop
  | .quarantine senderDid rawBytes schemaHash reason receivedAt =>
    ∀ e ∈ s.native.quarantineLedger, e.id = lib.sha256 rawBytes →
      e = ⟨lib.sha256 rawBytes, senderDid, rawBytes, schemaHash, reason, receivedAt, none⟩
  | .getBySchemaHash _ => s.native.quarantineLedger ≠ []
  | .getAll => s.native.quarantineLedger ≠ []
  | .releaseForMigration schemaHash migrationId => s.native.quarantineLedger ≠ [] ∧
    ∀ e ∈ s.native.quarantineLedger, e.schemaHash = some schemaHash →
      e.migrationId = some migrationId
  | .record migrationId _ deltaBytes recordedTs => s.native.sidecarLedger ≠ [] ∧
    ∀ e ∈ s.native.sidecarLedger,
      e.id = lib.sha256 (deltaBytes ++ timestampBytes recordedTs) → e.migrationId = migrationId
  | .replaySidecar migrationId engines env _ => s.native.sidecarLedger ≠ [] ∧
    ((recorded s.native migrationId).Pairwise fun a b =>
      a.recordedTs = b.recordedTs → a.key < b.key) ∧
    ErrorFree lib env engines.native (s.native.loadEntriesOrdered migrationId)

variable {lib}

/-- The entries of the list are marked, whatever order the store has. -/
theorem markEntries_spec (migrationId : MigrationId) (entries : List QuarantineEntry)
    {rows : List QuarantineEntry} {q : WasmQuarantineLedger} (h : rows.Perm q.rows)
    (hids : ∀ e ∈ entries, e.id ∈ rows.map QuarantineEntry.id) :
    ∃ q', ObjectStore.updateEach (fun (q : WasmQuarantineLedger) (entry : QuarantineEntry) =>
        q.updateMigrationId entry.id (some migrationId)) q entries =
          (.ok (), q') ∧
      (rows.map fun e => if e.id ∈ entries.map QuarantineEntry.id then
        { e with migrationId := some migrationId } else e).Perm q'.rows := by
  have hkeys : ∀ e ∈ entries, e.id.toNat ∈ rows.map QuarantineEntry.key := by
    intro e he
    obtain ⟨row, hrow, hid⟩ := List.mem_map.mp (hids e he)
    exact List.mem_map.mpr ⟨row, hrow, congrArg BitVec.toNat hid⟩
  obtain ⟨q', heach, hperm⟩ := perm_updateEach
    (fun (q : WasmQuarantineLedger) (entry : QuarantineEntry) =>
      q.updateMigrationId entry.id (some migrationId))
    (f := fun e => { e with migrationId := some migrationId }) (fun _ => rfl) (fun _ => rfl)
    (fun q entry q' hupdate => by
      simp only [WasmQuarantineLedger.updateMigrationId, hupdate]) entries h hkeys
  refine ⟨q', heach, ?_⟩
  have hmem : ∀ e : QuarantineEntry, e.key ∈ entries.map (fun e => e.id.toNat) ↔
      e.id ∈ entries.map QuarantineEntry.id := by
    intro e
    simp only [List.mem_map, QuarantineEntry.key, BitVec.toNat_inj]
  simpa only [hmem] using hperm

theorem quarantineKept_of_subset {before after : List QuarantineEntry} (h : before ⊆ after) :
    QuarantineKept before after := fun e he => ⟨e, h he, rfl⟩

theorem sideCarKept_of_subset {before after : List SideCarEntry} (h : before ⊆ after) :
    SideCarKept before after := fun e he => ⟨e, h he, rfl⟩

theorem QuarantineKept.of_perm {before before' after after' : List QuarantineEntry}
    (h : QuarantineKept before after) (hbefore : before.Perm before') (hafter : after.Perm after') :
    QuarantineKept before' after' := by
  intro e he
  obtain ⟨e', he', hsame⟩ := h e (hbefore.mem_iff.mpr he)
  exact ⟨e', hafter.mem_iff.mp he', hsame⟩

theorem SideCarKept.of_perm {before before' after after' : List SideCarEntry}
    (h : SideCarKept before after) (hbefore : before.Perm before') (hafter : after.Perm after') :
    SideCarKept before' after' := by
  intro e he
  obtain ⟨e', he', hsame⟩ := h e (hbefore.mem_iff.mpr he)
  exact ⟨e', hafter.mem_iff.mp he', hsame⟩

variable {s : Ledgers}

/-- The object stores alter nothing that the tables keep. -/
theorem agrees_of_kept {op : LedgerOperation} (hs : SameContents s)
    (hanswers : SameAnswer (nativeCall lib s.native op).1
      (wasmCall lib s.quarantine s.sidecar op).1)
    (hcontents : SameContents (step lib s op))
    (hquarantine : QuarantineKept s.native.quarantineLedger
      (step lib s op).native.quarantineLedger)
    (hsidecar : SideCarKept s.native.sidecarLedger (step lib s op).native.sidecarLedger) :
    Agrees lib s op where
  answers := hanswers
  contents := hcontents
  nativeQuarantine := hquarantine
  wasmQuarantine := hquarantine.of_perm hs.quarantine hcontents.quarantine
  nativeSidecar := hsidecar
  wasmSidecar := hsidecar.of_perm hs.sidecar hcontents.sidecar

theorem quarantineLedger_quarantineIncoming (lib : MigrationLibraries)
    (m : SchemaMigrationEngine) (senderDid : Did) (rawBytes : Bytes)
    (schemaHash : Option SchemaIdentifierHash) (reason : QuarantineReason)
    (receivedAt : ℤ) :
    (m.quarantineIncoming lib senderDid rawBytes schemaHash reason receivedAt).quarantineLedger =
      insertOrIgnore QuarantineEntry.key m.quarantineLedger
        ⟨lib.sha256 rawBytes, senderDid, rawBytes, schemaHash, reason, receivedAt, none⟩ := by
  unfold quarantineIncoming insertOrIgnore
  dsimp only
  simp only [List.mem_map, QuarantineEntry.key_inj]
  split_ifs <;> rfl

theorem sidecarLedger_quarantineIncoming (lib : MigrationLibraries)
    (m : SchemaMigrationEngine) (senderDid : Did) (rawBytes : Bytes)
    (schemaHash : Option SchemaIdentifierHash) (reason : QuarantineReason)
    (receivedAt : ℤ) :
    (m.quarantineIncoming lib senderDid rawBytes schemaHash reason receivedAt).sidecarLedger =
      m.sidecarLedger := by
  unfold quarantineIncoming
  dsimp only
  split_ifs <;> rfl

theorem agrees_quarantine (hs : SameContents s) {senderDid : Did} {rawBytes : Bytes}
    {schemaHash : Option SchemaIdentifierHash} {reason : QuarantineReason} {receivedAt : ℤ}
    (h : Harmless lib s (.quarantine senderDid rawBytes schemaHash reason receivedAt)) :
    Agrees lib s (.quarantine senderDid rawBytes schemaHash reason receivedAt) := by
  have hledger := quarantineLedger_quarantineIncoming lib s.native senderDid rawBytes
    schemaHash reason receivedAt
  have hsidecar := sidecarLedger_quarantineIncoming lib s.native senderDid rawBytes
    schemaHash reason receivedAt
  refine agrees_of_kept hs rfl ⟨?_, ?_⟩ ?_ ?_
  · simp only [step, nativeCall, wasmCall, hledger]
    exact perm_put hs.quarantine _ fun e he hkey => h e he (QuarantineEntry.key_inj.mp hkey)
  · simp only [step, nativeCall, wasmCall, hsidecar]
    exact hs.sidecar
  · simp only [step, nativeCall, hledger]
    refine quarantineKept_of_subset fun e he => ?_
    unfold insertOrIgnore
    split_ifs
    · exact he
    · exact List.mem_append_left _ he
  · simp only [step, nativeCall, hsidecar]
    exact sideCarKept_of_subset fun e he => he

theorem scan_eq (hs : SameContents s) (h : s.native.quarantineLedger ≠ []) :
    s.quarantine.scan = .ok s.quarantine.rows := by
  rw [WasmQuarantineLedger.scan, if_neg]
  intro hempty
  have hperm := hs.quarantine
  rw [hempty] at hperm
  exact h hperm.eq_nil

theorem agrees_getBySchemaHash (hs : SameContents s) {hash : SchemaIdentifierHash}
    (h : Harmless lib s (.getBySchemaHash hash)) : Agrees lib s (.getBySchemaHash hash) := by
  refine agrees_of_kept hs ?_ ⟨hs.quarantine, hs.sidecar⟩
    (quarantineKept_of_subset (List.Subset.refl _)) (sideCarKept_of_subset (List.Subset.refl _))
  simp only [nativeCall, wasmCall, WasmQuarantineLedger.getBySchemaHash, scan_eq hs h]
  exact hs.quarantine.filter _

theorem agrees_getAll (hs : SameContents s) (h : Harmless lib s .getAll) :
    Agrees lib s .getAll := by
  refine agrees_of_kept hs ?_ ⟨hs.quarantine, hs.sidecar⟩
    (quarantineKept_of_subset (List.Subset.refl _)) (sideCarKept_of_subset (List.Subset.refl _))
  simp only [nativeCall, wasmCall, scan_eq hs h]
  exact hs.quarantine

theorem releaseForMigration_spec (hs : SameContents s) (h : s.native.quarantineLedger ≠ [])
    (schemaHash : SchemaIdentifierHash) (migrationId : MigrationId) :
    ∃ q', s.quarantine.releaseForMigration schemaHash migrationId =
        (.ok (s.quarantine.rows.filter fun e => e.schemaHash = some schemaHash), q') ∧
      (s.native.releaseForMigration schemaHash migrationId).quarantineLedger.Perm q'.rows := by
  have hids : ∀ e ∈ s.quarantine.rows.filter (fun e => e.schemaHash = some schemaHash),
      e.id ∈ s.native.quarantineLedger.map QuarantineEntry.id := by
    intro e he
    exact List.mem_map.mpr ⟨e, hs.quarantine.mem_iff.mpr (List.mem_filter.mp he).1, rfl⟩
  obtain ⟨q', hmark, hperm⟩ := markEntries_spec migrationId _ hs.quarantine hids
  refine ⟨q', ?_, ?_⟩
  · simp only [WasmQuarantineLedger.releaseForMigration, WasmQuarantineLedger.getBySchemaHash,
      scan_eq hs h, Except.map, hmark]
  · refine (List.Perm.of_eq (List.map_congr_left fun e he => ?_)).trans hperm
    have hlisted : e.id ∈ (s.quarantine.rows.filter fun e =>
        e.schemaHash = some schemaHash).map QuarantineEntry.id ↔ e.schemaHash = some schemaHash := by
      constructor
      · intro hmem
        obtain ⟨e', he', hid⟩ := List.mem_map.mp hmem
        obtain ⟨hrow, hschema⟩ := List.mem_filter.mp he'
        have hsame := eq_of_key_of_perm hs.quarantine (hs.quarantine.mem_iff.mpr hrow) he
          (QuarantineEntry.key_inj.mpr hid)
        rw [← hsame]
        exact of_decide_eq_true hschema
      · intro hschema
        exact List.mem_map.mpr ⟨e, List.mem_filter.mpr
          ⟨hs.quarantine.mem_iff.mp he, decide_eq_true hschema⟩, rfl⟩
    simp only [hlisted]

theorem agrees_releaseForMigration (hs : SameContents s) {schemaHash : SchemaIdentifierHash}
    {migrationId : MigrationId}
    (h : Harmless lib s (.releaseForMigration schemaHash migrationId)) :
    Agrees lib s (.releaseForMigration schemaHash migrationId) := by
  obtain ⟨hsome, hmarked⟩ := h
  obtain ⟨q', hrelease, hperm⟩ := releaseForMigration_spec hs hsome schemaHash migrationId
  have hsame : (s.native.releaseForMigration schemaHash migrationId).quarantineLedger =
      s.native.quarantineLedger := by
    refine (List.map_congr_left fun e he => ?_).trans (List.map_id _)
    split_ifs with hschema
    · rw [← hmarked e he hschema]
      rfl
    · rfl
  refine agrees_of_kept hs ?_ ⟨?_, hs.sidecar⟩ ?_ (sideCarKept_of_subset (List.Subset.refl _))
  · simp only [nativeCall, wasmCall, hrelease, SchemaMigrationEngine.getBySchemaHash, hsame]
    exact hs.quarantine.filter _
  · simp only [step, nativeCall, wasmCall, hrelease]
    exact hperm
  · simp only [step, nativeCall, hsame]
    exact quarantineKept_of_subset (List.Subset.refl _)

theorem sidecarLedger_recordSidecar (lib : MigrationLibraries) (m : SchemaMigrationEngine)
    (migrationId : MigrationId) (table : String) (deltaBytes : Bytes) (recordedTs : ℤ) :
    (m.recordSidecar lib migrationId table deltaBytes recordedTs).2.sidecarLedger =
        insertOrIgnore SideCarEntry.key m.sidecarLedger
          ⟨lib.sha256 (deltaBytes ++ timestampBytes recordedTs), migrationId, table, deltaBytes,
            recordedTs, .pending⟩ ∧
      (m.recordSidecar lib migrationId table deltaBytes recordedTs).2.quarantineLedger =
        m.quarantineLedger := by
  unfold recordSidecar insertOrIgnore
  dsimp only
  simp only [List.mem_map, SideCarEntry.key_inj]
  split_ifs <;> exact ⟨rfl, rfl⟩

theorem loadEntriesOrdered_eq (hs : SameContents s) (h : s.native.sidecarLedger ≠ [])
    (migrationId : MigrationId) :
    s.sidecar.loadEntriesOrdered migrationId =
      .ok ((s.sidecar.rows.filter fun e => e.migrationId = migrationId).insertionSort
        fun a b => a.recordedTs ≤ b.recordedTs) := by
  rw [WasmSideCarLedger.loadEntriesOrdered, if_neg]
  intro hempty
  have hperm := hs.sidecar
  rw [hempty] at hperm
  exact h hperm.eq_nil

theorem agrees_record (hs : SameContents s) {migrationId : MigrationId} {table : String}
    {deltaBytes : Bytes} {recordedTs : ℤ}
    (h : Harmless lib s (.record migrationId table deltaBytes recordedTs)) :
    Agrees lib s (.record migrationId table deltaBytes recordedTs) := by
  obtain ⟨hsome, hscope⟩ := h
  obtain ⟨hledger, hquarantine⟩ := sidecarLedger_recordSidecar lib s.native migrationId table
    deltaBytes recordedTs
  have hload := loadEntriesOrdered_eq hs hsome migrationId
  have hlisted : ∀ e ∈ s.native.sidecarLedger,
      e.id = lib.sha256 (deltaBytes ++ timestampBytes recordedTs) →
      lib.sha256 (deltaBytes ++ timestampBytes recordedTs) ∈
        ((s.sidecar.rows.filter fun e => e.migrationId = migrationId).insertionSort
          fun a b => a.recordedTs ≤ b.recordedTs).map SideCarEntry.id := by
    intro e he hid
    refine List.mem_map.mpr ⟨e, (List.mem_insertionSort _).mpr (List.mem_filter.mpr
      ⟨hs.sidecar.mem_iff.mp he, decide_eq_true (hscope e he hid)⟩), hid⟩
  have hkept : SideCarKept s.native.sidecarLedger
      (step lib s (.record migrationId table deltaBytes recordedTs)).native.sidecarLedger := by
    simp only [step, nativeCall, hledger]
    refine sideCarKept_of_subset fun e he => ?_
    unfold insertOrIgnore
    split_ifs
    · exact he
    · exact List.mem_append_left _ he
  refine agrees_of_kept hs ?_ ⟨?_, ?_⟩ ?_ hkept
  · simp only [nativeCall, wasmCall, WasmSideCarLedger.record, hload]
    split_ifs <;> rfl
  · simp only [step, nativeCall, wasmCall, hquarantine]
    exact hs.quarantine
  · simp only [step, nativeCall, wasmCall, WasmSideCarLedger.record, hload, hledger]
    by_cases hstored : ∃ e ∈ s.native.sidecarLedger,
        e.id = lib.sha256 (deltaBytes ++ timestampBytes recordedTs)
    · obtain ⟨e, he, hid⟩ := hstored
      rw [if_pos (hlisted e he hid), insertOrIgnore,
        if_pos (List.mem_map.mpr ⟨e, he, SideCarEntry.key_inj.mpr hid⟩)]
      exact hs.sidecar
    · rw [if_neg]
      · refine perm_put hs.sidecar _ fun e he hkey => ?_
        exact absurd ⟨e, he, SideCarEntry.key_inj.mp hkey⟩ hstored
      · intro hmem
        obtain ⟨e, he, hid⟩ := List.mem_map.mp hmem
        have hrow := (List.mem_filter.mp ((List.mem_insertionSort _).mp he)).1
        exact hstored ⟨e, hs.sidecar.mem_iff.mpr hrow, hid⟩
  · simp only [step, nativeCall, hquarantine]
    exact quarantineKept_of_subset (List.Subset.refl _)

end TirBase.LedgerCalls
