import TirBase.CloudLedger
import TirBase.MigrationJobs
import TirBase.WrittenDeltas

/-! # The schemas of a device and its Cloud Ledger

The ledger of a process is started on the hash of the first schema definition and knows no other
schema. The device starts on the first version of the path and follows every migration. -/
namespace TirBase
open Automerge CoreHandle DeviceRuns DocumentHistories MergeConvergence MigrationJobs
  TransitionRuns WrittenDeltas

/-- The Cloud Ledger that `init` starts. -/
def CoreHandle.initCloudLedger (lib : CoreLibraries) (config : DeploymentConfig)
    (identity : Identity) : CloudLedger :=
  .newInMemory identity.secretKey identity.publicKey identity.did (initialSchemaHash lib config)

namespace LedgerSchemas

inductive MigrationSection
  | arrive (δ : MigrationDelta) (env : InboundEnvironment)
  | prepare (index : ℕ)
  | transformWrite (table key : String) (value : JsonValue) (fault : Option StoreFault)
  | finish (index : ℕ) (outcome : Except TirBaseError MigrationResult)
  | read (index : ℕ)
  | copy (index : ℕ) (env : SchemaMigrationEngine.ReplayEnvironment)

def MigrationSection.operation : MigrationSection → JobOperation
  | .arrive δ env => .message (.inboundMigrationDelta δ) env
  | .prepare index => .prepare index
  | .transformWrite table key value fault => .transformWrite table key value fault
  | .finish index outcome => .finish index outcome
  | .read index => .read index
  | .copy index env => .copy index env

/-- A Delta that was written, with the schema on which the CRDT engine was before the write. -/
structure WrittenUnder where
  delta : Delta
  current : SchemaIdentifierHash
  deriving DecidableEq

structure LedgerDevice where
  device : JobDevice
  ledger : CloudLedger
  written : List WrittenUnder

inductive LedgerOperation
  | write (table key : String) (data : JsonValue) (env : WriteEnvironment)
  | migrate (work : MigrationSection)
  | receive (index : ℕ) (now : ℤ)

namespace LedgerDevice
variable (lib : CoreLibraries)

def start (config : DeploymentConfig) (identity : Identity) (h : CoreHandle) : LedgerDevice :=
  ⟨.start h, initCloudLedger lib config identity, []⟩

def write (s : LedgerDevice) (table key : String) (data : JsonValue) (env : WriteEnvironment) :
    LedgerDevice :=
  { s with
    device := { s.device with handle := (s.device.handle.write lib table key data env).2 }
    written := s.written ++ (writtenDelta lib s.device.handle table key data env).toList.map
      fun δ => ⟨δ, s.device.handle.crdt.knownSchemaHash⟩ }

/-- The ledger's database is in memory: no statement on it fails. -/
def receive (s : LedgerDevice) (index : ℕ) (now : ℤ) : LedgerDevice :=
  match s.written[index]? with
  | some w =>
    { s with ledger := (s.ledger.receiveDelta lib.toEngineLibraries w.delta now none).2 }
  | none => s

def step (s : LedgerDevice) : LedgerOperation → LedgerDevice
  | .write table key data env => s.write lib table key data env
  | .migrate work => { s with device := s.device.step lib work.operation }
  | .receive index now => s.receive lib index now

end LedgerDevice

/-- The ledger merges the Delta, now or before, and then its DAG and its document hold it. -/
structure Merges (lib : EngineLibraries) (l : CloudLedger) (δ : Delta) (now : ℤ) : Prop where
  outcome : (l.receiveDelta lib δ now none).1 = .ok .alreadyCommitted ∨
    (l.receiveDelta lib δ now none).1 = .ok .committed ∧
      ∃ lamport, (l.engine.apply lib .native δ now none).1 = .ok (.merged lamport)
  stored : δ.id ∈ (l.receiveDelta lib δ now none).2.engine.dag.ids
  held : ∀ c ∈ payloadChanges lib δ, c ∈ (l.receiveDelta lib δ now none).2.engine.doc.changes

def MergedOnReceipt (lib : CoreLibraries) (s : LedgerDevice) : LedgerOperation → Prop
  | .receive index now => ∀ w ∈ s.written[index]?, Merges lib.toEngineLibraries s.ledger w.delta now
  | _ => True

def WrittenUnderSchema (hash : SchemaIdentifierHash) (s : LedgerDevice) : LedgerOperation → Prop
  | .receive index _ => ∀ w ∈ s.written[index]?, w.current = hash
  | _ => True

def ParentsReceived (s : LedgerDevice) : LedgerOperation → Prop
  | .receive index _ => ∀ w ∈ s.written[index]?, ∀ p ∈ w.delta.causalParents,
      p ∈ s.written.map (fun w => w.delta.id) → p ∈ s.ledger.committed
  | _ => True

/-- What is relied on of Automerge and of SHA-256 when a Delta is written: the saved document
reads back, and the Delta gets an identifier that no row and no edge of the DAG names. -/
def LibrariesHold (lib : CoreLibraries) (s : LedgerDevice) : LedgerOperation → Prop
  | .write table key data env =>
    SavesReadBack lib s.device.handle table key data ∧
      ∀ δ ∈ writtenDelta lib s.device.handle table key data env,
        δ.id ∉ s.device.handle.crdt.dag.ids ∧ s.device.handle.crdt.dag.children δ.id = []
  | _ => True

/-- The DID of the device encodes its public key, and what it signs verifies under that key. -/
structure SelfCertifying (lib : IdentityLibraries) (identity : Identity) : Prop where
  resolves : lib.resolveDid identity.did = .ok identity.publicKey
  verifies : ∀ payload, lib.verify identity.publicKey payload
    (lib.sign identity.secretKey payload) = .ok ()

/-- A Delta that this device signed over a document that is only written to. -/
structure MadeHere (lib : CoreLibraries) (identity : Identity) (w : WrittenUnder) : Prop where
  authorDid : w.delta.authorDid = identity.did
  signature : w.delta.signature = lib.sign identity.secretKey (lib.canonicalBytes w.delta)
  schemaHash : w.delta.schemaHash = w.current
  loads : CrdtEngine.loadIncomingDoc lib.toEngineLibraries w.delta.automergeBytes =
    some ⟨[], payloadChanges lib.toEngineLibraries w.delta, []⟩
  written : Written ⟨[], payloadChanges lib.toEngineLibraries w.delta, []⟩

/-- Each Delta follows the one before it and carries all that it carries. -/
structure DeviceState (lib : CoreLibraries) (identity : Identity) (s : LedgerDevice) : Prop where
  authorDid : s.device.handle.crdt.authorDid = identity.did
  secretKey : s.device.handle.crdt.secretKey = identity.secretKey
  windows : s.device.handle.migration.corruptedSchemaWindows = ∅
  document : Written s.device.handle.crdt.doc
  wellFormed : s.device.handle.crdt.dag.WellFormed
  stored : ∀ w ∈ s.written, w.delta.id ∈ s.device.handle.crdt.dag.ids
  tip : ∀ w ∈ s.written.getLast?, s.device.handle.crdt.dag.Tip w.delta.id
  distinct : (s.written.map fun w => w.delta.id).Nodup
  linked : s.written.IsChain fun w next => w.delta.id ∈ next.delta.causalParents
  made : ∀ w ∈ s.written, MadeHere lib identity w
  growing : s.written.Pairwise fun w later =>
    payloadChanges lib.toEngineLibraries w.delta <+:
      payloadChanges lib.toEngineLibraries later.delta
  covered : ∀ w ∈ s.written,
    payloadChanges lib.toEngineLibraries w.delta <+: s.device.handle.crdt.doc.changes

section DeviceState
variable {lib : CoreLibraries} {identity : Identity} {s s' : LedgerDevice}

/-- The history of the engine grows, perhaps under another schema, and no Delta is added. -/
theorem DeviceState.of_keeps (h : DeviceState lib identity s) {current : SchemaIdentifierHash}
    (hkeeps : Keeps { s.device.handle.crdt with knownSchemaHash := current }
      s'.device.handle.crdt)
    (hwindows : s'.device.handle.migration.corruptedSchemaWindows =
      s.device.handle.migration.corruptedSchemaWindows)
    (hwritten : s'.written = s.written) : DeviceState lib identity s' where
  authorDid := hkeeps.authorDid.trans h.authorDid
  secretKey := hkeeps.secretKey.trans h.secretKey
  windows := hwindows.trans h.windows
  document := hkeeps.written h.document
  wellFormed := h.wellFormed.of_graph hkeeps.graph
  stored := by
    rw [hwritten, ChangesetDag.ids_of_graph hkeeps.graph]
    exact h.stored
  tip := by
    rw [hwritten]
    exact fun w hw => (h.tip w hw).of_graph hkeeps.graph
  distinct := by
    rw [hwritten]
    exact h.distinct
  linked := by
    rw [hwritten]
    exact h.linked
  made := by
    rw [hwritten]
    exact h.made
  growing := by
    rw [hwritten]
    exact h.growing
  covered := by
    rw [hwritten]
    exact fun w hw => (h.covered w hw).trans hkeeps.changes

theorem DeviceState.of_written (h : DeviceState lib identity s) {e : CrdtEngine} {d : Document}
    {tags : List DeltaTag} {env : CrdtEngine.ProduceEnvironment}
    (hkeeps : Keeps s.device.handle.crdt e) (hchanges : e.doc.changes = d.commit.changes)
    (hreads : ReadsBack lib.toEngineLibraries d)
    (hid : (deltaOver lib e d tags env).id ∉ s.device.handle.crdt.dag.ids)
    (hchildren : s.device.handle.crdt.dag.children (deltaOver lib e d tags env).id = [])
    (hafter : Keeps (withProduced lib e (deltaOver lib e d tags env)) s'.device.handle.crdt)
    (hwindows : s'.device.handle.migration.corruptedSchemaWindows =
      s.device.handle.migration.corruptedSchemaWindows)
    (hwritten : s'.written = s.written ++
      [⟨deltaOver lib e d tags env, s.device.handle.crdt.knownSchemaHash⟩]) :
    DeviceState lib identity s' := by
  generalize hδ : deltaOver lib e d tags env = δ at hid hchildren hafter hwritten
  have hparents : δ.causalParents = e.dagTips env.hash := by rw [← hδ]; rfl
  have hloads : CrdtEngine.loadIncomingDoc lib.toEngineLibraries δ.automergeBytes =
      some ⟨[], e.doc.changes, []⟩ := by
    have hbytes : δ.automergeBytes = lib.save d := by rw [← hδ]; rfl
    rw [hbytes, hchanges, CrdtEngine.loadIncomingDoc, if_neg hreads.1, hreads.2]
    rfl
  have hpayload : payloadChanges lib.toEngineLibraries δ = e.doc.changes := by
    simp [payloadChanges, hloads]
  have hmade : MadeHere lib identity ⟨δ, s.device.handle.crdt.knownSchemaHash⟩ := by
    constructor
    · rw [← h.authorDid, ← hkeeps.authorDid, ← hδ]
      rfl
    · rw [← h.secretKey, ← hkeeps.secretKey, ← hδ]
      rfl
    · rw [← hkeeps.knownSchemaHash, ← hδ]
      rfl
    · rw [hpayload]
      exact hloads
    · rw [hpayload]
      have hdocument := hkeeps.written h.document
      exact ⟨hdocument.numbered, hdocument.changes, fun _ hb => absurd hb List.not_mem_nil⟩
  have hwellFormed : e.dag.WellFormed := h.wellFormed.of_graph hkeeps.graph
  have hdag : s'.device.handle.crdt.dag.graph = (e.dag.insert (CrdtEngine.dagNode
      lib.toEngineLibraries { e with lamport := e.lamport + 1 } δ)).graph := hafter.graph
  have hcovered : ∀ w ∈ s.written, payloadChanges lib.toEngineLibraries w.delta <+:
      payloadChanges lib.toEngineLibraries δ := by
    intro w hw
    rw [hpayload]
    exact (h.covered w hw).trans hkeeps.changes
  constructor
  · exact hafter.authorDid.trans (hkeeps.authorDid.trans h.authorDid)
  · exact hafter.secretKey.trans (hkeeps.secretKey.trans h.secretKey)
  · exact hwindows.trans h.windows
  · exact hafter.written (hkeeps.written h.document)
  · exact (hwellFormed.insert _).of_graph hdag
  · intro w hw
    rw [ChangesetDag.ids_of_graph hdag, ChangesetDag.mem_ids_insert]
    rw [hwritten] at hw
    rcases List.mem_append.mp hw with hold | hnew
    · rw [ChangesetDag.ids_of_graph hkeeps.graph]
      exact .inl (h.stored w hold)
    · rw [List.mem_singleton.mp hnew]
      exact .inr rfl
  · intro w hw
    rw [hwritten, List.getLast?_concat, Option.mem_some_iff] at hw
    rw [← hw]
    refine (hwellFormed.tip_insert ?_ ?_ ?_).of_graph hdag
    · rw [ChangesetDag.ids_of_graph hkeeps.graph]
      exact hid
    · rw [ChangesetDag.children_of_graph hkeeps.graph]
      exact hchildren
    · intro p hp
      have htip : p ∈ e.dagTips env.hash := hparents ▸ hp
      exact ((CrdtEngine.mem_dagTips env.hash).mp htip).1
  · rw [hwritten, List.map_append, List.map_singleton]
    refine List.nodup_append.mpr ⟨h.distinct, List.nodup_singleton _, ?_⟩
    intro id hold new hnew
    obtain ⟨w, hw, rfl⟩ := List.mem_map.mp hold
    rw [List.mem_singleton.mp hnew]
    exact fun hsame => hid (hsame ▸ h.stored w hw)
  · rw [hwritten]
    refine h.linked.append (List.isChain_singleton _) ?_
    intro w hw next hnext
    cases hnext
    change w.delta.id ∈ δ.causalParents
    rw [hparents, CrdtEngine.mem_dagTips]
    exact (h.tip w hw).of_graph hkeeps.graph
  · intro w hw
    rw [hwritten] at hw
    rcases List.mem_append.mp hw with hold | hnew
    · exact h.made w hold
    · rw [List.mem_singleton.mp hnew]
      exact hmade
  · rw [hwritten]
    refine List.pairwise_append.mpr ⟨h.growing, List.pairwise_singleton _ _, ?_⟩
    intro w hw new hnew
    rw [List.mem_singleton.mp hnew]
    exact hcovered w hw
  · intro w hw
    rw [hwritten] at hw
    rcases List.mem_append.mp hw with hold | hnew
    · exact ((h.covered w hold).trans hkeeps.changes).trans hafter.changes
    · rw [List.mem_singleton.mp hnew, hpayload]
      exact hafter.changes

theorem DeviceState.write (h : DeviceState lib identity s) {table key : String}
    {data : JsonValue} {env : WriteEnvironment}
    (hlib : LibrariesHold lib s (.write table key data env)) :
    DeviceState lib identity (s.write lib table key data env) := by
  obtain ⟨hreads, hnew⟩ := hlib
  obtain ⟨hwindows, hcases⟩ := write_cases hreads env
  rcases hcases with ⟨hnone, hkeeps⟩ | ⟨e, tags, hkeeps, hchanges, hsome, hafter⟩
  · refine h.of_keeps hkeeps hwindows ?_
    simp [LedgerDevice.write, hnone]
  · obtain ⟨hid, hchildren⟩ := hnew _ hsome
    refine h.of_written hkeeps hchanges hreads.1 hid hchildren hafter hwindows ?_
    simp [LedgerDevice.write, hsome]

theorem replayCorruptedWindows_of_empty (lib : MigrationLibraries)
    (env : SchemaMigrationEngine.ReplayEnvironment) {m : SchemaMigrationEngine} (e : CrdtEngine)
    (source : SchemaIdentifierHash) (hwindows : m.corruptedSchemaWindows = ∅) :
    m.replayCorruptedWindows lib env e source = ({ m with corruptedSchemaWindows := ∅ }, e) := by
  simp only [SchemaMigrationEngine.replayCorruptedWindows, hwindows, AList.lookup_empty,
    Option.getD_none, List.foldl_nil]
  congr 1

theorem windows_prepareMigration (lib : MigrationLibraries) (m : SchemaMigrationEngine)
    (δ : MigrationDelta) (senderDid : Did) :
    (m.prepareMigration lib δ senderDid).2.corruptedSchemaWindows = m.corruptedSchemaWindows := by
  unfold SchemaMigrationEngine.prepareMigration
  dsimp only
  split_ifs
  · rfl
  · rfl
  · rfl
  · rfl
  · split <;> rfl
  · split <;> rfl

theorem windows_finishMigration (m : SchemaMigrationEngine) (migrationId : MigrationId)
    (target : SchemaIdentifierHash) (outcome : Except TirBaseError MigrationResult) :
    (m.finishMigration migrationId target outcome).2.corruptedSchemaWindows =
      m.corruptedSchemaWindows := by
  unfold SchemaMigrationEngine.finishMigration
  dsimp only
  split_ifs
  · rfl
  · split <;> rfl

/-- A section of a migration changes of the CRDT engine at most the schemas. -/
theorem crdt_migrate {device : JobDevice}
    (hwindows : device.handle.migration.corruptedSchemaWindows = ∅) (work : MigrationSection) :
    (device.step lib work.operation).handle.migration.corruptedSchemaWindows = ∅ ∧
      ∃ current, Keeps { device.handle.crdt with knownSchemaHash := current }
        (device.step lib work.operation).handle.crdt := by
  cases work with
  | arrive δ env => exact ⟨hwindows, _, .refl _⟩
  | transformWrite table key value fault => exact ⟨hwindows, _, .refl _⟩
  | prepare index =>
    simp only [MigrationSection.operation, JobDevice.step, JobDevice.prepare]
    split
    · rename_i δ senderDid hjob
      have hprepared := (windows_prepareMigration lib.toMigrationLibraries
        device.handle.migration δ senderDid).trans hwindows
      split <;> exact ⟨hprepared, _, .refl _⟩
    · exact ⟨hwindows, _, .refl _⟩
  | finish index outcome =>
    simp only [MigrationSection.operation, JobDevice.step, JobDevice.finish]
    split
    · rename_i prepared hjob
      have hfinished := (windows_finishMigration device.handle.migration prepared.migrationId
        prepared.targetSchemaHash outcome).trans hwindows
      split <;> exact ⟨hfinished, _, .refl _⟩
    · exact ⟨hwindows, _, .refl _⟩
  | read index =>
    simp only [MigrationSection.operation, JobDevice.step, JobDevice.read]
    split <;> exact ⟨hwindows, _, .refl _⟩
  | copy index env =>
    simp only [MigrationSection.operation, JobDevice.step, JobDevice.copy]
    split
    · rename_i commit source current version hjob
      rw [replayCorruptedWindows_of_empty _ env _ source hwindows]
      exact ⟨rfl, current, rfl, rfl, rfl, List.prefix_rfl, id, rfl⟩
    · exact ⟨hwindows, _, .refl _⟩

/-- A section of a migration leaves the history of the engine alone. -/
theorem DeviceState.migrate (h : DeviceState lib identity s) (work : MigrationSection) :
    DeviceState lib identity { s with device := s.device.step lib work.operation } := by
  have hmigrate : (s.device.step lib work.operation).handle.migration.corruptedSchemaWindows = ∅ ∧
      ∃ current, Keeps { s.device.handle.crdt with knownSchemaHash := current }
        (s.device.step lib work.operation).handle.crdt := crdt_migrate h.windows work
  obtain ⟨hwindows, current, hkeeps⟩ := hmigrate
  exact h.of_keeps hkeeps (hwindows.trans h.windows.symm) rfl

end DeviceState

/-- The ledger has merged the oldest Deltas of the device, and nothing else. -/
structure LedgerState (lib : CoreLibraries) (hash : SchemaIdentifierHash) (s : LedgerDevice)
    (count : ℕ) : Prop where
  count_le : count ≤ s.written.length
  committed : s.ledger.committed = (s.written.take count).map fun w => w.delta.id
  under : ∀ w ∈ s.written.take count, w.current = hash
  known : s.ledger.engine.knownSchemas = [hash]
  definitions : s.ledger.engine.schemaDefinitions = []
  notRevoked : s.ledger.engine.revokedDids = []
  pending : s.ledger.engine.doc.pending = []
  changes : s.ledger.engine.doc.changes = ((s.written.take count).getLast?.map fun w =>
    payloadChanges lib.toEngineLibraries w.delta).getD []
  stored : ∀ w ∈ s.written.take count, w.delta.id ∈ s.ledger.engine.dag.ids

section LedgerState
variable {lib : CoreLibraries} {identity : Identity} {hash : SchemaIdentifierHash}
  {s s' : LedgerDevice} {count : ℕ}

theorem LedgerState.of_append (h : LedgerState lib hash s count) (hledger : s'.ledger = s.ledger)
    {new : List WrittenUnder} (hwritten : s'.written = s.written ++ new) :
    LedgerState lib hash s' count := by
  have htake : s'.written.take count = s.written.take count := by
    rw [hwritten, List.take_append_of_le_length h.count_le]
  constructor
  · rw [hwritten, List.length_append]
    have := h.count_le
    omega
  · rw [htake, hledger, h.committed]
  · rw [htake]
    exact h.under
  · rw [hledger, h.known]
  · rw [hledger, h.definitions]
  · rw [hledger, h.notRevoked]
  · rw [hledger, h.pending]
  · rw [htake, hledger, h.changes]
  · rw [htake, hledger]
    exact h.stored

theorem DeviceState.index_unique (h : DeviceState lib identity s) {i j : ℕ} {w w' : WrittenUnder}
    (hi : s.written[i]? = some w) (hj : s.written[j]? = some w')
    (hid : w.delta.id = w'.delta.id) : i = j := by
  obtain ⟨hilength, rfl⟩ := List.getElem?_eq_some_iff.mp hi
  obtain ⟨hjlength, rfl⟩ := List.getElem?_eq_some_iff.mp hj
  have hdistinct := List.pairwise_iff_getElem.mp (List.pairwise_map.mp h.distinct)
  rcases lt_trichotomy i j with hlt | heq | hlt
  · exact absurd hid (hdistinct i j hilength hjlength hlt)
  · exact heq
  · exact absurd hid.symm (hdistinct j i hjlength hilength hlt)

theorem mem_take_of_committed (hdevice : DeviceState lib identity s)
    (h : LedgerState lib hash s count) {i : ℕ} {w : WrittenUnder} (hi : s.written[i]? = some w)
    (hcommitted : w.delta.id ∈ s.ledger.committed) : i < count := by
  rw [h.committed] at hcommitted
  obtain ⟨w', hw', hid⟩ := List.mem_map.mp hcommitted
  obtain ⟨j, hj⟩ := List.mem_iff_getElem?.mp hw'
  rw [List.getElem?_take] at hj
  split_ifs at hj with hlt
  rw [hdevice.index_unique hi hj hid.symm]
  exact hlt

theorem committed_of_lt (h : LedgerState lib hash s count) {i : ℕ} {w : WrittenUnder}
    (hi : s.written[i]? = some w) (hlt : i < count) :
    w ∈ s.written.take count ∧ w.delta.id ∈ s.ledger.committed := by
  have hmem : w ∈ s.written.take count := by
    refine List.mem_iff_getElem?.mpr ⟨i, ?_⟩
    rw [List.getElem?_take, if_pos hlt, hi]
  rw [h.committed]
  exact ⟨hmem, List.mem_map_of_mem hmem⟩

/-- The next Delta that the ledger can receive is the oldest one that it has not. -/
theorem index_eq_count (hdevice : DeviceState lib identity s) (h : LedgerState lib hash s count)
    {i : ℕ} {w : WrittenUnder} (hi : s.written[i]? = some w)
    (hnew : w.delta.id ∉ s.ledger.committed)
    (hparents : ∀ p ∈ w.delta.causalParents, p ∈ s.written.map (fun w => w.delta.id) →
      p ∈ s.ledger.committed) : i = count := by
  have hge : count ≤ i := by
    by_contra hlt
    exact hnew (committed_of_lt h hi (not_le.mp hlt)).2
  by_contra hne
  obtain ⟨j, rfl⟩ : ∃ j, i = j + 1 := ⟨i - 1, by omega⟩
  obtain ⟨hlength, hget⟩ := List.getElem?_eq_some_iff.mp hi
  have hlink := List.isChain_iff_getElem.mp hdevice.linked j hlength
  have hbefore : s.written[j]? = some s.written[j] := List.getElem?_eq_getElem (by omega)
  rw [hget] at hlink
  have hcommitted := hparents _ hlink (List.mem_map_of_mem (List.getElem_mem _))
  have hlt := mem_take_of_committed hdevice h hbefore hcommitted
  omega

/-- The document of the ledger is an earlier state of what a later Delta carries. -/
theorem changes_grow (hdevice : DeviceState lib identity s) (h : LedgerState lib hash s count)
    {i : ℕ} {w : WrittenUnder} (hi : s.written[i]? = some w) (hge : count ≤ i) :
    s.ledger.engine.doc.changes <+: payloadChanges lib.toEngineLibraries w.delta := by
  rw [h.changes]
  cases hlast : (s.written.take count).getLast? with
  | none => exact List.nil_prefix
  | some last =>
    obtain ⟨j, hj⟩ := List.mem_iff_getElem?.mp (List.mem_of_getLast? hlast)
    rw [List.getElem?_take] at hj
    split_ifs at hj with hlt
    obtain ⟨hjlength, rfl⟩ := List.getElem?_eq_some_iff.mp hj
    obtain ⟨hilength, rfl⟩ := List.getElem?_eq_some_iff.mp hi
    exact List.pairwise_iff_getElem.mp hdevice.growing j i hjlength hilength (by omega)

/-- The document of the ledger holds what it has received. -/
theorem prefix_changes (hdevice : DeviceState lib identity s) (h : LedgerState lib hash s count)
    {w : WrittenUnder} (hw : w ∈ s.written.take count) :
    payloadChanges lib.toEngineLibraries w.delta <+: s.ledger.engine.doc.changes := by
  rw [h.changes]
  have hgrowing := hdevice.growing.sublist (List.take_sublist count s.written)
  cases hlast : (s.written.take count).getLast? with
  | none =>
    rw [List.getLast?_eq_none_iff.mp hlast] at hw
    exact absurd hw List.not_mem_nil
  | some last =>
    obtain ⟨earlier, hearlier⟩ := List.getLast?_eq_some_iff.mp hlast
    rw [hearlier] at hw hgrowing
    rcases List.mem_append.mp hw with hw | hw
    · exact (List.pairwise_append.mp hgrowing).2.2 w hw last (List.mem_singleton_self last)
    · rw [List.mem_singleton.mp hw]
      exact List.prefix_rfl

theorem merges_of_committed (hdevice : DeviceState lib identity s)
    (h : LedgerState lib hash s count) {i : ℕ} {w : WrittenUnder} (hi : s.written[i]? = some w)
    (hcommitted : w.delta.id ∈ s.ledger.committed) (now : ℤ) :
    Merges lib.toEngineLibraries s.ledger w.delta now ∧ w.current = hash := by
  have hlt := mem_take_of_committed hdevice h hi hcommitted
  obtain ⟨hmem, -⟩ := committed_of_lt h hi hlt
  have hreceive : s.ledger.receiveDelta lib.toEngineLibraries w.delta now none =
      (.ok .alreadyCommitted, s.ledger) := CloudLedger.receiveDelta_of_committed hcommitted now none
  refine ⟨⟨?_, ?_, ?_⟩, h.under w hmem⟩
  · rw [hreceive]
    exact .inl rfl
  · rw [hreceive]
    exact h.stored w hmem
  · rw [hreceive]
    exact fun c hc => (prefix_changes hdevice h hmem).subset hc

/-- The gate of the ledger lets a Delta of the device through, or does not know its schema. -/
theorem ledger_gate (hidentity : SelfCertifying lib.toIdentityLibraries identity)
    (h : LedgerState lib hash s count) {w : WrittenUnder} (hmade : MadeHere lib identity w) :
    (w.current = hash ∧ s.ledger.engine.gate lib.toEngineLibraries w.delta = .pass false) ∨
      (w.current ≠ hash ∧ s.ledger.engine.gate lib.toEngineLibraries w.delta =
        .quarantine .unknownSchemaHash) := by
  have hrevoked : w.delta.authorDid ∉ s.ledger.engine.revokedDids := by
    rw [h.notRevoked]
    exact List.not_mem_nil
  by_cases hcurrent : w.current = hash
  · refine .inl ⟨hcurrent, CrdtEngine.gate_of_accepts ⟨hrevoked, ?_, ?_, identity.publicKey, ?_, ?_⟩⟩
    · rw [h.known, hmade.schemaHash, hcurrent]
      exact List.mem_singleton_self hash
    · rw [hmade.signature, IdentityLibraries.sign]
      intro hnil
      have hlength := (lib.ed25519Sign identity.secretKey (lib.canonicalBytes w.delta)).property
      rw [hnil] at hlength
      cases hlength
    · rw [hmade.authorDid]
      exact hidentity.resolves
    · rw [hmade.signature]
      exact hidentity.verifies _
  · refine .inr ⟨hcurrent, CloudLedger.gate_of_unknown hrevoked ?_ h.definitions⟩
    rw [h.known, hmade.schemaHash]
    exact fun hmem => hcurrent (List.mem_singleton.mp hmem)

/-- The next Delta is merged if it was written under the schema of the ledger, and quarantined if
it was not. -/
theorem receive_next (hidentity : SelfCertifying lib.toIdentityLibraries identity)
    (hdevice : DeviceState lib identity s) (h : LedgerState lib hash s count)
    {w : WrittenUnder} (hi : s.written[count]? = some w)
    (hnew : w.delta.id ∉ s.ledger.committed) (now : ℤ) :
    (w.current = hash ∧ Merges lib.toEngineLibraries s.ledger w.delta now ∧
        LedgerState lib hash (s.receive lib count now) (count + 1)) ∨
      (w.current ≠ hash ∧ ¬Merges lib.toEngineLibraries s.ledger w.delta now) := by
  have hmade := hdevice.made w (List.mem_of_getElem? hi)
  rcases ledger_gate hidentity h hmade with ⟨hcurrent, hgate⟩ | ⟨hcurrent, hgate⟩
  · have hmerge : s.ledger.engine.mergePayload lib.toEngineLibraries w.delta =
        some { s.ledger.engine.doc with
          changes := payloadChanges lib.toEngineLibraries w.delta } := by
      simp only [CrdtEngine.mergePayload, hmade.loads]
      exact mergeIncoming_of_prefix h.pending rfl hmade.written
        (changes_grow hdevice h hi le_rfl) _ _
    have hreceive := CloudLedger.receiveDelta_of_pass hnew hgate hmerge now
    have hids : ∀ id, id ∈ (CrdtEngine.mergedEngine .native lib.toEngineLibraries s.ledger.engine
        w.delta false { s.ledger.engine.doc with
          changes := payloadChanges lib.toEngineLibraries w.delta }).dag.ids ↔
        id ∈ s.ledger.engine.dag.ids ∨ id = w.delta.id :=
      fun id => ChangesetDag.mem_ids_insert
    have happly : (s.ledger.engine.apply lib.toEngineLibraries .native w.delta now none).1 =
        .ok (.merged (s.ledger.engine.advanceLamport w.delta)) := by
      rcases CrdtEngine.apply_of_pass hgate hmerge .native now none with
        ⟨err, hfault, -, -⟩ | happly
      · cases hfault
      · rw [happly]
    have htake : s.written.take (count + 1) = s.written.take count ++ [w] := by
      rw [List.take_add_one, hi]
      rfl
    have hafter : s.receive lib count now = { s with
        ledger := { s.ledger with
          engine := CrdtEngine.mergedEngine .native lib.toEngineLibraries s.ledger.engine w.delta
            false { s.ledger.engine.doc with
              changes := payloadChanges lib.toEngineLibraries w.delta }
          committed := s.ledger.committed ++ [w.delta.id] } } := by
      simp only [LedgerDevice.receive, hi, hreceive]
    refine .inl ⟨hcurrent, ⟨.inr ⟨by rw [hreceive], _, happly⟩, ?_, ?_⟩, ?_⟩
    · rw [hreceive]
      exact (hids _).mpr (.inr rfl)
    · rw [hreceive]
      exact fun c hc => hc
    · rw [hafter]
      constructor
      · exact (List.getElem?_eq_some_iff.mp hi).1
      · change s.ledger.committed ++ [w.delta.id] = _
        rw [htake, List.map_append, h.committed]
        rfl
      · intro w' hw'
        rw [htake] at hw'
        rcases List.mem_append.mp hw' with hold | hlast
        · exact h.under w' hold
        · rw [List.mem_singleton.mp hlast]
          exact hcurrent
      · exact h.known
      · exact h.definitions
      · exact h.notRevoked
      · exact h.pending
      · rw [htake, List.getLast?_concat]
        rfl
      · intro w' hw'
        rw [htake] at hw'
        refine (hids _).mpr ?_
        rcases List.mem_append.mp hw' with hold | hlast
        · exact .inl (h.stored w' hold)
        · rw [List.mem_singleton.mp hlast]
          exact .inr rfl
  · refine .inr ⟨hcurrent, fun hmerges => ?_⟩
    have hreceive := CloudLedger.receiveDelta_of_quarantine hnew hgate now none
    rcases hmerges.outcome with halready | ⟨-, lamport, hmerged⟩
    · rw [hreceive] at halready
      cases halready
    · simp only [CrdtEngine.apply, hgate] at hmerged
      cases hmerged

/-- The device writes a chain of Deltas, and the ledger has merged the oldest ones. -/
def InStep (lib : CoreLibraries) (identity : Identity) (hash : SchemaIdentifierHash)
    (s : LedgerDevice) : Prop :=
  DeviceState lib identity s ∧ ∃ count, LedgerState lib hash s count

/-- What is relied on of the libraries, and the order in which the ledger receives. -/
def Admissible (lib : CoreLibraries) (s : LedgerDevice) (op : LedgerOperation) : Prop :=
  LibrariesHold lib s op ∧ ParentsReceived s op

theorem mergedOnReceipt_iff (hidentity : SelfCertifying lib.toIdentityLibraries identity)
    (hs : InStep lib identity hash s) {op : LedgerOperation} (hop : Admissible lib s op) :
    MergedOnReceipt lib s op ↔ WrittenUnderSchema hash s op := by
  obtain ⟨hdevice, count, hledger⟩ := hs
  cases op with
  | write table key data env => exact Iff.rfl
  | migrate work => exact Iff.rfl
  | receive index now =>
    refine forall₂_congr fun w hw => ?_
    by_cases hcommitted : w.delta.id ∈ s.ledger.committed
    · obtain ⟨hmerges, hcurrent⟩ := merges_of_committed hdevice hledger hw hcommitted now
      exact iff_of_true hmerges hcurrent
    · have hindex := index_eq_count hdevice hledger hw hcommitted (hop.2 w hw)
      subst hindex
      rcases receive_next hidentity hdevice hledger hw hcommitted now with
        ⟨hcurrent, hmerges, -⟩ | ⟨hcurrent, hmerges⟩
      · exact iff_of_true hmerges hcurrent
      · exact iff_of_false hmerges hcurrent

theorem inStep_step (hidentity : SelfCertifying lib.toIdentityLibraries identity)
    (hs : InStep lib identity hash s) {op : LedgerOperation} (hop : Admissible lib s op)
    (hunder : WrittenUnderSchema hash s op) : InStep lib identity hash (s.step lib op) := by
  obtain ⟨hdevice, count, hledger⟩ := hs
  cases op with
  | write table key data env => exact ⟨hdevice.write hop.1, count, hledger.of_append rfl rfl⟩
  | migrate work =>
    exact ⟨hdevice.migrate work, count, hledger.of_append rfl (List.append_nil _).symm⟩
  | receive index now =>
    simp only [LedgerDevice.step]
    cases hw : s.written[index]? with
    | none =>
      simp only [LedgerDevice.receive, hw]
      exact ⟨hdevice, count, hledger⟩
    | some w =>
      have hsame : DeviceState lib identity (s.receive lib index now) := by
        simp only [LedgerDevice.receive, hw]
        exact hdevice.of_keeps (.refl _) rfl rfl
      refine ⟨hsame, ?_⟩
      by_cases hcommitted : w.delta.id ∈ s.ledger.committed
      · have hstay : s.receive lib index now = s := by
          simp only [LedgerDevice.receive, hw, CloudLedger.receiveDelta_of_committed hcommitted]
        rw [hstay]
        exact ⟨count, hledger⟩
      · have hindex := index_eq_count hdevice hledger hw hcommitted (hop.2 w hw)
        subst hindex
        rcases receive_next hidentity hdevice hledger hw hcommitted now with
          ⟨-, -, hnext⟩ | ⟨hcurrent, -⟩
        · exact ⟨index + 1, hnext⟩
        · exact absurd (hunder w hw) hcurrent

end LedgerState

section Start
variable {lib : CoreLibraries} {config : DeploymentConfig} {identity : Identity}
  {storage : Storage} {started : Bool} {h : CoreHandle}

theorem inStep_start (hinit : init lib config identity storage started = .ok h)
    (hdag : storage.dag.WellFormed) :
    InStep lib identity (initialSchemaHash lib config) (.start lib config identity h) := by
  have hstart := started_of_init hinit
  constructor
  · constructor
    · exact hstart.engine.authorDid
    · exact secretKey_of_init hinit
    · exact hstart.windows
    · change Written h.crdt.doc
      rw [hstart.engine.doc]
      exact written_empty _
    · change h.crdt.dag.WellFormed
      rw [hstart.engine.dag]
      exact hdag
    · exact fun w hw => absurd hw List.not_mem_nil
    · exact fun w hw => by cases hw
    · exact List.nodup_nil
    · exact List.isChain_nil
    · exact fun w hw => absurd hw List.not_mem_nil
    · exact List.Pairwise.nil
    · exact fun w hw => absurd hw List.not_mem_nil
  · refine ⟨0, ⟨Nat.zero_le _, rfl, ?_, rfl, rfl, rfl, rfl, rfl, ?_⟩⟩
    · exact fun w hw => absurd hw List.not_mem_nil
    · exact fun w hw => absurd hw List.not_mem_nil

/-- Along any run the ledger merges what it receives exactly when all of that was written under the
schema on which the ledger was started. -/
theorem mergedOnReceipt_iff_writtenUnder
    (hinit : init lib config identity storage started = .ok h)
    (hidentity : SelfCertifying lib.toIdentityLibraries identity)
    (hdag : storage.dag.WellFormed) (ops : List LedgerOperation)
    (hlib : Guarded (LedgerDevice.step lib) (LibrariesHold lib) (.start lib config identity h) ops)
    (hparents : Guarded (LedgerDevice.step lib) ParentsReceived (.start lib config identity h)
      ops) :
    Guarded (LedgerDevice.step lib) (MergedOnReceipt lib) (.start lib config identity h) ops ↔
      Guarded (LedgerDevice.step lib) (WrittenUnderSchema (initialSchemaHash lib config))
        (.start lib config identity h) ops :=
  guarded_congr (fun _ _ hop hs => mergedOnReceipt_iff hidentity hs hop)
    (fun _ _ hop hunder hs => inStep_step hidentity hs hop hunder)
    (guarded_and.mpr ⟨hlib, hparents⟩) (inStep_start hinit hdag)

end Start

def sampleChange : Change :=
  ⟨List.replicate 32 1, 1, 1, [.set (.root "_tirbase_table") (.put (.str "t")) [],
    .set (.root "_tirbase_key") (.put (.str "k")) [], .set (.root "k") (.put (.str "v")) []]⟩

def sampleLib : CoreLibraries := sampleCoreLibraries [([7], [sampleChange])]

def writeAndReceive : List LedgerOperation :=
  [.write "t" "k" (.string "v") (calmWrite 9), .receive 0 9]

def pathOnly : DeploymentConfig := { sampleConfig with schemaVersionPath := [5] }

def startOn (config : DeploymentConfig) (h : CoreHandle) : LedgerDevice :=
  .start sampleLib config sampleIdentity h

def pathOnlyHandle : CoreHandle :=
  ((init sampleLib pathOnly sampleIdentity ⟨.empty, .empty, [], []⟩ true).toOption).get rfl

theorem path_without_definitions_quarantined :
    let start := startOn pathOnly pathOnlyHandle
    let before := run (LedgerDevice.step sampleLib) start
      [.write "t" "k" (.string "v") (calmWrite 9)]
    let after := run (LedgerDevice.step sampleLib) start writeAndReceive
    before.written.map (fun w => (w.delta.schemaHash, w.delta.causalParents)) = [(5, [])] ∧
      before.written.map (fun w =>
        (before.ledger.receiveDelta sampleLib.toEngineLibraries w.delta 9 none).1.toOption) =
          [some .committed] ∧
      after.ledger.committed = [0x901] ∧ after.ledger.engine.dag.ids = [] ∧
      after.ledger.engine.doc.changes = [] ∧
      ¬Guarded (LedgerDevice.step sampleLib) (MergedOnReceipt sampleLib) start
        writeAndReceive := by
  intro start before after
  have hids : after.ledger.engine.dag.ids = [] := by decide +kernel
  refine ⟨by decide +kernel, by decide +kernel, by decide +kernel, hids, by decide +kernel, ?_⟩
  rintro ⟨-, hmerged, -⟩
  obtain ⟨w, hw⟩ : ∃ w, before.written[0]? = some w :=
    Option.isSome_iff_exists.mp (by decide +kernel)
  have hafter : after.ledger =
      (before.ledger.receiveDelta sampleLib.toEngineLibraries w.delta 9 none).2 := by
    change (before.receive sampleLib 0 9).ledger = _
    simp only [LedgerDevice.receive, hw]
  have hstored : w.delta.id ∈
      (before.ledger.receiveDelta sampleLib.toEngineLibraries w.delta 9 none).2.engine.dag.ids :=
    (hmerged w hw).stored
  rw [← hafter, hids] at hstored
  exact absurd hstored List.not_mem_nil

def plainHandle : CoreHandle :=
  ((init sampleLib sampleConfig sampleIdentity ⟨.empty, .empty, [], []⟩ true).toOption).get rfl

theorem mergedOnReceipt_iff_writtenUnder_sample :
    Guarded (LedgerDevice.step sampleLib) (MergedOnReceipt sampleLib)
      (startOn sampleConfig plainHandle) writeAndReceive := by
  have hinit : init sampleLib sampleConfig sampleIdentity ⟨.empty, .empty, [], []⟩ true =
      .ok plainHandle := rfl
  have hidentity : SelfCertifying sampleLib.toIdentityLibraries sampleIdentity :=
    ⟨by decide +kernel, fun payload => rfl⟩
  have hreads : SavesReadBack sampleLib plainHandle "t" "k" (.string "v") := by
    have hsaved : CrdtEngine.savedDocument sampleLib.json plainHandle.crdt "t" "k" (.string "v") =
        ⟨List.replicate 32 1, [], sampleChange.body⟩ := by decide +kernel
    rw [SavesReadBack, hsaved]
    exact ⟨⟨by decide +kernel, by decide +kernel⟩, by decide +kernel, by decide +kernel⟩
  have hwritten : (run (LedgerDevice.step sampleLib) (startOn sampleConfig plainHandle)
      [.write "t" "k" (.string "v") (calmWrite 9)]).written.map
        (fun w => (w.current, w.delta.causalParents)) = [(0, [])] := by decide +kernel
  have hparts : ∀ w ∈ (run (LedgerDevice.step sampleLib) (startOn sampleConfig plainHandle)
      [.write "t" "k" (.string "v") (calmWrite 9)]).written,
        (w.current, w.delta.causalParents) = (0, []) := by
    intro w hw
    have hmem := List.mem_map_of_mem (f := fun w => (w.current, w.delta.causalParents)) hw
    rw [hwritten] at hmem
    exact List.mem_singleton.mp hmem
  have hdag : (LedgerDevice.start sampleLib sampleConfig sampleIdentity
      plainHandle).device.handle.crdt.dag = ChangesetDag.empty := rfl
  have hfresh : ∀ id : DeltaId, id ∉ ChangesetDag.empty.ids ∧ ChangesetDag.empty.children id = [] :=
    fun id => ⟨List.not_mem_nil, by simp [ChangesetDag.children, ChangesetDag.empty]⟩
  refine (mergedOnReceipt_iff_writtenUnder hinit hidentity ChangesetDag.wellFormed_empty
    writeAndReceive ⟨⟨hreads, fun δ hδ => ?_⟩, trivial, trivial⟩
    ⟨trivial, fun w hw p hp => ?_, trivial⟩).mpr ⟨trivial, fun w hw => ?_, trivial⟩
  · rw [hdag]
    exact hfresh δ.id
  · rw [(Prod.mk.inj (hparts w (List.mem_of_getElem? hw))).2] at hp
    exact absurd hp List.not_mem_nil
  · exact (Prod.mk.inj (hparts w (List.mem_of_getElem? hw))).1

end LedgerSchemas

end TirBase
