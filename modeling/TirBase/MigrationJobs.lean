import TirBase.DeviceRuns
import TirBase.TransitionRuns

/-! # Migration jobs, one lock section at a time

Every migration that arrives starts a job. The job holds the migration engine while it validates,
commits and reads, and the CRDT engine while it copies the schema into it; between two sections
anything else may happen. A Delta that the CRDT engine refuses is stored in a section of its own. -/
namespace TirBase.MigrationJobs
open CoreHandle DeviceRuns TransitionRuns

structure Commit where
  migrationId : MigrationId
  target : SchemaIdentifierHash
  deriving DecidableEq

/-- How far a job is. A job that holds a hash also notes how many commits preceded its reading. -/
inductive Job
  | waiting (delta : MigrationDelta) (senderDid : Did)
  | running (prepared : PreparedMigration)
  | committed (commit : Commit) (source : SchemaIdentifierHash)
  | holding (commit : Commit) (source current : SchemaIdentifierHash) (version : ℕ)
  | ended (commit : Option Commit)
  deriving DecidableEq

/-- A device with its jobs and the refused Deltas that are on their way to the ledger. The last
three fields only record what happened: the commits, the calls of `set_current_schema` each with
the number of commits before the hash was read, and the Deltas quarantined since the last commit. -/
structure JobDevice where
  handle : CoreHandle
  jobs : List Job
  refused : List (Delta × QuarantineReason)
  commits : List Commit
  calls : List (ℕ × SchemaIdentifierHash)
  quarantinedSince : List DeltaId

inductive JobOperation
  | message (msg : GossipMessage) (env : InboundEnvironment)
  | quarantine (index : ℕ) (now : ℤ)
  | prepare (index : ℕ)
  | transformWrite (table key : String) (value : JsonValue) (fault : Option StoreFault)
  | finish (index : ℕ) (outcome : Except TirBaseError MigrationResult)
  | read (index : ℕ)
  | copy (index : ℕ) (env : SchemaMigrationEngine.ReplayEnvironment)

namespace JobDevice
variable (lib : CoreLibraries)

def start (h : CoreHandle) : JobDevice := ⟨h, [], [], [], [], []⟩

/-- The first section of an inbound Delta; one that is refused is yet to be stored. -/
def arrive (s : JobDevice) (δ : Delta) (env : InboundEnvironment) : JobDevice :=
  match (s.handle.crdt.apply lib.toEngineLibraries .native δ env.now env.applyFault).1 with
  | .ok (.quarantined reason) => { s with refused := s.refused ++ [(δ, reason)] }
  | _ => { s with handle := (s.handle.receiveDelta lib δ env).2 }

def message (s : JobDevice) (msg : GossipMessage) (env : InboundEnvironment) : JobDevice :=
  match msg with
  | .inboundDelta δ => s.arrive lib δ env
  | .inboundMigrationDelta δ => { s with jobs := s.jobs ++ [.waiting δ δ.authorDid] }
  | msg => { s with handle := (s.handle.receiveInbound lib msg env).2 }

def quarantine (s : JobDevice) (index : ℕ) (now : ℤ) : JobDevice :=
  match s.refused[index]? with
  | some (δ, reason) =>
    { s with
      handle := { s.handle with
        migration := s.handle.migration.quarantineIncoming lib.toMigrationLibraries δ.authorDid
          (lib.serialiseDelta δ) (some δ.schemaHash) reason now }
      refused := s.refused.eraseIdx index
      quarantinedSince := s.quarantinedSince ++ [lib.sha256 (lib.serialiseDelta δ)] }
  | none => s

/-- A waiting job validates its migration; it waits on while another one runs. -/
def prepare (s : JobDevice) (index : ℕ) : JobDevice :=
  match s.jobs[index]? with
  | some (.waiting δ senderDid) =>
    let out := s.handle.migration.prepareMigration lib.toMigrationLibraries δ senderDid
    let s := { s with handle := { s.handle with migration := out.2 } }
    match out.1 with
    | .ok prepared => { s with jobs := s.jobs.set index (.running prepared) }
    | .error (.migrationInProgress _) => s
    | .error _ => { s with jobs := s.jobs.set index (.ended none) }
  | _ => s

def finish (s : JobDevice) (index : ℕ) (outcome : Except TirBaseError MigrationResult) :
    JobDevice :=
  match s.jobs[index]? with
  | some (.running prepared) =>
    let source := s.handle.migration.localSchemaHash
    let out := s.handle.migration.finishMigration prepared.migrationId prepared.targetSchemaHash
      outcome
    let s := { s with handle := { s.handle with migration := out.2 } }
    match out.1 with
    | .ok .success =>
      let commit : Commit := ⟨prepared.migrationId, prepared.targetSchemaHash⟩
      { s with
        jobs := s.jobs.set index (.committed commit source)
        commits := s.commits ++ [commit]
        quarantinedSince := [] }
    | _ => { s with jobs := s.jobs.set index (.ended none) }
  | _ => s

def read (s : JobDevice) (index : ℕ) : JobDevice :=
  match s.jobs[index]? with
  | some (.committed commit source) =>
    { s with
      jobs := s.jobs.set index
        (.holding commit source s.handle.migration.localSchemaHash s.commits.length) }
  | _ => s

/-- The job copies the hash that it read into the CRDT engine, replays, and ends. -/
def copy (s : JobDevice) (index : ℕ) (env : SchemaMigrationEngine.ReplayEnvironment) :
    JobDevice :=
  match s.jobs[index]? with
  | some (.holding commit source current version) =>
    let replayed := s.handle.migration.replayCorruptedWindows lib.toMigrationLibraries env
      (s.handle.crdt.setCurrentSchema current) source
    { s with
      handle := { s.handle with migration := replayed.1, crdt := replayed.2 }
      jobs := s.jobs.set index (.ended (some commit))
      calls := s.calls ++ [(version, current)] }
  | _ => s

def step (s : JobDevice) : JobOperation → JobDevice
  | .message msg env => s.message lib msg env
  | .quarantine index now => s.quarantine lib index now
  | .prepare index => s.prepare lib index
  | .transformWrite table key value fault =>
    { s with handle := s.handle.transformWrite lib table key value fault }
  | .finish index outcome => s.finish index outcome
  | .read index => s.read index
  | .copy index env => s.copy lib index env

def Quiescent (s : JobDevice) : Prop := ∀ job ∈ s.jobs, ∃ commit, job = .ended commit

def versions (first : SchemaIdentifierHash) (s : JobDevice) : List SchemaIdentifierHash :=
  first :: s.commits.map Commit.target

end JobDevice

/-- The schema clocks, the ledger and the running migration stay, and the DAG keeps its rows. -/
structure SchemaFrame (h h' : CoreHandle) : Prop where
  localSchemaHash : h'.migration.localSchemaHash = h.migration.localSchemaHash
  versionPath : h'.migration.versionPath = h.migration.versionPath
  inProgress : h'.migration.revocationRegistry.inProgress =
    h.migration.revocationRegistry.inProgress
  quarantineLedger : h'.migration.quarantineLedger = h.migration.quarantineLedger
  knownSchemaHash : h'.crdt.knownSchemaHash = h.crdt.knownSchemaHash
  dag : h.crdt.dag.Extends h'.crdt.dag

theorem SchemaFrame.refl (h : CoreHandle) : SchemaFrame h h := ⟨rfl, rfl, rfl, rfl, rfl, .refl _⟩

variable {lib : CoreLibraries}

theorem schemaFrame_receiveDelta {h : CoreHandle} {δ : Delta} {env : InboundEnvironment}
    (hkept : ∀ reason, (h.crdt.apply lib.toEngineLibraries .native δ env.now env.applyFault).1 ≠
      .ok (.quarantined reason)) : SchemaFrame h (h.receiveDelta lib δ env).2 := by
  have hmigration : (h.receiveDelta lib δ env).2.migration = h.migration := by
    have hprojected : ∀ h' : CoreHandle,
        (h'.projectMerged lib δ env.storeFault).migration = h'.migration := by
      intro h'
      unfold projectMerged
      split <;> rfl
    simp only [receiveDelta]
    split
    · rfl
    · exact hprojected _
    · rename_i reason hquarantined
      exact absurd hquarantined (hkept reason)
    · rfl
  refine ⟨by rw [hmigration], by rw [hmigration], by rw [hmigration], by rw [hmigration], ?_, ?_⟩
  · rw [crdt_receiveDelta, CrdtEngine.knownSchemaHash_apply]
  · rw [crdt_receiveDelta]
    exact CrdtEngine.extends_apply .native h.crdt δ env.now env.applyFault

theorem schemaFrame_processRevocation (h : CoreHandle) (δ : RevocationDelta)
    (env : InboundEnvironment) : SchemaFrame h (h.processRevocation lib δ env).2 := by
  have hdag := (retags_processRevocation lib h δ env).forth
  obtain ⟨cce, dag, store, transport, hprocessed⟩ := processRevocation_eq lib h δ env
  rw [hprocessed] at hdag ⊢
  unfold closeGates at hdag ⊢
  split at hdag <;> exact ⟨rfl, rfl, rfl, rfl, rfl, hdag⟩

theorem schemaFrame_revokeMigration (h : CoreHandle) (δ : MigrationRevocationDelta)
    (env : InboundEnvironment) : SchemaFrame h (h.revokeMigration lib δ env) := by
  have hdag := (retags_revokeMigration lib h δ env).forth
  have hprogress : (h.migration.revocationRegistry.applyRevocation lib.toMigrationLibraries δ
      h.migration.revocationThresholdM env.now).2.inProgress =
        h.migration.revocationRegistry.inProgress := by
    unfold RevokedMigrationRegistry.applyRevocation
    dsimp only
    split_ifs <;> rfl
  have hreceived : ∀ m, (h.migration.receiveRevocationDelta lib.toMigrationLibraries δ env.now).2 =
      m → m.localSchemaHash = h.migration.localSchemaHash ∧
        m.versionPath = h.migration.versionPath ∧
        m.revocationRegistry.inProgress = h.migration.revocationRegistry.inProgress ∧
        m.quarantineLedger = h.migration.quarantineLedger := by
    rintro m rfl
    unfold SchemaMigrationEngine.receiveRevocationDelta
    dsimp only
    split
    · exact ⟨rfl, rfl, rfl, rfl⟩
    · split_ifs <;> exact ⟨rfl, rfl, hprogress, rfl⟩
  unfold revokeMigration at hdag ⊢
  dsimp only at hdag ⊢
  split at hdag
  · exact ⟨rfl, rfl, rfl, rfl, rfl, .refl _⟩
  · obtain ⟨hlocal, hpath, hprogress, hledger⟩ := hreceived _ rfl
    exact ⟨hlocal, hpath, hprogress, hledger, rfl, hdag⟩

theorem appends_none (jobs : List Job) : ∃ new, jobs = jobs ++ new ∧
    ∀ job ∈ new, ∃ δ senderDid, job = .waiting δ senderDid :=
  ⟨[], (List.append_nil _).symm, fun _ hjob => absurd hjob List.not_mem_nil⟩

theorem schemaFrame_message (lib : CoreLibraries) (s : JobDevice) (msg : GossipMessage) (env : InboundEnvironment) :
    SchemaFrame s.handle (s.message lib msg env).handle ∧
      (∃ new, (s.message lib msg env).jobs = s.jobs ++ new ∧
        ∀ job ∈ new, ∃ δ senderDid, job = .waiting δ senderDid) ∧
      (s.message lib msg env).commits = s.commits ∧ (s.message lib msg env).calls = s.calls ∧
      (s.message lib msg env).quarantinedSince = s.quarantinedSince := by
  have hjobs := appends_none s.jobs
  cases msg with
  | inboundDelta δ =>
    simp only [JobDevice.message, JobDevice.arrive]
    split
    · exact ⟨.refl _, hjobs, rfl, rfl, rfl⟩
    · rename_i hkept
      exact ⟨schemaFrame_receiveDelta hkept, hjobs, rfl, rfl, rfl⟩
  | inboundMigrationDelta δ =>
    refine ⟨.refl _, ⟨[.waiting δ δ.authorDid], rfl, fun job hjob => ?_⟩, rfl, rfl, rfl⟩
    exact ⟨δ, δ.authorDid, List.mem_singleton.mp hjob⟩
  | inboundDurabilityReceipt receipt =>
    refine ⟨?_, hjobs, rfl, rfl, rfl⟩
    simp only [JobDevice.message, receiveInbound, receiveReceipt]
    split <;> exact ⟨rfl, rfl, rfl, rfl, rfl, .refl _⟩
  | inboundRevocationDelta δ => exact ⟨schemaFrame_processRevocation _ δ env, hjobs, rfl, rfl, rfl⟩
  | inboundMigrationRevocationDelta δ =>
    exact ⟨schemaFrame_revokeMigration _ δ env, hjobs, rfl, rfl, rfl⟩
  | inboundDeltaFragment fragment => exact ⟨.refl _, hjobs, rfl, rfl, rfl⟩
  | relayDelta targetDid δ => exact ⟨.refl _, hjobs, rfl, rfl, rfl⟩

/-- The migration engine before and after a section that commits nothing. -/
structure SameSchema (m m' : SchemaMigrationEngine) : Prop where
  localSchemaHash : m'.localSchemaHash = m.localSchemaHash
  versionPath : m'.versionPath = m.versionPath
  quarantineLedger : m'.quarantineLedger = m.quarantineLedger

/-- A migration is prepared while none runs, for the next version of the path, or nothing of the
engine's clocks changes. -/
theorem prepareMigration_cases (lib : CoreLibraries) (m : SchemaMigrationEngine)
    (δ : MigrationDelta) (senderDid : Did) :
    SameSchema m (m.prepareMigration lib.toMigrationLibraries δ senderDid).2 ∧
      ((∃ prepared, (m.prepareMigration lib.toMigrationLibraries δ senderDid).1 = .ok prepared ∧
          m.revocationRegistry.inProgress = [] ∧
          (m.prepareMigration lib.toMigrationLibraries δ senderDid).2.revocationRegistry.inProgress =
            [prepared.migrationId] ∧
          SchemaMigrationEngine.nextVersion m.versionPath m.localSchemaHash =
            some prepared.targetSchemaHash) ∨
        ∃ e, (m.prepareMigration lib.toMigrationLibraries δ senderDid).1 = .error e ∧
          (m.prepareMigration lib.toMigrationLibraries δ senderDid).2.revocationRegistry.inProgress =
            m.revocationRegistry.inProgress) := by
  unfold SchemaMigrationEngine.prepareMigration
  dsimp only
  split_ifs with hblacklist hrevoked hsignature hhash hbusy
  · exact ⟨⟨rfl, rfl, rfl⟩, .inr ⟨_, rfl, rfl⟩⟩
  · exact ⟨⟨rfl, rfl, rfl⟩, .inr ⟨_, rfl, rfl⟩⟩
  · exact ⟨⟨rfl, rfl, rfl⟩, .inr ⟨_, rfl, rfl⟩⟩
  · exact ⟨⟨rfl, rfl, rfl⟩, .inr ⟨_, rfl, rfl⟩⟩
  · split <;> exact ⟨⟨rfl, rfl, rfl⟩, .inr ⟨_, rfl, rfl⟩⟩
  · split
    · exact ⟨⟨rfl, rfl, rfl⟩, .inr ⟨_, rfl, rfl⟩⟩
    · rename_i hpath
      have hnext : SchemaMigrationEngine.nextVersion m.versionPath m.localSchemaHash =
          some δ.targetSchemaHash := (SchemaMigrationEngine.verifyVersionPath_ok hpath).2
      exact ⟨⟨rfl, rfl, rfl⟩, .inl ⟨_, rfl, not_not.mp hbusy, rfl, hnext⟩⟩

/-- The schema advances to the target or nothing of the clocks changes. -/
theorem finishMigration_cases (m : SchemaMigrationEngine) (migrationId : MigrationId)
    (target : SchemaIdentifierHash) (outcome : Except TirBaseError MigrationResult) :
    let out := m.finishMigration migrationId target outcome
    (out.1 = .ok .success ∧ out.2.localSchemaHash = target ∧ out.2.versionPath = m.versionPath ∧
        out.2.quarantineLedger = m.quarantineLedger) ∨
      (out.1 ≠ .ok .success ∧ SameSchema m out.2) := by
  unfold SchemaMigrationEngine.finishMigration
  dsimp only
  split_ifs
  · exact .inr ⟨by simp, rfl, rfl, rfl⟩
  · split
    · exact .inl ⟨rfl, rfl, rfl, rfl⟩
    · rename_i hnot
      exact .inr ⟨hnot, rfl, rfl, rfl⟩

inductive Effect (lib : CoreLibraries) (s : JobDevice) (op : JobOperation) (s' : JobDevice) : Prop
  | other (frame : SchemaFrame s.handle s'.handle)
      (jobs : ∃ new, s'.jobs = s.jobs ++ new ∧
        ∀ job ∈ new, ∃ δ senderDid, job = .waiting δ senderDid)
      (commits : s'.commits = s.commits) (calls : s'.calls = s.calls)
      (since : s'.quarantinedSince = s.quarantinedSince)
  | stored (index : ℕ) (δ : Delta) (reason : QuarantineReason) (now : ℤ)
      (operation : op = .quarantine index now)
      (refused : s.refused[index]? = some (δ, reason))
      (migration : s'.handle.migration = s.handle.migration.quarantineIncoming
        lib.toMigrationLibraries δ.authorDid (lib.serialiseDelta δ) (some δ.schemaHash) reason now)
      (crdt : s'.handle.crdt = s.handle.crdt) (jobs : s'.jobs = s.jobs)
      (commits : s'.commits = s.commits) (calls : s'.calls = s.calls)
      (since : s'.quarantinedSince = s.quarantinedSince ++ [lib.sha256 (lib.serialiseDelta δ)])
  | dropped (index : ℕ) (δ : MigrationDelta) (senderDid : Did)
      (job : s.jobs[index]? = some (.waiting δ senderDid))
      (frame : SchemaFrame s.handle s'.handle) (jobs : s'.jobs = s.jobs.set index (.ended none))
      (commits : s'.commits = s.commits) (calls : s'.calls = s.calls)
      (since : s'.quarantinedSince = s.quarantinedSince)
  | started (index : ℕ) (δ : MigrationDelta) (senderDid : Did) (prepared : PreparedMigration)
      (job : s.jobs[index]? = some (.waiting δ senderDid))
      (idle : s.handle.migration.revocationRegistry.inProgress = [])
      (next : SchemaMigrationEngine.nextVersion s.handle.migration.versionPath
        s.handle.migration.localSchemaHash = some prepared.targetSchemaHash)
      (busy : s'.handle.migration.revocationRegistry.inProgress = [prepared.migrationId])
      (schema : SameSchema s.handle.migration s'.handle.migration)
      (crdt : s'.handle.crdt = s.handle.crdt)
      (jobs : s'.jobs = s.jobs.set index (.running prepared))
      (commits : s'.commits = s.commits) (calls : s'.calls = s.calls)
      (since : s'.quarantinedSince = s.quarantinedSince)
  | aborted (index : ℕ) (prepared : PreparedMigration)
      (job : s.jobs[index]? = some (.running prepared))
      (schema : SameSchema s.handle.migration s'.handle.migration)
      (crdt : s'.handle.crdt = s.handle.crdt) (jobs : s'.jobs = s.jobs.set index (.ended none))
      (commits : s'.commits = s.commits) (calls : s'.calls = s.calls)
      (since : s'.quarantinedSince = s.quarantinedSince)
  | committed (index : ℕ) (prepared : PreparedMigration)
      (outcome : Except TirBaseError MigrationResult) (operation : op = .finish index outcome)
      (succeeded : (s.handle.migration.finishMigration prepared.migrationId
        prepared.targetSchemaHash outcome).1 = .ok .success)
      (job : s.jobs[index]? = some (.running prepared))
      (advanced : s'.handle.migration.localSchemaHash = prepared.targetSchemaHash)
      (versionPath : s'.handle.migration.versionPath = s.handle.migration.versionPath)
      (ledger : s'.handle.migration.quarantineLedger = s.handle.migration.quarantineLedger)
      (crdt : s'.handle.crdt = s.handle.crdt)
      (jobs : s'.jobs = s.jobs.set index (.committed
        ⟨prepared.migrationId, prepared.targetSchemaHash⟩ s.handle.migration.localSchemaHash))
      (commits : s'.commits = s.commits ++ [⟨prepared.migrationId, prepared.targetSchemaHash⟩])
      (calls : s'.calls = s.calls) (since : s'.quarantinedSince = [])
  | read (index : ℕ) (commit : Commit) (source : SchemaIdentifierHash)
      (job : s.jobs[index]? = some (.committed commit source)) (handle : s'.handle = s.handle)
      (jobs : s'.jobs = s.jobs.set index
        (.holding commit source s.handle.migration.localSchemaHash s.commits.length))
      (commits : s'.commits = s.commits) (calls : s'.calls = s.calls)
      (since : s'.quarantinedSince = s.quarantinedSince)
  | copied (index : ℕ) (commit : Commit) (source current : SchemaIdentifierHash) (version : ℕ)
      (env : SchemaMigrationEngine.ReplayEnvironment) (operation : op = .copy index env)
      (job : s.jobs[index]? = some (.holding commit source current version))
      (schema : SameSchema s.handle.migration s'.handle.migration)
      (progress : s'.handle.migration.revocationRegistry = s.handle.migration.revocationRegistry)
      (knownSchemaHash : s'.handle.crdt.knownSchemaHash = current)
      (dag : s.handle.crdt.dag.Extends s'.handle.crdt.dag)
      (jobs : s'.jobs = s.jobs.set index (.ended (some commit)))
      (commits : s'.commits = s.commits) (calls : s'.calls = s.calls ++ [(version, current)])
      (since : s'.quarantinedSince = s.quarantinedSince)

theorem effect_refl (s : JobDevice) (op : JobOperation) : Effect lib s op s :=
  .other (.refl _) (appends_none s.jobs) rfl rfl rfl

theorem effect_step (s : JobDevice) (op : JobOperation) : Effect lib s op (s.step lib op) := by
  cases op with
  | message msg env =>
    obtain ⟨hframe, hjobs, hcommits, hcalls, hsince⟩ := schemaFrame_message lib s msg env
    exact .other hframe hjobs hcommits hcalls hsince
  | transformWrite table key value fault =>
    exact .other ⟨rfl, rfl, rfl, rfl, rfl, .refl _⟩ (appends_none s.jobs) rfl rfl rfl
  | quarantine index now =>
    simp only [JobDevice.step, JobDevice.quarantine]
    split
    · rename_i δ reason hrefused
      exact .stored index δ reason now rfl hrefused rfl rfl rfl rfl rfl rfl
    · exact effect_refl s _
  | prepare index =>
    simp only [JobDevice.step, JobDevice.prepare]
    split
    · rename_i δ senderDid hjob
      obtain ⟨hschema, hcases⟩ := prepareMigration_cases lib s.handle.migration δ senderDid
      rcases hcases with ⟨prepared, hok, hidle, hbusy, hnext⟩ | ⟨e, herror, hprogress⟩
      · rw [hok]
        exact .started index δ senderDid prepared hjob hidle hnext hbusy hschema rfl rfl rfl rfl rfl
      · have hframe : SchemaFrame s.handle { s.handle with
            migration := (s.handle.migration.prepareMigration lib.toMigrationLibraries δ
              senderDid).2 } :=
          ⟨hschema.localSchemaHash, hschema.versionPath, hprogress, hschema.quarantineLedger, rfl,
            .refl _⟩
        rw [herror]
        split
        · rename_i hok
          cases hok
        · exact .other hframe (appends_none s.jobs) rfl rfl rfl
        · exact .dropped index δ senderDid hjob hframe rfl rfl rfl rfl
    · exact effect_refl s _
  | finish index outcome =>
    simp only [JobDevice.step, JobDevice.finish]
    split
    · rename_i prepared hjob
      rcases finishMigration_cases s.handle.migration prepared.migrationId
        prepared.targetSchemaHash outcome with ⟨hok, hlocal, hpath, hledger⟩ | ⟨hnot, hschema⟩
      · simp only [hok]
        exact .committed index prepared outcome rfl hok hjob hlocal hpath hledger rfl rfl rfl rfl rfl
      · split
        · rename_i hok
          exact absurd hok hnot
        · exact .aborted index prepared hjob hschema rfl rfl rfl rfl rfl
    · exact effect_refl s _
  | read index =>
    simp only [JobDevice.step, JobDevice.read]
    split
    · rename_i commit source hjob
      exact .read index commit source hjob rfl rfl rfl rfl rfl
    · exact effect_refl s _
  | copy index env =>
    simp only [JobDevice.step, JobDevice.copy]
    split
    · rename_i commit source current version hjob
      have hclocks := SchemaMigrationEngine.sameClocks_replayCorruptedWindows
        lib.toMigrationLibraries env s.handle.migration (s.handle.crdt.setCurrentSchema current) source
      exact .copied index commit source current version env rfl hjob
        ⟨hclocks.localSchemaHash, hclocks.versionPath, hclocks.quarantineLedger⟩ hclocks.registry
        hclocks.knownSchemaHash hclocks.dag rfl rfl rfl rfl
    · exact effect_refl s _

theorem job_of_append {jobs new : List Job}
    (hnew : ∀ job ∈ new, ∃ δ senderDid, job = .waiting δ senderDid) {k : ℕ} {job : Job}
    (h : (jobs ++ new)[k]? = some job) :
    jobs[k]? = some job ∨ ∃ δ senderDid, job = .waiting δ senderDid := by
  by_cases hk : k < jobs.length
  · rw [List.getElem?_append_left hk] at h
    exact .inl h
  · rw [List.getElem?_append_right (not_lt.mp hk)] at h
    exact .inr (hnew job (List.mem_of_getElem? h))

theorem getElem?_append_of_some {jobs new : List Job} {k : ℕ} {job : Job}
    (h : jobs[k]? = some job) : (jobs ++ new)[k]? = some job := by
  obtain ⟨hk, -⟩ := List.getElem?_eq_some_iff.mp h
  rw [List.getElem?_append_left hk, h]

theorem job_of_set {jobs : List Job} {index k : ℕ} {new job : Job}
    (h : (jobs.set index new)[k]? = some job) :
    (k = index ∧ job = new) ∨ (k ≠ index ∧ jobs[k]? = some job) := by
  by_cases hk : k = index
  · subst hk
    have hlength : k < (jobs.set k new).length := (List.getElem?_eq_some_iff.mp h).1
    rw [List.length_set] at hlength
    rw [List.getElem?_set_self hlength] at h
    cases h
    exact .inl ⟨rfl, rfl⟩
  · rw [List.getElem?_set_ne (Ne.symm hk)] at h
    exact .inr ⟨hk, h⟩

theorem getElem?_set_of_some {jobs : List Job} {index : ℕ} {job new : Job}
    (h : jobs[index]? = some job) : (jobs.set index new)[index]? = some new :=
  List.getElem?_set_self (List.getElem?_eq_some_iff.mp h).1

def samplePath : DeploymentConfig := { sampleConfig with schemaVersionPath := [10, 11, 12] }

def samplePathHandle : CoreHandle :=
  ((init (sampleCoreLibraries []) samplePath sampleIdentity ⟨.empty, .empty, [], []⟩
    true).toOption).get rfl

def sampleMigration (id : MigrationId) (source target : SchemaIdentifierHash) : GossipMessage :=
  .inboundMigrationDelta ⟨id, CrdtEngine.sampleDid₂, [], source, target, [],
    List.replicate 64 0, (sampleCoreLibraries []).sha256 [], .high, 1⟩

def sampleReplay : SchemaMigrationEngine.ReplayEnvironment := ⟨9, fun _ => none⟩

end TirBase.MigrationJobs
