import TirBase.MigrationRuns

/-! # The walk along the version path

A device prepares migrations, runs their transforms away from the engine, and reports how each of them
ended; revocations and replays come in between. Whatever the order, one migration runs at a time and
the schema goes one version forward. -/
namespace TirBase.SchemaWalk
open SchemaMigrationEngine TransitionRuns

/-- The engine with the migrations handed out and not yet finished, the revocations it accepted, and
the migration whose commit produced the current schema. -/
structure Walk where
  engine : SchemaMigrationEngine
  outstanding : List PreparedMigration
  accepted : List MigrationId
  committedBy : Option MigrationId

inductive WalkOperation
  | prepare (δ : MigrationDelta) (senderDid : Did)
  | finish (prepared : PreparedMigration) (result : Except TirBaseError MigrationResult)
  | revoke (δ : MigrationRevocationDelta) (now : ℤ)
  | replay (env : ReplayEnvironment) (crdt : CrdtEngine) (preMigrationSchema : SchemaIdentifierHash)

def start (m : SchemaMigrationEngine) : Walk := ⟨m, [], [], none⟩

variable (lib : MigrationLibraries)

/-- What was handed out is finished once, with the values it was handed out with. -/
def step (s : Walk) : WalkOperation → Walk
  | .prepare δ senderDid =>
    let out := s.engine.prepareMigration lib δ senderDid
    { s with
      engine := out.2
      outstanding := match out.1 with
        | .ok prepared => prepared :: s.outstanding
        | .error _ => s.outstanding }
  | .finish prepared result =>
    if prepared ∈ s.outstanding then
      let out := s.engine.finishMigration prepared.migrationId prepared.targetSchemaHash result
      { s with
        engine := out.2
        outstanding := s.outstanding.erase prepared
        committedBy := match out.1 with
          | .ok .success => some prepared.migrationId
          | _ => s.committedBy }
    else s
  | .revoke δ now =>
    let out := s.engine.receiveRevocationDelta lib δ now
    { s with
      engine := out.2
      accepted := match out.1 with
        | .ok _ => δ.targetMigrationId :: s.accepted
        | .error _ => s.accepted }
  | .replay env crdt preMigrationSchema =>
    { s with engine := (replayCorruptedWindows lib env s.engine crdt preMigrationSchema).1 }

variable {lib} {m : SchemaMigrationEngine} {δ : MigrationDelta} {senderDid : Did}

/-- Preparing stays at the current version, and marks a migration as running exactly when it hands one
out: the next step of the path, while nothing else runs. -/
theorem prepareMigration_cases (lib : MigrationLibraries) (m : SchemaMigrationEngine)
    (δ : MigrationDelta) (senderDid : Did) :
    let out := m.prepareMigration lib δ senderDid
    out.2.localSchemaHash = m.localSchemaHash ∧ out.2.versionPath = m.versionPath ∧
      out.2.corruptedSchemaWindows = m.corruptedSchemaWindows ∧
      ((∃ e, out.1 = .error e ∧
          out.2.revocationRegistry.inProgress = m.revocationRegistry.inProgress) ∨
        out.1 = .ok ⟨δ.id, δ.targetSchemaHash, δ.transformBytes, 30⟩ ∧
          m.revocationRegistry.inProgress = [] ∧
          out.2.revocationRegistry.inProgress = [δ.id] ∧
          nextVersion m.versionPath m.localSchemaHash = some δ.targetSchemaHash) := by
  intro out
  have hout : out = m.prepareMigration lib δ senderDid := rfl
  unfold prepareMigration at hout
  dsimp only at hout
  split_ifs at hout with hsender hrevoked hsigned hdigest hbusy
  · rw [hout]
    exact ⟨rfl, rfl, rfl, .inl ⟨_, rfl, rfl⟩⟩
  · rw [hout]
    exact ⟨rfl, rfl, rfl, .inl ⟨_, rfl, rfl⟩⟩
  · rw [hout]
    exact ⟨rfl, rfl, rfl, .inl ⟨_, rfl, rfl⟩⟩
  · rw [hout]
    exact ⟨rfl, rfl, rfl, .inl ⟨_, rfl, rfl⟩⟩
  · split at hout
    all_goals
      rw [hout]
      exact ⟨rfl, rfl, rfl, .inl ⟨_, rfl, rfl⟩⟩
  · split at hout
    · rw [hout]
      exact ⟨rfl, rfl, rfl, .inl ⟨_, rfl, rfl⟩⟩
    · rename_i hpath
      rw [hout]
      exact ⟨rfl, rfl, rfl, .inr ⟨rfl, not_not.mp hbusy, rfl, (verifyVersionPath_ok hpath).2⟩⟩

/-- The end of a migration clears its mark; the schema advances exactly on a success of a migration
that is not revoked. -/
theorem finishMigration_cases (m : SchemaMigrationEngine) (migrationId : MigrationId)
    (target : SchemaIdentifierHash) (result : Except TirBaseError MigrationResult) :
    let out := m.finishMigration migrationId target result
    out.2.versionPath = m.versionPath ∧
      out.2.corruptedSchemaWindows = m.corruptedSchemaWindows ∧
      out.2.revocationRegistry.inProgress =
        m.revocationRegistry.inProgress.filter (· ≠ migrationId) ∧
      (result = .ok .success ∧ migrationId ∉ m.revocationRegistry.revoked ∧
          out.1 = .ok .success ∧ out.2.localSchemaHash = target ∨
        ¬(result = .ok .success ∧ migrationId ∉ m.revocationRegistry.revoked) ∧
          out.1 ≠ .ok .success ∧ out.2.localSchemaHash = m.localSchemaHash) := by
  intro out
  have hout : out = m.finishMigration migrationId target result := rfl
  unfold finishMigration at hout
  dsimp only at hout
  split_ifs at hout with hrevoked
  · rw [hout]
    exact ⟨rfl, rfl, rfl, .inr ⟨fun h => h.2 hrevoked, by rintro ⟨⟩, rfl⟩⟩
  · split at hout
    · rw [hout]
      exact ⟨rfl, rfl, rfl, .inl ⟨rfl, hrevoked, rfl, rfl⟩⟩
    · rename_i hfailed
      rw [hout]
      exact ⟨rfl, rfl, rfl, .inr ⟨fun h => hfailed h.1, hfailed, rfl⟩⟩

/-- A revocation of a migration that was seen, with enough managers. -/
def Revocable (lib : MigrationLibraries) (m : SchemaMigrationEngine)
    (δ : MigrationRevocationDelta) : Prop :=
  δ.targetMigrationId ∈ m.revocationRegistry.known ∧
    m.revocationThresholdM ≤
      (RevokedMigrationRegistry.validManagers lib δ.targetMigrationId δ.signatures).length

instance (lib : MigrationLibraries) (m : SchemaMigrationEngine) (δ : MigrationRevocationDelta) :
    Decidable (Revocable lib m δ) :=
  inferInstanceAs (Decidable (_ ∧ _))

theorem receiveRevocationDelta_of_not_revocable {δ : MigrationRevocationDelta} (now : ℤ)
    (h : ¬Revocable lib m δ) : ∃ e, m.receiveRevocationDelta lib δ now = (.error e, m) := by
  unfold receiveRevocationDelta RevokedMigrationRegistry.applyRevocation
  dsimp only
  by_cases hknown : δ.targetMigrationId ∈ m.revocationRegistry.known
  · have hfew : (RevokedMigrationRegistry.validManagers lib δ.targetMigrationId
        δ.signatures).length < m.revocationThresholdM := not_le.mp fun henough => h ⟨hknown, henough⟩
    rw [if_neg (not_not.mpr hknown), if_pos hfew]
    exact ⟨_, rfl⟩
  · rw [if_pos hknown]
    exact ⟨_, rfl⟩

/-- An accepted revocation enters the registry, and opens a window on the current schema when that is
the target noted for the migration. -/
theorem receiveRevocationDelta_of_revocable {δ : MigrationRevocationDelta} (now : ℤ)
    (h : Revocable lib m δ) :
    ∃ halted registry, registry.inProgress = m.revocationRegistry.inProgress ∧
      (∀ id, id ∈ registry.revoked ↔
        id ∈ m.revocationRegistry.revoked ∨ id = δ.targetMigrationId) ∧
      m.receiveRevocationDelta lib δ now = (.ok halted, { m with
        revocationRegistry := registry
        corruptedSchemaWindows :=
          if m.migrationTargets.lookup δ.targetMigrationId = some m.localSchemaHash then
            m.corruptedSchemaWindows.insert m.localSchemaHash
              ((m.corruptedSchemaWindows.lookup m.localSchemaHash).getD [] ++
                [δ.targetMigrationId])
          else m.corruptedSchemaWindows }) := by
  refine ⟨decide (δ.targetMigrationId ∈ m.revocationRegistry.inProgress), { m.revocationRegistry with
    revoked := if δ.targetMigrationId ∈ m.revocationRegistry.revoked
      then m.revocationRegistry.revoked
      else m.revocationRegistry.revoked ++ [δ.targetMigrationId]
    revocationLog := m.revocationRegistry.revocationLog ++
      [⟨δ.targetMigrationId, RevokedMigrationRegistry.validManagers lib δ.targetMigrationId
        δ.signatures, now⟩] }, rfl, fun id => ?_, ?_⟩
  · dsimp only
    split_ifs with hmem
    · exact ⟨.inl, fun hid => hid.elim (fun hid => hid) fun heq => heq ▸ hmem⟩
    · rw [List.mem_append, List.mem_singleton]
  · unfold receiveRevocationDelta RevokedMigrationRegistry.applyRevocation
    dsimp only
    rw [if_neg (not_not.mpr h.1), if_neg (not_lt.mpr h.2)]
    dsimp only
    by_cases htarget : m.migrationTargets.lookup δ.targetMigrationId = some m.localSchemaHash
    · rw [if_pos htarget, if_pos htarget]
    · rw [if_neg htarget, if_neg htarget]

/-- A revocation moves no schema and leaves the running migration marked. -/
theorem frame_receiveRevocationDelta (lib : MigrationLibraries) (m : SchemaMigrationEngine)
    (δ : MigrationRevocationDelta) (now : ℤ) :
    (m.receiveRevocationDelta lib δ now).2.localSchemaHash = m.localSchemaHash ∧
      (m.receiveRevocationDelta lib δ now).2.versionPath = m.versionPath ∧
      (m.receiveRevocationDelta lib δ now).2.revocationRegistry.inProgress =
        m.revocationRegistry.inProgress := by
  by_cases h : Revocable lib m δ
  · obtain ⟨halted, registry, hbusy, -, hout⟩ :=
      receiveRevocationDelta_of_revocable now h
    rw [hout]
    exact ⟨rfl, rfl, hbusy⟩
  · obtain ⟨e, hout⟩ := receiveRevocationDelta_of_not_revocable now h
    rw [hout]
    exact ⟨rfl, rfl, rfl⟩

/-- The version after another one stands right behind its first place on the path. -/
theorem nextVersion_eq_some {path : List SchemaIdentifierHash}
    {current next : SchemaIdentifierHash} :
    nextVersion path current = some next ↔
      ∃ i, path[i]? = some current ∧ (∀ j < i, path[j]? ≠ some current) ∧
        path[i + 1]? = some next := by
  unfold nextVersion
  rw [Option.bind_eq_some_iff]
  refine exists_congr fun i => ?_
  rw [← and_assoc]
  refine and_congr_left fun _ => ?_
  rw [List.idxOf?_eq_some_iff]
  constructor
  · rintro ⟨hlt, heq, hfirst⟩
    refine ⟨List.getElem?_eq_some_iff.mpr ⟨hlt, by simpa using heq⟩, fun j hj hcurrent => ?_⟩
    obtain ⟨hlen, hat⟩ := List.getElem?_eq_some_iff.mp hcurrent
    exact hfirst j hj (by simpa using hat)
  · rintro ⟨hat, hfirst⟩
    obtain ⟨hlt, heq⟩ := List.getElem?_eq_some_iff.mp hat
    refine ⟨hlt, by simpa using heq, fun j hj hcurrent => ?_⟩
    exact hfirst j hj (List.getElem?_eq_some_iff.mpr ⟨hj.trans hlt, by simpa using hcurrent⟩)

/-- Nothing runs and nothing is outstanding, or one migration is: the one marked as running, for the
step that follows the current version. -/
structure OnPath (path : List SchemaIdentifierHash) (s : Walk) : Prop where
  versionPath : s.engine.versionPath = path
  running : s.outstanding = [] ∧ s.engine.revocationRegistry.inProgress = [] ∨
    ∃ prepared, s.outstanding = [prepared] ∧
      s.engine.revocationRegistry.inProgress = [prepared.migrationId] ∧
      nextVersion path s.engine.localSchemaHash = some prepared.targetSchemaHash
  accepted : ∀ id, id ∈ s.accepted ↔ id ∈ s.engine.revocationRegistry.revoked

theorem onPath_start (m : SchemaMigrationEngine)
    {path : List SchemaIdentifierHash} (hpath : m.versionPath = path)
    (hregistry : m.revocationRegistry = .default) : OnPath path (start m) where
  versionPath := hpath
  running := .inl ⟨rfl, by rw [start, hregistry]; rfl⟩
  accepted id := by
    rw [start, hregistry]
    exact Iff.rfl

variable {path : List SchemaIdentifierHash} {s : Walk}

theorem inProgress_length_le (hs : OnPath path s) :
    s.engine.revocationRegistry.inProgress.length ≤ 1 := by
  rcases hs.running with ⟨-, hidle⟩ | ⟨prepared, -, hbusy, -⟩
  · rw [hidle]
    exact Nat.zero_le 1
  · rw [hbusy]
    exact Nat.le_refl 1

/-- What is outstanding is the only thing that runs. -/
theorem running_of_mem (hs : OnPath path s) {prepared : PreparedMigration}
    (hmem : prepared ∈ s.outstanding) : s.outstanding = [prepared] ∧
      s.engine.revocationRegistry.inProgress = [prepared.migrationId] ∧
      nextVersion path s.engine.localSchemaHash = some prepared.targetSchemaHash := by
  rcases hs.running with ⟨hnone, -⟩ | ⟨running, hone, hbusy, hnext⟩
  · rw [hnone] at hmem
    cases hmem
  · rw [hone, List.mem_singleton] at hmem
    subst hmem
    exact ⟨hone, hbusy, hnext⟩

theorem onPath_prepare (hs : OnPath path s) (δ : MigrationDelta) (senderDid : Did) :
    OnPath path (step lib s (.prepare δ senderDid)) := by
  obtain ⟨hlocal, hpath, -, hout⟩ := prepareMigration_cases lib s.engine δ senderDid
  have hrevoked := (MigrationRuns.frame_prepareMigration lib s.engine δ senderDid).1
  refine ⟨hpath.trans hs.versionPath, ?_, fun id => ?_⟩
  · rcases hout with ⟨e, herror, hsame⟩ | ⟨hok, hidle, hmarked, hnext⟩
    · simp only [step, herror, hsame, hlocal]
      exact hs.running
    · refine .inr ⟨⟨δ.id, δ.targetSchemaHash, δ.transformBytes, 30⟩, ?_, hmarked, ?_⟩
      · rcases hs.running with ⟨hnone, -⟩ | ⟨running, -, hbusy, -⟩
        · simp only [step, hok, hnone]
        · rw [hidle] at hbusy
          cases hbusy
      · rw [hs.versionPath] at hnext
        simp only [step, hlocal, hnext]
  · simp only [step, hrevoked]
    exact hs.accepted id

theorem onPath_finish (hs : OnPath path s) (prepared : PreparedMigration)
    (result : Except TirBaseError MigrationResult) :
    OnPath path (step lib s (.finish prepared result)) := by
  by_cases hmem : prepared ∈ s.outstanding
  · obtain ⟨hone, hbusy, -⟩ := running_of_mem hs hmem
    obtain ⟨hpath, -, hcleared, -⟩ := finishMigration_cases s.engine prepared.migrationId
      prepared.targetSchemaHash result
    have hrevoked := (MigrationRuns.frame_finishMigration s.engine prepared.migrationId
      prepared.targetSchemaHash result).1
    simp only [step, if_pos hmem]
    refine ⟨hpath.trans hs.versionPath, .inl ⟨?_, ?_⟩, fun id => ?_⟩
    · simp [hone]
    · simp [hcleared, hbusy]
    · rw [hrevoked]
      exact hs.accepted id
  · simp only [step, if_neg hmem]
    exact hs

theorem onPath_revoke (hs : OnPath path s) (δ : MigrationRevocationDelta) (now : ℤ) :
    OnPath path (step lib s (.revoke δ now)) := by
  obtain ⟨hlocal, hpath, hbusy⟩ := frame_receiveRevocationDelta lib s.engine δ now
  refine ⟨hpath.trans hs.versionPath, ?_, fun id => ?_⟩
  · simp only [step, hlocal, hbusy]
    exact hs.running
  · rcases MigrationRuns.receiveRevocationDelta_cases lib s.engine δ now with
      ⟨e, hout⟩ | ⟨⟨halted, hok⟩, -, hrevoked, -⟩
    · simp only [step, hout]
      exact hs.accepted id
    · simp only [step, hok, hrevoked, List.mem_cons, hs.accepted id]
      exact or_comm

theorem onPath_step (hs : OnPath path s) (op : WalkOperation) : OnPath path (step lib s op) := by
  cases op with
  | prepare δ senderDid => exact onPath_prepare hs δ senderDid
  | finish prepared result => exact onPath_finish hs prepared result
  | revoke δ now => exact onPath_revoke hs δ now
  | replay env crdt preMigrationSchema =>
    have hclocks := sameClocks_replayCorruptedWindows lib env s.engine crdt preMigrationSchema
    refine ⟨hclocks.versionPath.trans hs.versionPath, ?_, fun id => ?_⟩
    · simp only [step, hclocks.registry, hclocks.localSchemaHash]
      exact hs.running
    · simp only [step, hclocks.registry]
      exact hs.accepted id

theorem onPath_run (lib : MigrationLibraries) (hs : OnPath path s) (ops : List WalkOperation) :
    OnPath path (run (step lib) s ops) :=
  invariant_run (fun s op (hs : OnPath path s) => onPath_step hs op) ops hs

/-- An operation that ends a prepared migration with a success, without a revocation before it. -/
def Commits (s : Walk) (op : WalkOperation) (prepared : PreparedMigration) : Prop :=
  op = .finish prepared (.ok .success) ∧ prepared ∈ s.outstanding ∧
    prepared.migrationId ∉ s.accepted

theorem localSchemaHash_step (lib : MigrationLibraries) (hs : OnPath path s) (op : WalkOperation) :
    (∃ prepared, Commits s op prepared ∧
        (step lib s op).engine.localSchemaHash = prepared.targetSchemaHash ∧
        nextVersion path s.engine.localSchemaHash = some prepared.targetSchemaHash) ∨
      (∀ prepared, ¬Commits s op prepared) ∧
        (step lib s op).engine.localSchemaHash = s.engine.localSchemaHash := by
  cases op with
  | prepare δ senderDid =>
    exact .inr ⟨fun _ h => (by cases h.1), (prepareMigration_cases lib s.engine δ senderDid).1⟩
  | finish prepared result =>
    by_cases hmem : prepared ∈ s.outstanding
    · obtain ⟨-, -, hnext⟩ := running_of_mem hs hmem
      obtain ⟨-, -, -, hend⟩ := finishMigration_cases s.engine prepared.migrationId
        prepared.targetSchemaHash result
      simp only [step, if_pos hmem]
      rcases hend with ⟨rfl, hclear, -, hlocal⟩ | ⟨hfailed, -, hlocal⟩
      · exact .inl ⟨prepared, ⟨rfl, hmem, fun h => hclear ((hs.accepted _).mp h)⟩, hlocal, hnext⟩
      · refine .inr ⟨fun other h => ?_, hlocal⟩
        obtain ⟨heq, -, hclear⟩ := h
        cases heq
        exact hfailed ⟨rfl, fun h => hclear ((hs.accepted _).mpr h)⟩
    · simp only [step, if_neg hmem]
      refine .inr ⟨fun other h => ?_, trivial⟩
      obtain ⟨heq, hother, -⟩ := h
      cases heq
      exact hmem hother
  | revoke δ now =>
    exact .inr ⟨fun _ h => (by cases h.1), (frame_receiveRevocationDelta lib s.engine δ now).1⟩
  | replay env crdt preMigrationSchema =>
    exact .inr ⟨fun _ h => (by cases h.1),
      (sameClocks_replayCorruptedWindows lib env s.engine crdt preMigrationSchema).localSchemaHash⟩

/-- From a new engine and through any interleaving of preparations, finishes, revocations and replays,
at most one migration is in progress. The schema changes only when a prepared migration reports a
success and was not revoked before, and then it becomes the target of that migration, which stands
right behind the version it leaves. -/
theorem schema_walks_path (lib : MigrationLibraries) (caPublicKey : KeyBytes)
    (localSchemaHash : SchemaIdentifierHash) (versionPath : List SchemaIdentifierHash)
    (revocationThresholdM : ℕ) (quarantineLedger : List QuarantineEntry)
    (sidecarLedger : List SideCarEntry) (schemaDefinitions : List (SchemaIdentifierHash × Schema))
    (ops : List WalkOperation) (op : WalkOperation) :
    let s := run (step lib) (start (.new caPublicKey localSchemaHash versionPath
      revocationThresholdM quarantineLedger sidecarLedger schemaDefinitions)) ops
    let s' := step lib s op
    s.engine.revocationRegistry.inProgress.length ≤ 1 ∧
      ((∃ prepared, Commits s op prepared ∧
          s'.engine.localSchemaHash = prepared.targetSchemaHash ∧
          ∃ i, versionPath[i]? = some s.engine.localSchemaHash ∧
            (∀ j < i, versionPath[j]? ≠ some s.engine.localSchemaHash) ∧
            versionPath[i + 1]? = some s'.engine.localSchemaHash) ∨
        (∀ prepared, ¬Commits s op prepared) ∧
          s'.engine.localSchemaHash = s.engine.localSchemaHash) := by
  intro s s'
  have hstart : OnPath versionPath (start (.new caPublicKey localSchemaHash versionPath
      revocationThresholdM quarantineLedger sidecarLedger schemaDefinitions)) :=
    onPath_start _ rfl rfl
  have hs : OnPath versionPath s := onPath_run lib hstart ops
  refine ⟨inProgress_length_le hs, ?_⟩
  rcases localSchemaHash_step lib hs op with ⟨prepared, hcommits, hlocal, hnext⟩ | hstays
  · refine .inl ⟨prepared, hcommits, hlocal, nextVersion_eq_some.mp ?_⟩
    rw [hnext, hlocal]
  · exact .inr hstays

end TirBase.SchemaWalk
