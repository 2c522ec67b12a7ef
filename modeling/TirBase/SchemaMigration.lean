import Mathlib
import TirBase.ContaminationEngine
import TirBase.CrdtEngine
import TirBase.WireMessages

/-! # The schema migration engine

A CA-signed migration moves the device one version along the registered path. A revoked migration
is refused for good; when it produced the current schema, a corruption window opens on that
schema and the writes made under it are kept in the Side-Car Ledger for a later replay. -/
namespace TirBase

structure RevocationRecord where
  migrationId : MigrationId
  authorisedBy : List Did
  revokedAt : ℤ
  deriving DecidableEq

structure RevokedMigrationRegistry where
  revoked : List MigrationId
  known : List MigrationId
  revocationLog : List RevocationRecord
  inProgress : List MigrationId
  deriving DecidableEq

inductive ReplayStatus
  | pending
  | replayed
  | conflict (conflictInfo : String)
  | complete
  deriving DecidableEq

/-- A row of `sidecar_ledger`. -/
structure SideCarEntry where
  id : DeltaId
  migrationId : MigrationId
  tableName : String
  deltaBytes : Bytes
  recordedTs : ℤ
  replayStatus : ReplayStatus
  deriving DecidableEq

/-- A row of `quarantine_ledger`. -/
structure QuarantineEntry where
  id : DeltaId
  senderDid : Did
  rawBytes : Bytes
  schemaHash : Option SchemaIdentifierHash
  reason : QuarantineReason
  receivedAt : ℤ
  migrationId : Option MigrationId
  deriving DecidableEq

structure PreparedMigration where
  migrationId : MigrationId
  targetSchemaHash : SchemaIdentifierHash
  transformBytes : Bytes
  timeoutSecs : ℕ
  deriving DecidableEq

inductive MigrationResult
  | success
  | timedOut (timeoutSecs : ℕ)
  | aborted (reason : String)
  | revoked (reason : String)
  deriving DecidableEq

structure SchemaMigrationEngine where
  caPublicKey : KeyBytes
  localSchemaHash : SchemaIdentifierHash
  versionPath : List SchemaIdentifierHash
  revocationRegistry : RevokedMigrationRegistry
  blacklistedSenders : List Did
  revocationThresholdM : ℕ
  quarantineLedger : List QuarantineEntry
  sidecarLedger : List SideCarEntry
  migrationTargets : AList fun _ : MigrationId => SchemaIdentifierHash
  corruptedSchemaWindows : AList fun _ : SchemaIdentifierHash => List MigrationId
  schemaDefinitions : List (SchemaIdentifierHash × Schema)
  deriving DecidableEq

/-- Strict Ed25519 verification, reading a Delta from its JSON text, and the schema that the
grammar reads from the printed form of a definition, or how many errors it finds. -/
structure MigrationLibraries extends EngineLibraries where
  verifyStrict : KeyBytes → Bytes → { s : Bytes // s.length = 64 } → Bool
  parseDelta : Bytes → Except String Delta
  reparseSchema : Schema → Except ℕ Schema

/-- `format!("{:?}", id)` of 32 bytes. -/
def debugDigest (digest : BitVec 256) : String :=
  "[" ++ ", ".intercalate ((digestBytes digest).map fun b => toString b.val) ++ "]"

/-- The bytes whose hash identifies a schema: tables and fields sorted by name. -/
def Schema.hashedBytes (s : Schema) : Bytes :=
  (s.tables.insertionSort fun a b => a.name ≤ b.name).flatMap fun t =>
    utf8Bytes t.name ++ utf8Bytes "|" ++
      ((t.fields.insertionSort fun a b => a.name ≤ b.name).flatMap fun f =>
        utf8Bytes f.name ++ utf8Bytes ":" ++ utf8Bytes f.fieldType.canonicalStr ++
          utf8Bytes ";") ++ utf8Bytes "||"

def Schema.identifierHash (lib : IdentityLibraries) (s : Schema) : SchemaIdentifierHash :=
  lib.sha256 s.hashedBytes

namespace RevokedMigrationRegistry

def default : RevokedMigrationRegistry := ⟨[], [], [], []⟩

/-- Managers with a valid signature over the migration's identifier, each named once. -/
def validManagers (lib : MigrationLibraries) (target : MigrationId) :
    List ManagerSignature → List Did
  | [] => []
  | sig :: sigs =>
    let rest := validManagers lib target sigs
    match lib.resolveDid sig.managerDid with
    | .error _ => rest
    | .ok key =>
      match lib.ed25519VerifyingKey key with
      | .error _ => rest
      | .ok () =>
        if h : sig.signature.length = 64 then
          if lib.verifyStrict key (digestBytes target) ⟨sig.signature, h⟩ then
            sig.managerDid :: rest.filter (· ≠ sig.managerDid)
          else rest
        else rest

def applyRevocation (lib : MigrationLibraries) (r : RevokedMigrationRegistry)
    (δ : MigrationRevocationDelta) (thresholdM : ℕ) (now : ℤ) :
    Except TirBaseError Bool × RevokedMigrationRegistry :=
  if δ.targetMigrationId ∉ r.known then
    (.error (.unknownMigrationHash δ.targetMigrationId.toHex), r)
  else
    let managers := validManagers lib δ.targetMigrationId δ.signatures
    if managers.length < thresholdM then
      (.error (.thresholdNotMet managers.length thresholdM), r)
    else
      (.ok (decide (δ.targetMigrationId ∈ r.inProgress)),
        { r with
          revoked := if δ.targetMigrationId ∈ r.revoked then r.revoked
                     else r.revoked ++ [δ.targetMigrationId]
          revocationLog := r.revocationLog ++ [⟨δ.targetMigrationId, managers, now⟩] })

end RevokedMigrationRegistry

namespace SchemaMigrationEngine

/-- `SchemaMigrationEngine::new`; the two ledgers are the ones the storage holds. -/
def new (caPublicKey : KeyBytes) (localSchemaHash : SchemaIdentifierHash)
    (versionPath : List SchemaIdentifierHash) (revocationThresholdM : ℕ)
    (quarantineLedger : List QuarantineEntry) (sidecarLedger : List SideCarEntry)
    (schemaDefinitions : List (SchemaIdentifierHash × Schema)) : SchemaMigrationEngine :=
  ⟨caPublicKey, localSchemaHash, versionPath, .default, [], revocationThresholdM,
    quarantineLedger, sidecarLedger, ∅, ∅, schemaDefinitions⟩

def isRevoked (m : SchemaMigrationEngine) (id : MigrationId) : Bool :=
  decide (id ∈ m.revocationRegistry.revoked)

/-- An unreleased entry stamped with the current schema; a table plays no part in it. -/
def isSchemaQuarantined (m : SchemaMigrationEngine) : Bool :=
  m.quarantineLedger.any fun e =>
    decide (e.schemaHash = some m.localSchemaHash) && e.migrationId.isNone

def nextVersion (versionPath : List SchemaIdentifierHash) (current : SchemaIdentifierHash) :
    Option SchemaIdentifierHash :=
  (versionPath.idxOf? current).bind fun i => versionPath[i + 1]?

variable (lib : MigrationLibraries)

def verifyCaSignature (m : SchemaMigrationEngine) (δ : MigrationDelta) : Bool :=
  match lib.ed25519VerifyingKey m.caPublicKey with
  | .error _ => false
  | .ok () =>
    if h : δ.caSignature.length = 64 then
      lib.verifyStrict m.caPublicKey δ.transformBytes ⟨δ.caSignature, h⟩
    else false

def versionPathMismatch (m : SchemaMigrationEngine) (source expectedFrom : SchemaIdentifierHash) :
    TirBaseError :=
  .versionPathMismatch m.localSchemaHash.toHex source.toHex
    ((nextVersion m.versionPath expectedFrom).getD 0).toHex

/-- The migration starts at the current schema, ends at the next version, and the definition
registered for that version reads back with its own hash. -/
def verifyVersionPath (m : SchemaMigrationEngine) (δ : MigrationDelta) :
    Except TirBaseError Unit :=
  if δ.sourceSchemaHash ≠ m.localSchemaHash then
    .error (m.versionPathMismatch δ.sourceSchemaHash m.localSchemaHash)
  else if nextVersion m.versionPath δ.sourceSchemaHash ≠ some δ.targetSchemaHash then
    .error (m.versionPathMismatch δ.sourceSchemaHash δ.sourceSchemaHash)
  else
    match m.schemaDefinitions.lookup δ.targetSchemaHash with
    | none => .ok ()
    | some schema =>
      match lib.reparseSchema schema with
      | .ok reparsed =>
        if reparsed.identifierHash lib.toIdentityLibraries ≠ δ.targetSchemaHash then
          .error (m.versionPathMismatch δ.sourceSchemaHash δ.sourceSchemaHash)
        else .ok ()
      | .error errors =>
        let target := δ.targetSchemaHash.toHex
        .error (.authorisationFailed s!"target schema definition for hash {target} failed parser validation during pre-migration check: {errors} error(s)")

theorem verifyVersionPath_ok {lib : MigrationLibraries} {m : SchemaMigrationEngine}
    {δ : MigrationDelta} (h : m.verifyVersionPath lib δ = .ok ()) :
    δ.sourceSchemaHash = m.localSchemaHash ∧
      nextVersion m.versionPath m.localSchemaHash = some δ.targetSchemaHash := by
  unfold verifyVersionPath at h
  split_ifs at h with hsource htarget
  have hsame : δ.sourceSchemaHash = m.localSchemaHash := not_not.mp hsource
  rw [← hsame]
  exact ⟨rfl, not_not.mp htarget⟩

def blacklist (m : SchemaMigrationEngine) (senderDid : Did) : SchemaMigrationEngine :=
  { m with
    blacklistedSenders :=
      if senderDid ∈ m.blacklistedSenders then m.blacklistedSenders
      else m.blacklistedSenders ++ [senderDid] }

def recordKnown (m : SchemaMigrationEngine) (δ : MigrationDelta) : SchemaMigrationEngine :=
  { m with
    revocationRegistry := { m.revocationRegistry with
      known := if δ.id ∈ m.revocationRegistry.known then m.revocationRegistry.known
               else m.revocationRegistry.known ++ [δ.id] }
    migrationTargets := m.migrationTargets.insert δ.id δ.targetSchemaHash }

def revokedMigrationError (id : MigrationId) : TirBaseError :=
  let shown := debugDigest id
  .authorisationFailed s!"migration {shown} has been revoked"

def prepareMigration (m : SchemaMigrationEngine) (δ : MigrationDelta) (senderDid : Did) :
    Except TirBaseError PreparedMigration × SchemaMigrationEngine :=
  if senderDid ∈ m.blacklistedSenders then
    (.error (.authorisationFailed s!"sender {senderDid} is blacklisted"), m)
  else if δ.id ∈ m.revocationRegistry.revoked then (.error (revokedMigrationError δ.id), m)
  else if m.verifyCaSignature lib δ = false then
    (.error (.migrationCaSignatureInvalid δ.id.toHex), m.blacklist senderDid)
  else if lib.sha256 δ.transformBytes ≠ δ.transformSha256 then
    (.error (.migrationHashMismatch δ.id.toHex), m.blacklist senderDid)
  else
    let m := m.recordKnown δ
    match m.verifyVersionPath lib δ with
    | .error e => (.error e, m)
    | .ok () =>
      if m.revocationRegistry.inProgress ≠ [] then
        (.error (.migrationInProgress δ.id.toHex), m)
      else
        (.ok ⟨δ.id, δ.targetSchemaHash, δ.transformBytes, 30⟩,
          { m with revocationRegistry := { m.revocationRegistry with inProgress := [δ.id] } })

/-- The revocation is looked up again before the schema advances. -/
def finishMigration (m : SchemaMigrationEngine) (migrationId : MigrationId)
    (targetSchemaHash : SchemaIdentifierHash) (result : Except TirBaseError MigrationResult) :
    Except TirBaseError MigrationResult × SchemaMigrationEngine :=
  let m := { m with
    revocationRegistry := { m.revocationRegistry with
      inProgress := m.revocationRegistry.inProgress.filter (· ≠ migrationId) } }
  if migrationId ∈ m.revocationRegistry.revoked then
    let hex := migrationId.toHex
    (.ok (.revoked s!"migration {hex} revoked while in progress"), m)
  else
    match result with
    | .ok .success => (.ok .success, { m with localSchemaHash := targetSchemaHash })
    | result => (result, m)

/-- `receive_revocation_delta`. -/
def receiveRevocationDelta (m : SchemaMigrationEngine) (δ : MigrationRevocationDelta) (now : ℤ) :
    Except TirBaseError Bool × SchemaMigrationEngine :=
  let out := m.revocationRegistry.applyRevocation lib δ m.revocationThresholdM now
  match out.1 with
  | .error e => (.error e, m)
  | .ok halted =>
    let m := { m with revocationRegistry := out.2 }
    if m.migrationTargets.lookup δ.targetMigrationId = some m.localSchemaHash then
      let ids := (m.corruptedSchemaWindows.lookup m.localSchemaHash).getD []
      (.ok halted, { m with
        corruptedSchemaWindows := m.corruptedSchemaWindows.insert m.localSchemaHash
          (ids ++ [δ.targetMigrationId]) })
    else (.ok halted, m)

/-- `INSERT OR IGNORE` under the hash of the bytes. -/
def quarantineIncoming (m : SchemaMigrationEngine) (senderDid : Did) (rawBytes : Bytes)
    (schemaHash : Option SchemaIdentifierHash) (reason : QuarantineReason) (receivedAt : ℤ) :
    SchemaMigrationEngine :=
  let id := lib.sha256 rawBytes
  if id ∈ m.quarantineLedger.map QuarantineEntry.id then m
  else
    { m with
      quarantineLedger := m.quarantineLedger ++
        [⟨id, senderDid, rawBytes, schemaHash, reason, receivedAt, none⟩] }

def activeCorruptionMigration (m : SchemaMigrationEngine) : Option MigrationId :=
  (m.corruptedSchemaWindows.lookup m.localSchemaHash).bind List.head?

/-- `i64::to_le_bytes`. -/
def timestampBytes (ts : ℤ) : Bytes :=
  (List.range 8).map fun i => Fin.ofNat 256 ((ts % 2 ^ 64).toNat / 256 ^ i)

def recordCorruptedWindowWrite (m : SchemaMigrationEngine) (table : String) (deltaBytes : Bytes)
    (recordedTs : ℤ) : Option DeltaId × SchemaMigrationEngine :=
  match m.activeCorruptionMigration with
  | none => (none, m)
  | some migrationId =>
    let id := lib.sha256 (deltaBytes ++ timestampBytes recordedTs)
    (some id,
      if id ∈ m.sidecarLedger.map SideCarEntry.id then m
      else
        { m with
          sidecarLedger := m.sidecarLedger ++
            [⟨id, migrationId, table, deltaBytes, recordedTs, .pending⟩] })

def loadEntriesOrdered (m : SchemaMigrationEngine) (migrationId : MigrationId) :
    List SideCarEntry :=
  (m.sidecarLedger.filter fun e => e.migrationId = migrationId).insertionSort
    fun a b => a.recordedTs ≤ b.recordedTs

def updateEntryStatus (m : SchemaMigrationEngine) (id : DeltaId) (status : ReplayStatus) :
    SchemaMigrationEngine :=
  { m with
    sidecarLedger := m.sidecarLedger.map fun e =>
      if e.id = id then { e with replayStatus := status } else e }

/-- `{:?}` of a quarantine reason. -/
def debugReason : QuarantineReason → String
  | .breakingSchemaChange => "BreakingSchemaChange"
  | .unknownSchemaHash => "UnknownSchemaHash"
  | .missingOrMalformedHash => "MissingOrMalformedHash"

/-- The time of a replay and the storage fault that each entry meets in the DAG. -/
structure ReplayEnvironment where
  now : ℤ
  fault : DeltaId → DagFault

/-- Apply the Delta of an entry; anything but a merge is noted as a conflict. -/
def replayEntry (env : ReplayEnvironment) (engine : CrdtEngine) (entry : SideCarEntry) :
    ReplayStatus × Option DeltaId × CrdtEngine :=
  match lib.parseDelta entry.deltaBytes with
  | .error e => (.conflict s!"deserialise error: {e}", none, engine)
  | .ok δ =>
    match engine.apply lib.toEngineLibraries .native δ env.now (env.fault entry.id) with
    | (.ok (.merged _), engine) => (.replayed, some δ.id, engine)
    | (.ok (.quarantined reason), engine) =>
      let shown := debugReason reason
      (.conflict s!"quarantined during replay: {shown}", none, engine)
    | (.ok (.rejected reason), engine) =>
      (.conflict s!"rejected during replay: {reason}", none, engine)
    | (.error err, engine) =>
      let shown := err.message
      (.conflict s!"engine error during replay: {shown}", none, engine)

/-- Replay entries one after the other; the Deltas merged are listed. -/
def replayEntries (env : ReplayEnvironment) (m : SchemaMigrationEngine) (engine : CrdtEngine) :
    List SideCarEntry → List DeltaId × SchemaMigrationEngine × CrdtEngine
  | [] => ([], m, engine)
  | entry :: entries =>
    let out := replayEntry lib env engine entry
    let rest := replayEntries env (m.updateEntryStatus entry.id out.1) out.2.2 entries
    (out.2.1.toList ++ rest.1, rest.2)

/-- `replay_sidecar`: when every entry was replayed they are marked complete and tagged. -/
def replaySidecar (env : ReplayEnvironment) (m : SchemaMigrationEngine) (engine : CrdtEngine)
    (migrationId : MigrationId) : SchemaMigrationEngine × CrdtEngine :=
  let entries := m.loadEntriesOrdered migrationId
  let out := replayEntries lib env m engine entries
  if entries ≠ [] ∧ out.1.length = entries.length then
    ({ out.2.1 with
        sidecarLedger := out.2.1.sidecarLedger.map fun e =>
          if e.migrationId = migrationId then { e with replayStatus := .complete } else e },
      { out.2.2 with
        dag := out.1.foldl (fun dag id => dag.appendTag id (.replayComplete migrationId))
          out.2.2.dag })
  else out.2

/-- Close the window of the schema that was left and replay what it kept. -/
def replayCorruptedWindows (env : ReplayEnvironment) (m : SchemaMigrationEngine)
    (engine : CrdtEngine) (preMigrationSchema : SchemaIdentifierHash) :
    SchemaMigrationEngine × CrdtEngine :=
  let migrationIds := (m.corruptedSchemaWindows.lookup preMigrationSchema).getD []
  let m := { m with
    corruptedSchemaWindows := m.corruptedSchemaWindows.erase preMigrationSchema }
  migrationIds.foldl (fun s id => replaySidecar lib env s.1 s.2 id) (m, engine)

theorem replayEntry_engine (env : ReplayEnvironment) (engine : CrdtEngine)
    (entry : SideCarEntry) :
    (replayEntry lib env engine entry).2.2.knownSchemaHash = engine.knownSchemaHash ∧
      engine.dag.Extends (replayEntry lib env engine entry).2.2.dag := by
  unfold replayEntry
  split
  · exact ⟨rfl, .refl _⟩
  · rename_i δ hparse
    have happlied : (engine.apply lib.toEngineLibraries .native δ env.now
          (env.fault entry.id)).2.knownSchemaHash = engine.knownSchemaHash ∧
        engine.dag.Extends (engine.apply lib.toEngineLibraries .native δ env.now
          (env.fault entry.id)).2.dag :=
      ⟨CrdtEngine.knownSchemaHash_apply .native engine δ env.now (env.fault entry.id),
        CrdtEngine.extends_apply .native engine δ env.now (env.fault entry.id)⟩
    split <;> rename_i happly <;> rw [happly] at happlied <;> exact happlied

/-- The engines before and after a replay: the schema clocks and the running migration stay. -/
structure SameClocks (m m' : SchemaMigrationEngine) (e e' : CrdtEngine) : Prop where
  localSchemaHash : m'.localSchemaHash = m.localSchemaHash
  versionPath : m'.versionPath = m.versionPath
  registry : m'.revocationRegistry = m.revocationRegistry
  quarantineLedger : m'.quarantineLedger = m.quarantineLedger
  knownSchemaHash : e'.knownSchemaHash = e.knownSchemaHash
  dag : e.dag.Extends e'.dag

theorem SameClocks.refl (m : SchemaMigrationEngine) (e : CrdtEngine) : SameClocks m m e e :=
  ⟨rfl, rfl, rfl, rfl, rfl, .refl _⟩

theorem SameClocks.trans {m m' m'' : SchemaMigrationEngine} {e e' e'' : CrdtEngine}
    (h : SameClocks m m' e e') (h' : SameClocks m' m'' e' e'') : SameClocks m m'' e e'' :=
  ⟨h'.localSchemaHash.trans h.localSchemaHash, h'.versionPath.trans h.versionPath,
    h'.registry.trans h.registry, h'.quarantineLedger.trans h.quarantineLedger,
    h'.knownSchemaHash.trans h.knownSchemaHash, h.dag.trans h'.dag⟩

theorem sameClocks_replayEntries (env : ReplayEnvironment) (entries : List SideCarEntry)
    (m : SchemaMigrationEngine) (engine : CrdtEngine) :
    SameClocks m (replayEntries lib env m engine entries).2.1 engine
      (replayEntries lib env m engine entries).2.2 := by
  induction entries generalizing m engine with
  | nil => exact .refl m engine
  | cons entry entries ih =>
    have hentry : SameClocks m (m.updateEntryStatus entry.id (replayEntry lib env engine entry).1)
        engine (replayEntry lib env engine entry).2.2 :=
      ⟨rfl, rfl, rfl, rfl, (replayEntry_engine lib env engine entry).1,
        (replayEntry_engine lib env engine entry).2⟩
    exact hentry.trans (ih _ _)

theorem sameClocks_replaySidecar (env : ReplayEnvironment) (m : SchemaMigrationEngine)
    (engine : CrdtEngine) (migrationId : MigrationId) :
    SameClocks m (replaySidecar lib env m engine migrationId).1 engine
      (replaySidecar lib env m engine migrationId).2 := by
  have hentries := sameClocks_replayEntries lib env (m.loadEntriesOrdered migrationId) m engine
  unfold replaySidecar
  dsimp only
  split_ifs
  · exact hentries.trans ⟨rfl, rfl, rfl, rfl, rfl,
      (ChangesetDag.retags_foldl_appendTag _ _ _).forth⟩
  · exact hentries

theorem sameClocks_replayCorruptedWindows (env : ReplayEnvironment) (m : SchemaMigrationEngine)
    (engine : CrdtEngine) (preMigrationSchema : SchemaIdentifierHash) :
    SameClocks m (replayCorruptedWindows lib env m engine preMigrationSchema).1 engine
      (replayCorruptedWindows lib env m engine preMigrationSchema).2 := by
  have hfold : ∀ (ids : List MigrationId) (m : SchemaMigrationEngine) (engine : CrdtEngine),
      SameClocks m (ids.foldl (fun s id => replaySidecar lib env s.1 s.2 id) (m, engine)).1 engine
        (ids.foldl (fun s id => replaySidecar lib env s.1 s.2 id) (m, engine)).2 := by
    intro ids
    induction ids with
    | nil => exact fun m engine => .refl m engine
    | cons id ids ih =>
      exact fun m engine => (sameClocks_replaySidecar lib env m engine id).trans (ih _ _)
  have hclosed : SameClocks m { m with
      corruptedSchemaWindows := m.corruptedSchemaWindows.erase preMigrationSchema } engine engine :=
    ⟨rfl, rfl, rfl, rfl, rfl, .refl _⟩
  exact hclosed.trans (hfold _ _ engine)

end SchemaMigrationEngine

end TirBase
