import TirBase.DeviceRuns

/-! # What a restart forgets

Revoked devices, revoked migrations, the schema migrated to, the corruption windows and the
outbound queue are in memory only, so a restart keeps them exactly when there are none. -/
namespace TirBase.DecisionRestart
open CoreHandle DeviceRuns Capability TransitionRuns

variable {lib : CoreLibraries} {config : DeploymentConfig}

/-- A migration is refused because it was revoked, whoever sends it. -/
def RefusesRevoked (lib : CoreLibraries) (m : SchemaMigrationEngine) (id : MigrationId) : Prop :=
  ∀ (δ : MigrationDelta) (senderDid : Did), δ.id = id → senderDid ∉ m.blacklistedSenders →
    (m.prepareMigration lib.toMigrationLibraries δ senderDid).1 =
      .error (SchemaMigrationEngine.revokedMigrationError id)

def OpenWindow (m : SchemaMigrationEngine) (hash : SchemaIdentifierHash)
    (ids : List MigrationId) : Prop :=
  m.corruptedSchemaWindows.lookup hash = some ids ∧
    ∃ entry ∈ m.sidecarLedger, entry.migrationId ∈ ids ∧ entry.replayStatus = .pending

/-- What was decided before a restart still holds after it. -/
structure DecisionsKept (lib : CoreLibraries) (before after : CoreHandle) : Prop where
  revokedAuthors : ∀ did ∈ before.crdt.revokedDids, ∀ δ : Delta, δ.authorDid = did →
    ∃ reason, after.crdt.gate lib.toEngineLibraries δ = .reject .revokedAuthor reason
  ioGate : before.capability.trustLevel = .revoked → after.capability.ensureLocalTrustAllowsIo =
    .error (.authorisationFailed "device is REVOKED")
  revokedMigrations : ∀ id ∈ before.migration.revocationRegistry.revoked,
    RefusesRevoked lib after.migration id
  migrationSchema : after.migration.localSchemaHash = before.migration.localSchemaHash
  engineSchema : after.crdt.knownSchemaHash = before.crdt.knownSchemaHash
  windows : ∀ hash ids, OpenWindow before.migration hash ids →
    after.migration.corruptedSchemaWindows.lookup hash = some ids
  queue : ∀ id ∈ before.durability.cloudQueue.ids, id ∈ after.durability.cloudQueue.ids

/-- The device has decided nothing yet: it is on the schema it starts with, and nothing is
revoked, kept for a replay or queued. -/
structure NothingToForget (lib : CoreLibraries) (config : DeploymentConfig) (h : CoreHandle) :
    Prop where
  noRevokedAuthor : h.crdt.revokedDids = []
  notRevoked : h.capability.trustLevel ≠ .revoked
  noRevokedMigration : h.migration.revocationRegistry.revoked = []
  migrationSchema : h.migration.localSchemaHash = migrationLocalSchemaHash lib config
  engineSchema : h.crdt.knownSchemaHash = startSchemaHash lib config
  noOpenWindow : ∀ hash ids, ¬OpenWindow h.migration hash ids
  emptyQueue : h.durability.cloudQueue.ids = []

def RestartsForgetNothing (lib : CoreLibraries) (config : DeploymentConfig) (h : CoreHandle) :
    DeviceOperation → Prop
  | .restart _ => NothingToForget lib config h
  | _ => True

theorem signatureGate_ne_revokedAuthor (lib : EngineLibraries) (δ : Delta) (adopt : Bool)
    (reason : String) : CrdtEngine.signatureGate lib δ adopt ≠ .reject .revokedAuthor reason := by
  unfold CrdtEngine.signatureGate
  split_ifs
  · simp
  · split
    · simp
    · split <;> simp

theorem gate_ne_revokedAuthor {lib : EngineLibraries} {e : CrdtEngine} {δ : Delta}
    (h : δ.authorDid ∉ e.revokedDids) (reason : String) :
    e.gate lib δ ≠ .reject .revokedAuthor reason := by
  unfold CrdtEngine.gate
  rw [if_neg h]
  split
  · exact signatureGate_ne_revokedAuthor lib δ false reason
  · exact signatureGate_ne_revokedAuthor lib δ true reason
  · simp
  · simp

/-- A migration that the CA did not sign is refused for that, unless it is known to be revoked. -/
theorem prepareMigration_unsigned {m : SchemaMigrationEngine} {δ : MigrationDelta}
    {senderDid : Did} (hsender : senderDid ∉ m.blacklistedSenders)
    (hrevoked : δ.id ∉ m.revocationRegistry.revoked) (hsignature : δ.caSignature = []) :
    (m.prepareMigration lib.toMigrationLibraries δ senderDid).1 =
      .error (.migrationCaSignatureInvalid δ.id.toHex) := by
  have hunsigned : m.verifyCaSignature lib.toMigrationLibraries δ = false := by
    unfold SchemaMigrationEngine.verifyCaSignature
    split
    · rfl
    · simp [hsignature]
  simp only [SchemaMigrationEngine.prepareMigration, if_neg hsender, if_neg hrevoked, hunsigned,
    if_true]

theorem not_refusesRevoked {m : SchemaMigrationEngine} (hregistry : m.revocationRegistry = .default)
    (hblacklist : m.blacklistedSenders = []) (id : MigrationId) : ¬RefusesRevoked lib m id := by
  intro hrefuses
  have hsender : "" ∉ m.blacklistedSenders := by simp [hblacklist]
  have hrevoked : id ∉ m.revocationRegistry.revoked := by
    simp [hregistry, RevokedMigrationRegistry.default]
  have hrefused := hrefuses ⟨id, "", [], 0, 0, [], [], 0, .low, 0⟩ "" rfl hsender
  rw [prepareMigration_unsigned hsender hrevoked rfl] at hrefused
  cases hrefused

/-- A start keeps what was decided exactly when there is nothing to keep. -/
theorem decisionsKept_iff {before after : CoreHandle}
    (hstarted : Started lib config before.identity before.storage after) :
    DecisionsKept lib before after ↔ NothingToForget lib config before := by
  constructor
  · intro hkept
    refine ⟨?_, ?_, ?_, ?_, ?_, ?_, ?_⟩
    · refine List.eq_nil_iff_forall_not_mem.mpr fun did hdid => ?_
      obtain ⟨reason, hgate⟩ := hkept.revokedAuthors did hdid
        ⟨0, did, [], 0, [], .low, [], [], 0, 0⟩ rfl
      refine gate_ne_revokedAuthor ?_ reason hgate
      simp [hstarted.engine.revokedDids]
    · intro hrevoked
      have hclosed := ensureLocalTrustAllowsIo_iff.mp (hkept.ioGate hrevoked)
      rw [hstarted.trust] at hclosed
      cases hclosed
    · refine List.eq_nil_iff_forall_not_mem.mpr fun id hid => ?_
      exact not_refusesRevoked hstarted.registry hstarted.blacklist id
        (hkept.revokedMigrations id hid)
    · rw [← hkept.migrationSchema, hstarted.schema]
    · rw [← hkept.engineSchema, hstarted.engine.knownSchemaHash]
    · intro hash ids hwindow
      have hopen := hkept.windows hash ids hwindow
      rw [hstarted.windows] at hopen
      cases hopen
    · refine List.eq_nil_iff_forall_not_mem.mpr fun id hid => ?_
      have hqueued := hkept.queue id hid
      rw [hstarted.durability] at hqueued
      cases hqueued
  · intro hnothing
    refine ⟨?_, ?_, ?_, ?_, ?_, ?_, ?_⟩
    · simp [hnothing.noRevokedAuthor]
    · exact fun hrevoked => absurd hrevoked hnothing.notRevoked
    · simp [hnothing.noRevokedMigration]
    · rw [hstarted.schema, hnothing.migrationSchema]
    · rw [hstarted.engine.knownSchemaHash, hnothing.engineSchema]
    · exact fun hash ids hwindow => absurd hwindow (hnothing.noOpenWindow hash ids)
    · simp [hnothing.emptyQueue]

/-- Through a run of a device, every restart keeps what was decided before it exactly when each is
taken with nothing to forget. -/
theorem restarts_keep_decisions_iff (lib : CoreLibraries) (biscuit : BiscuitLibrary)
    (config : DeploymentConfig) (identity : Identity) (storage : Storage) (started : Bool)
    (h : CoreHandle) (hinit : init lib config identity storage started = .ok h)
    (ops : List DeviceOperation) :
    (∀ earlier again rest, ops = earlier ++ .restart again :: rest →
      DecisionsKept lib (run (deviceStep lib biscuit config) h earlier)
        (run (deviceStep lib biscuit config) h (earlier ++ [.restart again]))) ↔
      Guarded (deviceStep lib biscuit config) (RestartsForgetNothing lib config) h ops := by
  have hkept : ∀ earlier again, DecisionsKept lib (run (deviceStep lib biscuit config) h earlier)
      (run (deviceStep lib biscuit config) h (earlier ++ [.restart again])) ↔
        NothingToForget lib config (run (deviceStep lib biscuit config) h earlier) := by
    intro earlier again
    rw [run_append]
    exact decisionsKept_iff (started_restart hinit _ again)
  rw [guarded_iff_splits]
  constructor
  · intro hall earlier op rest hsplit
    cases op with
    | restart again => exact (hkept earlier again).mp (hall earlier again rest hsplit)
    | _ => trivial
  · intro hguard earlier again rest hsplit
    exact (hkept earlier again).mpr (hguard earlier _ rest hsplit)

def calmInbound (now : ℤ) : InboundEnvironment :=
  ⟨now, none, none, 3, .ok false, false, false, fun _ => ⟨1, 2, now, none, none, fun _ => false⟩⟩

def sampleBefore : List DeviceOperation :=
  [.write "items" "k" .null (calmWrite 1),
    .initiateRevocation CrdtEngine.sampleDid₂ "token" (calmInbound 2)]

def sampleStep : CoreHandle → DeviceOperation → CoreHandle :=
  deviceStep (sampleCoreLibraries []) sampleBiscuits sampleConfig

theorem init_sample : init (sampleCoreLibraries []) sampleConfig sampleIdentity
    ⟨.empty, .empty, [], []⟩ true = .ok (sampleHandle ⟨.empty, .empty, [], []⟩) := rfl

/-- The device forgets the revocation and the Delta that waits for the cloud. -/
theorem restart_forgets :
    let before := run sampleStep (sampleHandle ⟨.empty, .empty, [], []⟩) sampleBefore
    let after := run sampleStep (sampleHandle ⟨.empty, .empty, [], []⟩)
      (sampleBefore ++ [.restart true])
    before.crdt.revokedDids = [CrdtEngine.sampleDid₂] ∧
      before.durability.cloudQueue.ids.length = 1 ∧
      after.crdt.revokedDids = [] ∧ after.durability.cloudQueue.ids = [] ∧
      ¬DecisionsKept (sampleCoreLibraries []) before after := by
  intro before after
  have hrevoked : before.crdt.revokedDids = [CrdtEngine.sampleDid₂] := by decide +kernel
  have hforgotten : after.crdt.revokedDids = [] := by decide +kernel
  refine ⟨hrevoked, by decide +kernel, hforgotten, by decide +kernel, fun hkept => ?_⟩
  have hdid : CrdtEngine.sampleDid₂ ∈ before.crdt.revokedDids := by simp [hrevoked]
  obtain ⟨reason, hgate⟩ := hkept.revokedAuthors _ hdid
    ⟨0, CrdtEngine.sampleDid₂, [], 0, [], .low, [], [], 0, 0⟩ rfl
  exact gate_ne_revokedAuthor (by simp [hforgotten]) reason hgate

/-- The first restart forgets nothing; the one after the write and the revocation does. -/
theorem restarts_keep_decisions_iff_revoked :
    ¬∀ earlier again rest,
      .restart false :: sampleBefore ++ [.restart true] = earlier ++ .restart again :: rest →
        DecisionsKept (sampleCoreLibraries [])
          (run sampleStep (sampleHandle ⟨.empty, .empty, [], []⟩) earlier)
          (run sampleStep (sampleHandle ⟨.empty, .empty, [], []⟩)
            (earlier ++ [.restart again])) := by
  intro hkept
  have hguard := (restarts_keep_decisions_iff (sampleCoreLibraries []) sampleBiscuits sampleConfig
    sampleIdentity ⟨.empty, .empty, [], []⟩ true _ init_sample _).mp hkept
  have hrevoked : (run sampleStep (sampleHandle ⟨.empty, .empty, [], []⟩)
      (.restart false :: sampleBefore)).crdt.revokedDids = [CrdtEngine.sampleDid₂] := by
    decide +kernel
  rw [guarded_append] at hguard
  have hnothing : NothingToForget (sampleCoreLibraries []) sampleConfig _ := hguard.2.1
  have hnone := hnothing.noRevokedAuthor
  change (run sampleStep (sampleHandle ⟨.empty, .empty, [], []⟩)
    (.restart false :: sampleBefore)).crdt.revokedDids = [] at hnone
  rw [hrevoked] at hnone
  cases hnone

end TirBase.DecisionRestart
