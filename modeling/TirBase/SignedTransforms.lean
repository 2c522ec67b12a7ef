import TirBase.CoreHandle
import TirBase.MigrationRuns

/-! # What the CA signs

The CA signs the bytes of a transform. Which step of the path they run at is decided by the device:
the one from its current version to the next. -/
namespace TirBase.SignedTransforms
open CrdtEngine MigrationRuns SchemaMigrationEngine TransitionRuns

/-- A sender is blacklisted for bytes that the CA did not sign or that have another hash. -/
theorem mem_blacklistedSenders (lib : MigrationLibraries) (m : SchemaMigrationEngine)
    (δ : MigrationDelta) (senderDid did : Did) :
    did ∈ (m.prepareMigration lib δ senderDid).2.blacklistedSenders ↔
      did ∈ m.blacklistedSenders ∨ did = senderDid ∧ δ.id ∉ m.revocationRegistry.revoked ∧
        (m.verifyCaSignature lib δ = false ∨ lib.sha256 δ.transformBytes ≠ δ.transformSha256) := by
  have hblacklist : ∀ did, did ∈ (m.blacklist senderDid).blacklistedSenders ↔
      did ∈ m.blacklistedSenders ∨ did = senderDid := by
    intro did
    unfold blacklist
    dsimp only
    split_ifs with hmem
    · exact ⟨.inl, fun h => h.elim (fun hdid => hdid) fun heq => heq ▸ hmem⟩
    · rw [List.mem_append, List.mem_singleton]
  unfold prepareMigration
  dsimp only
  split_ifs with hsender hrevoked hsigned hdigest hbusy
  · exact ⟨.inl, fun h => h.elim (fun hdid => hdid) fun heq => heq.1 ▸ hsender⟩
  · exact ⟨.inl, fun h => h.resolve_right fun hnew => hnew.2.1 hrevoked⟩
  · rw [hblacklist]
    exact or_congr_right ⟨fun heq => ⟨heq, hrevoked, .inl hsigned⟩, And.left⟩
  · rw [hblacklist]
    exact or_congr_right ⟨fun heq => ⟨heq, hrevoked, .inr hdigest⟩, And.left⟩
  all_goals
    have hclear : ¬(m.verifyCaSignature lib δ = false ∨
        lib.sha256 δ.transformBytes ≠ δ.transformSha256) := not_or.mpr ⟨hsigned, hdigest⟩
    split
    all_goals exact ⟨.inl, fun h => h.resolve_right fun hnew => hclear hnew.2.2⟩

/-- Accepted migrations carry bytes signed by the CA, and go from the current version of their device
to the next: two of them, also on different devices, go the same step exactly when these versions are
the same. Nobody is blacklisted for any other field of a message. -/
theorem accepted_step (lib : MigrationLibraries) :
    (∀ m δ senderDid prepared, (prepareMigration lib m δ senderDid).1 = .ok prepared →
      prepared.transformBytes = δ.transformBytes ∧
        prepared.targetSchemaHash = δ.targetSchemaHash ∧ m.verifyCaSignature lib δ = true ∧
        lib.sha256 δ.transformBytes = δ.transformSha256) ∧
    (∀ m m' δ δ' senderDid senderDid' prepared prepared',
      (prepareMigration lib m δ senderDid).1 = .ok prepared →
      (prepareMigration lib m' δ' senderDid').1 = .ok prepared' →
      (δ.sourceSchemaHash = δ'.sourceSchemaHash ↔ m.localSchemaHash = m'.localSchemaHash) ∧
        (δ.targetSchemaHash = δ'.targetSchemaHash ↔
          nextVersion m.versionPath m.localSchemaHash =
            nextVersion m'.versionPath m'.localSchemaHash)) ∧
    ∀ m δ senderDid did, did ∈ (prepareMigration lib m δ senderDid).2.blacklistedSenders ↔
      did ∈ m.blacklistedSenders ∨ did = senderDid ∧ δ.id ∉ m.revocationRegistry.revoked ∧
        (m.verifyCaSignature lib δ = false ∨
          lib.sha256 δ.transformBytes ≠ δ.transformSha256) := by
  refine ⟨?_, ?_, mem_blacklistedSenders lib⟩
  · intro m δ senderDid prepared h
    obtain ⟨hcleared, -, rfl⟩ := prepareMigration_ok h
    exact ⟨rfl, rfl, hcleared.signed, hcleared.digest⟩
  · intro m m' δ δ' senderDid senderDid' prepared prepared' h h'
    obtain ⟨hsource, htarget⟩ := verifyVersionPath_ok (prepareMigration_ok h).2.1
    obtain ⟨hsource', htarget'⟩ := verifyVersionPath_ok (prepareMigration_ok h').2.1
    rw [hsource, hsource', htarget, htarget', Option.some_inj]
    exact ⟨Iff.rfl, Iff.rfl⟩

def sampleSigned (source target : SchemaIdentifierHash) : MigrationDelta :=
  ⟨7, sampleDid₂, [], source, target, [5], List.replicate 64 9,
    (CoreHandle.sampleCoreLibraries []).sha256 [5], .high, 1⟩

/-- A device accepts the same signed bytes for the step from 10 to 11 and, after that, for the one
from 11 to 12; and a copy with another hash blacklists the author, whose own message is then
refused. -/
theorem signed_transform_runs_twice :
    let lib := (CoreHandle.sampleCoreLibraries []).toMigrationLibraries
    let m := SchemaMigrationEngine.new (sampleKey 9) 10 [10, 11, 12] 1 [] [] []
    let first := sampleSigned 10 11
    let second := sampleSigned 11 12
    let advanced := (step lib (step lib (start m) (.prepare first sampleDid₂))
      (.finish ⟨7, 11, [5], 30⟩ (.ok .success))).engine
    let altered := { first with transformSha256 := 0 }
    let fooled := (m.prepareMigration lib altered altered.authorDid).2
    (m.prepareMigration lib first sampleDid₂).1 = .ok ⟨7, 11, [5], 30⟩ ∧
      (advanced.prepareMigration lib second sampleDid₂).1 = .ok ⟨7, 12, [5], 30⟩ ∧
      first.transformBytes = second.transformBytes ∧ first.caSignature = second.caSignature ∧
      first.sourceSchemaHash ≠ second.sourceSchemaHash ∧
      first.targetSchemaHash ≠ second.targetSchemaHash ∧
      fooled.blacklistedSenders = [first.authorDid] ∧
      (fooled.prepareMigration lib first first.authorDid).1.isOk = false := by
  decide +kernel

end TirBase.SignedTransforms
