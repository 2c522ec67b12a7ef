import TirBase.CoreHandle
import TirBase.MigrationRuns

/-! # Transforms of revoked migrations

A revocation blocks an identifier, while the signature and the hash are those of the bytes. A
transform is blocked as long as its bytes do not come back under another identifier. -/
namespace TirBase.RevokedTransforms
open CrdtEngine MigrationRuns TransitionRuns

variable (lib : MigrationLibraries)

/-- A migration with these bytes was received, and its revocation accepted. -/
def RevokedBytes (s : MigrationRun) (bytes : Bytes) : Prop :=
  ∃ id ∈ s.accepted, (id, bytes) ∈ s.cleared

instance (s : MigrationRun) (bytes : Bytes) : Decidable (RevokedBytes s bytes) :=
  List.decidableBEx (fun id => (id, bytes) ∈ s.cleared) s.accepted

/-- The operation neither hands out the bytes of a revoked migration nor advances the schema on
account of them. -/
def Respects (s : MigrationRun) : MigrationOperation → Prop
  | .prepare δ senderDid => ∀ prepared,
      (s.engine.prepareMigration lib δ senderDid).1 = .ok prepared →
        ¬RevokedBytes s prepared.transformBytes
  | .finish prepared result => prepared ∈ s.handedOut →
      (s.engine.finishMigration prepared.migrationId prepared.targetSchemaHash result).1 =
        .ok .success → ¬RevokedBytes s prepared.transformBytes
  | .revoke _ _ => True

/-- No bytes of a revoked migration clear the checks again under another identifier, and when enough
managers revoke a migration its bytes are not handed out under another one. -/
def OneId (s : MigrationRun) : MigrationOperation → Prop
  | .prepare δ senderDid => Cleared lib s.engine δ senderDid →
      ∀ id ∈ s.accepted, (id, δ.transformBytes) ∈ s.cleared → id = δ.id
  | .finish _ _ => True
  | .revoke δ _ =>
    s.engine.revocationThresholdM ≤ (RevokedMigrationRegistry.validManagers lib
        δ.targetMigrationId δ.signatures).length →
      ∀ prepared ∈ s.handedOut,
        prepared.migrationId ∉ s.engine.revocationRegistry.revoked →
        (δ.targetMigrationId, prepared.transformBytes) ∈ s.cleared →
          prepared.migrationId = δ.targetMigrationId

instance (s : MigrationRun) : (op : MigrationOperation) → Decidable (OneId lib s op)
  | .prepare δ senderDid =>
    have := List.decidableBAll (fun id => (id, δ.transformBytes) ∈ s.cleared → id = δ.id) s.accepted
    inferInstanceAs (Decidable (Cleared lib s.engine δ senderDid → _))
  | .finish _ _ => isTrue trivial
  | .revoke δ _ =>
    have := List.decidableBAll (fun prepared : PreparedMigration =>
      prepared.migrationId ∉ s.engine.revocationRegistry.revoked →
        (δ.targetMigrationId, prepared.transformBytes) ∈ s.cleared →
          prepared.migrationId = δ.targetMigrationId) s.handedOut
    inferInstanceAs (Decidable (_ ≤ _ → _))

/-- What was handed out has cleared the checks, accepted revocations are in the registry, and what
was handed out under an identifier that is not revoked is not revoked under another one. -/
structure Invariant (s : MigrationRun) : Prop where
  cleared : ∀ prepared ∈ s.handedOut, (prepared.migrationId, prepared.transformBytes) ∈ s.cleared
  accepted : ∀ id ∈ s.accepted, id ∈ s.engine.revocationRegistry.revoked
  handedOut : ∀ prepared ∈ s.handedOut,
    prepared.migrationId ∉ s.engine.revocationRegistry.revoked →
      ¬RevokedBytes s prepared.transformBytes

theorem invariant_start (m : SchemaMigrationEngine) : Invariant (start m) :=
  ⟨fun _ h => absurd h List.not_mem_nil, fun _ h => absurd h List.not_mem_nil,
    fun _ h => absurd h List.not_mem_nil⟩

variable {lib} {s : MigrationRun}

theorem not_revokedBytes_of_cleared (h : Invariant s) {δ : MigrationDelta} {senderDid : Did}
    (hone : OneId lib s (.prepare δ senderDid)) (hcleared : Cleared lib s.engine δ senderDid) :
    ¬RevokedBytes s δ.transformBytes := by
  rintro ⟨id, haccepted, hmem⟩
  have hid : id = δ.id := hone hcleared id haccepted hmem
  exact hcleared.notRevoked (hid ▸ h.accepted id haccepted)

theorem revokedBytes_prepare (h : Invariant s) (δ : MigrationDelta) (senderDid : Did)
    (bytes : Bytes) :
    RevokedBytes (step lib s (.prepare δ senderDid)) bytes ↔ RevokedBytes s bytes := by
  unfold RevokedBytes
  simp only [step]
  by_cases hcleared : Cleared lib s.engine δ senderDid
  · rw [if_pos hcleared]
    refine exists_congr fun id => and_congr_right fun haccepted => ?_
    have hfree : id ≠ δ.id := fun hid => hcleared.notRevoked (hid ▸ h.accepted id haccepted)
    rw [List.mem_cons, Prod.mk.injEq]
    exact ⟨fun hmem => hmem.resolve_left fun hsame => hfree hsame.1, .inr⟩
  · rw [if_neg hcleared]

theorem invariant_prepare (h : Invariant s) {δ : MigrationDelta} {senderDid : Did}
    (hone : OneId lib s (.prepare δ senderDid)) :
    Invariant (step lib s (.prepare δ senderDid)) := by
  have hrevoked := (frame_prepareMigration lib s.engine δ senderDid).1
  have hnew : ∀ prepared, prepared ∈ (step lib s (.prepare δ senderDid)).handedOut →
      prepared ∈ s.handedOut ∨ Cleared lib s.engine δ senderDid ∧ prepared.migrationId = δ.id ∧
        prepared.transformBytes = δ.transformBytes := by
    intro prepared hmem
    simp only [step] at hmem
    split at hmem
    · rename_i prepared' hok
      rcases List.mem_cons.mp hmem with heq | hold
      · obtain ⟨hcleared, -, rfl⟩ := prepareMigration_ok hok
        rw [heq]
        exact .inr ⟨hcleared, rfl, rfl⟩
      · exact .inl hold
    · exact .inl hmem
  have hkeep : ∀ pair ∈ s.cleared, pair ∈ (step lib s (.prepare δ senderDid)).cleared := by
    intro pair hmem
    simp only [step]
    split_ifs
    · exact List.mem_cons_of_mem _ hmem
    · exact hmem
  refine ⟨fun prepared hmem => ?_, fun id hmem => ?_, fun prepared hmem hfree => ?_⟩
  · rcases hnew prepared hmem with hold | ⟨hcleared, hid, hbytes⟩
    · exact hkeep _ (h.cleared prepared hold)
    · rw [hid, hbytes]
      simp only [step]
      rw [if_pos hcleared]
      exact List.mem_cons_self
  · rw [step, hrevoked]
    exact h.accepted id hmem
  · rw [revokedBytes_prepare h]
    rw [step, hrevoked] at hfree
    rcases hnew prepared hmem with hold | ⟨hcleared, hid, hbytes⟩
    · exact h.handedOut prepared hold hfree
    · rw [hbytes]
      exact not_revokedBytes_of_cleared h hone hcleared

theorem invariant_finish (h : Invariant s) (prepared : PreparedMigration)
    (result : Except TirBaseError MigrationResult) :
    Invariant (step lib s (.finish prepared result)) := by
  simp only [step]
  split_ifs
  · have hrevoked := (frame_finishMigration s.engine prepared.migrationId
      prepared.targetSchemaHash result).1
    refine ⟨h.cleared, fun id hmem => ?_, fun prepared hmem hfree => ?_⟩
    · rw [hrevoked]
      exact h.accepted id hmem
    · rw [hrevoked] at hfree
      exact h.handedOut prepared hmem hfree
  · exact h

theorem invariant_revoke (h : Invariant s) {δ : MigrationRevocationDelta} {now : ℤ}
    (hone : OneId lib s (.revoke δ now)) : Invariant (step lib s (.revoke δ now)) := by
  rcases receiveRevocationDelta_cases lib s.engine δ now with
    ⟨e, hout⟩ | ⟨⟨halted, hok⟩, henough, hmem, -⟩
  · have hsame : step lib s (.revoke δ now) = s := by
      simp only [step, hout]
    rw [hsame]
    exact h
  · simp only [step, hok]
    refine ⟨h.cleared, fun id hid => ?_, fun prepared hprepared hfree => ?_⟩
    · rw [hmem]
      rcases List.mem_cons.mp hid with hnew | hold
      · exact .inr hnew
      · exact .inl (h.accepted id hold)
    · rw [hmem, not_or] at hfree
      rintro ⟨id, hid, hcleared⟩
      rcases List.mem_cons.mp hid with rfl | hold
      · exact hfree.2 (hone henough prepared hprepared hfree.1 hcleared)
      · exact h.handedOut prepared hprepared hfree.1 ⟨id, hold, hcleared⟩

theorem invariant_step (h : Invariant s) {op : MigrationOperation} (hone : OneId lib s op) :
    Invariant (step lib s op) := by
  cases op with
  | prepare δ senderDid => exact invariant_prepare h hone
  | finish prepared result => exact invariant_finish h prepared result
  | revoke δ now => exact invariant_revoke h hone

theorem respects_of_oneId (h : Invariant s) {op : MigrationOperation} (hone : OneId lib s op) :
    Respects lib s op := by
  cases op with
  | prepare δ senderDid =>
    intro prepared hok
    obtain ⟨hcleared, -, rfl⟩ := prepareMigration_ok hok
    exact not_revokedBytes_of_cleared h hone hcleared
  | finish prepared result =>
    intro hmem hsuccess
    exact h.handedOut prepared hmem (notRevoked_of_success hsuccess)
  | revoke δ now => trivial

theorem respects_run (h : Invariant s) {ops : List MigrationOperation}
    (hone : Guarded (step lib) (OneId lib) s ops) : Guarded (step lib) (Respects lib) s ops := by
  induction ops generalizing s with
  | nil => trivial
  | cons op ops ih => exact ⟨respects_of_oneId h hone.1, ih (invariant_step h hone.1) hone.2⟩

/-- While the bytes of revoked migrations come under one identifier, nothing hands them out or
advances the schema on account of them, from any engine on. -/
theorem transform_stays_revoked (lib : MigrationLibraries) (m : SchemaMigrationEngine)
    (ops : List MigrationOperation) (hone : Guarded (step lib) (OneId lib) (start m) ops) :
    Guarded (step lib) (Respects lib) (start m) ops :=
  respects_run (invariant_start m) hone

def sampleEngine : SchemaMigrationEngine := .new (sampleKey 9) 10 [10, 11] 1 [] [] []

def sampleTransform (id : MigrationId) : MigrationDelta :=
  ⟨id, sampleDid₂, [], 10, 11, [5], List.replicate 64 9,
    (CoreHandle.sampleCoreLibraries []).sha256 [5], .high, 1⟩

def sampleRevocation : MigrationRevocationDelta := ⟨1, [⟨sampleDid₁, List.replicate 64 0⟩], 1⟩

/-- A revoked migration that is received again is refused. -/
theorem transform_stays_revoked_sample :
    let lib := (CoreHandle.sampleCoreLibraries []).toMigrationLibraries
    let s := run (step lib) (start sampleEngine)
      [.prepare (sampleTransform 1) sampleDid₂, .revoke sampleRevocation 5]
    RevokedBytes s [5] ∧ Respects lib s (.prepare (sampleTransform 1) sampleDid₂) := by
  intro lib s
  have hrespects := transform_stays_revoked lib sampleEngine
    [.prepare (sampleTransform 1) sampleDid₂, .revoke sampleRevocation 5,
      .prepare (sampleTransform 1) sampleDid₂]
    ⟨by decide +kernel, by decide +kernel, by decide +kernel, trivial⟩
  exact ⟨by decide +kernel, hrespects.2.2.1⟩

/-- The bytes of an aborted and revoked migration are handed out again under another identifier, and
advance the schema. -/
theorem renamed_transform_takes_effect :
    let lib := (CoreHandle.sampleCoreLibraries []).toMigrationLibraries
    let s := run (step lib) (start sampleEngine)
      [.prepare (sampleTransform 1) sampleDid₂,
        .finish ⟨1, 11, [5], 30⟩ (.ok (.aborted "trap")), .revoke sampleRevocation 5]
    let again := step lib s (.prepare (sampleTransform 2) sampleDid₂)
    RevokedBytes s [5] ∧
      (s.engine.prepareMigration lib (sampleTransform 2) sampleDid₂).1 = .ok ⟨2, 11, [5], 30⟩ ∧
      RevokedBytes again [5] ∧ ⟨2, 11, [5], 30⟩ ∈ again.handedOut ∧
      again.engine.localSchemaHash = 10 ∧
      (step lib again (.finish ⟨2, 11, [5], 30⟩ (.ok .success))).engine.localSchemaHash = 11 := by
  decide +kernel

end TirBase.RevokedTransforms
