import TirBase.SchemaMigration
import TirBase.TransitionRuns

/-! # Runs of the migration engine

Migrations that are received, the ends of those that were handed out for execution, and
revocations, in any order. -/
namespace TirBase.MigrationRuns
open SchemaMigrationEngine TransitionRuns

/-- The engine with the migrations that cleared the checks on sender, revocation, CA signature and
hash, those it handed out for execution, and the revocations it accepted. -/
structure MigrationRun where
  engine : SchemaMigrationEngine
  cleared : List (MigrationId × Bytes)
  handedOut : List PreparedMigration
  accepted : List MigrationId
  deriving DecidableEq

inductive MigrationOperation
  | prepare (δ : MigrationDelta) (senderDid : Did)
  | finish (prepared : PreparedMigration) (result : Except TirBaseError MigrationResult)
  | revoke (δ : MigrationRevocationDelta) (now : ℤ)

def start (m : SchemaMigrationEngine) : MigrationRun := ⟨m, [], [], []⟩

variable (lib : MigrationLibraries)

structure Cleared (m : SchemaMigrationEngine) (δ : MigrationDelta) (senderDid : Did) : Prop where
  sender : senderDid ∉ m.blacklistedSenders
  notRevoked : δ.id ∉ m.revocationRegistry.revoked
  signed : m.verifyCaSignature lib δ = true
  digest : lib.sha256 δ.transformBytes = δ.transformSha256

instance (m : SchemaMigrationEngine) (δ : MigrationDelta) (senderDid : Did) :
    Decidable (Cleared lib m δ senderDid) :=
  decidable_of_iff (senderDid ∉ m.blacklistedSenders ∧ δ.id ∉ m.revocationRegistry.revoked ∧
      m.verifyCaSignature lib δ = true ∧ lib.sha256 δ.transformBytes = δ.transformSha256)
    ⟨fun h => ⟨h.1, h.2.1, h.2.2.1, h.2.2.2⟩,
      fun h => ⟨h.sender, h.notRevoked, h.signed, h.digest⟩⟩

/-- Only what was handed out can be finished. -/
def step (s : MigrationRun) : MigrationOperation → MigrationRun
  | .prepare δ senderDid =>
    let out := s.engine.prepareMigration lib δ senderDid
    { s with
      engine := out.2
      cleared := if Cleared lib s.engine δ senderDid then (δ.id, δ.transformBytes) :: s.cleared
        else s.cleared
      handedOut := match out.1 with
        | .ok prepared => prepared :: s.handedOut
        | .error _ => s.handedOut }
  | .finish prepared result =>
    if prepared ∈ s.handedOut then
      { s with
        engine := (s.engine.finishMigration prepared.migrationId prepared.targetSchemaHash result).2 }
    else s
  | .revoke δ now =>
    let out := s.engine.receiveRevocationDelta lib δ now
    { s with
      engine := out.2
      accepted := match out.1 with
        | .ok _ => δ.targetMigrationId :: s.accepted
        | .error _ => s.accepted }

variable {lib} {m : SchemaMigrationEngine} {δ : MigrationDelta} {senderDid : Did}

/-- What is handed out has cleared every check, and goes the next step of the path. -/
theorem prepareMigration_ok {prepared : PreparedMigration}
    (h : (m.prepareMigration lib δ senderDid).1 = .ok prepared) :
    Cleared lib m δ senderDid ∧ m.verifyVersionPath lib δ = .ok () ∧
      prepared = ⟨δ.id, δ.targetSchemaHash, δ.transformBytes, 30⟩ := by
  unfold prepareMigration at h
  split_ifs at h with hsender hrevoked hsigned hdigest
  dsimp only at h
  have hpath : (m.recordKnown δ).verifyVersionPath lib δ = m.verifyVersionPath lib δ := rfl
  rw [hpath] at h
  split at h
  · cases h
  · rename_i hok
    split_ifs at h
    cases h
    exact ⟨⟨hsender, hrevoked, by simpa using hsigned, not_not.mp hdigest⟩, hok, rfl⟩

theorem frame_prepareMigration (lib : MigrationLibraries) (m : SchemaMigrationEngine)
    (δ : MigrationDelta) (senderDid : Did) :
    (m.prepareMigration lib δ senderDid).2.revocationRegistry.revoked =
        m.revocationRegistry.revoked ∧
      (m.prepareMigration lib δ senderDid).2.revocationThresholdM = m.revocationThresholdM := by
  unfold prepareMigration
  dsimp only
  split_ifs
  · exact ⟨rfl, rfl⟩
  · exact ⟨rfl, rfl⟩
  · exact ⟨rfl, rfl⟩
  · exact ⟨rfl, rfl⟩
  · split <;> exact ⟨rfl, rfl⟩
  · split <;> exact ⟨rfl, rfl⟩

theorem frame_finishMigration (m : SchemaMigrationEngine) (migrationId : MigrationId)
    (target : SchemaIdentifierHash) (result : Except TirBaseError MigrationResult) :
    (m.finishMigration migrationId target result).2.revocationRegistry.revoked =
        m.revocationRegistry.revoked ∧
      (m.finishMigration migrationId target result).2.revocationThresholdM =
        m.revocationThresholdM := by
  unfold finishMigration
  dsimp only
  split_ifs
  · exact ⟨rfl, rfl⟩
  · split <;> exact ⟨rfl, rfl⟩

theorem notRevoked_of_success {migrationId : MigrationId} {target : SchemaIdentifierHash}
    {result : Except TirBaseError MigrationResult}
    (h : (m.finishMigration migrationId target result).1 = .ok .success) :
    migrationId ∉ m.revocationRegistry.revoked := by
  intro hrevoked
  unfold finishMigration at h
  dsimp only at h
  rw [if_pos hrevoked] at h
  cases h

/-- An accepted revocation has enough managers and enters the registry; a refused one changes
nothing. -/
theorem receiveRevocationDelta_cases (lib : MigrationLibraries) (m : SchemaMigrationEngine)
    (δ : MigrationRevocationDelta) (now : ℤ) :
    let out := m.receiveRevocationDelta lib δ now
    (∃ e, out = (.error e, m)) ∨
      (∃ halted, out.1 = .ok halted) ∧
        m.revocationThresholdM ≤ (RevokedMigrationRegistry.validManagers lib δ.targetMigrationId
          δ.signatures).length ∧
        (∀ id, id ∈ out.2.revocationRegistry.revoked ↔
          id ∈ m.revocationRegistry.revoked ∨ id = δ.targetMigrationId) ∧
        out.2.revocationThresholdM = m.revocationThresholdM := by
  have hmem : ∀ (ids : List MigrationId) (target id : MigrationId),
      id ∈ (if target ∈ ids then ids else ids ++ [target]) ↔ id ∈ ids ∨ id = target := by
    intro ids target id
    split_ifs with htarget
    · exact ⟨.inl, fun h => h.elim (fun hid => hid) fun heq => heq ▸ htarget⟩
    · rw [List.mem_append, List.mem_singleton]
  intro out
  have hout : out = m.receiveRevocationDelta lib δ now := rfl
  unfold receiveRevocationDelta RevokedMigrationRegistry.applyRevocation at hout
  dsimp only at hout
  by_cases hknown : δ.targetMigrationId ∉ m.revocationRegistry.known
  · rw [if_pos hknown] at hout
    exact .inl ⟨_, hout⟩
  · rw [if_neg hknown] at hout
    by_cases hfew : (RevokedMigrationRegistry.validManagers lib δ.targetMigrationId
        δ.signatures).length < m.revocationThresholdM
    · rw [if_pos hfew] at hout
      exact .inl ⟨_, hout⟩
    · rw [if_neg hfew] at hout
      dsimp only at hout
      refine .inr ⟨?_, by omega, fun id => ?_, ?_⟩
      · rw [hout]
        split_ifs <;> exact ⟨_, rfl⟩
      · rw [hout, ← hmem]
        split_ifs <;> exact Iff.rfl
      · rw [hout]
        split_ifs <;> rfl

variable {s : MigrationRun} {op : MigrationOperation}

theorem thresholdM_step (s : MigrationRun) (op : MigrationOperation) :
    (step lib s op).engine.revocationThresholdM = s.engine.revocationThresholdM := by
  cases op with
  | prepare δ senderDid => exact (frame_prepareMigration lib s.engine δ senderDid).2
  | finish prepared result =>
    simp only [step]
    split_ifs
    · exact (frame_finishMigration s.engine _ _ result).2
    · rfl
  | revoke δ now =>
    rcases receiveRevocationDelta_cases lib s.engine δ now with ⟨e, hout⟩ | ⟨-, -, -, hthreshold⟩
    · simp only [step, hout]
    · exact hthreshold

/-- A migration is revoked after an operation if it was before, or by a revocation of it with enough
managers. -/
theorem revoked_step {id : MigrationId} :
    id ∈ (step lib s op).engine.revocationRegistry.revoked ↔
      id ∈ s.engine.revocationRegistry.revoked ∨ ∃ δ now, op = .revoke δ now ∧
        δ.targetMigrationId = id ∧ ∃ halted,
          (s.engine.receiveRevocationDelta lib δ now).1 = .ok halted := by
  cases op with
  | prepare δ senderDid =>
    rw [step, (frame_prepareMigration lib s.engine δ senderDid).1]
    exact ⟨.inl, fun h => h.resolve_right fun ⟨δ', now, heq, _⟩ => (by cases heq)⟩
  | finish prepared result =>
    have hsame : (step lib s (.finish prepared result)).engine.revocationRegistry.revoked =
        s.engine.revocationRegistry.revoked := by
      simp only [step]
      split_ifs
      · exact (frame_finishMigration s.engine _ _ result).1
      · rfl
    rw [hsame]
    exact ⟨.inl, fun h => h.resolve_right fun ⟨δ', now, heq, _⟩ => (by cases heq)⟩
  | revoke δ now =>
    rcases receiveRevocationDelta_cases lib s.engine δ now with ⟨e, hout⟩ | ⟨hok, -, hrevoked, -⟩
    · simp only [step, hout]
      refine ⟨.inl, fun h => h.resolve_right ?_⟩
      rintro ⟨δ', now', heq, -, halted, hok⟩
      cases heq
      rw [hout] at hok
      cases hok
    · rw [step, hrevoked]
      refine or_congr_right ⟨fun hid => ⟨δ, now, rfl, hid.symm, hok⟩, ?_⟩
      rintro ⟨δ', now', heq, hid, -⟩
      cases heq
      exact hid.symm

end TirBase.MigrationRuns
