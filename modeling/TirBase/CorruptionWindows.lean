import TirBase.RevokedTransforms
import TirBase.SchemaWalk

/-! # The corruption window

A window stands on the current schema when the migration that produced it is revoked. The engine knows
only the target that was last noted for an identifier, so the window follows the producer as long as
these notes say the same as the commits. -/
namespace TirBase.CorruptionWindows
open CrdtEngine SchemaMigrationEngine SchemaWalk TransitionRuns

/-- The migration whose commit produced the current schema, when it is revoked. -/
def corruptingMigration (s : Walk) : Option MigrationId :=
  s.committedBy.filter fun id => s.engine.isRevoked id

def Exact (s : Walk) : Prop := s.engine.activeCorruptionMigration = corruptingMigration s

instance (s : Walk) : Decidable (Exact s) := inferInstanceAs (Decidable (_ = _))

theorem exact_iff (s : Walk) : Exact s ↔ ∀ id, s.engine.activeCorruptionMigration = some id ↔
    s.committedBy = some id ∧ id ∈ s.engine.revocationRegistry.revoked := by
  unfold Exact corruptingMigration
  rw [Option.ext_iff]
  refine forall_congr' fun id => ?_
  rw [Option.filter_eq_some_iff, isRevoked, decide_eq_true_iff]

/-- A commit goes to a schema without a window; an accepted revocation, while the producer of the
current schema is not revoked, names the producer exactly when the schema noted for the migration is
the current one; a replay leaves the window of the current schema alone. -/
def KeepsWindow (lib : MigrationLibraries) (s : Walk) : WalkOperation → Prop
  | .prepare _ _ => True
  | .finish prepared result => Commits s (.finish prepared result) prepared →
      (s.engine.corruptedSchemaWindows.lookup prepared.targetSchemaHash).getD [] = []
  | .revoke δ _ => Revocable lib s.engine δ → corruptingMigration s = none →
      (s.engine.migrationTargets.lookup δ.targetMigrationId = some s.engine.localSchemaHash ↔
        s.committedBy = some δ.targetMigrationId)
  | .replay _ _ preMigrationSchema =>
    preMigrationSchema = s.engine.localSchemaHash → corruptingMigration s = none

variable {lib : MigrationLibraries}

theorem windows_replayCorruptedWindows (lib : MigrationLibraries) (env : ReplayEnvironment)
    (m : SchemaMigrationEngine) (crdt : CrdtEngine) (preMigrationSchema : SchemaIdentifierHash) :
    (replayCorruptedWindows lib env m crdt preMigrationSchema).1.corruptedSchemaWindows =
      m.corruptedSchemaWindows.erase preMigrationSchema := by
  have hentries : ∀ (entries : List SideCarEntry) (m : SchemaMigrationEngine) (crdt : CrdtEngine),
      (replayEntries lib env m crdt entries).2.1.corruptedSchemaWindows =
        m.corruptedSchemaWindows := by
    intro entries
    induction entries with
    | nil => exact fun m crdt => rfl
    | cons entry entries ih => exact fun m crdt => ih _ _
  have hsidecar : ∀ (m : SchemaMigrationEngine) (crdt : CrdtEngine) (id : MigrationId),
      (replaySidecar lib env m crdt id).1.corruptedSchemaWindows = m.corruptedSchemaWindows := by
    intro m crdt id
    unfold replaySidecar
    dsimp only
    split_ifs <;> exact hentries _ m crdt
  have hfold : ∀ (ids : List MigrationId) (m : SchemaMigrationEngine) (crdt : CrdtEngine),
      (ids.foldl (fun s id => replaySidecar lib env s.1 s.2 id)
        (m, crdt)).1.corruptedSchemaWindows = m.corruptedSchemaWindows := by
    intro ids
    induction ids with
    | nil => exact fun m crdt => rfl
    | cons id ids ih => exact fun m crdt => (ih _ _).trans (hsidecar m crdt id)
  exact hfold _ _ crdt

theorem activeCorruptionMigration_eq_none_iff (m : SchemaMigrationEngine) :
    m.activeCorruptionMigration = none ↔
      (m.corruptedSchemaWindows.lookup m.localSchemaHash).getD [] = [] := by
  unfold activeCorruptionMigration
  cases m.corruptedSchemaWindows.lookup m.localSchemaHash with
  | none => simp
  | some ids => simp

theorem activeCorruptionMigration_congr {m m' : SchemaMigrationEngine}
    (hlocal : m'.localSchemaHash = m.localSchemaHash)
    (hwindows : m'.corruptedSchemaWindows = m.corruptedSchemaWindows) :
    m'.activeCorruptionMigration = m.activeCorruptionMigration := by
  unfold activeCorruptionMigration
  rw [hwindows, hlocal]

/-- A window names the first migration that was put on it. -/
theorem activeCorruptionMigration_insert (m : SchemaMigrationEngine) (id : MigrationId)
    (registry : RevokedMigrationRegistry) :
    activeCorruptionMigration { m with
      revocationRegistry := registry
      corruptedSchemaWindows := m.corruptedSchemaWindows.insert m.localSchemaHash
        ((m.corruptedSchemaWindows.lookup m.localSchemaHash).getD [] ++ [id]) } =
      m.activeCorruptionMigration.or (some id) := by
  unfold activeCorruptionMigration
  rw [AList.lookup_insert]
  cases m.corruptedSchemaWindows.lookup m.localSchemaHash with
  | none => rfl
  | some ids => cases ids <;> rfl

variable {path : List SchemaIdentifierHash} {s : Walk}

theorem exact_prepare (hexact : Exact s) (δ : MigrationDelta) (senderDid : Did) :
    Exact (step lib s (.prepare δ senderDid)) := by
  obtain ⟨hlocal, -, hwindows, -⟩ := prepareMigration_cases lib s.engine δ senderDid
  have hrevoked := (MigrationRuns.frame_prepareMigration lib s.engine δ senderDid).1
  unfold Exact corruptingMigration isRevoked at hexact ⊢
  simp only [step, activeCorruptionMigration_congr hlocal hwindows, hrevoked]
  exact hexact

theorem exact_finish (hpath : OnPath path s) (hexact : Exact s) (prepared : PreparedMigration)
    (result : Except TirBaseError MigrationResult) :
    Exact (step lib s (.finish prepared result)) ↔
      KeepsWindow lib s (.finish prepared result) := by
  by_cases hmem : prepared ∈ s.outstanding
  · obtain ⟨-, hwindows, -, hend⟩ := finishMigration_cases s.engine prepared.migrationId
      prepared.targetSchemaHash result
    have hrevoked := (MigrationRuns.frame_finishMigration s.engine prepared.migrationId
      prepared.targetSchemaHash result).1
    have hengine : (step lib s (.finish prepared result)).engine = (s.engine.finishMigration
        prepared.migrationId prepared.targetSchemaHash result).2 := by
      simp only [step, if_pos hmem]
    rcases hend with ⟨rfl, hclear, hok, hlocal⟩ | ⟨hfailed, hnot, hlocal⟩
    · have hcommits : Commits s (.finish prepared (.ok .success)) prepared :=
        ⟨rfl, hmem, fun h => hclear ((hpath.accepted _).mp h)⟩
      have hnone : corruptingMigration (step lib s (.finish prepared (.ok .success))) = none := by
        simp only [corruptingMigration, step, if_pos hmem, hok, isRevoked, hrevoked]
        simpa using hclear
      rw [Exact, hnone, activeCorruptionMigration_eq_none_iff, hengine, hwindows, hlocal]
      exact ⟨fun hempty _ => hempty, fun hkeeps => hkeeps hcommits⟩
    · refine iff_of_true ?_ fun hcommits => ?_
      · have hcommitted : (step lib s (.finish prepared result)).committedBy = s.committedBy := by
          simp only [step, if_pos hmem]
        unfold Exact corruptingMigration isRevoked at hexact ⊢
        rw [hengine, hcommitted, hrevoked, activeCorruptionMigration_congr hlocal hwindows]
        exact hexact
      · obtain ⟨heq, -, hclear⟩ := hcommits
        cases heq
        exact absurd ⟨rfl, fun h => hclear ((hpath.accepted _).mpr h)⟩ hfailed
  · simp only [step, if_neg hmem, hexact, true_iff]
    exact fun hcommits => absurd hcommits.2.1 hmem

/-- With the producer revoked already, a further revocation joins the window behind it; otherwise the
window that opens, if any, is the one of the migration that is now revoked. -/
theorem exact_revoke (hexact : Exact s) (δ : MigrationRevocationDelta) (now : ℤ) :
    Exact (step lib s (.revoke δ now)) ↔ KeepsWindow lib s (.revoke δ now) := by
  by_cases hrevocable : Revocable lib s.engine δ
  · obtain ⟨halted, registry, -, hrevoked, hout⟩ :=
      receiveRevocationDelta_of_revocable now hrevocable
    have hactive : (step lib s (.revoke δ now)).engine.activeCorruptionMigration =
        if s.engine.migrationTargets.lookup δ.targetMigrationId = some s.engine.localSchemaHash then
          s.engine.activeCorruptionMigration.or (some δ.targetMigrationId)
        else s.engine.activeCorruptionMigration := by
      simp only [step, hout]
      split_ifs
      · exact activeCorruptionMigration_insert s.engine δ.targetMigrationId registry
      · rfl
    have hcorrupting : ∀ id, corruptingMigration (step lib s (.revoke δ now)) = some id ↔
        s.committedBy = some id ∧
          (id ∈ s.engine.revocationRegistry.revoked ∨ id = δ.targetMigrationId) := by
      intro id
      simp only [corruptingMigration, step, hout, Option.filter_eq_some_iff, isRevoked,
        decide_eq_true_iff, hrevoked]
    cases hbefore : corruptingMigration s with
    | some id =>
      have hid := hbefore
      rw [corruptingMigration, Option.filter_eq_some_iff, isRevoked, decide_eq_true_iff] at hid
      refine iff_of_true ?_ fun _ hnone => ?_
      · rw [Exact, hactive, (hcorrupting id).mpr ⟨hid.1, .inl hid.2⟩, hexact, hbefore]
        split_ifs <;> rfl
      · rw [hbefore] at hnone
        cases hnone
    | none =>
      have hproducer : ∀ id, s.committedBy = some id →
          id ∉ s.engine.revocationRegistry.revoked := by
        intro id hid hmem
        rw [corruptingMigration, hid] at hbefore
        simp [isRevoked, hmem] at hbefore
      have hkeeps : KeepsWindow lib s (.revoke δ now) ↔
          (s.engine.migrationTargets.lookup δ.targetMigrationId = some s.engine.localSchemaHash ↔
            s.committedBy = some δ.targetMigrationId) :=
        ⟨fun h => h hrevocable hbefore, fun h _ _ => h⟩
      rw [hkeeps, Exact, hactive, hexact, hbefore, Option.ext_iff]
      constructor
      · intro hall
        have htarget := hall δ.targetMigrationId
        rw [hcorrupting] at htarget
        split_ifs at htarget with hnoted
        · exact iff_of_true hnoted (htarget.mp rfl).1
        · exact iff_of_false hnoted fun hcommitted => by
            cases htarget.mpr ⟨hcommitted, .inr rfl⟩
      · intro hiff id
        rw [hcorrupting]
        split_ifs with hnoted
        · rw [hiff.mp hnoted]
          constructor
          · rintro ⟨⟩
            exact ⟨rfl, .inr rfl⟩
          · rintro ⟨⟨⟩, -⟩
            rfl
        · refine iff_of_false (by rintro ⟨⟩) ?_
          rintro ⟨hcommitted, hmem | rfl⟩
          · exact hproducer id hcommitted hmem
          · exact hnoted (hiff.mpr hcommitted)
  · obtain ⟨e, hout⟩ := receiveRevocationDelta_of_not_revocable now hrevocable
    refine iff_of_true ?_ fun h => absurd h hrevocable
    unfold Exact corruptingMigration at hexact ⊢
    simp only [step, hout]
    exact hexact

theorem exact_replay (hexact : Exact s) (env : ReplayEnvironment) (crdt : CrdtEngine)
    (preMigrationSchema : SchemaIdentifierHash) :
    Exact (step lib s (.replay env crdt preMigrationSchema)) ↔
      KeepsWindow lib s (.replay env crdt preMigrationSchema) := by
  have hclocks := sameClocks_replayCorruptedWindows lib env s.engine crdt preMigrationSchema
  have hwindows := windows_replayCorruptedWindows lib env s.engine crdt preMigrationSchema
  have hcorrupting : corruptingMigration (step lib s (.replay env crdt preMigrationSchema)) =
      corruptingMigration s := by
    simp only [corruptingMigration, step, isRevoked, hclocks.registry]
  have hactive : (step lib s (.replay env crdt preMigrationSchema)).engine.activeCorruptionMigration =
      ((s.engine.corruptedSchemaWindows.erase preMigrationSchema).lookup
        s.engine.localSchemaHash).bind List.head? := by
    rw [activeCorruptionMigration, ← hwindows, ← hclocks.localSchemaHash]
    rfl
  rw [Exact, hcorrupting, hactive]
  by_cases hsame : preMigrationSchema = s.engine.localSchemaHash
  · subst hsame
    rw [AList.lookup_erase]
    exact ⟨fun hnone _ => hnone.symm, fun hkeeps => (hkeeps rfl).symm⟩
  · rw [AList.lookup_erase_ne (Ne.symm hsame)]
    exact iff_of_true hexact fun h => absurd h hsame

theorem exact_step (hpath : OnPath path s) (hexact : Exact s) (op : WalkOperation) :
    Exact (step lib s op) ↔ KeepsWindow lib s op := by
  cases op with
  | prepare δ senderDid => exact iff_of_true (exact_prepare hexact δ senderDid) trivial
  | finish prepared result => exact exact_finish hpath hexact prepared result
  | revoke δ now => exact exact_revoke hexact δ now
  | replay env crdt preMigrationSchema => exact exact_replay hexact env crdt preMigrationSchema

/-- All along a run from a new engine the active corruption migration is the producer of the current
schema, when that is revoked, exactly when every operation of the run keeps the window. -/
theorem window_exact_iff (lib : MigrationLibraries) (caPublicKey : KeyBytes)
    (localSchemaHash : SchemaIdentifierHash) (versionPath : List SchemaIdentifierHash)
    (revocationThresholdM : ℕ) (quarantineLedger : List QuarantineEntry)
    (sidecarLedger : List SideCarEntry) (schemaDefinitions : List (SchemaIdentifierHash × Schema))
    (ops : List WalkOperation) :
    let s := start (.new caPublicKey localSchemaHash versionPath revocationThresholdM
      quarantineLedger sidecarLedger schemaDefinitions)
    (∀ earlier, earlier <+: ops → Exact (run (step lib) s earlier)) ↔
      Guarded (step lib) (KeepsWindow lib) s ops := by
  intro s
  have hpath : OnPath versionPath s := onPath_start _ rfl rfl
  have hstep : ∀ s op, OnPath versionPath s → Exact s →
      (Exact (step lib s op) ↔ KeepsWindow lib s op) :=
    fun _ op hpath hexact => exact_step hpath hexact op
  have hkept : ∀ s op, OnPath versionPath s → Exact s → KeepsWindow lib s op →
      OnPath versionPath (step lib s op) :=
    fun _ op hpath _ _ => onPath_step hpath op
  exact forall_prefix_iff_guarded hstep hkept hpath rfl

/-- The revoked producer of the current schema is not noticed when its identifier was seen again with
another target, and a revoked migration that was never applied opens a window when its target is the
current schema. -/
theorem window_not_exact :
    let lib := (CoreHandle.sampleCoreLibraries []).toMigrationLibraries
    let s := start RevokedTransforms.sampleEngine
    let moved : List WalkOperation :=
      [.prepare (RevokedTransforms.sampleTransform 1) sampleDid₂,
        .finish ⟨1, 11, [5], 30⟩ (.ok .success),
        .prepare { RevokedTransforms.sampleTransform 1 with targetSchemaHash := 12 } sampleDid₂,
        .revoke RevokedTransforms.sampleRevocation 5]
    let refused : List WalkOperation :=
      [.prepare (RevokedTransforms.sampleTransform 2) sampleDid₂,
        .finish ⟨2, 11, [5], 30⟩ (.ok .success),
        .prepare (RevokedTransforms.sampleTransform 1) sampleDid₂,
        .revoke RevokedTransforms.sampleRevocation 5]
    corruptingMigration (run (step lib) s moved) = some 1 ∧
      (run (step lib) s moved).engine.activeCorruptionMigration = none ∧
      corruptingMigration (run (step lib) s refused) = none ∧
      (run (step lib) s refused).engine.activeCorruptionMigration = some 1 ∧
      ¬Exact (run (step lib) s moved) ∧ ¬Exact (run (step lib) s refused) := by
  decide +kernel

end TirBase.CorruptionWindows
