import TirBase.CoreHandle
import TirBase.MigrationRuns
import TirBase.RevocationOrders
import TirBase.SaturateMode

/-! # Who a threshold counts

A signer is whoever signs under the key that its DID encodes; no list of managers is kept. Each of
the three thresholds needs as many distinct signers of that kind as it says, and no more than that.
-/
namespace TirBase.ThresholdSigners
open CrdtEngine MigrationRuns RevocationOrders RevocationVotes RevokedMigrationRegistry
open SaturateModeStateMachine ThresholdVotes TransitionRuns

/-- The manager signed the migration's identifier, under strict verification. -/
def validMigrationSignature (lib : MigrationLibraries) (target : MigrationId)
    (sig : ManagerSignature) : Bool :=
  match lib.resolveDid sig.managerDid with
  | .error _ => false
  | .ok key =>
    match lib.ed25519VerifyingKey key with
    | .error _ => false
    | .ok () =>
      if h : sig.signature.length = 64 then
        lib.verifyStrict key (digestBytes target) ⟨sig.signature, h⟩
      else false

def migrationSigners (lib : MigrationLibraries) (δ : MigrationRevocationDelta) : Finset Did :=
  signers (δ.signatures.filter (validMigrationSignature lib δ.targetMigrationId))

def terminationSigners (lib : SaturateLibraries) (signatures : List (Did × Bytes))
    (message : Bytes) : Finset Did :=
  ((signatures.filter fun s => verifyDidSignature lib s.1 s.2 message).map Prod.fst).toFinset

section Migration
variable {lib : MigrationLibraries} {target : MigrationId} {sigs : List ManagerSignature}
  {did : Did}

theorem validManagers_cons (sig : ManagerSignature) (sigs : List ManagerSignature) :
    validManagers lib target (sig :: sigs) =
      if validMigrationSignature lib target sig then
        sig.managerDid :: (validManagers lib target sigs).filter (· ≠ sig.managerDid)
      else validManagers lib target sigs := by
  rw [validManagers]
  split
  · rename_i e hkey
    rw [if_neg (by simp [validMigrationSignature, hkey])]
  · rename_i key hkey
    split
    · rename_i e hverifying
      rw [if_neg (by simp [validMigrationSignature, hkey, hverifying])]
    · rename_i hverifying
      by_cases hlength : sig.signature.length = 64
      · have hsame : validMigrationSignature lib target sig =
            lib.verifyStrict key (digestBytes target) ⟨sig.signature, hlength⟩ := by
          simp [validMigrationSignature, hkey, hverifying, hlength]
        rw [dif_pos hlength, hsame]
      · rw [dif_neg hlength, if_neg (by simp [validMigrationSignature, hkey, hverifying, hlength])]

theorem mem_validManagers : did ∈ validManagers lib target sigs ↔
    did ∈ signers (sigs.filter (validMigrationSignature lib target)) := by
  induction sigs with
  | nil => simp [validManagers, signers]
  | cons sig sigs ih =>
    rw [validManagers_cons]
    by_cases hvalid : validMigrationSignature lib target sig = true
    · rw [if_pos hvalid, List.filter_cons_of_pos hvalid, signers, List.map_cons,
        List.toFinset_cons, Finset.mem_insert, List.mem_cons, List.mem_filter, ih]
      by_cases hdid : did = sig.managerDid
      · simp [hdid]
      · simp [hdid, signers]
    · rw [if_neg hvalid, List.filter_cons_of_neg hvalid, ih]

theorem nodup_validManagers (sigs : List ManagerSignature) :
    (validManagers lib target sigs).Nodup := by
  induction sigs with
  | nil => exact List.nodup_nil
  | cons sig sigs ih =>
    rw [validManagers_cons]
    split_ifs
    · refine List.nodup_cons.mpr ⟨fun hmem => ?_, ih.filter _⟩
      simp at hmem
    · exact ih

theorem length_validManagers (lib : MigrationLibraries) (δ : MigrationRevocationDelta) :
    (validManagers lib δ.targetMigrationId δ.signatures).length = (migrationSigners lib δ).card := by
  have hsame : (validManagers lib δ.targetMigrationId δ.signatures).toFinset =
      migrationSigners lib δ := by
    ext did
    rw [List.mem_toFinset, mem_validManagers, migrationSigners]
  rw [← hsame, List.toFinset_card_of_nodup (nodup_validManagers δ.signatures)]

/-- A migration revoked in a run was revoked before it, or one of its revocations came with enough
signers. -/
theorem signers_of_revoked {s : MigrationRun} {ops : List MigrationOperation} {id : MigrationId}
    (h : id ∈ (run (MigrationRuns.step lib) s ops).engine.revocationRegistry.revoked) :
    id ∈ s.engine.revocationRegistry.revoked ∨ ∃ δ now, .revoke δ now ∈ ops ∧
      δ.targetMigrationId = id ∧ s.engine.revocationThresholdM ≤ (migrationSigners lib δ).card := by
  induction ops generalizing s with
  | nil => exact .inl h
  | cons op ops ih =>
    rcases ih h with hstep | ⟨δ, now, hmem, htarget, henough⟩
    · refine (revoked_step.mp hstep).imp_right ?_
      rintro ⟨δ, now, hop, htarget, halted, hok⟩
      refine ⟨δ, now, hop ▸ List.mem_cons_self, htarget, ?_⟩
      rcases receiveRevocationDelta_cases lib s.engine δ now with ⟨e, hout⟩ | ⟨-, henough, -, -⟩
      · rw [hout] at hok
        cases hok
      · rw [← length_validManagers]
        exact henough
    · rw [thresholdM_step] at henough
      exact .inr ⟨δ, now, List.mem_cons_of_mem op hmem, htarget, henough⟩

end Migration

section Saturate
variable {lib : SaturateLibraries}

theorem countValidDistinctSignatures_eq (lib : SaturateLibraries)
    (signatures : List (Did × Bytes)) (message : Bytes) :
    countValidDistinctSignatures lib signatures message =
      (terminationSigners lib signatures message).card := by
  have hsame : (seenDids lib message [] signatures).toFinset =
      terminationSigners lib signatures message := by
    ext did
    rw [List.mem_toFinset, mem_seenDids, terminationSigners, List.mem_toFinset, List.mem_map]
    constructor
    · rintro (hnil | ⟨sigBytes, hmem, hvalid⟩)
      · exact absurd hnil List.not_mem_nil
      · exact ⟨(did, sigBytes), List.mem_filter.mpr ⟨hmem, hvalid⟩, rfl⟩
    · rintro ⟨⟨did', sigBytes⟩, hmem, rfl⟩
      obtain ⟨hmem, hvalid⟩ := List.mem_filter.mp hmem
      exact .inr ⟨sigBytes, hmem, hvalid⟩
  rw [countValidDistinctSignatures, ← hsame,
    List.toFinset_card_of_nodup (nodup_seenDids List.nodup_nil)]

theorem terminationThresholdM_step (s : SaturateModeStateMachine)
    (op : SaturateModeStateMachine.Operation) :
    (SaturateModeStateMachine.step lib s op).terminationThresholdM = s.terminationThresholdM := by
  cases op with
  | activate managerDid biscuitToken nowSecs =>
    simp only [SaturateModeStateMachine.step, activate]
    split <;> rfl
  | renew biscuitToken nowSecs =>
    simp only [SaturateModeStateMachine.step, renew]
    split_ifs
    · rfl
    · split
      · rfl
      · split <;> rfl
  | terminate signatures message =>
    simp only [SaturateModeStateMachine.step, terminate]
    split_ifs <;> rfl
  | tick nowSecs =>
    simp only [SaturateModeStateMachine.step, tick]
    split_ifs
    · split
      · split_ifs <;> rfl
      · rfl
    · rfl

/-- Signatures end Saturate Mode exactly when they come from enough signers. -/
theorem terminated_iff {s : SaturateModeStateMachine} (h : s.state = .saturate)
    (signatures : List (Did × Bytes)) (message : Bytes) :
    (s.terminate lib signatures message).2.state ≠ .saturate ↔
      s.terminationThresholdM ≤ (terminationSigners lib signatures message).card := by
  unfold terminate
  rw [if_neg (not_not.mpr h), countValidDistinctSignatures_eq]
  dsimp only
  split_ifs with hfew
  · exact iff_of_false (not_not.mpr h) (by omega)
  · exact iff_of_true (by simp) (by omega)

end Saturate

/-- What each threshold counts. For a device: at most `m` signatures of distinct DIDs that verify
under the keys of these DIDs, and at least `m` when it is revoked. For a migration and for Saturate
Mode: at least as many DIDs whose signatures verify so. -/
theorem thresholds_count_signers (lib : IdentityLibraries) (migrationLib : MigrationLibraries)
    (saturateLib : SaturateLibraries) :
    (∀ m n msgs did,
      let r := run (RevocationVotes.step lib) (RevocationSubsystem.new m n) msgs
      (signaturesFor r.store did).length ≤ m ∧
        ((signaturesFor r.store did).map ManagerSignature.managerDid).Nodup ∧
        (∀ sig ∈ signaturesFor r.store did, validSignature lib did sig = true) ∧
        (did ∈ r.revokedDids → max m 1 ≤ (validSigners lib (msgs.map Receipt.delta) did).card)) ∧
    (∀ (engine : SchemaMigrationEngine) ops id,
      id ∈ (run (MigrationRuns.step migrationLib) (start engine)
        ops).engine.revocationRegistry.revoked →
      id ∈ engine.revocationRegistry.revoked ∨ ∃ δ now, .revoke δ now ∈ ops ∧
        δ.targetMigrationId = id ∧
        engine.revocationThresholdM ≤ (migrationSigners migrationLib δ).card) ∧
    ∀ m rootCaPublicKey duration ops signatures message,
      let s := run (SaturateModeStateMachine.step saturateLib) (.new m rootCaPublicKey duration) ops
      s.state = .saturate → ((s.terminate saturateLib signatures message).2.state ≠ .saturate ↔
        m ≤ (terminationSigners saturateLib signatures message).card) := by
  refine ⟨fun m n msgs did => ?_, fun engine ops id h => signers_of_revoked h, ?_⟩
  · intro r
    obtain ⟨hlength, hnodup, hvalid⟩ :=
      signaturesFor_counts (run_counts (counts_new lib m n) msgs).store did
    refine ⟨hlength.trans_le (min_le_left m _), hnodup, hvalid, fun hrevoked => ?_⟩
    exact canFall_of_fallen (le_max_right m 1) ((revoked_iff_fallen n msgs did).mp hrevoked)
  · intro m rootCaPublicKey duration ops signatures message s hsaturate
    have hstep : ∀ (s : SaturateModeStateMachine) (op : SaturateModeStateMachine.Operation),
        s.terminationThresholdM = m →
          (SaturateModeStateMachine.step saturateLib s op).terminationThresholdM = m :=
      fun s op h => (terminationThresholdM_step s op).trans h
    have hthreshold : s.terminationThresholdM = m := invariant_run hstep ops rfl
    rw [terminated_iff hsaturate, hthreshold]

def sampleSigned : CoreLibraries :=
  { CoreHandle.sampleCoreLibraries [] with
    ed25519Verify := fun key _ sig =>
      if sig.val = List.replicate 64 (key.val.headD 0) then .ok () else .error "signature error"
    verifyStrict := fun key _ sig => sig.val = List.replicate 64 (key.val.headD 0) }

def sampleAlerts : SaturateLibraries :=
  { sampleSigned.toIdentityLibraries with
    biscuit := Capability.sampleBiscuits
    caveats := fun _ => ["disaster-alert"]
    keySizeError := fun _ => "invalid key size" }

/-- With thresholds of two of two, two new identities revoke the device that signed before, so that
three signers are counted; they revoke a migration and end Saturate Mode as well. -/
theorem strangers_reach_thresholds :
    let strangers : List ManagerSignature :=
      [⟨sampleDid₂, List.replicate 64 2⟩, ⟨sampleDid₃, List.replicate 64 3⟩]
    let r := run (RevocationVotes.step sampleSigned.toIdentityLibraries)
      (RevocationSubsystem.new 2 2)
      [⟨⟨sampleDid₂, [⟨sampleDid₁, List.replicate 64 1⟩], 1⟩, [], 5⟩,
        ⟨⟨sampleDid₁, strangers, 1⟩, [], 6⟩]
    let engine := SchemaMigrationEngine.new (sampleKey 9) 10 [10, 11] 2 [] [] []
    let s := run (SaturateModeStateMachine.step sampleAlerts) (.new 2 (List.replicate 32 9) 3600)
      [.activate sampleDid₁ [1] 10]
    (r.revokedDids = [sampleDid₁] ∧
      (signaturesFor r.store sampleDid₂).map ManagerSignature.managerDid = [sampleDid₁] ∧
      (signaturesFor r.store sampleDid₁).map ManagerSignature.managerDid =
        [sampleDid₂, sampleDid₃]) ∧
    (run (MigrationRuns.step sampleSigned.toMigrationLibraries) (start engine)
      [.prepare ⟨7, sampleDid₁, [], 10, 11, [], List.replicate 64 9, 0, .high, 1⟩ sampleDid₁,
        .revoke ⟨7, strangers, 1⟩ 5]).engine.revocationRegistry.revoked = [7] ∧
    s.state = .saturate ∧
      (s.terminate sampleAlerts (strangers.map fun sig => (sig.managerDid, sig.signature))
        [5]).2.state = .normal := by
  decide +kernel

end TirBase.ThresholdSigners
