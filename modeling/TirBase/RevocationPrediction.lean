import TirBase.RevocationVotes

/-! # What a validation says about the processing

The validation counts a manager by its first signature, the processing by any valid one. -/
namespace TirBase.RevocationPrediction
open RevocationSubsystem RevocationVotes ThresholdVotes TransitionRuns

/-- The managers whose first signature is valid, among those that are not revoked. -/
def forthright (lib : IdentityLibraries) (revokedDids : List Did) (targetDid : Did)
    (sigs : List ManagerSignature) : Finset Did :=
  firstGood ManagerSignature.managerDid (validSignature lib targetDid)
    (sigs.filter fun sig => sig.managerDid ∉ revokedDids)

/-- The validation accepts a message exactly when the processing answers that it is applied. -/
def Predicts (lib : IdentityLibraries) (r : RevocationSubsystem) (δ : RevocationDelta)
    (authored : List DeltaId) (now : ℤ) : Prop :=
  r.validateRevocationDelta lib δ = .ok () ↔
    (r.processIncomingDelta lib δ authored now).1 = .ok .applied

/-- With a valid signature of enough managers, enough managers have one that no bad signature of
theirs precedes. -/
def EnoughForthright (lib : IdentityLibraries) (m : ℕ) (revokedDids : List Did)
    (δ : RevocationDelta) : Prop :=
  m ≤ (signers (admissible lib revokedDids δ.targetDid δ.signatures)).card →
    m ≤ (forthright lib revokedDids δ.targetDid δ.signatures).card

section Validation
variable {lib : IdentityLibraries} {revokedDids : List Did} {targetDid : Did}
  {r : RevocationSubsystem} {c : Count Did} {δ : RevocationDelta} {m : ℕ}

theorem forthright_cons_of_revoked {sig : ManagerSignature} (h : sig.managerDid ∈ revokedDids)
    (sigs : List ManagerSignature) :
    forthright lib revokedDids targetDid (sig :: sigs) =
      forthright lib revokedDids targetDid sigs := by
  rw [forthright, forthright, List.filter_cons_of_neg]
  simpa using h

theorem forthright_cons_of_free {sig : ManagerSignature} (h : sig.managerDid ∉ revokedDids)
    (sigs : List ManagerSignature) :
    forthright lib revokedDids targetDid (sig :: sigs) =
      firstGood ManagerSignature.managerDid (validSignature lib targetDid)
        (sig :: sigs.filter fun sig => sig.managerDid ∉ revokedDids) := by
  rw [forthright, List.filter_cons_of_pos]
  simpa using h

theorem countValid_eq (seenDids : Finset Did) (validCount : ℕ) (sigs : List ManagerSignature) :
    countValid lib revokedDids (RevocationDelta.signingPayload lib targetDid) seenDids validCount
        sigs =
      validCount + (forthright lib revokedDids targetDid sigs \ seenDids).card := by
  induction sigs generalizing seenDids validCount with
  | nil =>
    have hnone : forthright lib revokedDids targetDid [] = ∅ := rfl
    rw [hnone, Finset.empty_sdiff, Finset.card_empty]
    rfl
  | cons sig sigs ih =>
    by_cases hrevoked : sig.managerDid ∈ revokedDids
    · rw [countValid, if_pos hrevoked, ih, forthright_cons_of_revoked hrevoked]
    rw [countValid, if_neg hrevoked, forthright_cons_of_free hrevoked]
    by_cases hseen : sig.managerDid ∈ seenDids
    · rw [if_pos hseen, ih, firstGood_cons_of_mem hseen]
      rfl
    rw [if_neg hseen, card_firstGood_cons hseen]
    have hrest : (firstGood ManagerSignature.managerDid (validSignature lib targetDid)
        (sigs.filter fun sig => sig.managerDid ∉ revokedDids) \
          insert sig.managerDid seenDids).card =
        (forthright lib revokedDids targetDid sigs \ insert sig.managerDid seenDids).card := rfl
    rw [hrest]
    by_cases hvalid : validSignature lib targetDid sig = true
    · obtain ⟨publicKey, hresolve, hverify⟩ := validSignature_iff.mp hvalid
      simp only [hresolve, hverify, ih, hvalid, if_true]
      omega
    · rw [if_neg hvalid, Nat.add_zero]
      cases hresolve : lib.resolveDid sig.managerDid with
      | error e => exact ih _ _
      | ok publicKey =>
        cases hverify : lib.verify publicKey (RevocationDelta.signingPayload lib targetDid)
            sig.signature with
        | error e =>
          simp only [hverify]
          exact ih _ _
        | ok u => exact absurd (validSignature_iff.mpr ⟨publicKey, hresolve, hverify⟩) hvalid

/-- The validation accepts what enough managers sign at their first try. -/
theorem validate_iff : r.validateRevocationDelta lib δ = .ok () ↔ δ.targetDid ≠ "" ∧
    r.thresholdM ≤ (forthright lib r.revokedDids δ.targetDid δ.signatures).card := by
  have hcount : countValid lib r.revokedDids (RevocationDelta.signingPayload lib δ.targetDid) ∅ 0
      δ.signatures = (forthright lib r.revokedDids δ.targetDid δ.signatures).card := by
    rw [countValid_eq, Finset.sdiff_empty, Nat.zero_add]
  unfold validateRevocationDelta
  by_cases htarget : δ.targetDid = ""
  · rw [if_pos htarget]
    exact iff_of_false (fun h => (by cases h)) fun h => h.1 htarget
  · rw [if_neg htarget, hcount]
    dsimp only
    split_ifs with hm
    · exact iff_of_true rfl ⟨htarget, hm⟩
    · exact iff_of_false (fun h => (by cases h)) fun h => hm h.2

/-- A first message is applied when enough managers have a valid signature in it. -/
theorem applied_iff (h : Counts lib m r c) (hm : 1 ≤ m)
    (hnone : signaturesFor r.store δ.targetDid = []) (authored : List DeltaId) (now : ℤ) :
    (r.processIncomingDelta lib δ authored now).1 = .ok .applied ↔ δ.targetDid ≠ "" ∧
      m ≤ (signers (admissible lib r.revokedDids δ.targetDid δ.signatures)).card := by
  by_cases hclosed : δ.targetDid = "" ∨ δ.signatures = []
  · obtain ⟨e, hout⟩ := process_closed hclosed authored now
    rw [hout]
    refine iff_of_false (fun hok => (by cases hok)) ?_
    rintro ⟨htarget, henough⟩
    rw [hclosed.resolve_left htarget] at henough
    have hempty : (signers (admissible lib r.revokedDids δ.targetDid [])).card = 0 := rfl
    omega
  rw [not_or] at hclosed
  obtain ⟨htarget, hsigs⟩ := hclosed
  have hvotes : c.votes δ.targetDid = ∅ := by
    have hlength := (signaturesFor_counts h.store δ.targetDid).1
    rw [hnone, List.length_nil] at hlength
    apply Finset.card_eq_zero.mp
    omega
  obtain ⟨s, hstore, hout⟩ := process_open h htarget hsigs authored now
  have hstatus := status_applied_iff hstore δ.targetDid
  rw [Function.update_self, hvotes, Finset.empty_union, max_eq_left hm] at hstatus
  rw [hout, and_iff_right htarget, ← hstatus]
  cases hresult : s.status δ.targetDid with
  | none => exact iff_of_false (fun h => (by cases h)) (fun h => (by cases h))
  | some status =>
    cases status with
    | pending collected required =>
      exact iff_of_false (fun h => (by cases h)) (fun h => (by cases h))
    | applied =>
      dsimp only
      split_ifs <;> exact iff_of_true rfl rfl

/-- Who signs validly at the first try has a valid signature. -/
theorem card_forthright_le (lib : IdentityLibraries) (revokedDids : List Did) (targetDid : Did)
    (sigs : List ManagerSignature) :
    (forthright lib revokedDids targetDid sigs).card ≤
      (signers (admissible lib revokedDids targetDid sigs)).card := by
  have hsame : (sigs.filter fun sig => sig.managerDid ∉ revokedDids).filter
      (validSignature lib targetDid) = admissible lib revokedDids targetDid sigs := by
    rw [List.filter_filter, admissible]
    congr 1
    funext sig
    rw [Bool.decide_and, Bool.and_comm, Bool.decide_eq_true]
  apply Finset.card_le_card
  rw [signers, ← hsame]
  exact firstGood_subset

end Validation

/-- For a target without signatures, in every state that is reached, the validation predicts the
processing unless the managers make the difference whose bad signature precedes their valid one. -/
theorem predicts_iff (lib : IdentityLibraries) {m : ℕ} (hm : 1 ≤ m) (n : ℕ) (msgs : List Receipt)
    (δ : RevocationDelta) (authored : List DeltaId) (now : ℤ)
    (hnone : signaturesFor (run (step lib) (RevocationSubsystem.new m n) msgs).store
      δ.targetDid = []) :
    let r := run (step lib) (RevocationSubsystem.new m n) msgs
    Predicts lib r δ authored now ↔ δ.targetDid = "" ∨ EnoughForthright lib m r.revokedDids δ := by
  intro r
  have hcounts := run_counts (counts_new lib m n) msgs
  have hthreshold : r.thresholdM = m := hcounts.thresholdM
  have hle := card_forthright_le lib r.revokedDids δ.targetDid δ.signatures
  rw [Predicts, validate_iff, applied_iff hcounts hm hnone, hthreshold, EnoughForthright]
  by_cases htarget : δ.targetDid = ""
  · simp [htarget]
  · rw [and_iff_right htarget, and_iff_right htarget, or_iff_right htarget]
    constructor
    · intro h henough
      exact h.mpr henough
    · intro h
      refine ⟨fun hfirst => ?_, h⟩
      exact hfirst.trans hle

def sampleLib : IdentityLibraries :=
  { (CrdtEngine.sampleLibraries []).toIdentityLibraries with
    ed25519Verify := fun _ _ sig =>
      if sig.val = List.replicate 64 0 then .error "signature error" else .ok () }

def signedBy (signatures : List Bytes) : RevocationDelta :=
  ⟨CrdtEngine.sampleDid₃, signatures.map fun s => ⟨CrdtEngine.sampleDid₂, s⟩, 1⟩

theorem predicts_iff_sample :
    Predicts sampleLib (run (step sampleLib) (RevocationSubsystem.new 1 2) [])
      (signedBy [List.replicate 64 1, List.replicate 64 0]) [] 5 := by
  have hnone : signaturesFor (run (step sampleLib) (RevocationSubsystem.new 1 2) []).store
      (signedBy [List.replicate 64 1, List.replicate 64 0]).targetDid = [] := rfl
  refine (predicts_iff sampleLib (le_refl 1) 2 [] _ [] 5 hnone).mpr (.inr fun _ => ?_)
  decide +kernel

theorem bad_signature_first_refused :
    let r := RevocationSubsystem.new 1 2
    let δ := signedBy [List.replicate 64 0, List.replicate 64 1]
    r.validateRevocationDelta sampleLib δ = .error (.thresholdNotMet 0 1) ∧
      (r.processIncomingDelta sampleLib δ [] 5).1 = .ok .applied ∧
      (r.processIncomingDelta sampleLib δ [] 5).2.1.revokedDids = [CrdtEngine.sampleDid₃] ∧
      ¬Predicts sampleLib r δ [] 5 := by
  intro r δ
  have hvalidate : r.validateRevocationDelta sampleLib δ = .error (.thresholdNotMet 0 1) := by
    decide +kernel
  have hprocess : (r.processIncomingDelta sampleLib δ [] 5).1 = .ok .applied := by decide +kernel
  refine ⟨hvalidate, hprocess, by decide +kernel, ?_⟩
  intro hpredicts
  have haccepted := hpredicts.mpr hprocess
  rw [hvalidate] at haccepted
  cases haccepted

end TirBase.RevocationPrediction
