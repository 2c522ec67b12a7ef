import TirBase.CrdtEngine
import TirBase.RevocationVotes

/-! # What it takes to revoke a device

Every kept signature was added by some message, when its signer was not revoked; a revocation is
announced once, with signatures that revoke on any other device as well. -/
namespace TirBase.RevocationSoundness
open CrdtEngine RevocationSubsystem RevocationVotes ThresholdVotes TransitionRuns

variable {lib : IdentityLibraries} {m n : ℕ} {s : PendingRevocationStore}
  {r : RevocationSubsystem} {did : Did} {sig : ManagerSignature}

theorem signaturesFor_entryFor (s : PendingRevocationStore) (targetDid : Did) (m n : ℕ) (now : ℤ) :
    (entryFor s targetDid m n now).signatures = signaturesFor s targetDid := by
  unfold entryFor signaturesFor
  cases s.pending.lookup targetDid <;> rfl

theorem signaturesFor_insert (s : PendingRevocationStore) (targetDid : Did)
    (entry : PendingRevocation) (did : Did) :
    signaturesFor ⟨s.pending.insert targetDid entry⟩ did =
      if did = targetDid then entry.signatures else signaturesFor s did := by
  unfold signaturesFor
  by_cases h : did = targetDid
  · rw [if_pos h, h, AList.lookup_insert]
    rfl
  · rw [if_neg h, AList.lookup_insert_ne h]

theorem mem_addSignature {targetDid : Did} {tried : ManagerSignature} {revokedDids : List Did}
    {now : ℤ} (h : sig ∈ signaturesFor
      (s.addSignature lib targetDid tried m n revokedDids now).2 did) :
    sig ∈ signaturesFor s did ∨ did = targetDid ∧ sig = tried ∧ sig.managerDid ∉ revokedDids ∧
      validSignature lib did sig = true := by
  by_cases hadmissible :
      tried.managerDid ∉ revokedDids ∧ validSignature lib targetDid tried = true
  · have hold : (entryFor s targetDid m n now).signatures = signaturesFor s targetDid :=
      signaturesFor_entryFor s targetDid m n now
    rw [addSignature_of_admissible hadmissible] at h
    generalize entryFor s targetDid m n now = entry at h hold
    dsimp only at h
    by_cases hdid : did = targetDid
    · subst hdid
      have hlast : sig ∈ entry.signatures ++ [tried] → sig ∈ signaturesFor s did ∨
          did = did ∧ sig = tried ∧ sig.managerDid ∉ revokedDids ∧
            validSignature lib did sig = true := by
        intro hmem
        rcases List.mem_append.mp hmem with hmem | hmem
        · exact .inl (hold ▸ hmem)
        · rw [List.mem_singleton.mp hmem]
          exact .inr ⟨rfl, rfl, hadmissible⟩
      split_ifs at h
      all_goals
        rw [signaturesFor_insert, if_pos rfl] at h
        first
          | exact hlast h
          | exact hlast (List.mem_append_left _ h)
    · split_ifs at h
      all_goals
        rw [signaturesFor_insert, if_neg hdid] at h
        exact .inl h
  · obtain ⟨e, hout⟩ := addSignature_of_not_admissible hadmissible (s := s) (m := m) (n := n) now
    rw [hout] at h
    exact .inl h

theorem mem_addSignatures {targetDid : Did} {now : ℤ} {lastStatus : Option RevocationStatus}
    {sigs : List ManagerSignature} (h : sig ∈ signaturesFor
      (r.addSignatures lib targetDid now lastStatus sigs).2.store did) :
    sig ∈ signaturesFor r.store did ∨ did = targetDid ∧ sig ∈ sigs ∧
      sig.managerDid ∉ r.revokedDids ∧ validSignature lib did sig = true := by
  induction sigs generalizing r lastStatus with
  | nil => exact .inl h
  | cons tried sigs ih =>
    simp only [RevocationSubsystem.addSignatures] at h
    have hrest : sig ∈ signaturesFor (r.store.addSignature lib targetDid tried r.thresholdM
          r.thresholdN r.revokedDids now).2 did ∨ did = targetDid ∧ sig ∈ sigs ∧
            sig.managerDid ∉ r.revokedDids ∧ validSignature lib did sig = true := by
      split at h
      · exact ih h
      · exact ih h
    rcases hrest with hadded | ⟨hdid, hmem, hvalid⟩
    · rcases mem_addSignature hadded with hold | ⟨hdid, rfl, hvalid⟩
      · exact .inl hold
      · exact .inr ⟨hdid, List.mem_cons_self, hvalid⟩
    · exact .inr ⟨hdid, List.mem_cons_of_mem _ hmem, hvalid⟩

/-- A signature that is kept after a message was there, or is a valid one of the message whose signer
is not revoked. -/
theorem mem_step {msg : Receipt} (h : sig ∈ signaturesFor (step lib r msg).store did) :
    sig ∈ signaturesFor r.store did ∨ did = msg.delta.targetDid ∧ sig ∈ msg.delta.signatures ∧
      sig.managerDid ∉ r.revokedDids ∧ validSignature lib did sig = true := by
  have hstore : (step lib r msg).store = r.store ∨ (step lib r msg).store =
      (r.addSignatures lib msg.delta.targetDid msg.now none msg.delta.signatures).2.store := by
    by_cases hclosed : msg.delta.targetDid = "" ∨ msg.delta.signatures = []
    · obtain ⟨e, hout⟩ := process_closed (r := r) hclosed msg.authored msg.now
      rw [step, stepWithEffects, hout]
      exact .inl rfl
    · rw [not_or] at hclosed
      refine .inr ?_
      unfold step stepWithEffects RevocationSubsystem.processIncomingDelta
      rw [if_neg hclosed.1, if_neg hclosed.2]
      dsimp only
      split
      · rfl
      · split <;> rfl
      · rfl
  rcases hstore with hsame | hadded
  · rw [hsame] at h
    exact .inl h
  · rw [hadded] at h
    exact mem_addSignatures h

/-- The message added the signature: it brought it for this target while its signer was not revoked,
and the signature is valid and kept from then on. -/
structure Adds (lib : IdentityLibraries) (before : RevocationSubsystem) (msg : Receipt) (did : Did)
    (sig : ManagerSignature) : Prop where
  target : msg.delta.targetDid = did
  brought : sig ∈ msg.delta.signatures
  valid : validSignature lib did sig = true
  notRevoked : sig.managerDid ∉ before.revokedDids
  new : sig ∉ signaturesFor before.store did
  kept : sig ∈ signaturesFor (step lib before msg).store did

theorem exists_adds (hstart : signaturesFor r.store did = []) (msgs : List Receipt)
    (h : sig ∈ signaturesFor (run (step lib) r msgs).store did) :
    ∃ earlier msg later, msgs = earlier ++ msg :: later ∧
      Adds lib (run (step lib) r earlier) msg did sig := by
  induction msgs using List.reverseRecOn with
  | nil =>
    rw [run_nil, hstart] at h
    exact absurd h List.not_mem_nil
  | append_singleton msgs msg ih =>
    by_cases hold : sig ∈ signaturesFor (run (step lib) r msgs).store did
    · obtain ⟨earlier, msg', later, hsplit, hadds⟩ := ih hold
      exact ⟨earlier, msg', later ++ [msg], by rw [hsplit, List.append_assoc]; rfl, hadds⟩
    · rw [run_append, run_cons, run_nil] at h
      rcases mem_step h with hmem | ⟨htarget, hbrought, hfree, hvalid⟩
      · exact absurd hmem hold
      · exact ⟨msgs, msg, [], rfl, ⟨htarget.symm, hbrought, hvalid, hfree, hold, h⟩⟩

/-- How often the revocation of a DID is announced in a run from a counted state. -/
theorem countP_announces {c : Count Did} (h : Counts lib m r c) (msgs : List Receipt) (did : Did) :
    (emitted (stepWithEffects lib) r msgs).countP (announces did) =
      if did ∈ (run (step lib) r msgs).revokedDids ∧ did ∉ r.revokedDids then 1 else 0 := by
  induction msgs generalizing r c with
  | nil =>
    rw [if_neg fun hnew => hnew.2 hnew.1]
    rfl
  | cons msg msgs ih =>
    obtain ⟨hnext, -, hcount, -⟩ := process_counts h msg
    have hnext : Counts lib m (step lib r msg) (receive (max m 1) c (ballot lib msg.delta)) := hnext
    have hfirst : (stepWithEffects lib r msg).2.countP (announces did) =
        if did ∈ (step lib r msg).revokedDids ∧ did ∉ r.revokedDids then 1 else 0 := by
      simp only [hnext.revoked, h.revoked]
      exact hcount did
    have hgrow : did ∈ r.revokedDids → did ∈ (step lib r msg).revokedDids := by
      rw [hnext.revoked, h.revoked]
      exact fun hmem => fallen_subset_receive _ c _ hmem
    have hlater : did ∈ (step lib r msg).revokedDids →
        did ∈ (run (step lib) (step lib r msg) msgs).revokedDids := by
      rw [hnext.revoked, (run_counts hnext msgs).revoked]
      exact fun hmem => fallen_subset_run _ _ _ hmem
    rw [emitted_cons, List.countP_append, hfirst]
    have hrest : (emitted (stepWithEffects lib) (step lib r msg) msgs).countP (announces did) = _ :=
      ih hnext
    rw [run_cons]
    have hstep : (stepWithEffects lib r msg).1 = step lib r msg := rfl
    rw [hstep, hrest]
    by_cases hr : did ∈ r.revokedDids
    · simp [hr, hgrow hr]
    · by_cases hs : did ∈ (step lib r msg).revokedDids
      · simp [hr, hs, hlater hs]
      · simp [hr, hs]

/-- An announced message names its target and carries enough valid signatures. -/
theorem complete_of_announced {c : Count Did} (hm : 1 ≤ m) (h : Counts lib m r c)
    (msgs : List Receipt) {complete : RevocationDelta}
    (hmem : .revocationApplied did complete ∈ emitted (stepWithEffects lib) r msgs) :
    did ≠ "" ∧ complete.targetDid = did ∧ max m 1 ≤ (signers complete.signatures).card ∧
      ∀ sig ∈ complete.signatures, validSignature lib did sig = true := by
  induction msgs generalizing r c with
  | nil => exact absurd hmem List.not_mem_nil
  | cons msg msgs ih =>
    obtain ⟨hnext, -, -, hannounced⟩ := process_counts h msg
    rw [emitted_cons] at hmem
    rcases List.mem_append.mp hmem with hfirst | hlater
    · obtain ⟨htarget, hfallen, createdAt, rfl⟩ := hannounced did complete hfirst
      obtain ⟨hlength, hnodup, hvalid⟩ := signaturesFor_counts hnext.store did
      have henough := (hnext.settled did).mp hfallen
      refine ⟨htarget, rfl, ?_, hvalid⟩
      rw [signers, List.toFinset_card_of_nodup hnodup, List.length_map, hlength]
      omega
    · exact ih hnext hlater

/-- A new device with the same threshold applies a message with enough valid signers. -/
theorem applied_of_enough {δ : RevocationDelta} (htarget : δ.targetDid ≠ "")
    (henough : max m 1 ≤ (signers δ.signatures).card)
    (hvalid : ∀ sig ∈ δ.signatures, validSignature lib δ.targetDid sig = true) (n : ℕ)
    (authored : List DeltaId) (now : ℤ) :
    ((RevocationSubsystem.new m n).processIncomingDelta lib δ authored now).1 = .ok .applied := by
  obtain ⟨hnext, happlied, -, -⟩ := process_counts (counts_new lib m n) ⟨δ, authored, now⟩
  have hsigs : δ.signatures ≠ [] := by
    intro hnil
    rw [hnil] at henough
    simp [signers] at henough
  have hvoters : (ballot lib δ).voters = signers δ.signatures := by
    rw [ballot, if_neg htarget, List.filter_eq_self.mpr hvalid]
  refine happlied.mpr ⟨htarget, hsigs, (hnext.settled _).mpr ?_⟩
  have htargetOf : (ballot lib δ).target = δ.targetDid := rfl
  dsimp only
  rw [votes_receive, if_pos htargetOf, hvoters]
  simpa [Count.start] using henough

/-- A DID counts as revoked only behind `m` valid signatures of distinct DIDs, each added while its
signer was not revoked. It stays revoked, is announced exactly once, and the announced message
revokes it on a new device. -/
theorem revocation_sound (lib : IdentityLibraries) (m n : ℕ) (hm : 1 ≤ m) (msgs : List Receipt)
    (did : Did) :
    let r := run (step lib) (RevocationSubsystem.new m n) msgs
    let effects := emitted (stepWithEffects lib) (RevocationSubsystem.new m n) msgs
    (did ∈ r.revokedDids → m ≤ (signaturesFor r.store did).length ∧
      ((signaturesFor r.store did).map ManagerSignature.managerDid).Nodup ∧
      ∀ sig ∈ signaturesFor r.store did, ∃ earlier msg later, msgs = earlier ++ msg :: later ∧
        Adds lib (run (step lib) (RevocationSubsystem.new m n) earlier) msg did sig) ∧
    (∀ later, did ∈ r.revokedDids → did ∈ (run (step lib) r later).revokedDids) ∧
    effects.countP (announces did) = (if did ∈ r.revokedDids then 1 else 0) ∧
    ∀ complete, .revocationApplied did complete ∈ effects → ∀ n' authored now,
      ((RevocationSubsystem.new m n').processIncomingDelta lib complete authored now).1 =
        .ok .applied := by
  intro r effects
  have hstart := counts_new lib m n
  have hcounts : Counts lib m r _ := run_counts hstart msgs
  have hfree : did ∉ (RevocationSubsystem.new m n).revokedDids := List.not_mem_nil
  refine ⟨fun hmem => ?_, fun later hmem => ?_, ?_, fun complete hmem n' authored now => ?_⟩
  · obtain ⟨hlength, hnodup, -⟩ := signaturesFor_counts hcounts.store did
    have henough := (hcounts.settled did).mp ((hcounts.revoked did).mp hmem)
    exact ⟨by omega, hnodup, fun sig hsig => exists_adds rfl msgs hsig⟩
  · rw [(run_counts hcounts later).revoked]
    exact fallen_subset_run _ _ _ ((hcounts.revoked did).mp hmem)
  · have hcount := countP_announces hstart msgs did
    simp only [hfree, not_false_iff, and_true] at hcount
    exact hcount
  · obtain ⟨htarget, hname, henough, hvalid⟩ := complete_of_announced hm hstart msgs hmem
    subst hname
    exact applied_of_enough htarget henough hvalid n' authored now

/-- Two managers vote a device out with a threshold of two. -/
theorem revocation_sound_sample :
    let msgs : List Receipt :=
      [⟨⟨sampleDid₃, [⟨sampleDid₁, List.replicate 64 0⟩], 1⟩, [], 5⟩,
        ⟨⟨sampleDid₃, [⟨sampleDid₁, List.replicate 64 0⟩, ⟨sampleDid₂, List.replicate 64 0⟩], 1⟩,
          [7], 6⟩]
    let lib := (sampleLibraries []).toIdentityLibraries
    let r := run (step lib) (RevocationSubsystem.new 2 3) msgs
    r.revokedDids = [sampleDid₃] ∧ 2 ≤ (signaturesFor r.store sampleDid₃).length ∧
      (emitted (stepWithEffects lib) (RevocationSubsystem.new 2 3) msgs).countP
        (announces sampleDid₃) = 1 := by
  intro msgs lib r
  have hrevoked : r.revokedDids = [sampleDid₃] := by decide +kernel
  have hmem : sampleDid₃ ∈ r.revokedDids := by
    rw [hrevoked]
    exact List.mem_singleton_self _
  obtain ⟨henough, -, hcount, -⟩ := revocation_sound lib 2 3 (by decide) msgs sampleDid₃
  refine ⟨hrevoked, (henough hmem).1, ?_⟩
  rw [if_pos hmem] at hcount
  exact hcount

end TirBase.RevocationSoundness
