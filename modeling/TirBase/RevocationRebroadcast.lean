import TirBase.CrdtEngine
import TirBase.RevocationSoundness

/-! # Revocations told again

A device that meets a new one tells it the revocations of the last day, in the order in which it
applied them, each with the signatures that it kept. These are just enough, so the new device
needs all of them. -/
namespace TirBase.RevocationRebroadcast
open RevocationSubsystem RevocationVotes RevocationSoundness ThresholdVotes TransitionRuns

variable {lib : IdentityLibraries} {m n : ℕ} {r : RevocationSubsystem} {did : Did}
  {msgs : List Receipt} {within now : ℤ}

/-- The message with which the DID became revoked came at this time. -/
def RevokedAt (lib : IdentityLibraries) (r : RevocationSubsystem) (msgs : List Receipt) (did : Did)
    (appliedAt : ℤ) : Prop :=
  ∃ earlier msg later, msgs = earlier ++ msg :: later ∧
    did ∉ (run (step lib) r earlier).revokedDids ∧
    did ∈ (step lib (run (step lib) r earlier) msg).revokedDids ∧ msg.now = appliedAt

theorem addSignatures_frame (r : RevocationSubsystem) (targetDid : Did) (now : ℤ)
    (lastStatus : Option RevocationStatus) (sigs : List ManagerSignature) :
    (r.addSignatures lib targetDid now lastStatus sigs).2 =
      { r with store := (r.addSignatures lib targetDid now lastStatus sigs).2.store } := by
  induction sigs generalizing r lastStatus with
  | nil => rfl
  | cons sig sigs ih =>
    simp only [RevocationSubsystem.addSignatures]
    split
    · exact ih _ _
    · exact ih _ _

/-- A message leaves the revoked DIDs and their times, or appends its target with its own time. -/
theorem step_cases (r : RevocationSubsystem) (msg : Receipt) :
    ((step lib r msg).revokedDids = r.revokedDids ∧
      (step lib r msg).deviceStatus = r.deviceStatus) ∨
    (msg.delta.targetDid ∉ r.revokedDids ∧ msg.delta.targetDid ≠ "" ∧
      (step lib r msg).revokedDids = r.revokedDids ++ [msg.delta.targetDid] ∧
      (step lib r msg).deviceStatus = r.deviceStatus.insert msg.delta.targetDid
        ⟨msg.delta.targetDid, .revoked, some msg.now⟩) := by
  by_cases hclosed : msg.delta.targetDid = "" ∨ msg.delta.signatures = []
  · obtain ⟨e, hout⟩ := process_closed (r := r) hclosed msg.authored msg.now
    rw [step, stepWithEffects, hout]
    exact .inl ⟨rfl, rfl⟩
  · rw [not_or] at hclosed
    have hframe := @addSignatures_frame lib r msg.delta.targetDid msg.now none
      msg.delta.signatures
    unfold step stepWithEffects RevocationSubsystem.processIncomingDelta
    rw [if_neg hclosed.1, if_neg hclosed.2]
    dsimp only
    generalize r.addSignatures lib msg.delta.targetDid msg.now none msg.delta.signatures = filed
      at hframe ⊢
    rw [hframe]
    dsimp only
    split
    · exact .inl ⟨rfl, rfl⟩
    · by_cases hknown : msg.delta.targetDid ∈ r.revokedDids
      · rw [if_pos hknown]
        exact .inl ⟨rfl, rfl⟩
      · rw [if_neg hknown]
        exact .inr ⟨hknown, hclosed.1, rfl, rfl⟩
    · exact .inl ⟨rfl, rfl⟩

theorem status_newly (hold : did ∉ r.revokedDids) {msg : Receipt}
    (hnew : did ∈ (step lib r msg).revokedDids) :
    (step lib r msg).deviceStatus.lookup did = some ⟨did, .revoked, some msg.now⟩ := by
  rcases @step_cases lib r msg with ⟨hrevoked, -⟩ | ⟨-, -, hrevoked, hstatus⟩
  · rw [hrevoked] at hnew
    exact absurd hnew hold
  · rw [hrevoked, List.mem_append, List.mem_singleton] at hnew
    have hdid := hnew.resolve_left hold
    rw [hstatus, hdid, AList.lookup_insert]

/-- The time of a revocation is not touched again. -/
theorem status_step (hold : did ∈ r.revokedDids) (msg : Receipt) :
    did ∈ (step lib r msg).revokedDids ∧
      (step lib r msg).deviceStatus.lookup did = r.deviceStatus.lookup did := by
  rcases @step_cases lib r msg with ⟨hrevoked, hstatus⟩ | ⟨hfree, -, hrevoked, hstatus⟩
  · rw [hrevoked, hstatus]
    exact ⟨hold, rfl⟩
  · have hne : did ≠ msg.delta.targetDid := fun heq => hfree (heq ▸ hold)
    rw [hrevoked, hstatus, AList.lookup_insert_ne hne]
    exact ⟨List.mem_append_left _ hold, rfl⟩

theorem status_run (hold : did ∈ r.revokedDids) (msgs : List Receipt) :
    did ∈ (run (step lib) r msgs).revokedDids ∧
      (run (step lib) r msgs).deviceStatus.lookup did = r.deviceStatus.lookup did := by
  induction msgs generalizing r with
  | nil => exact ⟨hold, rfl⟩
  | cons msg msgs ih =>
    obtain ⟨hmem, hstatus⟩ := @status_step lib _ _ hold msg
    obtain ⟨hlater, hsame⟩ := ih hmem
    exact ⟨hlater, hsame.trans hstatus⟩

theorem RevokedAt.status {appliedAt : ℤ} (h : RevokedAt lib r msgs did appliedAt) :
    did ∈ (run (step lib) r msgs).revokedDids ∧
      (run (step lib) r msgs).deviceStatus.lookup did =
        some ⟨did, .revoked, some appliedAt⟩ := by
  obtain ⟨earlier, msg, later, rfl, hold, hnew, rfl⟩ := h
  obtain ⟨hmem, hstatus⟩ := @status_run lib _ _ hnew later
  rw [run_append, run_cons, hstatus]
  exact ⟨hmem, status_newly hold hnew⟩

theorem exists_revokedAt (hstart : did ∉ r.revokedDids)
    (hend : did ∈ (run (step lib) r msgs).revokedDids) : ∃ appliedAt, RevokedAt lib r msgs did appliedAt := by
  induction msgs using List.reverseRecOn with
  | nil => exact absurd hend hstart
  | append_singleton msgs msg ih =>
    by_cases hmem : did ∈ (run (step lib) r msgs).revokedDids
    · obtain ⟨appliedAt, earlier, msg', later, hsplit, hold, hnew, hat⟩ := ih hmem
      exact ⟨appliedAt, earlier, msg', later ++ [msg], by rw [hsplit, List.append_assoc]; rfl, hold,
        hnew, hat⟩
    · rw [run_append, run_cons, run_nil] at hend
      exact ⟨msg.now, msgs, msg, [], rfl, hmem, hend, rfl⟩

/-- The revoked DIDs are listed once, and each of them is the target of a message. -/
theorem revokedDids_run (hstart : r.revokedDids.Nodup ∧ "" ∉ r.revokedDids)
    (msgs : List Receipt) :
    (run (step lib) r msgs).revokedDids.Nodup ∧ "" ∉ (run (step lib) r msgs).revokedDids := by
  have hstep : ∀ (r : RevocationSubsystem) (msg : Receipt),
      r.revokedDids.Nodup ∧ "" ∉ r.revokedDids →
        (step lib r msg).revokedDids.Nodup ∧ "" ∉ (step lib r msg).revokedDids := by
    rintro r msg ⟨hnodup, hempty⟩
    obtain ⟨hrevoked, -⟩ | ⟨hfree, htarget, hrevoked, -⟩ := @step_cases lib r msg
    · rw [hrevoked]
      exact ⟨hnodup, hempty⟩
    · rw [hrevoked]
      refine ⟨hnodup.append (List.nodup_singleton _) ?_, fun hmem => ?_⟩
      · exact List.disjoint_singleton.mpr hfree
      · rcases List.mem_append.mp hmem with hmem | hmem
        · exact hempty hmem
        · exact htarget (List.mem_singleton.mp hmem).symm
  exact invariant_run hstep msgs hstart

/-- The message names a target and carries `m` valid signatures, of as many managers. -/
structure Complete (lib : IdentityLibraries) (m : ℕ) (δ : RevocationDelta) : Prop where
  target : δ.targetDid ≠ ""
  length : δ.signatures.length = m
  enough : (signers δ.signatures).card = m
  valid : ∀ sig ∈ δ.signatures, validSignature lib δ.targetDid sig = true

theorem Complete.voters {δ : RevocationDelta} (h : Complete lib m δ) :
    (ballot lib δ).voters = signers δ.signatures := by
  rw [ballot, if_neg h.target, List.filter_eq_self.mpr h.valid]

/-- The store has a complete message for every revoked DID. -/
theorem build_of_revoked {c : Count Did} (h : Counts lib m r c) (hm : 1 ≤ m) (hdid : did ≠ "")
    (hmem : did ∈ r.revokedDids) :
    ∃ δ, r.store.buildRevocationDelta did = some δ ∧ δ.targetDid = did ∧ Complete lib m δ := by
  have henough := (h.settled did).mp ((h.revoked did).mp hmem)
  obtain ⟨createdAt, hbuild⟩ := build_of_enough h.store henough
  obtain ⟨hlength, hnodup, hvalid⟩ := signaturesFor_counts h.store did
  have hexact : (signaturesFor r.store did).length = m := by omega
  refine ⟨_, hbuild, rfl, hdid, hexact, ?_, hvalid⟩
  rw [signers, List.toFinset_card_of_nodup hnodup, List.length_map, hexact]

/-- The revocation was applied in the last `within` microseconds. -/
def recently (r : RevocationSubsystem) (within now : ℤ) (did : Did) : Bool :=
  (((r.deviceStatus.lookup did).bind fun s => s.lastRevocationDeltaReceivedAt).map fun ts =>
    decide (now - within ≤ ts)).getD false

theorem RevokedAt.recently_iff {appliedAt : ℤ} (h : RevokedAt lib r msgs did appliedAt) :
    recently (run (step lib) r msgs) within now did = true ↔ now - within ≤ appliedAt := by
  rw [recently, h.status.2]
  exact decide_eq_true_iff

def device (lib : IdentityLibraries) (m n : ℕ) (msgs : List Receipt) : RevocationSubsystem :=
  run (step lib) (RevocationSubsystem.new m n) msgs

theorem device_counts (lib : IdentityLibraries) (m n : ℕ) (msgs : List Receipt) :
    Counts lib m (device lib m n msgs) (run (receive (max m 1)) .start (ballots lib msgs)) :=
  run_counts (counts_new lib m n) msgs

theorem device_revokedDids (lib : IdentityLibraries) (m n : ℕ) (msgs : List Receipt) :
    (device lib m n msgs).revokedDids.Nodup ∧ "" ∉ (device lib m n msgs).revokedDids :=
  revokedDids_run ⟨List.nodup_nil, List.not_mem_nil⟩ msgs

theorem build_device (hm : 1 ≤ m) (hmem : did ∈ (device lib m n msgs).revokedDids) :
    ∃ δ, (device lib m n msgs).store.buildRevocationDelta did = some δ ∧ δ.targetDid = did ∧
      Complete lib m δ := by
  have hdid : did ≠ "" := fun heq => (device_revokedDids lib m n msgs).2 (heq ▸ hmem)
  exact build_of_revoked (device_counts lib m n msgs) hm hdid hmem

theorem targets_recent (hm : 1 ≤ m) :
    ((device lib m n msgs).buildRecentRevocationDeltas within now).map
        RevocationDelta.targetDid =
      (device lib m n msgs).revokedDids.filter
        (recently (device lib m n msgs) within now) := by
  have hbuild : ∀ did ∈ (device lib m n msgs).revokedDids.filter
      (recently (device lib m n msgs) within now),
      ((device lib m n msgs).store.buildRevocationDelta did).map RevocationDelta.targetDid =
        some did := by
    intro did hdid
    obtain ⟨δ, hsome, htarget, -⟩ := build_device hm (List.mem_filter.mp hdid).1
    rw [hsome, Option.map_some, htarget]
  rw [buildRecentRevocationDeltas, List.map_filterMap]
  refine (List.filterMap_congr hbuild).trans ?_
  exact List.filterMap_some

theorem complete_of_recent (hm : 1 ≤ m) {δ : RevocationDelta}
    (hδ : δ ∈ (device lib m n msgs).buildRecentRevocationDeltas within now) :
    Complete lib m δ := by
  obtain ⟨did, hdid, hsome⟩ := List.mem_filterMap.mp hδ
  obtain ⟨δ', hsome', -, hcomplete⟩ := build_device hm (List.mem_filter.mp hdid).1
  rw [hsome] at hsome'
  cases hsome'
  exact hcomplete

/-- What is told are the revocations that were applied recently. -/
theorem mem_targets_recent_iff (hm : 1 ≤ m) :
    did ∈ ((device lib m n msgs).buildRecentRevocationDeltas within now).map
        RevocationDelta.targetDid ↔
      ∃ appliedAt, RevokedAt lib (.new m n) msgs did appliedAt ∧ now - within ≤ appliedAt := by
  rw [targets_recent hm, List.mem_filter]
  constructor
  · rintro ⟨hmem, hrecent⟩
    obtain ⟨appliedAt, hat⟩ := exists_revokedAt (r := .new m n) List.not_mem_nil hmem
    exact ⟨appliedAt, hat, hat.recently_iff.mp hrecent⟩
  · rintro ⟨appliedAt, hat, hrecent⟩
    exact ⟨hat.status.1, hat.recently_iff.mpr hrecent⟩

theorem justEnough_recent (hm : 1 ≤ m) :
    JustEnough (max m 1)
      (((device lib m n msgs).buildRecentRevocationDeltas within now).map (ballot lib)) := by
  constructor
  · have htargets : ∀ δs : List RevocationDelta,
        (δs.map (ballot lib)).map Ballot.target = δs.map RevocationDelta.targetDid := by
      intro δs
      rw [List.map_map]
      rfl
    rw [htargets, targets_recent hm]
    exact (device_revokedDids lib m n msgs).1.filter _
  · intro b hb
    obtain ⟨δ, hδ, rfl⟩ := List.mem_map.mp hb
    have hcomplete := complete_of_recent hm hδ
    rw [hcomplete.voters, hcomplete.enough]
    omega

/-- What a device tells again carries just the signatures that the threshold needs. A new device that
is told the recent revocations of another one revokes the same DIDs exactly when none of them was kept
with the signature of a manager that was revoked before it. -/
theorem retold_adopted_iff (lib : IdentityLibraries) {m : ℕ} (hm : 1 ≤ m) (n n' : ℕ)
    (msgs : List Receipt) (within now : ℤ) (received : List Receipt)
    (hreceived : received.map Receipt.delta =
      (device lib m n msgs).buildRecentRevocationDeltas within now) :
    (∀ δ ∈ (device lib m n msgs).buildRecentRevocationDeltas within now, Complete lib m δ) ∧
    ((∀ did, did ∈ (device lib m n' received).revokedDids ↔
        ∃ appliedAt, RevokedAt lib (.new m n) msgs did appliedAt ∧ now - within ≤ appliedAt) ↔
      ((device lib m n msgs).buildRecentRevocationDeltas within now).Pairwise
        fun earlier later => ∀ sig ∈ later.signatures, sig.managerDid ≠ earlier.targetDid) := by
  refine ⟨fun δ hδ => complete_of_recent hm hδ, ?_⟩
  generalize hrecent : (device lib m n msgs).buildRecentRevocationDeltas within now = recent
    at hreceived ⊢
  have hjust : JustEnough (max m 1) (recent.map (ballot lib)) := hrecent ▸ justEnough_recent hm
  have hballots : ballots lib received = recent.map (ballot lib) := by
    rw [← hreceived, List.map_map]
    rfl
  have hfallen : ∀ did, did ∈ (device lib m n' received).revokedDids ↔
      did ∈ (run (receive (max m 1)) .start (recent.map (ballot lib))).fallen := by
    intro did
    rw [(device_counts lib m n' received).revoked, hballots]
  have htargets : ∀ did, did ∈ (recent.map (ballot lib)).map Ballot.target ↔
      ∃ appliedAt, RevokedAt lib (.new m n) msgs did appliedAt ∧ now - within ≤ appliedAt := by
    intro did
    rw [← mem_targets_recent_iff hm, hrecent, List.map_map]
    rfl
  have hall := all_fallen_iff (le_max_right m 1) hjust
  simp only [hfallen, ← htargets]
  rw [hall, List.pairwise_map]
  refine List.Pairwise.iff_of_mem fun _ hlater => ?_
  have hcomplete := complete_of_recent hm (hrecent ▸ hlater)
  rw [hcomplete.voters, signers, List.mem_toFinset, List.mem_map, not_exists]
  exact forall_congr' fun sig => not_and

def sampleRevocations : List Receipt :=
  [⟨⟨CrdtEngine.sampleDid₂, [⟨CrdtEngine.sampleDid₁, List.replicate 64 0⟩], 5⟩, [], 5⟩,
    ⟨⟨CrdtEngine.sampleDid₃, [⟨CrdtEngine.sampleDid₁, List.replicate 64 0⟩], 6⟩, [], 6⟩]

theorem retold_adopted_iff_sample :
    let lib := (CrdtEngine.sampleLibraries []).toIdentityLibraries
    ∀ did, did ∈ (device lib 1 3 sampleRevocations).revokedDids ↔
      ∃ appliedAt, RevokedAt lib (.new 1 2) sampleRevocations did appliedAt ∧ 10 - 8 ≤ appliedAt := by
  intro lib
  refine (retold_adopted_iff lib (le_refl 1) 2 3 sampleRevocations 8 10 sampleRevocations
    ?_).2.mpr ?_
  · decide +kernel
  · decide +kernel

/-- Whatever else a device is told before, between and after: it revokes a DID that it is told
about if it revokes no manager that signed it. -/
theorem retold_adopted (lib : IdentityLibraries) {m : ℕ} (hm : 1 ≤ m) (n n' : ℕ)
    (msgs : List Receipt) (within now : ℤ) (received : List Receipt) (δ : RevocationDelta)
    (hδ : δ ∈ (device lib m n msgs).buildRecentRevocationDeltas within now)
    (hreceived : δ ∈ received.map Receipt.delta)
    (hstanding : ∀ sig ∈ δ.signatures, sig.managerDid ∉ (device lib m n' received).revokedDids) :
    δ.targetDid ∈ (device lib m n' received).revokedDids := by
  have hcomplete := complete_of_recent hm hδ
  have hcounts := device_counts lib m n' received
  have hvoted : signers δ.signatures ⊆
      (run (receive (max m 1)) .start (ballots lib received)).votes δ.targetDid := by
    intro did hdid
    obtain ⟨sig, hsig, rfl⟩ := List.mem_map.mp (List.mem_toFinset.mp hdid)
    have hfree := hstanding sig hsig
    rw [hcounts.revoked] at hfree
    refine mem_votes_run (mem_supporters.mpr ⟨ballot lib δ, ?_, rfl, ?_⟩) hfree
    · obtain ⟨msg, hmsg, rfl⟩ := List.mem_map.mp hreceived
      exact List.mem_map.mpr ⟨msg, hmsg, rfl⟩
    · rw [hcomplete.voters]
      exact hdid
  rw [hcounts.revoked, hcounts.settled]
  have hcard := Finset.card_le_card hvoted
  rw [hcomplete.enough] at hcard
  omega

theorem retold_adopted_sample :
    let lib := (CrdtEngine.sampleLibraries []).toIdentityLibraries
    CrdtEngine.sampleDid₃ ∈ (device lib 1 3 sampleRevocations).revokedDids := by
  intro lib
  refine retold_adopted lib (le_refl 1) 2 3 sampleRevocations 8 10 sampleRevocations
    ⟨CrdtEngine.sampleDid₃, [⟨CrdtEngine.sampleDid₁, List.replicate 64 0⟩], 6⟩ ?_ ?_ ?_
  · decide +kernel
  · decide +kernel
  · decide +kernel

end TirBase.RevocationRebroadcast
