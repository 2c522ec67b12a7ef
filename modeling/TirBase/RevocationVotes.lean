import TirBase.RevocationSubsystem
import TirBase.ThresholdVotes

/-! # The revocation subsystem as a vote count

The store keeps at most `m` signatures for each target. What it decides is what a count of all
valid signers decides that were not revoked when their message came. -/
namespace TirBase.RevocationVotes
open RevocationSubsystem ThresholdVotes TransitionRuns

structure Receipt where
  delta : RevocationDelta
  authored : List DeltaId
  now : ℤ

variable (lib : IdentityLibraries)

def stepWithEffects (r : RevocationSubsystem) (msg : Receipt) :
    RevocationSubsystem × List RevocationEffect :=
  (r.processIncomingDelta lib msg.delta msg.authored msg.now).2

def step (r : RevocationSubsystem) (msg : Receipt) : RevocationSubsystem :=
  (stepWithEffects lib r msg).1

def validSignature (targetDid : Did) (sig : ManagerSignature) : Bool :=
  match lib.resolveDid sig.managerDid with
  | .error _ => false
  | .ok publicKey =>
    match lib.verify publicKey (RevocationDelta.signingPayload lib targetDid) sig.signature with
    | .error _ => false
    | .ok () => true

def signers (sigs : List ManagerSignature) : Finset Did :=
  (sigs.map ManagerSignature.managerDid).toFinset

def ballot (δ : RevocationDelta) : Ballot Did :=
  ⟨δ.targetDid,
    if δ.targetDid = "" then ∅ else signers (δ.signatures.filter (validSignature lib δ.targetDid))⟩

def admissible (revokedDids : List Did) (targetDid : Did) (sigs : List ManagerSignature) :
    List ManagerSignature :=
  sigs.filter fun sig => sig.managerDid ∉ revokedDids ∧ validSignature lib targetDid sig

def signaturesFor (s : PendingRevocationStore) (targetDid : Did) : List ManagerSignature :=
  ((s.pending.lookup targetDid).map PendingRevocation.signatures).getD []

def announces (did : Did) : RevocationEffect → Bool
  | .revocationApplied targetDid _ => targetDid = did
  | .cceTrigger .. => false

/-- An entry of the store against the voters counted so far. -/
structure EntryCounts (m : ℕ) (targetDid : Did) (entry : PendingRevocation) (voters : Finset Did) :
    Prop where
  threshold : entry.thresholdM = m
  nodup : (entry.signatures.map ManagerSignature.managerDid).Nodup
  voted : ∀ sig ∈ entry.signatures, sig.managerDid ∈ voters
  valid : ∀ sig ∈ entry.signatures, validSignature lib targetDid sig = true
  length : entry.signatures.length = min m voters.card

def StoreCounts (m : ℕ) (s : PendingRevocationStore) (votes : Did → Finset Did) : Prop :=
  ∀ did, match s.pending.lookup did with
    | none => votes did = ∅
    | some entry => EntryCounts lib m did entry (votes did) ∧ (votes did).Nonempty

/-- The subsystem with threshold `m` stands where the vote count stands. -/
structure Counts (m : ℕ) (r : RevocationSubsystem) (c : Count Did) : Prop where
  thresholdM : r.thresholdM = m
  store : StoreCounts lib m r.store c.votes
  revoked : ∀ did, did ∈ r.revokedDids ↔ did ∈ c.fallen
  settled : Settled (max m 1) c

variable {lib} {m n : ℕ} {s : PendingRevocationStore} {votes : Did → Finset Did} {targetDid : Did}
  {sig : ManagerSignature} {sigs : List ManagerSignature} {revokedDids : List Did}

theorem validSignature_iff : validSignature lib targetDid sig = true ↔
    ∃ publicKey, lib.resolveDid sig.managerDid = .ok publicKey ∧
      lib.verify publicKey (RevocationDelta.signingPayload lib targetDid) sig.signature =
        .ok () := by
  unfold validSignature
  cases lib.resolveDid sig.managerDid with
  | error e => simp
  | ok publicKey =>
    cases hverify : lib.verify publicKey (RevocationDelta.signingPayload lib targetDid)
        sig.signature with
    | error e => simp [hverify]
    | ok u => simp [hverify]

theorem addSignature_of_not_admissible
    (h : ¬(sig.managerDid ∉ revokedDids ∧ validSignature lib targetDid sig = true)) (now : ℤ) :
    ∃ e, s.addSignature lib targetDid sig m n revokedDids now = (.error e, s) := by
  unfold PendingRevocationStore.addSignature
  dsimp only
  by_cases hrevoked : sig.managerDid ∈ revokedDids
  · rw [if_pos hrevoked]
    exact ⟨_, rfl⟩
  · rw [if_neg hrevoked]
    cases hresolve : lib.resolveDid sig.managerDid with
    | error e => exact ⟨e, rfl⟩
    | ok publicKey =>
      dsimp only
      cases hverify : lib.verify publicKey (RevocationDelta.signingPayload lib targetDid)
          sig.signature with
      | error e => exact ⟨e, rfl⟩
      | ok u => exact absurd ⟨hrevoked, validSignature_iff.mpr ⟨publicKey, hresolve, hverify⟩⟩ h

/-- The entry under which an admissible signature is filed. -/
def entryFor (s : PendingRevocationStore) (targetDid : Did) (m n : ℕ) (now : ℤ) :
    PendingRevocation :=
  { (s.pending.lookup targetDid).getD ⟨targetDid, [], m, n, now, none⟩ with
    thresholdM := m, thresholdN := n }

theorem addSignature_of_admissible
    (h : sig.managerDid ∉ revokedDids ∧ validSignature lib targetDid sig = true) (now : ℤ) :
    s.addSignature lib targetDid sig m n revokedDids now =
      let entry := entryFor s targetDid m n now
      let store := fun entry : PendingRevocation =>
        (⟨s.pending.insert targetDid entry⟩ : PendingRevocationStore)
      if sig.managerDid ∈ entry.signatures.map ManagerSignature.managerDid then
        (.error (.authorisationFailed
          s!"duplicate signature from manager DID '{sig.managerDid}'"), store entry)
      else if m ≤ entry.signatures.length then (.ok .applied, store entry)
      else
        let entry := { entry with signatures := entry.signatures ++ [sig] }
        if m ≤ entry.signatures.length then
          (.ok .applied, store { entry with lastReceiptTimestamp := some now })
        else (.ok (.pending entry.signatures.length m), store entry) := by
  obtain ⟨hrevoked, hvalid⟩ := h
  obtain ⟨publicKey, hresolve, hverify⟩ := validSignature_iff.mp hvalid
  unfold PendingRevocationStore.addSignature entryFor
  dsimp only
  rw [if_neg hrevoked, hresolve]
  dsimp only
  rw [hverify]

variable {entry : PendingRevocation} {voters : Finset Did} {now : ℤ}

theorem EntryCounts.duplicate (h : EntryCounts lib m targetDid entry voters)
    (hdup : sig.managerDid ∈ entry.signatures.map ManagerSignature.managerDid) :
    EntryCounts lib m targetDid entry (insert sig.managerDid voters) := by
  obtain ⟨sig', hsig', hsame⟩ := List.mem_map.mp hdup
  rw [Finset.insert_eq_of_mem (hsame ▸ h.voted sig' hsig')]
  exact h

theorem EntryCounts.surplus (h : EntryCounts lib m targetDid entry voters)
    (hfull : m ≤ entry.signatures.length) (did : Did) :
    EntryCounts lib m targetDid entry (insert did voters) := by
  have hcard := Finset.card_le_card (Finset.subset_insert did voters)
  have hlength := h.length
  exact ⟨h.threshold, h.nodup, fun sig hsig => Finset.mem_insert_of_mem (h.voted sig hsig), h.valid,
    by omega⟩

/-- While there is room the kept signers are all voters, so a new one is a new voter. -/
theorem EntryCounts.add {entry' : PendingRevocation} (h : EntryCounts lib m targetDid entry voters)
    (hnew : sig.managerDid ∉ entry.signatures.map ManagerSignature.managerDid)
    (hroom : entry.signatures.length < m) (hvalid : validSignature lib targetDid sig = true)
    (hthreshold : entry'.thresholdM = m) (hsigs : entry'.signatures = entry.signatures ++ [sig]) :
    EntryCounts lib m targetDid entry' (insert sig.managerDid voters) := by
  have hlength := h.length
  have hkept : signers entry.signatures ⊆ voters := by
    intro did hdid
    obtain ⟨sig', hsig', rfl⟩ := List.mem_map.mp (List.mem_toFinset.mp hdid)
    exact h.voted sig' hsig'
  have hcard : (signers entry.signatures).card = entry.signatures.length := by
    rw [signers, List.toFinset_card_of_nodup h.nodup, List.length_map]
  have hsame : signers entry.signatures = voters := Finset.eq_of_subset_of_card_le hkept (by omega)
  have hfresh : sig.managerDid ∉ voters := by
    rw [← hsame]
    exact fun hmem => hnew (List.mem_toFinset.mp hmem)
  refine ⟨hthreshold, ?_, ?_, ?_, ?_⟩
  · rw [hsigs, List.map_append, List.map_singleton]
    refine List.nodup_append.mpr ⟨h.nodup, List.nodup_singleton _, ?_⟩
    intro did hdid did' hdid' heq
    rw [heq, List.mem_singleton.mp hdid'] at hdid
    exact hnew hdid
  · intro sig' hsig'
    rw [hsigs] at hsig'
    rcases List.mem_append.mp hsig' with hold | hlast
    · exact Finset.mem_insert_of_mem (h.voted sig' hold)
    · rw [List.mem_singleton.mp hlast]
      exact Finset.mem_insert_self _ _
  · intro sig' hsig'
    rw [hsigs] at hsig'
    rcases List.mem_append.mp hsig' with hold | hlast
    · exact h.valid sig' hold
    · rw [List.mem_singleton.mp hlast]
      exact hvalid
  · rw [hsigs, List.length_append, List.length_singleton, Finset.card_insert_of_notMem hfresh]
    omega

theorem entryFor_counts (h : StoreCounts lib m s votes) (targetDid : Did) (n : ℕ) (now : ℤ) :
    EntryCounts lib m targetDid (entryFor s targetDid m n now) (votes targetDid) := by
  have hentry := h targetDid
  unfold entryFor
  cases hlookup : s.pending.lookup targetDid with
  | none =>
    rw [hlookup] at hentry
    rw [hentry]
    have hnone : ∀ sig, sig ∉ ([] : List ManagerSignature) := fun sig => List.not_mem_nil
    exact ⟨rfl, List.nodup_nil, fun sig hsig => absurd hsig (hnone sig),
      fun sig hsig => absurd hsig (hnone sig), by simp⟩
  | some entry =>
    rw [hlookup] at hentry
    obtain ⟨hcounts, -⟩ := hentry
    exact ⟨rfl, hcounts.nodup, hcounts.voted, hcounts.valid, hcounts.length⟩

theorem StoreCounts.insert (h : StoreCounts lib m s votes)
    (hentry : EntryCounts lib m targetDid entry (insert sig.managerDid (votes targetDid))) :
    StoreCounts lib m ⟨s.pending.insert targetDid entry⟩
      (Function.update votes targetDid (insert sig.managerDid (votes targetDid))) := by
  intro did
  by_cases hdid : did = targetDid
  · subst hdid
    dsimp only
    rw [AList.lookup_insert, Function.update_self]
    exact ⟨hentry, Finset.insert_nonempty _ _⟩
  · dsimp only
    rw [AList.lookup_insert_ne hdid, Function.update_of_ne hdid]
    exact h did

theorem status_insert (s : PendingRevocationStore) (targetDid : Did) (entry : PendingRevocation) :
    (⟨s.pending.insert targetDid entry⟩ : PendingRevocationStore).status targetDid =
      some (if entry.thresholdM ≤ entry.signatures.length then .applied
        else .pending entry.signatures.length entry.thresholdM) := by
  unfold PendingRevocationStore.status
  rw [AList.lookup_insert, Option.map_some]

theorem status_entryFor (h : StoreCounts lib m s votes) (targetDid : Did) (n : ℕ) (now : ℤ)
    (hfiled : (entryFor s targetDid m n now).signatures ≠ []) :
    (⟨s.pending.insert targetDid (entryFor s targetDid m n now)⟩ :
      PendingRevocationStore).status targetDid = s.status targetDid := by
  have hentry := h targetDid
  rw [status_insert]
  unfold entryFor at hfiled ⊢
  unfold PendingRevocationStore.status
  cases hlookup : s.pending.lookup targetDid with
  | none =>
    rw [hlookup] at hfiled
    exact absurd rfl hfiled
  | some entry =>
    rw [hlookup] at hentry
    have hthreshold : entry.thresholdM = m := hentry.1.threshold
    rw [Option.getD_some, Option.map_some, hthreshold]

/-- One signature adds its signer to the votes when it is admissible. A success is answered with
the status of the store, a failure leaves the status alone. -/
theorem addSignature_counts (h : StoreCounts lib m s votes) (n : ℕ) (targetDid : Did)
    (sig : ManagerSignature) (revokedDids : List Did) (now : ℤ) :
    let out := s.addSignature lib targetDid sig m n revokedDids now
    StoreCounts lib m out.2 (Function.update votes targetDid
        (votes targetDid ∪ signers (admissible lib revokedDids targetDid [sig]))) ∧
      (∀ status, out.1 = .ok status → out.2.status targetDid = some status) ∧
      ∀ e, out.1 = .error e → out.2.status targetDid = s.status targetDid := by
  intro out
  by_cases hadmissible : sig.managerDid ∉ revokedDids ∧ validSignature lib targetDid sig = true
  · have hvoters : votes targetDid ∪ signers (admissible lib revokedDids targetDid [sig]) =
        insert sig.managerDid (votes targetDid) := by
      have hkeep : admissible lib revokedDids targetDid [sig] = [sig] := by
        simp [admissible, hadmissible]
      rw [hkeep, Finset.union_comm]
      rfl
    have hentry := entryFor_counts h targetDid n now
    have hstatus := status_entryFor h targetDid n now
    have hout : out = _ := addSignature_of_admissible hadmissible now
    rw [hvoters, hout]
    generalize entryFor s targetDid m n now = entry at hentry hstatus
    dsimp only
    by_cases hdup : sig.managerDid ∈ entry.signatures.map ManagerSignature.managerDid
    · rw [if_pos hdup]
      have hfiled : entry.signatures ≠ [] := by
        intro hnil
        rw [hnil] at hdup
        exact List.not_mem_nil hdup
      exact ⟨h.insert (hentry.duplicate hdup), fun status hok => (by cases hok),
        fun e he => hstatus hfiled⟩
    · rw [if_neg hdup]
      by_cases hfull : m ≤ entry.signatures.length
      · rw [if_pos hfull]
        refine ⟨h.insert (hentry.surplus hfull _), fun status hok => ?_, fun e he => (by cases he)⟩
        cases hok
        rw [status_insert, hentry.threshold, if_pos hfull]
      · rw [if_neg hfull]
        have hroom : entry.signatures.length < m := by omega
        by_cases hlast : m ≤ (entry.signatures ++ [sig]).length
        · rw [if_pos hlast]
          have hadd : EntryCounts lib m targetDid { entry with
              signatures := entry.signatures ++ [sig], lastReceiptTimestamp := some now }
              (insert sig.managerDid (votes targetDid)) :=
            hentry.add hdup hroom hadmissible.2 hentry.threshold rfl
          refine ⟨h.insert hadd, fun status hok => ?_, fun e he => (by cases he)⟩
          cases hok
          rw [status_insert, hadd.threshold, if_pos hlast]
        · rw [if_neg hlast]
          have hadd : EntryCounts lib m targetDid { entry with
              signatures := entry.signatures ++ [sig] }
              (insert sig.managerDid (votes targetDid)) :=
            hentry.add hdup hroom hadmissible.2 hentry.threshold rfl
          refine ⟨h.insert hadd, fun status hok => ?_, fun e he => (by cases he)⟩
          cases hok
          rw [status_insert, hadd.threshold, if_neg hlast]
  · obtain ⟨e, hout⟩ : ∃ e, out = (.error e, s) := addSignature_of_not_admissible hadmissible now
    have hnone : admissible lib revokedDids targetDid [sig] = [] := by
      simpa [admissible] using hadmissible
    have hvotes : Function.update votes targetDid
        (votes targetDid ∪ signers (admissible lib revokedDids targetDid [sig])) = votes := by
      rw [hnone]
      simp [signers]
    rw [hvotes, hout]
    exact ⟨h, fun status hok => (by cases hok), fun e he => rfl⟩

theorem status_applied_iff (h : StoreCounts lib m s votes) (targetDid : Did) :
    s.status targetDid = some .applied ↔ max m 1 ≤ (votes targetDid).card := by
  have hentry := h targetDid
  unfold PendingRevocationStore.status
  cases hlookup : s.pending.lookup targetDid with
  | none =>
    rw [hlookup] at hentry
    rw [hentry]
    simp
  | some entry =>
    rw [hlookup] at hentry
    obtain ⟨hcounts, hvoters⟩ := hentry
    have hlength := hcounts.length
    have hcard := hvoters.card_pos
    rw [Option.map_some, hcounts.threshold]
    split_ifs with hm
    · exact iff_of_true rfl (by omega)
    · exact iff_of_false (fun h => (by cases h)) (by omega)

theorem signers_admissible_cons (sig : ManagerSignature) (sigs : List ManagerSignature) :
    signers (admissible lib revokedDids targetDid (sig :: sigs)) =
      signers (admissible lib revokedDids targetDid [sig]) ∪
        signers (admissible lib revokedDids targetDid sigs) := by
  have hsplit : sig :: sigs = [sig] ++ sigs := rfl
  rw [hsplit]
  simp only [admissible, signers, List.filter_append, List.map_append, List.toFinset_append]

variable {r : RevocationSubsystem} {c : Count Did}

/-- All signatures of a message together; an answered status is the one of the store. -/
theorem addSignatures_counts (h : StoreCounts lib r.thresholdM r.store votes) (targetDid : Did)
    (now : ℤ) {lastStatus : Option RevocationStatus} (sigs : List ManagerSignature)
    (hlast : ∀ status, lastStatus = some status → r.store.status targetDid = some status) :
    let out := r.addSignatures lib targetDid now lastStatus sigs
    StoreCounts lib r.thresholdM out.2.store (Function.update votes targetDid
        (votes targetDid ∪ signers (admissible lib r.revokedDids targetDid sigs))) ∧
      out.2 = { r with store := out.2.store } ∧
      ∀ status, out.1 = some status → out.2.store.status targetDid = some status := by
  induction sigs generalizing r votes lastStatus with
  | nil =>
    have hvotes : Function.update votes targetDid
        (votes targetDid ∪ signers (admissible lib r.revokedDids targetDid [])) = votes := by
      simp [admissible, signers]
    intro out
    rw [hvotes]
    exact ⟨h, rfl, hlast⟩
  | cons sig sigs ih =>
    obtain ⟨hstore, hok, herror⟩ := addSignature_counts h r.thresholdN targetDid sig r.revokedDids now
    intro out
    have hvotes : ∀ voters voters' : Finset Did,
        Function.update (Function.update votes targetDid (votes targetDid ∪ voters)) targetDid
            (Function.update votes targetDid (votes targetDid ∪ voters) targetDid ∪ voters') =
          Function.update votes targetDid (votes targetDid ∪ (voters ∪ voters')) := by
      intro voters voters'
      rw [Function.update_self, Function.update_idem, Finset.union_assoc]
    rw [signers_admissible_cons, ← hvotes]
    generalize hadd : r.store.addSignature lib targetDid sig r.thresholdM r.thresholdN
      r.revokedDids now = added at hstore hok herror
    have hrest : ∀ last : Option RevocationStatus,
        (∀ status, last = some status → added.2.status targetDid = some status) →
          out = RevocationSubsystem.addSignatures lib { r with store := added.2 } targetDid now last
            sigs → _ := fun last hstatus hout => by
      have hih := ih (r := { r with store := added.2 }) hstore hstatus
      rw [← hout] at hih
      exact hih
    cases hresult : added.1 with
    | ok status =>
      refine hrest (some status) (fun status' hsome => ?_) ?_
      · cases hsome
        exact hok status hresult
      · simp only [out, RevocationSubsystem.addSignatures, hadd, hresult]
    | error e =>
      refine hrest lastStatus (fun status' hsome => ?_) ?_
      · rw [herror e hresult]
        exact hlast status' hsome
      · simp only [out, RevocationSubsystem.addSignatures, hadd, hresult]

/-- What a message with a target and signatures does, once its signatures are filed. -/
theorem process_open (h : Counts lib m r c) {δ : RevocationDelta} (htarget : δ.targetDid ≠ "")
    (hsigs : δ.signatures ≠ []) (authored : List DeltaId) (now : ℤ) :
    ∃ s, StoreCounts lib m s (Function.update c.votes δ.targetDid
        (c.votes δ.targetDid ∪
          signers (admissible lib r.revokedDids δ.targetDid δ.signatures))) ∧
      r.processIncomingDelta lib δ authored now =
        match s.status δ.targetDid with
        | none => (.error (.thresholdNotMet 0 m), { r with store := s }, [])
        | some .applied =>
          if δ.targetDid ∈ r.revokedDids then (.ok .applied, { r with store := s }, [])
          else
            (.ok .applied,
              { r with
                store := s
                revokedDids := r.revokedDids ++ [δ.targetDid]
                deviceStatus := r.deviceStatus.insert δ.targetDid
                  ⟨δ.targetDid, .revoked, some now⟩ },
              .revocationApplied δ.targetDid ((s.buildRevocationDelta δ.targetDid).getD δ) ::
                if authored = [] then [] else [.cceTrigger δ.targetDid authored])
        | some status => (.ok status, { r with store := s }, []) := by
  have hm := h.thresholdM
  have hstore : StoreCounts lib r.thresholdM r.store c.votes := by
    rw [hm]
    exact h.store
  have hnone : ∀ status, (none : Option RevocationStatus) = some status →
      r.store.status δ.targetDid = some status := fun status hstatus => (by cases hstatus)
  obtain ⟨hcounts, hframe, hstatus⟩ :=
    addSignatures_counts hstore δ.targetDid now δ.signatures hnone
  unfold RevocationSubsystem.processIncomingDelta
  rw [if_neg htarget, if_neg hsigs]
  dsimp only
  generalize r.addSignatures lib δ.targetDid now none δ.signatures = out
    at hcounts hframe hstatus ⊢
  have hor : out.1.or (out.2.store.status δ.targetDid) = out.2.store.status δ.targetDid := by
    cases hout : out.1 with
    | none => rfl
    | some status => rw [hstatus status hout, Option.some_or]
  refine ⟨out.2.store, by rwa [hm] at hcounts, ?_⟩
  rw [hor]
  generalize out.2.store = s at hframe ⊢
  rw [hframe]
  cases s.status δ.targetDid with
  | none => rw [← hm]
  | some status => cases status <;> rfl

theorem receive_closed (h : Counts lib m r c) {δ : RevocationDelta}
    (hclosed : δ.targetDid = "" ∨ δ.signatures = []) :
    receive (max m 1) c (ballot lib δ) = c := by
  refine receive_of_no_voters h.settled ?_
  rcases hclosed with htarget | hsigs
  · rw [ballot, if_pos htarget]
  · unfold ballot
    rw [hsigs]
    split_ifs <;> rfl

theorem process_closed {δ : RevocationDelta} (hclosed : δ.targetDid = "" ∨ δ.signatures = [])
    (authored : List DeltaId) (now : ℤ) :
    ∃ e, r.processIncomingDelta lib δ authored now = (.error e, r, []) := by
  unfold RevocationSubsystem.processIncomingDelta
  by_cases htarget : δ.targetDid = ""
  · rw [if_pos htarget]
    exact ⟨_, rfl⟩
  · rw [if_neg htarget, if_pos (hclosed.resolve_left htarget)]
    exact ⟨_, rfl⟩

/-- The votes of a message are its admissible signers. -/
theorem voters_ballot (h : Counts lib m r c) {δ : RevocationDelta} (htarget : δ.targetDid ≠ "") :
    (ballot lib δ).voters \ c.fallen =
      signers (admissible lib r.revokedDids δ.targetDid δ.signatures) := by
  ext did
  unfold ballot
  rw [if_neg htarget]
  simp only [signers, admissible, Finset.mem_sdiff, List.mem_toFinset, List.mem_map,
    List.mem_filter, decide_eq_true_eq, ← h.revoked]
  constructor
  · rintro ⟨⟨sig, ⟨hsig, hvalid⟩, rfl⟩, hfree⟩
    exact ⟨sig, ⟨hsig, hfree, hvalid⟩, rfl⟩
  · rintro ⟨sig, ⟨hsig, hfree, hvalid⟩, rfl⟩
    exact ⟨⟨sig, ⟨hsig, hvalid⟩, rfl⟩, hfree⟩

theorem signaturesFor_counts (h : StoreCounts lib m s votes) (did : Did) :
    (signaturesFor s did).length = min m (votes did).card ∧
      ((signaturesFor s did).map ManagerSignature.managerDid).Nodup ∧
      ∀ sig ∈ signaturesFor s did, validSignature lib did sig = true := by
  have hentry := h did
  unfold signaturesFor
  cases hlookup : s.pending.lookup did with
  | none =>
    rw [hlookup] at hentry
    rw [hentry]
    exact ⟨by simp, List.nodup_nil, fun sig hsig => absurd hsig List.not_mem_nil⟩
  | some entry =>
    rw [hlookup] at hentry
    exact ⟨hentry.1.length, hentry.1.nodup, hentry.1.valid⟩

theorem build_of_enough (h : StoreCounts lib m s votes) {did : Did}
    (henough : max m 1 ≤ (votes did).card) :
    ∃ createdAt, s.buildRevocationDelta did = some ⟨did, signaturesFor s did, createdAt⟩ := by
  have hentry := h did
  unfold PendingRevocationStore.buildRevocationDelta signaturesFor
  cases hlookup : s.pending.lookup did with
  | none =>
    rw [hlookup] at hentry
    rw [hentry, Finset.card_empty] at henough
    omega
  | some entry =>
    rw [hlookup] at hentry
    have hlength := hentry.1.length
    have hthreshold := hentry.1.threshold
    rw [Option.bind_some, if_neg (by omega)]
    exact ⟨_, rfl⟩

/-- The outcome of a message: the subsystem moves from the count `c` to `c'`. It is answered with
`Applied` when its target has fallen, and the fall of a member is announced at once with the kept
signatures. -/
structure Processed (lib : IdentityLibraries) (m : ℕ) (c c' : Count Did) (δ : RevocationDelta)
    (out : Except TirBaseError RevocationStatus × RevocationSubsystem × List RevocationEffect) :
    Prop where
  counts : Counts lib m out.2.1 c'
  applied : out.1 = .ok .applied ↔
    δ.targetDid ≠ "" ∧ δ.signatures ≠ [] ∧ δ.targetDid ∈ c'.fallen
  announced : ∀ did, out.2.2.countP (announces did) =
    if did ∈ c'.fallen ∧ did ∉ c.fallen then 1 else 0
  complete : ∀ did complete, .revocationApplied did complete ∈ out.2.2 → did ≠ "" ∧
    did ∈ c'.fallen ∧ ∃ createdAt, complete = ⟨did, signaturesFor out.2.1.store did, createdAt⟩

/-- Nobody new has fallen, and nothing is announced. -/
theorem processed_quiet {c' : Count Did} {δ : RevocationDelta}
    {result : Except TirBaseError RevocationStatus} (h : Counts lib m r c)
    (hstore : StoreCounts lib m s c'.votes) (hsettled : Settled (max m 1) c')
    (hsame : ∀ did, did ∈ c'.fallen ↔ did ∈ c.fallen)
    (happlied : result = .ok .applied ↔
      δ.targetDid ≠ "" ∧ δ.signatures ≠ [] ∧ δ.targetDid ∈ c'.fallen) :
    Processed lib m c c' δ (result, { r with store := s }, []) := by
  refine ⟨⟨h.thresholdM, hstore, fun did => ?_, hsettled⟩, happlied, fun did => ?_, ?_⟩
  · rw [hsame]
    exact h.revoked did
  · rw [if_neg fun hnew => hnew.2 ((hsame did).mp hnew.1)]
    rfl
  · exact fun did complete hmem => absurd hmem List.not_mem_nil

/-- The target falls now: it enters the revoked DIDs and is announced once. -/
theorem processed_fall {c' : Count Did} {δ : RevocationDelta} {authored : List DeltaId}
    {deviceStatus : AList fun _ : Did => DeviceRevocationStatus} {createdAt : ℤ}
    (h : Counts lib m r c) (hstore : StoreCounts lib m s c'.votes)
    (hsettled : Settled (max m 1) c') (htarget : δ.targetDid ≠ "") (hsigs : δ.signatures ≠ [])
    (hfallen : δ.targetDid ∈ c'.fallen) (hfree : δ.targetDid ∉ c.fallen)
    (hothers : ∀ did, did ≠ δ.targetDid → (did ∈ c'.fallen ↔ did ∈ c.fallen)) :
    Processed lib m c c' δ (.ok .applied,
      { r with
        store := s
        revokedDids := r.revokedDids ++ [δ.targetDid]
        deviceStatus := deviceStatus },
      .revocationApplied δ.targetDid ⟨δ.targetDid, signaturesFor s δ.targetDid, createdAt⟩ ::
        if authored = [] then [] else [.cceTrigger δ.targetDid authored]) := by
  have hnew : ∀ did, did ∈ c'.fallen ∧ did ∉ c.fallen ↔ δ.targetDid = did := by
    intro did
    constructor
    · rintro ⟨hmem, hold⟩
      by_contra hdid
      exact hold ((hothers did (Ne.symm hdid)).mp hmem)
    · rintro rfl
      exact ⟨hfallen, hfree⟩
  refine ⟨⟨h.thresholdM, hstore, fun did => ?_, hsettled⟩,
    iff_of_true rfl ⟨htarget, hsigs, hfallen⟩, fun did => ?_, fun did complete hmem => ?_⟩
  · rw [List.mem_append, List.mem_singleton]
    by_cases hdid : did = δ.targetDid
    · rw [hdid]
      exact iff_of_true (.inr rfl) hfallen
    · rw [hothers did hdid, h.revoked]
      exact ⟨fun hmem => hmem.resolve_right hdid, .inl⟩
  · rw [List.countP_cons]
    have hrest : (if authored = [] then []
        else [RevocationEffect.cceTrigger δ.targetDid authored]).countP (announces did) = 0 := by
      split_ifs <;> rfl
    rw [hrest, Nat.zero_add]
    simp only [announces, decide_eq_true_eq, hnew]
  · rcases List.mem_cons.mp hmem with heq | hmem
    · cases heq
      exact ⟨htarget, hfallen, createdAt, rfl⟩
    · split_ifs at hmem
      · exact absurd hmem List.not_mem_nil
      · cases List.mem_singleton.mp hmem

/-- A message moves the subsystem as its ballot moves the count. -/
theorem process_counts (h : Counts lib m r c) (msg : Receipt) :
    Processed lib m c (receive (max m 1) c (ballot lib msg.delta)) msg.delta
      (r.processIncomingDelta lib msg.delta msg.authored msg.now) := by
  by_cases hclosed : msg.delta.targetDid = "" ∨ msg.delta.signatures = []
  · obtain ⟨e, hout⟩ := process_closed (r := r) hclosed msg.authored msg.now
    rw [receive_closed h hclosed, hout]
    refine processed_quiet h h.store h.settled (fun did => Iff.rfl) ?_
    exact iff_of_false (fun hok => (by cases hok)) fun hopen => hclosed.elim hopen.1 hopen.2.1
  rw [not_or] at hclosed
  obtain ⟨htarget, hsigs⟩ := hclosed
  obtain ⟨s, hstore, hout⟩ := process_open h htarget hsigs msg.authored msg.now
  rw [hout]
  rw [← voters_ballot h htarget] at hstore
  have hstore : StoreCounts lib m s (receive (max m 1) c (ballot lib msg.delta)).votes := hstore
  have hsettled := h.settled.receive (ballot lib msg.delta)
  have hothers : ∀ did, did ≠ msg.delta.targetDid →
      (did ∈ (receive (max m 1) c (ballot lib msg.delta)).fallen ↔ did ∈ c.fallen) :=
    fun did hdid => fallen_receive_of_ne (b := ballot lib msg.delta) (Ne.symm hdid)
  have hkeep := fallen_subset_receive (max m 1) c (ballot lib msg.delta)
  have hstatus := status_applied_iff hstore msg.delta.targetDid
  have hbuild : msg.delta.targetDid ∈ (receive (max m 1) c (ballot lib msg.delta)).fallen →
      ∃ createdAt, s.buildRevocationDelta msg.delta.targetDid =
        some ⟨msg.delta.targetDid, signaturesFor s msg.delta.targetDid, createdAt⟩ :=
    fun hfallen => build_of_enough hstore ((hsettled _).mp hfallen)
  rw [← hsettled] at hstatus
  generalize receive (max m 1) c (ballot lib msg.delta) = c' at *
  have hquiet : (msg.delta.targetDid ∈ c'.fallen → msg.delta.targetDid ∈ c.fallen) →
      ∀ did, did ∈ c'.fallen ↔ did ∈ c.fallen := by
    intro hback did
    by_cases hdid : did = msg.delta.targetDid
    · rw [hdid]
      exact ⟨hback, fun hmem => hkeep hmem⟩
    · exact hothers did hdid
  by_cases hfallen : msg.delta.targetDid ∈ c'.fallen
  · rw [hstatus.mpr hfallen]
    dsimp only
    by_cases hin : msg.delta.targetDid ∈ r.revokedDids
    · rw [if_pos hin]
      exact processed_quiet h hstore hsettled (hquiet fun _ => (h.revoked _).mp hin)
        (iff_of_true rfl ⟨htarget, hsigs, hfallen⟩)
    · rw [if_neg hin]
      obtain ⟨createdAt, hcomplete⟩ := hbuild hfallen
      rw [hcomplete, Option.getD_some]
      exact processed_fall h hstore hsettled htarget hsigs hfallen
        (fun hmem => hin ((h.revoked _).mpr hmem)) hothers
  · have hsame := hquiet fun hmem => absurd hmem hfallen
    have hopen : ¬(msg.delta.targetDid ≠ "" ∧ msg.delta.signatures ≠ [] ∧
        msg.delta.targetDid ∈ c'.fallen) := fun hall => hfallen hall.2.2
    cases hresult : s.status msg.delta.targetDid with
    | none =>
      exact processed_quiet h hstore hsettled hsame (iff_of_false (fun hok => (by cases hok)) hopen)
    | some status =>
      cases status with
      | applied => exact absurd (hstatus.mp hresult) hfallen
      | pending collected required =>
        exact processed_quiet h hstore hsettled hsame
          (iff_of_false (fun hok => (by cases hok)) hopen)

theorem counts_new (lib : IdentityLibraries) (m n : ℕ) :
    Counts lib m (RevocationSubsystem.new m n) .start :=
  ⟨rfl, fun _ => rfl, fun did => iff_of_false List.not_mem_nil (Finset.notMem_empty did),
    settled_start (le_max_right m 1)⟩

def ballots (lib : IdentityLibraries) (msgs : List Receipt) : List (Ballot Did) :=
  msgs.map fun msg => ballot lib msg.delta

theorem run_counts (h : Counts lib m r c) (msgs : List Receipt) :
    Counts lib m (run (step lib) r msgs) (run (receive (max m 1)) c (ballots lib msgs)) := by
  induction msgs generalizing r c with
  | nil => exact h
  | cons msg msgs ih => exact ih (process_counts h msg).counts

end TirBase.RevocationVotes
