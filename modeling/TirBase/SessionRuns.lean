import TirBase.CrdtEngine
import TirBase.NoiseSessions

/-! # Runs of the session manager

A peer whose handshake failed is left alone for the back-off, a credential stays in the cache until enough
other sessions are established or it is past its validity, and only a session whose handshake was run
here is ever rotated. -/
namespace TirBase.SessionRuns
open Capability (TrustLevel)
open TransitionRuns LeastRecentlyUsed SessionManager MeshSessions

variable {lib : NoiseLibraries}

def handshake? (t : MeshSessions lib) :
    MeshSessions.Operation → Option (Did × Except (String × Bool) lib.TransportState)
  | .initiateSession peerDid trust localKey remotePubkey stream entropy nowSecs =>
    match ed25519PrivkeyToX25519 lib localKey, remoteKey lib peerDid remotePubkey with
    | .ok x25519LocalPrivkey, some x25519Pk =>
      if trust = .revoked ∨ t.sessionManager.inBackoff peerDid nowSecs = true then none
      else some (peerDid, exchange lib x25519LocalPrivkey x25519Pk stream entropy)
    | _, _ => none
  | .tickKeyRotation _ => none

def establishes (t : MeshSessions lib) : MeshSessions.Operation → Option Did
  | .initiateSession peerDid trust localKey remotePubkey stream entropy nowSecs =>
    match (t.initiateSession peerDid trust localKey remotePubkey stream entropy nowSecs).1 with
    | .ok () => some peerDid
    | .error _ => none
  | .tickKeyRotation _ => none

def established (t : MeshSessions lib) (ops : List MeshSessions.Operation) : Finset Did :=
  (emitted (fun t op => (step t op, (establishes t op).toList)) t ops).toFinset

def managerAfterFailure (m : SessionManager) (peerDid : Did) (nowSecs : ℤ) (reason : String)
    (counts : Bool) : SessionManager :=
  let m := m.evictExpired peerDid nowSecs
  if counts then m.recordFailure peerDid reason nowSecs else m

def withSession (t : MeshSessions lib) (m : SessionManager) (peerDid : Did) (nowSecs : ℤ)
    (transport : Option lib.TransportState) (credentialBytes : Bytes) : MeshSessions lib where
  sessionManager := m.storeCredential peerDid ⟨peerDid, nowSecs, credentialBytes⟩
  activeSessions := t.activeSessions.insert peerDid
    ⟨peerDid, nowSecs, m.rotationIntervalSecs, transport⟩

/-- How a call ends: by the handshake it runs, the peer with which it establishes a session, and what it
leaves. -/
inductive Ends (t : MeshSessions lib) (op : MeshSessions.Operation) : Prop
  | ticked (nowSecs : ℤ) (tick : op = .tickKeyRotation nowSecs)
  | refused (call : ∀ nowSecs, op ≠ .tickKeyRotation nowSecs) (handshake : handshake? t op = none)
      (nobody : establishes t op = none) (same : step t op = t)
  | registered (peerDid : Did) (handshake : handshake? t op = none)
      (peer : establishes t op = some peerDid)
      (after : step t op = withSession t t.sessionManager peerDid op.now none [])
  | failed (peerDid : Did) (reason : String) (counts : Bool)
      (handshake : handshake? t op = some (peerDid, .error (reason, counts)))
      (nobody : establishes t op = none)
      (after : step t op =
        ⟨managerAfterFailure t.sessionManager peerDid op.now reason counts, t.activeSessions⟩)
  | agreed (peerDid : Did) (transport : lib.TransportState)
      (handshake : handshake? t op = some (peerDid, .ok transport))
      (peer : establishes t op = some peerDid)
      (after : step t op = withSession t (t.sessionManager.evictExpired peerDid op.now) peerDid
        op.now (some transport) ((lib.getRemoteStatic transport).getD []))

theorem rotationInterval_evictExpired (m : SessionManager) (peerDid : Did) (nowSecs : ℤ) :
    (m.evictExpired peerDid nowSecs).rotationIntervalSecs = m.rotationIntervalSecs ∧
      (m.evictExpired peerDid nowSecs).localDid = m.localDid ∧
      (m.evictExpired peerDid nowSecs).failureRecords = m.failureRecords := by
  unfold evictExpired
  split
  · split_ifs <;> exact ⟨rfl, rfl, rfl⟩
  · exact ⟨rfl, rfl, rfl⟩

theorem ends_step (t : MeshSessions lib) (op : MeshSessions.Operation) : Ends t op := by
  cases op with
  | tickKeyRotation nowSecs => exact .ticked nowSecs rfl
  | initiateSession peerDid trust localKey remotePubkey stream entropy nowSecs =>
    cases hlocal : ed25519PrivkeyToX25519 lib localKey with
    | error e =>
      apply Ends.refused <;> simp [handshake?, establishes, step, MeshSessions.initiateSession, hlocal]
    | ok x25519LocalPrivkey =>
      cases hremote : remoteKey lib peerDid remotePubkey with
      | none =>
        apply Ends.registered peerDid <;> simp [handshake?, establishes, step,
          MeshSessions.initiateSession, hlocal, hremote, withSession, registerSession, Operation.now]
      | some x25519Pk =>
        by_cases hrefused : trust = .revoked ∨ t.sessionManager.inBackoff peerDid nowSecs = true
        · have hinitiate : ∃ e, t.sessionManager.initiate lib peerDid trust x25519LocalPrivkey x25519Pk
              stream entropy nowSecs = (.error e, t.sessionManager) := by
            unfold initiate
            rcases hrefused with hrevoked | hbackoff
            · exact ⟨_, if_pos hrevoked⟩
            · split_ifs <;> exact ⟨_, rfl⟩
          obtain ⟨e, hinitiate⟩ := hinitiate
          apply Ends.refused <;> simp [handshake?, establishes, step, MeshSessions.initiateSession,
            hlocal, hremote, hrefused, hinitiate]
        · have hinitiate : t.sessionManager.initiate lib peerDid trust x25519LocalPrivkey x25519Pk
              stream entropy nowSecs = (t.sessionManager.evictExpired peerDid nowSecs).fullIkHandshake
                lib peerDid x25519LocalPrivkey x25519Pk stream entropy nowSecs := by
            rw [not_or] at hrefused
            rw [initiate, if_neg hrefused.1, if_neg hrefused.2]
          cases hexchange : exchange lib x25519LocalPrivkey x25519Pk stream entropy with
          | error failure =>
            apply Ends.failed peerDid failure.1 failure.2 <;>
              simp [handshake?, establishes, step, MeshSessions.initiateSession, hlocal, hremote,
                hrefused, hinitiate, fullIkHandshake, hexchange, managerAfterFailure, Operation.now]
          | ok transport =>
            apply Ends.agreed peerDid transport <;>
              simp [handshake?, establishes, step, MeshSessions.initiateSession, hlocal, hremote,
                hrefused, hinitiate, fullIkHandshake, hexchange, withSession, Operation.now]

variable {t : MeshSessions lib} {op : MeshSessions.Operation} {ops : List MeshSessions.Operation}

theorem failureRecords_managerAfterFailure (m : SessionManager) (peerDid : Did) (nowSecs : ℤ)
    (reason : String) (counts : Bool) :
    (managerAfterFailure m peerDid nowSecs reason counts).failureRecords =
      if counts then (m.failureRecords.filter fun r => !r.backoffElapsed nowSecs) ++
        [⟨peerDid, nowSecs, reason⟩] else m.failureRecords := by
  have hevict := (rotationInterval_evictExpired m peerDid nowSecs).2.2
  cases counts with
  | true =>
    simp only [managerAfterFailure, if_true, recordFailure, hevict]
  | false =>
    simp only [managerAfterFailure, Bool.false_eq_true, if_false, hevict]

/-- A record stays while its back-off lasts. -/
theorem record_kept {r : HandshakeFailureRecord} (h : r ∈ t.sessionManager.failureRecords)
    (hlasts : r.backoffElapsed op.now = false) :
    r ∈ (step t op).sessionManager.failureRecords := by
  cases ends_step t op with
  | ticked nowSecs tick =>
    rw [tick]
    exact h
  | refused _ _ _ same => rwa [same]
  | registered peerDid _ _ after =>
    rw [after]
    exact h
  | failed peerDid reason counts _ _ after =>
    rw [after, failureRecords_managerAfterFailure]
    split_ifs
    · exact List.mem_append_left _ (List.mem_filter.mpr ⟨h, by rw [hlasts]; rfl⟩)
    · exact h
  | agreed peerDid transport _ _ after =>
    rw [after]
    change r ∈ (t.sessionManager.evictExpired peerDid op.now).failureRecords
    rw [(rotationInterval_evictExpired t.sessionManager peerDid op.now).2.2]
    exact h

/-- A handshake that fails in a way that counts leaves a record. -/
theorem record_of_failed {peerDid : Did} {reason : String}
    (h : handshake? t op = some (peerDid, .error (reason, true))) :
    (⟨peerDid, op.now, reason⟩ : HandshakeFailureRecord) ∈
      (step t op).sessionManager.failureRecords := by
  cases ends_step t op with
  | ticked nowSecs tick =>
    rw [tick] at h
    cases h
  | refused _ handshake _ _ =>
    rw [handshake] at h
    cases h
  | registered peerDid handshake _ _ =>
    rw [handshake] at h
    cases h
  | failed peerDid' reason' counts handshake _ after =>
    rw [handshake] at h
    cases h
    rw [after, failureRecords_managerAfterFailure, if_pos rfl]
    exact List.mem_append_right _ List.mem_cons_self
  | agreed peerDid' transport handshake _ _ =>
    rw [handshake] at h
    cases h

theorem failed_of_record {r : HandshakeFailureRecord}
    (h : r ∈ (step t op).sessionManager.failureRecords) :
    r ∈ t.sessionManager.failureRecords ∨
      handshake? t op = some (r.peerDid, .error (r.reason, true)) ∧ r.failedAt = op.now := by
  cases ends_step t op with
  | ticked nowSecs tick =>
    rw [tick] at h
    exact .inl h
  | refused _ _ _ same =>
    rw [same] at h
    exact .inl h
  | registered peerDid _ _ after =>
    rw [after] at h
    exact .inl h
  | failed peerDid reason counts handshake _ after =>
    rw [after, failureRecords_managerAfterFailure] at h
    cases counts with
    | false => exact .inl h
    | true =>
      rcases List.mem_append.mp h with hold | hnew
      · exact .inl (List.mem_of_mem_filter hold)
      · rw [List.mem_singleton.mp hnew]
        exact .inr ⟨handshake, rfl⟩
  | agreed peerDid transport _ _ after =>
    rw [after] at h
    change r ∈ (t.sessionManager.evictExpired peerDid op.now).failureRecords at h
    rw [(rotationInterval_evictExpired t.sessionManager peerDid op.now).2.2] at h
    exact .inl h

theorem record_run {r : HandshakeFailureRecord} (h : r ∈ t.sessionManager.failureRecords)
    (hlasts : ∀ op ∈ ops, r.backoffElapsed op.now = false) :
    r ∈ (run step t ops).sessionManager.failureRecords := by
  induction ops generalizing t with
  | nil => exact h
  | cons op ops ih =>
    exact ih (record_kept h (hlasts op List.mem_cons_self))
      fun o ho => hlasts o (List.mem_cons_of_mem op ho)

theorem failed_of_record_run {r : HandshakeFailureRecord}
    (h : r ∈ (run step t ops).sessionManager.failureRecords) :
    r ∈ t.sessionManager.failureRecords ∨ ∃ earlier op rest, ops = earlier ++ op :: rest ∧
      handshake? (run step t earlier) op = some (r.peerDid, .error (r.reason, true)) ∧
        r.failedAt = op.now := by
  induction ops generalizing t with
  | nil => exact .inl h
  | cons op ops ih =>
    rcases ih h with hstep | ⟨earlier, op', rest, hsplit, hfailed⟩
    · rcases failed_of_record hstep with hold | hnew
      · exact .inl hold
      · exact .inr ⟨[], op, ops, rfl, hnew⟩
    · refine .inr ⟨op :: earlier, op', rest, ?_, hfailed⟩
      rw [hsplit, List.cons_append]

theorem inBackoff_iff {m : SessionManager} {peerDid : Did} {nowSecs : ℤ} :
    m.inBackoff peerDid nowSecs = true ↔
      ∃ r ∈ m.failureRecords, r.peerDid = peerDid ∧ nowSecs < r.failedAt + minRetryBackoffSecs := by
  simp only [inBackoff, List.any_eq_true, Bool.and_eq_true, beq_iff_eq, Bool.not_eq_true',
    HandshakeFailureRecord.backoffElapsed, decide_eq_false_iff_not, ge_iff_le, not_le]
  refine exists_congr fun r => and_congr_right fun _ => and_congr_right fun _ => ?_
  omega

/-- A new manager refuses a peer for the back-off exactly when a handshake with the peer failed in a way
that counts less than the back-off ago. -/
theorem inBackoff_iff_failed (lib : NoiseLibraries) (localDid : Did) (interval : ℕ)
    (ops : List MeshSessions.Operation) (peerDid : Did) (nowSecs : ℤ)
    (hclock : ∀ op ∈ ops, op.now ≤ nowSecs) :
    (run step (MeshSessions.new lib localDid interval) ops).sessionManager.inBackoff peerDid
        nowSecs = true ↔
      ∃ earlier op rest reason, ops = earlier ++ op :: rest ∧
        handshake? (run step (MeshSessions.new lib localDid interval) earlier) op =
          some (peerDid, .error (reason, true)) ∧ nowSecs < op.now + minRetryBackoffSecs := by
  rw [inBackoff_iff]
  constructor
  · rintro ⟨r, hr, rfl, hlasts⟩
    rcases failed_of_record_run hr with hstart | ⟨earlier, op, rest, hsplit, hfailed, htime⟩
    · cases hstart
    · rw [htime] at hlasts
      exact ⟨earlier, op, rest, r.reason, hsplit, hfailed, hlasts⟩
  · rintro ⟨earlier, op, rest, reason, rfl, hfailed, hlasts⟩
    refine ⟨⟨peerDid, op.now, reason⟩, ?_, rfl, hlasts⟩
    rw [run_append, run_cons]
    apply record_run (record_of_failed hfailed)
    intro later hlater
    have hle := hclock later
      (List.mem_append_right earlier (List.mem_cons_of_mem op hlater))
    rw [HandshakeFailureRecord.backoffElapsed, decide_eq_false_iff_not]
    simp only [ge_iff_le, not_le]
    omega

def sampleNoise : NoiseLibraries :=
  { (CrdtEngine.sampleLibraries []).toIdentityLibraries with
    Builder := Unit
    HandshakeState := Unit
    TransportState := ℕ
    localPrivateKey := fun _ => .ok ()
    remotePublicKey := fun _ _ => .ok ()
    buildInitiator := fun _ => .ok ()
    writeMessage := fun _ _ => .ok ((), [1])
    readMessage := fun _ _ => .ok ()
    intoTransportMode := fun _ => .ok 0
    getRemoteStatic := fun _ => some [9]
    rekeyOutgoing := fun n => n + 1
    rekeyIncoming := fun n => n + 1
    toMontgomery := fun key => key.val
    toScalarBytes := fun key => key.val }

def sampleStream : NoiseStream := ⟨fun _ => .ok (), .ok ⟨List.replicate 65535 0, List.length_replicate⟩⟩

def sampleCall (peerDid : Did) (stream : Option NoiseStream) (nowSecs : ℤ) :
    MeshSessions.Operation :=
  .initiateSession peerDid .verified (List.replicate 32 7) [9] stream 0 nowSecs

/-- A handshake without a stream counts for the back-off of its peer, behind one that succeeded and
before one of another peer. -/
theorem inBackoff_iff_failed_later :
    (run step (MeshSessions.new sampleNoise "did:key:local" 300)
      [sampleCall "did:key:peer" (some sampleStream) 970, sampleCall "did:key:peer" none 1000,
        sampleCall "did:key:other" none 1010, .tickKeyRotation 1020,
        sampleCall "did:key:peer" (some sampleStream) 1025]).sessionManager.inBackoff
          "did:key:peer" 1029 = true :=
  (inBackoff_iff_failed sampleNoise "did:key:local" 300 _ "did:key:peer" 1029 (by decide)).mpr
    ⟨[sampleCall "did:key:peer" (some sampleStream) 970], sampleCall "did:key:peer" none 1000,
      [sampleCall "did:key:other" none 1010, .tickKeyRotation 1020,
        sampleCall "did:key:peer" (some sampleStream) 1025], streamRequired, rfl, rfl, by decide⟩

/-- The cache has a credential of the peer no older than this, and only some peers are ahead of it. -/
def Cached (m : SessionManager) (peerDid : Did) (issued : ℤ) (ahead : Finset PeerPair) : Prop :=
  ∃ credential, issued ≤ credential.issuedAt ∧
    m.resumptionCache.Behind ⟨m.localDid, peerDid⟩ credential ahead

/-- A time at which a credential of that age is neither older nor past its validity. -/
def Within (issued nowSecs : ℤ) : Prop :=
  issued ≤ nowSecs ∧ nowSecs < issued + credentialValiditySecs

variable {m : SessionManager} {peerDid peerDid' : Did} {issued nowSecs : ℤ}
  {ahead ahead' : Finset PeerPair}

theorem Cached.mono (h : Cached m peerDid issued ahead) (hsub : ahead ⊆ ahead') :
    Cached m peerDid issued ahead' := by
  obtain ⟨credential, hissued, hbehind⟩ := h
  exact ⟨credential, hissued, hbehind.mono hsub⟩

theorem Cached.hasValidCredential (h : Cached m peerDid issued ahead)
    (hvalid : nowSecs < issued + credentialValiditySecs) :
    m.hasValidCredential peerDid nowSecs = true := by
  obtain ⟨credential, hissued, hbehind⟩ := h
  simp only [SessionManager.hasValidCredential, hbehind.peek, Option.map_some, Option.getD_some,
    ResumptionCredential.isValid, decide_eq_true_iff]
  omega

theorem Cached.evictExpired (h : Cached m peerDid issued ahead) (htime : Within issued nowSecs) :
    Cached (m.evictExpired peerDid' nowSecs) peerDid issued ahead := by
  obtain ⟨credential, hissued, hbehind⟩ := h
  unfold SessionManager.evictExpired
  split
  · rename_i found hfound
    split_ifs with hvalid
    · exact ⟨credential, hissued, hbehind⟩
    · refine ⟨credential, hissued, hbehind.pop fun hpair => hvalid ?_⟩
      cases hpair
      rw [hbehind.peek, Option.some_inj] at hfound
      rw [← hfound, ResumptionCredential.isValid, decide_eq_true_iff]
      have hbefore := htime.2
      omega
  · exact ⟨credential, hissued, hbehind⟩

theorem cached_storeCredential (m : SessionManager) (peerDid : Did) (htime : issued ≤ nowSecs)
    (credentialBytes : Bytes) (ahead : Finset PeerPair) :
    Cached (m.storeCredential peerDid ⟨peerDid, nowSecs, credentialBytes⟩) peerDid issued ahead :=
  ⟨_, htime, (Cache.behind_put _ _ _ (Nat.succ_pos 1023)).mono (Finset.empty_subset ahead)⟩

theorem Cached.storeCredential (h : Cached m peerDid issued ahead) (hne : peerDid ≠ peerDid')
    (credential : ResumptionCredential)
    (hroom : (insert ⟨m.localDid, peerDid'⟩ ahead).card < maxResumptionCache) :
    Cached (m.storeCredential peerDid' credential) peerDid issued
      (insert ⟨m.localDid, peerDid'⟩ ahead) := by
  obtain ⟨kept, hissued, hbehind⟩ := h
  refine ⟨kept, hissued, hbehind.put (fun hpair => hne ?_) hroom⟩
  cases hpair
  rfl

theorem settings_step (t : MeshSessions lib) (op : MeshSessions.Operation) :
    (step t op).sessionManager.localDid = t.sessionManager.localDid ∧
      (step t op).sessionManager.rotationIntervalSecs =
        t.sessionManager.rotationIntervalSecs := by
  cases ends_step t op with
  | ticked nowSecs tick =>
    rw [tick]
    exact ⟨rfl, rfl⟩
  | refused _ _ _ same =>
    rw [same]
    exact ⟨rfl, rfl⟩
  | registered peerDid _ _ after =>
    rw [after]
    exact ⟨rfl, rfl⟩
  | failed peerDid reason counts _ _ after =>
    rw [after]
    obtain ⟨hinterval, hdid, -⟩ := rotationInterval_evictExpired t.sessionManager peerDid op.now
    cases counts with
    | true => exact ⟨hdid, hinterval⟩
    | false => exact ⟨hdid, hinterval⟩
  | agreed peerDid transport _ _ after =>
    rw [after]
    obtain ⟨hinterval, hdid, -⟩ := rotationInterval_evictExpired t.sessionManager peerDid op.now
    exact ⟨hdid, hinterval⟩

def pairs (localDid : Did) (peers : Finset Did) : Finset PeerPair := peers.image fun d => ⟨localDid, d⟩

theorem card_pairs (localDid : Did) (peers : Finset Did) : (pairs localDid peers).card = peers.card :=
  Finset.card_image_of_injective _ fun d d' h => by cases h; rfl

theorem pairs_insert (localDid : Did) (d : Did) (peers : Finset Did) :
    pairs localDid (insert d peers) = insert ⟨localDid, d⟩ (pairs localDid peers) :=
  Finset.image_insert _ _ _

def others (t : MeshSessions lib) (op : MeshSessions.Operation) (peerDid : Did) : Finset Did :=
  (establishes t op).toFinset.erase peerDid

/-- A call leaves the credential in the cache while there is room for those put behind it. -/
theorem cached_step {peers : Finset Did}
    (h : Cached t.sessionManager peerDid issued (pairs t.sessionManager.localDid peers))
    (htime : Within issued op.now)
    (hroom : (others t op peerDid ∪ peers).card < maxResumptionCache) :
    Cached (step t op).sessionManager peerDid issued
      (pairs t.sessionManager.localDid (others t op peerDid ∪ peers)) := by
  have hsub : pairs t.sessionManager.localDid peers ⊆
      pairs t.sessionManager.localDid (others t op peerDid ∪ peers) :=
    Finset.image_subset_image Finset.subset_union_right
  have hsession : ∀ (m : SessionManager) (peerDid' : Did) (transport : Option lib.TransportState)
      (bytes : Bytes), m.localDid = t.sessionManager.localDid →
      Cached m peerDid issued (pairs t.sessionManager.localDid peers) →
      establishes t op = some peerDid' →
      Cached (withSession t m peerDid' op.now transport bytes).sessionManager peerDid issued
        (pairs t.sessionManager.localDid (others t op peerDid ∪ peers)) := by
    intro m peerDid' transport bytes hlocal hcached hpeer
    by_cases hsame : peerDid = peerDid'
    · cases hsame
      exact cached_storeCredential m peerDid htime.1 bytes _
    · have hother : others t op peerDid ∪ peers = insert peerDid' peers := by
        rw [others, hpeer, Option.toFinset_some, Finset.erase_eq_of_notMem, Finset.insert_eq]
        rwa [Finset.mem_singleton]
      rw [hother] at hroom ⊢
      rw [← hlocal] at hcached
      rw [pairs_insert, ← hlocal]
      apply hcached.storeCredential hsame
      rwa [← pairs_insert, card_pairs]
  cases ends_step t op with
  | ticked nowSecs tick =>
    rw [tick] at hsub ⊢
    exact h.mono hsub
  | refused _ _ _ same =>
    rw [same]
    exact h.mono hsub
  | registered peerDid' _ peer after =>
    rw [after]
    exact hsession _ peerDid' _ _ rfl h peer
  | failed peerDid' reason counts _ _ after =>
    rw [after]
    have hevicted : Cached (t.sessionManager.evictExpired peerDid' op.now) peerDid issued
        (pairs t.sessionManager.localDid (others t op peerDid ∪ peers)) :=
      (h.mono hsub).evictExpired htime
    cases counts <;> exact hevicted
  | agreed peerDid' transport _ peer after =>
    rw [after]
    exact hsession _ peerDid' _ _
      (rotationInterval_evictExpired t.sessionManager peerDid' op.now).2.1 (h.evictExpired htime) peer

/-- Fewer others than the cache has room for leave the credential in it. -/
theorem cached_run {peers : Finset Did}
    (h : Cached t.sessionManager peerDid issued (pairs t.sessionManager.localDid peers))
    (htime : ∀ op ∈ ops, Within issued op.now)
    (hroom : ((established t ops).erase peerDid ∪ peers).card < maxResumptionCache) :
    ∃ ahead, Cached (run step t ops).sessionManager peerDid issued ahead := by
  induction ops generalizing t peers with
  | nil => exact ⟨_, h⟩
  | cons op ops ih =>
    have hsplit : (established t (op :: ops)).erase peerDid ∪ peers =
        (established (step t op) ops).erase peerDid ∪ (others t op peerDid ∪ peers) := by
      have hunion : established t (op :: ops) =
          (establishes t op).toFinset ∪ established (step t op) ops := by
        unfold established
        rw [emitted_cons, List.toFinset_append]
        cases establishes t op <;> rfl
      rw [hunion, Finset.erase_union_distrib, others, Finset.union_assoc, Finset.union_left_comm]
    rw [hsplit] at hroom
    have hfirst : (others t op peerDid ∪ peers).card < maxResumptionCache :=
      (Finset.card_le_card Finset.subset_union_right).trans_lt hroom
    have hstep := cached_step h (htime op List.mem_cons_self) hfirst
    rw [← (settings_step t op).1] at hstep
    exact ih hstep (fun o ho => htime o (List.mem_cons_of_mem op ho)) hroom

/-- A session with a peer is remembered until its credential is past its validity, as long as sessions
with fewer other peers than the cache has room for are established behind it. -/
theorem credential_kept (t : MeshSessions lib) (first : MeshSessions.Operation)
    (ops : List MeshSessions.Operation) (peerDid : Did) (nowSecs : ℤ)
    (hfirst : establishes t first = some peerDid)
    (htime : ∀ op ∈ ops, Within first.now op.now)
    (hroom : ((established (step t first) ops).erase peerDid).card < maxResumptionCache)
    (hnow : nowSecs < first.now + credentialValiditySecs) :
    (run step t (first :: ops)).sessionManager.hasValidCredential peerDid nowSecs = true := by
  have hcached : Cached (step t first).sessionManager peerDid first.now
      (pairs (step t first).sessionManager.localDid ∅) := by
    cases ends_step t first with
    | ticked nowSecs tick =>
      rw [tick] at hfirst
      cases hfirst
    | refused _ _ nobody _ =>
      rw [nobody] at hfirst
      cases hfirst
    | registered peerDid' _ peer after =>
      rw [peer, Option.some_inj] at hfirst
      rw [after, hfirst]
      exact cached_storeCredential _ peerDid le_rfl _ _
    | failed peerDid' reason counts _ nobody _ =>
      rw [nobody] at hfirst
      cases hfirst
    | agreed peerDid' transport _ peer after =>
      rw [peer, Option.some_inj] at hfirst
      rw [after, hfirst]
      exact cached_storeCredential _ peerDid le_rfl _ _
  obtain ⟨ahead, hend⟩ := cached_run hcached htime (by rwa [Finset.union_empty])
  exact hend.hasValidCredential hnow

/-- A credential outlasts a session with another peer. -/
theorem credential_kept_sample :
    (run step (MeshSessions.new sampleNoise "did:key:local" 300)
      [sampleCall "did:key:peer" sampleStream 1000,
        sampleCall "did:key:other" sampleStream 2000]).sessionManager.hasValidCredential
          "did:key:peer" 87399 = true :=
  credential_kept _ (sampleCall "did:key:peer" sampleStream 1000)
    [sampleCall "did:key:other" sampleStream 2000] "did:key:peer" 87399 (by decide +kernel)
    (by
      intro op hop
      rw [List.mem_singleton.mp hop]
      exact ⟨by decide, by decide⟩)
    (by decide +kernel) (by decide)

theorem lookup_tickKeyRotation (t : MeshSessions lib) (nowSecs : ℤ) (peerDid : Did) :
    (t.tickKeyRotation nowSecs).activeSessions.lookup peerDid =
      (t.activeSessions.lookup peerDid).map (tickSession nowSecs) :=
  List.dlookup_map₂ (l := t.activeSessions.entries) (f := fun _ => tickSession nowSecs) peerDid

theorem tickSession_of_none {session : NoiseSession lib.TransportState}
    (h : session.transport = none) (nowSecs : ℤ) : tickSession nowSecs session = session := by
  unfold tickSession
  split_ifs
  · rw [rotateKeys, h]
  · rfl

theorem rotationDue_iff {session : NoiseSession lib.TransportState} : session.rotationDue nowSecs = true ↔
    (session.rotationIntervalSecs : ℤ) ≤ nowSecs - session.lastRotatedSecs := by
  rw [NoiseSession.rotationDue, decide_eq_true_iff]

/-- A session that was rotated less than its interval before some time, or later, if its handshake was
run here. -/
def RotatedBy (deadline : ℤ) (session : NoiseSession lib.TransportState) : Prop :=
  session.transport.isSome = true →
    deadline < session.lastRotatedSecs + session.rotationIntervalSecs

/-- A tick rotates every session that is due and has a transport state. -/
theorem rotatedBy_tickSession {session : NoiseSession lib.TransportState}
    (hinterval : 0 < session.rotationIntervalSecs) (nowSecs : ℤ) :
    RotatedBy nowSecs (tickSession nowSecs session) := by
  unfold tickSession
  split_ifs with hdue
  · cases htransport : session.transport with
    | none =>
      rw [rotateKeys, htransport]
      intro hsome
      rw [htransport] at hsome
      cases hsome
    | some transport =>
      rw [rotateKeys, htransport]
      intro _
      change nowSecs < nowSecs + (session.rotationIntervalSecs : ℤ)
      omega
  · intro _
    rw [rotationDue_iff] at hdue
    omega

theorem tickSession_interval (session : NoiseSession lib.TransportState) (nowSecs : ℤ) :
    (tickSession nowSecs session).rotationIntervalSecs = session.rotationIntervalSecs := by
  unfold tickSession
  split_ifs
  · cases htransport : session.transport <;> rw [rotateKeys, htransport]
  · rfl

/-- Another tick does not undo this, whatever its time. -/
theorem RotatedBy.tick {deadline : ℤ} {session : NoiseSession lib.TransportState}
    (h : RotatedBy deadline session) (nowSecs : ℤ) :
    RotatedBy deadline (tickSession nowSecs session) := by
  unfold tickSession
  split_ifs with hdue
  · cases htransport : session.transport with
    | none => rwa [rotateKeys, htransport]
    | some transport =>
      rw [rotateKeys, htransport]
      intro _
      have hbefore := h (by rw [htransport]; rfl)
      rw [rotationDue_iff] at hdue
      change deadline < nowSecs + (session.rotationIntervalSecs : ℤ)
      omega
  · exact h

/-- Where the session of a peer comes from: the call that established it last, with the ticks since. -/
structure Origin (t : MeshSessions lib) (ops : List MeshSessions.Operation) (peerDid : Did)
    (session : NoiseSession lib.TransportState) : Prop where
  interval : session.rotationIntervalSecs = t.sessionManager.rotationIntervalSecs
  call : ∃ earlier op rest, ops = earlier ++ op :: rest ∧
    establishes (run step t earlier) op = some peerDid ∧
    peerDid ∉ established (run step t (earlier ++ [op])) rest ∧
    (session.transport = none → session.lastRotatedSecs = op.now) ∧
    ∀ tickSecs, .tickKeyRotation tickSecs ∈ rest → RotatedBy tickSecs session

theorem not_mem_established_snoc {rest : List MeshSessions.Operation}
    (h : peerDid ∉ established t rest) (hop : establishes (run step t rest) op ≠ some peerDid) :
    peerDid ∉ established t (rest ++ [op]) := by
  unfold established at h ⊢
  rw [emitted_append, List.toFinset_append, Finset.mem_union, not_or]
  refine ⟨h, fun hmem => hop ?_⟩
  rw [emitted_cons, emitted_nil, List.append_nil, List.mem_toFinset] at hmem
  exact Option.mem_toList.mp hmem

/-- A call that establishes no session with the peer leaves its origin as it is. -/
theorem Origin.snoc {session session' : NoiseSession lib.TransportState}
    (h : Origin t ops peerDid session) (hop : establishes (run step t ops) op ≠ some peerDid)
    (hinterval : session'.rotationIntervalSecs = session.rotationIntervalSecs)
    (hnone : session'.transport = none → session' = session)
    (hticks : ∀ tickSecs, RotatedBy tickSecs session → RotatedBy tickSecs session')
    (htick : ∀ tickSecs, op = .tickKeyRotation tickSecs → RotatedBy tickSecs session') :
    Origin t (ops ++ [op]) peerDid session' := by
  obtain ⟨earlier, first, rest, hsplit, hfirst, hnever, hregistered, hrotated⟩ := h.call
  refine ⟨hinterval.trans h.interval, earlier, first, rest ++ [op], ?_, hfirst, ?_, ?_, ?_⟩
  · rw [hsplit, List.append_assoc, List.cons_append]
  · apply not_mem_established_snoc hnever
    rwa [← run_append, List.append_assoc, List.singleton_append, ← hsplit]
  · intro htransport
    have hsame := hnone htransport
    rw [hsame] at htransport ⊢
    exact hregistered htransport
  · intro tickSecs hmem
    rcases List.mem_append.mp hmem with hbefore | hlast
    · exact hticks tickSecs (hrotated tickSecs hbefore)
    · exact htick tickSecs (List.mem_singleton.mp hlast).symm

theorem origin_of_new {bytes : Bytes} {m : SessionManager} {transport : Option lib.TransportState}
    {session : NoiseSession lib.TransportState}
    (hm : m.rotationIntervalSecs = t.sessionManager.rotationIntervalSecs)
    (hpeer : establishes (run step t ops) op = some peerDid')
    (hother : establishes (run step t ops) op ≠ some peerDid →
      (run step t ops).activeSessions.lookup peerDid = some session →
        Origin t (ops ++ [op]) peerDid session)
    (h : (withSession (run step t ops) m peerDid' op.now transport bytes).activeSessions.lookup
      peerDid = some session) : Origin t (ops ++ [op]) peerDid session := by
  by_cases hsame : peerDid = peerDid'
  · rw [hsame] at h ⊢
    rw [withSession, AList.lookup_insert, Option.some_inj] at h
    rw [← h]
    refine ⟨hm, ops, op, [], rfl, hpeer, ?_, fun _ => rfl, fun tickSecs hmem => by cases hmem⟩
    simp [established]
  · rw [withSession, AList.lookup_insert_ne hsame] at h
    apply hother _ h
    rw [hpeer]
    intro heq
    cases heq
    exact hsame rfl

theorem interval_run (t : MeshSessions lib) (ops : List MeshSessions.Operation) :
    (run step t ops).sessionManager.rotationIntervalSecs =
      t.sessionManager.rotationIntervalSecs := by
  induction ops generalizing t with
  | nil => rfl
  | cons op ops ih => exact (ih (step t op)).trans (settings_step t op).2

theorem origin_run (hstart : ∀ peerDid, t.activeSessions.lookup peerDid = none)
    (hpositive : 0 < t.sessionManager.rotationIntervalSecs) (ops : List MeshSessions.Operation) :
    ∀ peerDid session, (run step t ops).activeSessions.lookup peerDid = some session →
      Origin t ops peerDid session := by
  induction ops using List.reverseRecOn with
  | nil =>
    intro peerDid session h
    rw [run_nil, hstart] at h
    cases h
  | append_singleton ops op ih =>
    intro peerDid session h
    rw [run_append, run_cons, run_nil] at h
    have hkept : (∀ nowSecs, op ≠ .tickKeyRotation nowSecs) →
        establishes (run step t ops) op ≠ some peerDid →
        (run step t ops).activeSessions.lookup peerDid = some session →
          Origin t (ops ++ [op]) peerDid session := fun hop hnobody hold =>
      (ih peerDid session hold).snoc hnobody rfl (fun _ => rfl) (fun _ => id)
        fun tickSecs htick => absurd htick (hop tickSecs)
    have hcall : ∀ peerDid', establishes (run step t ops) op = some peerDid' →
        ∀ nowSecs, op ≠ .tickKeyRotation nowSecs := by
      intro peerDid' hpeer nowSecs htick
      rw [htick] at hpeer
      cases hpeer
    have hinterval := interval_run t ops
    cases ends_step (run step t ops) op with
    | ticked nowSecs tick =>
      rw [tick] at h ⊢
      change ((run step t ops).tickKeyRotation nowSecs).activeSessions.lookup peerDid = _ at h
      rw [lookup_tickKeyRotation, Option.map_eq_some_iff] at h
      obtain ⟨old, hold, rfl⟩ := h
      have horigin := ih peerDid old hold
      refine horigin.snoc (by rintro ⟨⟩) (tickSession_interval old nowSecs) ?_
        (fun _ hrotated => hrotated.tick nowSecs) fun tickSecs htick => ?_
      · intro hnone
        apply tickSession_of_none
        by_contra hsome
        obtain ⟨transport, htransport⟩ := Option.ne_none_iff_exists'.mp hsome
        unfold tickSession at hnone
        split_ifs at hnone
        · rw [rotateKeys, htransport] at hnone
          cases hnone
        · exact hsome hnone
      · cases htick
        apply rotatedBy_tickSession
        rwa [horigin.interval]
    | refused call _ nobody same =>
      rw [same] at h
      exact hkept call (by rw [nobody]; rintro ⟨⟩) h
    | registered peerDid' _ peer after =>
      rw [after] at h
      exact origin_of_new hinterval peer (hkept (hcall peerDid' peer)) h
    | failed peerDid' reason counts handshake nobody after =>
      rw [after] at h
      refine hkept ?_ (by rw [nobody]; rintro ⟨⟩) h
      intro nowSecs htick
      rw [htick] at handshake
      cases handshake
    | agreed peerDid' transport _ peer after =>
      rw [after] at h
      refine origin_of_new ?_ peer (hkept (hcall peerDid' peer)) h
      exact (rotationInterval_evictExpired _ peerDid' op.now).1.trans hinterval

/-- In every run of a new transport each session is one that a call established, with the interval of the
deployment within its bounds. If its handshake was run here, every tick since then leaves it rotated
less than the interval before; if not, it is never rotated. -/
theorem session_origin (lib : NoiseLibraries) (localDid : Did) (interval : ℕ)
    (ops : List MeshSessions.Operation) (peerDid : Did) (session : NoiseSession lib.TransportState)
    (h : (run step (MeshSessions.new lib localDid interval) ops).activeSessions.lookup peerDid =
      some session) :
    Origin (MeshSessions.new lib localDid interval) ops peerDid session ∧
      session.rotationIntervalSecs ∈ Set.Icc minRotationIntervalSecs maxRotationIntervalSecs := by
  have hbounds : (MeshSessions.new lib localDid interval).sessionManager.rotationIntervalSecs ∈
      Set.Icc minRotationIntervalSecs maxRotationIntervalSecs :=
    ⟨le_min (le_max_right _ _) (by decide), min_le_right _ _⟩
  have horigin := origin_run (t := MeshSessions.new lib localDid interval) (fun _ => rfl)
    (lt_of_lt_of_le (by decide) hbounds.1) ops peerDid session h
  rw [horigin.interval]
  exact ⟨horigin, hbounds⟩

/-- A session whose handshake was run here, after a tick that rotates its keys. -/
theorem session_origin_sample :
    let ops := [sampleCall "did:key:peer" sampleStream 1000, .tickKeyRotation 1300]
    let session : NoiseSession sampleNoise.TransportState :=
      ⟨"did:key:peer", 1300, 300, some (2 : ℕ)⟩
    Origin (MeshSessions.new sampleNoise "did:key:local" 300) ops "did:key:peer" session ∧
      session.rotationIntervalSecs ∈ Set.Icc minRotationIntervalSecs maxRotationIntervalSecs := by
  intro ops session
  exact session_origin sampleNoise "did:key:local" 300 ops "did:key:peer" session rfl

end TirBase.SessionRuns
