import TirBase.ChangeFeeds
import TirBase.DurabilityRuns

/-! # What subscribers hear of the tiers

A change of a tier is announced with the tier before and the tier after. A subscriber that follows the
announcements has the tier table, unless a Delta is registered again above its start, or acknowledged
without being registered. -/
namespace TirBase.Quorum
open ChangeFeeds TransitionRuns

/-- `DurabilityTierChanged`. -/
abbrev DurabilityTierChanged : Type := Change DeltaId DurabilityTier

namespace DurabilitySubsystem
variable {Γ : Type*} (lib : IdentityLibraries)

/-- The first quorum is announced, where the call returns that Tier-1 was achieved. -/
def receiptChanges (d : DurabilitySubsystem) (receipt : DurabilityReceipt) (deltaId : DeltaId)
    (nowSecs : ℤ) : List DurabilityTierChanged :=
  match (d.receiveReceipt lib receipt deltaId nowSecs).1 with
  | .ok true => [⟨deltaId, .uncommitted, .tier1⟩]
  | _ => []

/-- Every acknowledgement is announced, of unknown Deltas as well. -/
def ackWithChange (d : DurabilitySubsystem) (deltaId : DeltaId) :
    DurabilitySubsystem × List DurabilityTierChanged :=
  (d.onCloudAck deltaId, [⟨deltaId, d.durabilityTier deltaId, .tier2⟩])

def cycleChanges (sendDelta : Γ → DeltaId → Bytes → Except String Unit × Γ)
    (refetch : DeltaId → List Did → Option Bytes) (d : DurabilitySubsystem) (conn : Γ) :
    List DurabilityTierChanged :=
  if d.cloudQueue.depth = 0 then []
  else
    let out := cloudSyncLoop sendDelta refetch d.cloudQueue conn
    emitted ackWithChange { d with cloudQueue := out.queue } out.result.acknowledgedIds

def stepWithChanges (d : DurabilitySubsystem) (op : DurabilityOp Γ) :
    DurabilitySubsystem × List DurabilityTierChanged :=
  (d.step lib op, match op with
    | .receiveReceipt receipt deltaId nowSecs => d.receiptChanges lib receipt deltaId nowSecs
    | .onCloudAck deltaId => (d.ackWithChange deltaId).2
    | .runCloudSyncCycle sendDelta refetch conn => cycleChanges sendDelta refetch d conn
    | _ => [])

def heard (d : DurabilitySubsystem) (ops : List (DurabilityOp Γ)) : DeltaId → DurabilityTier :=
  run hear d.durabilityTier (emitted (stepWithChanges lib) d ops)

/-- A registration meets a Delta that has not left its start, an acknowledgement one that is
registered. -/
def Announced (d : DurabilitySubsystem) : DurabilityOp Γ → Prop
  | .registerDelta deltaId _ _ _ _ => d.durabilityTier deltaId = .uncommitted
  | .onCloudAck deltaId => (d.states.lookup deltaId).isSome = true
  | _ => True

def QueuesRegistered (d : DurabilitySubsystem) : Prop :=
  ∀ id ∈ d.cloudQueue.ids, (d.states.lookup id).isSome = true

variable {lib} {d : DurabilitySubsystem} {deltaId id : DeltaId}

theorem isSome_insert {state : DeltaDurabilityState} (h : (d.states.lookup id).isSome = true) :
    ((d.states.insert deltaId state).lookup id).isSome = true := by
  by_cases hid : id = deltaId
  · rw [hid, AList.lookup_insert]
    rfl
  · rw [AList.lookup_insert_ne hid]
    exact h

theorem isSome_onCloudAck (h : (d.states.lookup id).isSome = true) :
    ((d.onCloudAck deltaId).states.lookup id).isSome = true := by
  unfold onCloudAck
  cases d.states.lookup deltaId with
  | none => exact h
  | some state => exact isSome_insert h

/-- An acknowledged Delta that is registered is Tier-2, and no other tier moves. -/
theorem durabilityTier_onCloudAck (h : (d.states.lookup deltaId).isSome = true) :
    (d.onCloudAck deltaId).durabilityTier = Function.update d.durabilityTier deltaId .tier2 := by
  obtain ⟨state, hstate⟩ := Option.isSome_iff_exists.mp h
  funext id
  unfold onCloudAck durabilityTier
  simp only [hstate]
  by_cases hid : id = deltaId
  · subst hid
    rw [AList.lookup_insert, Function.update_self]
    rfl
  · rw [AList.lookup_insert_ne hid, Function.update_of_ne hid]

theorem durabilityTier_onCloudAck_unknown (h : d.states.lookup deltaId = none) :
    (d.onCloudAck deltaId).durabilityTier = d.durabilityTier := by
  funext id
  unfold onCloudAck durabilityTier
  simp only [h]

/-- Acknowledgements of registered Deltas are announced as they happen. -/
theorem heard_acks {ids : List DeltaId} (h : ∀ id ∈ ids, (d.states.lookup id).isSome = true) :
    run hear d.durabilityTier (emitted ackWithChange d ids) =
        (ids.foldl onCloudAck d).durabilityTier ∧
      Unbroken d.durabilityTier (emitted ackWithChange d ids) := by
  induction ids generalizing d with
  | nil => exact ⟨rfl, trivial⟩
  | cons first ids ih =>
    have hfirst := h first List.mem_cons_self
    have hnext : hear d.durabilityTier ⟨first, d.durabilityTier first, .tier2⟩ =
        (d.onCloudAck first).durabilityTier := (durabilityTier_onCloudAck hfirst).symm
    have hrest := @ih (d.onCloudAck first) fun id hid =>
      isSome_onCloudAck (h id (List.mem_cons_of_mem first hid))
    rw [← hnext] at hrest
    exact ⟨hrest.1, rfl, hrest.2⟩

section Cycle
variable {sendDelta : Γ → DeltaId → Bytes → Except String Unit × Γ}
  {refetch : DeltaId → List Did → Option Bytes}

/-- What is left in the queue, and what was acknowledged, was queued. -/
theorem queued_cloudSyncLoop (q : CloudOutboundQueue) (conn : Γ) :
    let out := cloudSyncLoop sendDelta refetch q conn
    (∀ id ∈ out.queue.ids, id ∈ q.ids) ∧ ∀ id ∈ out.result.acknowledgedIds, id ∈ q.ids := by
  intro out
  have hstep : ∀ (s : SyncProgress Γ) (deltaId : DeltaId),
      (∀ id ∈ s.queue.ids, id ∈ q.ids) ∧ (∀ id ∈ s.result.acknowledgedIds, id ∈ q.ids) →
        (∀ id ∈ (syncEntry sendDelta refetch s deltaId).queue.ids, id ∈ q.ids) ∧
          ∀ id ∈ (syncEntry sendDelta refetch s deltaId).result.acknowledgedIds, id ∈ q.ids := by
    rintro s deltaId ⟨hqueue, hacked⟩
    rcases syncEntry_cases sendDelta refetch s deltaId with
      ⟨hsame, hids⟩ | ⟨e, hfind, htaken, ⟨-, hids⟩ | hids⟩
    · rw [hsame, hids]
      exact ⟨hqueue, hacked⟩
    · rw [htaken, hids]
      exact ⟨fun id hid => hqueue id (mem_ids_acknowledge.mp hid).1, hacked⟩
    · rw [htaken, hids]
      refine ⟨fun id hid => hqueue id (mem_ids_acknowledge.mp hid).1, fun id hid => ?_⟩
      rcases List.mem_append.mp hid with hold | hnew
      · exact hacked id hold
      · obtain ⟨hmem, hname⟩ := CloudOutboundQueue.find_eq_some hfind
        rw [List.mem_singleton.mp hnew]
        exact hqueue deltaId (List.mem_map.mpr ⟨e, hmem, hname⟩)
  exact invariant_run hstep q.topologicalSortQueue
    ⟨fun id hid => hid, fun id hid => absurd hid List.not_mem_nil⟩

theorem heard_cycle (h : d.QueuesRegistered) (conn : Γ) :
    run hear d.durabilityTier (cycleChanges sendDelta refetch d conn) =
        (d.runCloudSyncCycle sendDelta refetch conn).durabilityTier ∧
      Unbroken d.durabilityTier (cycleChanges sendDelta refetch d conn) := by
  unfold cycleChanges runCloudSyncCycle
  split_ifs
  · exact ⟨rfl, trivial⟩
  · have hacked : ∀ id ∈ (cloudSyncLoop sendDelta refetch d.cloudQueue conn).result.acknowledgedIds,
        (d.states.lookup id).isSome = true := fun id hid =>
      h id ((queued_cloudSyncLoop d.cloudQueue conn).2 id hid)
    exact @heard_acks { d with
      cloudQueue := (cloudSyncLoop sendDelta refetch d.cloudQueue conn).queue } _ hacked

end Cycle

theorem heard_receipt (receipt : DurabilityReceipt) (nowSecs : ℤ) :
    run hear d.durabilityTier (d.receiptChanges lib receipt deltaId nowSecs) =
        (d.receiveReceipt lib receipt deltaId nowSecs).2.durabilityTier ∧
      Unbroken d.durabilityTier (d.receiptChanges lib receipt deltaId nowSecs) := by
  unfold receiptChanges
  rcases receiveReceipt_cases lib d receipt deltaId nowSecs with
    ⟨hsame, hanswer⟩ | ⟨state, tag, anchor, hadmitted, -, hcounted⟩
  · rw [hsame]
    split
    · rename_i htrue
      exact absurd (hanswer true htrue).2 (by decide)
    · exact ⟨rfl, trivial⟩
  · obtain ⟨state', hstate', -, -, -, htier⟩ :=
      countReceipt_cases { d with anchor := anchor } deltaId state receipt tag
    have hbefore : d.durabilityTier deltaId = state.tier :=
      durabilityTier_of_lookup hadmitted.registered
    have hafter : (d.receiveReceipt lib receipt deltaId nowSecs).2.durabilityTier =
        Function.update d.durabilityTier deltaId state'.tier := by
      rw [hcounted, hstate']
      funext id
      unfold durabilityTier
      by_cases hid : id = deltaId
      · subst hid
        rw [AList.lookup_insert, Function.update_self]
        rfl
      · rw [AList.lookup_insert_ne hid, Function.update_of_ne hid]
    rw [hafter, hcounted]
    dsimp only
    rcases htier with ⟨hfalse, hkept, -⟩ | ⟨htrue, hraised, -, hstart⟩
    · rw [hfalse, hkept, ← hbefore, Function.update_eq_self]
      exact ⟨rfl, trivial⟩
    · rw [htrue, hraised]
      exact ⟨rfl, (hbefore.trans hstart).symm, trivial⟩

theorem durabilityTier_registerDelta (stateHash : BitVec 256) (bytes : Bytes)
    (parents : List DeltaId) (keys : AList fun _ : Did => KeyBytes) :
    (d.registerDelta deltaId stateHash bytes parents keys).2.durabilityTier =
      Function.update d.durabilityTier deltaId .uncommitted := by
  have hstates : (d.registerDelta deltaId stateHash bytes parents keys).2.states =
      d.states.insert deltaId (d.freshState stateHash keys) := by
    unfold registerDelta
    dsimp only
    split <;> rfl
  funext id
  unfold durabilityTier
  rw [hstates]
  by_cases hid : id = deltaId
  · subst hid
    rw [AList.lookup_insert, Function.update_self]
    rfl
  · rw [AList.lookup_insert_ne hid, Function.update_of_ne hid]

theorem durabilityTier_registerPeerKey (peerDid : Did) (publicKey : KeyBytes) :
    (d.registerPeerKey deltaId peerDid publicKey).durabilityTier = d.durabilityTier := by
  unfold registerPeerKey
  cases hstate : d.states.lookup deltaId with
  | none => rfl
  | some state =>
    funext id
    unfold durabilityTier
    by_cases hid : id = deltaId
    · subst hid
      simp only [AList.lookup_insert, hstate]
      rfl
    · simp only [AList.lookup_insert_ne hid]

/-- A subscriber that was up to date is so after the operation exactly when it is announced. -/
theorem heard_step_iff (h : d.QueuesRegistered) (op : DurabilityOp Γ) :
    run hear d.durabilityTier (d.stepWithChanges lib op).2 = (d.step lib op).durabilityTier ↔
      d.Announced op := by
  cases op with
  | registerDelta deltaId stateHash bytes parents keys =>
    change d.durabilityTier = (d.registerDelta deltaId stateHash bytes parents keys).2.durabilityTier
      ↔ _
    rw [durabilityTier_registerDelta, eq_comm, Function.update_eq_self_iff, eq_comm]
    rfl
  | registerPeerKey deltaId peerDid publicKey =>
    exact iff_of_true (durabilityTier_registerPeerKey peerDid publicKey).symm trivial
  | receiveReceipt receipt deltaId nowSecs =>
    exact iff_of_true (heard_receipt receipt nowSecs).1 trivial
  | onCloudAck deltaId =>
    change Function.update d.durabilityTier deltaId .tier2 = (d.onCloudAck deltaId).durabilityTier
      ↔ _
    cases hstate : d.states.lookup deltaId with
    | none =>
      have hstart : d.durabilityTier deltaId = .uncommitted := by
        rw [durabilityTier, hstate]
        rfl
      rw [durabilityTier_onCloudAck_unknown hstate, Function.update_eq_self_iff, hstart]
      exact iff_of_false (by decide) (by simp [Announced, hstate])
    | some state =>
      have hregistered : (d.states.lookup deltaId).isSome = true := by rw [hstate]; rfl
      exact iff_of_true (durabilityTier_onCloudAck hregistered).symm hregistered
  | runCloudSyncCycle sendDelta refetch conn => exact iff_of_true (heard_cycle h conn).1 trivial
  | markCompacted deltaId => exact iff_of_true rfl trivial
  | advanceEpoch newEpoch => exact iff_of_true rfl trivial
  | onBeaconSignalLost timestamp peers => exact iff_of_true rfl trivial

theorem unbroken_step (h : d.QueuesRegistered) (op : DurabilityOp Γ) :
    Unbroken d.durabilityTier (d.stepWithChanges lib op).2 := by
  cases op with
  | receiveReceipt receipt deltaId nowSecs => exact (heard_receipt receipt nowSecs).2
  | onCloudAck deltaId => exact ⟨rfl, trivial⟩
  | runCloudSyncCycle sendDelta refetch conn => exact (heard_cycle h conn).2
  | _ => trivial

theorem QueuesRegistered.onCloudAck (h : d.QueuesRegistered) :
    (d.onCloudAck deltaId).QueuesRegistered := fun id hid =>
  isSome_onCloudAck (h id (mem_ids_acknowledge.mp hid).1)

theorem QueuesRegistered.acknowledgeAll (h : d.QueuesRegistered) (ids : List DeltaId) :
    (ids.foldl DurabilitySubsystem.onCloudAck d).QueuesRegistered := by
  induction ids generalizing d with
  | nil => exact h
  | cons first ids ih => exact ih h.onCloudAck

theorem QueuesRegistered.registerDelta (h : d.QueuesRegistered) (stateHash : BitVec 256)
    (bytes : Bytes) (parents : List DeltaId) (keys : AList fun _ : Did => KeyBytes) :
    (d.registerDelta deltaId stateHash bytes parents keys).2.QueuesRegistered := by
  have hself : ((d.states.insert deltaId (d.freshState stateHash keys)).lookup deltaId).isSome =
      true := by
    rw [AList.lookup_insert]
    rfl
  rcases Nat.lt_or_ge d.cloudQueue.queue.length maxQueueDepth with hroom | hfull
  · rw [registerDelta_of_lt hroom]
    intro id hid
    have hsplit : id ∈ d.cloudQueue.ids ∨ id = deltaId := by
      simpa [CloudOutboundQueue.ids, QueueEntry.new] using hid
    rcases hsplit with hold | rfl
    · exact isSome_insert (h id hold)
    · exact hself
  · rw [registerDelta_of_le hfull]
    exact fun id hid => isSome_insert (h id hid)

theorem QueuesRegistered.step (h : d.QueuesRegistered) (op : DurabilityOp Γ) :
    (d.step lib op).QueuesRegistered := by
  cases op with
  | registerDelta deltaId stateHash bytes parents keys => exact h.registerDelta _ _ _ _
  | registerPeerKey deltaId peerDid publicKey =>
    change (d.registerPeerKey deltaId peerDid publicKey).QueuesRegistered
    unfold registerPeerKey
    cases d.states.lookup deltaId with
    | none => exact h
    | some state => exact fun id hid => isSome_insert (h id hid)
  | receiveReceipt receipt deltaId nowSecs =>
    change (d.receiveReceipt lib receipt deltaId nowSecs).2.QueuesRegistered
    rcases snd_receiveReceipt_cases lib d receipt deltaId nowSecs with
      hsame | ⟨state, tag, anchor, state', -, -, hcounted, -⟩
    · rw [hsame]
      exact h
    · rw [hcounted]
      intro id hid
      rw [ids_addReceiptHolder] at hid
      exact isSome_insert (h id hid)
  | onCloudAck deltaId => exact h.onCloudAck
  | runCloudSyncCycle sendDelta refetch conn =>
    change (d.runCloudSyncCycle sendDelta refetch conn).QueuesRegistered
    unfold runCloudSyncCycle
    split_ifs
    · exact h
    · have hleft : QueuesRegistered { d with
          cloudQueue := (cloudSyncLoop sendDelta refetch d.cloudQueue conn).queue } :=
        fun id hid => h id ((queued_cloudSyncLoop d.cloudQueue conn).1 id hid)
      exact hleft.acknowledgeAll _
  | markCompacted deltaId =>
    intro id hid
    dsimp only [DurabilitySubsystem.step] at hid
    rw [CloudOutboundQueue.ids_markCompacted] at hid
    exact h id hid
  | advanceEpoch newEpoch => exact h
  | onBeaconSignalLost timestamp peers => exact h

theorem queuesRegistered_withAnchor (quorumConfig : QuorumConfig)
    (anchor : Option AnchorAttestedLocation) : (withAnchor quorumConfig anchor).QueuesRegistered :=
  fun _ hid => absurd hid List.not_mem_nil

variable (lib) in
def follow (x : DurabilitySubsystem × (DeltaId → DurabilityTier)) (op : DurabilityOp Γ) :
    DurabilitySubsystem × (DeltaId → DurabilityTier) :=
  (x.1.step lib op, run hear x.2 (x.1.stepWithChanges lib op).2)

theorem run_follow (d : DurabilitySubsystem) (copy : DeltaId → DurabilityTier)
    (ops : List (DurabilityOp Γ)) : run (follow lib) (d, copy) ops =
      (run (step lib) d ops, run hear copy (emitted (stepWithChanges lib) d ops)) := by
  induction ops generalizing d copy with
  | nil => rfl
  | cons op ops ih =>
    rw [run_cons, run_cons, emitted_cons, run_append]
    exact ih _ _

theorem guarded_follow (d : DurabilitySubsystem) (copy : DeltaId → DurabilityTier)
    (ops : List (DurabilityOp Γ)) :
    Guarded (follow lib) (fun x op => x.1.Announced op) (d, copy) ops ↔
      Guarded (step lib) Announced d ops := by
  induction ops generalizing d copy with
  | nil => exact Iff.rfl
  | cons op ops ih => exact and_congr_right fun _ => ih _ _

/-- A step announces nothing that brings a Delta back to its start. -/
theorem after_ne_uncommitted {op : DurabilityOp Γ} {c : DurabilityTierChanged}
    (h : c ∈ (d.stepWithChanges lib op).2) : c.after ≠ .uncommitted := by
  cases op with
  | receiveReceipt receipt deltaId nowSecs =>
    change c ∈ d.receiptChanges lib receipt deltaId nowSecs at h
    unfold receiptChanges at h
    split at h
    · rw [List.mem_singleton.mp h]
      exact DurabilityTier.noConfusion
    · cases h
  | onCloudAck deltaId =>
    change c ∈ [(⟨deltaId, d.durabilityTier deltaId, .tier2⟩ : DurabilityTierChanged)] at h
    rw [List.mem_singleton.mp h]
    exact DurabilityTier.noConfusion
  | runCloudSyncCycle sendDelta refetch conn =>
    change c ∈ cycleChanges sendDelta refetch d conn at h
    unfold cycleChanges at h
    split_ifs at h
    · cases h
    · obtain ⟨d', id, -, hc⟩ := mem_emitted h
      rw [List.mem_singleton.mp hc]
      exact DurabilityTier.noConfusion
  | _ => cases h

theorem unbroken_run (h : d.QueuesRegistered) {ops : List (DurabilityOp Γ)}
    (hops : Guarded (step lib) Announced d ops) :
    Unbroken d.durabilityTier (emitted (stepWithChanges lib) d ops) := by
  induction ops generalizing d with
  | nil => trivial
  | cons op ops ih =>
    obtain ⟨hop, hrest⟩ := hops
    have hagree := (@heard_step_iff Γ lib d h op).mpr hop
    rw [emitted_cons, Unbroken, guarded_append]
    refine ⟨unbroken_step h op, ?_⟩
    rw [hagree]
    exact ih (h.step op) hrest

/-- A subscriber is up to date at every moment of a run exactly when each operation is announced. Then
every announcement starts from the tier that the subscriber knows, and each Delta leaves its start
once at most. -/
theorem subscribers_follow_iff (lib : IdentityLibraries) (quorumConfig : QuorumConfig)
    (anchor : Option AnchorAttestedLocation) (ops : List (DurabilityOp Γ)) :
    let d := withAnchor quorumConfig anchor
    let changes := emitted (stepWithChanges lib) d ops
    ((∀ earlier, earlier <+: ops →
        heard lib d earlier = (run (step lib) d earlier).durabilityTier) ↔
      Guarded (step lib) Announced d ops) ∧
    (Guarded (step lib) Announced d ops → Unbroken d.durabilityTier changes ∧
      ∀ id, leavings id .uncommitted changes ≤ 1) := by
  intro d changes
  have hstart := queuesRegistered_withAnchor quorumConfig anchor
  constructor
  · have hstep : ∀ (x : DurabilitySubsystem × (DeltaId → DurabilityTier)) (op : DurabilityOp Γ),
        x.1.QueuesRegistered → x.2 = x.1.durabilityTier →
          ((follow lib x op).2 = (follow lib x op).1.durabilityTier ↔ x.1.Announced op) := by
      rintro ⟨d, copy⟩ op hqueued hcopy
      change copy = d.durabilityTier at hcopy
      subst hcopy
      exact heard_step_iff hqueued op
    have hinvariant : ∀ (x : DurabilitySubsystem × (DeltaId → DurabilityTier))
        (op : DurabilityOp Γ), x.1.QueuesRegistered → x.2 = x.1.durabilityTier →
          x.1.Announced op → (follow lib x op).1.QueuesRegistered :=
      fun x op hqueued _ _ => hqueued.step op
    rw [← guarded_follow d d.durabilityTier,
      ← forall_prefix_iff_guarded hstep hinvariant hstart rfl]
    refine forall_congr' fun earlier => imp_congr_right fun _ => ?_
    rw [run_follow]
    exact Iff.rfl
  · intro hops
    have hunbroken := unbroken_run hstart hops
    refine ⟨hunbroken, fun id => ?_⟩
    have hback : ∀ c ∈ changes, c.after ≠ .uncommitted := by
      intro c hc
      obtain ⟨d', op, -, hmem⟩ := mem_emitted hc
      exact after_ne_uncommitted hmem
    refine (leavings_le hunbroken hback id).trans ?_
    split_ifs <;> omega

end DurabilitySubsystem
end TirBase.Quorum
