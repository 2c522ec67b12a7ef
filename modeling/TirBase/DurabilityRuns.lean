import TirBase.ReceiptQuorums

/-! # Runs of the durability subsystem

Registrations, receipts, acknowledgements and sync cycles in any order. A Delta that is registered
for a second time starts again, and one that the queue has no room for is registered all the same.
-/
namespace TirBase
open TransitionRuns

def DurabilityTier.rank : DurabilityTier → ℕ
  | .uncommitted => 0
  | .tier1 => 1
  | .tier2 => 2

theorem DurabilityTier.rank_le_tier2 (tier : DurabilityTier) :
    tier.rank ≤ DurabilityTier.tier2.rank := by cases tier <;> decide

namespace Quorum

/-- What is done to the subsystem. A sync cycle comes with the connection it uses. -/
inductive DurabilityOp (Γ : Type*)
  | registerDelta (deltaId : DeltaId) (stateHash : BitVec 256) (serialisedBytes : Bytes)
      (causalParents : List DeltaId) (peerPublicKeys : AList fun _ : Did => KeyBytes)
  | registerPeerKey (deltaId : DeltaId) (peerDid : Did) (publicKey : KeyBytes)
  | receiveReceipt (receipt : DurabilityReceipt) (deltaId : DeltaId) (nowSecs : ℤ)
  | onCloudAck (deltaId : DeltaId)
  | runCloudSyncCycle (sendDelta : Γ → DeltaId → Bytes → Except String Unit × Γ)
      (refetch : DeltaId → List Did → Option Bytes) (conn : Γ)
  | markCompacted (deltaId : DeltaId)
  | advanceEpoch (newEpoch : UInt64)
  | onBeaconSignalLost (timestamp : ℤ) (affectedPeerDids : List Did)

namespace DurabilitySubsystem
variable {Γ : Type*} (lib : IdentityLibraries)

def step (d : DurabilitySubsystem) : DurabilityOp Γ → DurabilitySubsystem
  | .registerDelta deltaId stateHash serialisedBytes causalParents peerPublicKeys =>
    (d.registerDelta deltaId stateHash serialisedBytes causalParents peerPublicKeys).2
  | .registerPeerKey deltaId peerDid publicKey => d.registerPeerKey deltaId peerDid publicKey
  | .receiveReceipt receipt deltaId nowSecs => (d.receiveReceipt lib receipt deltaId nowSecs).2
  | .onCloudAck deltaId => d.onCloudAck deltaId
  | .runCloudSyncCycle sendDelta refetch conn => d.runCloudSyncCycle sendDelta refetch conn
  | .markCompacted deltaId => { d with cloudQueue := d.cloudQueue.markCompacted deltaId }
  | .advanceEpoch newEpoch => { d with anchor := d.anchor.map (·.advanceEpoch newEpoch) }
  | .onBeaconSignalLost timestamp affectedPeerDids =>
    { d with anchor := d.anchor.map (·.onBeaconSignalLost timestamp affectedPeerDids) }

structure Unchanged (d d' : DurabilitySubsystem) : Prop where
  quorumConfig : d'.quorumConfig = d.quorumConfig
  states : ∀ id, d'.states.lookup id = d.states.lookup id
  anchor : d'.anchor = d.anchor
  cloudQueue : d'.cloudQueue = d.cloudQueue

/-- The operation lowers no tier, leaves every Delta below Tier-2 in the queue, and if it is a
registration that finds the queue full, it does nothing. -/
structure KeepsPromises (d : DurabilitySubsystem) (op : DurabilityOp Γ) : Prop where
  tiers : ∀ id, (d.durabilityTier id).rank ≤ ((d.step lib op).durabilityTier id).rank
  queued : ∀ id state, (d.step lib op).states.lookup id = some state → state.tier ≠ .tier2 →
    id ∈ (d.step lib op).cloudQueue.ids
  refused : ∀ deltaId stateHash bytes parents keys depth,
    op = .registerDelta deltaId stateHash bytes parents keys →
      (d.registerDelta deltaId stateHash bytes parents keys).1 = .error (.cloudQueueFull depth) →
        Unchanged d (d.step lib op)

/-- A registration meets a Delta that is unknown or still uncommitted. When the queue is full, the
Delta is in the tier table already as one just registered with the same data. -/
def RegistersAfresh (d : DurabilitySubsystem) : DurabilityOp Γ → Prop
  | .registerDelta deltaId stateHash _ _ peerPublicKeys =>
    if d.cloudQueue.queue.length < maxQueueDepth then d.durabilityTier deltaId = .uncommitted
    else d.states.lookup deltaId = some (d.freshState stateHash peerPublicKeys)
  | _ => True

/-- Every Delta below Tier-2 waits in the queue or is among those just acknowledged; no entry is
marked durable. -/
structure Waiting (d : DurabilitySubsystem) (acknowledged : List DeltaId) : Prop where
  queued : ∀ id state, d.states.lookup id = some state → state.tier ≠ .tier2 →
    id ∈ d.cloudQueue.ids ∨ id ∈ acknowledged
  unmarked : ∀ e ∈ d.cloudQueue.queue, e.tier2Durable = false

/-- No tier is lowered, and the Deltas below Tier-2 stay in the queue. -/
structure Advances (d d' : DurabilitySubsystem) : Prop where
  tiers : ∀ id, (d.durabilityTier id).rank ≤ (d'.durabilityTier id).rank
  waiting : d.Waiting [] → d'.Waiting []

variable {d : DurabilitySubsystem} {deltaId : DeltaId} {state : DeltaDurabilityState}
  {acknowledged : List DeltaId}

theorem durabilityTier_of_lookup (h : d.states.lookup deltaId = some state) :
    d.durabilityTier deltaId = state.tier := by
  rw [durabilityTier, h]
  rfl

theorem durabilityTier_insert (d : DurabilitySubsystem) (deltaId : DeltaId)
    (state : DeltaDurabilityState) (queue : CloudOutboundQueue) : durabilityTier
      { d with states := d.states.insert deltaId state, cloudQueue := queue } deltaId =
        state.tier := by
  simp only [durabilityTier, AList.lookup_insert]
  rfl

theorem rank_le_insert (queue : CloudOutboundQueue)
    (h : (d.durabilityTier deltaId).rank ≤ state.tier.rank) (id : DeltaId) :
    (d.durabilityTier id).rank ≤ (durabilityTier
      { d with states := d.states.insert deltaId state, cloudQueue := queue } id).rank := by
  by_cases hid : id = deltaId
  · subst hid
    rwa [durabilityTier_insert]
  · apply Nat.le_of_eq
    simp only [durabilityTier, AList.lookup_insert_ne hid]

theorem unmarked_updateFirst {change : QueueEntry → QueueEntry}
    (hchange : ∀ e, (change e).tier2Durable = e.tier2Durable) {es : List QueueEntry}
    (h : ∀ e ∈ es, e.tier2Durable = false) :
    ∀ e ∈ CloudOutboundQueue.updateFirst change deltaId es, e.tier2Durable = false := by
  induction es with
  | nil => exact h
  | cons first es ih =>
    obtain ⟨hfirst, hes⟩ := List.forall_mem_cons.mp h
    unfold CloudOutboundQueue.updateFirst
    split_ifs
    · exact List.forall_mem_cons.mpr ⟨(hchange first).trans hfirst, hes⟩
    · exact List.forall_mem_cons.mpr ⟨hfirst, ih hes⟩

theorem advances_registerPeerKey (d : DurabilitySubsystem) (deltaId : DeltaId) (peerDid : Did)
    (publicKey : KeyBytes) : d.Advances (d.registerPeerKey deltaId peerDid publicKey) := by
  unfold registerPeerKey
  cases hlookup : d.states.lookup deltaId with
  | none => exact ⟨fun id => le_rfl, id⟩
  | some state =>
    refine ⟨rank_le_insert _ (by rw [durabilityTier_of_lookup hlookup]), fun h => ⟨?_, h.unmarked⟩⟩
    intro id state' hstate' htier
    by_cases hid : id = deltaId
    · subst hid
      rw [AList.lookup_insert] at hstate'
      cases hstate'
      exact h.queued id state hlookup htier
    · rw [AList.lookup_insert_ne hid] at hstate'
      exact h.queued id state' hstate' htier

theorem ids_addReceiptHolder (q : CloudOutboundQueue) (deltaId : DeltaId) (holder : Did) :
    (q.addReceiptHolder deltaId holder).ids = q.ids :=
  CloudOutboundQueue.ids_updateFirst (fun _ => by rfl) deltaId q.queue

/-- A counted receipt changes the state of its Delta and leaves the Delta in the queue. -/
theorem countReceipt_cases (d : DurabilitySubsystem) (deltaId : DeltaId)
    (state : DeltaDurabilityState) (receipt : DurabilityReceipt) (tag : Option String) :
    ∃ state', (d.countReceipt deltaId state receipt tag).2 =
        { d with
          states := d.states.insert deltaId state'
          cloudQueue := d.cloudQueue.addReceiptHolder deltaId receipt.issuerDid } ∧
      state'.stateHash = state.stateHash ∧ state'.peerPublicKeys = state.peerPublicKeys ∧
      state'.quorum = (state.quorum.addReceiptWithTag receipt tag).2 ∧
      ((d.countReceipt deltaId state receipt tag).1 = false ∧ state'.tier = state.tier ∧
          ¬((state.quorum.addReceiptWithTag receipt tag).1 = true ∧ state.tier = .uncommitted) ∨
        (d.countReceipt deltaId state receipt tag).1 = true ∧ state'.tier = .tier1 ∧
          (state.quorum.addReceiptWithTag receipt tag).1 = true ∧ state.tier = .uncommitted) := by
  unfold countReceipt
  dsimp only
  split_ifs with hquorum
  · exact ⟨_, rfl, rfl, rfl, rfl, .inr ⟨rfl, rfl, hquorum⟩⟩
  · exact ⟨_, rfl, rfl, rfl, rfl, .inl ⟨rfl, rfl, hquorum⟩⟩

/-- A receipt changes nothing, or it replaces the entry of the Delta for which it is admitted. -/
theorem snd_receiveReceipt_cases (d : DurabilitySubsystem) (receipt : DurabilityReceipt)
    (deltaId : DeltaId) (nowSecs : ℤ) : (d.receiveReceipt lib receipt deltaId nowSecs).2 = d ∨
    ∃ state tag anchor state', Admitted lib d receipt deltaId state tag ∧
      SameAnchor d.anchor anchor ∧
      (d.receiveReceipt lib receipt deltaId nowSecs).2 =
        { d with
          states := d.states.insert deltaId state'
          anchor := anchor
          cloudQueue := d.cloudQueue.addReceiptHolder deltaId receipt.issuerDid } ∧
      state'.stateHash = state.stateHash ∧
      state'.quorum = (state.quorum.addReceiptWithTag receipt tag).2 ∧
      (state'.tier = state.tier ∧
          ¬((state.quorum.addReceiptWithTag receipt tag).1 = true ∧ state.tier = .uncommitted) ∨
        state'.tier = .tier1 ∧ (state.quorum.addReceiptWithTag receipt tag).1 = true ∧
          state.tier = .uncommitted) := by
  rcases receiveReceipt_cases lib d receipt deltaId nowSecs with
    ⟨hsame, -⟩ | ⟨state, tag, anchor, hadmitted, hanchor, hcounted⟩
  · exact .inl hsame
  · obtain ⟨state', hstate', hhash, -, hquorum, htier⟩ :=
      countReceipt_cases { d with anchor := anchor } deltaId state receipt tag
    refine .inr ⟨state, tag, anchor, state', hadmitted, hanchor, ?_, hhash, hquorum, ?_⟩
    · rw [hcounted, hstate']
    · exact htier.imp (fun hkept => ⟨hkept.2.1, hkept.2.2⟩) And.right

theorem advances_receiveReceipt (d : DurabilitySubsystem) (receipt : DurabilityReceipt)
    (deltaId : DeltaId) (nowSecs : ℤ) :
    d.Advances (d.receiveReceipt lib receipt deltaId nowSecs).2 := by
  rcases snd_receiveReceipt_cases lib d receipt deltaId nowSecs with
    hsame | ⟨state, tag, anchor, state', hadmitted, -, hcounted, -, -, htier⟩
  · rw [hsame]
    exact ⟨fun id => le_rfl, id⟩
  · rw [hcounted]
    have hlookup := hadmitted.registered
    constructor
    · intro id
      refine rank_le_insert (d := { d with anchor := anchor }) _ ?_ id
      rw [durabilityTier_of_lookup (d := { d with anchor := anchor }) hlookup]
      rcases htier with ⟨htier, -⟩ | ⟨htier, -, hbefore⟩
      · rw [htier]
      · rw [htier, hbefore]
        exact Nat.zero_le _
    · intro h
      refine ⟨fun id state'' hstate'' htier'' => ?_,
        unmarked_updateFirst (fun e => by rfl) h.unmarked⟩
      rw [ids_addReceiptHolder]
      by_cases hid : id = deltaId
      · subst hid
        rw [AList.lookup_insert] at hstate''
        cases hstate''
        refine h.queued id state hlookup fun hdurable => ?_
        rcases htier with ⟨htier, -⟩ | ⟨-, -, hbefore⟩
        · exact htier'' (htier.trans hdurable)
        · rw [hdurable] at hbefore
          cases hbefore
      · rw [AList.lookup_insert_ne hid] at hstate''
        exact h.queued id state'' hstate'' htier''

theorem mem_ids_acknowledge {q : CloudOutboundQueue} {id : DeltaId} :
    id ∈ (q.acknowledge deltaId).ids ↔ id ∈ q.ids ∧ id ≠ deltaId := by
  simp only [CloudOutboundQueue.mem_ids, CloudOutboundQueue.acknowledge, List.mem_filter,
    decide_eq_true_eq]
  constructor
  · rintro ⟨e, ⟨he, hne⟩, rfl⟩
    exact ⟨⟨e, he, rfl⟩, hne⟩
  · rintro ⟨⟨e, he, rfl⟩, hne⟩
    exact ⟨e, ⟨he, hne⟩, rfl⟩

theorem rank_le_onCloudAck (d : DurabilitySubsystem) (deltaId id : DeltaId) :
    (d.durabilityTier id).rank ≤ ((d.onCloudAck deltaId).durabilityTier id).rank := by
  unfold onCloudAck
  cases hlookup : d.states.lookup deltaId with
  | none => exact le_rfl
  | some state =>
    exact rank_le_insert _ (d.durabilityTier deltaId).rank_le_tier2 id

/-- The acknowledged Delta leaves the queue and is below Tier-2 no more. -/
theorem Waiting.onCloudAck (h : d.Waiting (deltaId :: acknowledged)) :
    (d.onCloudAck deltaId).Waiting acknowledged := by
  refine ⟨fun id state' hstate' htier => ?_, fun e he => ?_⟩
  · unfold DurabilitySubsystem.onCloudAck at hstate' ⊢
    by_cases hid : id = deltaId
    · subst hid
      cases hlookup : d.states.lookup id with
      | none => simp [hlookup] at hstate'
      | some state =>
        simp only [hlookup, AList.lookup_insert, Option.some.injEq] at hstate'
        subst hstate'
        exact absurd rfl htier
    · have hbefore : d.states.lookup id = some state' := by
        cases hlookup : d.states.lookup deltaId with
        | none => simpa [hlookup] using hstate'
        | some state => simpa [hlookup, AList.lookup_insert_ne hid] using hstate'
      rcases h.queued id state' hbefore htier with hqueued | hmem
      · exact .inl (mem_ids_acknowledge.mpr ⟨hqueued, hid⟩)
      · exact .inr ((List.mem_cons.mp hmem).resolve_left hid)
  · exact h.unmarked e (List.mem_of_mem_filter he)

theorem Waiting.acknowledgeAll (h : d.Waiting acknowledged) :
    (acknowledged.foldl DurabilitySubsystem.onCloudAck d).Waiting [] := by
  induction acknowledged generalizing d with
  | nil => exact h
  | cons id acknowledged ih => exact ih h.onCloudAck

theorem rank_le_acknowledgeAll (d : DurabilitySubsystem) (ids : List DeltaId) (id : DeltaId) :
    (d.durabilityTier id).rank ≤ ((ids.foldl onCloudAck d).durabilityTier id).rank := by
  induction ids generalizing d with
  | nil => exact le_rfl
  | cons first ids ih => exact (rank_le_onCloudAck d first id).trans (ih _)

theorem fields_acknowledgeAll (d : DurabilitySubsystem) (ids : List DeltaId) :
    (ids.foldl onCloudAck d).quorumConfig = d.quorumConfig ∧
      (ids.foldl onCloudAck d).anchor = d.anchor := by
  induction ids generalizing d with
  | nil => exact ⟨rfl, rfl⟩
  | cons first ids ih => exact ih (d.onCloudAck first)

section Cycle
variable (sendDelta : Γ → DeltaId → Bytes → Except String Unit × Γ)
  (refetch : DeltaId → List Did → Option Bytes)

/-- What a turn takes from the queue, the ledger has acknowledged. -/
theorem waiting_syncEntry {s : SyncProgress Γ} (deltaId : DeltaId)
    (h : Waiting { d with cloudQueue := s.queue } s.result.acknowledgedIds) :
    Waiting { d with cloudQueue := (syncEntry sendDelta refetch s deltaId).queue }
      (syncEntry sendDelta refetch s deltaId).result.acknowledgedIds := by
  rcases syncEntry_cases sendDelta refetch s deltaId with
    ⟨hqueue, hids⟩ | ⟨e, hfind, hqueue, hmarked | hids⟩
  · rw [hqueue, hids]
    exact h
  · have hunmarked := h.unmarked e (CloudOutboundQueue.find_eq_some hfind).1
    rw [hmarked.1] at hunmarked
    cases hunmarked
  · rw [hqueue, hids]
    refine ⟨fun id state hstate htier => ?_, fun e he => h.unmarked e (List.mem_of_mem_filter he)⟩
    rw [List.mem_append, List.mem_singleton]
    rcases h.queued id state hstate htier with hqueued | hmem
    · by_cases hid : id = deltaId
      · exact .inr (.inr hid)
      · exact .inl (mem_ids_acknowledge.mpr ⟨hqueued, hid⟩)
    · exact .inr (.inl hmem)

theorem waiting_cloudSyncLoop (conn : Γ) (h : d.Waiting []) :
    let out := cloudSyncLoop sendDelta refetch d.cloudQueue conn
    Waiting { d with cloudQueue := out.queue } out.result.acknowledgedIds := by
  intro out
  have hstep : ∀ (s : SyncProgress Γ) (id : DeltaId),
      Waiting { d with cloudQueue := s.queue } s.result.acknowledgedIds →
        Waiting { d with cloudQueue := (syncEntry sendDelta refetch s id).queue }
          (syncEntry sendDelta refetch s id).result.acknowledgedIds :=
    fun s id hs => waiting_syncEntry sendDelta refetch id hs
  exact invariant_run hstep d.cloudQueue.topologicalSortQueue h

theorem advances_runCloudSyncCycle (d : DurabilitySubsystem) (conn : Γ) :
    d.Advances (d.runCloudSyncCycle sendDelta refetch conn) := by
  unfold runCloudSyncCycle
  split_ifs with hempty
  · exact ⟨fun id => le_rfl, id⟩
  · refine ⟨fun id => ?_, fun h => (waiting_cloudSyncLoop sendDelta refetch conn h).acknowledgeAll⟩
    exact rank_le_acknowledgeAll
      { d with cloudQueue := (cloudSyncLoop sendDelta refetch d.cloudQueue conn).queue } _ id

end Cycle

section Registration
variable {stateHash : BitVec 256} {bytes : Bytes} {parents : List DeltaId}
  {keys : AList fun _ : Did => KeyBytes}

theorem registerDelta_of_lt (h : d.cloudQueue.queue.length < maxQueueDepth) :
    d.registerDelta deltaId stateHash bytes parents keys = (.ok (), { d with
      states := d.states.insert deltaId (d.freshState stateHash keys)
      cloudQueue := ⟨d.cloudQueue.queue ++ [.new deltaId bytes parents]⟩ }) := by
  simp only [registerDelta, CloudOutboundQueue.enqueue_of_lt h]

theorem registerDelta_of_le (h : maxQueueDepth ≤ d.cloudQueue.queue.length) :
    d.registerDelta deltaId stateHash bytes parents keys =
      (.error (.cloudQueueFull d.cloudQueue.queue.length),
        { d with states := d.states.insert deltaId (d.freshState stateHash keys) }) := by
  simp only [registerDelta, CloudOutboundQueue.enqueue_of_le h]

/-- The entry of the Delta is replaced whether or not there is room in the queue. -/
theorem exists_registerDelta (d : DurabilitySubsystem) (deltaId : DeltaId)
    (stateHash : BitVec 256) (bytes : Bytes) (parents : List DeltaId)
    (keys : AList fun _ : Did => KeyBytes) :
    ∃ queue, (d.registerDelta deltaId stateHash bytes parents keys).2 =
      { d with
        states := d.states.insert deltaId (d.freshState stateHash keys)
        cloudQueue := queue } := by
  by_cases hroom : d.cloudQueue.queue.length < maxQueueDepth
  · exact ⟨_, congrArg Prod.snd (registerDelta_of_lt hroom)⟩
  · exact ⟨d.cloudQueue, congrArg Prod.snd (registerDelta_of_le (Nat.le_of_not_lt hroom))⟩

/-- With room in the queue, the Delta waits; its tier starts again. -/
theorem Waiting.registerDelta (h : d.Waiting [])
    (hroom : d.cloudQueue.queue.length < maxQueueDepth) :
    (d.registerDelta deltaId stateHash bytes parents keys).2.Waiting [] := by
  rw [registerDelta_of_lt hroom]
  refine ⟨fun id state hstate htier => .inl ?_, fun e he => ?_⟩
  · rw [CloudOutboundQueue.ids, List.map_append, List.mem_append]
    by_cases hid : id = deltaId
    · exact .inr (by simp [QueueEntry.new, hid])
    · rw [AList.lookup_insert_ne hid] at hstate
      exact .inl ((h.queued id state hstate htier).resolve_right List.not_mem_nil)
  · rcases List.mem_append.mp he with he | he
    · exact h.unmarked e he
    · rw [List.mem_singleton.mp he]
      rfl

theorem unchanged_registerDelta_iff (hfull : maxQueueDepth ≤ d.cloudQueue.queue.length) :
    Unchanged d (d.registerDelta deltaId stateHash bytes parents keys).2 ↔
      d.states.lookup deltaId = some (d.freshState stateHash keys) := by
  rw [registerDelta_of_le hfull]
  constructor
  · intro h
    exact (h.states deltaId).symm.trans (AList.lookup_insert d.states)
  · intro h
    refine ⟨rfl, fun id => ?_, rfl, rfl⟩
    by_cases hid : id = deltaId
    · subst hid
      exact (AList.lookup_insert d.states).trans h.symm
    · exact AList.lookup_insert_ne hid

end Registration

theorem Unchanged.waiting {d' : DurabilitySubsystem} (h : Unchanged d d') (hd : d.Waiting []) :
    d'.Waiting [] := by
  refine ⟨fun id state hstate htier => ?_, ?_⟩
  · rw [h.cloudQueue]
    exact hd.queued id state ((h.states id).symm.trans hstate) htier
  · rw [h.cloudQueue]
    exact hd.unmarked

theorem Unchanged.durabilityTier {d' : DurabilitySubsystem} (h : Unchanged d d') (id : DeltaId) :
    d'.durabilityTier id = d.durabilityTier id := by
  unfold DurabilitySubsystem.durabilityTier
  rw [h.states]

theorem advances_step (d : DurabilitySubsystem) {op : DurabilityOp Γ}
    (h : ∀ deltaId stateHash bytes parents keys,
      op ≠ .registerDelta deltaId stateHash bytes parents keys) : d.Advances (d.step lib op) := by
  cases op with
  | registerDelta deltaId stateHash bytes parents keys =>
    exact absurd rfl (h deltaId stateHash bytes parents keys)
  | registerPeerKey deltaId peerDid publicKey => exact advances_registerPeerKey d _ _ _
  | receiveReceipt receipt deltaId nowSecs => exact advances_receiveReceipt lib d _ _ _
  | onCloudAck deltaId =>
    refine ⟨rank_le_onCloudAck d deltaId, fun h => Waiting.onCloudAck ⟨?_, h.unmarked⟩⟩
    intro id state hstate htier
    exact (h.queued id state hstate htier).imp_right fun hmem => absurd hmem List.not_mem_nil
  | runCloudSyncCycle sendDelta refetch conn => exact advances_runCloudSyncCycle _ _ d conn
  | markCompacted deltaId =>
    refine ⟨fun id => le_rfl, fun h => ⟨fun id state hstate htier => ?_, ?_⟩⟩
    · dsimp only [step]
      rw [CloudOutboundQueue.ids_markCompacted]
      exact h.queued id state hstate htier
    · exact unmarked_updateFirst (fun e => by rfl) h.unmarked
  | advanceEpoch newEpoch => exact ⟨fun id => le_rfl, fun h => ⟨h.queued, h.unmarked⟩⟩
  | onBeaconSignalLost timestamp peers =>
    exact ⟨fun id => le_rfl, fun h => ⟨h.queued, h.unmarked⟩⟩

theorem waiting_step (hd : d.Waiting []) {op : DurabilityOp Γ} (hop : d.RegistersAfresh op) :
    (d.step lib op).Waiting [] := by
  cases op with
  | registerDelta deltaId stateHash bytes parents keys =>
    unfold RegistersAfresh at hop
    split_ifs at hop with hroom
    · exact hd.registerDelta hroom
    · exact ((unchanged_registerDelta_iff (Nat.le_of_not_lt hroom)).mpr hop).waiting hd
  | _ => exact (advances_step lib d (by intros; rintro ⟨⟩)).waiting hd

/-- Below Tier-2 the Deltas wait after the operation, if none is among those just acknowledged. -/
theorem Waiting.queued_step {op : DurabilityOp Γ} (h : (d.step lib op).Waiting []) (id : DeltaId)
    (state : DeltaDurabilityState) (hstate : (d.step lib op).states.lookup id = some state)
    (htier : state.tier ≠ .tier2) : id ∈ (d.step lib op).cloudQueue.ids :=
  (h.queued id state hstate htier).resolve_right List.not_mem_nil

theorem keepsPromises_of_not_register (hd : d.Waiting []) {op : DurabilityOp Γ}
    (h : ∀ deltaId stateHash bytes parents keys,
      op ≠ .registerDelta deltaId stateHash bytes parents keys) : d.KeepsPromises lib op := by
  have hadvances := advances_step lib d h
  refine ⟨hadvances.tiers, (hadvances.waiting hd).queued_step lib, ?_⟩
  intro deltaId stateHash bytes parents keys depth hop
  exact absurd hop (h deltaId stateHash bytes parents keys)

section Registration
variable {stateHash : BitVec 256} {bytes : Bytes} {parents : List DeltaId}
  {keys : AList fun _ : Did => KeyBytes}

/-- With room in the queue, the tier starts again: it must not have left its start. -/
theorem keepsPromises_registerDelta_of_lt (hd : d.Waiting [])
    (hroom : d.cloudQueue.queue.length < maxQueueDepth) :
    d.KeepsPromises lib (.registerDelta deltaId stateHash bytes parents keys : DurabilityOp Γ) ↔
      d.durabilityTier deltaId = .uncommitted := by
  have hstep : d.step lib (.registerDelta deltaId stateHash bytes parents keys : DurabilityOp Γ) =
      { d with
        states := d.states.insert deltaId (d.freshState stateHash keys)
        cloudQueue := ⟨d.cloudQueue.queue ++ [.new deltaId bytes parents]⟩ } :=
    congrArg Prod.snd (registerDelta_of_lt hroom)
  constructor
  · intro h
    have htier := h.tiers deltaId
    rw [hstep, durabilityTier_insert] at htier
    cases hbefore : d.durabilityTier deltaId with
    | uncommitted => rfl
    | tier1 | tier2 =>
      rw [hbefore] at htier
      exact absurd htier (Nat.not_succ_le_zero _)
  · intro h
    have hwaiting : (d.step lib (.registerDelta deltaId stateHash bytes parents keys :
        DurabilityOp Γ)).Waiting [] := hd.registerDelta hroom
    refine ⟨fun id => ?_, hwaiting.queued_step lib, ?_⟩
    · rw [hstep]
      exact rank_le_insert _ (by rw [h]; exact Nat.zero_le _) id
    · intro id hash bytes' parents' keys' depth hop herror
      rw [registerDelta_of_lt hroom] at herror
      cases herror

/-- Without room only a Delta that is registered just so is left as it was. -/
theorem keepsPromises_registerDelta_of_le (hd : d.Waiting [])
    (hfull : maxQueueDepth ≤ d.cloudQueue.queue.length) :
    d.KeepsPromises lib (.registerDelta deltaId stateHash bytes parents keys : DurabilityOp Γ) ↔
      d.states.lookup deltaId = some (d.freshState stateHash keys) := by
  have hiff : Unchanged d (d.registerDelta deltaId stateHash bytes parents keys).2 ↔ _ :=
    unchanged_registerDelta_iff hfull
  rw [← hiff]
  constructor
  · intro h
    refine h.refused _ _ _ _ _ d.cloudQueue.queue.length rfl ?_
    rw [registerDelta_of_le hfull]
  · intro h
    have hwaiting : (d.step lib (.registerDelta deltaId stateHash bytes parents keys :
        DurabilityOp Γ)).Waiting [] := h.waiting hd
    refine ⟨fun id => ?_, hwaiting.queued_step lib, ?_⟩
    · dsimp only [step]
      rw [h.durabilityTier]
    · intro id hash bytes' parents' keys' depth hop _
      cases hop
      exact h

end Registration

/-- One operation keeps the promises exactly when it registers afresh. -/
theorem keepsPromises_iff (hd : d.Waiting []) (op : DurabilityOp Γ) :
    d.KeepsPromises lib op ↔ d.RegistersAfresh op := by
  cases op with
  | registerDelta deltaId stateHash bytes parents keys =>
    unfold RegistersAfresh
    dsimp only
    split_ifs with hroom
    · exact keepsPromises_registerDelta_of_lt lib hd hroom
    · exact keepsPromises_registerDelta_of_le lib hd (Nat.le_of_not_lt hroom)
  | _ => exact iff_of_true (keepsPromises_of_not_register lib hd (by intros; rintro ⟨⟩)) trivial

theorem waiting_withAnchor (quorumConfig : QuorumConfig)
    (anchor : Option AnchorAttestedLocation) : (withAnchor quorumConfig anchor).Waiting [] := by
  refine ⟨fun id state hstate => ?_, fun e he => absurd he List.not_mem_nil⟩
  simp [withAnchor] at hstate

/-- All operations of a run keep the promises exactly when each registers afresh. -/
theorem promises_kept_iff (quorumConfig : QuorumConfig) (anchor : Option AnchorAttestedLocation)
    (ops : List (DurabilityOp Γ)) :
    Guarded (step lib) (KeepsPromises lib) (withAnchor quorumConfig anchor) ops ↔
      Guarded (step lib) RegistersAfresh (withAnchor quorumConfig anchor) ops := by
  have hstart := waiting_withAnchor quorumConfig anchor
  constructor
  · intro h
    exact guarded_of_invariant (fun d op hop hd => (keepsPromises_iff lib hd op).mp hop)
      (fun d op hop hd => waiting_step lib hd ((keepsPromises_iff lib hd op).mp hop)) h hstart
  · intro h
    exact guarded_of_invariant (fun d op hop hd => (keepsPromises_iff lib hd op).mpr hop)
      (fun d op hop hd => waiting_step lib hd hop) h hstart

/-- A Delta that the ledger has acknowledged is uncommitted again when it is registered again. -/
theorem tier2_registered_again : ¬∀ ops : List (DurabilityOp Unit),
    Guarded (step (CrdtEngine.sampleLibraries []).toIdentityLibraries)
      (KeepsPromises (CrdtEngine.sampleLibraries []).toIdentityLibraries)
      (withAnchor ⟨3, 5, 2, 3 / 5⟩ none) ops := by
  intro hall
  have hkept := hall [.registerDelta 7 7 [1] [] ∅, .onCloudAck 7, .registerDelta 7 7 [1] [] ∅]
  exact absurd (hkept.2.2.1.tiers 7) (by decide +kernel)

end DurabilitySubsystem
end Quorum

namespace DurabilitySubsystem

/-- `run_cloud_sync_cycle` on the table of the device. -/
def runCloudSyncCycle {Γ : Type*} (sendDelta : Γ → DeltaId → Bytes → Except String Unit × Γ)
    (refetch : DeltaId → List Did → Option Bytes) (d : DurabilitySubsystem) (conn : Γ) :
    DurabilitySubsystem :=
  if d.cloudQueue.depth = 0 then d
  else
    let out := cloudSyncLoop sendDelta refetch d.cloudQueue conn
    out.result.acknowledgedIds.foldl onCloudAck { d with cloudQueue := out.queue }

/-- The table of the device, with what the trackers and the anchor beside it say of a receipt. -/
def stepBeside {Γ : Type*} (lib : IdentityLibraries) (trackers : Quorum.DurabilitySubsystem)
    (d : DurabilitySubsystem) : Quorum.DurabilityOp Γ → DurabilitySubsystem
  | .registerDelta deltaId stateHash serialisedBytes causalParents peerPublicKeys =>
    (d.registerDelta deltaId stateHash serialisedBytes causalParents peerPublicKeys).2
  | .registerPeerKey deltaId peerDid publicKey => d.registerPeerKey deltaId peerDid publicKey
  | .receiveReceipt receipt deltaId nowSecs =>
    (d.receiveReceipt lib receipt deltaId (trackers.verdict lib receipt deltaId nowSecs)).2
  | .onCloudAck deltaId => d.onCloudAck deltaId
  | .runCloudSyncCycle sendDelta refetch conn => d.runCloudSyncCycle sendDelta refetch conn
  | .markCompacted deltaId => { d with cloudQueue := d.cloudQueue.markCompacted deltaId }
  | .advanceEpoch _ => d
  | .onBeaconSignalLost _ _ => d

end DurabilitySubsystem

namespace Quorum.DurabilitySubsystem
variable {Γ : Type*} {lib : IdentityLibraries} {d : DurabilitySubsystem}
  {base : TirBase.DurabilitySubsystem}

def stepBoth (lib : IdentityLibraries) (s : DurabilitySubsystem × TirBase.DurabilitySubsystem)
    (op : DurabilityOp Γ) : DurabilitySubsystem × TirBase.DurabilitySubsystem :=
  (s.1.step lib op, s.2.stepBeside lib s.1 op)

theorem Refines.of_queue (h : Refines d base) (queue : CloudOutboundQueue) :
    Refines { d with cloudQueue := queue } { base with cloudQueue := queue } := ⟨h.states, rfl⟩

theorem Refines.acknowledgeAll (h : Refines d base) (ids : List DeltaId) :
    Refines (ids.foldl DurabilitySubsystem.onCloudAck d)
      (ids.foldl TirBase.DurabilitySubsystem.onCloudAck base) := by
  induction ids generalizing d base with
  | nil => exact h
  | cons id ids ih => exact ih (h.onCloudAck id)

theorem Refines.step (h : Refines d base) (op : DurabilityOp Γ) :
    Refines (d.step lib op) (base.stepBeside lib d op) := by
  cases op with
  | registerDelta deltaId stateHash bytes parents keys =>
    exact (h.registerDelta deltaId stateHash bytes parents keys).2
  | registerPeerKey deltaId peerDid publicKey => exact h.registerPeerKey deltaId peerDid publicKey
  | receiveReceipt receipt deltaId nowSecs => exact (h.receiveReceipt lib receipt deltaId nowSecs).2
  | onCloudAck deltaId => exact h.onCloudAck deltaId
  | runCloudSyncCycle sendDelta refetch conn =>
    simp only [DurabilitySubsystem.step, TirBase.DurabilitySubsystem.stepBeside,
      DurabilitySubsystem.runCloudSyncCycle, TirBase.DurabilitySubsystem.runCloudSyncCycle,
      h.cloudQueue]
    split_ifs
    · exact h
    · exact (h.of_queue _).acknowledgeAll _
  | markCompacted deltaId =>
    simp only [DurabilitySubsystem.step, TirBase.DurabilitySubsystem.stepBeside, h.cloudQueue]
    exact h.of_queue _
  | advanceEpoch newEpoch => exact ⟨h.states, h.cloudQueue⟩
  | onBeaconSignalLost timestamp affectedPeerDids => exact ⟨h.states, h.cloudQueue⟩

theorem Refines.run (h : Refines d base) (ops : List (DurabilityOp Γ)) :
    (run (stepBoth lib) (d, base) ops).1 = TransitionRuns.run (DurabilitySubsystem.step lib) d ops ∧
      Refines (TransitionRuns.run (DurabilitySubsystem.step lib) d ops)
        (TransitionRuns.run (stepBoth lib) (d, base) ops).2 := by
  induction ops generalizing d base with
  | nil => exact ⟨rfl, h⟩
  | cons op ops ih => exact ih (h.step op)

/-- In every run from a start the table of the device shows the tiers and the queue of the subsystem
that counts receipts. -/
theorem tiers_of_both (quorumConfig : QuorumConfig) (anchor : Option AnchorAttestedLocation)
    (ops : List (DurabilityOp Γ)) :
    let counted := TransitionRuns.run (DurabilitySubsystem.step lib)
      (withAnchor quorumConfig anchor) ops
    let kept := (TransitionRuns.run (stepBoth lib) (withAnchor quorumConfig anchor, .new) ops).2
    kept.cloudQueue = counted.cloudQueue ∧ ∀ id, kept.durabilityTier id = counted.durabilityTier id := by
  intro counted kept
  have hrefines : Refines counted kept := ((refines_new quorumConfig anchor).run ops).2
  refine ⟨hrefines.cloudQueue, fun id => ?_⟩
  rw [TirBase.DurabilitySubsystem.durabilityTier, durabilityTier, hrefines.states id]
  cases counted.states.lookup id with
  | none => rfl
  | some state => rfl

end Quorum.DurabilitySubsystem

end TirBase
