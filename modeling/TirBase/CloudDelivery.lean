import TirBase.CompactionScope
import TirBase.DurabilityRuns
import TirBase.LedgerAcks

/-! # Delivery to the Cloud Ledger

A device registers its Deltas and offers them to the ledger in sync cycles, and other parties submit to
the ledger as well. The bytes that are offered name the Delta of their queue entry, so what leaves the
queue is committed. -/
namespace TirBase.CloudDelivery
open CompactionScope Quorum TransitionRuns

structure Delivery where
  engine : CrdtEngine
  durability : Quorum.DurabilitySubsystem
  ledger : CloudLedger

/-- The ledger behind a connection, with the number of submissions so far. -/
structure Connection where
  ledger : CloudLedger
  submissions : ℕ

abbrev SubmissionEnvironment := ℕ → ℤ × DagFault

section Cycle
variable (lib : CoreLibraries) (env : SubmissionEnvironment)

/-- `CloudLedgerConnection::send_delta`. -/
def sendDelta (conn : Connection) (deltaId : DeltaId) (bytes : Bytes) :
    Except String Unit × Connection :=
  match lib.parseDelta bytes with
  | .error e =>
    let hex := deltaId.toHex
    (.error s!"failed to deserialise Delta {hex}: {e}", conn)
  | .ok δ =>
    let (now, fault) := env conn.submissions
    let out := conn.ledger.receiveDelta lib.toEngineLibraries δ now fault
    let conn : Connection := ⟨out.2, conn.submissions + 1⟩
    match out.1 with
    | .ok .committed => (.ok (), conn)
    | .ok .alreadyCommitted => (.ok (), conn)
    | .ok (.rejected reason) => (.error reason, conn)
    | .error e => (.error e.message, conn)

def refetch (e : CrdtEngine) : DeltaId → List Did → Option Bytes := fun deltaId _ =>
  refetchDeltaBytes e deltaId

/-- `run_cloud_sync_cycle`, with the ledger that it leaves. -/
def runCloudSyncCycle (s : Delivery) : Delivery :=
  if s.durability.cloudQueue.depth = 0 then s
  else { s with
    durability :=
      s.durability.runCloudSyncCycle (sendDelta lib env) (refetch s.engine) ⟨s.ledger, 0⟩
    ledger := (cloudSyncLoop (sendDelta lib env) (refetch s.engine) s.durability.cloudQueue
      ⟨s.ledger, 0⟩).conn.ledger }

end Cycle

inductive Operation
  | engine (op : EngineRuns.EngineOperation)
  | registerDelta (δ : Delta) (peerPublicKeys : AList fun _ : Did => KeyBytes)
  | registerPeerKey (deltaId : DeltaId) (peerDid : Did) (publicKey : KeyBytes)
  | receiveReceipt (receipt : DurabilityReceipt) (deltaId : DeltaId) (nowSecs : ℤ)
  | markCompacted (deltaId : DeltaId)
  | advanceEpoch (newEpoch : UInt64)
  | onBeaconSignalLost (timestamp : ℤ) (affectedPeerDids : List Did)
  | submit (op : LedgerAcks.LedgerOp)
  | runCloudSyncCycle (env : SubmissionEnvironment)

variable (lib : CoreLibraries)

def step (s : Delivery) : Operation → Delivery
  | .engine op => { s with engine := EngineRuns.step lib.toEngineLibraries .native s.engine op }
  | .registerDelta δ keys => { s with durability :=
      (s.durability.registerDelta δ.id δ.id (lib.serialiseDelta δ) δ.causalParents keys).2 }
  | .registerPeerKey deltaId peerDid publicKey =>
    { s with durability := s.durability.registerPeerKey deltaId peerDid publicKey }
  | .receiveReceipt receipt deltaId nowSecs => { s with durability :=
      (s.durability.receiveReceipt lib.toIdentityLibraries receipt deltaId nowSecs).2 }
  | .markCompacted deltaId => { s with durability :=
      { s.durability with cloudQueue := s.durability.cloudQueue.markCompacted deltaId } }
  | .advanceEpoch newEpoch => { s with durability :=
      { s.durability with anchor := s.durability.anchor.map (·.advanceEpoch newEpoch) } }
  | .onBeaconSignalLost timestamp peers => { s with durability :=
      { s.durability with anchor := s.durability.anchor.map (·.onBeaconSignalLost timestamp peers) } }
  | .submit op => { s with ledger := LedgerAcks.step lib s.ledger op }
  | .runCloudSyncCycle env => runCloudSyncCycle lib env s

def registered (s : Delivery) : Operation → Option DeltaId
  | .registerDelta δ keys =>
    match (s.durability.registerDelta δ.id δ.id (lib.serialiseDelta δ) δ.causalParents keys).1 with
    | .ok () => some δ.id
    | .error _ => none
  | _ => none

def registrations (s : Delivery) (ops : List Operation) : List DeltaId :=
  emitted (fun s op => (step lib s op, (registered lib s op).toList)) s ops

def ReadsBack (δ : Delta) : Prop := lib.parseDelta (lib.serialiseDelta δ) = .ok δ

/-- What enters the DAG or the queue reads back from its text. -/
def Readable (s : Delivery) : Operation → Prop
  | .engine op => ∀ δ, EngineRuns.admitted lib.toEngineLibraries .native s.engine op = some δ →
      ReadsBack lib δ
  | .registerDelta δ _ => ReadsBack lib δ
  | _ => True

def Named (bytes : Bytes) (deltaId : DeltaId) : Prop :=
  ∃ δ, lib.parseDelta bytes = .ok δ ∧ δ.id = deltaId

def RowsNamed (e : CrdtEngine) : Prop :=
  ∀ row ∈ e.dag.nodes, ∀ bytes, row.deltaBytes = some bytes → Named lib bytes row.id

/-- The entry is not marked durable, and its bytes name it. -/
structure EntryNamed (e : QueueEntry) : Prop where
  unmarked : e.tier2Durable = false
  bytes : ∀ bytes, e.deltaBytes = some bytes → Named lib bytes e.deltaId

variable {lib} {s : Delivery} {env : SubmissionEnvironment}

theorem named_of_readsBack {δ : Delta} (h : ReadsBack lib δ) :
    Named lib (lib.serialiseDelta δ) δ.id := ⟨δ, h, rfl⟩

theorem rowsNamed_step {e : CrdtEngine} (h : RowsNamed lib e) (op : EngineRuns.EngineOperation)
    (hread : ∀ δ, EngineRuns.admitted lib.toEngineLibraries .native e op = some δ →
      ReadsBack lib δ) :
    RowsNamed lib (EngineRuns.step lib.toEngineLibraries .native e op) := by
  intro row hrow bytes hbytes
  cases hadmitted : EngineRuns.admitted lib.toEngineLibraries .native e op with
  | none =>
    obtain ⟨old, hold, hkept⟩ :=
      (EngineRuns.dag_step_of_not_stored (.inr hadmitted)).1.back row hrow
    rw [hkept.deltaBytes] at hbytes
    rw [hkept.id]
    exact h old hold bytes hbytes
  | some δ =>
    obtain ⟨node, hnode, hdag⟩ := EngineRuns.dag_step_of_admitted hadmitted
    rw [hdag] at hrow
    rcases ChangesetDag.mem_nodes_insert.mp hrow with hold | ⟨-, rfl⟩
    · exact h row hold bytes hbytes
    · have htext : some (lib.serialiseDelta δ) = some bytes := hnode.text.symm.trans hbytes
      rw [Option.some_inj] at htext
      rw [← htext, show node.row.id = δ.id from hnode.id]
      exact named_of_readsBack (hread δ hadmitted)

theorem named_of_refetch {e : CrdtEngine} (h : RowsNamed lib e) {deltaId : DeltaId}
    {holders : List Did} {bytes : Bytes} (hrefetch : refetch e deltaId holders = some bytes) :
    Named lib bytes deltaId := by
  obtain ⟨row, hget, hbytes⟩ := Option.bind_eq_some_iff.mp hrefetch
  have hid : row.id = deltaId := by simpa using List.find?_some hget
  rw [← hid]
  exact h row (List.mem_of_find?_eq_some hget) bytes hbytes

theorem named_of_resolveBytes {eng : CrdtEngine} (hrows : RowsNamed lib eng) {e : QueueEntry}
    (h : EntryNamed lib e) {bytes : Bytes} (hbytes : e.resolveBytes (refetch eng) = some bytes) :
    Named lib bytes e.deltaId := by
  unfold QueueEntry.resolveBytes at hbytes
  cases hheld : e.deltaBytes with
  | some held =>
    simp only [hheld, Option.some_inj] at hbytes
    rw [← hbytes]
    exact h.bytes held hheld
  | none =>
    simp only [hheld] at hbytes
    split_ifs at hbytes
    exact named_of_refetch hrows hbytes

theorem committed_sendDelta (conn : Connection) (deltaId id : DeltaId) (bytes : Bytes)
    (h : id ∈ conn.ledger.committed) :
    id ∈ (sendDelta lib env conn deltaId bytes).2.ledger.committed := by
  unfold sendDelta
  cases hparse : lib.parseDelta bytes with
  | error e => exact h
  | ok δ =>
    have hkept : id ∈ (LedgerAcks.step lib conn.ledger
        (.receiveDelta δ (env conn.submissions).1 (env conn.submissions).2)).committed :=
      LedgerAcks.mem_committed_step _ (.inl h)
    dsimp only
    split <;> exact hkept

theorem committed_of_sent {conn : Connection} {deltaId : DeltaId} {bytes : Bytes}
    (hnamed : Named lib bytes deltaId) (h : (sendDelta lib env conn deltaId bytes).1 = .ok ()) :
    deltaId ∈ (sendDelta lib env conn deltaId bytes).2.ledger.committed := by
  obtain ⟨δ, hparse, rfl⟩ := hnamed
  let op : LedgerAcks.LedgerOp :=
    .receiveDelta δ (env conn.submissions).1 (env conn.submissions).2
  have hafter : (sendDelta lib env conn δ.id bytes).2.ledger = LedgerAcks.step lib conn.ledger op := by
    simp only [sendDelta, hparse]
    split <;> rfl
  have hack : LedgerAcks.acknowledged lib conn.ledger op = some δ.id := by
    simp only [sendDelta, hparse] at h
    simp only [LedgerAcks.acknowledged, op]
    split at h
    · rename_i hout
      rw [hout]
    · rename_i hout
      rw [hout]
    · cases h
    · cases h
  rw [hafter]
  exact LedgerAcks.mem_committed_step op (.inr hack)

/-- A cycle under way: the ledger keeps what it had, the entries are those of the queue at the start, and
what has left the queue or was acknowledged is committed. -/
structure Underway (lib : CoreLibraries) (queue : CloudOutboundQueue) (ledger : CloudLedger)
    (p : SyncProgress Connection) : Prop where
  entries : ∀ e ∈ p.queue.queue, EntryNamed lib e
  kept : ∀ id ∈ ledger.committed, id ∈ p.conn.ledger.committed
  waiting : ∀ id ∈ queue.ids, id ∈ p.queue.ids ∨ id ∈ p.conn.ledger.committed
  acknowledged : ∀ id ∈ p.result.acknowledgedIds, id ∈ p.conn.ledger.committed

theorem Underway.syncEntry {queue : CloudOutboundQueue} {ledger : CloudLedger}
    {p : SyncProgress Connection} {eng : CrdtEngine} (hrows : RowsNamed lib eng)
    (h : Underway lib queue ledger p) (deltaId : DeltaId) :
    Underway lib queue ledger (syncEntry (sendDelta lib env) (refetch eng) p deltaId) := by
  cases hfind : p.queue.find deltaId with
  | none =>
    have hsame : TirBase.syncEntry (sendDelta lib env) (refetch eng) p deltaId = p := by
      simp only [TirBase.syncEntry, hfind]
    rwa [hsame]
  | some e =>
    obtain ⟨hmem, hid⟩ := CloudOutboundQueue.find_eq_some hfind
    have hentry := h.entries e hmem
    cases hbytes : e.resolveBytes (refetch eng) with
    | none =>
      rw [syncEntry_of_deferred _ _ hfind hentry.unmarked hbytes]
      exact ⟨h.entries, h.kept, h.waiting, h.acknowledged⟩
    | some bytes =>
      have hnamed : Named lib bytes deltaId := hid ▸ named_of_resolveBytes hrows hentry hbytes
      have hgrows : ∀ id ∈ p.conn.ledger.committed,
          id ∈ (sendDelta lib env p.conn deltaId bytes).2.ledger.committed :=
        fun id hid => committed_sendDelta p.conn deltaId id bytes hid
      have hsent : (sendDelta lib env p.conn deltaId bytes).1 = .ok () →
          deltaId ∈ (sendDelta lib env p.conn deltaId bytes).2.ledger.committed :=
        committed_of_sent hnamed
      rw [syncEntry_of_sent _ _ hfind hentry.unmarked hbytes]
      cases hanswer : (sendDelta lib env p.conn deltaId bytes).1 with
      | error reason =>
        simp only [hanswer]
        exact ⟨h.entries, fun id hid => hgrows id (h.kept id hid),
          fun id hid => (h.waiting id hid).imp_right (hgrows id),
          fun id hid => hgrows id (h.acknowledged id hid)⟩
      | ok u =>
        simp only [hanswer]
        refine ⟨fun e he => h.entries e (List.mem_of_mem_filter he),
          fun id hid => hgrows id (h.kept id hid), fun id hid => ?_, fun id hid => ?_⟩
        · by_cases hsame : id = deltaId
          · exact .inr (hsame ▸ hsent hanswer)
          · exact (h.waiting id hid).imp
              (fun hqueued => Quorum.DurabilitySubsystem.mem_ids_acknowledge.mpr ⟨hqueued, hsame⟩)
              (hgrows id)
        · rcases List.mem_append.mp hid with hbefore | hnow
          · exact hgrows id (h.acknowledged id hbefore)
          · exact List.mem_singleton.mp hnow ▸ hsent hanswer

theorem underway_cloudSyncLoop {queue : CloudOutboundQueue} {ledger : CloudLedger}
    {eng : CrdtEngine} (hrows : RowsNamed lib eng) (hentries : ∀ e ∈ queue.queue, EntryNamed lib e) :
    Underway lib queue ledger
      (cloudSyncLoop (sendDelta lib env) (refetch eng) queue ⟨ledger, 0⟩) := by
  have hstart : Underway lib queue ledger
      (⟨queue, ⟨ledger, 0⟩, ⟨0, 0, 0, []⟩⟩ : SyncProgress Connection) :=
    ⟨hentries, fun _ => id, fun _ => .inl, fun id hid => by cases hid⟩
  have hstep : ∀ (p : SyncProgress Connection) (id : DeltaId), Underway lib queue ledger p →
      Underway lib queue ledger (syncEntry (sendDelta lib env) (refetch eng) p id) :=
    fun p id hp => hp.syncEntry hrows id
  exact invariant_run hstep queue.topologicalSortQueue hstart

section Durability
open Quorum.DurabilitySubsystem
variable {d : Quorum.DurabilitySubsystem}

theorem tier2_of_insert {deltaId : DeltaId} {state : Quorum.DeltaDurabilityState}
    {queue : CloudOutboundQueue} (anchor : Option AnchorAttestedLocation)
    (hstate : state.tier = .tier2 → d.durabilityTier deltaId = .tier2) {id : DeltaId}
    (h : durabilityTier { d with
      states := d.states.insert deltaId state, anchor := anchor, cloudQueue := queue } id =
        .tier2) : d.durabilityTier id = .tier2 := by
  by_cases hid : id = deltaId
  · rw [hid] at h ⊢
    rw [durabilityTier, AList.lookup_insert] at h
    exact hstate h
  · rw [durabilityTier, AList.lookup_insert_ne hid] at h
    exact h

theorem tier2_of_onCloudAck {deltaId id : DeltaId}
    (h : (d.onCloudAck deltaId).durabilityTier id = .tier2) :
    d.durabilityTier id = .tier2 ∨ id = deltaId := by
  by_cases hid : id = deltaId
  · exact .inr hid
  · left
    unfold onCloudAck durabilityTier at h
    unfold durabilityTier
    cases hlookup : d.states.lookup deltaId with
    | none =>
      simp only [hlookup] at h
      exact h
    | some state =>
      simp only [hlookup, AList.lookup_insert_ne hid] at h
      exact h

theorem tier2_of_acknowledgeAll {ids : List DeltaId} {id : DeltaId}
    (h : (ids.foldl onCloudAck d).durabilityTier id = .tier2) :
    d.durabilityTier id = .tier2 ∨ id ∈ ids := by
  induction ids generalizing d with
  | nil => exact .inl h
  | cons first ids ih =>
    rcases ih h with hbefore | hmem
    · exact (tier2_of_onCloudAck hbefore).imp_right fun hid =>
        List.mem_cons.mpr (.inl hid)
    · exact .inr (List.mem_cons_of_mem first hmem)

theorem mem_queue_of_acknowledgeAll {ids : List DeltaId} {e : QueueEntry}
    (h : e ∈ (ids.foldl onCloudAck d).cloudQueue.queue) : e ∈ d.cloudQueue.queue := by
  induction ids generalizing d with
  | nil => exact h
  | cons first ids ih => exact List.mem_of_mem_filter (ih h)

theorem mem_ids_acknowledgeAll {ids : List DeltaId} {id : DeltaId} (h : id ∈ d.cloudQueue.ids)
    (hnot : id ∉ ids) : id ∈ (ids.foldl onCloudAck d).cloudQueue.ids := by
  induction ids generalizing d with
  | nil => exact h
  | cons first ids ih =>
    rw [List.mem_cons, not_or] at hnot
    exact ih (mem_ids_acknowledge.mpr ⟨h, hnot.1⟩) hnot.2

theorem forall_updateFirst {P : QueueEntry → Prop} {change : QueueEntry → QueueEntry}
    {deltaId : DeltaId} {es : List QueueEntry} (hchange : ∀ e, P e → P (change e))
    (h : ∀ e ∈ es, P e) : ∀ e ∈ CloudOutboundQueue.updateFirst change deltaId es, P e := by
  induction es with
  | nil => exact h
  | cons first es ih =>
    obtain ⟨hfirst, hes⟩ := List.forall_mem_cons.mp h
    rw [CloudOutboundQueue.updateFirst]
    split_ifs
    · exact List.forall_mem_cons.mpr ⟨hchange first hfirst, hes⟩
    · exact List.forall_mem_cons.mpr ⟨hfirst, ih hes⟩

theorem entryNamed_new {δ : Delta} (h : ReadsBack lib δ) (parents : List DeltaId) :
    EntryNamed lib (.new δ.id (lib.serialiseDelta δ) parents) := by
  refine ⟨rfl, fun bytes hbytes => ?_⟩
  have htext : some (lib.serialiseDelta δ) = some bytes := hbytes
  rw [Option.some_inj] at htext
  exact htext ▸ named_of_readsBack h

end Durability

/-- The ledger keeps what it had at the start, and what leaves the queue, or is Tier-2, is committed. -/
structure Tracked (lib : CoreLibraries) (start : List DeltaId) (s : Delivery) (ids : List DeltaId) :
    Prop where
  kept : ∀ id ∈ start, id ∈ s.ledger.committed
  rows : RowsNamed lib s.engine
  entries : ∀ e ∈ s.durability.cloudQueue.queue, EntryNamed lib e
  durable : ∀ id, s.durability.durabilityTier id = .tier2 → id ∈ s.ledger.committed
  delivered : ∀ id ∈ ids, id ∈ s.durability.cloudQueue.ids ∨ id ∈ s.ledger.committed

variable {start ids : List DeltaId}

/-- A change of the durability subsystem that keeps the queued identifiers, names the entries and makes
nothing Tier-2. -/
theorem Tracked.durability (h : Tracked lib start s ids) {d : Quorum.DurabilitySubsystem}
    {more : List DeltaId} (hentries : ∀ e ∈ d.cloudQueue.queue, EntryNamed lib e)
    (htier : ∀ id, d.durabilityTier id = .tier2 → s.durability.durabilityTier id = .tier2)
    (hids : ∀ id ∈ s.durability.cloudQueue.ids ++ more, id ∈ d.cloudQueue.ids) :
    Tracked lib start { s with durability := d } (ids ++ more) := by
  refine ⟨h.kept, h.rows, hentries, fun id hid => h.durable id (htier id hid), fun id hid => ?_⟩
  rcases List.mem_append.mp hid with hbefore | hnew
  · exact (h.delivered id hbefore).imp_left fun hqueued => hids id (List.mem_append_left _ hqueued)
  · exact .inl (hids id (List.mem_append_right _ hnew))

theorem Tracked.cycle (h : Tracked lib start s ids) (env : SubmissionEnvironment) :
    Tracked lib start (runCloudSyncCycle lib env s) ids := by
  unfold runCloudSyncCycle
  split_ifs with hempty
  · exact h
  · have hunderway : Underway lib s.durability.cloudQueue s.ledger (cloudSyncLoop
        (sendDelta lib env) (refetch s.engine) s.durability.cloudQueue ⟨s.ledger, 0⟩) :=
      underway_cloudSyncLoop h.rows h.entries
    have hdurability : s.durability.runCloudSyncCycle (sendDelta lib env) (refetch s.engine)
        ⟨s.ledger, 0⟩ = _ := if_neg hempty
    constructor
    · exact fun id hid => hunderway.kept id (h.kept id hid)
    · exact h.rows
    · intro e he
      rw [hdurability] at he
      exact hunderway.entries e (mem_queue_of_acknowledgeAll he)
    · intro id hid
      rw [hdurability] at hid
      rcases tier2_of_acknowledgeAll hid with hbefore | hnow
      · exact hunderway.kept id (h.durable id hbefore)
      · exact hunderway.acknowledged id hnow
    · intro id hid
      rcases h.delivered id hid with hqueued | hcommitted
      · rcases hunderway.waiting id hqueued with hwaits | hcommitted
        · by_cases hnow : id ∈ (cloudSyncLoop (sendDelta lib env) (refetch s.engine)
              s.durability.cloudQueue ⟨s.ledger, 0⟩).result.acknowledgedIds
          · exact .inr (hunderway.acknowledged id hnow)
          · rw [hdurability]
            exact .inl (mem_ids_acknowledgeAll hwaits hnow)
        · exact .inr hcommitted
      · exact .inr (hunderway.kept id hcommitted)

theorem Tracked.register (h : Tracked lib start s ids) {δ : Delta} (hread : ReadsBack lib δ)
    (keys : AList fun _ : Did => KeyBytes) :
    Tracked lib start (step lib s (.registerDelta δ keys))
      (ids ++ (registered lib s (.registerDelta δ keys)).toList) := by
  have htier : ∀ queue id, Quorum.DurabilitySubsystem.durabilityTier { s.durability with
      states := s.durability.states.insert δ.id (s.durability.freshState δ.id keys)
      cloudQueue := queue } id = .tier2 → s.durability.durabilityTier id = .tier2 := by
    intro queue id hid
    refine tier2_of_insert s.durability.anchor (fun hfresh => ?_) hid
    cases hfresh
  by_cases hroom : s.durability.cloudQueue.queue.length < maxQueueDepth
  · have hregister : s.durability.registerDelta δ.id δ.id (lib.serialiseDelta δ) δ.causalParents
        keys = _ := Quorum.DurabilitySubsystem.registerDelta_of_lt hroom
    simp only [step, registered, hregister]
    refine h.durability (fun e he => ?_) (htier _) fun id hid => ?_
    · rcases List.mem_append.mp he with hold | hnew
      · exact h.entries e hold
      · rw [List.mem_singleton.mp hnew]
        exact entryNamed_new hread _
    · rw [CloudOutboundQueue.ids, List.map_append]
      exact hid
  · have hregister : s.durability.registerDelta δ.id δ.id (lib.serialiseDelta δ) δ.causalParents
        keys = _ := Quorum.DurabilitySubsystem.registerDelta_of_le (Nat.le_of_not_lt hroom)
    simp only [step, registered, hregister]
    exact h.durability h.entries (htier _) fun id hid => by
      rwa [Option.toList_none, List.append_nil] at hid

theorem tracked_step (h : Tracked lib start s ids) {op : Operation} (hop : Readable lib s op) :
    Tracked lib start (step lib s op) (ids ++ (registered lib s op).toList) := by
  have hnone : ∀ s', Tracked lib start s' ids → Tracked lib start s' (ids ++ (none : Option DeltaId).toList) := by
    intro s' hs'
    rwa [Option.toList_none, List.append_nil]
  have hqueue : ∀ id ∈ s.durability.cloudQueue.ids ++ (none : Option DeltaId).toList,
      id ∈ s.durability.cloudQueue.ids := by
    intro id hid
    rwa [Option.toList_none, List.append_nil] at hid
  cases op with
  | engine op =>
    exact hnone _ ⟨h.kept, rowsNamed_step h.rows op hop, h.entries, h.durable, h.delivered⟩
  | registerDelta δ keys => exact h.register hop keys
  | registerPeerKey deltaId peerDid publicKey =>
    simp only [step, Quorum.DurabilitySubsystem.registerPeerKey]
    cases hlookup : s.durability.states.lookup deltaId with
    | none => exact hnone _ h
    | some state =>
      refine h.durability h.entries (fun id hid => ?_) hqueue
      refine tier2_of_insert s.durability.anchor (fun htier => ?_) hid
      rw [Quorum.DurabilitySubsystem.durabilityTier_of_lookup hlookup]
      exact htier
  | receiveReceipt receipt deltaId nowSecs =>
    rcases Quorum.DurabilitySubsystem.snd_receiveReceipt_cases lib.toIdentityLibraries s.durability
      receipt deltaId nowSecs with
      hsame | ⟨state, tag, anchor, state', hadmitted, -, hcounted, -, -, htier⟩
    · simp only [step, hsame]
      exact hnone _ h
    · simp only [step, hcounted]
      refine h.durability (forall_updateFirst ?_ h.entries) (fun id hid => ?_) fun id hid => ?_
      · exact fun e he => ⟨he.unmarked, he.bytes⟩
      · refine tier2_of_insert anchor (fun hstate => ?_) hid
        rw [Quorum.DurabilitySubsystem.durabilityTier_of_lookup hadmitted.registered]
        rcases htier with ⟨hkept, -⟩ | ⟨hone, -⟩
        · rw [← hkept, hstate]
        · rw [hone] at hstate
          cases hstate
      · rw [Quorum.DurabilitySubsystem.ids_addReceiptHolder]
        exact hqueue id hid
  | markCompacted deltaId =>
    refine h.durability (forall_updateFirst ?_ h.entries) (fun _ => id) fun id hid => ?_
    · exact fun e he => ⟨he.unmarked, fun bytes hbytes => by cases hbytes⟩
    · rw [CloudOutboundQueue.ids_markCompacted]
      exact hqueue id hid
  | advanceEpoch newEpoch => exact h.durability h.entries (fun _ => id) hqueue
  | onBeaconSignalLost timestamp peers => exact h.durability h.entries (fun _ => id) hqueue
  | submit op =>
    have hgrows : ∀ id ∈ s.ledger.committed, id ∈ (LedgerAcks.step lib s.ledger op).committed :=
      fun id hid => LedgerAcks.mem_committed_step op (.inl hid)
    exact hnone _ ⟨fun id hid => hgrows id (h.kept id hid), h.rows, h.entries,
      fun id hid => hgrows id (h.durable id hid),
      fun id hid => (h.delivered id hid).imp_right (hgrows id)⟩
  | runCloudSyncCycle env => exact hnone _ (h.cycle env)

theorem tracked_run {ops : List Operation} (h : Tracked lib start s ids)
    (hops : Guarded (step lib) (Readable lib) s ops) :
    Tracked lib start (run (step lib) s ops) (ids ++ registrations lib s ops) := by
  induction ops generalizing s ids with
  | nil =>
    rw [registrations, emitted_nil, List.append_nil]
    exact h
  | cons op ops ih =>
    have hnext := ih (tracked_step h hops.1) hops.2
    rw [List.append_assoc] at hnext
    exact hnext

structure Start (lib : CoreLibraries) (s : Delivery) : Prop where
  rows : RowsNamed lib s.engine
  durability : ∃ quorumConfig anchor, s.durability = .withAnchor quorumConfig anchor

/-- Whatever the device, the ledger and the other parties do, a Delta for whose registration there was
room waits in the queue or is committed, a Tier-2 Delta is committed, and nothing that is committed is
lost. -/
theorem registered_delivered (hstart : Start lib s) {ops : List Operation}
    (hops : Guarded (step lib) (Readable lib) s ops) :
    let after := run (step lib) s ops
    (∀ id ∈ registrations lib s ops,
      id ∈ after.durability.cloudQueue.ids ∨ id ∈ after.ledger.committed) ∧
    (∀ id, after.durability.durabilityTier id = .tier2 → id ∈ after.ledger.committed) ∧
    ∀ id ∈ s.ledger.committed, id ∈ after.ledger.committed := by
  intro after
  obtain ⟨hrows, quorumConfig, anchor, hdurability⟩ := hstart
  have htracked : Tracked lib s.ledger.committed s [] := by
    refine ⟨fun _ => id, hrows, fun e he => ?_, fun id hid => ?_, fun id hid => by cases hid⟩
    · rw [hdurability] at he
      cases he
    · rw [hdurability] at hid
      cases hid
  have hafter := tracked_run htracked hops
  rw [List.nil_append] at hafter
  exact ⟨hafter.delivered, hafter.durable, hafter.kept⟩

section Sample
open LedgerAcks ReceiptSoundness

def sampleDelivery : Delivery :=
  ⟨.new (CrdtEngine.sampleKey 1) (CrdtEngine.sampleKey 1) CrdtEngine.sampleDid₁ 0 .empty,
    .withAnchor ⟨3, 5, 2, 3 / 5⟩ none, sampleLedger⟩

def sampleOperations : List Operation :=
  [.registerDelta genuine ∅, .submit (.receiveDelta forged 0 none),
    .runCloudSyncCycle fun _ => (0, none)]

/-- The ledger knows the identifier from another party before the device offers its Delta. -/
theorem registered_delivered_sample :
    let after := run (step sampleStored) sampleDelivery sampleOperations
    (∀ id ∈ registrations sampleStored sampleDelivery sampleOperations,
      id ∈ after.durability.cloudQueue.ids ∨ id ∈ after.ledger.committed) ∧
    (∀ id, after.durability.durabilityTier id = .tier2 → id ∈ after.ledger.committed) ∧
    ∀ id ∈ sampleDelivery.ledger.committed, id ∈ after.ledger.committed :=
  registered_delivered ⟨fun row hrow => (by cases hrow), _, _, rfl⟩
    ⟨rfl, trivial, trivial, trivial⟩

end Sample

end TirBase.CloudDelivery
