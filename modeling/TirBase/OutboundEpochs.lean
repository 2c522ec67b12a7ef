import Mathlib
import TirBase.PublishedDelivery
import TirBase.SaturatingTransport
import TirBase.SchedulerRuns

/-! # One epoch of the scheduler loop

The loop takes the due retries and the batch of the epoch from their queues before it sends them. What
the outbound channel does not accept is lost, but for the Delta at which the batch stops. -/
namespace TirBase.OutboundEpochs
open MeshTransport

structure RetryEntry where
  peerDid : Did
  deltaBytes : Bytes
  nextRetryAt : ℤ
  attempts : ℕ
  deriving DecidableEq

/-- The transport with the retry queue of its peer discovery. -/
structure OutboundQueues where
  transport : SaturatingTransport
  retryQueue : List RetryEntry
  deriving DecidableEq

variable (lib : WireLibraries)

def drainDueRetries (queue : List RetryEntry) (nowUs : ℤ) : List RetryEntry × List RetryEntry :=
  (queue.filter fun entry => entry.nextRetryAt ≤ nowUs,
    queue.filter fun entry => !decide (entry.nextRetryAt ≤ nowUs))

/-- Forward the due entries; one that does not parse or is not accepted is dropped. -/
def forwardRetries (tx : Channel) : List RetryEntry → Channel
  | [] => tx
  | entry :: rest =>
    match lib.parseDelta entry.deltaBytes with
    | none => forwardRetries tx rest
    | some δ =>
      match tx.trySend (lib.toBytes (.inboundDelta δ)) with
      | .ok tx => forwardRetries tx rest
      | .error _ => forwardRetries tx rest

/-- One turn of the loop. Due retries without a channel end it before the mode is set. Peer timeouts
and key rotation, which run in the same turn, touch neither queue. -/
def epoch (s : OutboundQueues) (nowUs nowSecs : ℤ) (linkCapacityBytes : ℕ) : OutboundQueues :=
  let drained := drainDueRetries s.retryQueue nowUs
  let s := { s with retryQueue := drained.2 }
  if drained.1 = [] then
    { s with
      transport := ((s.transport.tickSaturate nowSecs).tickScheduler lib linkCapacityBytes).2 }
  else
    match s.transport.outboundTx with
    | none => s
    | some tx =>
      let t := { s.transport with outboundTx := some (forwardRetries lib tx drained.1) }
      { s with transport := ((t.tickSaturate nowSecs).tickScheduler lib linkCapacityBytes).2 }

def payloadsOf (t : MeshTransport) (q : QueuedDelta) : List Bytes :=
  (t.prepareOutbound lib q.delta).map lib.toBytes

def forwarded (t : MeshTransport) (tx : Channel) : List QueuedDelta → List QueuedDelta
  | [] => []
  | queued :: rest =>
    let out := tx.sendAll "outbound publish" (payloadsOf lib t queued)
    match out.1 with
    | .ok () => queued :: forwarded t out.2 rest
    | .error _ => []

def retried (tx : Channel) : List RetryEntry → List RetryEntry
  | [] => []
  | entry :: rest =>
    match lib.parseDelta entry.deltaBytes with
    | none => retried tx rest
    | some δ =>
      match tx.trySend (lib.toBytes (.inboundDelta δ)) with
      | .ok tx => entry :: retried tx rest
      | .error _ => retried tx rest

/-- What the scheduler selects in an epoch, once its mode is set. -/
def batchOf (s : OutboundQueues) (nowSecs : ℤ) (linkCapacityBytes : ℕ) : List QueuedDelta :=
  ((s.transport.tickSaturate nowSecs).scheduler.tick linkCapacityBytes).1

/-- What an epoch hands over to the channel as a whole. -/
def accepted (s : OutboundQueues) (nowUs nowSecs : ℤ) (linkCapacityBytes : ℕ) :
    List RetryEntry × List QueuedDelta :=
  let due := (drainDueRetries s.retryQueue nowUs).1
  match s.transport.outboundTx with
  | none => ([], [])
  | some tx => (retried lib tx due, forwarded lib s.transport.toMeshTransport
      (forwardRetries lib tx due) (batchOf s nowSecs linkCapacityBytes))

/-- The Deltas of these entries; one that does not parse holds none. -/
def deltasOf (entries : List RetryEntry) : List Delta :=
  entries.filterMap fun entry => lib.parseDelta entry.deltaBytes

def queuedDeltas (s : OutboundQueues) : List Delta :=
  s.transport.scheduler.backlog.map QueuedDelta.delta ++ deltasOf lib s.retryQueue

def acceptedDeltas (accepted : List RetryEntry × List QueuedDelta) : List Delta :=
  accepted.2.map QueuedDelta.delta ++ deltasOf lib accepted.1

/-- Every Delta that was queued is still queued or was accepted. -/
def NothingLost (s s' : OutboundQueues) (accepted : List RetryEntry × List QueuedDelta) : Prop :=
  ∀ δ ∈ queuedDeltas lib s, δ ∈ queuedDeltas lib s' ∨ δ ∈ acceptedDeltas lib accepted

def room (tx : Channel) : ℕ := if tx.closed then 0 else tx.capacity - tx.payloads.length

/-- What of a batch is behind the first Delta whose payloads do not all find room. -/
def cutOff (payloads : QueuedDelta → List Bytes) : ℕ → List QueuedDelta → List QueuedDelta
  | _, [] => []
  | space, queued :: rest =>
    if (payloads queued).length ≤ space then
      cutOff payloads (space - (payloads queued).length) rest
    else rest

/-- The Deltas that an epoch takes from the queues and has no room for: the due ones beyond the free
places, and what is cut off the batch; without a channel all of them. -/
def overflow (s : OutboundQueues) (nowUs nowSecs : ℤ) (linkCapacityBytes : ℕ) : List Delta :=
  let due := (drainDueRetries s.retryQueue nowUs).1
  let batch := batchOf s nowSecs linkCapacityBytes
  match s.transport.outboundTx with
  | none => if due = [] then batch.map QueuedDelta.delta else deltasOf lib due
  | some tx =>
    (cutOff (payloadsOf lib s.transport.toMeshTransport)
        (room tx - (deltasOf lib due).length) batch).map QueuedDelta.delta ++
      (deltasOf lib due).drop (room tx)

/-- Nothing overflows that is not queued once more besides. -/
def RoomEnough (s : OutboundQueues) (nowUs nowSecs : ℤ) (linkCapacityBytes : ℕ) : Prop :=
  ∀ δ ∈ overflow lib s nowUs nowSecs linkCapacityBytes,
    (overflow lib s nowUs nowSecs linkCapacityBytes).count δ < (queuedDeltas lib s).count δ

variable {lib}

theorem room_of_trySend {tx tx' : Channel} {payload : Bytes} (h : tx.trySend payload = .ok tx') :
    room tx = room tx' + 1 := by
  unfold Channel.trySend at h
  split_ifs at h with hclosed hfull
  cases h
  simp only [room, if_neg hclosed, List.length_append, List.length_singleton]
  omega

theorem room_of_trySend_error {tx : Channel} {payload : Bytes} {e : String}
    (h : tx.trySend payload = .error e) : room tx = 0 := by
  unfold Channel.trySend at h
  split_ifs at h with hclosed hfull
  · exact if_pos hclosed
  · rw [room, if_neg hclosed]
    omega

/-- The channel takes a message list as a whole exactly when it has room for it. -/
theorem sendAll_cases (what : String) (tx : Channel) (payloads : List Bytes) :
    ((tx.sendAll what payloads).1 = .ok () ∧
        room tx = room (tx.sendAll what payloads).2 + payloads.length) ∨
      ((∃ e, (tx.sendAll what payloads).1 = .error e) ∧ room tx < payloads.length) := by
  induction payloads generalizing tx with
  | nil => exact .inl ⟨rfl, rfl⟩
  | cons payload rest ih =>
    unfold Channel.sendAll
    cases hsend : tx.trySend payload with
    | error e =>
      refine .inr ⟨⟨_, rfl⟩, ?_⟩
      rw [room_of_trySend_error hsend]
      simp
    | ok tx' =>
      have hroom := room_of_trySend hsend
      rcases ih tx' with ⟨hok, hrest⟩ | ⟨herror, hrest⟩
      · refine .inl ⟨hok, ?_⟩
        rw [hroom, hrest, List.length_cons]
        rfl
      · refine .inr ⟨herror, ?_⟩
        rw [hroom, List.length_cons]
        omega

/-- Of the due Deltas the first are accepted, as many as there is room for. -/
theorem retried_eq_take (tx : Channel) (due : List RetryEntry) :
    deltasOf lib (retried lib tx due) = (deltasOf lib due).take (room tx) ∧
      room (forwardRetries lib tx due) = room tx - (deltasOf lib due).length := by
  induction due generalizing tx with
  | nil => simp [retried, forwardRetries, deltasOf]
  | cons entry rest ih =>
    cases hparse : lib.parseDelta entry.deltaBytes with
    | none =>
      have hnone : deltasOf lib (entry :: rest) = deltasOf lib rest :=
        List.filterMap_cons_none hparse
      simpa only [retried, forwardRetries, hparse, hnone] using ih tx
    | some δ =>
      have hsome : deltasOf lib (entry :: rest) = δ :: deltasOf lib rest :=
        List.filterMap_cons_some hparse
      cases hsend : tx.trySend (lib.toBytes (.inboundDelta δ)) with
      | error e =>
        have hroom := room_of_trySend_error hsend
        obtain ⟨hretried, hrest⟩ := ih tx
        simp only [retried, forwardRetries, hparse, hsend, hroom, List.take_zero] at hretried hrest ⊢
        exact ⟨hretried, by simpa using hrest⟩
      | ok tx' =>
        have hroom := room_of_trySend hsend
        obtain ⟨hretried, hrest⟩ := ih tx'
        have haccepted : deltasOf lib (entry :: retried lib tx' rest) =
            δ :: deltasOf lib (retried lib tx' rest) := List.filterMap_cons_some hparse
        simp only [retried, forwardRetries, hparse, hsend]
        rw [haccepted, hsome, hroom, List.take_succ_cons, hretried, hrest]
        exact ⟨rfl, by rw [List.length_cons]; omega⟩

theorem perm_backlog_enqueue (s : DrrScheduler) (q : QueuedDelta) :
    (s.enqueue q).backlog.Perm (q :: s.backlog) := by
  refine List.perm_iff_count.mpr fun w => ?_
  rw [List.count_cons]
  cases hpriority : q.delta.priority <;>
    simp only [DrrScheduler.enqueue, DrrScheduler.backlog, hpriority, List.count_append,
      List.count_singleton] <;> omega

/-- What a tick selects is what it takes from the queues. -/
theorem perm_backlog_tick (s : DrrScheduler) (linkCapacityBytes : ℕ) :
    s.backlog.Perm ((s.tick linkCapacityBytes).2.backlog ++ (s.tick linkCapacityBytes).1) := by
  have hcount : ∀ p w, (s.queueOf p).count w = ((s.served linkCapacityBytes).of p).count w +
      ((s.tick linkCapacityBytes).2.queueOf p).count w := by
    intro p w
    rw [← s.served_append_queueOf linkCapacityBytes p, List.count_append]
  have hsum : ∀ (s : DrrScheduler) w, s.backlog.count w = (s.queueOf .high).count w +
      (s.queueOf .medium).count w + (s.queueOf .low).count w := by
    intro s w
    rw [DrrScheduler.backlog, List.count_append, List.count_append]
    rfl
  have hall : ∀ w, (s.tick linkCapacityBytes).1.count w =
      ((s.served linkCapacityBytes).of .high).count w +
        ((s.served linkCapacityBytes).of .medium).count w +
          ((s.served linkCapacityBytes).of .low).count w := by
    intro w
    rw [s.tick_fst, DrrScheduler.Served.all, List.count_append, List.count_append]
    rfl
  refine List.perm_iff_count.mpr fun w => ?_
  rw [List.count_append, hsum, hsum, hall, hcount .high, hcount .medium, hcount .low]
  omega

/-- A batch is accepted, but for one Delta that is queued again and the rest, which is cut off. -/
theorem perm_forward (t : MeshTransport) (tx : Channel) (n : ℕ) (batch : List QueuedDelta) :
    (t.scheduler.backlog ++ batch).Perm ((t.forward lib tx n batch).2.scheduler.backlog ++
      (forwarded lib t tx batch ++ cutOff (payloadsOf lib t) (room tx) batch)) := by
  induction batch generalizing tx n with
  | nil => exact .refl _
  | cons queued rest ih =>
    have hforwarded : forwarded lib t tx (queued :: rest) =
        match (tx.sendAll "outbound publish" (payloadsOf lib t queued)).1 with
        | .ok () => queued :: forwarded lib t
            (tx.sendAll "outbound publish" (payloadsOf lib t queued)).2 rest
        | .error _ => [] := rfl
    have hforward : t.forward lib tx n (queued :: rest) =
        match (tx.sendAll "outbound publish" (payloadsOf lib t queued)).1 with
        | .ok () => t.forward lib (tx.sendAll "outbound publish" (payloadsOf lib t queued)).2
            (n + (payloadsOf lib t queued).length) rest
        | .error e => (.error e, { t with
            scheduler := t.scheduler.enqueue queued
            outboundTx := some (tx.sendAll "outbound publish" (payloadsOf lib t queued)).2 }) := rfl
    have hfront : (t.scheduler.backlog ++ queued :: rest).Perm
        (queued :: (t.scheduler.backlog ++ rest)) := List.perm_middle
    rcases sendAll_cases "outbound publish" tx (payloadsOf lib t queued) with
      ⟨hok, hroom⟩ | ⟨⟨e, herror⟩, hroom⟩
    · have hrest := ih (tx.sendAll "outbound publish" (payloadsOf lib t queued)).2
        (n + (payloadsOf lib t queued).length)
      simp only [hok] at hforwarded hforward
      rw [hforwarded, hforward, cutOff, if_pos (by omega), hroom, Nat.add_sub_cancel]
      exact hfront.trans ((hrest.cons queued).trans List.perm_middle.symm)
    · simp only [herror] at hforwarded hforward
      rw [hforwarded, hforward, cutOff, if_neg (by omega), List.nil_append]
      exact hfront.trans ((perm_backlog_enqueue t.scheduler queued).symm.append_right rest)

/-- The framing of a Delta depends on the mtu alone. -/
theorem forwarded_congr {t t' : MeshTransport} (hmtu : t.mtu = t'.mtu) (tx : Channel)
    (batch : List QueuedDelta) : forwarded lib t tx batch = forwarded lib t' tx batch := by
  induction batch generalizing tx with
  | nil => rfl
  | cons queued rest ih =>
    have hpayloads : payloadsOf lib t queued = payloadsOf lib t' queued := by
      simp only [payloadsOf, prepareOutbound, hmtu]
    simp only [forwarded, hpayloads, ih]

def retryPayloads (lib : WireLibraries) (entry : RetryEntry) : List Bytes :=
  ((lib.parseDelta entry.deltaBytes).map fun δ => lib.toBytes (.inboundDelta δ)).toList

theorem payloads_forwardRetries (tx : Channel) (due : List RetryEntry) :
    (forwardRetries lib tx due).payloads =
      tx.payloads ++ (retried lib tx due).flatMap (retryPayloads lib) := by
  induction due generalizing tx with
  | nil => simp [forwardRetries, retried]
  | cons entry rest ih =>
    cases hparse : lib.parseDelta entry.deltaBytes with
    | none => simpa only [forwardRetries, retried, hparse] using ih tx
    | some δ =>
      cases hsend : tx.trySend (lib.toBytes (.inboundDelta δ)) with
      | error e => simpa only [forwardRetries, retried, hparse, hsend] using ih tx
      | ok tx' =>
        simp only [forwardRetries, retried, hparse, hsend, ih, Channel.payloads_of_trySend hsend,
          List.flatMap_cons, retryPayloads, Option.map_some, Option.toList_some, List.append_assoc]

theorem exists_payloads_sendAll (what : String) (tx : Channel) (payloads : List Bytes) :
    ∃ part, part <+: payloads ∧ (tx.sendAll what payloads).2.payloads = tx.payloads ++ part := by
  induction payloads generalizing tx with
  | nil => exact ⟨[], List.prefix_refl [], by simp [Channel.sendAll]⟩
  | cons payload rest ih =>
    unfold Channel.sendAll
    cases hsend : tx.trySend payload with
    | error e => exact ⟨[], List.nil_prefix, by simp⟩
    | ok tx' =>
      obtain ⟨part, hpart, hpayloads⟩ := ih tx'
      refine ⟨payload :: part, List.cons_prefix_cons.mpr ⟨rfl, hpart⟩, ?_⟩
      simp [hpayloads, Channel.payloads_of_trySend hsend]

/-- The channel gets the payloads of the accepted Deltas, in order, and at most a part of one more. -/
theorem exists_payloads_forward (t : MeshTransport) (tx : Channel) (n : ℕ)
    (batch : List QueuedDelta) : ∃ q, ∃ part, part <+: payloadsOf lib t q ∧
      (t.forward lib tx n batch).2.outboundPayloads =
        tx.payloads ++ (forwarded lib t tx batch).flatMap (payloadsOf lib t) ++ part := by
  induction batch generalizing tx n with
  | nil =>
    refine ⟨⟨⟨0, "", [], 0, [], .low, [], [], 0, 0⟩, 0, 0⟩, [], List.nil_prefix, ?_⟩
    simp [MeshTransport.forward, forwarded, outboundPayloads]
  | cons queued rest ih =>
    simp only [MeshTransport.forward, forwarded]
    rw [show (t.prepareOutbound lib queued.delta).map lib.toBytes = payloadsOf lib t queued from rfl]
    rcases sendAll_cases "outbound publish" tx (payloadsOf lib t queued) with
      ⟨hok, -⟩ | ⟨⟨e, herror⟩, -⟩
    · obtain ⟨q, part, hpart, hrest⟩ := ih (tx.sendAll "outbound publish" (payloadsOf lib t queued)).2
        (n + (payloadsOf lib t queued).length)
      refine ⟨q, part, hpart, ?_⟩
      simp only [hok, hrest, Channel.payloads_of_sendAll hok, List.flatMap_cons, List.append_assoc]
    · obtain ⟨part, hpart, hpayloads⟩ :=
        exists_payloads_sendAll "outbound publish" tx (payloadsOf lib t queued)
      refine ⟨queued, part, hpart, ?_⟩
      simp only [herror, outboundPayloads, Option.map_some, Option.getD_some, hpayloads,
        List.flatMap_nil, List.append_nil]

theorem perm_tickScheduler {t : MeshTransport} {tx : Channel} (htx : t.outboundTx = some tx)
    (linkCapacityBytes : ℕ) :
    t.scheduler.backlog.Perm ((t.tickScheduler lib linkCapacityBytes).2.scheduler.backlog ++
      (forwarded lib t tx (t.scheduler.tick linkCapacityBytes).1 ++
        cutOff (payloadsOf lib t) (room tx) (t.scheduler.tick linkCapacityBytes).1)) := by
  have htick := perm_backlog_tick t.scheduler linkCapacityBytes
  rw [tickScheduler]
  generalize t.scheduler.tick linkCapacityBytes = drained at htick ⊢
  obtain ⟨batch, scheduler⟩ := drained
  dsimp only at htick ⊢
  split_ifs with hbatch
  · subst hbatch
    exact htick
  · have hforward := @perm_forward lib { t with scheduler := scheduler } tx 0 batch
    rw [@forwarded_congr lib { t with scheduler := scheduler } t rfl tx batch] at hforward
    rw [htx] at hforward ⊢
    exact htick.trans hforward

theorem scheduler_of_no_channel {t : MeshTransport} (htx : t.outboundTx = none)
    (linkCapacityBytes : ℕ) : (t.tickScheduler lib linkCapacityBytes).2.scheduler =
      (t.scheduler.tick linkCapacityBytes).2 := by
  rw [tickScheduler]
  dsimp only
  split_ifs
  · rfl
  · rw [htx]

theorem perm_deltasOf (s : OutboundQueues) (nowUs : ℤ) :
    (deltasOf lib s.retryQueue).Perm (deltasOf lib (drainDueRetries s.retryQueue nowUs).2 ++
      deltasOf lib (drainDueRetries s.retryQueue nowUs).1) := by
  have hsplit := (List.filter_append_perm (fun e : RetryEntry => decide (e.nextRetryAt ≤ nowUs))
    s.retryQueue).filterMap fun entry => lib.parseDelta entry.deltaBytes
  rw [List.filterMap_append] at hsplit
  exact hsplit.symm.trans List.perm_append_comm

variable (lib)

/-- With a channel the tick follows whether or not a retry was due. -/
theorem epoch_of_some {s : OutboundQueues} {tx : Channel} (htx : s.transport.outboundTx = some tx)
    (nowUs nowSecs : ℤ) (linkCapacityBytes : ℕ) : epoch lib s nowUs nowSecs linkCapacityBytes =
      let tx := forwardRetries lib tx (drainDueRetries s.retryQueue nowUs).1
      ⟨((({ s.transport with outboundTx := some tx } : SaturatingTransport).tickSaturate
        nowSecs).tickScheduler lib linkCapacityBytes).2,
        (drainDueRetries s.retryQueue nowUs).2⟩ := by
  simp only [epoch, htx]
  split_ifs with hdue
  · rw [hdue, show forwardRetries lib tx [] = tx from rfl, ← htx]
  · rfl

/-- What an epoch adds to the channel is what `accepted` says, and at most a part of one more Delta. -/
theorem exists_payloads_epoch {s : OutboundQueues} {tx : Channel}
    (htx : s.transport.outboundTx = some tx) (nowUs nowSecs : ℤ) (linkCapacityBytes : ℕ) :
    ∃ q, ∃ part, part <+: payloadsOf lib s.transport.toMeshTransport q ∧
      (epoch lib s nowUs nowSecs linkCapacityBytes).transport.outboundPayloads = tx.payloads ++
        (accepted lib s nowUs nowSecs linkCapacityBytes).1.flatMap (retryPayloads lib) ++
        (accepted lib s nowUs nowSecs linkCapacityBytes).2.flatMap
          (payloadsOf lib s.transport.toMeshTransport) ++ part := by
  have hretries := @payloads_forwardRetries lib tx (drainDueRetries s.retryQueue nowUs).1
  rw [epoch_of_some lib htx]
  simp only [accepted, htx]
  rw [← hretries]
  generalize forwardRetries lib tx (drainDueRetries s.retryQueue nowUs).1 = tx'
  let t : MeshTransport :=
    (({ s.transport with outboundTx := some tx' } : SaturatingTransport).tickSaturate
      nowSecs).toMeshTransport
  have hbatch : batchOf s nowSecs linkCapacityBytes = (t.scheduler.tick linkCapacityBytes).1 := rfl
  have hpayloads : payloadsOf lib t = payloadsOf lib s.transport.toMeshTransport := rfl
  change ∃ q, ∃ part, part <+: _ ∧ (t.tickScheduler lib linkCapacityBytes).2.outboundPayloads = _
  rw [hbatch, @forwarded_congr lib s.transport.toMeshTransport t rfl, ← hpayloads, tickScheduler]
  dsimp only
  split_ifs with hnil
  · refine ⟨⟨⟨0, "", [], 0, [], .low, [], [], 0, 0⟩, 0, 0⟩, [], List.nil_prefix, ?_⟩
    rw [hnil]
    simp [outboundPayloads, forwarded, t]
    rfl
  · obtain ⟨q, part, hpart, hout⟩ := @exists_payloads_forward lib
      { t with scheduler := (t.scheduler.tick linkCapacityBytes).2 } tx' 0
      (t.scheduler.tick linkCapacityBytes).1
    have hsame := @forwarded_congr lib
      { t with scheduler := (t.scheduler.tick linkCapacityBytes).2 } t rfl tx'
      (t.scheduler.tick linkCapacityBytes).1
    rw [hsame] at hout
    exact ⟨q, part, hpart, hout⟩

theorem perm_append_split {α : Type} [DecidableEq α] {queue queue' sent lost : List α}
    {retries retries' sent' lost' : List α} (h : queue.Perm (queue' ++ (sent ++ lost)))
    (h' : retries.Perm (retries' ++ (sent' ++ lost'))) :
    (queue ++ retries).Perm (queue' ++ retries' ++ (sent ++ sent' ++ (lost ++ lost'))) := by
  refine List.perm_iff_count.mpr fun x => ?_
  have hcount := h.count_eq x
  have hcount' := h'.count_eq x
  simp only [List.count_append] at hcount hcount' ⊢
  omega

/-- What was queued is queued after the epoch, accepted, or overflows. -/
theorem perm_epoch (s : OutboundQueues) (nowUs nowSecs : ℤ) (linkCapacityBytes : ℕ) :
    (queuedDeltas lib s).Perm (queuedDeltas lib (epoch lib s nowUs nowSecs linkCapacityBytes) ++
      (acceptedDeltas lib (accepted lib s nowUs nowSecs linkCapacityBytes) ++
        overflow lib s nowUs nowSecs linkCapacityBytes)) := by
  have hretries := @perm_deltasOf lib s nowUs
  have hbacklog := s.transport.backlog_tickSaturate nowSecs
  cases htx : s.transport.outboundTx with
  | none =>
    have haccepted : accepted lib s nowUs nowSecs linkCapacityBytes = ([], []) := by
      simp only [accepted, htx]
    have hoverflow : overflow lib s nowUs nowSecs linkCapacityBytes =
        if (drainDueRetries s.retryQueue nowUs).1 = [] then
          (batchOf s nowSecs linkCapacityBytes).map QueuedDelta.delta
        else deltasOf lib (drainDueRetries s.retryQueue nowUs).1 := by
      simp only [overflow, htx]
    have hepoch : epoch lib s nowUs nowSecs linkCapacityBytes =
        if (drainDueRetries s.retryQueue nowUs).1 = [] then
          ⟨((s.transport.tickSaturate nowSecs).tickScheduler lib linkCapacityBytes).2,
            (drainDueRetries s.retryQueue nowUs).2⟩
        else ⟨s.transport, (drainDueRetries s.retryQueue nowUs).2⟩ := by
      simp only [epoch, htx]
    rw [haccepted, hoverflow, hepoch]
    split_ifs with hdue
    · rw [hdue] at hretries
      have htick := perm_backlog_tick (s.transport.tickSaturate nowSecs).scheduler linkCapacityBytes
      rw [hbacklog, ← @scheduler_of_no_channel lib (s.transport.tickSaturate nowSecs).toMeshTransport
        htx] at htick
      have hsent := htick.map QueuedDelta.delta
      rw [List.map_append] at hsent
      rw [← List.append_nil ((batchOf s nowSecs linkCapacityBytes).map QueuedDelta.delta)]
      exact @perm_append_split _ _ _ _ [] _ _ _ [] [] hsent hretries
    · exact @perm_append_split _ _ _ _ [] [] _ _ [] _ (by rw [List.append_nil, List.append_nil])
        hretries
  | some tx =>
    obtain ⟨hretried, hroom⟩ := @retried_eq_take lib tx (drainDueRetries s.retryQueue nowUs).1
    have haccepted : accepted lib s nowUs nowSecs linkCapacityBytes =
        (retried lib tx (drainDueRetries s.retryQueue nowUs).1,
          forwarded lib s.transport.toMeshTransport
            (forwardRetries lib tx (drainDueRetries s.retryQueue nowUs).1)
            (batchOf s nowSecs linkCapacityBytes)) := by
      simp only [accepted, htx]
    have hoverflow : overflow lib s nowUs nowSecs linkCapacityBytes =
        (cutOff (payloadsOf lib s.transport.toMeshTransport)
          (room (forwardRetries lib tx (drainDueRetries s.retryQueue nowUs).1))
          (batchOf s nowSecs linkCapacityBytes)).map QueuedDelta.delta ++
          (deltasOf lib (drainDueRetries s.retryQueue nowUs).1).drop (room tx) := by
      simp only [overflow, htx, hroom]
    rw [haccepted, hoverflow, epoch_of_some lib htx]
    generalize forwardRetries lib tx (drainDueRetries s.retryQueue nowUs).1 = tx'
    let t : MeshTransport :=
      (({ s.transport with outboundTx := some tx' } : SaturatingTransport).tickSaturate
        nowSecs).toMeshTransport
    have hforward := (@perm_tickScheduler lib t tx' rfl linkCapacityBytes).map QueuedDelta.delta
    rw [@forwarded_congr lib t s.transport.toMeshTransport rfl, List.map_append, List.map_append]
      at hforward
    have hkept : t.scheduler.backlog = s.transport.scheduler.backlog := hbacklog
    rw [hkept] at hforward
    rw [← List.take_append_drop (room tx) (deltasOf lib (drainDueRetries s.retryQueue nowUs).1),
      ← hretried] at hretries
    exact perm_append_split hforward hretries

/-- In lists that split a third one, what is outside the last part is what occurs elsewhere too. -/
theorem kept_iff_of_perm {α : Type} [DecidableEq α] {whole kept sent lost : List α}
    (h : whole.Perm (kept ++ (sent ++ lost))) :
    (∀ x ∈ whole, x ∈ kept ∨ x ∈ sent) ↔ ∀ x ∈ lost, lost.count x < whole.count x := by
  have hcount : ∀ x, whole.count x = kept.count x + (sent.count x + lost.count x) := by
    intro x
    rw [h.count_eq, List.count_append, List.count_append]
  constructor
  · intro hkept x hx
    have hwhole : x ∈ whole := h.mem_iff.mpr (by simp [hx])
    have hsum := hcount x
    rcases hkept x hwhole with hx | hx
    · have hpos := List.count_pos_iff.mpr hx
      omega
    · have hpos := List.count_pos_iff.mpr hx
      omega
  · intro hlost x hx
    by_contra hneither
    obtain ⟨hkept, hsent⟩ := not_or.mp hneither
    have hsum := hcount x
    rw [List.count_eq_zero.mpr hkept, List.count_eq_zero.mpr hsent] at hsum
    have hpos := List.count_pos_iff.mpr hx
    have hmem : x ∈ lost := List.count_pos_iff.mp (by omega)
    have hless := hlost x hmem
    omega

/-- An epoch of the loop loses nothing exactly when every Delta that it has no room for is queued once
more besides. -/
theorem nothingLost_iff_roomEnough (s : OutboundQueues) (nowUs nowSecs : ℤ)
    (linkCapacityBytes : ℕ) :
    NothingLost lib s (epoch lib s nowUs nowSecs linkCapacityBytes)
      (accepted lib s nowUs nowSecs linkCapacityBytes) ↔
        RoomEnough lib s nowUs nowSecs linkCapacityBytes :=
  kept_iff_of_perm (perm_epoch lib s nowUs nowSecs linkCapacityBytes)

section Sample
open CrdtEngine PublishedDelivery

def waitingDelta (n : ℕ) : Delta :=
  { sampleDelta with id := BitVec.ofNat 256 n, lamport := UInt64.ofNat n }

def waitingJson (δ : Delta) : Bytes :=
  asciiBytes "\x7b\"id\":" ++ jsonArray (List.replicate 31 0 ++ [Fin.ofNat 256 δ.id.toNat]) ++
    asciiBytes ",\"author_did\":\"" ++ asciiBytes sampleDid₁ ++
    asciiBytes "\",\"signature\":" ++ jsonArray (List.replicate 64 0) ++
    asciiBytes ",\"schema_hash\":" ++ jsonArray (List.replicate 32 0) ++
    asciiBytes ",\"automerge_bytes\":" ++ jsonArray [1, 2, 3] ++
    asciiBytes ",\"priority\":\"Low\",\"causal_parents\":[],\"tags\":[],\"lamport\":" ++
    asciiBytes (String.ofList (Nat.toDigits 10 δ.lamport.toNat)) ++
    asciiBytes ",\"created_at\":0\x7d"

def waitingWire : WireLibraries where
  serialiseDelta := waitingJson
  parseDelta bytes := ([1, 2, 3].map waitingDelta).find? fun δ => waitingJson δ == bytes
  toBytes
    | .inboundDelta δ => asciiBytes "\x7b\"InboundDelta\":" ++ waitingJson δ ++ asciiBytes "\x7d"
    | _ => []
  fromBytes _ := none

/-- Three Deltas wait, and the channel to the publisher has one free place. -/
def sampleFull : OutboundQueues :=
  let t : MeshTransport :=
    { sampleSender ⟨4, ∅⟩ with outboundTx := some ⟨4096, false, List.replicate 4095 [0]⟩ }
  let t := [1, 2, 3].foldl (fun t n => t.enqueueOutbound waitingWire (waitingDelta n) 0) t
  ⟨⟨t, .new 1 [] 3600⟩, []⟩

/-- The first Delta is accepted, the second is queued again, the third is gone. -/
theorem third_delta_lost :
    ¬NothingLost waitingWire sampleFull (epoch waitingWire sampleFull 0 0 1000000)
      (accepted waitingWire sampleFull 0 0 1000000) := by
  intro h
  have hqueued : waitingDelta 3 ∈ queuedDeltas waitingWire sampleFull := by decide +kernel
  have hkept := h (waitingDelta 3) hqueued
  revert hkept
  decide +kernel

end Sample

end TirBase.OutboundEpochs
