import TirBase.BandwidthFloors
import TirBase.BoundedGroups
import TirBase.OutboundEpochs
import TirBase.ThresholdSigners

/-! # The low class in the production loop

Every epoch of the loop first sets the mode of the scheduler from the Saturate Mode machine. In normal
mode this resets the deficits, so a class is never owed more than the quantum of the epoch. -/
namespace TirBase
open TransitionRuns BoundedGroups

/-- The clearing capacity of the low queue: its share of ten epochs. -/
def DrrScheduler.lowClearingCapacity (linkCapacityBytesPerSec : ℕ) : ℕ :=
  linkCapacityBytesPerSec * 10 / 100 * 10

namespace SaturatingTransport
open DrrScheduler OutboundEpochs

section Transport
variable (saturateLib : SaturateLibraries) (wire : WireLibraries)

/-- An epoch of the production loop, over the outbound channel as it is then. -/
def epoch (t : SaturatingTransport) (linkCapacityBytes : ℕ) (nowSecs : ℤ) (tx : Channel) :
    Except TirBaseError ℕ × SaturatingTransport :=
  let t := { t with outboundTx := some tx }
  (t.tickSaturate nowSecs).tickScheduler wire linkCapacityBytes

inductive Operation
  | enqueue (q : QueuedDelta)
  | epoch (nowSecs : ℤ) (tx : Channel)
  | activate (managerDid : Did) (biscuitToken : Bytes) (nowSecs : ℤ)
  | renew (biscuitToken : Bytes) (nowSecs : ℤ)
  | terminate (signatures : List (Did × Bytes)) (message : Bytes)
  deriving DecidableEq

/-- The link capacity is the same at every epoch. -/
def step (link : ℕ) (t : SaturatingTransport) : Operation → SaturatingTransport
  | .enqueue q => { t with scheduler := t.scheduler.enqueue q }
  | .epoch nowSecs tx => (t.epoch wire link nowSecs tx).2
  | .activate managerDid biscuitToken nowSecs =>
    (t.activateSaturateMode saturateLib managerDid biscuitToken nowSecs).2
  | .renew biscuitToken nowSecs => (t.renewSaturateMode saturateLib biscuitToken nowSecs).2
  | .terminate signatures message => (t.terminateSaturateMode saturateLib signatures message).2

/-- No packet is longer than the link, and the channel accepts what an epoch sends. -/
def Accepted (link : ℕ) (t : SaturatingTransport) : Operation → Prop
  | .enqueue q => q.serializedLen ≤ link
  | .epoch nowSecs tx => (t.epoch wire link nowSecs tx).1.isOk = true
  | _ => True

/-- What the write path enters is a packet as long as the text of the Delta. -/
theorem enqueueOutbound_eq_step (link : ℕ) (t : SaturatingTransport) (δ : Delta) (now : ℤ) :
    t.toMeshTransport.enqueueOutbound wire δ now = (t.step saturateLib wire link
      (.enqueue ⟨δ, (wire.serialiseDelta δ).length, now⟩)).toMeshTransport := rfl

instance (link : ℕ) (t : SaturatingTransport) (op : Operation) :
    Decidable (t.Accepted wire link op) := by
  cases op <;> unfold Accepted <;> infer_instance

structure Fresh (link : ℕ) (t : SaturatingTransport) : Prop where
  scheduler : t.scheduler = .new link
  saturate : ∃ m rootCaPublicKey duration, t.saturate = .new m rootCaPublicKey duration

end Transport

/-- Neither an epoch nor an arrival changes the lease. -/
def Operation.isLeaseEvent : Operation → Bool
  | .enqueue _ => false
  | .epoch _ _ => false
  | _ => true

def epochs (ops : List Operation) : ℕ :=
  (ops.map fun op => match op with
    | .epoch _ _ => 1
    | _ => 0).sum

def lowArrivals (ops : List Operation) : List QueuedDelta :=
  ops.flatMap fun op => match op with
    | .enqueue q => classOf .low [q]
    | _ => []

/-- Ten epochs in normal mode are all behind the low Deltas that wait when they start: the queue holds
the last of what arrived since then and nothing else. -/
def LowCleared (saturateLib : SaturateLibraries) (wire : WireLibraries) (link : ℕ)
    (waiting : List QueuedDelta) : Prop :=
  ∀ (t : SaturatingTransport) (earlier window : List Operation), t.Fresh link →
    Guarded (step saturateLib wire link) (Accepted wire link) t (earlier ++ window) →
    (run (step saturateLib wire link) t earlier).saturate.state = .normal →
    (run (step saturateLib wire link) t earlier).scheduler.lowQueue = waiting →
    (∀ op ∈ window, op.isLeaseEvent = false) → epochs window = 10 →
    (run (step saturateLib wire link) t (earlier ++ window)).scheduler.lowQueue <:+
      lowArrivals window

/-- What can wait for the low class, with no more bytes than its clearing capacity. -/
structure WithinClearing (link : ℕ) (waiting : List QueuedDelta) : Prop where
  low : ∀ q ∈ waiting, q.delta.priority = .low
  packets : ∀ q ∈ waiting, q.serializedLen ≤ link
  bytes : bytesOf waiting ≤ lowClearingCapacity link

section Epoch
variable {wire : WireLibraries}

theorem scheduler_of_forward {t : MeshTransport} {tx : Channel} {n : ℕ} {batch : List QueuedDelta}
    (h : (t.forward wire tx n batch).1.isOk = true) :
    (t.forward wire tx n batch).2.scheduler = t.scheduler := by
  induction batch generalizing tx n with
  | nil => rfl
  | cons queued rest ih =>
    simp only [MeshTransport.forward] at h ⊢
    split at h
    · exact ih h
    · cases h

theorem isOk_forward (t : MeshTransport) {tx : Channel} (n : ℕ) {batch : List QueuedDelta}
    (hroom : (batch.flatMap (payloadsOf wire t)).length ≤ room tx) :
    (t.forward wire tx n batch).1.isOk = true := by
  induction batch generalizing tx n with
  | nil => rfl
  | cons queued rest ih =>
    rw [List.flatMap_cons, List.length_append] at hroom
    simp only [MeshTransport.forward]
    rcases sendAll_cases "outbound publish" tx (payloadsOf wire t queued) with
      ⟨hok, hrest⟩ | ⟨-, hfull⟩
    · rw [show (t.prepareOutbound wire queued.delta).map wire.toBytes = payloadsOf wire t queued
        from rfl, hok]
      exact ih _ (by omega)
    · omega

theorem scheduler_of_tickScheduler {t : MeshTransport} {link : ℕ}
    (h : (t.tickScheduler wire link).1.isOk = true) :
    (t.tickScheduler wire link).2.scheduler = (t.scheduler.tick link).2 := by
  simp only [MeshTransport.tickScheduler] at h ⊢
  split_ifs at h ⊢
  · rfl
  · cases htx : t.outboundTx with
    | none => simp only
    | some tx =>
      simp only [htx] at h ⊢
      exact scheduler_of_forward h

theorem saturate_epoch (t : SaturatingTransport) (link : ℕ) (nowSecs : ℤ) (tx : Channel) :
    (t.epoch wire link nowSecs tx).2.saturate = t.saturate.tick nowSecs := rfl

theorem scheduler_of_epoch {t : SaturatingTransport} {link : ℕ} {nowSecs : ℤ} {tx : Channel}
    (h : (t.epoch wire link nowSecs tx).1.isOk = true) :
    (t.epoch wire link nowSecs tx).2.scheduler = ((t.scheduler.setSaturateMode
      (decide ((t.saturate.tick nowSecs).state = .saturate))).tick link).2 :=
  scheduler_of_tickScheduler h

theorem tick_of_normal {s : SaturateModeStateMachine} (h : s.state = .normal) (nowSecs : ℤ) :
    s.tick nowSecs = s := by
  simp [SaturateModeStateMachine.tick, h]

theorem scheduler_of_normal_epoch {t : SaturatingTransport} {link : ℕ} {nowSecs : ℤ} {tx : Channel}
    (h : (t.epoch wire link nowSecs tx).1.isOk = true) (hnormal : t.saturate.state = .normal) :
    (t.epoch wire link nowSecs tx).2.scheduler =
      ((t.scheduler.setSaturateMode false).tick link).2 := by
  rw [scheduler_of_epoch h, tick_of_normal hnormal, hnormal]
  rfl

/-- Some channel accepts what an epoch sends. -/
theorem exists_accepting (wire : WireLibraries) (t : SaturatingTransport) (link : ℕ) (nowSecs : ℤ) :
    ∃ tx, (t.epoch wire link nowSecs tx).1.isOk = true := by
  let batch := ((t.tickSaturate nowSecs).scheduler.tick link).1
  refine ⟨⟨(batch.flatMap (payloadsOf wire t.toMeshTransport)).length, false, []⟩, ?_⟩
  simp only [epoch, tickScheduler, MeshTransport.tickScheduler]
  split_ifs
  · rfl
  · apply isOk_forward
    rfl

end Epoch

section Quanta
variable {saturateLib : SaturateLibraries} {wire : WireLibraries} {link : ℕ}

theorem quantumOf_onLeaseEvent (t : SaturatingTransport)
    (out : Except TirBaseError Unit × SaturateModeStateMachine) (p : PriorityClass) :
    (t.onLeaseEvent out).2.scheduler.quantumOf p = t.scheduler.quantumOf p := by
  unfold onLeaseEvent
  dsimp only
  split
  · exact quantumOf_setSaturateMode _ _ p
  · rfl

theorem quantumOf_step {t : SaturatingTransport} {op : Operation} (h : t.Accepted wire link op)
    (p : PriorityClass) :
    (t.step saturateLib wire link op).scheduler.quantumOf p = t.scheduler.quantumOf p := by
  cases op with
  | enqueue q => exact quantumOf_enqueue t.scheduler q p
  | epoch nowSecs tx =>
    simp only [step]
    rw [scheduler_of_epoch h, quantumOf_tick, quantumOf_setSaturateMode]
  | activate managerDid biscuitToken nowSecs => exact quantumOf_onLeaseEvent t _ p
  | renew biscuitToken nowSecs => exact quantumOf_onLeaseEvent t _ p
  | terminate signatures message => exact quantumOf_onLeaseEvent t _ p

theorem quantumOf_run {t : SaturatingTransport} (hfresh : t.Fresh link) {ops : List Operation}
    (hops : Guarded (step saturateLib wire link) (Accepted wire link) t ops) (p : PriorityClass) :
    (run (step saturateLib wire link) t ops).scheduler.quantumOf p = quantumAt link p := by
  have hstep : ∀ (t : SaturatingTransport) op, t.Accepted wire link op →
      t.scheduler.quantumOf p = quantumAt link p →
        (t.step saturateLib wire link op).scheduler.quantumOf p = quantumAt link p :=
    fun t op hop hquantum => (quantumOf_step hop p).trans hquantum
  refine guarded_run hstep hops ?_
  rw [hfresh.scheduler]
  exact quantumOf_new link p

end Quanta

section Clearing
variable {saturateLib : SaturateLibraries} {wire : WireLibraries} {link : ℕ}

theorem bytesOf_eq_weight (queue : List QueuedDelta) :
    bytesOf queue = weight QueuedDelta.serializedLen queue := by
  induction queue with
  | nil => rfl
  | cons q queue ih =>
    rw [bytesOf_cons, weight_cons, ih]
    push_cast
    rfl

/-- Without deficits a class is served as far as its quantum allows. -/
theorem reachesBound_served {s : DrrScheduler} (hmode : s.saturateMode = false)
    {p : PriorityClass} (hdeficit : s.deficitOf p = 0) (link : ℕ) :
    ReachesBound QueuedDelta.serializedLen (s.quantumOf p) (s.queueOf p)
      ((s.served link).of p) := by
  intro group hgroup hweight
  have hfloor : group <+: s.floorOf p := by
    apply isInitial_drainQueue hgroup
    rw [bytesOf_eq_weight, hdeficit]
    omega
  rw [served_of_normal hmode]
  exact hfloor.trans (List.prefix_append _ _)

/-- So many epochs of normal mode suffice for what waits in front of the arrivals. -/
structure Clearing (link n : ℕ) (arrivals : List QueuedDelta) (t : SaturatingTransport) : Prop where
  normal : t.saturate.state = .normal
  quantum : t.scheduler.quantumOf .low = quantumAt link .low
  queue : ∃ waiting, Cuts QueuedDelta.serializedLen (quantumAt link .low) n waiting ∧
    t.scheduler.lowQueue <:+ waiting ++ arrivals

theorem Clearing.enqueue {n : ℕ} {arrivals : List QueuedDelta} {t : SaturatingTransport}
    (h : Clearing link n arrivals t) (q : QueuedDelta) :
    Clearing link n (arrivals ++ lowArrivals [.enqueue q])
      (t.step saturateLib wire link (.enqueue q)) := by
  refine ⟨h.normal, (quantumOf_enqueue t.scheduler q .low).trans h.quantum, ?_⟩
  obtain ⟨waiting, hcuts, before, hbefore⟩ := h.queue
  refine ⟨waiting, hcuts, before, ?_⟩
  have hqueue : (t.scheduler.enqueue q).lowQueue = t.scheduler.lowQueue ++ classOf .low [q] :=
    queueOf_enqueue t.scheduler q .low
  have harrivals : lowArrivals [.enqueue q] = classOf .low [q] := by simp [lowArrivals]
  calc before ++ (t.scheduler.enqueue q).lowQueue
      = before ++ t.scheduler.lowQueue ++ classOf .low [q] := by rw [hqueue, List.append_assoc]
    _ = waiting ++ (arrivals ++ lowArrivals [.enqueue q]) := by
      rw [hbefore, harrivals, List.append_assoc]

theorem Clearing.epoch {n : ℕ} {arrivals : List QueuedDelta} {t : SaturatingTransport}
    (h : Clearing link (n + 1) arrivals t) {nowSecs : ℤ} {tx : Channel}
    (haccepted : (t.epoch wire link nowSecs tx).1.isOk = true) :
    Clearing link n arrivals (t.step saturateLib wire link (.epoch nowSecs tx)) := by
  have hscheduler := scheduler_of_normal_epoch haccepted h.normal
  have hquantum : (t.scheduler.setSaturateMode false).quantumOf .low = quantumAt link .low :=
    (quantumOf_setSaturateMode _ _ _).trans h.quantum
  refine ⟨?_, ?_, ?_⟩
  · simp only [step]
    rw [saturate_epoch, tick_of_normal h.normal]
    exact h.normal
  · simp only [step]
    rw [hscheduler, quantumOf_tick, hquantum]
  · obtain ⟨waiting, hcuts, hqueue⟩ := h.queue
    have hreaches := reachesBound_served (s := t.scheduler.setSaturateMode false) rfl
      (deficitOf_setSaturateMode_false t.scheduler .low) link
    rw [hquantum, queueOf_setSaturateMode] at hreaches
    have hserved := served_append_queueOf (t.scheduler.setSaturateMode false) link .low
    rw [queueOf_setSaturateMode, ← hscheduler] at hserved
    exact hcuts.serve hqueue hserved hreaches

theorem epochs_append (ops ops' : List Operation) :
    epochs (ops ++ ops') = epochs ops + epochs ops' := by
  simp [epochs]

theorem lowArrivals_append (ops ops' : List Operation) :
    lowArrivals (ops ++ ops') = lowArrivals ops ++ lowArrivals ops' := by
  simp [lowArrivals]

theorem Clearing.run {t : SaturatingTransport} {arrivals : List QueuedDelta}
    {window : List Operation} (h : Clearing link (epochs window) arrivals t)
    (hwindow : ∀ op ∈ window, op.isLeaseEvent = false)
    (haccepted : Guarded (step saturateLib wire link) (Accepted wire link) t window) :
    Clearing link 0 (arrivals ++ lowArrivals window)
      (run (step saturateLib wire link) t window) := by
  induction window generalizing t arrivals with
  | nil => simpa [lowArrivals, epochs] using h
  | cons op window ih =>
    have hwindow' : ∀ op ∈ window, op.isLeaseEvent = false :=
      fun o ho => hwindow o (List.mem_cons_of_mem op ho)
    rw [← List.singleton_append, lowArrivals_append, ← List.append_assoc]
    rw [← List.singleton_append, epochs_append] at h
    cases op with
    | enqueue q =>
      rw [show epochs [.enqueue q] = 0 from rfl, Nat.zero_add] at h
      exact ih (h.enqueue q) hwindow' haccepted.2
    | epoch nowSecs tx =>
      rw [show epochs [.epoch nowSecs tx] = 1 from rfl, Nat.add_comm] at h
      rw [show lowArrivals [.epoch nowSecs tx] = [] from rfl, List.append_nil]
      exact ih (h.epoch haccepted.1) hwindow' haccepted.2
    | _ => cases hwindow _ List.mem_cons_self

/-- Ten groups are cleared in ten epochs. -/
theorem lowCleared_of_cuts {waiting : List QueuedDelta}
    (h : Cuts QueuedDelta.serializedLen (quantumAt link .low) 10 waiting) :
    LowCleared saturateLib wire link waiting := by
  intro t earlier window hfresh haccepted hnormal hqueue hwindow hepochs
  rw [guarded_append] at haccepted
  rw [run_append]
  have hstart : Clearing link (epochs window) []
      (TransitionRuns.run (step saturateLib wire link) t earlier) := by
    refine ⟨hnormal, quantumOf_run hfresh haccepted.1 .low, waiting, ?_, ?_⟩
    · rwa [hepochs]
    · rw [hqueue, List.append_nil]
  obtain ⟨rest, hrest, hsuffix⟩ := (hstart.run hwindow haccepted.2).queue
  cases hrest
  simpa using hsuffix

end Clearing

section Filled
variable (saturateLib : SaturateLibraries) (wire : WireLibraries) {link : ℕ}

theorem drainSpare_of_nonpos (drain : DrrScheduler → ℤ → List QueuedDelta × DrrScheduler)
    (queue : DrrScheduler → List QueuedDelta) (s : DrrScheduler) {spare : ℤ} (h : spare ≤ 0) :
    drainSpare drain queue s spare = ([], s) :=
  if_neg fun hspare => absurd hspare.1 (by omega)

structure Filled (link : ℕ) (q : QueuedDelta) (s : DrrScheduler) : Prop where
  high : s.highQueue = [q]
  medium : s.mediumQueue = []
  normal : s.saturateMode = false
  deficit : ∀ p, s.deficitOf p = 0
  bytes : (q.serializedLen : ℤ) + bytesOf (s.floorOf .low) = link

theorem Filled.floorOf_high {q : QueuedDelta} {s : DrrScheduler} (h : Filled link q s) :
    (s.floorOf .high = [q] ∧ s.addQuanta.serveFloors.2.highQueue = []) ∨
      (s.floorOf .high = [] ∧ s.addQuanta.serveFloors.2.highQueue = [q] ∧ 0 < q.serializedLen) := by
  have hqueue : s.queueOf .high = [q] := h.high
  have hrest : s.addQuanta.serveFloors.2.highQueue =
      (drainQueue (s.deficitOf .high + s.quantumOf .high) (s.queueOf .high) 0).2 := rfl
  rw [hrest]
  simp only [floorOf, hqueue, h.deficit .high, drainQueue]
  split_ifs with hfits
  · exact .inl ⟨rfl, rfl⟩
  · exact .inr ⟨rfl, rfl, by omega⟩

theorem Filled.floorOf_medium {q : QueuedDelta} {s : DrrScheduler} (h : Filled link q s) :
    s.floorOf .medium = [] := by
  have hqueue : s.queueOf .medium = [] := h.medium
  rw [floorOf, hqueue]
  rfl

/-- The low class gets its floor and nothing of the spare bandwidth. -/
theorem Filled.served {q : QueuedDelta} {s : DrrScheduler} (h : Filled link q s) :
    s.served link = ⟨[q], [], s.floorOf .low⟩ := by
  have hserved : s.served link = Served.append
      ⟨s.floorOf .high, s.floorOf .medium, s.floorOf .low⟩ (s.extraOf link) := by
    rw [DrrScheduler.served, if_neg (by simp [h.normal])]
  have hbytes := h.bytes
  rw [hserved, extraOf, h.floorOf_medium]
  rcases h.floorOf_high with ⟨hfloor, -⟩ | ⟨hfloor, hqueue, hpos⟩
  · rw [hfloor, show (link : ℤ) - (bytesOf [q] + bytesOf [] + bytesOf (s.floorOf .low)) = 0 by
      simp only [bytesOf_cons, bytesOf_nil]; omega]
    simp [redistribute, drainSpare_of_nonpos, Served.append]
  · rw [hfloor, show (link : ℤ) - (bytesOf [] + bytesOf [] + bytesOf (s.floorOf .low)) =
      q.serializedLen by simp only [bytesOf_nil]; omega]
    have hhigh : (drainSpare drainHigh highQueue s.addQuanta.serveFloors.2 q.serializedLen).1 =
        [q] := by
      rw [drainSpare, if_pos ⟨by omega, by rw [hqueue]; exact List.cons_ne_nil q []⟩]
      simp [drainHigh, hqueue, drainQueue]
    simp only [redistribute]
    rw [hhigh, bytesOf_cons, bytesOf_nil, Int.add_zero, Int.sub_self]
    simp [drainSpare_of_nonpos, Served.append]

structure OnlyLow (link : ℕ) (t : SaturatingTransport) : Prop where
  normal : t.saturate.state = .normal
  quantum : t.scheduler.quantumOf .low = quantumAt link .low
  high : t.scheduler.highQueue = []
  medium : t.scheduler.mediumQueue = []

theorem bytesOf_drainQueue_le_quantum (link : ℕ) (queue : List QueuedDelta) :
    bytesOf (drainQueue (quantumAt link .low) queue 0).1 ≤ quantumAt link .low := by
  have hbytes := bytesOf_drainQueue queue (le_max_right (quantumAt link .low : ℤ) 0)
  omega

theorem quantumAt_low_le (link : ℕ) : quantumAt link .low ≤ link := by
  simp only [quantumAt]
  omega

/-- An epoch over a full link takes no more than a group of the low queue. -/
theorem OnlyLow.filled_epoch {t : SaturatingTransport} (h : OnlyLow link t) :
    ∃ q tx, q.delta.priority = .high ∧
      Guarded (step saturateLib wire link) (Accepted wire link) t [.enqueue q, .epoch 0 tx] ∧
      OnlyLow link (run (step saturateLib wire link) t [.enqueue q, .epoch 0 tx]) ∧
      ∃ group, group ++ (run (step saturateLib wire link) t
          [.enqueue q, .epoch 0 tx]).scheduler.lowQueue = t.scheduler.lowQueue ∧
        weight QueuedDelta.serializedLen group ≤ quantumAt link .low := by
  have hbytes := bytesOf_drainQueue_le_quantum link t.scheduler.lowQueue
  have hquantum := quantumAt_low_le link
  generalize hgroup : (drainQueue (quantumAt link .low) t.scheduler.lowQueue 0).1 = group at hbytes
  rw [bytesOf_eq_weight] at hbytes
  let q := sampleQueued .high (link - weight QueuedDelta.serializedLen group)
  obtain ⟨tx, htx⟩ := exists_accepting wire (t.step saturateLib wire link (.enqueue q)) link 0
  let s := (t.scheduler.enqueue q).setSaturateMode false
  have hfloor : s.floorOf .low = group := by
    have hdeficit : s.deficitOf .low + s.quantumOf .low = quantumAt link .low := by
      rw [deficitOf_setSaturateMode_false, quantumOf_setSaturateMode, quantumOf_enqueue, h.quantum]
      omega
    rw [floorOf, hdeficit]
    exact hgroup
  have hfilled : Filled link q s := by
    refine ⟨?_, h.medium, rfl, deficitOf_setSaturateMode_false _, ?_⟩
    · exact congrArg (· ++ [q]) h.high
    · rw [hfloor, bytesOf_eq_weight]
      simp only [q, sampleQueued]
      omega
  have hscheduler : (run (step saturateLib wire link) t [.enqueue q, .epoch 0 tx]).scheduler =
      (s.tick link).2 := scheduler_of_normal_epoch htx h.normal
  have hqueue : ∀ p, (s.served link).of p ++ (run (step saturateLib wire link) t
      [.enqueue q, .epoch 0 tx]).scheduler.queueOf p = s.queueOf p := by
    intro p
    rw [hscheduler]
    exact served_append_queueOf s link p
  refine ⟨q, tx, rfl, ⟨Nat.sub_le _ _, htx, trivial⟩, ⟨?_, ?_, ?_, ?_⟩, group, ?_, by omega⟩
  · have hstate : (t.saturate.tick 0).state = .normal := by rw [tick_of_normal h.normal, h.normal]
    exact hstate
  · rw [hscheduler, quantumOf_tick, quantumOf_setSaturateMode, quantumOf_enqueue, h.quantum]
  · have hhigh := hqueue .high
    rw [hfilled.served, show s.queueOf .high = [q] from hfilled.high] at hhigh
    exact List.append_right_eq_self.mp hhigh
  · have hmedium := hqueue .medium
    rw [hfilled.served, show s.queueOf .medium = [] from hfilled.medium] at hmedium
    exact hmedium
  · have hlow := hqueue .low
    rw [hfilled.served, hfloor] at hlow
    exact hlow

/-- Over a link that stays full, a queue that is empty after some epochs falls into as many groups. -/
theorem OnlyLow.filled_window {t : SaturatingTransport} (h : OnlyLow link t) (n : ℕ) :
    ∃ window, (∀ op ∈ window, op.isLeaseEvent = false) ∧ epochs window = n ∧
      lowArrivals window = [] ∧
      Guarded (step saturateLib wire link) (Accepted wire link) t window ∧
      ((run (step saturateLib wire link) t window).scheduler.lowQueue = [] →
        Cuts QueuedDelta.serializedLen (quantumAt link .low) n t.scheduler.lowQueue) := by
  induction n generalizing t with
  | zero => exact ⟨[], by simp, rfl, rfl, trivial, id⟩
  | succ n ih =>
    obtain ⟨q, tx, hq, haccepted, hnext, group, hsplit, hweight⟩ :=
      h.filled_epoch saturateLib wire
    obtain ⟨window, hwindow, hepochs, harrivals, hrest, hempty⟩ := ih hnext
    refine ⟨[.enqueue q, .epoch 0 tx] ++ window, ?_, ?_, ?_, ?_, ?_⟩
    · intro op hop
      rcases List.mem_append.mp hop with hop | hop
      · simp only [List.mem_cons, List.not_mem_nil, or_false] at hop
        rcases hop with rfl | rfl <;> rfl
      · exact hwindow op hop
    · rw [epochs_append, hepochs, show epochs [.enqueue q, .epoch 0 tx] = 1 from rfl, Nat.add_comm]
    · rw [lowArrivals_append, harrivals]
      simp [lowArrivals, classOf, hq]
    · exact (guarded_append _ _ _ _ _).mpr ⟨haccepted, hrest⟩
    · intro hfinal
      rw [run_append] at hfinal
      exact ⟨group, _, hsplit, hweight, hempty hfinal⟩

theorem scheduler_of_arrivals (link : ℕ) (t : SaturatingTransport) {waiting : List QueuedDelta}
    (hlow : ∀ q ∈ waiting, q.delta.priority = .low) :
    run (step saturateLib wire link) t (waiting.map .enqueue) =
      { t with scheduler := { t.scheduler with lowQueue := t.scheduler.lowQueue ++ waiting } } := by
  induction waiting generalizing t with
  | nil => simp
  | cons q waiting ih =>
    have hq := hlow q List.mem_cons_self
    rw [List.map_cons, run_cons, ih _ fun q' hq' => hlow q' (List.mem_cons_of_mem q hq')]
    simp [step, enqueue, hq]

theorem guarded_arrivals {t : SaturatingTransport} {waiting : List QueuedDelta}
    (hpackets : ∀ q ∈ waiting, q.serializedLen ≤ link) :
    Guarded (step saturateLib wire link) (Accepted wire link) t (waiting.map .enqueue) := by
  induction waiting generalizing t with
  | nil => exact trivial
  | cons q waiting ih =>
    exact ⟨hpackets q List.mem_cons_self,
      ih fun q' hq' => hpackets q' (List.mem_cons_of_mem q hq')⟩

/-- A queue that is cleared in every window falls into ten groups. -/
theorem cuts_of_lowCleared {waiting : List QueuedDelta} (hwaiting : WithinClearing link waiting)
    (h : LowCleared saturateLib wire link waiting) :
    Cuts QueuedDelta.serializedLen (quantumAt link .low) 10 waiting := by
  let t : SaturatingTransport :=
    ⟨⟨0, ⟨4, ∅⟩, .empty, "", .new link, none, none⟩, .new 1 [] 1⟩
  have hfresh : t.Fresh link := ⟨rfl, 1, [], 1, rfl⟩
  have hstart := scheduler_of_arrivals saturateLib wire link t hwaiting.low
  have hqueue : (run (step saturateLib wire link) t (waiting.map .enqueue)).scheduler.lowQueue =
      waiting := by
    rw [hstart]
    rfl
  have honly : OnlyLow link (run (step saturateLib wire link) t (waiting.map .enqueue)) := by
    rw [hstart]
    exact ⟨rfl, rfl, rfl, rfl⟩
  obtain ⟨window, hwindow, hepochs, harrivals, haccepted, hcuts⟩ :=
    honly.filled_window saturateLib wire 10
  have hall : Guarded (step saturateLib wire link) (Accepted wire link) t
      (waiting.map .enqueue ++ window) := by
    rw [guarded_append]
    exact ⟨guarded_arrivals saturateLib wire hwaiting.packets, haccepted⟩
  have hcleared := h t (waiting.map .enqueue) window hfresh hall honly.normal hqueue hwindow hepochs
  rw [harrivals, List.suffix_nil, run_append] at hcleared
  rw [← hqueue]
  exact hcuts hcleared

end Filled

/-- Ten epochs clear what waits for the low class, whatever else arrives, exactly when it can be cut
into ten groups that each fit the quantum of one epoch. -/
theorem lowCleared_iff_cuts (saturateLib : SaturateLibraries) (wire : WireLibraries) {link : ℕ}
    {waiting : List QueuedDelta} (hwaiting : WithinClearing link waiting) :
    LowCleared saturateLib wire link waiting ↔
      Cuts QueuedDelta.serializedLen (quantumAt link .low) 10 waiting :=
  ⟨cuts_of_lowCleared saturateLib wire hwaiting, lowCleared_of_cuts⟩

section Sample
open PublishedDelivery ThresholdSigners

def sampleLow : List QueuedDelta :=
  [sampleQueued .low 60, sampleQueued .low 40, sampleQueued .low 90]

theorem lowCleared_iff_cuts_sample : LowCleared sampleAlerts sampleWire 1000 sampleLow := by
  have hwaiting : WithinClearing 1000 sampleLow := ⟨by decide, by decide, by decide⟩
  exact (lowCleared_iff_cuts sampleAlerts sampleWire hwaiting).mpr
    ⟨sampleLow.take 2, sampleLow.drop 2, rfl, by decide, sampleLow.drop 2, [], rfl, by decide,
      cuts_nil 8⟩

def sampleBusy : List Operation :=
  (List.replicate 10 [.enqueue (sampleQueued .high 1000000), .epoch 0 ⟨1, false, []⟩]).flatten

def sampleLoop : SaturatingTransport := ⟨sampleSender ⟨4, ∅⟩, .new 1 [] 3600⟩

/-- A low Delta that is longer than its share of one epoch stays: what the share leaves unused is not
saved. -/
theorem low_delta_stays : WithinClearing 1000000 [sampleQueued .low 150000] ∧
    ¬LowCleared sampleAlerts sampleWire 1000000 [sampleQueued .low 150000] := by
  have haccepted : Guarded (step sampleAlerts sampleWire 1000000) (Accepted sampleWire 1000000)
      sampleLoop (.enqueue (sampleQueued .low 150000) :: sampleBusy) := by decide +kernel
  have hstays : ¬(run (step sampleAlerts sampleWire 1000000) sampleLoop
      (.enqueue (sampleQueued .low 150000) :: sampleBusy)).scheduler.lowQueue <:+
        lowArrivals sampleBusy := by decide +kernel
  refine ⟨⟨by decide, by decide, by decide⟩, fun h => hstays ?_⟩
  exact h sampleLoop [.enqueue (sampleQueued .low 150000)] sampleBusy ⟨rfl, 1, [], 3600, rfl⟩
    haccepted rfl rfl (by decide) (by decide)

end Sample

end SaturatingTransport

end TirBase
