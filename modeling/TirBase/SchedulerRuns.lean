import TirBase.DrrScheduler
import TirBase.TransitionRuns

/-! # Runs of the scheduler

What an epoch takes from the queues is told class by class. From it follow the order of each class
along a run, how much an epoch sends, and what is left of the floors. -/
namespace TirBase
open TransitionRuns

@[simp] theorem bytesOf_nil : bytesOf [] = 0 := rfl

@[simp] theorem bytesOf_cons (q : QueuedDelta) (queue : List QueuedDelta) :
    bytesOf (q :: queue) = q.serializedLen + bytesOf queue := by
  simp [bytesOf]

@[simp] theorem bytesOf_append (queue queue' : List QueuedDelta) :
    bytesOf (queue ++ queue') = bytesOf queue + bytesOf queue' := by
  simp [bytesOf]

theorem bytesOf_nonneg (queue : List QueuedDelta) : 0 ≤ bytesOf queue := by
  induction queue with
  | nil => simp
  | cons q queue ih =>
    rw [bytesOf_cons]
    omega

section Drain
variable {budget : ℤ} {queue : List QueuedDelta} {bytesSent : ℤ}

theorem bytesOf_drainQueue (queue : List QueuedDelta) (hsent : bytesSent ≤ max budget 0) :
    bytesSent + bytesOf (drainQueue budget queue bytesSent).1 ≤ max budget 0 := by
  induction queue generalizing bytesSent with
  | nil => simpa [drainQueue] using hsent
  | cons front queue ih =>
    simp only [drainQueue]
    split_ifs with hfits
    · have hrest := ih (hfits.trans (le_max_left _ _))
      simp only [bytesOf_cons]
      omega
    · simpa using hsent

/-- What stays in front did not fit any more. -/
theorem budget_lt_of_drainQueue {front : QueuedDelta} {rest : List QueuedDelta}
    (h : (drainQueue budget queue bytesSent).2 = front :: rest) :
    budget < bytesSent + bytesOf (drainQueue budget queue bytesSent).1 + front.serializedLen := by
  induction queue generalizing bytesSent with
  | nil => cases h
  | cons first queue ih =>
    simp only [drainQueue] at h ⊢
    split_ifs at h ⊢ with hfits
    · have hrest := ih h
      simp only [bytesOf_cons]
      omega
    · cases h
      simp only [bytesOf_nil]
      omega

/-- Every first part of the queue that fits the budget is sent. -/
theorem isInitial_drainQueue {sent : List QueuedDelta} (hinitial : sent <+: queue)
    (hfits : bytesSent + bytesOf sent ≤ budget) : sent <+: (drainQueue budget queue bytesSent).1 := by
  induction sent generalizing queue bytesSent with
  | nil => exact List.nil_prefix
  | cons q sent ih =>
    obtain ⟨rest, rfl⟩ := hinitial
    have hnonneg := bytesOf_nonneg sent
    rw [bytesOf_cons] at hfits
    simp only [List.cons_append, drainQueue]
    rw [if_pos (by omega)]
    have hrest := ih (List.prefix_append sent rest)
      (show bytesSent + (q.serializedLen : ℤ) + bytesOf sent ≤ budget by omega)
    exact List.cons_prefix_cons.mpr ⟨rfl, hrest⟩

/-- No longer part of the queue fits the budget. -/
theorem bytesOf_le_drainQueue {sent : List QueuedDelta} (hinitial : sent <+: queue)
    (hfits : bytesSent + bytesOf sent ≤ budget) :
    bytesOf sent ≤ bytesOf (drainQueue budget queue bytesSent).1 := by
  obtain ⟨more, hmore⟩ := isInitial_drainQueue hinitial hfits
  have hnonneg := bytesOf_nonneg more
  rw [← hmore, bytesOf_append]
  omega

theorem drainQueue_isInitial : (drainQueue budget queue bytesSent).1 <+: queue :=
  ⟨_, drainQueue_append budget queue bytesSent⟩

end Drain

namespace DrrScheduler

def queueOf (s : DrrScheduler) : PriorityClass → List QueuedDelta
  | .high => s.highQueue
  | .medium => s.mediumQueue
  | .low => s.lowQueue

def deficitOf (s : DrrScheduler) : PriorityClass → ℤ
  | .high => s.highDeficit
  | .medium => s.mediumDeficit
  | .low => s.lowDeficit

def quantumOf (s : DrrScheduler) : PriorityClass → ℕ
  | .high => s.highQuantum
  | .medium => s.mediumQuantum
  | .low => s.lowQuantum

def Served.of (served : Served) : PriorityClass → List QueuedDelta
  | .high => served.high
  | .medium => served.medium
  | .low => served.low

def classOf (p : PriorityClass) (queue : List QueuedDelta) : List QueuedDelta :=
  queue.filter fun q => q.delta.priority = p

/-- From each queue the first Deltas are sent and charged to its class. -/
structure Sends (s : DrrScheduler) (served : Served) (s' : DrrScheduler) : Prop where
  queue : ∀ p, served.of p ++ s'.queueOf p = s.queueOf p
  deficit : ∀ p, s'.deficitOf p = s.deficitOf p - bytesOf (served.of p)
  quantum : ∀ p, s'.quantumOf p = s.quantumOf p
  mode : s'.saturateMode = s.saturateMode

def Served.append (served served' : Served) : Served :=
  ⟨served.high ++ served'.high, served.medium ++ served'.medium, served.low ++ served'.low⟩

@[simp] theorem Served.of_append (served served' : Served) (p : PriorityClass) :
    (served.append served').of p = served.of p ++ served'.of p := by
  cases p <;> rfl

theorem Sends.trans {s s' s'' : DrrScheduler} {served served' : Served} (h : s.Sends served s')
    (h' : s'.Sends served' s'') : s.Sends (served.append served') s'' := by
  refine ⟨fun p => ?_, fun p => ?_, fun p => (h'.quantum p).trans (h.quantum p),
    h'.mode.trans h.mode⟩
  · rw [Served.of_append, List.append_assoc, h'.queue p, h.queue p]
  · rw [Served.of_append, h'.deficit p, h.deficit p, bytesOf_append]
    omega

def Served.only (p : PriorityClass) (sent : List QueuedDelta) : Served :=
  match p with
  | .high => ⟨sent, [], []⟩
  | .medium => ⟨[], sent, []⟩
  | .low => ⟨[], [], sent⟩

theorem sends_none (s : DrrScheduler) (p : PriorityClass) : s.Sends (.only p []) s := by
  have hof : ∀ p', (Served.only p []).of p' = [] := by
    intro p'
    cases p <;> cases p' <;> rfl
  exact ⟨fun p' => by rw [hof, List.nil_append], fun p' => by simp [hof], fun p' => rfl, rfl⟩

theorem sends_drainHigh (s : DrrScheduler) (budget : ℤ) :
    s.Sends (.only .high (s.drainHigh budget).1) (s.drainHigh budget).2 := by
  refine ⟨fun p => ?_, fun p => ?_, fun p => ?_, rfl⟩ <;> cases p
  case refine_1.high => exact drainQueue_append budget s.highQueue 0
  all_goals simp [queueOf, deficitOf, quantumOf, Served.of, Served.only, drainHigh]

theorem sends_drainMedium (s : DrrScheduler) (budget : ℤ) :
    s.Sends (.only .medium (s.drainMedium budget).1) (s.drainMedium budget).2 := by
  refine ⟨fun p => ?_, fun p => ?_, fun p => ?_, rfl⟩ <;> cases p
  case refine_1.medium => exact drainQueue_append budget s.mediumQueue 0
  all_goals simp [queueOf, deficitOf, quantumOf, Served.of, Served.only, drainMedium]

theorem sends_drainLow (s : DrrScheduler) (budget : ℤ) :
    s.Sends (.only .low (s.drainLow budget).1) (s.drainLow budget).2 := by
  refine ⟨fun p => ?_, fun p => ?_, fun p => ?_, rfl⟩ <;> cases p
  case refine_1.low => exact drainQueue_append budget s.lowQueue 0
  all_goals simp [queueOf, deficitOf, quantumOf, Served.of, Served.only, drainLow]

theorem sends_drainSpare {drain : DrrScheduler → ℤ → List QueuedDelta × DrrScheduler}
    {p : PriorityClass}
    (hdrain : ∀ (s : DrrScheduler) (budget : ℤ),
      s.Sends (.only p (drain s budget).1) (drain s budget).2)
    (queue : DrrScheduler → List QueuedDelta) (s : DrrScheduler) (spare : ℤ) :
    s.Sends (.only p (drainSpare drain queue s spare).1) (drainSpare drain queue s spare).2 := by
  unfold drainSpare
  split_ifs
  · exact hdrain s spare
  · exact sends_none s p

theorem sends_redistribute (s : DrrScheduler) (spare : ℤ) :
    s.Sends (s.redistribute spare).1 (s.redistribute spare).2 := by
  have hhigh := sends_drainSpare sends_drainHigh highQueue s spare
  have hmedium := sends_drainSpare sends_drainMedium mediumQueue
    (drainSpare drainHigh highQueue s spare).2
    (spare - bytesOf (drainSpare drainHigh highQueue s spare).1)
  have hlow := sends_drainSpare sends_drainLow lowQueue
    (drainSpare drainMedium mediumQueue (drainSpare drainHigh highQueue s spare).2
      (spare - bytesOf (drainSpare drainHigh highQueue s spare).1)).2
    (spare - bytesOf (drainSpare drainHigh highQueue s spare).1 -
      bytesOf (drainSpare drainMedium mediumQueue (drainSpare drainHigh highQueue s spare).2
        (spare - bytesOf (drainSpare drainHigh highQueue s spare).1)).1)
  simpa [Served.append, Served.only, redistribute] using (hhigh.trans hmedium).trans hlow

/-- The spare bandwidth is an upper bound of what it pays for. -/
theorem bytesOf_redistribute (s : DrrScheduler) (spare : ℤ) :
    bytesOf (s.redistribute spare).1.all ≤ max spare 0 := by
  have hdrain : ∀ (drain : DrrScheduler → ℤ → List QueuedDelta × DrrScheduler) queue
      (_ : ∀ s spare, bytesOf (drain s spare).1 ≤ max spare 0) (s : DrrScheduler) (spare : ℤ),
      bytesOf (drainSpare drain queue s spare).1 ≤ max spare 0 ∧
        (spare ≤ 0 → bytesOf (drainSpare drain queue s spare).1 = 0) := by
    intro drain queue hdrain s spare
    unfold drainSpare
    split_ifs with hspare
    · exact ⟨hdrain s spare, fun h => by omega⟩
    · exact ⟨by simp, fun _ => rfl⟩
  have hbudget : ∀ (budget : ℤ) (queue : List QueuedDelta),
      bytesOf (drainQueue budget queue 0).1 ≤ max budget 0 := by
    intro budget queue
    simpa using bytesOf_drainQueue queue (le_max_right budget 0)
  have hhigh := hdrain drainHigh highQueue (fun s b => hbudget b s.highQueue) s spare
  have hmedium := hdrain drainMedium mediumQueue (fun s b => hbudget b s.mediumQueue)
    (drainSpare drainHigh highQueue s spare).2
    (spare - bytesOf (drainSpare drainHigh highQueue s spare).1)
  have hlow := hdrain drainLow lowQueue (fun s b => hbudget b s.lowQueue)
    (drainSpare drainMedium mediumQueue (drainSpare drainHigh highQueue s spare).2
      (spare - bytesOf (drainSpare drainHigh highQueue s spare).1)).2
    (spare - bytesOf (drainSpare drainHigh highQueue s spare).1 -
      bytesOf (drainSpare drainMedium mediumQueue (drainSpare drainHigh highQueue s spare).2
        (spare - bytesOf (drainSpare drainHigh highQueue s spare).1)).1)
  simp only [redistribute, Served.all, bytesOf_append]
  omega

def floorOf (s : DrrScheduler) (p : PriorityClass) : List QueuedDelta :=
  (drainQueue (s.deficitOf p + s.quantumOf p) (s.queueOf p) 0).1

/-- What an epoch sends beyond that, out of the spare bandwidth. -/
def extraOf (s : DrrScheduler) (linkCapacityBytes : ℕ) : Served :=
  (s.addQuanta.serveFloors.2.redistribute ((linkCapacityBytes : ℤ) -
    (bytesOf (s.floorOf .high) + bytesOf (s.floorOf .medium) + bytesOf (s.floorOf .low)))).1

def served (s : DrrScheduler) (linkCapacityBytes : ℕ) : Served :=
  if s.saturateMode then .only .high (s.drainHigh linkCapacityBytes).1
  else Served.append ⟨s.floorOf .high, s.floorOf .medium, s.floorOf .low⟩
    (s.extraOf linkCapacityBytes)

/-- In normal mode a class gets its floor, and then its part of the spare bandwidth. -/
theorem served_of_normal {s : DrrScheduler} (hmode : s.saturateMode = false)
    (linkCapacityBytes : ℕ) (p : PriorityClass) :
    (s.served linkCapacityBytes).of p =
      s.floorOf p ++ (s.extraOf linkCapacityBytes).of p := by
  rw [served, if_neg (by simp [hmode]), Served.of_append]
  cases p <;> rfl

theorem tick_fst (s : DrrScheduler) (linkCapacityBytes : ℕ) :
    (s.tick linkCapacityBytes).1 = (s.served linkCapacityBytes).all := by
  unfold tick served
  split_ifs
  · simp [Served.all, Served.only]
  · rfl

theorem sends_serveFloors (s : DrrScheduler) :
    s.addQuanta.Sends ⟨s.floorOf .high, s.floorOf .medium, s.floorOf .low⟩
      s.addQuanta.serveFloors.2 := by
  have hall := ((sends_drainHigh s.addQuanta s.addQuanta.highDeficit).trans
    (sends_drainMedium _ s.addQuanta.mediumDeficit)).trans (sends_drainLow _ s.addQuanta.lowDeficit)
  simpa [Served.append, Served.only, serveFloors, drainHigh, drainMedium, drainLow, addQuanta,
    floorOf, queueOf, deficitOf, quantumOf] using hall

/-- An epoch adds the quanta in normal mode, and takes what it sends from the queues. -/
theorem sends_tick (s : DrrScheduler) (linkCapacityBytes : ℕ) :
    (if s.saturateMode then s else s.addQuanta).Sends (s.served linkCapacityBytes)
      (s.tick linkCapacityBytes).2 := by
  unfold tick served
  split_ifs
  · exact sends_drainHigh s _
  · exact (sends_serveFloors s).trans (sends_redistribute _ _)

@[simp] theorem queueOf_addQuanta (s : DrrScheduler) (p : PriorityClass) :
    s.addQuanta.queueOf p = s.queueOf p := by
  cases p <;> rfl

@[simp] theorem deficitOf_addQuanta (s : DrrScheduler) (p : PriorityClass) :
    s.addQuanta.deficitOf p = s.deficitOf p + s.quantumOf p := by
  cases p <;> rfl

@[simp] theorem quantumOf_addQuanta (s : DrrScheduler) (p : PriorityClass) :
    s.addQuanta.quantumOf p = s.quantumOf p := by
  cases p <;> rfl

theorem served_append_queueOf (s : DrrScheduler) (linkCapacityBytes : ℕ) (p : PriorityClass) :
    (s.served linkCapacityBytes).of p ++ (s.tick linkCapacityBytes).2.queueOf p = s.queueOf p := by
  have hqueue := (sends_tick s linkCapacityBytes).queue p
  split_ifs at hqueue
  · exact hqueue
  · rwa [queueOf_addQuanta] at hqueue

theorem quantumOf_tick (s : DrrScheduler) (linkCapacityBytes : ℕ) (p : PriorityClass) :
    (s.tick linkCapacityBytes).2.quantumOf p = s.quantumOf p := by
  have hquantum := (sends_tick s linkCapacityBytes).quantum p
  split_ifs at hquantum
  · exact hquantum
  · rwa [quantumOf_addQuanta] at hquantum

theorem saturateMode_tick (s : DrrScheduler) (linkCapacityBytes : ℕ) :
    (s.tick linkCapacityBytes).2.saturateMode = s.saturateMode := by
  have hmode := (sends_tick s linkCapacityBytes).mode
  split_ifs at hmode
  · exact hmode
  · exact hmode

theorem deficitOf_tick {s : DrrScheduler} (hmode : s.saturateMode = false) (linkCapacityBytes : ℕ)
    (p : PriorityClass) : (s.tick linkCapacityBytes).2.deficitOf p =
      s.deficitOf p + s.quantumOf p - bytesOf ((s.served linkCapacityBytes).of p) := by
  have hdeficit := (sends_tick s linkCapacityBytes).deficit p
  rw [if_neg (by simp [hmode]), deficitOf_addQuanta] at hdeficit
  exact hdeficit

inductive SchedulerOperation
  | enqueue (q : QueuedDelta)
  | tick (linkCapacityBytes : ℕ)
  | updateLinkCapacity (linkCapacityBytesPerSec : ℕ)
  | setSaturateMode (active : Bool)
  deriving DecidableEq

def step (s : DrrScheduler) : SchedulerOperation → DrrScheduler × List QueuedDelta
  | .enqueue q => (s.enqueue q, [])
  | .tick linkCapacityBytes =>
    ((s.tick linkCapacityBytes).2, (s.tick linkCapacityBytes).1)
  | .updateLinkCapacity linkCapacityBytesPerSec => (s.updateLinkCapacity linkCapacityBytesPerSec, [])
  | .setSaturateMode active => (s.setSaturateMode active, [])

def advance (s : DrrScheduler) (op : SchedulerOperation) : DrrScheduler := (s.step op).1

def enqueued (ops : List SchedulerOperation) : List QueuedDelta :=
  ops.flatMap fun op => match op with
    | .enqueue q => [q]
    | _ => []

def Classed (s : DrrScheduler) : Prop := ∀ p, ∀ q ∈ s.queueOf p, q.delta.priority = p

theorem queueOf_enqueue (s : DrrScheduler) (q : QueuedDelta) (p : PriorityClass) :
    (s.enqueue q).queueOf p = s.queueOf p ++ classOf p [q] := by
  cases hpriority : q.delta.priority <;> cases p <;>
    simp [enqueue, queueOf, classOf, hpriority]

@[simp] theorem queueOf_updateLinkCapacity (s : DrrScheduler) (c : ℕ) (p : PriorityClass) :
    (s.updateLinkCapacity c).queueOf p = s.queueOf p := by
  cases p <;> rfl

@[simp] theorem queueOf_setSaturateMode (s : DrrScheduler) (active : Bool) (p : PriorityClass) :
    (s.setSaturateMode active).queueOf p = s.queueOf p := by
  cases active <;> cases p <;> rfl

theorem quantumOf_enqueue (s : DrrScheduler) (q : QueuedDelta) (p : PriorityClass) :
    (s.enqueue q).quantumOf p = s.quantumOf p := by
  cases hpriority : q.delta.priority <;> cases p <;> simp [enqueue, hpriority, quantumOf]

theorem quantumOf_setSaturateMode (s : DrrScheduler) (active : Bool) (p : PriorityClass) :
    (s.setSaturateMode active).quantumOf p = s.quantumOf p := by
  cases active <;> cases p <;> rfl

theorem classed_new (linkCapacityBytesPerSec : ℕ) : (new linkCapacityBytesPerSec).Classed := by
  intro p q hq
  cases p <;> cases hq

theorem classed_advance (s : DrrScheduler) (op : SchedulerOperation) (h : s.Classed) :
    (s.advance op).Classed := by
  intro p q hq
  cases op with
  | enqueue q' =>
    simp only [advance, step, queueOf_enqueue, List.mem_append, classOf, List.mem_filter,
      decide_eq_true_eq] at hq
    exact hq.elim (h p q) And.right
  | tick c =>
    apply h p q
    rw [← served_append_queueOf s c p]
    exact List.mem_append_right _ hq
  | updateLinkCapacity c => exact h p q (by simpa [advance, step] using hq)
  | setSaturateMode active => exact h p q (by simpa [advance, step] using hq)

theorem classed_run {s : DrrScheduler} (h : s.Classed) (ops : List SchedulerOperation) :
    (run advance s ops).Classed :=
  invariant_run classed_advance ops h

/-- What an epoch sends for a class is what leaves the queue of the class. -/
theorem classOf_tick {s : DrrScheduler} (h : s.Classed) (c : ℕ) (p : PriorityClass) :
    classOf p (s.tick c).1 = (s.served c).of p := by
  have hclass : ∀ p', ∀ q ∈ (s.served c).of p', q.delta.priority = p' := by
    intro p' q hq
    apply h p' q
    rw [← served_append_queueOf s c p']
    exact List.mem_append_left _ hq
  have hof : ∀ p', classOf p ((s.served c).of p') =
      if p' = p then (s.served c).of p else [] := by
    intro p'
    split_ifs with hp
    · subst hp
      exact List.filter_eq_self.mpr fun q hq => by simpa using hclass p' q hq
    · exact List.filter_eq_nil_iff.mpr fun q hq => by simpa [hclass p' q hq] using hp
  have hsplit : (s.served c).all =
      (s.served c).of .high ++ (s.served c).of .medium ++ (s.served c).of .low := rfl
  rw [tick_fst, hsplit, classOf, List.filter_append, List.filter_append]
  have hhigh := hof .high
  have hmedium := hof .medium
  have hlow := hof .low
  unfold classOf at hhigh hmedium hlow
  rw [hhigh, hmedium, hlow]
  cases p <;> simp

theorem classOf_append (p : PriorityClass) (queue queue' : List QueuedDelta) :
    classOf p (queue ++ queue') = classOf p queue ++ classOf p queue' :=
  List.filter_append ..

/-- One operation neither loses nor reorders what a class waits for. -/
theorem classOf_step {s : DrrScheduler} (h : s.Classed) (op : SchedulerOperation)
    (p : PriorityClass) : classOf p (s.step op).2 ++ (s.step op).1.queueOf p =
      s.queueOf p ++ classOf p (enqueued [op]) := by
  cases op with
  | enqueue q => simpa [step, enqueued, classOf] using queueOf_enqueue s q p
  | tick c =>
    simp only [step]
    rw [classOf_tick h, served_append_queueOf]
    simp [enqueued, classOf]
  | updateLinkCapacity c => simp [step, enqueued, classOf]
  | setSaturateMode active => simp [step, enqueued, classOf]

/-- What was handed on for a class, and then its queue: what it had, and then what was entered. -/
theorem classOf_emitted {s : DrrScheduler} (h : s.Classed) (ops : List SchedulerOperation)
    (p : PriorityClass) : classOf p (emitted step s ops) ++ (run advance s ops).queueOf p =
      s.queueOf p ++ classOf p (enqueued ops) := by
  induction ops generalizing s with
  | nil => simp [enqueued, classOf]
  | cons op ops ih =>
    have hrest := ih (classed_advance s op h)
    have hone := classOf_step h op p
    have hcons : enqueued (op :: ops) = enqueued [op] ++ enqueued ops := by simp [enqueued]
    calc classOf p (emitted step s (op :: ops)) ++ (run advance s (op :: ops)).queueOf p
        = classOf p (s.step op).2 ++ (classOf p (emitted step (s.advance op) ops) ++
            (run advance (s.advance op) ops).queueOf p) := by
          rw [emitted_cons, run_cons, classOf_append, List.append_assoc]
          rfl
      _ = classOf p (s.step op).2 ++ (s.step op).1.queueOf p ++ classOf p (enqueued ops) := by
          rw [hrest, ← List.append_assoc]
          rfl
      _ = s.queueOf p ++ classOf p (enqueued (op :: ops)) := by
          rw [hone, hcons, classOf_append, List.append_assoc]

/-- Every class is served in order and nothing of it is lost; in Saturate Mode nothing else than the
high class is served. -/
theorem served_in_order (link : ℕ) (ops : List SchedulerOperation) :
    (∀ p, classOf p (emitted step (new link) ops) ++ (run advance (new link) ops).queueOf p =
      classOf p (enqueued ops)) ∧
    ((run advance (new link) ops).saturateMode = true → ∀ linkCapacityBytes,
      ∀ q ∈ ((run advance (new link) ops).tick linkCapacityBytes).1, q.delta.priority = .high) := by
  refine ⟨fun p => ?_, fun hmode c q hq => ?_⟩
  · rw [classOf_emitted (classed_new link) ops p]
    cases p <;> rfl
  · have hclassed := classed_run (classed_new link) ops
    apply hclassed .high q
    rw [← served_append_queueOf _ c .high]
    apply List.mem_append_left
    rw [tick_fst] at hq
    simp only [served, if_pos hmode] at hq ⊢
    simpa [Served.all, Served.only, Served.of] using hq

end DrrScheduler

end TirBase
