import TirBase.SchedulerRuns

/-! # How much the scheduler sends

An epoch serves the floors without a look at the link, and it charges the spare bandwidth that it
gives away to the deficits. The first decides when an epoch exceeds the link, the second when a class
that waits is sure of its floor. -/
namespace TirBase
open TransitionRuns

namespace DrrScheduler

/-- A first part of a queue that the deficit and the quantum of the class pay for. -/
def Fits (s : DrrScheduler) (p : PriorityClass) (sent : List QueuedDelta) : Prop :=
  sent <+: s.queueOf p ∧ (sent = [] ∨ bytesOf sent ≤ s.deficitOf p + s.quantumOf p)

/-- In normal mode, whatever fits the three deficits fits the link too. -/
def FloorsFit (s : DrrScheduler) (linkCapacityBytes : ℕ) : Prop :=
  s.saturateMode = false → ∀ high medium low, s.Fits .high high → s.Fits .medium medium →
    s.Fits .low low → bytesOf high + bytesOf medium + bytesOf low ≤ linkCapacityBytes

theorem fits_floorOf (s : DrrScheduler) (p : PriorityClass) : s.Fits p (s.floorOf p) := by
  refine ⟨drainQueue_isInitial, ?_⟩
  have hbytes := bytesOf_drainQueue (s.queueOf p)
    (le_max_right (s.deficitOf p + s.quantumOf p) 0)
  rw [Int.zero_add] at hbytes
  by_cases hnonneg : 0 ≤ s.deficitOf p + s.quantumOf p
  · rw [max_eq_left hnonneg] at hbytes
    exact .inr hbytes
  · left
    unfold floorOf
    cases hqueue : s.queueOf p with
    | nil => rfl
    | cons front queue =>
      simp only [drainQueue]
      rw [if_neg (by omega)]

theorem Fits.bytesOf_le {s : DrrScheduler} {p : PriorityClass} {sent : List QueuedDelta}
    (h : s.Fits p sent) : bytesOf sent ≤ bytesOf (s.floorOf p) := by
  rcases h.2 with rfl | hfits
  · exact bytesOf_nonneg _
  · exact bytesOf_le_drainQueue h.1 (by omega)

theorem floorsFit_iff {s : DrrScheduler} (hmode : s.saturateMode = false) (c : ℕ) :
    s.FloorsFit c ↔ bytesOf (s.floorOf .high) + bytesOf (s.floorOf .medium) +
      bytesOf (s.floorOf .low) ≤ c := by
  constructor
  · intro h
    exact h hmode _ _ _ (fits_floorOf s _) (fits_floorOf s _) (fits_floorOf s _)
  · intro h _ high medium low hhigh hmedium hlow
    have h₁ := hhigh.bytesOf_le
    have h₂ := hmedium.bytesOf_le
    have h₃ := hlow.bytesOf_le
    omega

theorem bytesOf_tick_le_iff (s : DrrScheduler) (c : ℕ) :
    bytesOf (s.tick c).1 ≤ c ↔ s.FloorsFit c := by
  cases hmode : s.saturateMode with
  | true =>
    have hbytes : bytesOf (s.tick c).1 ≤ c := by
      have hdrain := bytesOf_drainQueue s.highQueue (le_max_right (c : ℤ) 0)
      rw [tick, if_pos hmode]
      simpa [drainHigh] using hdrain
    exact iff_of_true hbytes fun h => by simp [hmode] at h
  | false =>
    have hextra := bytesOf_redistribute s.addQuanta.serveFloors.2 ((c : ℤ) -
      (bytesOf (s.floorOf .high) + bytesOf (s.floorOf .medium) + bytesOf (s.floorOf .low)))
    have hextra' : bytesOf (s.extraOf c).all ≤ max ((c : ℤ) - (bytesOf (s.floorOf .high) +
      bytesOf (s.floorOf .medium) + bytesOf (s.floorOf .low))) 0 := hextra
    have hnonneg := bytesOf_nonneg (s.extraOf c).all
    have hsum : bytesOf (s.tick c).1 = bytesOf (s.floorOf .high) + bytesOf (s.floorOf .medium) +
        bytesOf (s.floorOf .low) + bytesOf (s.extraOf c).all := by
      rw [tick_fst, served, if_neg (by simp [hmode])]
      simp only [Served.all, Served.append, bytesOf_append]
      omega
    rw [floorsFit_iff hmode, hsum]
    omega

/-- The epochs of a run keep to the link exactly when none of them starts with deficits that pay for
more than it. -/
theorem epochs_within_link_iff_floorsFit (link : ℕ) (ops : List SchedulerOperation) :
    (∀ earlier c rest, ops = earlier ++ .tick c :: rest →
      bytesOf ((run advance (new link) earlier).tick c).1 ≤ c) ↔
    Guarded advance (fun s op => ∀ c, op = .tick c → s.FloorsFit c) (new link) ops := by
  rw [guarded_iff_splits]
  constructor
  · intro h earlier op rest hsplit c hop
    subst hop
    exact (bytesOf_tick_le_iff _ c).mp (h earlier c rest hsplit)
  · intro h earlier c rest hsplit
    exact (bytesOf_tick_le_iff _ c).mpr (h earlier (.tick c) rest hsplit c rfl)

section Sample

def sampleQueued (p : PriorityClass) (bytes : ℕ) : QueuedDelta :=
  ⟨⟨0, "did:key:test", [], 0, [], p, [], [], 1, 0⟩, bytes, 0⟩

/-- After one idle epoch a link of 1000 bytes is given 1400. -/
theorem idle_epoch_saved :
    ¬bytesOf ((run advance (new 1000) [.tick 1000, .enqueue (sampleQueued .high 700),
      .enqueue (sampleQueued .high 700)]).tick 1000).1 ≤ (1000 : ℕ) := by
  decide +kernel

end Sample

def quantumAt (linkCapacityBytesPerSec : ℕ) : PriorityClass → ℕ
  | .high => linkCapacityBytesPerSec * 70 / 100
  | .medium => linkCapacityBytesPerSec * 20 / 100
  | .low => linkCapacityBytesPerSec * 10 / 100

def ticks (ops : List SchedulerOperation) : ℕ :=
  (ops.map fun op => match op with
    | .tick _ => 1
    | _ => 0).sum

/-- The operations of normal mode over a link that stays as it is. -/
def Steady (link : ℕ) : SchedulerOperation → Prop
  | .enqueue _ => True
  | .tick c => c = link
  | .updateLinkCapacity c => c = link
  | .setSaturateMode active => active = false

/-- A window of epochs in normal mode over one link; the class waits all the time. -/
structure Window (p : PriorityClass) (link : ℕ) (s : DrrScheduler)
    (ops : List SchedulerOperation) : Prop where
  quanta : ∀ p, s.quantumOf p = quantumAt link p
  normal : s.saturateMode = false
  steady : ∀ op ∈ ops, Steady link op
  backlogged : ∀ earlier, earlier <+: ops → (run advance s earlier).queueOf p ≠ []

/-- The class sends its quantum in each epoch, but for one of its packets. -/
def FloorKept (p : PriorityClass) (link : ℕ) (s : DrrScheduler)
    (ops : List SchedulerOperation) : Prop :=
  ∃ packet ∈ s.queueOf p ++ classOf p (enqueued ops),
    (ticks ops : ℤ) * quantumAt link p ≤
      bytesOf (classOf p (emitted step s ops)) + packet.serializedLen

/-- The class has no debt when the window starts, and no reset takes credit from it. -/
def Solvent (p : PriorityClass) (s : DrrScheduler) (ops : List SchedulerOperation) : Prop :=
  0 ≤ s.deficitOf p ∧
    Guarded advance (fun s op => op = .setSaturateMode false → s.deficitOf p ≤ 0) s ops

theorem quantumOf_new (link : ℕ) (p : PriorityClass) : (new link).quantumOf p = quantumAt link p := by
  cases p <;> rfl

theorem ticks_cons (op : SchedulerOperation) (ops : List SchedulerOperation) :
    ticks (op :: ops) = ticks [op] + ticks ops := by
  simp [ticks]

theorem ticks_append (ops ops' : List SchedulerOperation) :
    ticks (ops ++ ops') = ticks ops + ticks ops' := by
  simp [ticks]

section Credit
variable {p : PriorityClass} {link : ℕ} {s : DrrScheduler}

theorem deficitOf_setSaturateMode_false (s : DrrScheduler) (p : PriorityClass) :
    (s.setSaturateMode false).deficitOf p = 0 := by
  cases p <;> rfl

theorem steady_advance {op : SchedulerOperation} (hop : Steady link op)
    (hquanta : ∀ p, s.quantumOf p = quantumAt link p) (hnormal : s.saturateMode = false) :
    (∀ p, (s.advance op).quantumOf p = quantumAt link p) ∧
      (s.advance op).saturateMode = false := by
  cases op with
  | enqueue q =>
    constructor
    · exact fun p => (quantumOf_enqueue s q p).trans (hquanta p)
    · cases hpriority : q.delta.priority <;> simpa [advance, step, enqueue, hpriority] using hnormal
  | tick c =>
    exact ⟨fun p => (quantumOf_tick s c p).trans (hquanta p), (saturateMode_tick s c).trans hnormal⟩
  | updateLinkCapacity c =>
    cases hop
    exact ⟨fun p => by cases p <;> rfl, hnormal⟩
  | setSaturateMode active =>
    cases hop
    exact ⟨fun p => (quantumOf_setSaturateMode s false p).trans (hquanta p), rfl⟩

theorem steady_run {ops : List SchedulerOperation} (hops : ∀ op ∈ ops, Steady link op)
    (hquanta : ∀ p, s.quantumOf p = quantumAt link p) (hnormal : s.saturateMode = false) :
    (∀ p, (run advance s ops).quantumOf p = quantumAt link p) ∧
      (run advance s ops).saturateMode = false := by
  induction ops generalizing s with
  | nil => exact ⟨hquanta, hnormal⟩
  | cons op ops ih =>
    obtain ⟨hquanta', hnormal'⟩ := steady_advance (hops op List.mem_cons_self) hquanta hnormal
    exact ih (fun o ho => hops o (List.mem_cons_of_mem op ho)) hquanta' hnormal'

/-- What a class sends and what it is then owed grow with its quantum at every epoch. -/
theorem credit_step (hclassed : s.Classed) {op : SchedulerOperation} (hop : Steady link op)
    (hquanta : ∀ p, s.quantumOf p = quantumAt link p) (hnormal : s.saturateMode = false)
    (hkept : op = .setSaturateMode false → s.deficitOf p ≤ 0) :
    s.deficitOf p + (ticks [op] : ℤ) * quantumAt link p ≤
      bytesOf (classOf p (s.step op).2) + (s.advance op).deficitOf p := by
  cases op with
  | enqueue q =>
    have hdeficit : (s.enqueue q).deficitOf p = s.deficitOf p := by
      cases hpriority : q.delta.priority <;> cases p <;> simp [enqueue, hpriority, deficitOf]
    simp [ticks, advance, step, classOf, hdeficit]
  | tick c =>
    have hdeficit := deficitOf_tick hnormal c p
    rw [hquanta p] at hdeficit
    simp only [ticks, advance, step, classOf_tick hclassed, hdeficit, List.map_cons, List.map_nil,
      List.sum_cons, List.sum_nil]
    push_cast
    omega
  | updateLinkCapacity c =>
    have hdeficit : (s.updateLinkCapacity c).deficitOf p = s.deficitOf p := by cases p <;> rfl
    simp [ticks, advance, step, classOf, hdeficit]
  | setSaturateMode active =>
    cases hop
    have hdebt := hkept rfl
    simpa [ticks, advance, step, classOf, deficitOf_setSaturateMode_false] using hdebt

theorem credit_run (hclassed : s.Classed) {ops : List SchedulerOperation}
    (hops : ∀ op ∈ ops, Steady link op) (hquanta : ∀ p, s.quantumOf p = quantumAt link p)
    (hnormal : s.saturateMode = false)
    (hkept : Guarded advance (fun s op => op = .setSaturateMode false → s.deficitOf p ≤ 0) s ops) :
    s.deficitOf p + (ticks ops : ℤ) * quantumAt link p ≤
      bytesOf (classOf p (emitted step s ops)) + (run advance s ops).deficitOf p := by
  induction ops generalizing s with
  | nil => simp [ticks, classOf]
  | cons op ops ih =>
    have hop := hops op List.mem_cons_self
    have hone := credit_step hclassed hop hquanta hnormal hkept.1
    obtain ⟨hquanta', hnormal'⟩ := steady_advance hop hquanta hnormal
    have hrest := ih (classed_advance s op hclassed)
      (fun o ho => hops o (List.mem_cons_of_mem op ho)) hquanta' hnormal' hkept.2
    rw [ticks_cons, emitted_cons, run_cons, classOf_append, bytesOf_append]
    rw [show (s.step op).1 = s.advance op from rfl]
    push_cast
    rw [Int.add_mul]
    omega

/-- After an epoch a class that still waits is owed less than one packet. -/
theorem deficitOf_tick_lt (hnormal : s.saturateMode = false) {c : ℕ}
    (hbacklog : (s.tick c).2.queueOf p ≠ []) :
    ∃ packet ∈ s.queueOf p, (s.tick c).2.deficitOf p < packet.serializedLen := by
  have hserved := served_of_normal hnormal c p
  have hqueue := served_append_queueOf s c p
  have hdrain : s.floorOf p ++ (drainQueue (s.deficitOf p + s.quantumOf p) (s.queueOf p) 0).2 =
      s.queueOf p := drainQueue_append _ _ _
  cases hrest : (drainQueue (s.deficitOf p + s.quantumOf p) (s.queueOf p) 0).2 with
  | nil =>
    rw [hserved, ← hdrain, hrest, List.append_nil, List.append_assoc] at hqueue
    have hnil := List.append_right_eq_self.mp hqueue
    exact absurd (List.append_eq_nil_iff.mp hnil).2 hbacklog
  | cons front rest =>
    refine ⟨front, ?_, ?_⟩
    · rw [← hdrain, hrest]
      simp
    · have hlt := budget_lt_of_drainQueue hrest
      have hextra := bytesOf_nonneg ((s.extraOf c).of p)
      rw [deficitOf_tick hnormal, hserved, bytesOf_append]
      simp only [floorOf] at hlt ⊢
      omega

theorem exists_last_tick {ops : List SchedulerOperation} (h : ticks ops ≠ 0) :
    ∃ before c after, ops = before ++ .tick c :: after ∧ ticks after = 0 := by
  induction ops with
  | nil => exact absurd rfl h
  | cons op ops ih =>
    by_cases hrest : ticks ops = 0
    · cases op with
      | tick c => exact ⟨[], c, ops, rfl, hrest⟩
      | _ => exact absurd ((ticks_cons _ ops).trans (by simpa [ticks] using hrest)) h
    · obtain ⟨before, c, after, rfl, hafter⟩ := ih hrest
      exact ⟨op :: before, c, after, rfl, hafter⟩

end Credit

/-- A class that starts a window without debt is served its floor, whatever happened before. -/
theorem floorKept_of_solvent (link : ℕ) (earlier : List SchedulerOperation) {p : PriorityClass}
    {windowLink : ℕ} {ops : List SchedulerOperation}
    (hwindow : Window p windowLink (run advance (new link) earlier) ops)
    (hsolvent : Solvent p (run advance (new link) earlier) ops) :
    FloorKept p windowLink (run advance (new link) earlier) ops := by
  have hclassed := classed_run (classed_new link) earlier
  generalize run advance (new link) earlier = s at hclassed hwindow hsolvent ⊢
  by_cases hticks : ticks ops = 0
  · obtain ⟨packet, hpacket⟩ := List.exists_mem_of_ne_nil _ (hwindow.backlogged [] (by simp))
    refine ⟨packet, List.mem_append_left _ hpacket, ?_⟩
    have hnonneg := bytesOf_nonneg (classOf p (emitted step s ops))
    rw [hticks]
    omega
  · obtain ⟨before, c, after, rfl, hafter⟩ := exists_last_tick hticks
    have hsplit : before ++ .tick c :: after = (before ++ [.tick c]) ++ after := by simp
    have hops : ∀ op ∈ before ++ [.tick c], Steady windowLink op := fun op hop =>
      hwindow.steady op (by rw [hsplit]; exact List.mem_append_left _ hop)
    have hkept := hsolvent.2
    rw [hsplit, guarded_append] at hkept
    have hcredit := credit_run hclassed hops hwindow.quanta hwindow.normal hkept.1
    have hclassed' := classed_run hclassed before
    -- the last epoch leaves less credit than a packet that was waiting then
    have hnormal := (steady_run (fun op hop => hops op (List.mem_append_left _ hop)) hwindow.quanta
      hwindow.normal).2
    have hbacklog := hwindow.backlogged (before ++ [.tick c]) (by rw [hsplit]; simp)
    rw [run_append] at hbacklog hcredit
    obtain ⟨packet, hpacket, hlt⟩ := deficitOf_tick_lt hnormal hbacklog
    have hlt' : ((run advance s before).advance (.tick c)).deficitOf p < packet.serializedLen := hlt
    refine ⟨packet, ?_, ?_⟩
    · have hfifo := classOf_emitted hclassed before p
      have hmem : packet ∈ s.queueOf p ++ classOf p (enqueued before) := by
        rw [← hfifo]
        exact List.mem_append_right _ hpacket
      have henqueued : enqueued (before ++ .tick c :: after) = enqueued before ++ enqueued after := by
        simp [enqueued]
      rw [henqueued, classOf_append, ← List.append_assoc]
      exact List.mem_append_left _ hmem
    · have hnonneg := bytesOf_nonneg (classOf p (emitted step
        (run (fun s op => (step s op).1) s (before ++ [.tick c])) after))
      rw [hsplit, emitted_append, classOf_append, bytesOf_append, ticks_append, hafter,
        Nat.add_zero]
      have hdebt := hsolvent.1
      simp only [run_cons, run_nil] at hcredit
      omega

section Sample

def sampleWindow : List SchedulerOperation := [.tick 1000, .tick 1000]

theorem window_sampleWindow {p : PriorityClass} {s : DrrScheduler}
    (hquanta : ∀ p, s.quantumOf p = quantumAt 1000 p) (hnormal : s.saturateMode = false)
    (hstart : s.queueOf p ≠ []) (hfirst : (run advance s [.tick 1000]).queueOf p ≠ [])
    (hsecond : (run advance s [.tick 1000, .tick 1000]).queueOf p ≠ []) :
    Window p 1000 s sampleWindow := by
  refine ⟨hquanta, hnormal, fun op hop => ?_, fun earlier hearlier => ?_⟩
  · simp only [sampleWindow, List.mem_cons, List.not_mem_nil, or_false, or_self] at hop
    subst hop
    rfl
  · simp only [sampleWindow, List.prefix_cons_iff, List.prefix_nil] at hearlier
    rcases hearlier with rfl | ⟨_, rfl, rfl | ⟨_, rfl, rfl⟩⟩
    · exact hstart
    · exact hfirst
    · exact hsecond

theorem floorKept_of_solvent_sample :
    FloorKept .low 1000 (run advance (new 1000)
      (List.replicate 30 (.enqueue (sampleQueued .low 100)))) sampleWindow := by
  refine floorKept_of_solvent 1000 (List.replicate 30 (.enqueue (sampleQueued .low 100)))
    (window_sampleWindow (fun p => by cases p <;> rfl) ?_ ?_ ?_ ?_) ⟨?_, ?_⟩
  case refine_6 => simp [sampleWindow]
  all_goals decide +kernel

/-- The low class pays for an idle link: it used the spare bandwidth once, and then the others take
the link while it waits. -/
def sampleBorrowed : List SchedulerOperation :=
  [.enqueue (sampleQueued .low 1000), .tick 1000, .enqueue (sampleQueued .low 100),
    .enqueue (sampleQueued .high 1000), .enqueue (sampleQueued .high 1000)]

theorem borrowed_floor_lost :
    Window .low 1000 (run advance (new 1000) sampleBorrowed) sampleWindow ∧
      ¬FloorKept .low 1000 (run advance (new 1000) sampleBorrowed) sampleWindow := by
  refine ⟨window_sampleWindow (fun p => by cases p <;> rfl) (by decide +kernel) (by decide +kernel)
    (by decide +kernel) (by decide +kernel), ?_⟩
  rintro ⟨packet, hpacket, hbytes⟩
  have hqueue : (run advance (new 1000) sampleBorrowed).queueOf .low ++
      classOf .low (enqueued sampleWindow) = [sampleQueued .low 100] := by decide +kernel
  rw [hqueue, List.mem_singleton] at hpacket
  subst hpacket
  have hsent : bytesOf (classOf .low (emitted step (run advance (new 1000) sampleBorrowed)
      sampleWindow)) = 0 := by decide +kernel
  rw [hsent] at hbytes
  revert hbytes
  decide

end Sample

end DrrScheduler

end TirBase
