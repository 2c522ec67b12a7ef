import TirBase.Delta

/-! # The outbound scheduler

Deficit round robin over three priority queues. Amounts are bytes for one epoch. -/
namespace TirBase

structure QueuedDelta where
  delta : Delta
  serializedLen : ℕ
  enqueuedAt : ℤ
  deriving DecidableEq

/-- Lengths and quanta are `u64` and deficits `i64` in the code. Integers do not overflow: the two
are the same while a hundred times the link capacity, the bytes of the queues and the deficits stay
below `2 ^ 63`. -/
structure DrrScheduler where
  highQueue : List QueuedDelta
  mediumQueue : List QueuedDelta
  lowQueue : List QueuedDelta
  highDeficit : ℤ
  mediumDeficit : ℤ
  lowDeficit : ℤ
  highQuantum : ℕ
  mediumQuantum : ℕ
  lowQuantum : ℕ
  saturateMode : Bool
  deriving DecidableEq

def bytesOf (queue : List QueuedDelta) : ℤ := (queue.map fun q => (q.serializedLen : ℤ)).sum

/-- Take from the front as long as the budget lasts: what is sent, and what stays. -/
def drainQueue (budget : ℤ) : List QueuedDelta → ℤ → List QueuedDelta × List QueuedDelta
  | [], _ => ([], [])
  | front :: queue, bytesSent =>
    if bytesSent + front.serializedLen ≤ budget then
      let out := drainQueue budget queue (bytesSent + front.serializedLen)
      (front :: out.1, out.2)
    else ([], front :: queue)

namespace DrrScheduler

def new (linkCapacityBytesPerSec : ℕ) : DrrScheduler where
  highQueue := []
  mediumQueue := []
  lowQueue := []
  highDeficit := 0
  mediumDeficit := 0
  lowDeficit := 0
  highQuantum := linkCapacityBytesPerSec * 70 / 100
  mediumQuantum := linkCapacityBytesPerSec * 20 / 100
  lowQuantum := linkCapacityBytesPerSec * 10 / 100
  saturateMode := false

/-- The quanta of another link; the deficits stay. -/
def updateLinkCapacity (s : DrrScheduler) (linkCapacityBytesPerSec : ℕ) : DrrScheduler :=
  { s with
    highQuantum := linkCapacityBytesPerSec * 70 / 100
    mediumQuantum := linkCapacityBytesPerSec * 20 / 100
    lowQuantum := linkCapacityBytesPerSec * 10 / 100 }

/-- The deficits are reset whenever the mode is set to normal. -/
def setSaturateMode (s : DrrScheduler) (active : Bool) : DrrScheduler :=
  if active then { s with saturateMode := active }
  else { s with saturateMode := active, highDeficit := 0, mediumDeficit := 0, lowDeficit := 0 }

def enqueue (s : DrrScheduler) (q : QueuedDelta) : DrrScheduler :=
  match q.delta.priority with
  | .high => { s with highQueue := s.highQueue ++ [q] }
  | .medium => { s with mediumQueue := s.mediumQueue ++ [q] }
  | .low => { s with lowQueue := s.lowQueue ++ [q] }

def drainHigh (s : DrrScheduler) (budget : ℤ) : List QueuedDelta × DrrScheduler :=
  let out := drainQueue budget s.highQueue 0
  (out.1, { s with highQueue := out.2, highDeficit := s.highDeficit - bytesOf out.1 })

def drainMedium (s : DrrScheduler) (budget : ℤ) : List QueuedDelta × DrrScheduler :=
  let out := drainQueue budget s.mediumQueue 0
  (out.1, { s with mediumQueue := out.2, mediumDeficit := s.mediumDeficit - bytesOf out.1 })

def drainLow (s : DrrScheduler) (budget : ℤ) : List QueuedDelta × DrrScheduler :=
  let out := drainQueue budget s.lowQueue 0
  (out.1, { s with lowQueue := out.2, lowDeficit := s.lowDeficit - bytesOf out.1 })

/-- What is left of the link goes to a queue with backlog. -/
def drainSpare (drain : DrrScheduler → ℤ → List QueuedDelta × DrrScheduler)
    (queue : DrrScheduler → List QueuedDelta) (s : DrrScheduler) (spare : ℤ) :
    List QueuedDelta × DrrScheduler :=
  if 0 < spare ∧ queue s ≠ [] then drain s spare else ([], s)

structure Served where
  high : List QueuedDelta
  medium : List QueuedDelta
  low : List QueuedDelta

def Served.all (served : Served) : List QueuedDelta := served.high ++ served.medium ++ served.low

def addQuanta (s : DrrScheduler) : DrrScheduler :=
  { s with
    highDeficit := s.highDeficit + s.highQuantum
    mediumDeficit := s.mediumDeficit + s.mediumQuantum
    lowDeficit := s.lowDeficit + s.lowQuantum }

def serveFloors (s : DrrScheduler) : Served × DrrScheduler :=
  let high := s.drainHigh s.highDeficit
  let medium := high.2.drainMedium high.2.mediumDeficit
  let low := medium.2.drainLow medium.2.lowDeficit
  (⟨high.1, medium.1, low.1⟩, low.2)

def redistribute (s : DrrScheduler) (spare : ℤ) : Served × DrrScheduler :=
  let high := drainSpare drainHigh highQueue s spare
  let medium := drainSpare drainMedium mediumQueue high.2 (spare - bytesOf high.1)
  let low := drainSpare drainLow lowQueue medium.2 (spare - bytesOf high.1 - bytesOf medium.1)
  (⟨high.1, medium.1, low.1⟩, low.2)

def tick (s : DrrScheduler) (linkCapacityBytes : ℕ) : List QueuedDelta × DrrScheduler :=
  if s.saturateMode then s.drainHigh linkCapacityBytes
  else
    let floors := s.addQuanta.serveFloors
    let spare := (linkCapacityBytes : ℤ) -
      (bytesOf floors.1.high + bytesOf floors.1.medium + bytesOf floors.1.low)
    let extra := floors.2.redistribute spare
    (Served.all ⟨floors.1.high ++ extra.1.high, floors.1.medium ++ extra.1.medium,
      floors.1.low ++ extra.1.low⟩, extra.2)

def backlog (s : DrrScheduler) : List QueuedDelta := s.highQueue ++ s.mediumQueue ++ s.lowQueue

end DrrScheduler

theorem drainQueue_append (budget : ℤ) (queue : List QueuedDelta) (bytesSent : ℤ) :
    (drainQueue budget queue bytesSent).1 ++ (drainQueue budget queue bytesSent).2 = queue := by
  induction queue generalizing bytesSent with
  | nil => rfl
  | cons front queue ih =>
    simp only [drainQueue]
    split_ifs
    · simp [ih]
    · rfl

namespace DrrScheduler

theorem mem_backlog_enqueue {s : DrrScheduler} {q q' : QueuedDelta} :
    q' ∈ (s.enqueue q).backlog ↔ q' ∈ s.backlog ∨ q' = q := by
  cases h : q.delta.priority <;>
    simp only [enqueue, h, backlog, List.mem_append, List.mem_singleton] <;> tauto

/-- A drain of one queue moves Deltas from the backlog to the link. -/
structure Moves (s : DrrScheduler) (out : List QueuedDelta × DrrScheduler) : Prop where
  mem_iff : ∀ q, q ∈ s.backlog ↔ q ∈ out.1 ∨ q ∈ out.2.backlog

theorem Moves.trans {s : DrrScheduler} {out out' : List QueuedDelta × DrrScheduler}
    (h : s.Moves out) (h' : out.2.Moves out') : s.Moves (out.1 ++ out'.1, out'.2) := by
  constructor
  intro q
  rw [h.mem_iff, h'.mem_iff, List.mem_append, or_assoc]

theorem moves_none (s : DrrScheduler) : s.Moves ([], s) := ⟨fun q => by simp⟩

private theorem mem_drained (budget : ℤ) (queue : List QueuedDelta) (q : QueuedDelta) :
    q ∈ queue ↔ q ∈ (drainQueue budget queue 0).1 ∨ q ∈ (drainQueue budget queue 0).2 := by
  rw [← List.mem_append, drainQueue_append]

theorem moves_drainHigh (s : DrrScheduler) (budget : ℤ) : s.Moves (s.drainHigh budget) := by
  constructor
  intro q
  have h := mem_drained budget s.highQueue q
  simp only [backlog, drainHigh, List.mem_append]
  tauto

theorem moves_drainMedium (s : DrrScheduler) (budget : ℤ) : s.Moves (s.drainMedium budget) := by
  constructor
  intro q
  have h := mem_drained budget s.mediumQueue q
  simp only [backlog, drainMedium, List.mem_append]
  tauto

theorem moves_drainLow (s : DrrScheduler) (budget : ℤ) : s.Moves (s.drainLow budget) := by
  constructor
  intro q
  have h := mem_drained budget s.lowQueue q
  simp only [backlog, drainLow, List.mem_append]
  tauto

theorem moves_drainSpare {drain : DrrScheduler → ℤ → List QueuedDelta × DrrScheduler}
    (h : ∀ (s : DrrScheduler) (budget : ℤ), s.Moves (drain s budget))
    (queue : DrrScheduler → List QueuedDelta) (s : DrrScheduler) (spare : ℤ) :
    s.Moves (drainSpare drain queue s spare) := by
  unfold drainSpare
  split_ifs
  · exact h s spare
  · exact moves_none s

theorem moves_serveFloors (s : DrrScheduler) :
    s.Moves (s.serveFloors.1.all, s.serveFloors.2) :=
  ((moves_drainHigh s _).trans (moves_drainMedium _ _)).trans (moves_drainLow _ _)

theorem moves_redistribute (s : DrrScheduler) (spare : ℤ) :
    s.Moves ((s.redistribute spare).1.all, (s.redistribute spare).2) :=
  ((moves_drainSpare moves_drainHigh highQueue s _).trans
    (moves_drainSpare moves_drainMedium mediumQueue _ _)).trans
      (moves_drainSpare moves_drainLow lowQueue _ _)

/-- An epoch neither loses a queued Delta nor invents one. -/
theorem moves_tick (s : DrrScheduler) (linkCapacityBytes : ℕ) :
    s.Moves (s.tick linkCapacityBytes) := by
  unfold tick
  split_ifs
  · exact moves_drainHigh s _
  · have hfloors := moves_serveFloors s.addQuanta
    constructor
    intro q
    rw [show q ∈ s.backlog ↔ q ∈ s.addQuanta.backlog from Iff.rfl,
      (hfloors.trans (moves_redistribute s.addQuanta.serveFloors.2 _)).mem_iff]
    simp only [Served.all, List.mem_append]
    tauto

end DrrScheduler

end TirBase
