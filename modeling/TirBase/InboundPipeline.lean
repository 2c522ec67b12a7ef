import TirBase.CoreHandle

/-! # From the Swarm task to the device

The Swarm task passes what it makes of the payloads on to a bounded channel, where it waits for room.
The drain loop hands the messages in the channel to the device until the first that fails. -/
namespace TirBase
open TransitionRuns MeshTransport

def inboundCapacity : ℕ := 1024

/-- A device with its inbound channel. The last two lists are only kept for what is said here: what
the Swarm task passed on, and what the device was handed. -/
structure InboundPipeline where
  handle : CoreHandle
  incoming : List Arrival
  waiting : Option GossipMessage
  inbound : List GossipMessage
  passed : List GossipMessage
  received : List GossipMessage

namespace InboundPipeline
variable (lib : CoreLibraries)

def start (handle : CoreHandle) : InboundPipeline := ⟨handle, [], none, [], [], []⟩

/-- The Swarm task sends the message that waits as soon as there is room, and takes the next payload
only after that. -/
def swarm (p : InboundPipeline) : InboundPipeline :=
  match p.waiting with
  | some msg =>
    if p.inbound.length < inboundCapacity then
      { p with waiting := none, inbound := p.inbound ++ [msg] }
    else p
  | none =>
    match p.incoming with
    | [] => p
    | arrival :: incoming =>
      let out := swarmTurn lib.wire p.handle.transport arrival
      { p with
        handle := { p.handle with transport := out.1 }
        incoming := incoming
        waiting := out.2.head?
        passed := p.passed ++ out.2 }

structure Drained where
  answer : Except TirBaseError ℕ
  handle : CoreHandle
  taken : List GossipMessage
  inbound : List GossipMessage

/-- `process_inbound_messages`: a message that fails is gone, those behind it stay in the channel. A
message that comes during a drain is as one that was there before. -/
def processInboundMessages (env : ℕ → CoreHandle.InboundEnvironment) (count : ℕ)
    (handle : CoreHandle) : List GossipMessage → Drained
  | [] => ⟨.ok count, handle, [], []⟩
  | msg :: inbound =>
    match handle.receiveInbound lib msg (env count) with
    | (.error e, handle) => ⟨.error e, handle, [msg], inbound⟩
    | (.ok (), handle) =>
      let rest := processInboundMessages env (count + 1) handle inbound
      { rest with taken := msg :: rest.taken }

def drain (p : InboundPipeline) (env : ℕ → CoreHandle.InboundEnvironment) : InboundPipeline :=
  let out := processInboundMessages lib env 0 p.handle p.inbound
  { p with handle := out.handle, inbound := out.inbound, received := p.received ++ out.taken }

inductive Operation
  | arrives (arrival : Arrival)
  | swarm
  | drain (env : ℕ → CoreHandle.InboundEnvironment)
  | own (change : CoreHandle → CoreHandle)

def step (p : InboundPipeline) : Operation → InboundPipeline
  | .arrives arrival => { p with incoming := p.incoming ++ [arrival] }
  | .swarm => p.swarm lib
  | .drain env => p.drain lib env
  | .own change => { p with handle := change p.handle }

def turn (round : (CoreHandle → CoreHandle) × (ℕ → CoreHandle.InboundEnvironment)) :
    List Operation := [.own round.1, .swarm, .drain round.2]

/-- What the tasks still have to do: a payload is taken, sent and handed over. -/
def pending (p : InboundPipeline) : ℕ :=
  3 * p.incoming.length + 2 * p.waiting.toList.length + p.inbound.length

/-- Every message that was passed on was handed over, or waits, and the channel is not overfull. -/
structure Ordered (p : InboundPipeline) : Prop where
  passed : p.passed = p.received ++ p.inbound ++ p.waiting.toList
  room : p.inbound.length ≤ inboundCapacity

variable {lib} {p : InboundPipeline} {env : ℕ → CoreHandle.InboundEnvironment} {count : ℕ}

theorem toList_head?_swarmTurn (wire : WireLibraries) (t : MeshTransport) (arrival : Arrival) :
    (swarmTurn wire t arrival).2.head?.toList = (swarmTurn wire t arrival).2 := by
  unfold swarmTurn
  cases wire.fromBytes arrival.payload with
  | none => rfl
  | some msg =>
    dsimp only
    cases (t.handleWireMessage wire arrival.hash msg).2 <;> rfl

theorem Ordered.swarm (h : Ordered p) : Ordered (p.swarm lib) := by
  obtain ⟨handle, incoming, waiting, inbound, passed, received⟩ := p
  obtain ⟨hpassed, hroom⟩ := h
  dsimp only at hpassed hroom
  cases waiting with
  | some msg =>
    by_cases hfree : inbound.length < inboundCapacity
    · simp only [InboundPipeline.swarm, if_pos hfree]
      refine ⟨?_, ?_⟩
      · simpa using hpassed
      · rw [List.length_append, List.length_singleton]
        omega
    · simp only [InboundPipeline.swarm, if_neg hfree]
      exact ⟨hpassed, hroom⟩
  | none =>
    cases incoming with
    | nil => exact ⟨hpassed, hroom⟩
    | cons arrival incoming =>
      refine ⟨?_, hroom⟩
      simp only [InboundPipeline.swarm, toList_head?_swarmTurn, hpassed]
      simp

/-- The Swarm task gets on, or it has nothing to do, or the channel holds messages. -/
theorem pending_swarm (p : InboundPipeline) :
    (p.swarm lib).pending < p.pending ∨
      (p.swarm lib).pending = p.pending ∧ (p.pending = 0 ∨ (p.swarm lib).inbound ≠ []) := by
  obtain ⟨handle, incoming, waiting, inbound, passed, received⟩ := p
  cases waiting with
  | some msg =>
    by_cases hfree : inbound.length < inboundCapacity
    · left
      simp only [InboundPipeline.swarm, if_pos hfree, pending, List.length_append,
        List.length_singleton, Option.toList_some, Option.toList_none, List.length_nil]
      omega
    · right
      simp only [InboundPipeline.swarm, if_neg hfree]
      refine ⟨trivial, .inr fun hnil => hfree ?_⟩
      rw [hnil]
      decide
  | none =>
    cases incoming with
    | nil =>
      right
      refine ⟨rfl, ?_⟩
      by_cases hnil : inbound = []
      · left
        rw [hnil]
        rfl
      · exact .inr hnil
    | cons arrival incoming =>
      left
      have hone : (swarmTurn lib.wire handle.transport arrival).2.head?.toList.length ≤ 1 := by
        cases (swarmTurn lib.wire handle.transport arrival).2.head? <;> simp
      simp only [InboundPipeline.swarm, pending, List.length_cons, Option.toList_none,
        List.length_nil]
      omega

/-- A drain takes messages from the front, at least one if there is any. -/
theorem taken_append (handle : CoreHandle) (inbound : List GossipMessage) :
    let out := processInboundMessages lib env count handle inbound
    out.taken ++ out.inbound = inbound ∧ (inbound ≠ [] → out.taken ≠ []) := by
  induction inbound generalizing handle count with
  | nil => exact ⟨rfl, fun h => absurd rfl h⟩
  | cons msg inbound ih =>
    dsimp only
    rw [processInboundMessages]
    rcases handle.receiveInbound lib msg (env count) with ⟨e | u, next⟩
    · exact ⟨rfl, fun _ => List.cons_ne_nil _ _⟩
    · have hrest := (@ih (count + 1) next).1
      refine ⟨?_, fun _ => List.cons_ne_nil _ _⟩
      dsimp only at hrest ⊢
      rw [List.cons_append, hrest]

theorem Ordered.drain (h : Ordered p) (env : ℕ → CoreHandle.InboundEnvironment) :
    Ordered (p.drain lib env) := by
  have htaken : (processInboundMessages lib env 0 p.handle p.inbound).taken ++
      (processInboundMessages lib env 0 p.handle p.inbound).inbound = p.inbound :=
    (taken_append p.handle p.inbound).1
  refine ⟨?_, ?_⟩
  · simp only [InboundPipeline.drain]
    rw [List.append_assoc p.received, htaken]
    exact h.passed
  · have hlength := congrArg List.length htaken
    have hroom := h.room
    rw [List.length_append] at hlength
    simp only [InboundPipeline.drain]
    omega

theorem pending_drain (p : InboundPipeline) (env : ℕ → CoreHandle.InboundEnvironment) :
    (p.drain lib env).pending ≤ p.pending ∧
      (p.inbound ≠ [] → (p.drain lib env).pending < p.pending) := by
  obtain ⟨htaken, hsome⟩ : (processInboundMessages lib env 0 p.handle p.inbound).taken ++
      (processInboundMessages lib env 0 p.handle p.inbound).inbound = p.inbound ∧
        (p.inbound ≠ [] → (processInboundMessages lib env 0 p.handle p.inbound).taken ≠ []) :=
    taken_append p.handle p.inbound
  have hlength := congrArg List.length htaken
  rw [List.length_append] at hlength
  simp only [InboundPipeline.drain, pending]
  refine ⟨by omega, fun hinbound => ?_⟩
  have hpos := List.length_pos_iff.mpr (hsome hinbound)
  omega

theorem ordered_step (p : InboundPipeline) (op : Operation) (h : Ordered p) :
    Ordered (step lib p op) := by
  cases op with
  | arrives arrival => exact ⟨h.passed, h.room⟩
  | swarm => exact h.swarm
  | drain env => exact h.drain env
  | own change => exact ⟨h.passed, h.room⟩

/-- A turn gets on, unless nothing is left to do. -/
theorem pending_turn (p : InboundPipeline)
    (round : (CoreHandle → CoreHandle) × (ℕ → CoreHandle.InboundEnvironment)) :
    (run (step lib) p (turn round)).pending ≤ p.pending - 1 := by
  let q : InboundPipeline := { p with handle := round.1 p.handle }
  have hown : q.pending = p.pending := rfl
  have hrun : run (step lib) p (turn round) = (q.swarm lib).drain lib round.2 := rfl
  obtain ⟨hdrain, hnonempty⟩ := @pending_drain lib (q.swarm lib) round.2
  rw [hrun]
  rcases @pending_swarm lib q with hswarm | ⟨hswarm, hidle | hinbound⟩
  · omega
  · omega
  · have hless := hnonempty hinbound
    omega

theorem pending_turns (rounds : List ((CoreHandle → CoreHandle) ×
    (ℕ → CoreHandle.InboundEnvironment))) (p : InboundPipeline) :
    (run (step lib) p (rounds.flatMap turn)).pending ≤ p.pending - rounds.length := by
  induction rounds generalizing p with
  | nil => exact le_rfl
  | cons round rounds ih =>
    rw [List.flatMap_cons, run_append, List.length_cons]
    have hfirst := @pending_turn lib p round
    have hrest := ih (run (step lib) p (turn round))
    omega

theorem idle_of_pending (h : p.pending = 0) :
    p.incoming = [] ∧ p.waiting = none ∧ p.inbound = [] := by
  simp only [pending] at h
  refine ⟨List.length_eq_zero_iff.mp (by omega), ?_, List.length_eq_zero_iff.mp (by omega)⟩
  cases hwaiting : p.waiting with
  | none => rfl
  | some msg =>
    rw [hwaiting, Option.toList_some, List.length_singleton] at h
    omega

/-- Along every run the device is handed the messages that the Swarm task passes on, each once and in
their order, and the channel is never overfull. Enough turns of the two tasks hand over all of them,
whichever of them fail and whatever else the device does. -/
theorem handed_over (lib : CoreLibraries) (handle : CoreHandle) (ops : List Operation) :
    let p := run (step lib) (start handle) ops
    p.passed = p.received ++ p.inbound ++ p.waiting.toList ∧ p.inbound.length ≤ inboundCapacity ∧
      ∀ rounds : List ((CoreHandle → CoreHandle) × (ℕ → CoreHandle.InboundEnvironment)),
        p.pending ≤ rounds.length →
          let q := run (step lib) p (rounds.flatMap turn)
          q.incoming = [] ∧ q.received = q.passed := by
  intro p
  have hstart : Ordered (start handle) := ⟨rfl, Nat.zero_le _⟩
  have hordered : Ordered p := invariant_run ordered_step ops hstart
  refine ⟨hordered.passed, hordered.room, fun rounds henough => ?_⟩
  intro q
  have hlater : Ordered q := invariant_run ordered_step (rounds.flatMap turn) hordered
  have hdone : q.pending ≤ p.pending - rounds.length := pending_turns rounds p
  obtain ⟨hincoming, hwaiting, hinbound⟩ := @idle_of_pending q (by omega)
  refine ⟨hincoming, ?_⟩
  rw [hlater.passed, hwaiting, hinbound]
  simp

end InboundPipeline
end TirBase
