import TirBase.DrrScheduler
import TirBase.FragmentReassembly

/-! # The mesh transport

The peer table, the outbound channels, the framing of Deltas and the handling of what arrives. -/
namespace TirBase
open TransitionRuns

inductive PeerTransport
  | mdns (multiaddr : String)
  | bleBridge (bridgeDid : Did)
  | multiHopRelay (nextHopDid : Did)
  | explicit (multiaddr : String)
  deriving DecidableEq

def PeerTransport.isBleBridge : PeerTransport → Bool
  | .bleBridge _ => true
  | _ => false

def PeerTransport.isMultiHopRelay : PeerTransport → Bool
  | .multiHopRelay _ => true
  | _ => false

structure DiscoveredPeer where
  did : Did
  transport : PeerTransport
  hopCount : ℕ
  deriving DecidableEq

structure PeerState where
  peer : DiscoveredPeer
  lastSeenUs : ℤ
  active : Bool
  deriving DecidableEq

/-- The peer table, in the order in which the hash map yields its entries. -/
structure PeerDiscovery where
  maxHopCount : ℕ
  peers : AList fun _ : Did => PeerState
  deriving DecidableEq

namespace PeerDiscovery

def onPeerDiscovered (d : PeerDiscovery) (peer : DiscoveredPeer) (nowUs : ℤ) : PeerDiscovery :=
  if d.maxHopCount < peer.hopCount then d
  else { d with peers := d.peers.insert peer.did ⟨peer, nowUs, true⟩ }

/-- Any active multi-hop relay; the destination plays no part in the choice. -/
def findRelayPeer (d : PeerDiscovery) (_destinationDid : Did) : Option Did :=
  (d.peers.entries.find? fun entry =>
    entry.2.active && entry.2.peer.transport.isMultiHopRelay).map fun entry => entry.2.peer.did

def isDirectNeighbor (d : PeerDiscovery) (peerDid : Did) : Bool := (d.peers.lookup peerDid).isSome

def peerTransport (d : PeerDiscovery) (peerDid : Did) : Option PeerTransport :=
  (d.peers.lookup peerDid).map fun state => state.peer.transport

end PeerDiscovery

structure Channel where
  capacity : ℕ
  closed : Bool
  payloads : List Bytes
  deriving DecidableEq

namespace Channel

def trySend (c : Channel) (payload : Bytes) : Except String Channel :=
  if c.closed then .error "channel closed"
  else if c.capacity ≤ c.payloads.length then .error "no available capacity"
  else .ok { c with payloads := c.payloads ++ [payload] }

/-- Send one after the other and stop at the first payload that is not accepted. -/
def sendAll (what : String) (c : Channel) : List Bytes → Except TirBaseError Unit × Channel
  | [] => (.ok (), c)
  | payload :: rest =>
    match c.trySend payload with
    | .error e => (.error (.meshUnavailable s!"{what} channel unavailable: {e}"), c)
    | .ok c => sendAll what c rest

theorem payloads_of_trySend {c c' : Channel} {payload : Bytes}
    (h : c.trySend payload = .ok c') : c'.payloads = c.payloads ++ [payload] := by
  unfold trySend at h
  split_ifs at h
  cases h
  rfl

theorem payloads_of_sendAll {what : String} {c : Channel} {payloads : List Bytes}
    (h : (c.sendAll what payloads).1 = .ok ()) :
    (c.sendAll what payloads).2.payloads = c.payloads ++ payloads := by
  induction payloads generalizing c with
  | nil => simp [sendAll]
  | cons payload rest ih =>
    unfold sendAll at h ⊢
    cases hsend : c.trySend payload with
    | error e => simp [hsend] at h
    | ok c' =>
      rw [hsend] at h
      simp only [ih h, payloads_of_trySend hsend, List.append_assoc, List.singleton_append]

/-- Whether all payloads are accepted or not, only these are added. -/
theorem mem_sendAll {what : String} {c : Channel} {payloads : List Bytes} {p : Bytes}
    (h : p ∈ (c.sendAll what payloads).2.payloads) : p ∈ c.payloads ∨ p ∈ payloads := by
  induction payloads generalizing c with
  | nil => exact .inl h
  | cons payload rest ih =>
    unfold sendAll at h
    cases hsend : c.trySend payload with
    | error e =>
      rw [hsend] at h
      exact .inl h
    | ok c' =>
      rw [hsend] at h
      rcases ih h with hp | hp
      · rw [payloads_of_trySend hsend, List.mem_append, List.mem_singleton] at hp
        rcases hp with hp | rfl
        · exact .inl hp
        · exact .inr List.mem_cons_self
      · exact .inr (List.mem_cons_of_mem _ hp)

end Channel

structure MeshTransport where
  mtu : ℕ
  discovery : PeerDiscovery
  reassemblyBuffer : ReassemblyBuffer
  localDid : Did
  scheduler : DrrScheduler
  outboundTx : Option Channel
  bleOutboundTx : Option Channel
  deriving DecidableEq

namespace MeshTransport
variable (lib : WireLibraries)

def enqueueOutbound (t : MeshTransport) (δ : Delta) (now : ℤ) : MeshTransport :=
  { t with scheduler := t.scheduler.enqueue ⟨δ, (lib.serialiseDelta δ).length, now⟩ }

/-- The messages for a Delta: fragments when the mtu lies in `1 … 255`. -/
def prepareOutbound (t : MeshTransport) (δ : Delta) : List GossipMessage :=
  if 0 < t.mtu ∧ t.mtu < 256 then
    (fragment δ.id (lib.serialiseDelta δ) t.mtu).map .inboundDeltaFragment
  else [.inboundDelta δ]

def sendOnOutbound (t : MeshTransport) (messages : List GossipMessage) :
    Except TirBaseError Unit × MeshTransport :=
  match t.outboundTx with
  | none => (.error (.meshUnavailable "transport not started (no outbound channel installed)"), t)
  | some tx =>
    let out := tx.sendAll "outbound publish" (messages.map lib.toBytes)
    (out.1, { t with outboundTx := some out.2 })

def sendOnBle (t : MeshTransport) (messages : List GossipMessage) :
    Except TirBaseError Unit × MeshTransport :=
  match t.bleOutboundTx with
  | none =>
    (.error (.meshUnavailable "BLE transport not initialised (outbound channel missing)"), t)
  | some tx =>
    let out := tx.sendAll "BLE outbound" (messages.map lib.toBytes)
    (out.1, { t with bleOutboundTx := some out.2 })

def isBlePeer (t : MeshTransport) (peerDid : Did) : Bool :=
  ((t.discovery.peerTransport peerDid).map PeerTransport.isBleBridge).getD false

def sendDelta (t : MeshTransport) (peerDid : Did) (δ : Delta) :
    Except TirBaseError Unit × MeshTransport :=
  if t.isBlePeer peerDid then t.sendOnBle lib (t.prepareOutbound lib δ)
  else if t.discovery.isDirectNeighbor peerDid = false ∧
      (t.discovery.findRelayPeer peerDid).isSome then
    t.sendOnOutbound lib [.relayDelta peerDid δ]
  else t.sendOnOutbound lib (t.prepareOutbound lib δ)

/-- Forward the drained Deltas; the Delta whose payload is not accepted is queued again. -/
def forward (t : MeshTransport) (tx : Channel) (forwarded : ℕ) :
    List QueuedDelta → Except TirBaseError ℕ × MeshTransport
  | [] => (.ok forwarded, { t with outboundTx := some tx })
  | queued :: rest =>
    let payloads := (t.prepareOutbound lib queued.delta).map lib.toBytes
    let out := tx.sendAll "outbound publish" payloads
    match out.1 with
    | .ok () => forward t out.2 (forwarded + payloads.length) rest
    | .error e => (.error e, { t with
        scheduler := t.scheduler.enqueue queued
        outboundTx := some out.2 })

def tickScheduler (t : MeshTransport) (linkCapacityBytes : ℕ) :
    Except TirBaseError ℕ × MeshTransport :=
  let drained := t.scheduler.tick linkCapacityBytes
  let t := { t with scheduler := drained.2 }
  if drained.1 = [] then (.ok 0, t)
  else
    match t.outboundTx with
    | none =>
      (.error (.meshUnavailable "transport not started (no outbound channel installed)"), t)
    | some tx => t.forward lib tx 0 drained.1

/-- Fragments go to the reassembly buffer, every other message passes through. -/
def processWireMessage (hash : HashOrder) (t : MeshTransport) :
    GossipMessage → MeshTransport × Option GossipMessage
  | .inboundDeltaFragment f =>
    let out := t.reassemblyBuffer.addFragment hash f ("fragment-delta-" ++ f.deltaId.toHex)
    let t := { t with reassemblyBuffer := out.2 }
    match out.1 with
    | .ok (some bytes) => (t, (lib.parseDelta bytes).map .inboundDelta)
    | .ok none => (t, none)
    | .error _ => (t, none)
  | msg => (t, some msg)

/-- A gossip payload reaches the Swarm task; the hash order is that of the buffer then. -/
structure Arrival where
  hash : HashOrder
  payload : Bytes

/-- A Delta relayed to this device is unwrapped; the rest takes the common path. -/
def handleWireMessage (hash : HashOrder) (t : MeshTransport) (msg : GossipMessage) :
    MeshTransport × Option GossipMessage :=
  match msg with
  | .relayDelta targetDid δ =>
    if targetDid = t.localDid then (t, some (.inboundDelta δ))
    else t.processWireMessage lib hash (.relayDelta targetDid δ)
  | msg => t.processWireMessage lib hash msg

def swarmTurn (t : MeshTransport) (arrival : Arrival) : MeshTransport × List GossipMessage :=
  match lib.fromBytes arrival.payload with
  | none => (t, [])
  | some msg =>
    let out := t.handleWireMessage lib arrival.hash msg
    (out.1, out.2.toList)

def receivedCalls (t : MeshTransport) (arrivals : List Arrival) : List InboundCall :=
  (emitted (swarmTurn lib) t arrivals).filterMap inboundCall

def outboundPayloads (t : MeshTransport) : List Bytes :=
  (t.outboundTx.map Channel.payloads).getD []

variable {lib}

theorem swarmTurn_of_fromBytes (t : MeshTransport) {msg : GossipMessage} {arrival : Arrival}
    (h : lib.fromBytes arrival.payload = some msg) :
    swarmTurn lib t arrival = ((t.handleWireMessage lib arrival.hash msg).1,
      (t.handleWireMessage lib arrival.hash msg).2.toList) := by
  simp only [swarmTurn, h]

/-- Nothing but a fragment or a relayed Delta is changed on its way to the inbound queue. -/
theorem swarmTurn_delta (t : MeshTransport) {δ : Delta} {arrival : Arrival}
    (h : lib.fromBytes arrival.payload = some (.inboundDelta δ)) :
    swarmTurn lib t arrival = (t, [.inboundDelta δ]) := by
  rw [swarmTurn_of_fromBytes t h]
  rfl

theorem swarmTurn_relay {t : MeshTransport} {targetDid : Did} {δ : Delta} {arrival : Arrival}
    (h : lib.fromBytes arrival.payload = some (.relayDelta targetDid δ))
    (hdid : t.localDid ≠ targetDid) :
    swarmTurn lib t arrival = (t, [.relayDelta targetDid δ]) := by
  rw [swarmTurn_of_fromBytes t h]
  simp only [handleWireMessage, if_neg hdid.symm]
  rfl

theorem swarmTurn_fragment (t : MeshTransport) {f : DeltaFragment} {arrival : Arrival}
    (h : lib.fromBytes arrival.payload = some (.inboundDeltaFragment f)) :
    swarmTurn lib t arrival =
      let out := t.reassemblyBuffer.addFragment arrival.hash f ("fragment-delta-" ++ f.deltaId.toHex)
      ({ t with reassemblyBuffer := out.2 },
        match out.1 with
        | .ok (some bytes) => ((lib.parseDelta bytes).map GossipMessage.inboundDelta).toList
        | _ => []) := by
  rw [swarmTurn_of_fromBytes t h]
  simp only [handleWireMessage, processWireMessage]
  rcases t.reassemblyBuffer.addFragment arrival.hash f ("fragment-delta-" ++ f.deltaId.toHex) with
    ⟨e | bytes, b⟩
  · rfl
  · cases bytes <;> rfl

/-- Every payload and every waiting Delta stems from the Deltas of a family. -/
structure SendsOnly (lib : WireLibraries) (family : Delta → Prop) (t : MeshTransport) : Prop where
  backlog : ∀ q ∈ t.scheduler.backlog, family q.delta
  payloads : ∀ p ∈ t.outboundPayloads, ∃ δ, family δ ∧
    ∃ msg ∈ t.prepareOutbound lib δ, p = lib.toBytes msg

theorem SendsOnly.enqueueOutbound {family : Delta → Prop} {t : MeshTransport}
    (h : SendsOnly lib family t) {δ : Delta} (hδ : family δ) (now : ℤ) :
    SendsOnly lib family (t.enqueueOutbound lib δ now) := by
  refine ⟨fun q hq => ?_, h.payloads⟩
  rcases DrrScheduler.mem_backlog_enqueue.mp hq with hq | rfl
  · exact h.backlog q hq
  · exact hδ

theorem SendsOnly.forward {family : Delta → Prop} {t : MeshTransport}
    (h : SendsOnly lib family t) {queue : List QueuedDelta} (hqueue : ∀ q ∈ queue, family q.delta)
    {tx : Channel} (htx : ∀ p ∈ tx.payloads, ∃ δ, family δ ∧
      ∃ msg ∈ t.prepareOutbound lib δ, p = lib.toBytes msg) (forwarded : ℕ) :
    SendsOnly lib family (t.forward lib tx forwarded queue).2 := by
  induction queue generalizing tx forwarded with
  | nil => exact ⟨h.backlog, htx⟩
  | cons queued rest ih =>
    have hsent : ∀ p ∈ (tx.sendAll "outbound publish"
        ((t.prepareOutbound lib queued.delta).map lib.toBytes)).2.payloads,
        ∃ δ, family δ ∧ ∃ msg ∈ t.prepareOutbound lib δ, p = lib.toBytes msg := by
      intro p hp
      rcases Channel.mem_sendAll hp with hp | hp
      · exact htx p hp
      · obtain ⟨msg, hmsg, rfl⟩ := List.mem_map.mp hp
        exact ⟨queued.delta, hqueue queued List.mem_cons_self, msg, hmsg, rfl⟩
    simp only [MeshTransport.forward]
    split
    · exact ih (fun q hq => hqueue q (List.mem_cons_of_mem _ hq)) hsent _
    · refine ⟨fun q hq => ?_, hsent⟩
      rcases DrrScheduler.mem_backlog_enqueue.mp hq with hq | rfl
      · exact h.backlog q hq
      · exact hqueue q List.mem_cons_self

theorem SendsOnly.tickScheduler {family : Delta → Prop} {t : MeshTransport}
    (h : SendsOnly lib family t) (linkCapacityBytes : ℕ) :
    SendsOnly lib family (t.tickScheduler lib linkCapacityBytes).2 := by
  have hmoves := DrrScheduler.moves_tick t.scheduler linkCapacityBytes
  have hrest : SendsOnly lib family
      { t with scheduler := (t.scheduler.tick linkCapacityBytes).2 } :=
    ⟨fun q hq => h.backlog q ((hmoves.mem_iff q).mpr (.inr hq)), h.payloads⟩
  have hdrained : ∀ q ∈ (t.scheduler.tick linkCapacityBytes).1, family q.delta :=
    fun q hq => h.backlog q ((hmoves.mem_iff q).mpr (.inl hq))
  simp only [MeshTransport.tickScheduler]
  split_ifs
  · exact hrest
  · split
    · exact hrest
    · rename_i tx htx
      refine hrest.forward hdrained (fun p hp => h.payloads p ?_) 0
      simpa [outboundPayloads, htx] using hp

end MeshTransport

end TirBase
