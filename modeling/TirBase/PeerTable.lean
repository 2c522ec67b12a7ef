import TirBase.ExpiringTables
import TirBase.MeshTransport

/-! # The peer table

Discovered peers stay in the table until they are removed or an epoch finds them unseen for too long.
Nothing but a new discovery renews an entry. -/
namespace TirBase
open ExpiringTables TransitionRuns

namespace PeerDiscovery

def removePeer (d : PeerDiscovery) (peerDid : Did) : PeerDiscovery :=
  { d with peers := d.peers.erase peerDid }

/-- Microseconds are `i64` in the code; they are the same while the timeout and the differences of
times, in microseconds, stay below `2 ^ 63`. -/
def tickTimeouts (peerTimeoutSecs : ℕ) (d : PeerDiscovery) (nowUs : ℤ) : PeerDiscovery :=
  { d with peers := retain (fun _ state => nowUs - state.lastSeenUs < peerTimeoutSecs * 1000000) d.peers }

def activePeers (d : PeerDiscovery) : List Did := d.peers.keys

end PeerDiscovery

inductive ConnectionStatus
  | connected | connecting | disconnected
  deriving DecidableEq

structure MeshStatus where
  status : ConnectionStatus
  peerCount : UInt32
  deriving DecidableEq

def PeerDiscovery.meshStatus (d : PeerDiscovery) : MeshStatus where
  status := if d.activePeers = [] then .disconnected else .connected
  peerCount := UInt32.ofNat d.activePeers.length

namespace PeerTable

inductive PeerEvent
  | discovered (peer : DiscoveredPeer) (nowUs : ℤ)
  | removed (peerDid : Did)
  | epoch (nowUs : ℤ)

variable (peerTimeoutSecs : ℕ)

def step (d : PeerDiscovery) : PeerEvent → PeerDiscovery
  | .discovered peer nowUs => d.onPeerDiscovered peer nowUs
  | .removed peerDid => d.removePeer peerDid
  | .epoch nowUs => d.tickTimeouts peerTimeoutSecs nowUs

/-- The event leaves a peer that was discovered at some time in the table as it is. -/
def Spares (maxHopCount : ℕ) (did : Did) (discoveredUs : ℤ) : PeerEvent → Prop
  | .discovered peer _ => peer.hopCount ≤ maxHopCount → peer.did ≠ did
  | .removed peerDid => peerDid ≠ did
  | .epoch nowUs => nowUs - discoveredUs < peerTimeoutSecs * 1000000

/-- The peer was discovered at this time, within the hop limit, and neither another discovery nor a
removal nor a timeout came after it. -/
def Standing (maxHopCount : ℕ) (events : List PeerEvent) (did : Did) (state : PeerState) : Prop :=
  ∃ earlier event rest, events = earlier ++ event :: rest ∧
    (∃ peer nowUs, event = .discovered peer nowUs ∧ peer.did = did ∧ peer.hopCount ≤ maxHopCount ∧
      state = ⟨peer, nowUs, true⟩) ∧
    ∀ e ∈ rest, Spares peerTimeoutSecs maxHopCount did state.lastSeenUs e

variable {peerTimeoutSecs} {d : PeerDiscovery} {maxHopCount : ℕ} {did : Did} {state : PeerState}

theorem maxHopCount_step (e : PeerEvent) :
    (step peerTimeoutSecs d e).maxHopCount = d.maxHopCount := by
  cases e with
  | discovered peer nowUs =>
    rw [step, PeerDiscovery.onPeerDiscovered]
    split_ifs <;> rfl
  | removed peerDid => rfl
  | epoch nowUs => rfl

/-- An event puts an entry into the table, or spares one that is there. -/
theorem lookup_step_iff (e : PeerEvent) :
    (step peerTimeoutSecs d e).peers.lookup did = some state ↔
      (∃ peer nowUs, e = .discovered peer nowUs ∧ peer.did = did ∧ peer.hopCount ≤ d.maxHopCount ∧
        state = ⟨peer, nowUs, true⟩) ∨
      d.peers.lookup did = some state ∧
        Spares peerTimeoutSecs d.maxHopCount did state.lastSeenUs e := by
  cases e with
  | discovered other now =>
    rw [step, PeerDiscovery.onPeerDiscovered]
    by_cases hfar : d.maxHopCount < other.hopCount
    · rw [if_pos hfar]
      constructor
      · exact fun h => .inr ⟨h, fun hnear => absurd hnear (by omega)⟩
      · rintro (⟨peer, nowUs, heq, -, hnear, -⟩ | ⟨h, -⟩)
        · cases heq
          omega
        · exact h
    · rw [if_neg hfar, lookup_insert_iff]
      have hnear : other.hopCount ≤ d.maxHopCount := by omega
      constructor
      · rintro (⟨hdid, rfl⟩ | ⟨h, hne⟩)
        · exact .inl ⟨other, now, rfl, hdid, hnear, rfl⟩
        · exact .inr ⟨h, fun _ => hne⟩
      · rintro (⟨peer, nowUs, heq, hdid, -, rfl⟩ | ⟨h, hspared⟩)
        · cases heq
          exact .inl ⟨hdid, rfl⟩
        · exact .inr ⟨h, hspared hnear⟩
  | removed peerDid =>
    rw [step, PeerDiscovery.removePeer, lookup_erase_iff]
    constructor
    · exact .inr
    · rintro (⟨peer, nowUs, heq, -⟩ | h)
      · cases heq
      · exact h
  | epoch now =>
    rw [step, PeerDiscovery.tickTimeouts, lookup_retain]
    simp only [decide_eq_true_eq, Spares]
    constructor
    · exact .inr
    · rintro (⟨peer, nowUs, heq, -⟩ | h)
      · cases heq
      · exact h

/-- After every run the table holds exactly the peers whose discovery still stands. -/
theorem lookup_run_iff (peerTimeoutSecs maxHopCount : ℕ) (events : List PeerEvent) (did : Did)
    (state : PeerState) :
    (run (step peerTimeoutSecs) ⟨maxHopCount, ∅⟩ events).peers.lookup did = some state ↔
      Standing peerTimeoutSecs maxHopCount events did state := by
  have hlimit : ∀ (d : PeerDiscovery) (e : PeerEvent), d.maxHopCount = maxHopCount →
      (step peerTimeoutSecs d e).maxHopCount = maxHopCount := by
    intro d e hd
    rw [maxHopCount_step, hd]
  have hstep : ∀ (d : PeerDiscovery) (e : PeerEvent), d.maxHopCount = maxHopCount →
      ((step peerTimeoutSecs d e).peers.lookup did = some state ↔
        (∃ peer nowUs, e = .discovered peer nowUs ∧ peer.did = did ∧ peer.hopCount ≤ maxHopCount ∧
          state = ⟨peer, nowUs, true⟩) ∨
        d.peers.lookup did = some state ∧
          Spares peerTimeoutSecs maxHopCount did state.lastSeenUs e) := by
    rintro d e rfl
    exact lookup_step_iff e
  apply holds_run_iff (fun d : PeerDiscovery => d.peers.lookup did = some state) hlimit hstep rfl
  intro h
  cases h

/-- The device reports itself connected exactly when the discovery of some peer still stands, and it
counts these peers. -/
theorem meshStatus_run (peerTimeoutSecs maxHopCount : ℕ) (events : List PeerEvent) :
    let d := run (step peerTimeoutSecs) ⟨maxHopCount, ∅⟩ events
    (d.meshStatus.status = .connected ↔
      ∃ did state, Standing peerTimeoutSecs maxHopCount events did state) ∧
    d.activePeers.Nodup ∧ d.meshStatus.peerCount = UInt32.ofNat d.activePeers.length ∧
    ∀ did, did ∈ d.activePeers ↔ ∃ state, Standing peerTimeoutSecs maxHopCount events did state := by
  intro d
  have hmem : ∀ did, did ∈ d.activePeers ↔
      ∃ state, Standing peerTimeoutSecs maxHopCount events did state := by
    intro did
    rw [PeerDiscovery.activePeers, ← AList.mem_keys, ← AList.lookup_isSome, Option.isSome_iff_exists]
    exact exists_congr fun state => lookup_run_iff peerTimeoutSecs maxHopCount events did state
  refine ⟨?_, d.peers.keys_nodup, rfl, hmem⟩
  by_cases hnone : d.activePeers = []
  · have hstatus : d.meshStatus.status = .disconnected := if_pos hnone
    rw [hstatus]
    refine iff_of_false (by decide) ?_
    rintro ⟨did, hstanding⟩
    have hactive := (hmem did).mpr hstanding
    rw [hnone] at hactive
    cases hactive
  · have hstatus : d.meshStatus.status = .connected := if_neg hnone
    obtain ⟨did, hdid⟩ := List.exists_mem_of_ne_nil _ hnone
    exact iff_of_true hstatus ⟨did, (hmem did).mp hdid⟩

/-- A connected peer that is never discovered again is dropped after the timeout of 60 seconds. -/
example :
    let peer : DiscoveredPeer := ⟨"did:key:a", .explicit "/p2p/a", 0⟩
    let connected : List PeerEvent := [.discovered peer 0, .epoch 59000000]
    ((run (step 60) ⟨3, ∅⟩ connected).meshStatus.status,
      (run (step 60) ⟨3, ∅⟩ (connected ++ [.epoch 60000000])).meshStatus.status) =
      (.connected, .disconnected) := by
  decide

end PeerTable

end TirBase
