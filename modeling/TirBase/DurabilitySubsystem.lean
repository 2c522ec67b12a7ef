import Mathlib
import TirBase.WireMessages

/-! # Durability tiers and the cloud outbound queue

Every Delta written here waits in the queue until the Cloud Ledger acknowledges it. -/
namespace TirBase

inductive DurabilityTier
  | uncommitted | tier1 | tier2
  deriving DecidableEq

structure QueueEntry where
  deltaId : DeltaId
  deltaBytes : Option Bytes
  causalParents : List DeltaId
  compacted : Bool
  receiptHolders : List Did
  tier2Durable : Bool
  deriving DecidableEq

def QueueEntry.new (deltaId : DeltaId) (deltaBytes : Bytes) (causalParents : List DeltaId) :
    QueueEntry := ⟨deltaId, some deltaBytes, causalParents, false, [], false⟩

def maxQueueDepth : ℕ := 100000

structure CloudOutboundQueue where
  queue : List QueueEntry
  deriving DecidableEq

namespace CloudOutboundQueue

def new : CloudOutboundQueue := ⟨[]⟩

def depth (q : CloudOutboundQueue) : ℕ := q.queue.length

def enqueue (q : CloudOutboundQueue) (entry : QueueEntry) :
    Except TirBaseError CloudOutboundQueue :=
  if maxQueueDepth ≤ q.queue.length then .error (.cloudQueueFull q.queue.length)
  else .ok ⟨q.queue ++ [entry]⟩

def acknowledge (q : CloudOutboundQueue) (deltaId : DeltaId) : CloudOutboundQueue :=
  ⟨q.queue.filter fun e => e.deltaId ≠ deltaId⟩

def updateFirst (change : QueueEntry → QueueEntry) (deltaId : DeltaId) :
    List QueueEntry → List QueueEntry
  | [] => []
  | e :: es => if e.deltaId = deltaId then change e :: es else e :: updateFirst change deltaId es

def markCompacted (q : CloudOutboundQueue) (deltaId : DeltaId) : CloudOutboundQueue :=
  ⟨updateFirst (fun e => { e with compacted := true, deltaBytes := none }) deltaId q.queue⟩

def addReceiptHolder (q : CloudOutboundQueue) (deltaId : DeltaId) (holderDid : Did) :
    CloudOutboundQueue :=
  ⟨updateFirst (fun e => { e with receiptHolders :=
      if holderDid ∈ e.receiptHolders then e.receiptHolders
      else e.receiptHolders ++ [holderDid] }) deltaId q.queue⟩

def ids (q : CloudOutboundQueue) : List DeltaId := q.queue.map QueueEntry.deltaId

theorem ids_updateFirst {change : QueueEntry → QueueEntry}
    (h : ∀ e, (change e).deltaId = e.deltaId) (deltaId : DeltaId) (es : List QueueEntry) :
    (updateFirst change deltaId es).map QueueEntry.deltaId = es.map QueueEntry.deltaId := by
  induction es with
  | nil => rfl
  | cons e es ih =>
    by_cases he : e.deltaId = deltaId
    · simp [updateFirst, he, h]
    · simp [updateFirst, he, ih]

@[simp] theorem ids_markCompacted (q : CloudOutboundQueue) (deltaId : DeltaId) :
    (q.markCompacted deltaId).ids = q.ids := by
  unfold markCompacted ids
  exact ids_updateFirst (fun e => by rfl) deltaId q.queue

theorem enqueue_of_lt {q : CloudOutboundQueue} (h : q.queue.length < maxQueueDepth)
    (entry : QueueEntry) : q.enqueue entry = .ok ⟨q.queue ++ [entry]⟩ := by
  rw [enqueue, if_neg (not_le.mpr h)]

theorem enqueue_of_le {q : CloudOutboundQueue} (h : maxQueueDepth ≤ q.queue.length)
    (entry : QueueEntry) : q.enqueue entry = .error (.cloudQueueFull q.queue.length) := by
  rw [enqueue, if_pos h]

end CloudOutboundQueue

/-- `receipt_signing_payload`. -/
def receiptSigningPayload (stateHash : BitVec 256) (receiptId : Uuid) : Bytes :=
  digestBytes stateHash ++ uuidBytes receiptId

/-- `verify_receipt`: the state hash first, then the signature. -/
def verifyReceipt (lib : IdentityLibraries) (receipt : DurabilityReceipt)
    (issuerPublicKey : KeyBytes) (expectedStateHash : BitVec 256) : Except TirBaseError Unit :=
  let issuer := receipt.issuerDid
  if receipt.stateHash ≠ expectedStateHash then
    let expected := expectedStateHash.toHex
    let got := receipt.stateHash.toHex
    .error (.signatureVerificationFailed
      s!"state-hash mismatch for peer {issuer}: expected {expected}, got {got}")
  else
    match lib.verify issuerPublicKey (receiptSigningPayload receipt.stateHash receipt.id)
      receipt.issuerSignature with
    | .error e =>
      let shown := e.message
      .error (.signatureVerificationFailed
        s!"receipt signature invalid for peer {issuer}: {shown}")
    | .ok () => .ok ()

structure DeltaDurabilityState where
  stateHash : BitVec 256
  tier : DurabilityTier
  peerPublicKeys : AList fun _ : Did => KeyBytes
  compactionPermitted : Bool
  deriving DecidableEq

structure DurabilitySubsystem where
  states : AList fun _ : DeltaId => DeltaDurabilityState
  cloudQueue : CloudOutboundQueue
  deriving DecidableEq

namespace DurabilitySubsystem

def new : DurabilitySubsystem := ⟨∅, .new⟩

/-- The state is entered before the queue is asked for room. -/
def registerDelta (d : DurabilitySubsystem) (deltaId : DeltaId) (stateHash : BitVec 256)
    (serialisedBytes : Bytes) (causalParents : List DeltaId)
    (peerPublicKeys : AList fun _ : Did => KeyBytes) :
    Except TirBaseError Unit × DurabilitySubsystem :=
  let d := { d with
    states := d.states.insert deltaId ⟨stateHash, .uncommitted, peerPublicKeys, false⟩ }
  match d.cloudQueue.enqueue (.new deltaId serialisedBytes causalParents) with
  | .error e => (.error e, d)
  | .ok queue => (.ok (), { d with cloudQueue := queue })

def onCloudAck (d : DurabilitySubsystem) (deltaId : DeltaId) : DurabilitySubsystem :=
  { states :=
      match d.states.lookup deltaId with
      | some state => d.states.insert deltaId { state with tier := .tier2 }
      | none => d.states
    cloudQueue := d.cloudQueue.acknowledge deltaId }

/-- `register_peer_key`: an unknown Delta has no keys to refresh. -/
def registerPeerKey (d : DurabilitySubsystem) (deltaId : DeltaId) (peerDid : Did)
    (publicKey : KeyBytes) : DurabilitySubsystem :=
  match d.states.lookup deltaId with
  | none => d
  | some state =>
    let state := { state with peerPublicKeys := state.peerPublicKeys.insert peerDid publicKey }
    { d with states := d.states.insert deltaId state }

/-- `receive_receipt`. The verdict is what the anchor and the quorum tracker say of a receipt
whose signature holds: an error, or whether the quorum is reached. -/
def receiveReceipt (lib : IdentityLibraries) (d : DurabilitySubsystem)
    (receipt : DurabilityReceipt) (deltaId : DeltaId) (verdict : Except TirBaseError Bool) :
    Except TirBaseError Bool × DurabilitySubsystem :=
  match d.states.lookup deltaId with
  | none => (.ok false, d)
  | some state =>
    let issuer := receipt.issuerDid
    match state.peerPublicKeys.lookup issuer with
    | none =>
      let hex := deltaId.toHex
      (.error (.signatureVerificationFailed
        s!"no known public key for issuer {issuer} (delta {hex})"), d)
    | some publicKey =>
      match verifyReceipt lib receipt publicKey state.stateHash, verdict with
      | .error e, _ => (.error e, d)
      | .ok (), .error e => (.error e, d)
      | .ok (), .ok achieved =>
        let queue := d.cloudQueue.addReceiptHolder deltaId issuer
        if achieved ∧ state.tier = .uncommitted then
          let state := { state with tier := .tier1, compactionPermitted := true }
          (.ok true, ⟨d.states.insert deltaId state, queue⟩)
        else (.ok false, { d with cloudQueue := queue })

def durabilityTier (d : DurabilitySubsystem) (deltaId : DeltaId) : DurabilityTier :=
  ((d.states.lookup deltaId).map DeltaDurabilityState.tier).getD .uncommitted

theorem registerDelta_of_lt {d : DurabilitySubsystem}
    (h : d.cloudQueue.queue.length < maxQueueDepth) (deltaId : DeltaId) (stateHash : BitVec 256)
    (serialisedBytes : Bytes) (causalParents : List DeltaId)
    (peerPublicKeys : AList fun _ : Did => KeyBytes) :
    d.registerDelta deltaId stateHash serialisedBytes causalParents peerPublicKeys =
      (.ok (), ⟨d.states.insert deltaId ⟨stateHash, .uncommitted, peerPublicKeys, false⟩,
        ⟨d.cloudQueue.queue ++ [.new deltaId serialisedBytes causalParents]⟩⟩) := by
  simp only [registerDelta, CloudOutboundQueue.enqueue_of_lt h]

theorem registerDelta_of_le {d : DurabilitySubsystem}
    (h : maxQueueDepth ≤ d.cloudQueue.queue.length) (deltaId : DeltaId)
    (stateHash : BitVec 256) (serialisedBytes : Bytes) (causalParents : List DeltaId)
    (peerPublicKeys : AList fun _ : Did => KeyBytes) :
    (d.registerDelta deltaId stateHash serialisedBytes causalParents peerPublicKeys).1 =
      .error (.cloudQueueFull d.cloudQueue.queue.length) := by
  simp only [registerDelta, CloudOutboundQueue.enqueue_of_le h]

end DurabilitySubsystem

end TirBase
