import TirBase.CloudSync
import TirBase.LittleEndian
import TirBase.QuorumTracker

/-! # Receipts, beacons and quorums

The durability subsystem with the quorum tracker of every Delta and with the beacons. While beacons
attest locations, a receipt is counted under the location of its token; otherwise under its own tag.
-/
namespace TirBase
open TransitionRuns

structure BeaconRegistryEntry where
  beaconDid : Did
  publicKey : KeyBytes
  deriving DecidableEq

def beaconTokenSigningPayload (epoch : UInt64) (locationClaim : String) : Bytes :=
  LittleEndian.toBytes 8 epoch.toNat ++ utf8Bytes locationClaim

inductive AnchorMode
  | beaconAttested | squadTagFallback
  deriving DecidableEq

structure TransportDegradationEvent where
  timestamp : ℤ
  affectedPeerDids : List Did
  reason : String
  deriving DecidableEq

structure AnchorAttestedLocation where
  beaconRegistry : List BeaconRegistryEntry
  currentEpoch : UInt64
  mode : AnchorMode
  degradationLog : List TransportDegradationEvent
  beaconLastSeen : AList fun _ : KeyBytes => ℤ
  deriving DecidableEq

namespace AnchorAttestedLocation

def new (beaconRegistry : List BeaconRegistryEntry) (initialEpoch : UInt64) :
    AnchorAttestedLocation :=
  ⟨beaconRegistry, initialEpoch, .beaconAttested, [], ∅⟩

def advanceEpoch (a : AnchorAttestedLocation) (newEpoch : UInt64) : AnchorAttestedLocation :=
  if a.currentEpoch < newEpoch then { a with currentEpoch := newEpoch } else a

def findBeaconKey (a : AnchorAttestedLocation) (beaconDid : Did) : Option KeyBytes :=
  (a.beaconRegistry.find? fun e => e.beaconDid = beaconDid).map BeaconRegistryEntry.publicKey

/-- The beacon is registered, the epoch is not in the past, the signature holds. -/
def verifyBeaconToken (lib : IdentityLibraries) (a : AnchorAttestedLocation) (token : BeaconToken)
    (nowSecs : ℤ) : Except TirBaseError Unit × AnchorAttestedLocation :=
  let did := token.beaconDid
  match a.findBeaconKey did with
  | none => (.error (.signatureVerificationFailed
      s!"unrecognised beacon DID: {did} — token rejected (unknown-beacon)"), a)
  | some publicKey =>
    if token.epoch < a.currentEpoch then
      let epoch := token.epoch
      let current := a.currentEpoch
      (.error (.signatureVerificationFailed (s!"beacon token epoch {epoch} is stale " ++
        s!"(current epoch {current}); rejecting as replay attempt")), a)
    else
      match lib.verify publicKey (beaconTokenSigningPayload token.epoch token.locationClaim)
          token.beaconSignature with
      | .error e =>
        let shown := e.message
        (.error (.signatureVerificationFailed
          s!"beacon token signature invalid for beacon {did}: {shown}"), a)
      | .ok () => (.ok (), { a with beaconLastSeen := a.beaconLastSeen.insert publicKey nowSecs })

/-- There is no way back from the squad tags. -/
def onBeaconSignalLost (a : AnchorAttestedLocation) (timestamp : ℤ) (affectedPeerDids : List Did) :
    AnchorAttestedLocation :=
  let peers := ", ".intercalate affectedPeerDids
  let reason := s!"Beacon signal lost at timestamp {timestamp}. Affected peers: [{peers}]. " ++
    "Reverting Spatial_Diversity to squad-tag mode."
  { a with
    degradationLog := a.degradationLog ++ [⟨timestamp, affectedPeerDids, reason⟩]
    mode := .squadTagFallback }

end AnchorAttestedLocation

namespace Quorum

structure DeltaDurabilityState extends TirBase.DeltaDurabilityState where
  quorum : Tier1QuorumTracker
  deriving DecidableEq

structure DurabilitySubsystem where
  quorumConfig : QuorumConfig
  states : AList fun _ : DeltaId => DeltaDurabilityState
  anchor : Option AnchorAttestedLocation
  cloudQueue : CloudOutboundQueue
  deriving DecidableEq

def diversityTag (lib : IdentityLibraries) (anchor : Option AnchorAttestedLocation)
    (receipt : DurabilityReceipt) (deltaId : DeltaId) (nowSecs : ℤ) :
    Except TirBaseError (Option String) × Option AnchorAttestedLocation :=
  let issuer := receipt.issuerDid
  let hex := deltaId.toHex
  match anchor with
  | none => (.ok none, none)
  | some a =>
    match a.mode with
    | .squadTagFallback => (.ok none, some a)
    | .beaconAttested =>
      match receipt.beaconToken with
      | none => (.error (.signatureVerificationFailed
          (s!"peer {issuer} sent a DurabilityReceipt with no beacon token; " ++
            "Anchor_Attested_Location is enabled — peer not counted toward " ++
            s!"Spatial_Diversity (Req 15.2; delta {hex})")), some a)
      | some token =>
        match a.verifyBeaconToken lib token nowSecs with
        | (.error e, a) =>
          let shown := e.message
          (.error (.signatureVerificationFailed
            s!"beacon token from peer {issuer} rejected: {shown} (delta {hex})"), some a)
        | (.ok (), a) => (.ok (some token.locationClaim), some a)

namespace DurabilitySubsystem

def withAnchor (quorumConfig : QuorumConfig) (anchor : Option AnchorAttestedLocation) :
    DurabilitySubsystem := ⟨quorumConfig, ∅, anchor, .new⟩

def freshState (d : DurabilitySubsystem) (stateHash : BitVec 256)
    (peerPublicKeys : AList fun _ : Did => KeyBytes) : DeltaDurabilityState :=
  ⟨⟨stateHash, .uncommitted, peerPublicKeys, false⟩, .new d.quorumConfig⟩

/-- The state is entered before the queue is asked for room. -/
def registerDelta (d : DurabilitySubsystem) (deltaId : DeltaId) (stateHash : BitVec 256)
    (serialisedBytes : Bytes) (causalParents : List DeltaId)
    (peerPublicKeys : AList fun _ : Did => KeyBytes) :
    Except TirBaseError Unit × DurabilitySubsystem :=
  let d := { d with states := d.states.insert deltaId (d.freshState stateHash peerPublicKeys) }
  match d.cloudQueue.enqueue (.new deltaId serialisedBytes causalParents) with
  | .error e => (.error e, d)
  | .ok queue => (.ok (), { d with cloudQueue := queue })

def registerPeerKey (d : DurabilitySubsystem) (deltaId : DeltaId) (peerDid : Did)
    (publicKey : KeyBytes) : DurabilitySubsystem :=
  match d.states.lookup deltaId with
  | none => d
  | some state =>
    let state := { state with peerPublicKeys := state.peerPublicKeys.insert peerDid publicKey }
    { d with states := d.states.insert deltaId state }

/-- The tracker counts a verified receipt; the first quorum makes the Delta Tier-1. -/
def countReceipt (d : DurabilitySubsystem) (deltaId : DeltaId) (state : DeltaDurabilityState)
    (receipt : DurabilityReceipt) (tag : Option String) : Bool × DurabilitySubsystem :=
  let added := state.quorum.addReceiptWithTag receipt tag
  let state := { state with quorum := added.2 }
  let queue := d.cloudQueue.addReceiptHolder deltaId receipt.issuerDid
  if added.1 = true ∧ state.tier = .uncommitted then
    let state := { state with tier := .tier1, compactionPermitted := true }
    (true, { d with states := d.states.insert deltaId state, cloudQueue := queue })
  else (false, { d with states := d.states.insert deltaId state, cloudQueue := queue })

def receiveReceipt (lib : IdentityLibraries) (d : DurabilitySubsystem)
    (receipt : DurabilityReceipt) (deltaId : DeltaId) (nowSecs : ℤ) :
    Except TirBaseError Bool × DurabilitySubsystem :=
  match d.states.lookup deltaId with
  | none => (.ok false, d)
  | some state =>
    let issuer := receipt.issuerDid
    match state.peerPublicKeys.lookup issuer with
    | none =>
      let hex := deltaId.toHex
      (.error (.signatureVerificationFailed
        s!"no known public key for issuer {issuer} (delta {hex})"), d)
    | some publicKey =>
      match verifyReceipt lib receipt publicKey state.stateHash with
      | .error e => (.error e, d)
      | .ok () =>
        match diversityTag lib d.anchor receipt deltaId nowSecs with
        | (.error e, anchor) => (.error e, { d with anchor := anchor })
        | (.ok tag, anchor) =>
          let out := { d with anchor := anchor }.countReceipt deltaId state receipt tag
          (.ok out.1, out.2)

def onCloudAck (d : DurabilitySubsystem) (deltaId : DeltaId) : DurabilitySubsystem :=
  { d with
    states :=
      match d.states.lookup deltaId with
      | some state => d.states.insert deltaId { state with tier := .tier2 }
      | none => d.states
    cloudQueue := d.cloudQueue.acknowledge deltaId }

/-- `run_cloud_sync_cycle`: what the ledger acknowledged becomes Tier-2. -/
def runCloudSyncCycle {Γ : Type*} (sendDelta : Γ → DeltaId → Bytes → Except String Unit × Γ)
    (refetch : DeltaId → List Did → Option Bytes) (d : DurabilitySubsystem) (conn : Γ) :
    DurabilitySubsystem :=
  if d.cloudQueue.depth = 0 then d
  else
    let out := cloudSyncLoop sendDelta refetch d.cloudQueue conn
    out.result.acknowledgedIds.foldl onCloudAck { d with cloudQueue := out.queue }

def durabilityTier (d : DurabilitySubsystem) (deltaId : DeltaId) : DurabilityTier :=
  ((d.states.lookup deltaId).map fun state => state.tier).getD .uncommitted

end DurabilitySubsystem

/-- A token that a registered beacon signed, in the current epoch or later. -/
structure BeaconVerified (lib : IdentityLibraries) (a : AnchorAttestedLocation)
    (token : BeaconToken) : Prop where
  epoch : ¬token.epoch < a.currentEpoch
  signed : ∃ publicKey, a.findBeaconKey token.beaconDid = some publicKey ∧
    lib.verify publicKey (beaconTokenSigningPayload token.epoch token.locationClaim)
      token.beaconSignature = .ok ()

variable {lib : IdentityLibraries} {receipt : DurabilityReceipt} {deltaId : DeltaId} {nowSecs : ℤ}

theorem verifyBeaconToken_cases (lib : IdentityLibraries) (a : AnchorAttestedLocation)
    (token : BeaconToken) (nowSecs : ℤ) :
    (∃ e, a.verifyBeaconToken lib token nowSecs = (.error e, a)) ∨
      BeaconVerified lib a token ∧ ∃ lastSeen, a.verifyBeaconToken lib token nowSecs =
        (.ok (), { a with beaconLastSeen := lastSeen }) := by
  unfold AnchorAttestedLocation.verifyBeaconToken
  cases hkey : a.findBeaconKey token.beaconDid with
  | none =>
    simp only [hkey]
    exact .inl ⟨_, rfl⟩
  | some publicKey =>
    by_cases hstale : token.epoch < a.currentEpoch
    · simp only [hkey, hstale, if_true]
      exact .inl ⟨_, rfl⟩
    · simp only [hkey, hstale, if_false]
      cases hverify : lib.verify publicKey
          (beaconTokenSigningPayload token.epoch token.locationClaim) token.beaconSignature with
      | error e => exact .inl ⟨_, rfl⟩
      | ok u => exact .inr ⟨⟨hstale, publicKey, hkey, hverify⟩, _, rfl⟩

/-- What the anchor says of a receipt: nothing without beacons, and else the location of a token
that they signed. -/
inductive Anchored (lib : IdentityLibraries) (receipt : DurabilityReceipt) :
    Option AnchorAttestedLocation → Option String → Prop
  | disabled : Anchored lib receipt none none
  | fallback {a : AnchorAttestedLocation} (mode : a.mode = .squadTagFallback) :
      Anchored lib receipt (some a) none
  | attested {a : AnchorAttestedLocation} {token : BeaconToken} (mode : a.mode = .beaconAttested)
      (carried : receipt.beaconToken = some token) (verified : BeaconVerified lib a token) :
      Anchored lib receipt (some a) (some token.locationClaim)

/-- Two anchors that differ in when they saw their beacons only. -/
def SameAnchor (anchor anchor' : Option AnchorAttestedLocation) : Prop :=
  ∃ lastSeen : AnchorAttestedLocation → AList fun _ : KeyBytes => ℤ,
    anchor' = anchor.map fun a => { a with beaconLastSeen := lastSeen a }

theorem SameAnchor.refl (anchor : Option AnchorAttestedLocation) : SameAnchor anchor anchor :=
  ⟨fun a => a.beaconLastSeen, by cases anchor <;> rfl⟩

theorem diversityTag_cases (lib : IdentityLibraries) (anchor : Option AnchorAttestedLocation)
    (receipt : DurabilityReceipt) (deltaId : DeltaId) (nowSecs : ℤ) :
    (∃ e, diversityTag lib anchor receipt deltaId nowSecs = (.error e, anchor)) ∨
      ∃ tag anchor', diversityTag lib anchor receipt deltaId nowSecs = (.ok tag, anchor') ∧
        Anchored lib receipt anchor tag ∧ SameAnchor anchor anchor' := by
  cases anchor with
  | none => exact .inr ⟨none, none, rfl, .disabled, .refl none⟩
  | some a =>
    unfold diversityTag
    cases hmode : a.mode with
    | squadTagFallback =>
      simp only [hmode]
      exact .inr ⟨none, some a, rfl, .fallback hmode, .refl _⟩
    | beaconAttested =>
      cases htoken : receipt.beaconToken with
      | none =>
        simp only [hmode]
        exact .inl ⟨_, rfl⟩
      | some token =>
        rcases verifyBeaconToken_cases lib a token nowSecs with
          ⟨e, hverify⟩ | ⟨hverified, lastSeen, hverify⟩
        · simp only [hmode, hverify]
          exact .inl ⟨_, rfl⟩
        · simp only [hmode, hverify]
          have hsame : SameAnchor (some a) (some { a with beaconLastSeen := lastSeen }) :=
            ⟨fun _ => lastSeen, rfl⟩
          rw [← hmode]
          exact .inr ⟨_, _, rfl, .attested hmode htoken hverified, hsame⟩

/-- The receipt passes every check for a registered Delta; it is counted under the tag. -/
structure Admitted (lib : IdentityLibraries) (d : DurabilitySubsystem)
    (receipt : DurabilityReceipt) (deltaId : DeltaId) (state : DeltaDurabilityState)
    (tag : Option String) : Prop where
  registered : d.states.lookup deltaId = some state
  signed : ∃ publicKey, state.peerPublicKeys.lookup receipt.issuerDid = some publicKey ∧
    receipt.stateHash = state.stateHash ∧
      lib.verify publicKey (receiptSigningPayload state.stateHash receipt.id)
        receipt.issuerSignature = .ok ()
  anchored : Anchored lib receipt d.anchor tag

theorem verifyReceipt_eq_ok {publicKey : KeyBytes} {stateHash : BitVec 256}
    (h : verifyReceipt lib receipt publicKey stateHash = .ok ()) :
    receipt.stateHash = stateHash ∧ lib.verify publicKey
      (receiptSigningPayload stateHash receipt.id) receipt.issuerSignature = .ok () := by
  unfold verifyReceipt at h
  split_ifs at h with hhash
  rw [not_not] at hhash
  subst hhash
  cases hverify : lib.verify publicKey (receiptSigningPayload receipt.stateHash receipt.id)
      receipt.issuerSignature with
  | error e =>
    rw [hverify] at h
    cases h
  | ok u => exact ⟨rfl, rfl⟩

namespace DurabilitySubsystem

/-- A receipt is refused and changes nothing, or it is admitted and counted. -/
theorem receiveReceipt_cases (lib : IdentityLibraries) (d : DurabilitySubsystem)
    (receipt : DurabilityReceipt) (deltaId : DeltaId) (nowSecs : ℤ) :
    (d.receiveReceipt lib receipt deltaId nowSecs).2 = d ∧
      (∀ b, (d.receiveReceipt lib receipt deltaId nowSecs).1 = .ok b →
        d.states.lookup deltaId = none ∧ b = false) ∨
    ∃ state tag anchor, Admitted lib d receipt deltaId state tag ∧ SameAnchor d.anchor anchor ∧
      d.receiveReceipt lib receipt deltaId nowSecs =
        (.ok ({ d with anchor := anchor }.countReceipt deltaId state receipt tag).1,
          ({ d with anchor := anchor }.countReceipt deltaId state receipt tag).2) := by
  unfold receiveReceipt
  cases hlookup : d.states.lookup deltaId with
  | none =>
    refine .inl ⟨rfl, fun b hb => ?_⟩
    cases hb
    exact ⟨rfl, rfl⟩
  | some state =>
    cases hkey : state.peerPublicKeys.lookup receipt.issuerDid with
    | none =>
      simp only [hkey]
      exact .inl ⟨trivial, fun b hb => by cases hb⟩
    | some publicKey =>
      simp only [hkey]
      cases hverify : verifyReceipt lib receipt publicKey state.stateHash with
      | error e => exact .inl ⟨rfl, fun b hb => by cases hb⟩
      | ok u =>
        have hsigned := verifyReceipt_eq_ok hverify
        rcases diversityTag_cases lib d.anchor receipt deltaId nowSecs with
          ⟨e, htag⟩ | ⟨tag, anchor, htag, hanchored, hsame⟩
        · simp only [htag]
          exact .inl ⟨trivial, fun b hb => by cases hb⟩
        · simp only [htag]
          have hadmitted : Admitted lib d receipt deltaId state tag :=
            ⟨hlookup, ⟨publicKey, hkey, hsigned⟩, hanchored⟩
          exact .inr ⟨state, tag, anchor, hadmitted, hsame, rfl⟩

/-- The tier table and the queue, as the device keeps them: the subsystem without what it counts. -/
structure Refines (d : DurabilitySubsystem) (base : TirBase.DurabilitySubsystem) : Prop where
  states : ∀ id, base.states.lookup id =
    (d.states.lookup id).map DeltaDurabilityState.toDeltaDurabilityState
  cloudQueue : base.cloudQueue = d.cloudQueue

variable {d : DurabilitySubsystem} {base : TirBase.DurabilitySubsystem}

theorem refines_new (quorumConfig : QuorumConfig) (anchor : Option AnchorAttestedLocation) :
    Refines (withAnchor quorumConfig anchor) .new := ⟨fun id => by rfl, rfl⟩

/-- The same entry of a Delta on both sides, over the same queue. -/
theorem Refines.insert (h : Refines d base) (deltaId : DeltaId) (state : DeltaDurabilityState)
    (queue : CloudOutboundQueue) (anchor : Option AnchorAttestedLocation) :
    Refines
      { d with states := d.states.insert deltaId state, cloudQueue := queue, anchor := anchor }
      ⟨base.states.insert deltaId state.toDeltaDurabilityState, queue⟩ := by
  refine ⟨fun id => ?_, rfl⟩
  by_cases hid : id = deltaId
  · subst hid
    rw [AList.lookup_insert, AList.lookup_insert]
    rfl
  · rw [AList.lookup_insert_ne hid, AList.lookup_insert_ne hid]
    exact h.states id

theorem Refines.registerDelta (h : Refines d base) (deltaId : DeltaId) (stateHash : BitVec 256)
    (bytes : Bytes) (parents : List DeltaId) (keys : AList fun _ : Did => KeyBytes) :
    (base.registerDelta deltaId stateHash bytes parents keys).1 =
        (d.registerDelta deltaId stateHash bytes parents keys).1 ∧
      Refines (d.registerDelta deltaId stateHash bytes parents keys).2
        (base.registerDelta deltaId stateHash bytes parents keys).2 := by
  have hinsert := h.insert deltaId (d.freshState stateHash keys)
  unfold DurabilitySubsystem.registerDelta TirBase.DurabilitySubsystem.registerDelta
  dsimp only
  rw [h.cloudQueue]
  cases d.cloudQueue.enqueue (.new deltaId bytes parents) with
  | error e => exact ⟨rfl, hinsert d.cloudQueue d.anchor⟩
  | ok queue => exact ⟨rfl, hinsert queue d.anchor⟩

theorem Refines.registerPeerKey (h : Refines d base) (deltaId : DeltaId) (peerDid : Did)
    (publicKey : KeyBytes) : Refines (d.registerPeerKey deltaId peerDid publicKey)
      (base.registerPeerKey deltaId peerDid publicKey) := by
  unfold DurabilitySubsystem.registerPeerKey TirBase.DurabilitySubsystem.registerPeerKey
  rw [h.states deltaId, h.cloudQueue]
  cases d.states.lookup deltaId with
  | none => exact h
  | some state =>
    exact h.insert deltaId
      { state with peerPublicKeys := state.peerPublicKeys.insert peerDid publicKey }
      d.cloudQueue d.anchor

theorem Refines.onCloudAck (h : Refines d base) (deltaId : DeltaId) :
    Refines (d.onCloudAck deltaId) (base.onCloudAck deltaId) := by
  unfold DurabilitySubsystem.onCloudAck TirBase.DurabilitySubsystem.onCloudAck
  rw [h.states deltaId, h.cloudQueue]
  cases d.states.lookup deltaId with
  | none => exact ⟨h.states, rfl⟩
  | some state =>
    exact h.insert deltaId { state with tier := .tier2 } (d.cloudQueue.acknowledge deltaId) d.anchor

/-- What a tracker counts is not in the tier table. -/
theorem Refines.insert_quorum (h : Refines d base) {deltaId : DeltaId}
    {state : DeltaDurabilityState} (hlookup : d.states.lookup deltaId = some state)
    (quorum : Tier1QuorumTracker) (queue : CloudOutboundQueue)
    (anchor : Option AnchorAttestedLocation) : Refines
      { d with
        states := d.states.insert deltaId { state with quorum := quorum }
        cloudQueue := queue
        anchor := anchor }
      ⟨base.states, queue⟩ := by
  refine ⟨fun id => ?_, rfl⟩
  by_cases hid : id = deltaId
  · subst hid
    rw [AList.lookup_insert, h.states, hlookup]
    rfl
  · rw [AList.lookup_insert_ne hid]
    exact h.states id

def verdict (lib : IdentityLibraries) (d : DurabilitySubsystem) (receipt : DurabilityReceipt)
    (deltaId : DeltaId) (nowSecs : ℤ) : Except TirBaseError Bool :=
  match d.states.lookup deltaId with
  | none => .ok false
  | some state => (diversityTag lib d.anchor receipt deltaId nowSecs).1.map fun tag =>
      (state.quorum.addReceiptWithTag receipt tag).1

theorem Refines.receiveReceipt (h : Refines d base) (lib : IdentityLibraries)
    (receipt : DurabilityReceipt) (deltaId : DeltaId) (nowSecs : ℤ) :
    let out := base.receiveReceipt lib receipt deltaId (d.verdict lib receipt deltaId nowSecs)
    out.1 = (d.receiveReceipt lib receipt deltaId nowSecs).1 ∧
      Refines (d.receiveReceipt lib receipt deltaId nowSecs).2 out.2 := by
  unfold DurabilitySubsystem.receiveReceipt TirBase.DurabilitySubsystem.receiveReceipt verdict
  rw [h.states deltaId]
  cases hlookup : d.states.lookup deltaId with
  | none => exact ⟨rfl, h⟩
  | some state =>
    dsimp only [Option.map_some]
    cases state.peerPublicKeys.lookup receipt.issuerDid with
    | none => exact ⟨rfl, h⟩
    | some publicKey =>
      dsimp only
      cases verifyReceipt lib receipt publicKey state.stateHash with
      | error e => exact ⟨rfl, h⟩
      | ok u =>
        rcases diversityTag lib d.anchor receipt deltaId nowSecs with ⟨answer, anchor⟩
        cases answer with
        | error e => exact ⟨rfl, h.states, h.cloudQueue⟩
        | ok tag =>
          simp only [Except.map, countReceipt, h.cloudQueue]
          split_ifs
          · exact ⟨rfl, h.insert deltaId _ _ anchor⟩
          · exact ⟨rfl, h.insert_quorum hlookup _ _ anchor⟩

end DurabilitySubsystem

end Quorum

end TirBase
