import TirBase.CapabilityManager
import TirBase.Delta
import TirBase.LeastRecentlyUsed

/-! # Noise sessions

The session manager of the mesh transport: handshakes with a back-off after a failure, the cache of
resumption credentials and the rotation of the keys of live sessions. -/
namespace TirBase
open Capability TransitionRuns

inductive SessionError
  | peerRevoked (peerDid : Did)
  | noiseHandshakeFailed (peerDid : Did) (reason : String)
  deriving DecidableEq

/-- The `snow` handshake over its states, with the randomness it draws, and the conversions of Ed25519
keys to X25519. -/
structure NoiseLibraries extends IdentityLibraries where
  Builder : Type
  HandshakeState : Type
  TransportState : Type
  localPrivateKey : Bytes → Except String Builder
  remotePublicKey : Builder → Bytes → Except String Builder
  buildInitiator : Builder → Except String HandshakeState
  writeMessage : HandshakeState → ℕ → Except String (HandshakeState × Bytes)
  readMessage : HandshakeState → Bytes → Except String HandshakeState
  intoTransportMode : HandshakeState → Except String TransportState
  getRemoteStatic : TransportState → Option Bytes
  rekeyOutgoing : TransportState → TransportState
  rekeyIncoming : TransportState → TransportState
  toMontgomery : KeyBytes → Bytes
  toScalarBytes : KeyBytes → Bytes

/-- What a stream does in a handshake; a read fills the whole buffer. -/
structure NoiseStream where
  writeNoiseMessage : Bytes → Except String Unit
  readNoiseMessage : Except String { b : Bytes // b.length = 65535 }

structure ResumptionCredential where
  peerDid : Did
  issuedAt : ℤ
  credentialBytes : Bytes
  deriving DecidableEq

def credentialValiditySecs : ℤ := 24 * 3600

def ResumptionCredential.isValid (c : ResumptionCredential) (nowSecs : ℤ) : Bool :=
  nowSecs - c.issuedAt < credentialValiditySecs

structure PeerPair where
  localDid : Did
  remoteDid : Did
  deriving DecidableEq

structure HandshakeFailureRecord where
  peerDid : Did
  failedAt : ℤ
  reason : String
  deriving DecidableEq

def minRetryBackoffSecs : ℤ := 30

def HandshakeFailureRecord.backoffElapsed (r : HandshakeFailureRecord) (nowSecs : ℤ) : Bool :=
  nowSecs - r.failedAt ≥ minRetryBackoffSecs

/-- A session has a transport state when its handshake was run here. -/
structure NoiseSession (TransportState : Type) where
  remoteDid : Did
  lastRotatedSecs : ℤ
  rotationIntervalSecs : ℕ
  transport : Option TransportState
  deriving DecidableEq

def NoiseSession.rotationDue {TransportState : Type} (s : NoiseSession TransportState)
    (nowSecs : ℤ) : Bool :=
  nowSecs - s.lastRotatedSecs ≥ s.rotationIntervalSecs

def maxResumptionCache : ℕ := 1024
def minRotationIntervalSecs : ℕ := 60
def maxRotationIntervalSecs : ℕ := 86400

structure SessionManager where
  resumptionCache :
    LeastRecentlyUsed.Cache PeerPair ResumptionCredential maxResumptionCache
  failureRecords : List HandshakeFailureRecord
  rotationIntervalSecs : ℕ
  localDid : Did
  deriving DecidableEq

namespace SessionManager

def new (localDid : Did) (rotationIntervalSecs : ℕ) : SessionManager where
  resumptionCache := .empty
  failureRecords := []
  rotationIntervalSecs :=
    min (max rotationIntervalSecs minRotationIntervalSecs) maxRotationIntervalSecs
  localDid := localDid

def hasValidCredential (m : SessionManager) (peerDid : Did) (nowSecs : ℤ) : Bool :=
  ((m.resumptionCache.peek ⟨m.localDid, peerDid⟩).map fun c => c.isValid nowSecs).getD false

def storeCredential (m : SessionManager) (peerDid : Did) (credential : ResumptionCredential) :
    SessionManager :=
  { m with resumptionCache := m.resumptionCache.put ⟨m.localDid, peerDid⟩ credential }

def recordFailure (m : SessionManager) (peerDid : Did) (reason : String) (nowSecs : ℤ) :
    SessionManager :=
  { m with failureRecords := (m.failureRecords.filter fun r => !r.backoffElapsed nowSecs) ++
      [⟨peerDid, nowSecs, reason⟩] }

def inBackoff (m : SessionManager) (peerDid : Did) (nowSecs : ℤ) : Bool :=
  m.failureRecords.any fun r => r.peerDid == peerDid && !r.backoffElapsed nowSecs

/-- Drop the credential of the peer when it is past its validity. -/
def evictExpired (m : SessionManager) (peerDid : Did) (nowSecs : ℤ) : SessionManager :=
  match m.resumptionCache.peek ⟨m.localDid, peerDid⟩ with
  | some credential =>
    if credential.isValid nowSecs then m
    else { m with resumptionCache := m.resumptionCache.pop ⟨m.localDid, peerDid⟩ }
  | none => m

section Handshake
variable (lib : NoiseLibraries)

def registerSession (m : SessionManager) (peerDid : Did) (nowSecs : ℤ) :
    NoiseSession lib.TransportState × SessionManager :=
  (⟨peerDid, nowSecs, m.rotationIntervalSecs, none⟩,
    m.storeCredential peerDid ⟨peerDid, nowSecs, []⟩)

def streamRequired : String :=
  "full_ik_handshake requires a stream for the production Noise IK wire exchange"

/-- The messages of the handshake. A failure comes with whether it counts for the back-off: one over the
keys, or while the first message is written, does not. -/
def exchange (localStaticPrivkey remoteStaticPubkey : Bytes) (stream : Option NoiseStream)
    (entropy : ℕ) : Except (String × Bool) lib.TransportState := do
  let builder ← (lib.localPrivateKey localStaticPrivkey).mapError
    fun e => (s!"local_private_key: {e}", false)
  let builder ← (lib.remotePublicKey builder remoteStaticPubkey).mapError
    fun e => (s!"remote_public_key: {e}", false)
  let initiator ← (lib.buildInitiator builder).mapError
    fun e => (s!"build_initiator: {e}", true)
  let (initiator, msg1) ← (lib.writeMessage initiator entropy).mapError
    fun e => (s!"initiator write_message 1: {e}", false)
  let stream ← match stream with
    | some stream => Except.ok stream
    | none => .error (streamRequired, true)
  (stream.writeNoiseMessage msg1).mapError fun e => (s!"stream write_message 1: {e}", true)
  let msg2 ← stream.readNoiseMessage.mapError fun e => (s!"stream read_message 2: {e}", true)
  let initiator ← (lib.readMessage initiator msg2).mapError
    fun e => (s!"initiator read_message 2: {e}", true)
  (lib.intoTransportMode initiator).mapError fun e => (s!"into_transport_mode: {e}", true)

def fullIkHandshake (m : SessionManager) (peerDid : Did)
    (localStaticPrivkey remoteStaticPubkey : Bytes) (stream : Option NoiseStream) (entropy : ℕ)
    (nowSecs : ℤ) : Except SessionError (NoiseSession lib.TransportState) × SessionManager :=
  match exchange lib localStaticPrivkey remoteStaticPubkey stream entropy with
  | .error (reason, counts) => (.error (.noiseHandshakeFailed peerDid reason),
      if counts then m.recordFailure peerDid reason nowSecs else m)
  | .ok transport =>
    (.ok ⟨peerDid, nowSecs, m.rotationIntervalSecs, some transport⟩, m.storeCredential peerDid
      ⟨peerDid, nowSecs, (lib.getRemoteStatic transport).getD []⟩)

def initiate (m : SessionManager) (peerDid : Did) (peerTrustLevel : TrustLevel)
    (localStaticPrivkey remoteStaticPubkey : Bytes) (stream : Option NoiseStream) (entropy : ℕ)
    (nowSecs : ℤ) : Except SessionError (NoiseSession lib.TransportState) × SessionManager :=
  if peerTrustLevel = .revoked then (.error (.peerRevoked peerDid), m)
  else if m.inBackoff peerDid nowSecs then
    (.error (.noiseHandshakeFailed peerDid "retry backoff active"), m)
  else
    (m.evictExpired peerDid nowSecs).fullIkHandshake lib peerDid localStaticPrivkey
      remoteStaticPubkey stream entropy nowSecs

/-- Both directions are rekeyed in place; a session without a transport state cannot be. -/
def rotateKeys (session : NoiseSession lib.TransportState) (nowSecs : ℤ) :
    Except SessionError (NoiseSession lib.TransportState) :=
  match session.transport with
  | none => .error (.noiseHandshakeFailed session.remoteDid
      "rotate_keys called on session without transport state")
  | some transport => .ok { session with
      transport := some (lib.rekeyIncoming (lib.rekeyOutgoing transport)),
      lastRotatedSecs := nowSecs }

end Handshake
end SessionManager

structure MeshSessions (lib : NoiseLibraries) where
  sessionManager : SessionManager
  activeSessions : AList fun _ : Did => NoiseSession lib.TransportState

namespace MeshSessions
open SessionManager
variable (lib : NoiseLibraries)

def new (localDid : Did) (keyRotationIntervalSecs : ℕ) : MeshSessions lib :=
  ⟨.new localDid keyRotationIntervalSecs, ∅⟩

def ed25519PubkeyToX25519 (ed25519Pubkey : KeyBytes) : Except String Bytes :=
  match lib.ed25519VerifyingKey ed25519Pubkey with
  | .error e => .error s!"Ed25519 public key parse error during X25519 conversion: {e}"
  | .ok () => .ok (lib.toMontgomery ed25519Pubkey)

def ed25519PrivkeyToX25519 (ed25519Privkey : Bytes) : Except SessionError Bytes :=
  if h : ed25519Privkey.length = 32 then .ok (lib.toScalarBytes ⟨ed25519Privkey, h⟩)
  else
    let got := ed25519Privkey.length
    .error (.noiseHandshakeFailed ""
      s!"expected 32-byte Ed25519 private key seed for X25519 conversion, got {got} bytes")

/-- The X25519 key of the peer: the one that is passed, or the one that its DID encodes. -/
def remoteKey (peerDid : Did) (remoteStaticPubkey : Bytes) : Option Bytes :=
  if remoteStaticPubkey = [] then
    match lib.resolveDid peerDid with
    | .error _ => none
    | .ok ed25519Pk => (ed25519PubkeyToX25519 lib ed25519Pk).toOption
  else some remoteStaticPubkey

variable {lib}

/-- A peer whose key is not known is registered without a handshake. -/
def initiateSession (t : MeshSessions lib) (peerDid : Did) (peerTrustLevel : TrustLevel)
    (localStaticPrivkey remoteStaticPubkey : Bytes) (stream : Option NoiseStream) (entropy : ℕ)
    (nowSecs : ℤ) : Except SessionError Unit × MeshSessions lib :=
  match ed25519PrivkeyToX25519 lib localStaticPrivkey with
  | .error e => (.error e, t)
  | .ok x25519LocalPrivkey =>
    match remoteKey lib peerDid remoteStaticPubkey with
    | none =>
      let (session, manager) := t.sessionManager.registerSession lib peerDid nowSecs
      (.ok (), ⟨manager, t.activeSessions.insert peerDid session⟩)
    | some x25519Pk =>
      match t.sessionManager.initiate lib peerDid peerTrustLevel x25519LocalPrivkey x25519Pk
          stream entropy nowSecs with
      | (.error e, manager) => (.error e, { t with sessionManager := manager })
      | (.ok session, manager) => (.ok (), ⟨manager, t.activeSessions.insert peerDid session⟩)

/-- A session after a tick: one that cannot be rotated is left as it is. -/
def tickSession (nowSecs : ℤ) (session : NoiseSession lib.TransportState) :
    NoiseSession lib.TransportState :=
  if session.rotationDue nowSecs then
    match rotateKeys lib session nowSecs with
    | .ok session => session
    | .error _ => session
  else session

def tickKeyRotation (t : MeshSessions lib) (nowSecs : ℤ) : MeshSessions lib :=
  { t with activeSessions :=
      ⟨t.activeSessions.entries.map fun e => ⟨e.1, tickSession nowSecs e.2⟩, by
        have hkeys : (t.activeSessions.entries.map
            fun e : (_ : Did) × NoiseSession lib.TransportState =>
              (⟨e.1, tickSession nowSecs e.2⟩ : (_ : Did) × NoiseSession lib.TransportState)).keys =
            t.activeSessions.entries.keys := by
          simp [List.keys, Function.comp_def]
        rw [List.NodupKeys, hkeys]
        exact t.activeSessions.nodupKeys⟩ }

inductive Operation
  | initiateSession (peerDid : Did) (peerTrustLevel : TrustLevel)
      (localStaticPrivkey remoteStaticPubkey : Bytes) (stream : Option NoiseStream) (entropy : ℕ)
      (nowSecs : ℤ)
  | tickKeyRotation (nowSecs : ℤ)

def Operation.now : Operation → ℤ
  | .initiateSession _ _ _ _ _ _ nowSecs => nowSecs
  | .tickKeyRotation nowSecs => nowSecs

def step (t : MeshSessions lib) : Operation → MeshSessions lib
  | .initiateSession peerDid trust localKey remoteKey stream entropy nowSecs =>
    (t.initiateSession peerDid trust localKey remoteKey stream entropy nowSecs).2
  | .tickKeyRotation nowSecs => t.tickKeyRotation nowSecs

end MeshSessions
end TirBase
