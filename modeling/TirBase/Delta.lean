import TirBase.Primitives

/-! # Deltas

The atomic unit of change: an Automerge payload with its author, signature, schema, causal
parents, tags and Lamport value. The signature and the identifier cover the canonical bytes. -/
namespace TirBase

abbrev Uuid := BitVec 128

inductive PriorityClass
  | high | medium | low
  deriving DecidableEq

/-- Entries of the append-only tag log. -/
inductive DeltaTag
  | contaminated (rootId : DeltaId) (incidentId : Uuid)
  | decontaminated (incidentId : Uuid) (resolvedAt : ℤ)
  | resolved (byManagerDid : Did) (at_ : ℤ)
  | contaminatedByHumanReaction (incidentId : Uuid)
  | contaminatedByCorruptedMigration (migrationId : BitVec 256)
  | replayComplete (migrationId : BitVec 256)
  deriving DecidableEq

structure Delta where
  id : DeltaId
  authorDid : Did
  signature : Bytes
  schemaHash : SchemaIdentifierHash
  automergeBytes : Bytes
  priority : PriorityClass
  causalParents : List DeltaId
  tags : List DeltaTag
  lamport : UInt64
  createdAt : ℤ
  deriving DecidableEq

/-- What the signature covers: every field but the identifier and the signature. -/
structure CanonicalDeltaPayload where
  authorDid : Did
  schemaHash : SchemaIdentifierHash
  automergeBytes : Bytes
  priority : PriorityClass
  causalParents : List DeltaId
  tags : List DeltaTag
  lamport : UInt64
  createdAt : ℤ
  deriving DecidableEq

def Delta.canonicalPayload (δ : Delta) : CanonicalDeltaPayload :=
  ⟨δ.authorDid, δ.schemaHash, δ.automergeBytes, δ.priority, δ.causalParents, δ.tags, δ.lamport,
    δ.createdAt⟩

/-- The libraries the identity code calls: base58 decoding, Ed25519, SHA-256 and the JSON
serialisation of the canonical payload. -/
structure IdentityLibraries where
  bs58Decode : String → Except String Bytes
  ed25519VerifyingKey : KeyBytes → Except String Unit
  ed25519Verify : KeyBytes → Bytes → { s : Bytes // s.length = 64 } → Except String Unit
  ed25519Sign : KeyBytes → Bytes → { s : Bytes // s.length = 64 }
  sha256 : Bytes → BitVec 256
  serialiseCanonical : CanonicalDeltaPayload → Bytes

namespace IdentityLibraries
variable (lib : IdentityLibraries)

def canonicalBytes (δ : Delta) : Bytes := lib.serialiseCanonical δ.canonicalPayload

def computeId (canonical : Bytes) : DeltaId := lib.sha256 canonical

/-- Resolve a `did:key:` DID to the Ed25519 public key it encodes. -/
def resolveDid (did : Did) : Except TirBaseError KeyBytes :=
  if "did:key:z".toList.isPrefixOf did.toList then
    match lib.bs58Decode (String.ofList (did.toList.drop "did:key:z".length)) with
    | .error e => .error (.didResolutionFailed did s!"base58btc decode error: {e}")
    | .ok (0xed :: 0x01 :: keyBytes) =>
      if h : keyBytes.length = 32 then .ok ⟨keyBytes, h⟩
      else
        let got := keyBytes.length
        .error (.didResolutionFailed did s!"expected 32-byte public key, got {got} bytes")
    | .ok _ => .error (.didResolutionFailed did
        "not an ed25519 did:key (wrong multicodec prefix)")
  else .error (.didResolutionFailed did "DID must start with 'did:key:z'")

def sign (secretKey : KeyBytes) (payload : Bytes) : Bytes :=
  (lib.ed25519Sign secretKey payload).val

def verify (publicKey : KeyBytes) (payload signature : Bytes) : Except TirBaseError Unit :=
  match lib.ed25519VerifyingKey publicKey with
  | .error e => .error (.signatureVerificationFailed s!"invalid public key: {e}")
  | .ok () =>
    if h : signature.length = 64 then
      match lib.ed25519Verify publicKey payload ⟨signature, h⟩ with
      | .error e => .error (.signatureVerificationFailed s!"signature verification failed: {e}")
      | .ok () => .ok ()
    else .error (.signatureVerificationFailed "signature is not exactly 64 bytes")

end IdentityLibraries

end TirBase
