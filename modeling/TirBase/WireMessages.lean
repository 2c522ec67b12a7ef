import TirBase.CrdtEngine

/-! # Messages of the mesh

Everything on the mesh is a tagged message. The tags name the subsystem a message is for. -/
namespace TirBase

structure DeltaFragment where
  deltaId : DeltaId
  fragmentIndex : UInt32
  totalFragments : UInt32
  payload : Bytes
  deriving DecidableEq

structure ManagerSignature where
  managerDid : Did
  signature : Bytes
  deriving DecidableEq

structure RevocationDelta where
  targetDid : Did
  signatures : List ManagerSignature
  createdAt : ℤ
  deriving DecidableEq

structure BeaconToken where
  beaconDid : Did
  beaconSignature : Bytes
  epoch : UInt64
  locationClaim : String
  issuedAt : ℤ
  deriving DecidableEq

structure DurabilityReceipt where
  id : Uuid
  stateHash : BitVec 256
  issuerDid : Did
  issuerSignature : Bytes
  spatialTag : Option String
  beaconToken : Option BeaconToken
  issuedAt : ℤ
  deriving DecidableEq

abbrev MigrationId := BitVec 256

structure MigrationDelta where
  id : MigrationId
  authorDid : Did
  signature : Bytes
  sourceSchemaHash : SchemaIdentifierHash
  targetSchemaHash : SchemaIdentifierHash
  transformBytes : Bytes
  caSignature : Bytes
  transformSha256 : BitVec 256
  priority : PriorityClass
  createdAt : ℤ
  deriving DecidableEq

structure MigrationRevocationDelta where
  targetMigrationId : MigrationId
  signatures : List ManagerSignature
  createdAt : ℤ
  deriving DecidableEq

inductive GossipMessage
  | inboundDelta (delta : Delta)
  | inboundDeltaFragment (fragment : DeltaFragment)
  | inboundDurabilityReceipt (receipt : DurabilityReceipt)
  | inboundRevocationDelta (delta : RevocationDelta)
  | inboundMigrationDelta (delta : MigrationDelta)
  | inboundMigrationRevocationDelta (delta : MigrationRevocationDelta)
  | relayDelta (targetDid : Did) (delta : Delta)
  deriving DecidableEq

structure WireLibraries where
  serialiseDelta : Delta → Bytes
  parseDelta : Bytes → Option Delta
  toBytes : GossipMessage → Bytes
  fromBytes : Bytes → Option GossipMessage

/-- These messages and the Delta parse back from their text, and the empty text is no value. -/
structure WireLibraries.RoundTrips (lib : WireLibraries) (δ : Delta)
    (messages : List GossipMessage) : Prop where
  parseDelta_serialiseDelta : lib.parseDelta (lib.serialiseDelta δ) = some δ
  parseDelta_nil : lib.parseDelta [] = none
  fromBytes_toBytes : ∀ msg ∈ messages, lib.fromBytes (lib.toBytes msg) = some msg

theorem WireLibraries.RoundTrips.serialiseDelta_ne_nil {lib : WireLibraries} {δ : Delta}
    {messages : List GossipMessage} (h : lib.RoundTrips δ messages) :
    lib.serialiseDelta δ ≠ [] := by
  intro hnil
  have hparse := h.parseDelta_serialiseDelta
  rw [hnil, h.parseDelta_nil] at hparse
  cases hparse

/-- The subsystem calls of `receive_inbound`. -/
inductive InboundCall
  | applyDelta (delta : Delta)
  | receiveReceipt (receipt : DurabilityReceipt)
  | processRevocation (delta : RevocationDelta)
  | dispatchMigration (delta : MigrationDelta)
  | revokeMigration (delta : MigrationRevocationDelta)
  deriving DecidableEq

/-- The arm that `receive_inbound` takes: a fragment is discarded there and a relayed Delta
falls through to the last arm. -/
def inboundCall : GossipMessage → Option InboundCall
  | .inboundDeltaFragment _ => none
  | .inboundDelta δ => some (.applyDelta δ)
  | .inboundDurabilityReceipt receipt => some (.receiveReceipt receipt)
  | .inboundRevocationDelta δ => some (.processRevocation δ)
  | .inboundMigrationDelta δ => some (.dispatchMigration δ)
  | .inboundMigrationRevocationDelta δ => some (.revokeMigration δ)
  | .relayDelta _ _ => none

def asciiBytes (text : String) : Bytes := text.toList.map fun c => Fin.ofNat 256 c.toNat

def jsonArray (bytes : Bytes) : Bytes :=
  let numbers := bytes.map fun b => (Nat.toDigits 10 b.val).map fun c => Fin.ofNat 256 c.toNat
  asciiBytes "[" ++ (asciiBytes ",").intercalate numbers ++ asciiBytes "]"

end TirBase
