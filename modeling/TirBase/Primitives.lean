import Mathlib

/-! # Primitive data of the device core

Byte strings, identifiers and keys, JSON values and the typed error of the core's API. -/
namespace TirBase

abbrev Byte := Fin 256
abbrev Bytes := List Byte

/-- A `did:key:` string. -/
abbrev Did := String

/-- SHA-256 of a Delta's canonical bytes. -/
abbrev DeltaId := BitVec 256
abbrev SchemaIdentifierHash := BitVec 256

/-- Bytes and identifiers are compared through these instances in every module. -/
instance neZero_byte : NeZero (256 : ℕ) := ⟨by decide⟩

instance neZero_word : NeZero (2 ^ 64 : ℕ) := ⟨by decide⟩

instance lawfulBEq_id : LawfulBEq (BitVec 256) := inferInstance

instance lawfulBEq_edge : LawfulBEq (BitVec 256 × BitVec 256) := inferInstance

instance lawfulBEq_names : LawfulBEq (String × String) := inferInstance

abbrev KeyBytes := { b : Bytes // b.length = 32 }

def utf8Bytes (text : String) : Bytes := text.toUTF8.data.toList.map fun b => Fin.ofNat 256 b.toNat

theorem utf8Bytes_append (s t : String) : utf8Bytes (s ++ t) = utf8Bytes s ++ utf8Bytes t := by
  simp [utf8Bytes]

theorem utf8Bytes_injective : Function.Injective utf8Bytes := by
  have hbyte : Function.Injective fun b : UInt8 => Fin.ofNat 256 b.toNat := by
    intro a b hab
    have hval := congrArg Fin.val hab
    simp only [Fin.val_ofNat] at hval
    have ha := a.toNat_lt
    have hb := b.toNat_lt
    apply UInt8.toNat_inj.mp
    omega
  intro s t h
  have hdata : s.toUTF8.data = t.toUTF8.data := Array.toList_inj.mp (hbyte.list_map h)
  have hbytes : s.toUTF8 = t.toUTF8 := ByteArray.ext hdata
  exact String.toByteArray_inj.mp hbytes

/-- A digest as 32 bytes, the most significant first. -/
def digestBytes (digest : BitVec 256) : Bytes :=
  (List.range 32).map fun i => Fin.ofNat 256 (digest.toNat / 256 ^ (31 - i))

/-- A UUID as 16 bytes, the most significant first. -/
def uuidBytes (id : BitVec 128) : Bytes :=
  (List.range 16).map fun i => Fin.ofNat 256 (id.toNat / 256 ^ (15 - i))

/-- The JSON numbers of `serde_json`: unsigned, negative, or an IEEE double given by its bits. -/
inductive JsonNumber
  | posInt (n : Fin (2 ^ 64))
  | negInt (n : Fin (2 ^ 63))
  | float (bits : Fin (2 ^ 64))
  deriving DecidableEq

/-- A `serde_json::Value`; an object keeps its members in key order. -/
inductive JsonValue
  | null
  | bool (b : Bool)
  | number (n : JsonNumber)
  | string (s : String)
  | array (items : List JsonValue)
  | object (members : List (String × JsonValue))

/-- `Value::get` on an object. -/
def JsonValue.get? : JsonValue → String → Option JsonValue
  | .object members, key => (members.find? fun m => m.1 == key).map Prod.snd
  | _, _ => none

/-- `Value::as_str`. -/
def JsonValue.asStr? : JsonValue → Option String
  | .string s => some s
  | _ => none

/-- The errors of the core that the modelled functions return. -/
inductive TirBaseError
  | didResolutionFailed (did reason : String)
  | signatureVerificationFailed (reason : String)
  | thresholdNotMet (got need : ℕ)
  | authorisationFailed (reason : String)
  | deltaMalformed (reason : String)
  | schemaRegistrationFailed (reason : String)
  | meshUnavailable (reason : String)
  | fragmentReassemblyFailed (senderDid : String) (expected : ℕ)
  | cloudQueueFull (depth : ℕ)
  | migrationCaSignatureInvalid (migrationId : String)
  | migrationHashMismatch (migrationId : String)
  | migrationTransformTimeout (migrationId : String)
  | migrationInProgress (migrationId : String)
  | unknownMigrationHash (migrationId : String)
  | versionPathMismatch (localVer sourceVer expectedNext : String)
  | localStoreWriteFailed (reason : String)
  | refetchUnavailable (deltaId : String)
  | invalidIncidentState (got : String)
  deriving DecidableEq

/-- The `Display` text of an error. -/
def TirBaseError.message : TirBaseError → String
  | didResolutionFailed did reason => s!"DID resolution failed for {did}: {reason}"
  | signatureVerificationFailed reason => s!"Ed25519 signature verification failed: {reason}"
  | thresholdNotMet got need => s!"Threshold not met: got {got} signatures, need {need}"
  | authorisationFailed reason => s!"Authorisation error: {reason}"
  | deltaMalformed reason => s!"Delta malformed: {reason}"
  | schemaRegistrationFailed reason => s!"Schema definition registration failed: {reason}"
  | meshUnavailable reason => s!"Mesh unavailable: {reason}"
  | fragmentReassemblyFailed sender expected =>
    s!"Fragment reassembly failed from {sender}: expected {expected} fragments"
  | cloudQueueFull depth => s!"Cloud outbound queue full: depth={depth}"
  | migrationCaSignatureInvalid id => s!"Migration CA signature invalid: {id}"
  | migrationHashMismatch id => s!"Migration hash mismatch: {id}"
  | migrationTransformTimeout id => s!"Migration transform timeout: {id}"
  | migrationInProgress id => s!"Another migration is already in progress: {id}"
  | unknownMigrationHash id => s!"Migration revocation targets an unknown migration hash: {id}"
  | versionPathMismatch current source next =>
    s!"Version path mismatch: local={current}, migration_source={source}, expected_next={next}"
  | localStoreWriteFailed reason => s!"Local store write failed: {reason}"
  | refetchUnavailable id => s!"Re-fetch unavailable for delta {id}"
  | invalidIncidentState got => s!"Invalid incident state: expected OPEN, got {got}"

end TirBase
