import Mathlib
import TirBase.CapabilityManager
import TirBase.WireMessages

/-! # Device revocation

Signatures of managers accumulate per target. Once `m` of them are there the target counts as
revoked, the complete message is announced and the target's Deltas are tagged. -/
namespace TirBase
open Capability

namespace RevocationDelta

def signingPayload (lib : IdentityLibraries) (targetDid : Did) : Bytes :=
  digestBytes (lib.sha256 (utf8Bytes "revoke:" ++ utf8Bytes targetDid))

end RevocationDelta

structure PendingRevocation where
  targetDid : Did
  signatures : List ManagerSignature
  thresholdM : ℕ
  thresholdN : ℕ
  initiatedAt : ℤ
  lastReceiptTimestamp : Option ℤ
  deriving DecidableEq

inductive RevocationStatus
  | pending (collected required : ℕ)
  | applied
  deriving DecidableEq

structure DeviceRevocationStatus where
  deviceDid : Did
  lastKnownTrustLevel : TrustLevel
  lastRevocationDeltaReceivedAt : Option ℤ
  deriving DecidableEq

structure PendingRevocationStore where
  pending : AList fun _ : Did => PendingRevocation
  deriving DecidableEq

namespace PendingRevocationStore

def empty : PendingRevocationStore := ⟨∅⟩

def addSignature (lib : IdentityLibraries) (s : PendingRevocationStore) (targetDid : Did)
    (sig : ManagerSignature) (thresholdM thresholdN : ℕ) (revokedDids : List Did) (now : ℤ) :
    Except TirBaseError RevocationStatus × PendingRevocationStore :=
  let manager := sig.managerDid
  if manager ∈ revokedDids then
    (.error (.authorisationFailed
      s!"manager DID '{manager}' is REVOKED and cannot contribute revocation signatures"), s)
  else
    match lib.resolveDid manager with
    | .error e => (.error e, s)
    | .ok publicKey =>
      match lib.verify publicKey (RevocationDelta.signingPayload lib targetDid) sig.signature with
      | .error e => (.error e, s)
      | .ok () =>
        let entry := (s.pending.lookup targetDid).getD
          ⟨targetDid, [], thresholdM, thresholdN, now, none⟩
        let entry := { entry with thresholdM := thresholdM, thresholdN := thresholdN }
        let store := fun entry : PendingRevocation =>
          (⟨s.pending.insert targetDid entry⟩ : PendingRevocationStore)
        if manager ∈ entry.signatures.map ManagerSignature.managerDid then
          (.error (.authorisationFailed s!"duplicate signature from manager DID '{manager}'"),
            store entry)
        else if thresholdM ≤ entry.signatures.length then (.ok .applied, store entry)
        else
          let entry := { entry with signatures := entry.signatures ++ [sig] }
          if thresholdM ≤ entry.signatures.length then
            (.ok .applied, store { entry with lastReceiptTimestamp := some now })
          else (.ok (.pending entry.signatures.length thresholdM), store entry)

def status (s : PendingRevocationStore) (targetDid : Did) : Option RevocationStatus :=
  (s.pending.lookup targetDid).map fun p =>
    if p.thresholdM ≤ p.signatures.length then .applied
    else .pending p.signatures.length p.thresholdM

def buildRevocationDelta (s : PendingRevocationStore) (targetDid : Did) :
    Option RevocationDelta :=
  (s.pending.lookup targetDid).bind fun entry =>
    if entry.signatures.length < entry.thresholdM then none
    else some ⟨targetDid, entry.signatures,
      entry.lastReceiptTimestamp.getD entry.initiatedAt⟩

end PendingRevocationStore

structure RevocationSubsystem where
  store : PendingRevocationStore
  deviceStatus : AList fun _ : Did => DeviceRevocationStatus
  thresholdM : ℕ
  thresholdN : ℕ
  revokedDids : List Did
  deriving DecidableEq

/-- What the callbacks of a revocation are called with. -/
inductive RevocationEffect
  | revocationApplied (targetDid : Did) (completeDelta : RevocationDelta)
  | cceTrigger (targetDid : Did) (deltaIds : List DeltaId)
  deriving DecidableEq

namespace RevocationSubsystem

def new (thresholdM thresholdN : ℕ) : RevocationSubsystem := ⟨.empty, ∅, thresholdM, thresholdN, []⟩

/-- Every signature is tried; a bad one is logged and the rest still count. -/
def addSignatures (lib : IdentityLibraries) (r : RevocationSubsystem) (targetDid : Did) (now : ℤ)
    (lastStatus : Option RevocationStatus) :
    List ManagerSignature → Option RevocationStatus × RevocationSubsystem
  | [] => (lastStatus, r)
  | sig :: sigs =>
    let out := r.store.addSignature lib targetDid sig r.thresholdM r.thresholdN r.revokedDids now
    let r := { r with store := out.2 }
    match out.1 with
    | .ok status => addSignatures lib r targetDid now (some status) sigs
    | .error _ => addSignatures lib r targetDid now lastStatus sigs

/-- `authored` is what the DAG query finds, nothing when it fails. -/
def processIncomingDelta (lib : IdentityLibraries) (r : RevocationSubsystem)
    (δ : RevocationDelta) (authored : List DeltaId) (now : ℤ) :
    Except TirBaseError RevocationStatus × RevocationSubsystem × List RevocationEffect :=
  if δ.targetDid = "" then
    (.error (.deltaMalformed "RevocationDelta.target_did is empty"), r, [])
  else if δ.signatures = [] then (.error (.thresholdNotMet 0 r.thresholdM), r, [])
  else
    let out := r.addSignatures lib δ.targetDid now none δ.signatures
    let r := out.2
    match out.1.or (r.store.status δ.targetDid) with
    | none => (.error (.thresholdNotMet 0 r.thresholdM), r, [])
    | some .applied =>
      if δ.targetDid ∈ r.revokedDids then (.ok .applied, r, [])
      else
        let complete := (r.store.buildRevocationDelta δ.targetDid).getD δ
        (.ok .applied,
          { r with
            revokedDids := r.revokedDids ++ [δ.targetDid]
            deviceStatus := r.deviceStatus.insert δ.targetDid
              ⟨δ.targetDid, .revoked, some now⟩ },
          .revocationApplied δ.targetDid complete ::
            if authored = [] then [] else [.cceTrigger δ.targetDid authored])
    | some status => (.ok status, r, [])

/-- The loop of the validation, with the managers seen and the valid signatures counted so far. -/
def countValid (lib : IdentityLibraries) (revokedDids : List Did) (payload : Bytes)
    (seenDids : Finset Did) (validCount : ℕ) : List ManagerSignature → ℕ
  | [] => validCount
  | sig :: sigs =>
    if sig.managerDid ∈ revokedDids then
      countValid lib revokedDids payload seenDids validCount sigs
    else if sig.managerDid ∈ seenDids then
      countValid lib revokedDids payload seenDids validCount sigs
    else
      let seenDids := insert sig.managerDid seenDids
      match lib.resolveDid sig.managerDid with
      | .error _ => countValid lib revokedDids payload seenDids validCount sigs
      | .ok publicKey =>
        match lib.verify publicKey payload sig.signature with
        | .error _ => countValid lib revokedDids payload seenDids validCount sigs
        | .ok () => countValid lib revokedDids payload seenDids (validCount + 1) sigs

def validateRevocationDelta (lib : IdentityLibraries) (r : RevocationSubsystem)
    (δ : RevocationDelta) : Except TirBaseError Unit :=
  if δ.targetDid = "" then .error (.deltaMalformed "RevocationDelta.target_did is empty")
  else
    let validCount := countValid lib r.revokedDids (RevocationDelta.signingPayload lib δ.targetDid)
      ∅ 0 δ.signatures
    if r.thresholdM ≤ validCount then .ok ()
    else .error (.thresholdNotMet validCount r.thresholdM)

/-- The revocations of the last `withinMicros`, in the order in which they were applied. -/
def buildRecentRevocationDeltas (r : RevocationSubsystem) (withinMicros now : ℤ) :
    List RevocationDelta :=
  (r.revokedDids.filter fun did =>
    (((r.deviceStatus.lookup did).bind fun s => s.lastRevocationDeltaReceivedAt).map fun ts =>
      decide (now - withinMicros ≤ ts)).getD false).filterMap r.store.buildRevocationDelta

def producePartialDelta (lib : IdentityLibraries) (targetDid managerDid : Did)
    (managerSigningKey : KeyBytes) (now : ℤ) : RevocationDelta :=
  ⟨targetDid, [⟨managerDid, lib.sign managerSigningKey
    (RevocationDelta.signingPayload lib targetDid)⟩], now⟩

end RevocationSubsystem

end TirBase
