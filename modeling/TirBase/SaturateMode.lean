import Mathlib
import TirBase.CapabilityManager
import TirBase.Delta
import TirBase.TransitionRuns

/-! # Saturate Mode

A manager's disaster alert opens a lease. The lease runs out, or enough signatures over a message
end it. -/
namespace TirBase
open Capability TransitionRuns

structure SaturateLibraries extends IdentityLibraries where
  biscuit : BiscuitLibrary
  caveats : biscuit.Token → List String
  keySizeError : ℕ → String

inductive SaturateState
  | normal | saturate
  deriving DecidableEq

structure SaturateLease where
  activatedAt : ℤ
  expiresAt : ℤ
  lastRenewedAt : Option ℤ
  activatingManagerDid : Did
  deriving DecidableEq

namespace SaturateLease

def isExpired (l : SaturateLease) (nowSecs : ℤ) : Bool := decide (l.expiresAt ≤ nowSecs)

end SaturateLease

/-- Seconds are `i64` in the code; they are the same while no time that comes, with the duration of
a lease added, passes `2 ^ 63`. -/
structure SaturateModeStateMachine where
  state : SaturateState
  lease : Option SaturateLease
  terminationThresholdM : ℕ
  rootCaPublicKey : Bytes
  leaseDurationSecs : ℤ
  deriving DecidableEq

namespace SaturateModeStateMachine

def new (terminationThresholdM : ℕ) (rootCaPublicKey : Bytes) (leaseDurationSecs : ℤ) :
    SaturateModeStateMachine :=
  ⟨.normal, none, terminationThresholdM, rootCaPublicKey, leaseDurationSecs⟩

variable (lib : SaturateLibraries)

def verifyAndCheckCaveat (tokenBytes : Bytes) (caveat : String) (rootCaPublicKey : Bytes)
    (nowSecs : ℤ) : Except TirBaseError Bool :=
  if h : rootCaPublicKey.length = 32 then
    match lib.biscuit.readToken tokenBytes ⟨rootCaPublicKey, h⟩ with
    | .error e => .error e
    | .ok token =>
      match lib.biscuit.authorize token (max nowSecs 0) with
      | .error e =>
        .error (.authorisationFailed s!"token authorization failed (possibly expired): {e}")
      | .ok () => .ok (decide (caveat ∈ lib.caveats token))
  else
    let e := lib.keySizeError rootCaPublicKey.length
    .error (.authorisationFailed s!"invalid root CA public key: {e}")

def verifyDisasterAlertToken (s : SaturateModeStateMachine) (biscuitToken : Bytes) (nowSecs : ℤ) :
    Except TirBaseError Unit :=
  if biscuitToken = [] then
    .error (.signatureVerificationFailed "DISASTER_ALERT token is absent")
  else
    match verifyAndCheckCaveat lib biscuitToken "disaster-alert" s.rootCaPublicKey nowSecs with
    | .error e =>
      let shown := e.message
      .error (.signatureVerificationFailed s!"DISASTER_ALERT token verification failed: {shown}")
    | .ok false => .error (.signatureVerificationFailed
        "DISASTER_ALERT token does not carry the 'disaster-alert' caveat")
    | .ok true => .ok ()

def activate (s : SaturateModeStateMachine) (managerDid : Did) (biscuitToken : Bytes)
    (nowSecs : ℤ) : Except TirBaseError Unit × SaturateModeStateMachine :=
  match s.verifyDisasterAlertToken lib biscuitToken nowSecs with
  | .error e => (.error e, s)
  | .ok () =>
    (.ok (), { s with
      lease := some ⟨nowSecs, nowSecs + s.leaseDurationSecs, none, managerDid⟩
      state := .saturate })

def renew (s : SaturateModeStateMachine) (biscuitToken : Bytes) (nowSecs : ℤ) :
    Except TirBaseError Unit × SaturateModeStateMachine :=
  if s.state ≠ .saturate then
    (.error (.signatureVerificationFailed "heartbeat renewal rejected: not in SATURATE mode"), s)
  else
    match s.verifyDisasterAlertToken lib biscuitToken nowSecs with
    | .error e => (.error e, s)
    | .ok () =>
      match s.lease with
      | some lease =>
        (.ok (), { s with
          lease := some { lease with
            expiresAt := nowSecs + s.leaseDurationSecs, lastRenewedAt := some nowSecs } })
      | none =>
        (.error (.signatureVerificationFailed "heartbeat renewal rejected: no active lease"), s)

/-- Base58btc behind the multibase prefix `z`. -/
def decodeMultibaseZ (s : List Char) : Option Bytes :=
  match s with
  | 'z' :: rest => (lib.bs58Decode (String.ofList rest)).toOption
  | _ => none

/-- Any failure counts as an invalid signature. -/
def verifyDidSignature (did : Did) (sigBytes message : Bytes) : Bool :=
  if "did:key:".toList.isPrefixOf did.toList then
    match decodeMultibaseZ lib (did.toList.drop "did:key:".length) with
    | some (0xed :: 0x01 :: keyBytes) =>
      if hkey : keyBytes.length = 32 then
        match lib.ed25519VerifyingKey ⟨keyBytes, hkey⟩ with
        | .error _ => false
        | .ok () =>
          if hsig : sigBytes.length = 64 then
            (lib.ed25519Verify ⟨keyBytes, hkey⟩ message ⟨sigBytes, hsig⟩).isOk
          else false
      else false
    | _ => false
  else false

def seenDids (message : Bytes) : List Did → List (Did × Bytes) → List Did
  | seen, [] => seen
  | seen, (did, sigBytes) :: signatures =>
    if did ∈ seen then seenDids message seen signatures
    else if verifyDidSignature lib did sigBytes message then
      seenDids message (seen ++ [did]) signatures
    else seenDids message seen signatures

def countValidDistinctSignatures (signatures : List (Did × Bytes)) (message : Bytes) : ℕ :=
  (seenDids lib message [] signatures).length

/-- Outside of Saturate Mode there is nothing to end. -/
def terminate (s : SaturateModeStateMachine) (signatures : List (Did × Bytes)) (message : Bytes) :
    Except TirBaseError Unit × SaturateModeStateMachine :=
  if s.state ≠ .saturate then (.ok (), s)
  else
    let validDistinct := countValidDistinctSignatures lib signatures message
    if validDistinct < s.terminationThresholdM then
      (.error (.thresholdNotMet validDistinct s.terminationThresholdM), s)
    else (.ok (), { s with state := .normal, lease := none })

def tick (s : SaturateModeStateMachine) (nowSecs : ℤ) : SaturateModeStateMachine :=
  if s.state = .saturate then
    match s.lease with
    | some lease => if lease.isExpired nowSecs then { s with state := .normal, lease := none } else s
    | none => s
  else s

inductive Operation
  | activate (managerDid : Did) (biscuitToken : Bytes) (nowSecs : ℤ)
  | renew (biscuitToken : Bytes) (nowSecs : ℤ)
  | terminate (signatures : List (Did × Bytes)) (message : Bytes)
  | tick (nowSecs : ℤ)
  deriving DecidableEq

def step (s : SaturateModeStateMachine) : Operation → SaturateModeStateMachine
  | .activate managerDid biscuitToken nowSecs => (s.activate lib managerDid biscuitToken nowSecs).2
  | .renew biscuitToken nowSecs => (s.renew lib biscuitToken nowSecs).2
  | .terminate signatures message => (s.terminate lib signatures message).2
  | .tick nowSecs => s.tick nowSecs

variable {lib} {message : Bytes} {signatures : List (Did × Bytes)} {seen : List Did} {did : Did}

theorem mem_seenDids : did ∈ seenDids lib message seen signatures ↔
    did ∈ seen ∨ ∃ sigBytes, (did, sigBytes) ∈ signatures ∧
      verifyDidSignature lib did sigBytes message = true := by
  induction signatures generalizing seen with
  | nil => simp [seenDids]
  | cons signature signatures ih =>
    obtain ⟨signer, sigBytes⟩ := signature
    have hold : (∃ s, (did, s) ∈ signatures ∧ verifyDidSignature lib did s message = true) →
        ∃ s, (did, s) ∈ (signer, sigBytes) :: signatures ∧
          verifyDidSignature lib did s message = true :=
      fun ⟨s, hs, hvalid⟩ => ⟨s, List.mem_cons_of_mem _ hs, hvalid⟩
    have hnew : (∃ s, (did, s) ∈ (signer, sigBytes) :: signatures ∧
        verifyDidSignature lib did s message = true) →
          (did = signer ∧ verifyDidSignature lib did sigBytes message = true) ∨
            ∃ s, (did, s) ∈ signatures ∧ verifyDidSignature lib did s message = true := by
      rintro ⟨s, hs, hvalid⟩
      rcases List.mem_cons.mp hs with heq | hs
      · cases heq
        exact .inl ⟨rfl, hvalid⟩
      · exact .inr ⟨s, hs, hvalid⟩
    simp only [seenDids]
    split_ifs with hseen hvalid
    · rw [ih]
      refine or_congr_right' fun hfree => ⟨hold, fun h => (hnew h).resolve_left fun hsame => ?_⟩
      exact hfree (hsame.1 ▸ hseen)
    · rw [ih, List.mem_append, List.mem_singleton, or_assoc]
      refine or_congr_right ⟨fun h => h.elim (fun hsame => ?_) hold, fun h => ?_⟩
      · subst hsame
        exact ⟨sigBytes, List.mem_cons_self, hvalid⟩
      · exact (hnew h).imp_left And.left
    · rw [ih]
      refine or_congr_right ⟨hold, fun h => (hnew h).resolve_left fun hsame => ?_⟩
      exact hvalid (hsame.1 ▸ hsame.2)

theorem nodup_seenDids (h : seen.Nodup) : (seenDids lib message seen signatures).Nodup := by
  induction signatures generalizing seen with
  | nil => exact h
  | cons signature signatures ih =>
    simp only [seenDids]
    split_ifs with hseen
    · exact ih h
    · refine ih (List.nodup_append.mpr ⟨h, List.nodup_singleton _, ?_⟩)
      intro a ha b hb hab
      rw [hab, List.mem_singleton.mp hb] at ha
      exact hseen ha
    · exact ih h

end SaturateModeStateMachine

end TirBase
