import TirBase.Primitives
import TirBase.TransitionRuns

/-! # The capability manager

The trust level of the local device and the token operations that move it. -/
namespace TirBase.Capability
open TransitionRuns

inductive TrustLevel
  | verified | unverified | revoked
  deriving DecidableEq

structure TrustLevelStateMachine where
  level : TrustLevel
  unverifiedSince : Option ℤ
  deriving DecidableEq

namespace TrustLevelStateMachine

def new (level : TrustLevel) : TrustLevelStateMachine := ⟨level, none⟩

def onValidToken (_ : TrustLevelStateMachine) : TrustLevelStateMachine := ⟨.verified, none⟩

def onTokenExpired (t : TrustLevelStateMachine) (nowMicros : ℤ) : TrustLevelStateMachine :=
  if t.level ≠ .revoked then ⟨.unverified, some (t.unverifiedSince.getD nowMicros)⟩ else t

def onRevocation (_ : TrustLevelStateMachine) : TrustLevelStateMachine := ⟨.revoked, none⟩

def unverifiedWarning (t : TrustLevelStateMachine) : Option ℤ :=
  if t.level = .unverified then t.unverifiedSince else none

end TrustLevelStateMachine

structure BiscuitClaims where
  did : String
  role : String
  issuedAt : ℤ
  expiresAt : ℤ
  deriving DecidableEq

/-- The Biscuit library: reading a signed token, running its checks at a time, and the first
answers of the `did`, `role`, `issued_at` and `expires_at` queries, or the query that fails. -/
structure BiscuitLibrary where
  Token : Type
  publicKey : KeyBytes → Except String Unit
  read : Bytes → KeyBytes → Except String Token
  authorize : Token → ℤ → Except String Unit
  query : Token → Except (String × String) (Option String × Option String × Option ℤ × Option ℤ)

inductive TokenVerifyError
  | tokenExpired
  | otherFailure (error : TirBaseError)
  deriving DecidableEq

namespace BiscuitLibrary
variable (lib : BiscuitLibrary)

def readClaims (token : lib.Token) (nowSecs : ℤ) : Except TirBaseError BiscuitClaims :=
  match lib.query token with
  | .error (name, e) => .error (.authorisationFailed s!"{name} query failed: {e}")
  | .ok (did, role, issuedAt, expiresAt) =>
    .ok ⟨did.getD "", role.getD "", issuedAt.getD 0, expiresAt.getD nowSecs⟩

def readToken (tokenBytes : Bytes) (key : KeyBytes) : Except TirBaseError lib.Token :=
  match lib.publicKey key with
  | .error e => .error (.authorisationFailed s!"invalid root CA public key: {e}")
  | .ok () =>
    match lib.read tokenBytes key with
    | .error e => .error (.authorisationFailed s!"failed to parse/verify Biscuit token: {e}")
    | .ok token => .ok token

def verifyToken (tokenBytes : Bytes) (key : KeyBytes) (nowSecs : ℤ) :
    Except TirBaseError BiscuitClaims :=
  match lib.readToken tokenBytes key with
  | .error e => .error e
  | .ok token =>
    match lib.authorize token (max nowSecs 0) with
    | .error e =>
      .error (.authorisationFailed s!"token authorization failed (possibly expired): {e}")
    | .ok () => lib.readClaims token nowSecs

/-- The text of an authorization failure that counts as expiry. -/
def saysExpired (message : String) : Bool :=
  let text := message.toLower.toList
  decide ("expired".toList <:+: text) || decide ("authorization failed".toList <:+: text)

def verifyTokenDistinguishExpiry (tokenBytes : Bytes) (key : KeyBytes) (nowSecs : ℤ) :
    Except TokenVerifyError BiscuitClaims :=
  match lib.readToken tokenBytes key with
  | .error e => .error (.otherFailure e)
  | .ok token =>
    match lib.authorize token (max nowSecs 0) with
    | .error e =>
      if saysExpired e then .error .tokenExpired
      else .error (.otherFailure (.authorisationFailed s!"token authorization failed: {e}"))
    | .ok () =>
      match lib.readClaims token nowSecs with
      | .error e => .error (.otherFailure e)
      | .ok claims => .ok claims

end BiscuitLibrary

structure CapabilityManager where
  trustState : TrustLevelStateMachine
  rootCaKeys : List KeyBytes
  revocationM : ℕ
  revocationN : ℕ
  extendedTtlAcceptedRisk : Bool
  currentTokenExpiresAt : Option ℤ
  lastRevocationTs : Option ℤ
  deriving DecidableEq

namespace CapabilityManager

def new (rootCaKeys : List KeyBytes) (revocationM revocationN : ℕ)
    (extendedTtlAcceptedRisk : Bool) : CapabilityManager :=
  ⟨.new .unverified, rootCaKeys, revocationM, revocationN, extendedTtlAcceptedRisk, none, none⟩

def trustLevel (m : CapabilityManager) : TrustLevel := m.trustState.level

def tryKeys (lib : BiscuitLibrary) (tokenBytes : Bytes) (nowSecs : ℤ) (m : CapabilityManager) :
    List KeyBytes → Option TirBaseError → Except TirBaseError TrustLevel × CapabilityManager
  | [], lastErr =>
    (.error (lastErr.getD (.authorisationFailed "no registered root CA keys")), m)
  | key :: keys, _ =>
    match lib.verifyToken tokenBytes key nowSecs with
    | .ok _ => (.ok .verified, { m with trustState := m.trustState.onValidToken })
    | .error e => tryKeys lib tokenBytes nowSecs m keys (some e)

def verifyToken (lib : BiscuitLibrary) (m : CapabilityManager) (tokenBytes : Bytes)
    (nowSecs : ℤ) : Except TirBaseError TrustLevel × CapabilityManager :=
  if m.trustLevel = .revoked then
    (.error (.authorisationFailed "device is REVOKED; token verification is not permitted"), m)
  else tryKeys lib tokenBytes nowSecs m m.rootCaKeys none

def onTokenExpired (m : CapabilityManager) (nowMicros : ℤ) : CapabilityManager :=
  { m with trustState := m.trustState.onTokenExpired nowMicros }

/-- The first key that accepts the token or reports it expired decides. -/
def firstVerdict (lib : BiscuitLibrary) (tokenBytes : Bytes) (nowSecs : ℤ) :
    List KeyBytes → Option (Option BiscuitClaims)
  | [] => none
  | key :: keys =>
    match lib.verifyTokenDistinguishExpiry tokenBytes key nowSecs with
    | .ok claims => some (some claims)
    | .error .tokenExpired => some none
    | .error (.otherFailure _) => firstVerdict lib tokenBytes nowSecs keys

def presentToken (lib : BiscuitLibrary) (m : CapabilityManager) (tokenBytes : Bytes)
    (nowSecs nowMicros : ℤ) : Except TirBaseError TrustLevel × CapabilityManager :=
  if m.rootCaKeys = [] then
    (.error (.authorisationFailed
      "no registered root CA keys; cannot verify Biscuit token"), m)
  else
    match firstVerdict lib tokenBytes nowSecs m.rootCaKeys with
    | some (some claims) =>
      (.ok .verified, { m with
        trustState := m.trustState.onValidToken
        currentTokenExpiresAt := some claims.expiresAt })
    | some none => (.ok .unverified, m.onTokenExpired nowMicros)
    | none => (.ok .unverified, m)

def registerRootCaKey (lib : BiscuitLibrary) (m : CapabilityManager) (key : KeyBytes)
    (token : Option (Bytes × ℤ)) : Except TirBaseError TrustLevel × CapabilityManager :=
  let m := { m with
    rootCaKeys := if key ∈ m.rootCaKeys then m.rootCaKeys else m.rootCaKeys ++ [key] }
  match token with
  | some (tokenBytes, nowSecs) => verifyToken lib m tokenBytes nowSecs
  | none => (.ok m.trustLevel, m)

def applyRevocation (m : CapabilityManager) (nowMicros : ℤ) : CapabilityManager :=
  { m with trustState := m.trustState.onRevocation, lastRevocationTs := some nowMicros }

/-- One tick of the token-expiry monitor; a missing expiry compares below every time. -/
def monitorTick (m : CapabilityManager) (now : ℤ) : CapabilityManager :=
  if m.trustLevel = .verified ∧ (m.currentTokenExpiresAt.all fun t => t ≤ now) = true then
    m.onTokenExpired (now * 1000000)
  else m

/-- The gate of `write`, `read` and `query`. -/
def ensureLocalTrustAllowsIo (m : CapabilityManager) : Except TirBaseError Unit :=
  if m.trustLevel = .revoked then .error (.authorisationFailed "device is REVOKED") else .ok ()

end CapabilityManager

inductive Operation
  | verifyToken (tokenBytes : Bytes) (nowSecs : ℤ)
  | presentToken (tokenBytes : Bytes) (nowSecs nowMicros : ℤ)
  | onTokenExpired (nowMicros : ℤ)
  | monitorTick (now : ℤ)
  | registerRootCaKey (key : KeyBytes) (token : Option (Bytes × ℤ))
  | applyRevocation (nowMicros : ℤ)

def step (lib : BiscuitLibrary) (m : CapabilityManager) : Operation → CapabilityManager
  | .verifyToken tokenBytes nowSecs => (m.verifyToken lib tokenBytes nowSecs).2
  | .presentToken tokenBytes nowSecs nowMicros =>
    (m.presentToken lib tokenBytes nowSecs nowMicros).2
  | .onTokenExpired nowMicros => m.onTokenExpired nowMicros
  | .monitorTick now => m.monitorTick now
  | .registerRootCaKey key token => (m.registerRootCaKey lib key token).2
  | .applyRevocation nowMicros => m.applyRevocation nowMicros

/-- The operation presents no token that a registered key accepts before any registered key
reports it expired. -/
def PresentsNoAcceptedToken (lib : BiscuitLibrary) (m : CapabilityManager) : Operation → Prop
  | .presentToken tokenBytes nowSecs _ => ∀ claims,
      CapabilityManager.firstVerdict lib tokenBytes nowSecs m.rootCaKeys ≠ some (some claims)
  | _ => True

variable {lib : BiscuitLibrary} {m : CapabilityManager}

theorem verifyToken_of_revoked (h : m.trustLevel = .revoked) (tokenBytes : Bytes)
    (nowSecs : ℤ) : (m.verifyToken lib tokenBytes nowSecs).2 = m := by
  simp [CapabilityManager.verifyToken, h]

theorem presentToken_trustLevel (h : m.trustLevel = .revoked) (tokenBytes : Bytes)
    (nowSecs nowMicros : ℤ) :
    (m.presentToken lib tokenBytes nowSecs nowMicros).2.trustLevel = .revoked ↔
      ∀ claims, CapabilityManager.firstVerdict lib tokenBytes nowSecs m.rootCaKeys ≠
        some (some claims) := by
  have hlevel : m.trustState.level = .revoked := h
  unfold CapabilityManager.presentToken
  by_cases hkeys : m.rootCaKeys = []
  · simp [hkeys, h, CapabilityManager.firstVerdict]
  · rw [if_neg hkeys]
    cases CapabilityManager.firstVerdict lib tokenBytes nowSecs m.rootCaKeys with
    | none => simp [h]
    | some verdict =>
      cases verdict with
      | none =>
        simp [CapabilityManager.onTokenExpired, TrustLevelStateMachine.onTokenExpired,
          CapabilityManager.trustLevel, hlevel]
      | some claims =>
        simp [CapabilityManager.trustLevel, TrustLevelStateMachine.onValidToken]

/-- From a revoked state an operation leaves the device revoked exactly when it presents no
accepted token. -/
theorem step_trustLevel (h : m.trustLevel = .revoked) (op : Operation) :
    (step lib m op).trustLevel = .revoked ↔ PresentsNoAcceptedToken lib m op := by
  have hlevel : m.trustState.level = .revoked := h
  cases op with
  | verifyToken tokenBytes nowSecs =>
    simp [step, verifyToken_of_revoked h, h, PresentsNoAcceptedToken]
  | presentToken tokenBytes nowSecs nowMicros =>
    exact presentToken_trustLevel h tokenBytes nowSecs nowMicros
  | onTokenExpired nowMicros =>
    simp [step, CapabilityManager.onTokenExpired, TrustLevelStateMachine.onTokenExpired,
      CapabilityManager.trustLevel, hlevel, PresentsNoAcceptedToken]
  | monitorTick now =>
    simp [step, CapabilityManager.monitorTick, h, PresentsNoAcceptedToken]
  | registerRootCaKey key token =>
    cases token with
    | none =>
      exact iff_of_true h trivial
    | some token =>
      simp only [step, CapabilityManager.registerRootCaKey, PresentsNoAcceptedToken, iff_true]
      rw [verifyToken_of_revoked (by exact h)]
      exact h
  | applyRevocation nowMicros =>
    simp [step, CapabilityManager.applyRevocation, TrustLevelStateMachine.onRevocation,
      CapabilityManager.trustLevel, PresentsNoAcceptedToken]

theorem ensureLocalTrustAllowsIo_iff : m.ensureLocalTrustAllowsIo =
    .error (.authorisationFailed "device is REVOKED") ↔ m.trustLevel = .revoked := by
  unfold CapabilityManager.ensureLocalTrustAllowsIo
  split_ifs with h <;> simp [h]

/-- Once revoked, a device stays revoked and refuses I/O through a whole run exactly when the
run presents no token that a registered key accepts. -/
theorem revoked_absorbing_iff (lib : BiscuitLibrary) (m : CapabilityManager) (nowMicros : ℤ)
    (ops : List Operation) :
    (∀ earlier, earlier <+: ops →
      (run (step lib) (m.applyRevocation nowMicros) earlier).trustLevel = .revoked ∧
      (run (step lib) (m.applyRevocation nowMicros) earlier).ensureLocalTrustAllowsIo =
        .error (.authorisationFailed "device is REVOKED")) ↔
      Guarded (step lib) (PresentsNoAcceptedToken lib) (m.applyRevocation nowMicros) ops := by
  simp only [ensureLocalTrustAllowsIo_iff, and_self]
  have hstart : (m.applyRevocation nowMicros).trustLevel = .revoked := rfl
  have hkept : ∀ (m : CapabilityManager) (op : Operation), True → m.trustLevel = .revoked →
      ((step lib m op).trustLevel = .revoked ↔ PresentsNoAcceptedToken lib m op) :=
    fun _ op _ h => step_trustLevel h op
  exact forall_prefix_iff_guarded hkept (fun _ _ _ _ _ => trivial) trivial hstart

def sampleBiscuits : BiscuitLibrary where
  Token := Unit
  publicKey _ := .ok ()
  read bytes key := if bytes = [1] ∧ key.val = List.replicate 32 9 then .ok () else .error "format"
  authorize _ now := if now < 100 then .ok () else .error "authorization failed: expired"
  query _ := .ok (some "did:key:z6Mk", some "field", some 0, some 100)

/-- Presenting a valid token brings a revoked device back to Verified. -/
theorem presentToken_revives_revoked :
    let m := CapabilityManager.new [⟨List.replicate 32 9, by simp⟩] 1 1 false
    (m.applyRevocation 5).trustLevel = .revoked ∧
    (run (step sampleBiscuits) (m.applyRevocation 5) [.presentToken [1] 10 10000000]).trustLevel =
      .verified ∧
    (run (step sampleBiscuits) (m.applyRevocation 5)
      [.presentToken [1] 10 10000000]).ensureLocalTrustAllowsIo = .ok () := by
  decide +kernel

end TirBase.Capability
