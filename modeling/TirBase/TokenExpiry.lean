import TirBase.CapabilityManager

/-! # Token expiry

Which token a device holds, and until when it stays Verified by it. -/
namespace TirBase.TokenExpiry
open Capability CapabilityManager TransitionRuns

inductive TokenOperation
  | presentToken (tokenBytes : Bytes) (nowSecs nowMicros : ℤ)
  | registerRootCaKey (key : KeyBytes) (token : Option (Bytes × ℤ))
  | monitorTick (now : ℤ)

def TokenOperation.operation : TokenOperation → Operation
  | .presentToken tokenBytes nowSecs nowMicros => .presentToken tokenBytes nowSecs nowMicros
  | .registerRootCaKey key token => .registerRootCaKey key token
  | .monitorTick now => .monitorTick now

variable (lib : BiscuitLibrary)

def firstClaims (tokenBytes : Bytes) (nowSecs : ℤ) : List KeyBytes → Option BiscuitClaims
  | [] => none
  | key :: keys =>
    match lib.verifyToken tokenBytes key nowSecs with
    | .ok claims => some claims
    | .error _ => firstClaims tokenBytes nowSecs keys

def acceptedClaims (m : CapabilityManager) : TokenOperation → Option BiscuitClaims
  | .presentToken tokenBytes nowSecs _ => (firstVerdict lib tokenBytes nowSecs m.rootCaKeys).join
  | .registerRootCaKey key (some (tokenBytes, nowSecs)) =>
    firstClaims lib tokenBytes nowSecs (m.registerRootCaKey lib key none).2.rootCaKeys
  | .registerRootCaKey _ none => none
  | .monitorTick _ => none

def reportsExpired (m : CapabilityManager) : TokenOperation → Bool
  | .presentToken tokenBytes nowSecs _ =>
    firstVerdict lib tokenBytes nowSecs m.rootCaKeys == some none
  | _ => false

/-- A capability manager with the token it accepted last, and whether an expired one was presented
since. -/
structure TokenHistory where
  manager : CapabilityManager
  accepted : Option BiscuitClaims
  expiredSince : Bool
  deriving DecidableEq

def TokenHistory.start (m : CapabilityManager) : TokenHistory := ⟨m, none, false⟩

def record (s : TokenHistory) (op : TokenOperation) : TokenHistory :=
  let manager := step lib s.manager op.operation
  match acceptedClaims lib s.manager op with
  | some claims => ⟨manager, some claims, false⟩
  | none => ⟨manager, s.accepted, s.expiredSince || reportsExpired lib s.manager op⟩

def ticks : List TokenOperation → List ℤ :=
  List.filterMap fun
    | .monitorTick now => some now
    | _ => none

/-- A token that the registration of a key accepts expires when the recorded one does. -/
def RegistersRecorded (s : TokenHistory) : TokenOperation → Prop
  | .registerRootCaKey key token =>
    ∀ claims ∈ acceptedClaims lib s.manager (.registerRootCaKey key token),
      s.manager.currentTokenExpiresAt = some claims.expiresAt
  | _ => True

variable {lib} {m : CapabilityManager}

theorem tryKeys_manager (tokenBytes : Bytes) (nowSecs : ℤ) (m : CapabilityManager)
    (keys : List KeyBytes) (lastErr : Option TirBaseError) :
    (tryKeys lib tokenBytes nowSecs m keys lastErr).2 =
      if (firstClaims lib tokenBytes nowSecs keys).isSome
        then { m with trustState := m.trustState.onValidToken } else m := by
  induction keys generalizing lastErr with
  | nil => rfl
  | cons key keys ih =>
    cases hverify : lib.verifyToken tokenBytes key nowSecs with
    | ok claims => simp [tryKeys, firstClaims, hverify]
    | error e => simpa [tryKeys, firstClaims, hverify] using ih (some e)

theorem rootCaKeys_verifyToken (m : CapabilityManager) (tokenBytes : Bytes) (nowSecs : ℤ) :
    (m.verifyToken lib tokenBytes nowSecs).2.rootCaKeys = m.rootCaKeys := by
  unfold verifyToken
  split
  · rfl
  · rw [tryKeys_manager]
    split <;> rfl

def expiryAfter (m : CapabilityManager) (claims : BiscuitClaims) : TokenOperation → Option ℤ
  | .presentToken _ _ _ => some claims.expiresAt
  | _ => m.currentTokenExpiresAt

/-- An accepted token makes the device Verified; only a presentation records its expiry. -/
theorem step_of_accepted {op : TokenOperation} {claims : BiscuitClaims}
    (hlevel : m.trustLevel ≠ .revoked) (haccepted : acceptedClaims lib m op = some claims) :
    (step lib m op.operation).trustLevel = .verified ∧
      (step lib m op.operation).currentTokenExpiresAt = expiryAfter m claims op := by
  cases op with
  | presentToken tokenBytes nowSecs nowMicros =>
    have hverdict := Option.join_eq_some_iff.mp haccepted
    have hkeys : m.rootCaKeys ≠ [] := by
      rintro hkeys
      rw [hkeys] at hverdict
      cases hverdict
    simp [TokenOperation.operation, step, presentToken, hkeys, hverdict, trustLevel,
      TrustLevelStateMachine.onValidToken, expiryAfter]
  | registerRootCaKey key token =>
    cases token with
    | none => cases haccepted
    | some token =>
      have hclaims : firstClaims lib token.1 token.2
          (m.registerRootCaKey lib key none).2.rootCaKeys = some claims := haccepted
      have hregistered : (m.registerRootCaKey lib key none).2.trustLevel ≠ .revoked := hlevel
      simp only [TokenOperation.operation, step, registerRootCaKey, verifyToken]
      simp only [registerRootCaKey] at hclaims hregistered
      rw [if_neg hregistered, tryKeys_manager, hclaims]
      exact ⟨rfl, rfl⟩
  | monitorTick now => cases haccepted

/-- Without an accepted token the recorded expiry stays, and the device is Verified afterwards only
if it was, if no token was reported expired, and if a tick comes before the recorded expiry. -/
theorem step_of_not_accepted {op : TokenOperation} (hlevel : m.trustLevel ≠ .revoked)
    (haccepted : acceptedClaims lib m op = none) :
    (step lib m op.operation).currentTokenExpiresAt = m.currentTokenExpiresAt ∧
      (step lib m op.operation).trustLevel ≠ .revoked ∧
      ((step lib m op.operation).trustLevel = .verified ↔
        m.trustLevel = .verified ∧ reportsExpired lib m op = false ∧
          ∀ now ∈ ticks [op], ∃ t ∈ m.currentTokenExpiresAt, now < t) := by
  cases op with
  | presentToken tokenBytes nowSecs nowMicros =>
    have hlevel' : m.trustState.level ≠ .revoked := hlevel
    by_cases hkeys : m.rootCaKeys = []
    · simp [TokenOperation.operation, step, presentToken, hkeys, reportsExpired, firstVerdict,
        hlevel, ticks]
    · cases hverdict : firstVerdict lib tokenBytes nowSecs m.rootCaKeys with
      | none =>
        simp [TokenOperation.operation, step, presentToken, hkeys, hverdict, reportsExpired, hlevel,
          ticks]
      | some verdict =>
        cases verdict with
        | none =>
          simp [TokenOperation.operation, step, presentToken, hkeys, hverdict, reportsExpired,
            onTokenExpired, TrustLevelStateMachine.onTokenExpired, trustLevel, hlevel']
        | some claims => simp [acceptedClaims, hverdict] at haccepted
  | registerRootCaKey key token =>
    cases token with
    | none =>
      simp [TokenOperation.operation, step, registerRootCaKey, reportsExpired, ticks, trustLevel]
      exact hlevel
    | some token =>
      have hclaims : firstClaims lib token.1 token.2
          (m.registerRootCaKey lib key none).2.rootCaKeys = none := haccepted
      have hregistered : (m.registerRootCaKey lib key none).2.trustLevel ≠ .revoked := hlevel
      simp only [TokenOperation.operation, step, registerRootCaKey, verifyToken]
      simp only [registerRootCaKey] at hclaims hregistered
      rw [if_neg hregistered, tryKeys_manager, hclaims]
      simp [reportsExpired, ticks, trustLevel]
      exact hlevel
  | monitorTick now =>
    simp only [TokenOperation.operation, step, monitorTick, reportsExpired, ticks]
    by_cases hverified : m.trustLevel = .verified
    · have hstate : m.trustState.level = .verified := hverified
      cases hexpiry : m.currentTokenExpiresAt with
      | none =>
        simp [hexpiry, onTokenExpired, TrustLevelStateMachine.onTokenExpired, trustLevel, hstate]
      | some t =>
        by_cases ht : t ≤ now
        · simp [hexpiry, ht, not_lt.mpr ht, onTokenExpired, TrustLevelStateMachine.onTokenExpired,
            trustLevel, hstate]
        · simp [hverified, hexpiry, ht, not_le.mp ht]
    · simp [hverified, hlevel]

/-- How the level stands to the token that was accepted last, after the ticks of a run. -/
structure Tracks (past : List ℤ) (s : TokenHistory) : Prop where
  notRevoked : s.manager.trustLevel ≠ .revoked
  recorded : s.manager.currentTokenExpiresAt = s.accepted.map BiscuitClaims.expiresAt
  held : s.manager.trustLevel = .verified → s.accepted.isSome ∧ s.expiredSince = false
  lapsed : s.manager.trustLevel ≠ .verified → s.expiredSince = false →
    ∀ claims ∈ s.accepted, ∃ now ∈ past, claims.expiresAt ≤ now

theorem tracks_start (rootCaKeys : List KeyBytes) (revocationM revocationN : ℕ)
    (extendedTtlAcceptedRisk : Bool) :
    Tracks [] (.start (.new rootCaKeys revocationM revocationN extendedTtlAcceptedRisk)) := by
  refine ⟨?_, rfl, ?_, ?_⟩
  · simp [TokenHistory.start, new, trustLevel, TrustLevelStateMachine.new]
  · intro hverified
    cases hverified
  · intro _ _ claims hclaims
    cases hclaims

theorem Tracks.record {past : List ℤ} {s : TokenHistory} {op : TokenOperation}
    (h : Tracks past s) (hguard : RegistersRecorded lib s op) :
    Tracks (past ++ ticks [op]) (record lib s op) := by
  unfold TokenExpiry.record
  cases haccepted : acceptedClaims lib s.manager op with
  | some claims =>
    obtain ⟨hverified, hexpiry⟩ := step_of_accepted h.notRevoked haccepted
    refine ⟨?_, ?_, fun _ => ⟨rfl, rfl⟩, fun hlevel => absurd hverified hlevel⟩
    · simp [hverified]
    · cases op with
      | presentToken tokenBytes nowSecs nowMicros => exact hexpiry
      | registerRootCaKey key token => exact hexpiry.trans (hguard claims haccepted)
      | monitorTick now => cases haccepted
  | none =>
    obtain ⟨hexpiry, hrevoked, hlevel⟩ := step_of_not_accepted h.notRevoked haccepted
    refine ⟨hrevoked, hexpiry.trans h.recorded, fun hverified => ?_, fun hnot hexpired => ?_⟩
    · obtain ⟨hbefore, hreported, -⟩ := hlevel.mp hverified
      obtain ⟨hsome, hsince⟩ := h.held hbefore
      exact ⟨hsome, by simp [hsince, hreported]⟩
    · obtain ⟨hsince, hreported⟩ := Bool.or_eq_false_iff.mp hexpired
      intro claims hclaims
      by_cases hbefore : s.manager.trustLevel = .verified
      · have hticked : ¬∀ now ∈ ticks [op], ∃ t ∈ s.manager.currentTokenExpiresAt, now < t :=
          fun hticks => hnot (hlevel.mpr ⟨hbefore, hreported, hticks⟩)
        push Not at hticked
        obtain ⟨now, hnow, hlate⟩ := hticked
        have hrecorded : claims.expiresAt ∈ s.manager.currentTokenExpiresAt := by
          rw [h.recorded]
          exact Option.mem_map_of_mem _ hclaims
        exact ⟨now, List.mem_append_right _ hnow, hlate _ hrecorded⟩
      · obtain ⟨now, hnow, hlate⟩ := h.lapsed hbefore hsince claims hclaims
        exact ⟨now, List.mem_append_left _ hnow, hlate⟩

theorem ticks_append (ops ops' : List TokenOperation) :
    ticks (ops ++ ops') = ticks ops ++ ticks ops' := List.filterMap_append

theorem Tracks.run {past : List ℤ} {s : TokenHistory} {ops : List TokenOperation}
    (h : Tracks past s) (hguard : Guarded (TokenExpiry.record lib) (RegistersRecorded lib) s ops) :
    Tracks (past ++ ticks ops) (run (TokenExpiry.record lib) s ops) := by
  induction ops generalizing past s with
  | nil => simpa [ticks] using h
  | cons op ops ih =>
    obtain ⟨hop, hops⟩ := hguard
    have hrest := ih (h.record hop) hops
    rwa [List.append_assoc, ← ticks_append] at hrest

/-- A tick at or after all earlier ones compares the token accepted last with the time. -/
theorem Tracks.verified_iff {past : List ℤ} {s : TokenHistory} {now : ℤ} (h : Tracks past s)
    (hpast : ∀ t ∈ past, t ≤ now) :
    (TokenExpiry.record lib s (.monitorTick now)).manager.trustLevel = .verified ↔
      (∃ claims ∈ (TokenExpiry.record lib s (.monitorTick now)).accepted,
          now < claims.expiresAt) ∧
        (TokenExpiry.record lib s (.monitorTick now)).expiredSince = false := by
  have hafter : Tracks (past ++ [now]) (TokenExpiry.record lib s (.monitorTick now)) :=
    h.record (show RegistersRecorded lib s (.monitorTick now) from trivial)
  obtain ⟨-, -, hlevel⟩ := step_of_not_accepted h.notRevoked
    (show acceptedClaims lib s.manager (.monitorTick now) = none from rfl)
  constructor
  · intro hverified
    obtain ⟨hsome, hsince⟩ := hafter.held hverified
    obtain ⟨claims, hclaims⟩ := Option.isSome_iff_exists.mp hsome
    obtain ⟨-, -, htick⟩ := hlevel.mp hverified
    obtain ⟨t, ht, hlt⟩ := htick now (by simp [ticks])
    have hheld : s.accepted = some claims := hclaims
    have hrecorded : t ∈ s.accepted.map BiscuitClaims.expiresAt := h.recorded ▸ ht
    rw [hheld, Option.map_some, Option.mem_some_iff] at hrecorded
    exact ⟨⟨claims, hclaims, hrecorded ▸ hlt⟩, hsince⟩
  · rintro ⟨⟨claims, hclaims, hlt⟩, hsince⟩
    by_contra hnot
    obtain ⟨t, ht, hlate⟩ := hafter.lapsed hnot hsince claims hclaims
    have hle : t ≤ now := by
      rcases List.mem_append.mp ht with ht | ht
      · exact hpast t ht
      · exact (List.mem_singleton.mp ht).le
    omega

/-- A device on which an expired or invalid token was presented, next to one on which it was not. -/
structure NoLonger (m m' : CapabilityManager) : Prop where
  keys : m.rootCaKeys = m'.rootCaKeys
  expiry : m.currentTokenExpiresAt = m'.currentTokenExpiresAt
  notRevoked : m.trustLevel ≠ .revoked
  notRevoked' : m'.trustLevel ≠ .revoked
  level : m.trustLevel = .verified → m'.trustLevel = .verified

theorem rootCaKeys_step (m : CapabilityManager) (op : TokenOperation) :
    (step lib m op.operation).rootCaKeys =
      match op with
      | .registerRootCaKey key _ => (m.registerRootCaKey lib key none).2.rootCaKeys
      | _ => m.rootCaKeys := by
  cases op with
  | presentToken tokenBytes nowSecs nowMicros =>
    simp only [TokenOperation.operation, step, presentToken]
    split
    · rfl
    · split <;> rfl
  | registerRootCaKey key token =>
    cases token with
    | none => rfl
    | some token => exact rootCaKeys_verifyToken _ token.1 token.2
  | monitorTick now =>
    simp only [TokenOperation.operation, step, monitorTick]
    split <;> rfl

theorem NoLonger.step {m m' : CapabilityManager} (h : NoLonger m m') (op : TokenOperation) :
    NoLonger (step lib m op.operation) (step lib m' op.operation) := by
  have hkeys : (Capability.step lib m op.operation).rootCaKeys =
      (Capability.step lib m' op.operation).rootCaKeys := by
    rw [rootCaKeys_step, rootCaKeys_step]
    cases op <;> simp [registerRootCaKey, h.keys]
  have haccepted : acceptedClaims lib m op = acceptedClaims lib m' op := by
    cases op with
    | presentToken tokenBytes nowSecs nowMicros => simp [acceptedClaims, h.keys]
    | registerRootCaKey key token =>
      cases token <;> simp [acceptedClaims, registerRootCaKey, h.keys]
    | monitorTick now => rfl
  have hreported : reportsExpired lib m op = reportsExpired lib m' op := by
    cases op <;> simp [reportsExpired, h.keys]
  cases hclaims : acceptedClaims lib m op with
  | some claims =>
    obtain ⟨hverified, hexpiry⟩ := step_of_accepted h.notRevoked hclaims
    obtain ⟨hverified', hexpiry'⟩ := step_of_accepted h.notRevoked' (haccepted ▸ hclaims)
    refine ⟨hkeys, ?_, by simp [hverified], by simp [hverified'], fun _ => hverified'⟩
    rw [hexpiry, hexpiry']
    cases op <;> simp [expiryAfter, h.expiry]
  | none =>
    obtain ⟨hexpiry, hrevoked, hlevel⟩ := step_of_not_accepted h.notRevoked hclaims
    obtain ⟨hexpiry', hrevoked', hlevel'⟩ :=
      step_of_not_accepted h.notRevoked' (haccepted ▸ hclaims)
    refine ⟨hkeys, by rw [hexpiry, hexpiry', h.expiry], hrevoked, hrevoked', fun hverified => ?_⟩
    obtain ⟨hbefore, hnot, hticks⟩ := hlevel.mp hverified
    exact hlevel'.mpr ⟨h.level hbefore, hreported ▸ hnot, h.expiry ▸ hticks⟩

theorem noLonger_of_not_accepted {m : CapabilityManager} {tokenBytes : Bytes}
    {nowSecs nowMicros : ℤ} (hlevel : m.trustLevel ≠ .revoked)
    (haccepted : acceptedClaims lib m (.presentToken tokenBytes nowSecs nowMicros) = none) :
    NoLonger (Capability.step lib m (.presentToken tokenBytes nowSecs nowMicros)) m := by
  obtain ⟨hexpiry, hrevoked, hverified⟩ := step_of_not_accepted hlevel haccepted
  exact ⟨rootCaKeys_step m (.presentToken tokenBytes nowSecs nowMicros), hexpiry, hrevoked, hlevel,
    fun h => (hverified.mp h).1⟩

theorem manager_run (s : TokenHistory) (ops : List TokenOperation) :
    (run (record lib) s ops).manager =
      run (step lib) s.manager (ops.map TokenOperation.operation) := by
  induction ops generalizing s with
  | nil => rfl
  | cons op ops ih =>
    rw [run_cons, List.map_cons, run_cons, ih]
    congr 1
    unfold record
    split <;> rfl

theorem notRevoked_run {m : CapabilityManager} (h : m.trustLevel ≠ .revoked)
    (ops : List TokenOperation) :
    (run (step lib) m (ops.map TokenOperation.operation)).trustLevel ≠ .revoked := by
  have hsame : NoLonger m m := ⟨rfl, rfl, h, h, fun hverified => hverified⟩
  induction ops generalizing m with
  | nil => exact h
  | cons op ops ih =>
    have hstep : NoLonger (step lib m op.operation) (step lib m op.operation) := hsame.step op
    exact ih hstep.notRevoked ⟨rfl, rfl, hstep.notRevoked, hstep.notRevoked, fun h' => h'⟩

theorem NoLonger.run {m m' : CapabilityManager} (h : NoLonger m m') (ops : List TokenOperation) :
    NoLonger (run (Capability.step lib) m (ops.map TokenOperation.operation))
      (run (Capability.step lib) m' (ops.map TokenOperation.operation)) := by
  induction ops generalizing m m' with
  | nil => exact h
  | cons op ops ih => exact ih (h.step op)

/-- Over a run with ticks in order, right after a tick the device is Verified exactly when the token
accepted last has not expired and no expired token was presented since; and a token that is not
accepted never keeps the device Verified for longer. -/
theorem verified_after_tick_iff (lib : BiscuitLibrary) (rootCaKeys : List KeyBytes)
    (revocationM revocationN : ℕ) (extendedTtlAcceptedRisk : Bool) (ops : List TokenOperation)
    (hticks : (ticks ops).Pairwise (· ≤ ·))
    (hguard : Guarded (record lib) (RegistersRecorded lib)
      (.start (.new rootCaKeys revocationM revocationN extendedTtlAcceptedRisk)) ops) :
    let after := run (record lib)
      (.start (.new rootCaKeys revocationM revocationN extendedTtlAcceptedRisk))
    (∀ earlier now rest, ops = earlier ++ .monitorTick now :: rest →
      ((after (earlier ++ [.monitorTick now])).manager.trustLevel = .verified ↔
        (∃ claims ∈ (after (earlier ++ [.monitorTick now])).accepted, now < claims.expiresAt) ∧
          (after (earlier ++ [.monitorTick now])).expiredSince = false)) ∧
    (∀ earlier tokenBytes nowSecs nowMicros rest,
      ops = earlier ++ .presentToken tokenBytes nowSecs nowMicros :: rest →
      acceptedClaims lib (after earlier).manager (.presentToken tokenBytes nowSecs nowMicros) =
        none →
      (after ops).manager.trustLevel = .verified →
      (after (earlier ++ rest)).manager.trustLevel = .verified) := by
  intro after
  have hstart := tracks_start rootCaKeys revocationM revocationN extendedTtlAcceptedRisk
  refine ⟨fun earlier now rest hsplit => ?_,
    fun earlier tokenBytes nowSecs nowMicros rest hsplit hnot hverified => ?_⟩
  · rw [hsplit, guarded_append] at hguard
    have htracks := hstart.run hguard.1
    rw [List.nil_append] at htracks
    rw [hsplit, ticks_append, List.pairwise_append] at hticks
    have hpast : ∀ t ∈ ticks earlier, t ≤ now := fun t ht =>
      hticks.2.2 t ht now (by simp [ticks])
    rw [show after (earlier ++ [.monitorTick now]) = record lib (after earlier) (.monitorTick now)
      from run_append _ _ earlier [.monitorTick now]]
    exact htracks.verified_iff hpast
  · have hmanagers : ∀ done, (after done).manager =
        run (step lib) (.new rootCaKeys revocationM revocationN extendedTtlAcceptedRisk)
          (done.map TokenOperation.operation) := fun done => manager_run _ done
    have hlevel : (after earlier).manager.trustLevel ≠ .revoked := by
      rw [hmanagers]
      exact notRevoked_run hstart.notRevoked earlier
    have hlonger : NoLonger
        (run (step lib) (step lib (after earlier).manager
          (.presentToken tokenBytes nowSecs nowMicros)) (rest.map TokenOperation.operation))
        (run (step lib) (after earlier).manager (rest.map TokenOperation.operation)) :=
      (noLonger_of_not_accepted hlevel hnot).run rest
    rw [hmanagers, hsplit, List.map_append, run_append, List.map_cons, run_cons, ← hmanagers]
      at hverified
    rw [hmanagers, List.map_append, run_append, ← hmanagers]
    exact hlonger.level hverified

def sampleTokens : BiscuitLibrary where
  Token := ℤ
  publicKey _ := .ok ()
  read bytes _ := match bytes with
    | [b] => .ok b.val
    | _ => .error "format"
  authorize t now := if now < t then .ok () else .error "authorization failed: expired"
  query t := .ok (some "did:key:z6Mk", some "field", some 0, some t)

def sampleCaKey : KeyBytes := ⟨List.replicate 32 9, by simp⟩

def sampleRun (ops : List TokenOperation) : TokenHistory :=
  run (record sampleTokens) (.start (.new [sampleCaKey] 1 1 false)) ops

/-- The last accepted token is valid until 100 and the device is not Verified at 30, after an
expired token was presented, or when the token was accepted with a key; and with a key a token that
expired at 40 keeps the device Verified at 50. -/
theorem tick_disagrees :
    let presented := sampleRun [.presentToken [100] 10 10, .presentToken [5] 20 20, .monitorTick 30]
    let registered := sampleRun [.registerRootCaKey sampleCaKey (some ([100], 10)), .monitorTick 30]
    let replaced := sampleRun [.presentToken [60] 10 10,
      .registerRootCaKey sampleCaKey (some ([40], 20)), .monitorTick 50]
    presented.accepted.map BiscuitClaims.expiresAt = some 100 ∧
      presented.manager.trustLevel = .unverified ∧
      registered.accepted.map BiscuitClaims.expiresAt = some 100 ∧
      registered.manager.trustLevel = .unverified ∧
      replaced.accepted.map BiscuitClaims.expiresAt = some 40 ∧
      replaced.manager.trustLevel = .verified := by
  decide +kernel

/-- A token presented, one that has expired, and the first one again with a key registered anew. -/
def renewed : List TokenOperation :=
  [.presentToken [60] 10 10, .monitorTick 30, .presentToken [5] 32 32,
    .registerRootCaKey sampleCaKey (some ([60], 35)), .monitorTick 40, .monitorTick 70]

theorem registersRecorded_renewed :
    Guarded (record sampleTokens) (RegistersRecorded sampleTokens)
      (.start (.new [sampleCaKey] 1 1 false)) renewed := by
  refine ⟨trivial, trivial, trivial, fun claims hclaims => ?_, trivial, trivial, trivial⟩
  have haccepted : let m := (sampleRun (renewed.take 3)).manager
      acceptedClaims sampleTokens m (.registerRootCaKey sampleCaKey (some ([60], 35))) =
          some ⟨"did:key:z6Mk", "field", 0, 60⟩ ∧
        m.currentTokenExpiresAt = some 60 := by decide +kernel
  obtain rfl := Option.some.inj (haccepted.1.symm.trans hclaims)
  exact haccepted.2

theorem verified_after_tick_iff_renewed :
    (∀ earlier now rest, renewed = earlier ++ .monitorTick now :: rest →
      ((sampleRun (earlier ++ [.monitorTick now])).manager.trustLevel = .verified ↔
        (∃ claims ∈ (sampleRun (earlier ++ [.monitorTick now])).accepted,
            now < claims.expiresAt) ∧
          (sampleRun (earlier ++ [.monitorTick now])).expiredSince = false)) ∧
    (∀ earlier tokenBytes nowSecs nowMicros rest,
      renewed = earlier ++ .presentToken tokenBytes nowSecs nowMicros :: rest →
      acceptedClaims sampleTokens (sampleRun earlier).manager
        (.presentToken tokenBytes nowSecs nowMicros) = none →
      (sampleRun renewed).manager.trustLevel = .verified →
      (sampleRun (earlier ++ rest)).manager.trustLevel = .verified) :=
  verified_after_tick_iff sampleTokens [sampleCaKey] 1 1 false renewed (by decide)
    registersRecorded_renewed

end TirBase.TokenExpiry
