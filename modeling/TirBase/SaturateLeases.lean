import TirBase.ThresholdSigners

/-! # Leases over a run

A renewal is accepted at any time while Saturate Mode lasts, also before the renewal window opens and
after the lease has expired. What ends a lease names no lease, so it ends every later one as well. -/
namespace TirBase
open CrdtEngine TransitionRuns

def renewalWindowSecs : ℤ := 15 * 60

/-- `in_renewal_window`. -/
def SaturateLease.inRenewalWindow (l : SaturateLease) (nowSecs : ℤ) : Bool :=
  decide (l.expiresAt - renewalWindowSecs ≤ nowSecs) && decide (nowSecs < l.expiresAt)

namespace SaturateModeStateMachine
variable (lib : SaturateLibraries)

def attempt (s : SaturateModeStateMachine) : Operation → Except TirBaseError Unit
  | .activate managerDid biscuitToken nowSecs => (s.activate lib managerDid biscuitToken nowSecs).1
  | .renew biscuitToken nowSecs => (s.renew lib biscuitToken nowSecs).1
  | .terminate signatures message => (s.terminate lib signatures message).1
  | .tick _ => .ok ()

def Operation.timestamp : Operation → Option ℤ
  | .activate _ _ nowSecs => some nowSecs
  | .renew _ nowSecs => some nowSecs
  | .terminate _ _ => none
  | .tick nowSecs => some nowSecs

/-- The clock does not run backwards. -/
def Chronological (ops : List Operation) : Prop :=
  (ops.filterMap Operation.timestamp).Pairwise (· ≤ ·)

/-- There is a lease exactly in Saturate Mode. -/
def LeaseMatches (s : SaturateModeStateMachine) : Prop :=
  s.state = .saturate ↔ s.lease.isSome = true

/-- A renewal is due: the lease is within the window before its expiry, and the token is good. -/
structure RenewalDue (s : SaturateModeStateMachine) (biscuitToken : Bytes) (nowSecs : ℤ) : Prop where
  state : s.state = .saturate
  token : s.verifyDisasterAlertToken lib biscuitToken nowSecs = .ok ()
  window : ∃ lease, s.lease = some lease ∧ lease.inRenewalWindow nowSecs = true

structure LeaseRespected (s : SaturateModeStateMachine) (op : Operation) : Prop where
  matchesBefore : s.LeaseMatches
  matchesAfter : (step lib s op).LeaseMatches
  failed : ∀ e, attempt lib s op = .error e → step lib s op = s
  renewed : ∀ biscuitToken nowSecs, op = .renew biscuitToken nowSecs →
    attempt lib s op = .ok () → RenewalDue lib s biscuitToken nowSecs
  dead : ∀ biscuitToken nowSecs lease, op = .renew biscuitToken nowSecs → s.lease = some lease →
    lease.isExpired nowSecs = true → (step lib s op).lease = some lease

/-- A heartbeat whose token is good comes within the renewal window of the lease. -/
def HeartbeatInWindow (s : SaturateModeStateMachine) (op : Operation) : Prop :=
  ∀ biscuitToken nowSecs lease, op = .renew biscuitToken nowSecs → s.lease = some lease →
    s.verifyDisasterAlertToken lib biscuitToken nowSecs = .ok () →
      lease.inRenewalWindow nowSecs = true

variable {lib} {s : SaturateModeStateMachine}

theorem renew_cases (h : s.LeaseMatches) (biscuitToken : Bytes) (nowSecs : ℤ) :
    (∃ e, s.renew lib biscuitToken nowSecs = (.error e, s)) ∨
    ∃ lease, s.state = .saturate ∧ s.lease = some lease ∧
      s.verifyDisasterAlertToken lib biscuitToken nowSecs = .ok () ∧
      s.renew lib biscuitToken nowSecs = (.ok (), { s with
        lease := some { lease with
          expiresAt := nowSecs + s.leaseDurationSecs, lastRenewedAt := some nowSecs } }) := by
  by_cases hstate : s.state = .saturate
  · obtain ⟨lease, hlease⟩ := Option.isSome_iff_exists.mp (h.mp hstate)
    cases htoken : s.verifyDisasterAlertToken lib biscuitToken nowSecs with
    | error e => exact .inl ⟨e, by simp [renew, hstate, htoken]⟩
    | ok u => exact .inr ⟨lease, hstate, hlease, rfl, by simp [renew, hstate, htoken, hlease]⟩
  · exact .inl ⟨_, if_pos hstate⟩

theorem leaseMatches_new (m : ℕ) (rootCaPublicKey : Bytes) (leaseDurationSecs : ℤ) :
    (new m rootCaPublicKey leaseDurationSecs).LeaseMatches := by
  simp [LeaseMatches, new]

theorem leaseMatches_step (h : s.LeaseMatches) (op : Operation) : (step lib s op).LeaseMatches := by
  cases op with
  | activate managerDid biscuitToken nowSecs =>
    simp only [step, activate]
    split
    · exact h
    · simp [LeaseMatches]
  | renew biscuitToken nowSecs =>
    simp only [step]
    rcases @renew_cases lib s h biscuitToken nowSecs with ⟨e, hrenew⟩ | ⟨lease, hstate, -, -, hrenew⟩
    · rw [hrenew]
      exact h
    · rw [hrenew]
      simp [LeaseMatches, hstate]
  | terminate signatures message =>
    simp only [step, terminate]
    split_ifs
    · exact h
    · exact h
    · simp [LeaseMatches]
  | tick nowSecs =>
    simp only [step, tick]
    split_ifs
    · split
      · split_ifs
        · simp [LeaseMatches]
        · exact h
      · exact h
    · exact h

theorem leaseMatches_run (lib : SaturateLibraries) (m : ℕ) (rootCaPublicKey : Bytes)
    (leaseDurationSecs : ℤ) (ops : List Operation) :
    (run (step lib) (new m rootCaPublicKey leaseDurationSecs) ops).LeaseMatches := by
  have hstep : ∀ (s : SaturateModeStateMachine) (op : Operation),
      s.LeaseMatches → (step lib s op).LeaseMatches := fun s op h => leaseMatches_step h op
  exact invariant_run hstep ops (leaseMatches_new m rootCaPublicKey leaseDurationSecs)

theorem step_of_failed (h : s.LeaseMatches) {op : Operation} {e : TirBaseError}
    (hfailed : attempt lib s op = .error e) : step lib s op = s := by
  cases op with
  | activate managerDid biscuitToken nowSecs =>
    simp only [attempt, step, activate] at hfailed ⊢
    split at hfailed
    · rfl
    · cases hfailed
  | renew biscuitToken nowSecs =>
    simp only [attempt, step] at hfailed ⊢
    rcases @renew_cases lib s h biscuitToken nowSecs with ⟨e, hrenew⟩ | ⟨lease, -, -, -, hrenew⟩
    · rw [hrenew]
    · rw [hrenew] at hfailed
      cases hfailed
  | terminate signatures message =>
    simp only [attempt, step, terminate] at hfailed ⊢
    split_ifs at hfailed ⊢
    rfl
  | tick nowSecs => cases hfailed

theorem leaseRespected_iff (h : s.LeaseMatches) (op : Operation) :
    LeaseRespected lib s op ↔ HeartbeatInWindow lib s op := by
  constructor
  · rintro hrespected biscuitToken nowSecs lease rfl hlease htoken
    have hstate : s.state = .saturate := h.mpr (by simp [hlease])
    have hok : attempt lib s (.renew biscuitToken nowSecs) = .ok () := by
      simp [attempt, renew, hstate, htoken, hlease]
    obtain ⟨lease', hlease', hwindow⟩ := (hrespected.renewed _ _ rfl hok).window
    rw [hlease] at hlease'
    cases hlease'
    exact hwindow
  · intro hwindow
    refine ⟨h, leaseMatches_step h op, fun e hfailed => step_of_failed h hfailed, ?_, ?_⟩
    · rintro biscuitToken nowSecs rfl hok
      rcases @renew_cases lib s h biscuitToken nowSecs with
        ⟨e, hrenew⟩ | ⟨lease, hstate, hlease, htoken, -⟩
      · simp only [attempt, hrenew] at hok
        cases hok
      · exact ⟨hstate, htoken, lease, hlease, hwindow _ _ _ rfl hlease htoken⟩
    · rintro biscuitToken nowSecs lease rfl hlease hdead
      rcases @renew_cases lib s h biscuitToken nowSecs with
        ⟨e, hrenew⟩ | ⟨lease', -, hlease', htoken, -⟩
      · simp only [step, hrenew, hlease]
      · have hin := hwindow _ _ _ rfl hlease htoken
        simp only [SaturateLease.inRenewalWindow, SaturateLease.isExpired, Bool.and_eq_true,
          decide_eq_true_eq] at hin hdead
        omega

/-- In a run over any calls the leases are respected exactly when every heartbeat with a good token
comes within the renewal window. -/
theorem leases_respected_iff (lib : SaturateLibraries) (m : ℕ) (rootCaPublicKey : Bytes)
    (leaseDurationSecs : ℤ) (ops : List Operation) :
    (∀ earlier op rest, ops = earlier ++ op :: rest →
      LeaseRespected lib (run (step lib) (new m rootCaPublicKey leaseDurationSecs) earlier) op) ↔
    Guarded (step lib) (HeartbeatInWindow lib) (new m rootCaPublicKey leaseDurationSecs) ops := by
  have hmatches := leaseMatches_run lib m rootCaPublicKey leaseDurationSecs
  rw [guarded_iff_splits]
  constructor
  · intro hrespected earlier op rest hsplit
    exact (leaseRespected_iff (hmatches earlier) op).mp (hrespected earlier op rest hsplit)
  · intro hwindow earlier op rest hsplit
    exact (leaseRespected_iff (hmatches earlier) op).mpr (hwindow earlier op rest hsplit)

/-- A lease of three seconds is renewed two seconds after its end, as no tick came between. -/
theorem dead_lease_revived :
    let ops : List Operation := [.activate sampleDid₁ [1] 0, .renew [1] 5]
    Chronological ops ∧ ¬∀ earlier op rest, ops = earlier ++ op :: rest →
      LeaseRespected ThresholdSigners.sampleAlerts (run (step ThresholdSigners.sampleAlerts)
        (new 2 (List.replicate 32 9) 3) earlier) op := by
  refine ⟨by simp [Chronological, Operation.timestamp], fun h => ?_⟩
  have hrenewal := h [.activate sampleDid₁ [1] 0] (.renew [1] 5) [] rfl
  obtain ⟨lease, hlease, hwindow⟩ := (hrenewal.renewed [1] 5 rfl (by decide +kernel)).window
  have hsame : (run (step ThresholdSigners.sampleAlerts) (new 2 (List.replicate 32 9) 3)
      [.activate sampleDid₁ [1] 0]).lease = some ⟨0, 3, none, sampleDid₁⟩ := by decide +kernel
  rw [hsame] at hlease
  cases hlease
  revert hwindow
  decide

def Terminates (lib : SaturateLibraries) (s : SaturateModeStateMachine)
    (signatures : List (Did × Bytes)) (message : Bytes) : Prop :=
  s.state = .saturate ∧ (s.terminate lib signatures message).2.state = .normal

instance (lib : SaturateLibraries) (s : SaturateModeStateMachine)
    (signatures : List (Did × Bytes)) (message : Bytes) :
    Decidable (Terminates lib s signatures message) :=
  inferInstanceAs (Decidable (_ ∧ _))

theorem terminates_iff {signatures : List (Did × Bytes)} {message : Bytes} :
    Terminates lib s signatures message ↔ s.state = .saturate ∧
      s.terminationThresholdM ≤ countValidDistinctSignatures lib signatures message := by
  refine and_congr_right fun hstate => ?_
  simp only [terminate, hstate, ne_eq, not_true_eq_false, if_false]
  split_ifs with hfew
  · simp [hstate, hfew]
  · simpa using hfew

theorem terminate_of_normal (h : s.state = .normal) (signatures : List (Did × Bytes))
    (message : Bytes) : s.terminate lib signatures message = (.ok (), s) := by
  simp [terminate, h]

theorem thresholdM_run (lib : SaturateLibraries) (s : SaturateModeStateMachine)
    (ops : List Operation) :
    (run (step lib) s ops).terminationThresholdM = s.terminationThresholdM := by
  have hstep : ∀ (s' : SaturateModeStateMachine) (op : Operation),
      s'.terminationThresholdM = s.terminationThresholdM →
        (step lib s' op).terminationThresholdM = s.terminationThresholdM :=
    fun s' op h => (ThresholdSigners.terminationThresholdM_step s' op).trans h
  exact invariant_run hstep ops rfl

/-- A pair that has ended one lease ends every later lease for which it comes, and does nothing when
there is no lease. -/
theorem termination_reusable (lib : SaturateLibraries) (m : ℕ) (rootCaPublicKey : Bytes)
    (leaseDurationSecs : ℤ) (earlier later : List Operation) (signatures : List (Did × Bytes))
    (message : Bytes)
    (h : Terminates lib (run (step lib) (new m rootCaPublicKey leaseDurationSecs) earlier)
      signatures message) :
    let s := run (step lib) (new m rootCaPublicKey leaseDurationSecs)
      (earlier ++ .terminate signatures message :: later)
    (Terminates lib s signatures message ↔ s.lease.isSome = true) ∧
      (s.lease = none → s.terminate lib signatures message = (.ok (), s)) := by
  intro s
  have hmatches : s.LeaseMatches := leaseMatches_run lib m rootCaPublicKey leaseDurationSecs _
  have henough := (terminates_iff.mp h).2
  rw [thresholdM_run] at henough
  have hthreshold : s.terminationThresholdM = m := thresholdM_run lib _ _
  constructor
  · rw [terminates_iff, hthreshold]
    exact (and_iff_left henough).trans hmatches
  · intro hnone
    apply terminate_of_normal
    cases hstate : s.state with
    | normal => rfl
    | saturate =>
      have hsome := hmatches.mp hstate
      rw [hnone] at hsome
      cases hsome

section Sample
open ThresholdSigners

def sampleTermination : List (Did × Bytes) :=
  [(sampleDid₂, List.replicate 64 2), (sampleDid₃, List.replicate 64 3)]

/-- The two signatures that end the first lease end the second one. -/
theorem termination_replayed :
    let s := run (step sampleAlerts) (new 2 (List.replicate 32 9) 3600)
    Terminates sampleAlerts (s [.activate sampleDid₁ [1] 0]) sampleTermination [5] ∧
      Terminates sampleAlerts (s [.activate sampleDid₁ [1] 0, .terminate sampleTermination [5],
        .activate sampleDid₁ [1] 8]) sampleTermination [5] := by
  decide +kernel

theorem termination_reusable_sample :
    let s := run (step sampleAlerts) (new 2 (List.replicate 32 9) 3600)
      ([.activate sampleDid₁ [1] 0] ++
        .terminate sampleTermination [5] :: [.activate sampleDid₁ [1] 8])
    (Terminates sampleAlerts s sampleTermination [5] ↔ s.lease.isSome = true) ∧
      (s.lease = none → s.terminate sampleAlerts sampleTermination [5] = (.ok (), s)) :=
  termination_reusable sampleAlerts 2 (List.replicate 32 9) 3600 [.activate sampleDid₁ [1] 0]
    [.activate sampleDid₁ [1] 8] sampleTermination [5] (by decide +kernel)

end Sample

end SaturateModeStateMachine

end TirBase
