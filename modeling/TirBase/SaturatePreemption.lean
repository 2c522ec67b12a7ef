import TirBase.ExpiringTables
import TirBase.LowClearing
import TirBase.SaturateLeases

/-! # When the scheduler serves alerts only

In Saturate Mode an epoch sends Deltas of the high class only. The mode lasts from a disaster alert to
the first epoch after its lease, or to its termination. -/
namespace TirBase
open TransitionRuns ExpiringTables

namespace SaturatingTransport
open DrrScheduler OutboundEpochs

section Lease
variable (lib : SaturateLibraries)

/-- A verified alert opens a lease, or extends the one there is. -/
def Grants (grantedAt : ℤ) (t : SaturatingTransport) : Operation → Prop
  | .activate _ biscuitToken nowSecs =>
    t.saturate.verifyDisasterAlertToken lib biscuitToken nowSecs = .ok () ∧ nowSecs = grantedAt
  | .renew biscuitToken nowSecs => t.saturate.state = .saturate ∧
    t.saturate.verifyDisasterAlertToken lib biscuitToken nowSecs = .ok () ∧ nowSecs = grantedAt
  | _ => False

/-- The operation neither replaces nor ends a lease that runs until then, on a machine with these
settings. -/
def SparesLease (s : SaturateModeStateMachine) (expiresAt : ℤ) : Operation → Prop
  | .enqueue _ => True
  | .epoch nowSecs _ => nowSecs < expiresAt
  | .activate _ biscuitToken nowSecs =>
    s.verifyDisasterAlertToken lib biscuitToken nowSecs ≠ .ok ()
  | .renew biscuitToken nowSecs => s.verifyDisasterAlertToken lib biscuitToken nowSecs ≠ .ok ()
  | .terminate signatures message =>
    SaturateModeStateMachine.countValidDistinctSignatures lib signatures message <
      s.terminationThresholdM

/-- A lease was granted, and nothing has replaced or ended it since; it has not run out yet. -/
def Alerted (wire : WireLibraries) (link : ℕ) (t : SaturatingTransport) (ops : List Operation)
    (nowSecs : ℤ) : Prop :=
  ∃ grantedAt earlier op rest, ops = earlier ++ op :: rest ∧
    Grants lib grantedAt (run (step lib wire link) t earlier) op ∧
    (∀ o ∈ rest, SparesLease lib t.saturate (grantedAt + t.saturate.leaseDurationSecs) o) ∧
    nowSecs < grantedAt + t.saturate.leaseDurationSecs

end Lease

structure Configured (start : SaturateModeStateMachine) (t : SaturatingTransport) : Prop where
  leaseMatches : t.saturate.LeaseMatches
  rootCaPublicKey : t.saturate.rootCaPublicKey = start.rootCaPublicKey
  terminationThresholdM : t.saturate.terminationThresholdM = start.terminationThresholdM
  leaseDurationSecs : t.saturate.leaseDurationSecs = start.leaseDurationSecs

def LeasedUntil (expiresAt : ℤ) (t : SaturatingTransport) : Prop :=
  t.saturate.state = .saturate ∧ ∃ lease, t.saturate.lease = some lease ∧ lease.expiresAt = expiresAt

variable {lib : SaturateLibraries} {wire : WireLibraries} {link : ℕ} {t : SaturatingTransport}
  {start : SaturateModeStateMachine} {expiresAt nowSecs : ℤ}

theorem saturate_step (t : SaturatingTransport) (op : Operation) :
    (step lib wire link t op).saturate = match op with
      | .enqueue _ => t.saturate
      | .epoch nowSecs _ => t.saturate.tick nowSecs
      | .activate managerDid biscuitToken nowSecs =>
        (t.saturate.activate lib managerDid biscuitToken nowSecs).2
      | .renew biscuitToken nowSecs => (t.saturate.renew lib biscuitToken nowSecs).2
      | .terminate signatures message => (t.saturate.terminate lib signatures message).2 := by
  have hevent : ∀ out : Except TirBaseError Unit × SaturateModeStateMachine,
      (t.onLeaseEvent out).2.saturate = out.2 := by
    intro out
    unfold onLeaseEvent
    dsimp only
    split <;> rfl
  cases op with
  | enqueue q => rfl
  | epoch nowSecs tx => exact saturate_epoch t link nowSecs tx
  | activate managerDid biscuitToken nowSecs => exact hevent _
  | renew biscuitToken nowSecs => exact hevent _
  | terminate signatures message => exact hevent _

theorem verify_congr {s : SaturateModeStateMachine} (h : s.rootCaPublicKey = start.rootCaPublicKey)
    (biscuitToken : Bytes) (nowSecs : ℤ) :
    s.verifyDisasterAlertToken lib biscuitToken nowSecs =
      start.verifyDisasterAlertToken lib biscuitToken nowSecs := by
  rw [SaturateModeStateMachine.verifyDisasterAlertToken,
    SaturateModeStateMachine.verifyDisasterAlertToken, h]

theorem activate_cases (s : SaturateModeStateMachine) (managerDid : Did) (biscuitToken : Bytes)
    (nowSecs : ℤ) :
    (s.verifyDisasterAlertToken lib biscuitToken nowSecs ≠ .ok () ∧
      (s.activate lib managerDid biscuitToken nowSecs).2 = s) ∨
    (s.verifyDisasterAlertToken lib biscuitToken nowSecs = .ok () ∧
      (s.activate lib managerDid biscuitToken nowSecs).2 = { s with
        lease := some ⟨nowSecs, nowSecs + s.leaseDurationSecs, none, managerDid⟩
        state := .saturate }) := by
  unfold SaturateModeStateMachine.activate
  cases htoken : s.verifyDisasterAlertToken lib biscuitToken nowSecs with
  | error e =>
    refine .inl ⟨?_, rfl⟩
    intro h
    cases h
  | ok u => exact .inr ⟨rfl, rfl⟩

theorem configured_step (h : Configured start t) (op : Operation) :
    Configured start (step lib wire link t op) := by
  have hsettings : (step lib wire link t op).saturate.LeaseMatches ∧
      (step lib wire link t op).saturate.rootCaPublicKey = t.saturate.rootCaPublicKey ∧
      (step lib wire link t op).saturate.terminationThresholdM =
        t.saturate.terminationThresholdM ∧
      (step lib wire link t op).saturate.leaseDurationSecs = t.saturate.leaseDurationSecs := by
    rw [saturate_step]
    cases op with
    | enqueue q => exact ⟨h.leaseMatches, rfl, rfl, rfl⟩
    | epoch nowSecs tx =>
      refine ⟨@SaturateModeStateMachine.leaseMatches_step lib _ h.leaseMatches
        (.tick nowSecs), ?_⟩
      simp only [SaturateModeStateMachine.tick]
      split_ifs
      · split
        · split_ifs <;> exact ⟨rfl, rfl, rfl⟩
        · exact ⟨rfl, rfl, rfl⟩
      · exact ⟨rfl, rfl, rfl⟩
    | activate managerDid biscuitToken nowSecs =>
      refine ⟨@SaturateModeStateMachine.leaseMatches_step lib _ h.leaseMatches
        (.activate managerDid biscuitToken nowSecs), ?_⟩
      dsimp only
      obtain ⟨-, hsame⟩ | ⟨-, hopened⟩ :=
        @activate_cases lib t.saturate managerDid biscuitToken nowSecs
      · rw [hsame]
        exact ⟨rfl, rfl, rfl⟩
      · rw [hopened]
        exact ⟨rfl, rfl, rfl⟩
    | renew biscuitToken nowSecs =>
      refine ⟨@SaturateModeStateMachine.leaseMatches_step lib _ h.leaseMatches
        (.renew biscuitToken nowSecs), ?_⟩
      dsimp only
      obtain ⟨e, hsame⟩ | ⟨lease, -, -, -, hrenewed⟩ :=
        @SaturateModeStateMachine.renew_cases lib _ h.leaseMatches biscuitToken nowSecs
      · rw [hsame]
        exact ⟨rfl, rfl, rfl⟩
      · rw [hrenewed]
        exact ⟨rfl, rfl, rfl⟩
    | terminate signatures message =>
      refine ⟨@SaturateModeStateMachine.leaseMatches_step lib _ h.leaseMatches
        (.terminate signatures message), ?_⟩
      simp only [SaturateModeStateMachine.terminate]
      split_ifs <;> exact ⟨rfl, rfl, rfl⟩
  obtain ⟨hmatches, hkey, hm, hduration⟩ := hsettings
  exact ⟨hmatches, hkey.trans h.rootCaPublicKey, hm.trans h.terminationThresholdM,
    hduration.trans h.leaseDurationSecs⟩

theorem leasedUntil_epoch (tx : Channel) :
    LeasedUntil expiresAt (step lib wire link t (.epoch nowSecs tx)) ↔
      LeasedUntil expiresAt t ∧ nowSecs < expiresAt := by
  rw [LeasedUntil, LeasedUntil, saturate_step]
  simp only [SaturateModeStateMachine.tick, SaturateLease.isExpired]
  by_cases hstate : t.saturate.state = .saturate
  · rw [if_pos hstate]
    cases hlease : t.saturate.lease with
    | none => simp [hlease]
    | some lease =>
      by_cases hexpired : lease.expiresAt ≤ nowSecs
      · simp [hexpired, hstate]
        omega
      · simp [hexpired, hstate, hlease]
        omega
  · rw [if_neg hstate]
    simp [hstate]

theorem leasedUntil_activate (h : Configured start t) (managerDid : Did) (biscuitToken : Bytes) :
    LeasedUntil expiresAt (step lib wire link t (.activate managerDid biscuitToken nowSecs)) ↔
      (start.verifyDisasterAlertToken lib biscuitToken nowSecs = .ok () ∧
        nowSecs + start.leaseDurationSecs = expiresAt) ∨
      LeasedUntil expiresAt t ∧
        start.verifyDisasterAlertToken lib biscuitToken nowSecs ≠ .ok () := by
  rw [LeasedUntil, LeasedUntil, saturate_step, ← verify_congr h.rootCaPublicKey,
    ← h.leaseDurationSecs]
  dsimp only
  obtain ⟨hrefused, hsame⟩ | ⟨hverified, hopened⟩ :=
    @activate_cases lib t.saturate managerDid biscuitToken nowSecs
  · rw [hsame]
    simp [hrefused]
  · rw [hopened]
    simp [hverified]

theorem leasedUntil_renew (h : Configured start t) (biscuitToken : Bytes) :
    LeasedUntil expiresAt (step lib wire link t (.renew biscuitToken nowSecs)) ↔
      (t.saturate.state = .saturate ∧
        start.verifyDisasterAlertToken lib biscuitToken nowSecs = .ok () ∧
        nowSecs + start.leaseDurationSecs = expiresAt) ∨
      LeasedUntil expiresAt t ∧
        start.verifyDisasterAlertToken lib biscuitToken nowSecs ≠ .ok () := by
  rw [LeasedUntil, LeasedUntil, saturate_step, ← verify_congr h.rootCaPublicKey,
    ← h.leaseDurationSecs]
  dsimp only
  by_cases hstate : t.saturate.state = .saturate
  · obtain ⟨lease, hlease⟩ := Option.isSome_iff_exists.mp (h.leaseMatches.mp hstate)
    unfold SaturateModeStateMachine.renew
    cases t.saturate.verifyDisasterAlertToken lib biscuitToken nowSecs with
    | error e => simp [hstate]
    | ok u => simp [hstate, hlease]
  · simp [SaturateModeStateMachine.renew, hstate]

theorem leasedUntil_terminate (h : Configured start t) (signatures : List (Did × Bytes))
    (message : Bytes) :
    LeasedUntil expiresAt (step lib wire link t (.terminate signatures message)) ↔
      LeasedUntil expiresAt t ∧
        SaturateModeStateMachine.countValidDistinctSignatures lib signatures message <
          start.terminationThresholdM := by
  rw [LeasedUntil, LeasedUntil, saturate_step, ← h.terminationThresholdM]
  simp only [SaturateModeStateMachine.terminate]
  by_cases hstate : t.saturate.state = .saturate
  · rw [if_neg (by simp [hstate])]
    split_ifs with hcount
    · simp [hcount]
    · simp [hcount]
  · rw [if_pos hstate]
    simp [hstate]

theorem leasedUntil_step (h : Configured start t) (op : Operation) :
    LeasedUntil expiresAt (step lib wire link t op) ↔
      Grants lib (expiresAt - start.leaseDurationSecs) t op ∨
        LeasedUntil expiresAt t ∧ SparesLease lib start expiresAt op := by
  have htime : ∀ nowSecs : ℤ, nowSecs + start.leaseDurationSecs = expiresAt ↔
      nowSecs = expiresAt - start.leaseDurationSecs := fun nowSecs => by omega
  cases op with
  | enqueue q => simp [LeasedUntil, saturate_step, Grants, SparesLease]
  | epoch nowSecs tx =>
    rw [leasedUntil_epoch]
    simp [Grants, SparesLease]
  | activate managerDid biscuitToken nowSecs =>
    rw [leasedUntil_activate h, htime, ← verify_congr h.rootCaPublicKey]
    simp only [Grants, SparesLease, verify_congr h.rootCaPublicKey]
  | renew biscuitToken nowSecs =>
    rw [leasedUntil_renew h, htime, ← verify_congr h.rootCaPublicKey]
    simp only [Grants, SparesLease, verify_congr h.rootCaPublicKey]
  | terminate signatures message =>
    rw [leasedUntil_terminate h]
    simp [Grants, SparesLease]

theorem configured_of_fresh (h : t.Fresh link) : Configured t.saturate t := by
  obtain ⟨m, rootCaPublicKey, duration, hnew⟩ := h.saturate
  refine ⟨?_, rfl, rfl, rfl⟩
  rw [hnew]
  exact SaturateModeStateMachine.leaseMatches_new m rootCaPublicKey duration

theorem leasedUntil_run (h : t.Fresh link) (ops : List Operation) :
    LeasedUntil expiresAt (run (step lib wire link) t ops) ↔
      ∃ earlier op rest, ops = earlier ++ op :: rest ∧
        Grants lib (expiresAt - t.saturate.leaseDurationSecs) (run (step lib wire link) t earlier)
          op ∧
        ∀ o ∈ rest, SparesLease lib t.saturate expiresAt o := by
  have hconfigured : ∀ u op, Configured t.saturate u →
      Configured t.saturate (step lib wire link u op) := fun u op hu => configured_step hu op
  have hstep : ∀ u op, Configured t.saturate u → (LeasedUntil expiresAt (step lib wire link u op) ↔
      Grants lib (expiresAt - t.saturate.leaseDurationSecs) u op ∨
        LeasedUntil expiresAt u ∧ SparesLease lib t.saturate expiresAt op) :=
    fun u op hu => leasedUntil_step hu op
  apply holds_run_iff (LeasedUntil expiresAt) hconfigured hstep (configured_of_fresh h)
  rintro ⟨hstate, -⟩
  obtain ⟨m, rootCaPublicKey, duration, hnew⟩ := h.saturate
  rw [hnew] at hstate
  cases hstate

/-- The machine is in Saturate Mode after the check of an epoch when its lease has not run out. -/
theorem saturate_tick_iff (h : Configured start t) :
    (t.saturate.tick nowSecs).state = .saturate ↔
      ∃ expiresAt, LeasedUntil expiresAt t ∧ nowSecs < expiresAt := by
  constructor
  · intro hstate
    have hleased : t.saturate.state = .saturate := by
      by_contra hnormal
      simp only [SaturateModeStateMachine.tick, if_neg hnormal] at hstate
      exact hnormal hstate
    obtain ⟨lease, hlease⟩ := Option.isSome_iff_exists.mp (h.leaseMatches.mp hleased)
    refine ⟨lease.expiresAt, ⟨hleased, lease, hlease, rfl⟩, ?_⟩
    by_contra hexpired
    have hdone : lease.expiresAt ≤ nowSecs := by omega
    simp [SaturateModeStateMachine.tick, hleased, hlease, SaturateLease.isExpired, hdone] at hstate
  · rintro ⟨expiresAt, ⟨hleased, lease, hlease, rfl⟩, hlive⟩
    have hnot : ¬lease.expiresAt ≤ nowSecs := by omega
    simp [SaturateModeStateMachine.tick, hleased, hlease, SaturateLease.isExpired, hnot]

theorem saturateMode_tickSaturate (t : SaturatingTransport) (nowSecs : ℤ) :
    (t.tickSaturate nowSecs).scheduler.saturateMode =
      decide ((t.saturate.tick nowSecs).state = .saturate) := by
  change (t.scheduler.setSaturateMode _).saturateMode = _
  unfold setSaturateMode
  split_ifs <;> rfl

theorem classed_forward {t : MeshTransport} (h : t.scheduler.Classed) (tx : Channel) (forwarded : ℕ)
    (queue : List QueuedDelta) : (t.forward wire tx forwarded queue).2.scheduler.Classed := by
  induction queue generalizing tx forwarded with
  | nil => exact h
  | cons queued rest ih =>
    simp only [MeshTransport.forward]
    split
    · exact ih _ _
    · exact classed_advance t.scheduler (.enqueue queued) h

theorem classed_step (h : t.scheduler.Classed) (op : Operation) :
    (step lib wire link t op).scheduler.Classed := by
  have hmode : ∀ active, (t.scheduler.setSaturateMode active).Classed := fun active =>
    classed_advance t.scheduler (.setSaturateMode active) h
  have hevent : ∀ out : Except TirBaseError Unit × SaturateModeStateMachine,
      (t.onLeaseEvent out).2.scheduler.Classed := by
    intro out
    unfold onLeaseEvent
    dsimp only
    split
    · exact hmode _
    · exact h
  cases op with
  | enqueue q => exact classed_advance t.scheduler (.enqueue q) h
  | epoch nowSecs tx =>
    have hdrained := classed_advance _ (.tick link)
      (hmode (decide ((t.saturate.tick nowSecs).state = .saturate)))
    simp only [step, epoch, tickScheduler, MeshTransport.tickScheduler]
    split_ifs
    · exact hdrained
    · exact classed_forward hdrained tx 0 _
  | activate managerDid biscuitToken nowSecs => exact hevent _
  | renew biscuitToken nowSecs => exact hevent _
  | terminate signatures message => exact hevent _

theorem classed_of_fresh (h : t.Fresh link) (ops : List Operation) :
    (run (step lib wire link) t ops).scheduler.Classed := by
  have hstep : ∀ (t : SaturatingTransport) (op : Operation), t.scheduler.Classed →
      (step lib wire link t op).scheduler.Classed := fun t op ht => classed_step ht op
  refine invariant_run hstep ops ?_
  rw [h.scheduler]
  exact classed_new link

/-- An epoch serves the high class alone exactly while a disaster alert holds: one was verified within
the duration of a lease, no later one replaced it, no termination succeeded and no epoch found its
lease run out. The other classes then wait as they are. -/
theorem preempts_iff (lib : SaturateLibraries) (wire : WireLibraries) {link : ℕ}
    {t : SaturatingTransport} (hfresh : t.Fresh link) (ops : List Operation) (nowSecs : ℤ)
    (tx : Channel) :
    let u := run (step lib wire link) t ops
    let s := ({ u with outboundTx := some tx }.tickSaturate nowSecs).scheduler
    (s.saturateMode = true ↔ Alerted lib wire link t ops nowSecs) ∧
      (Alerted lib wire link t ops nowSecs →
        (∀ q ∈ (s.tick link).1, q.delta.priority = .high) ∧
          (s.tick link).2.mediumQueue = u.scheduler.mediumQueue ∧
          (s.tick link).2.lowQueue = u.scheduler.lowQueue) := by
  intro u s
  have hconfigured : Configured t.saturate u := by
    have hstep : ∀ (u : SaturatingTransport) (op : Operation), Configured t.saturate u →
        Configured t.saturate (step lib wire link u op) := fun u op hu => configured_step hu op
    exact invariant_run hstep ops (configured_of_fresh hfresh)
  have hmode : s.saturateMode = true ↔ Alerted lib wire link t ops nowSecs := by
    have hstate : s.saturateMode = decide ((u.saturate.tick nowSecs).state = .saturate) :=
      saturateMode_tickSaturate _ nowSecs
    rw [hstate, decide_eq_true_iff, saturate_tick_iff hconfigured]
    constructor
    · rintro ⟨expiresAt, hleased, hlive⟩
      obtain ⟨earlier, op, rest, hsplit, hgrant, hspared⟩ := (leasedUntil_run hfresh ops).mp hleased
      refine ⟨expiresAt - t.saturate.leaseDurationSecs, earlier, op, rest, hsplit, hgrant, ?_, ?_⟩
      · rw [sub_add_cancel]
        exact hspared
      · rw [sub_add_cancel]
        exact hlive
    · rintro ⟨grantedAt, earlier, op, rest, hsplit, hgrant, hspared, hlive⟩
      refine ⟨grantedAt + t.saturate.leaseDurationSecs, (leasedUntil_run hfresh ops).mpr ?_, hlive⟩
      refine ⟨earlier, op, rest, hsplit, ?_, hspared⟩
      rw [add_sub_cancel_right]
      exact hgrant
  refine ⟨hmode, fun halerted => ?_⟩
  have hsaturate := hmode.mpr halerted
  have hqueues : ∀ p, s.queueOf p = u.scheduler.queueOf p := fun p =>
    queueOf_setSaturateMode u.scheduler _ p
  simp only [tick, hsaturate, if_true, drainHigh]
  refine ⟨fun q hq => ?_, hqueues .medium, hqueues .low⟩
  apply classed_of_fresh hfresh ops .high q
  rw [← hqueues .high]
  have hhigh : s.queueOf .high = s.highQueue := rfl
  rw [hhigh, ← drainQueue_append link s.highQueue 0]
  exact List.mem_append_left _ hq

section Sample
open CrdtEngine PublishedDelivery ThresholdSigners

def sampleAlert : List Operation :=
  [.enqueue (sampleQueued .low 60), .activate sampleDid₁ [1] 10, .epoch 20 ⟨1, false, []⟩]

theorem preempts_iff_sample :
    let t : SaturatingTransport := ⟨sampleSender ⟨4, ∅⟩, .new 1 (List.replicate 32 9) 3600⟩
    let u := run (step sampleAlerts sampleWire 1000000) t sampleAlert
    let s := ({ u with outboundTx := some ⟨1, false, []⟩ }.tickSaturate 30).scheduler
    s.saturateMode = true ∧ ∀ q ∈ (s.tick 1000000).1, q.delta.priority = .high := by
  intro t u s
  have hfresh : t.Fresh 1000000 := ⟨rfl, 1, List.replicate 32 9, 3600, rfl⟩
  have hpreempts := preempts_iff sampleAlerts sampleWire hfresh sampleAlert 30 ⟨1, false, []⟩
  have halerted : Alerted sampleAlerts sampleWire 1000000 t sampleAlert 30 := by
    refine ⟨10, [.enqueue (sampleQueued .low 60)], .activate sampleDid₁ [1] 10,
      [.epoch 20 ⟨1, false, []⟩], rfl, ⟨by decide +kernel, rfl⟩, ?_, by decide⟩
    intro o ho
    rw [List.mem_singleton.mp ho]
    change (20 : ℤ) < 10 + 3600
    omega
  exact ⟨hpreempts.1.mpr halerted, (hpreempts.2 halerted).1⟩

end Sample

end SaturatingTransport

end TirBase
