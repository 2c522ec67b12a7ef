import TirBase.WasmEndings

/-! # What the host hears of incidents

In the WASM build the subsystems push events to a queue that the host drains. An incident is told of
when it is opened, certified or closed, and a composite when it is formed, but no event tells that an
incident was taken into a composite. A host that keeps what it was told last therefore has every
composite, and of the incidents all that composites do not name. -/
namespace TirBase.HostFeed
open Capability ContaminationEngine IncidentRuns CompositeFormation TransitionRuns WasmEndings

abbrev HostIncident := IncidentContextObject ⊕ CompositeIncidentInstance

def HostIncident.key : HostIncident → IncidentKey :=
  Sum.map IncidentContextObject.id CompositeIncidentInstance.id

inductive WasmEvent
  | trustLevelChanged (previous new : TrustLevel)
  | incidentCreated (ico : HostIncident)
  | incidentUpdated (ico : HostIncident)
  | incidentClosed (ico : HostIncident)
  | durabilityTierChanged (deltaId : DeltaId) (previousTier newTier : DurabilityTier)

/-- The incident that `tag_contamination_root` opens. -/
def openedIncident (env : TaintEnvironment) (rootDeltaId : DeltaId) (source : TaintSource)
    (h : WasmCoreHandle) : IncidentContextObject :=
  let descendants := h.cceDag.bfsDescendants rootDeltaId
  ⟨env.icoId, .open_, source, [rootDeltaId], descendants.toFinset, h.affectedRows descendants,
    none, env.now, env.now, []⟩

/-- Either the composite is announced or the new incident. -/
def tagEvents (env : TaintEnvironment) (rootDeltaId : DeltaId) (source : TaintSource)
    (h : WasmCoreHandle) : List WasmEvent :=
  let ico := openedIncident env rootDeltaId source h
  match h.cce.overlapping ico with
  | some existing => [.incidentCreated (.inr (compositeMerge existing ico env.compositeId env.now).2.2)]
  | none => [.incidentCreated (.inl ico)]

/-- A certificate is announced for each incident of the root; the last one as a closing. -/
def certifyWithEvents (now : ℤ) (rootDeltaId : DeltaId) (managerDid : Did) (h : WasmCoreHandle)
    (icoId : IncidentId) : WasmCoreHandle × List WasmEvent :=
  let certified := h.certify now rootDeltaId managerDid icoId
  (certified, match certified.cce.incidents.lookup icoId with
    | none => []
    | some ico =>
      -- the tags of the decontamination do not resolve a root
      if ico.contaminationRoots.all h.hasResolvedTag then [.incidentClosed (.inl ico)]
      else [.incidentUpdated (.inl ico)])

section Calls
variable (lib : IdentityLibraries)

def verifyEvents (now : ℤ) (rootDeltaId : DeltaId) (managerDid : Did) (managerSig : Bytes)
    (managerTokenExpiry nowSecs : ℤ) (h : WasmCoreHandle) : List WasmEvent :=
  match verifyManagerAuth lib managerDid managerSig (digestBytes rootDeltaId) managerTokenExpiry
    nowSecs with
  | .error _ => []
  | .ok () =>
    emitted (certifyWithEvents now rootDeltaId managerDid)
      { h with tagStore := h.tagStore ++ [(rootDeltaId, DeltaTag.resolved managerDid now)] }
      (h.cce.incidentsOf rootDeltaId)

def closeEvents (now : ℤ) (incidentId : IncidentId) (managerDid : Did) (managerSig : Bytes)
    (managerTokenExpiry nowSecs : ℤ) (h : WasmCoreHandle) : List WasmEvent :=
  let out := h.adminClose lib now incidentId managerDid managerSig managerTokenExpiry nowSecs
  match out.1 with
  | .error _ => []
  | .ok () =>
    (out.2.cce.incidents.lookup incidentId).toList.map fun ico => .incidentClosed (.inl ico)

def callEvents (s : WasmRun) : WasmOperation → List WasmEvent
  | .project _ _ _ _ => []
  | .tag env rootDeltaId source => tagEvents env rootDeltaId source s.device
  | .verify now rootDeltaId managerDid managerSig managerTokenExpiry nowSecs =>
    verifyEvents lib now rootDeltaId managerDid managerSig managerTokenExpiry nowSecs s.device
  | .close now incidentId managerDid managerSig managerTokenExpiry nowSecs =>
    closeEvents lib now incidentId managerDid managerSig managerTokenExpiry nowSecs s.device

end Calls

/-- `notify_tier_changed` infers the tier before. -/
def notifyTierChanged (deltaId : DeltaId) (tier : DurabilityTier) : WasmEvent :=
  .durabilityTierChanged deltaId
    (match tier with
      | .tier1 => .uncommitted
      | .tier2 => .tier1
      | .uncommitted => .uncommitted) tier

/-- A host keeps the incident that it is told of in place of an earlier one. -/
def hear (copies : IncidentKey → Option HostIncident) :
    WasmEvent → IncidentKey → Option HostIncident
  | .incidentCreated ico => Function.update copies ico.key (some ico)
  | .incidentUpdated ico => Function.update copies ico.key (some ico)
  | .incidentClosed ico => Function.update copies ico.key (some ico)
  | .trustLevelChanged _ _ => copies
  | .durabilityTierChanged _ _ _ => copies

structure HostRun where
  engine : WasmRun
  queue : List WasmEvent
  copies : IncidentKey → Option HostIncident

/-- The engine is called, the revocation and the durability subsystem push events of their own, and
the host polls. -/
inductive HostOperation
  | call (op : WasmOperation)
  | revoked
  | tierChanged (deltaId : DeltaId) (tier : DurabilityTier)
  | poll

section Machine
variable (lib : IdentityLibraries)

def hostStep (s : HostRun) : HostOperation → HostRun
  | .call op =>
    { s with engine := wasmStep lib s.engine op, queue := s.queue ++ callEvents lib s.engine op }
  -- whichever device is revoked and whatever its level was
  | .revoked => { s with queue := s.queue ++ [.trustLevelChanged .verified .revoked] }
  | .tierChanged deltaId tier => { s with queue := s.queue ++ [notifyTierChanged deltaId tier] }
  | .poll => { s with queue := [], copies := run hear s.copies s.queue }

/-- A new incident and its composite are named as nothing before them. -/
def Fresh (s : HostRun) : HostOperation → Prop
  | .call (.tag env _ _) =>
    Unused s.engine.device.cce env.icoId ∧ Unused s.engine.device.cce env.compositeId
  | _ => True

def start (device : WasmCoreHandle) : HostRun := ⟨⟨device, []⟩, [], fun _ => none⟩

/-- What `process_incoming_delta` of the WASM build has the engine do, and the event before it. -/
def revocationOperations (env : WasmEnvironment) : RevocationEffect → List HostOperation
  | .revocationApplied _ _ => [.revoked]
  | .cceTrigger _ deltaIds =>
    deltaIds.map fun id => .call (.tag (env.taint id) id (.deviceRevocation id))

theorem device_revocationOperations (env : WasmEnvironment) (s : HostRun)
    (effect : RevocationEffect) :
    (run (hostStep lib) s (revocationOperations env effect)).engine.device =
      WasmCoreHandle.revocationEffect env s.engine.device effect := by
  cases effect with
  | revocationApplied did delta => rfl
  | cceTrigger did deltaIds =>
    induction deltaIds generalizing s with
    | nil => rfl
    | cons id deltaIds ih => exact ih _

theorem device_run_effects (env : WasmEnvironment) (s : HostRun) (effects : List RevocationEffect) :
    (run (hostStep lib) s (effects.flatMap (revocationOperations env))).engine.device =
      effects.foldl (WasmCoreHandle.revocationEffect env) s.engine.device := by
  induction effects generalizing s with
  | nil => rfl
  | cons effect effects ih =>
    rw [List.flatMap_cons, run_append, ih, device_revocationOperations]
    rfl

/-- The engine does not read the revocation subsystem. -/
theorem foldl_revocationEffect (env : WasmEnvironment) (r : WasmRevocationSubsystem)
    (effects : List RevocationEffect) (h : WasmCoreHandle) :
    effects.foldl (WasmCoreHandle.revocationEffect env) { h with revocation := r } =
      { effects.foldl (WasmCoreHandle.revocationEffect env) h with revocation := r } := by
  let revoke (h : WasmCoreHandle) : WasmCoreHandle := { h with revocation := r }
  refine List.foldl_hom revoke fun h effect => ?_
  cases effect with
  | revocationApplied did delta => rfl
  | cceTrigger did deltaIds => exact List.foldl_hom revoke fun h id => rfl

/-- A revocation that arrives is a run of these operations, as far as the engine is concerned. -/
theorem cce_processRevocation (lib : CoreLibraries) (δ : RevocationDelta) (env : WasmEnvironment)
    (s : HostRun) :
    (s.engine.device.processRevocation lib δ env).2.cce =
      (run (hostStep lib.toIdentityLibraries) s
        ((s.engine.device.revocation.toRevocationSubsystem.processIncomingDelta
          lib.toIdentityLibraries δ (s.engine.device.revocation.authoredDeltaIds δ.targetDid)
          env.now).2.2.flatMap (revocationOperations env))).engine.device.cce := by
  rw [device_run_effects]
  unfold WasmCoreHandle.processRevocation
  dsimp only
  rw [foldl_revocationEffect]
  split <;> rfl

end Machine

/-- An incident that is part of a composite which the host has: the host has the incident as an open
one, or, if it was opened into the composite and never certified, not at all. -/
def Joined (copies : IncidentKey → Option HostIncident) (id : IncidentId)
    (ico : IncidentContextObject) : Prop :=
  ∃ c comp, ico.state = .supersededBy c ∧ copies (.inr c) = some (.inr comp) ∧
    id ∈ comp.compositeOf ∧ (copies (.inl id) = some (.inl { ico with state := .open_ }) ∨
      copies (.inl id) = none ∧ ico.auditLog = [])

/-- The host has the composites of the engine, and its incidents but for those that are joined. -/
structure Mirrors (copies : IncidentKey → Option HostIncident) (cce : ContaminationEngine) :
    Prop where
  composite : ∀ id, copies (.inr id) = (cce.compositeIncidents.lookup id).map .inr
  unknown : ∀ id, cce.incidents.lookup id = none → copies (.inl id) = none
  incident : ∀ id ico, cce.incidents.lookup id = some ico →
    copies (.inl id) = some (.inl ico) ∨ Joined copies id ico

variable {copies : IncidentKey → Option HostIncident} {cce cce' : ContaminationEngine}

theorem Mirrors.same (h : Mirrors copies cce) (hincidents : cce'.incidents = cce.incidents)
    (hcomposites : cce'.compositeIncidents = cce.compositeIncidents) : Mirrors copies cce' := by
  refine ⟨fun id => ?_, fun id hid => ?_, fun id ico hico => ?_⟩
  · rw [hcomposites]
    exact h.composite id
  · rw [hincidents] at hid
    exact h.unknown id hid
  · rw [hincidents] at hico
    exact h.incident id ico hico

theorem Mirrors.tell (h : Mirrors copies cce) (id : IncidentId) (ico : IncidentContextObject) :
    Mirrors (Function.update copies (.inl id) (some (.inl ico)))
      { cce with incidents := cce.incidents.insert id ico } := by
  have hother : ∀ k, k ≠ .inl id →
      Function.update copies (.inl id) (some (.inl ico)) k = copies k :=
    fun k hk => Function.update_of_ne hk ..
  refine ⟨fun c => (hother (.inr c) (by simp)).trans (h.composite c), fun other hother' => ?_,
    fun other ico' hico' => ?_⟩
  · have hne : other ≠ id := by
      rintro rfl
      rw [AList.lookup_insert] at hother'
      cases hother'
    rw [AList.lookup_insert_ne hne] at hother'
    rw [hother _ (by simpa using hne)]
    exact h.unknown other hother'
  · by_cases hne : other = id
    · subst hne
      rw [AList.lookup_insert] at hico'
      cases hico'
      exact .inl (Function.update_self ..)
    · rw [AList.lookup_insert_ne hne] at hico'
      unfold Joined
      rw [hother _ (by simpa using hne)]
      refine (h.incident other ico' hico').imp_right fun ⟨c, comp, hstate, hcomp, hof, hcopy⟩ => ?_
      exact ⟨c, comp, hstate, (hother (.inr c) (by simp)).trans hcomp, hof, hcopy⟩

/-- An open incident and a new one are joined; the composite is told of. -/
theorem Mirrors.join (h : Mirrors copies cce) {existing ico : IncidentContextObject}
    {comp : CompositeIncidentInstance} {compositeId : IncidentId}
    (hexisting : cce.incidents.lookup existing.id = some existing) (hopen : existing.state = .open_)
    (hico : cce.incidents.lookup ico.id = none) (hlog : ico.auditLog = [])
    (hcomposite : cce.compositeIncidents.lookup compositeId = none)
    (hof : comp.compositeOf = [existing.id, ico.id]) :
    Mirrors (Function.update copies (.inr compositeId) (some (.inr comp)))
      { cce with
        incidents := (cce.incidents.insert existing.id { existing with
          state := .supersededBy compositeId }).insert ico.id { ico with
            state := .supersededBy compositeId }
        compositeIncidents := cce.compositeIncidents.insert compositeId comp } := by
  have hinl : ∀ id, Function.update copies (.inr compositeId) (some (.inr comp)) (.inl id) =
      copies (.inl id) := fun id => Function.update_of_ne (by simp) ..
  have hnew : Function.update copies (.inr compositeId) (some (.inr comp)) (.inr compositeId) =
      some (.inr comp) := Function.update_self ..
  have hne : existing.id ≠ ico.id := by
    intro heq
    rw [← heq, hexisting] at hico
    cases hico
  refine ⟨fun c => ?_, fun id hid => ?_, fun id ico' hico' => ?_⟩
  · by_cases hc : c = compositeId
    · subst hc
      rw [hnew, AList.lookup_insert]
      rfl
    · rw [Function.update_of_ne (by simpa using hc), AList.lookup_insert_ne hc]
      exact h.composite c
  · have hid' : id ≠ ico.id := by
      rintro rfl
      rw [AList.lookup_insert] at hid
      cases hid
    rw [AList.lookup_insert_ne hid'] at hid
    have hid'' : id ≠ existing.id := by
      rintro rfl
      rw [AList.lookup_insert] at hid
      cases hid
    rw [AList.lookup_insert_ne hid''] at hid
    rw [hinl]
    exact h.unknown id hid
  · by_cases hid : id = ico.id
    · subst hid
      rw [AList.lookup_insert] at hico'
      cases hico'
      refine .inr ⟨compositeId, comp, rfl, hnew, by simp [hof], .inr ⟨?_, hlog⟩⟩
      rw [hinl]
      exact h.unknown ico.id hico
    rw [AList.lookup_insert_ne hid] at hico'
    by_cases hid' : id = existing.id
    · subst hid'
      rw [AList.lookup_insert] at hico'
      cases hico'
      refine .inr ⟨compositeId, comp, rfl, hnew, by simp [hof], .inl ?_⟩
      rw [hinl]
      rcases h.incident existing.id existing hexisting with hcopy | ⟨c, -, hsuperseded, -⟩
      · rw [hcopy, ← hopen]
      · cases hopen.symm.trans hsuperseded
    · rw [AList.lookup_insert_ne hid'] at hico'
      unfold Joined
      rw [hinl]
      refine (h.incident id ico' hico').imp_right fun ⟨c, old, hold, hcopy, hrest⟩ => ?_
      have hc : c ≠ compositeId := by
        rintro rfl
        rw [h.composite, hcomposite] at hcopy
        cases hcopy
      exact ⟨c, old, hold, (Function.update_of_ne (by simpa using hc) ..).trans hcopy, hrest⟩

/-- What holds between the operations, of the copies that the queue would leave. -/
structure InStep (copies : IncidentKey → Option HostIncident) (cce : ContaminationEngine) :
    Prop where
  keyed : Keyed cce
  mirrors : Mirrors copies cce

theorem keyed_of_views (h : Keyed cce) (hview : ∀ k, view cce' k = view cce k) : Keyed cce' := by
  refine ⟨fun id v hv => h.1 id v ?_, fun id v hv => h.2 id v ?_⟩
  · rwa [hview] at hv
  · rwa [hview] at hv

theorem lookup_of_unused {id : IncidentId} (h : Unused cce id) :
    cce.incidents.lookup id = none ∧ cce.compositeIncidents.lookup id = none :=
  ⟨Option.map_eq_none_iff.mp h.1, Option.map_eq_none_iff.mp h.2⟩

theorem id_of_lookup (h : Keyed cce) {id : IncidentId} {ico : IncidentContextObject}
    (hico : cce.incidents.lookup id = some ico) : ico.id = id :=
  h.1 id _ (view_incident hico)

/-- The incident that a new one is joined with is the one of its name. -/
theorem lookup_of_overlapping (h : Keyed cce) {ico existing : IncidentContextObject}
    (hoverlap : cce.overlapping ico = some existing) :
    cce.incidents.lookup existing.id = some existing := by
  obtain ⟨e, he, rfl⟩ := List.mem_map.mp (List.mem_of_find?_eq_some hoverlap)
  have hlookup := AList.mem_lookup_iff.mpr he
  rwa [id_of_lookup h hlookup]

theorem InStep.tag (h : InStep copies cce) {s : WasmCoreHandle} (hcce : s.cce = cce)
    (env : TaintEnvironment) (rootDeltaId : DeltaId) (source : TaintSource)
    (hico : Unused cce env.icoId) (hcomposite : Unused cce env.compositeId) :
    InStep (run hear copies (tagEvents env rootDeltaId source s))
      (s.tagRoot env rootDeltaId source).cce := by
  subst hcce
  have hregister : (s.tagRoot env rootDeltaId source).cce =
      (s.cce.register (openedIncident env rootDeltaId source s) env.compositeId env.now).2 := rfl
  rw [hregister]
  refine ⟨keyed_register h.keyed (registerEffect h.keyed _ env.compositeId env.now), ?_⟩
  unfold tagEvents register
  cases hoverlap : s.cce.overlapping (openedIncident env rootDeltaId source s) with
  | none =>
    simp only [hoverlap]
    exact (h.mirrors.tell env.icoId (openedIncident env rootDeltaId source s)).same rfl rfl
  | some existing =>
    simp only [hoverlap]
    exact (h.mirrors.join (lookup_of_overlapping h.keyed hoverlap)
      (overlapping_some h.keyed hoverlap).2.1 (lookup_of_unused hico).1 rfl
      (lookup_of_unused hcomposite).2 rfl).same rfl rfl

theorem InStep.retell (h : InStep copies cce) {id : IncidentId} {ico ico' : IncidentContextObject}
    (hico : cce.incidents.lookup id = some ico) (hsame : ico'.id = ico.id) :
    InStep (Function.update copies (.inl ico'.id) (some (.inl ico')))
      { cce with incidents := cce.incidents.insert id ico' } := by
  have hid : ico'.id = id := hsame.trans (id_of_lookup h.keyed hico)
  rw [hid]
  refine ⟨⟨fun other v hv => ?_, fun other v hv => ?_⟩, h.mirrors.tell id ico'⟩
  · rw [view_insertIncident] at hv
    split_ifs at hv with hother
    · cases hv
      exact hid.trans (Sum.inl.inj hother).symm
    · exact h.keyed.1 other v hv
  · rw [view_insertIncident, if_neg (by simp)] at hv
    exact h.keyed.2 other v hv

theorem InStep.certify (h : InStep copies cce) {s : WasmCoreHandle} (hcce : s.cce = cce) (now : ℤ)
    (rootDeltaId : DeltaId) (managerDid : Did) (icoId : IncidentId) :
    InStep (run hear copies (certifyWithEvents now rootDeltaId managerDid s icoId).2)
      (certifyWithEvents now rootDeltaId managerDid s icoId).1.cce := by
  subst hcce
  cases hico : s.cce.incidents.lookup icoId with
  | none =>
    have hsame : s.certify now rootDeltaId managerDid icoId = s := by
      unfold WasmCoreHandle.certify
      rw [hico]
    simp only [certifyWithEvents, hsame, hico]
    exact h
  | some ico =>
    let noted : IncidentContextObject := { ico with
      auditLog := ico.auditLog ++ [⟨.verifyData, managerDid, now, [rootDeltaId]⟩]
      updatedAt := now }
    have hcertified : (s.certify now rootDeltaId managerDid icoId).cce =
        { s.cce with incidents := s.cce.incidents.insert icoId noted } := by
      unfold WasmCoreHandle.certify
      rw [hico]
      dsimp only
      split_ifs <;> rfl
    have hlookup : (s.certify now rootDeltaId managerDid icoId).cce.incidents.lookup icoId =
        some noted := by
      rw [hcertified]
      exact AList.lookup_insert _
    have hheard : run hear copies (certifyWithEvents now rootDeltaId managerDid s icoId).2 =
        Function.update copies (.inl noted.id) (some (.inl noted)) := by
      unfold certifyWithEvents
      simp only [hlookup]
      split_ifs <;> rfl
    rw [hheard]
    simp only [certifyWithEvents, hcertified]
    exact h.retell hico rfl

theorem InStep.certifyAll (h : InStep copies cce) {s : WasmCoreHandle} (hcce : s.cce = cce)
    (now : ℤ) (rootDeltaId : DeltaId) (managerDid : Did) (icoIds : List IncidentId) :
    InStep (run hear copies (emitted (certifyWithEvents now rootDeltaId managerDid) s icoIds))
      (icoIds.foldl (WasmCoreHandle.certify now rootDeltaId managerDid) s).cce := by
  induction icoIds generalizing copies cce s with
  | nil => exact hcce ▸ h
  | cons icoId icoIds ih =>
    rw [emitted_cons, run_append]
    exact ih (h.certify hcce now rootDeltaId managerDid icoId) rfl

section Runs
variable {lib : IdentityLibraries}

theorem InStep.verify (h : InStep copies cce) {s : WasmCoreHandle} (hcce : s.cce = cce) (now : ℤ)
    (rootDeltaId : DeltaId) (managerDid : Did) (managerSig : Bytes)
    (managerTokenExpiry nowSecs : ℤ) :
    InStep (run hear copies (verifyEvents lib now rootDeltaId managerDid managerSig
        managerTokenExpiry nowSecs s))
      (s.verifyData lib now rootDeltaId managerDid managerSig managerTokenExpiry nowSecs).2.cce := by
  unfold verifyEvents WasmCoreHandle.verifyData
  cases verifyManagerAuth lib managerDid managerSig (digestBytes rootDeltaId) managerTokenExpiry
    nowSecs with
  | error e => exact hcce ▸ h
  | ok u =>
    have hall := h.certifyAll
      (s := { s with tagStore := s.tagStore ++ [(rootDeltaId, DeltaTag.resolved managerDid now)] })
      hcce now rootDeltaId managerDid (s.cce.incidentsOf rootDeltaId)
    exact ⟨keyed_of_views hall.keyed fun k => by cases k <;> rfl, hall.mirrors.same rfl rfl⟩

theorem InStep.close (h : InStep copies cce) {s : WasmCoreHandle} (hcce : s.cce = cce) (now : ℤ)
    (incidentId : IncidentId) (managerDid : Did) (managerSig : Bytes)
    (managerTokenExpiry nowSecs : ℤ) :
    InStep (run hear copies (closeEvents lib now incidentId managerDid managerSig
        managerTokenExpiry nowSecs s))
      (s.adminClose lib now incidentId managerDid managerSig managerTokenExpiry nowSecs).2.cce := by
  subst hcce
  unfold closeEvents WasmCoreHandle.adminClose ContaminationEngine.adminClose
  cases verifyManagerAuth lib managerDid managerSig (uuidBytes incidentId) managerTokenExpiry
    nowSecs with
  | error e => exact h
  | ok u =>
    cases hico : s.cce.incidents.lookup incidentId with
    | none => exact h
    | some ico =>
      by_cases hopen : ico.state ≠ .open_
      · simp only [if_pos hopen]
        exact h
      · simp only [if_neg hopen, AList.lookup_insert]
        exact h.retell hico rfl

theorem InStep.call {s : WasmRun} (h : InStep copies s.device.cce) {op : WasmOperation}
    (hfresh : ∀ env rootDeltaId source, op = .tag env rootDeltaId source →
      Unused s.device.cce env.icoId ∧ Unused s.device.cce env.compositeId) :
    InStep (run hear copies (callEvents lib s op)) (wasmStep lib s op).device.cce := by
  cases op with
  | project deltaId table key value => exact h
  | tag env rootDeltaId source =>
    obtain ⟨hico, hcomposite⟩ := hfresh env rootDeltaId source rfl
    exact h.tag rfl env rootDeltaId source hico hcomposite
  | verify now rootDeltaId managerDid managerSig managerTokenExpiry nowSecs =>
    exact h.verify rfl now rootDeltaId managerDid managerSig managerTokenExpiry nowSecs
  | close now incidentId managerDid managerSig managerTokenExpiry nowSecs =>
    exact h.close rfl now incidentId managerDid managerSig managerTokenExpiry nowSecs

def HostInStep (s : HostRun) : Prop := InStep (run hear s.copies s.queue) s.engine.device.cce

theorem hostInStep_step (s : HostRun) (op : HostOperation) (hop : Fresh s op) (h : HostInStep s) :
    HostInStep (hostStep lib s op) := by
  unfold HostInStep at h ⊢
  cases op with
  | call op =>
    simp only [hostStep, run_append]
    refine h.call fun env rootDeltaId source heq => ?_
    subst heq
    exact hop
  | revoked =>
    simp only [hostStep, run_append]
    exact h
  | tierChanged deltaId tier =>
    simp only [hostStep, run_append]
    exact h
  | poll => exact h

theorem hostInStep_start {device : WasmCoreHandle} (hdevice : device.cce = .new) :
    HostInStep (start device) := by
  unfold HostInStep start
  rw [hdevice]
  refine ⟨⟨fun id v hv => ?_, fun id v hv => ?_⟩, fun id => rfl, fun id _ => rfl, fun id ico hico => ?_⟩
  · cases (view_new _).symm.trans hv
  · cases (view_new _).symm.trans hv
  · cases hico

/-- After a poll the host has every composite as the engine has it, and every incident but those that
were joined into a composite since they were told of. -/
theorem host_mirrors {device : WasmCoreHandle} (hdevice : device.cce = .new)
    {ops : List HostOperation} (hfresh : Guarded (hostStep lib) Fresh (start device) ops) :
    Mirrors (run (hostStep lib) (start device) (ops ++ [.poll])).copies
      (run (hostStep lib) (start device) ops).engine.device.cce := by
  have hrun := guarded_run hostInStep_step hfresh (hostInStep_start hdevice)
  rw [run_append]
  exact hrun.mirrors

end Runs

def hostRun : List HostOperation :=
  [.call (.project 5 "items" "k" .null), .call (wasmTag 5 21 31), .tierChanged 5 .tier1,
    .call (wasmTag 6 22 32), .poll, .revoked, .call (wasmTag 5 23 33), .call (wasmVerify 6),
    .call (wasmClose 22)]

/-- A root is tagged again while its incident is open, and another one is certified and closed. -/
theorem host_mirrors_sample :
    Mirrors (run (hostStep sampleLib) (start wasmDevice) (hostRun ++ [.poll])).copies
      (run (hostStep sampleLib) (start wasmDevice) hostRun).engine.device.cce := by
  refine host_mirrors rfl ⟨trivial, ⟨?_, ?_⟩, trivial, ⟨?_, ?_⟩, trivial, trivial, ⟨?_, ?_⟩, trivial,
    trivial, trivial⟩ <;> decide +kernel

end TirBase.HostFeed
