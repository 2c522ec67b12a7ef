import TirBase.TransitionRuns
import TirBase.WasmCoreHandle

/-! # Durability while Deltas arrive

The native device registers only what it writes itself. The WASM device registers every Delta that
it receives, whatever became of it. -/
namespace TirBase.InboundDurability
open TransitionRuns

variable (lib : CoreLibraries)

structure Devices where
  native : CoreHandle
  wasm : WasmCoreHandle

structure Arrival where
  delta : Delta
  native : CoreHandle.InboundEnvironment
  wasm : WasmEnvironment

def deliver (s : Devices) (op : Arrival) : Devices :=
  ⟨(s.native.receiveDelta lib op.delta op.native).2, (s.wasm.receiveDelta lib op.delta op.wasm).2⟩

def nativeOutcome (s : Devices) (op : Arrival) : Except TirBaseError MergeOutcome :=
  (s.native.crdt.apply lib.toEngineLibraries .native op.delta op.native.now op.native.applyFault).1

def wasmOutcome (s : Devices) (op : Arrival) : Except TirBaseError MergeOutcome :=
  (s.wasm.crdt.apply lib.toEngineLibraries .wasm op.delta op.wasm.now none).1

def Refused (outcome : Except TirBaseError MergeOutcome) : Prop :=
  (∃ reason, outcome = .ok (.rejected reason)) ∨ ∃ reason, outcome = .ok (.quarantined reason)

structure Agree (d d' : DurabilitySubsystem) : Prop where
  states : ∀ id, d.states.lookup id = d'.states.lookup id
  cloudQueue : d.cloudQueue = d'.cloudQueue

/-- After the Delta both builds agree, and a Delta that was refused has changed nothing. -/
structure Framed (s : Devices) (op : Arrival) : Prop where
  same : Agree (deliver lib s op).native.durability (deliver lib s op).wasm.durability
  nativeRefused : Refused (nativeOutcome lib s op) →
    Agree (deliver lib s op).native.durability s.native.durability
  wasmRefused : Refused (wasmOutcome lib s op) →
    Agree (deliver lib s op).wasm.durability s.wasm.durability

/-- The Delta passes the gate and its payload does not merge, or the queue is full and the Delta
is in the tier table as one just registered. -/
def NothingRegistered (s : Devices) (op : Arrival) : Prop :=
  ((∃ adopt, s.wasm.crdt.gate lib.toEngineLibraries op.delta = .pass adopt) ∧
    s.wasm.crdt.mergePayload lib.toEngineLibraries op.delta = none) ∨
  (maxQueueDepth ≤ s.wasm.durability.cloudQueue.queue.length ∧
    s.wasm.durability.states.lookup op.delta.id = some ⟨op.delta.id, .uncommitted, ∅, false⟩)

namespace Agree

theorem refl (d : DurabilitySubsystem) : Agree d d := ⟨fun _ => rfl, rfl⟩

theorem symm {d d' : DurabilitySubsystem} (h : Agree d d') : Agree d' d :=
  ⟨fun id => (h.states id).symm, h.cloudQueue.symm⟩

theorem trans {d d' d'' : DurabilitySubsystem} (h : Agree d d') (h' : Agree d' d'') :
    Agree d d'' :=
  ⟨fun id => (h.states id).trans (h'.states id), h.cloudQueue.trans h'.cloudQueue⟩

end Agree

/-- Registering a Delta changes something unless the queue is full and the entry is new already. -/
theorem agree_registerDelta_iff (d : DurabilitySubsystem) (δ : Delta) (bytes : Bytes) :
    Agree (d.registerDelta δ.id δ.id bytes δ.causalParents ∅).2 d ↔
      maxQueueDepth ≤ d.cloudQueue.queue.length ∧
        d.states.lookup δ.id = some ⟨δ.id, .uncommitted, ∅, false⟩ := by
  by_cases hfull : maxQueueDepth ≤ d.cloudQueue.queue.length
  · have hafter : (d.registerDelta δ.id δ.id bytes δ.causalParents ∅).2 =
        { d with states := d.states.insert δ.id ⟨δ.id, .uncommitted, ∅, false⟩ } := by
      simp only [DurabilitySubsystem.registerDelta, CloudOutboundQueue.enqueue_of_le hfull]
    rw [hafter]
    constructor
    · intro h
      have hself := h.states δ.id
      rw [AList.lookup_insert] at hself
      exact ⟨hfull, hself.symm⟩
    · rintro ⟨-, hself⟩
      refine ⟨fun id => ?_, rfl⟩
      by_cases hid : id = δ.id
      · subst hid
        rw [hself, AList.lookup_insert]
      · rw [AList.lookup_insert_ne hid]
  · rw [DurabilitySubsystem.registerDelta_of_lt (not_le.mp hfull)]
    constructor
    · intro h
      have hlength := congrArg (fun q : CloudOutboundQueue => q.queue.length) h.cloudQueue
      simp at hlength
    · rintro ⟨hle, -⟩
      exact absurd hle hfull

variable {lib}

@[simp] theorem durability_receiveDelta (h : CoreHandle) (δ : Delta)
    (env : CoreHandle.InboundEnvironment) : (h.receiveDelta lib δ env).2.durability = h.durability := by
  have hprojected : ∀ h' : CoreHandle,
      (h'.projectMerged lib δ env.storeFault).durability = h'.durability := by
    intro h'
    unfold CoreHandle.projectMerged
    split <;> rfl
  simp only [CoreHandle.receiveDelta]
  split
  · rfl
  · exact hprojected _
  · rfl
  · rfl

/-- The WASM device registers the Delta whenever the engine answers. -/
theorem durability_wasm_receiveDelta (h : WasmCoreHandle) (δ : Delta) (env : WasmEnvironment) :
    (h.receiveDelta lib δ env).2.durability =
      match (h.crdt.apply lib.toEngineLibraries .wasm δ env.now none).1 with
      | .error _ => h.durability
      | .ok _ =>
        (h.durability.registerDelta δ.id δ.id (lib.serialiseDelta δ) δ.causalParents ∅).2 := by
  have hprojected : ∀ h' : WasmCoreHandle,
      (h'.projectMerged lib δ).durability = h'.durability := by
    intro h'
    unfold WasmCoreHandle.projectMerged
    split <;> rfl
  simp only [WasmCoreHandle.receiveDelta]
  cases (h.crdt.apply lib.toEngineLibraries .wasm δ env.now none).1 with
  | error e => rfl
  | ok outcome =>
    cases outcome with
    | merged n => simp only [hprojected]
    | quarantined reason => rfl
    | rejected reason => rfl

/-- The engine of the WASM build answers with an error only where a payload does not merge. -/
theorem wasm_apply_error_iff (e : CrdtEngine) (δ : Delta) (now : ℤ) :
    (∃ err, (e.apply lib.toEngineLibraries .wasm δ now none).1 = .error err) ↔
      (∃ adopt, e.gate lib.toEngineLibraries δ = .pass adopt) ∧
        e.mergePayload lib.toEngineLibraries δ = none := by
  cases hgate : e.gate lib.toEngineLibraries δ with
  | reject code reason => simp [CrdtEngine.apply, hgate]
  | quarantine reason => simp [CrdtEngine.apply, hgate]
  | pass adopt =>
    cases hmerge : e.mergePayload lib.toEngineLibraries δ with
    | none =>
      have hsame : (if adopt then e.addKnownSchema δ.schemaHash else e).mergePayload
          lib.toEngineLibraries δ = none := by
        cases adopt <;> exact hmerge
      simp [CrdtEngine.apply, hgate, hsame]
    | some doc =>
      rcases CrdtEngine.apply_of_pass hgate hmerge .wasm now none with ⟨err, herr, -, -⟩ | happly
      · cases herr
      · simp [happly]

theorem framed_iff {s : Devices} (hsame : Agree s.native.durability s.wasm.durability)
    (op : Arrival) : Framed lib s op ↔ NothingRegistered lib s op := by
  have hnative : (deliver lib s op).native.durability = s.native.durability :=
    durability_receiveDelta s.native op.delta op.native
  have hframed : Framed lib s op ↔ Agree (deliver lib s op).wasm.durability s.wasm.durability := by
    constructor
    · intro h
      exact h.same.symm.trans (hnative ▸ hsame)
    · intro h
      exact ⟨hnative ▸ hsame.trans h.symm, fun _ => hnative ▸ .refl _, fun _ => h⟩
  rw [hframed]
  show Agree (s.wasm.receiveDelta lib op.delta op.wasm).2.durability s.wasm.durability ↔ _
  rw [durability_wasm_receiveDelta, NothingRegistered, ← wasm_apply_error_iff s.wasm.crdt op.delta op.wasm.now,
    ← agree_registerDelta_iff s.wasm.durability op.delta (lib.serialiseDelta op.delta)]
  cases (s.wasm.crdt.apply lib.toEngineLibraries .wasm op.delta op.wasm.now none).1 with
  | error e =>
    exact ⟨fun _ => .inl ⟨e, rfl⟩, fun _ => .refl _⟩
  | ok outcome =>
    constructor
    · exact .inr
    · rintro (⟨err, herr⟩ | h)
      · cases herr
      · exact h

/-- Along a stream both builds agree after each Delta, and no refused Delta changes anything,
exactly when each Delta registers nothing. -/
theorem inbound_durability_iff (lib : CoreLibraries) (s : Devices)
    (hsame : s.native.durability = s.wasm.durability) (ops : List Arrival) :
    (∀ earlier op rest, ops = earlier ++ op :: rest →
      Framed lib (run (deliver lib) s earlier) op) ↔
      Guarded (deliver lib) (NothingRegistered lib) s ops := by
  rw [← guarded_iff_splits]
  have hagree : Agree s.native.durability s.wasm.durability := hsame ▸ .refl _
  clear hsame
  induction ops generalizing s with
  | nil => exact Iff.rfl
  | cons op ops ih =>
    rw [guarded_cons, guarded_cons, framed_iff hagree op]
    refine and_congr_right fun hnothing => ih _ ?_
    exact ((framed_iff hagree op).mpr hnothing).same

theorem length_queue_unsigned (lib : CoreLibraries) (s : Devices) (ops : List Arrival)
    (hunsigned : ∀ op ∈ ops, op.delta.signature = []) :
    (run (deliver lib) s ops).wasm.durability.cloudQueue.queue.length =
      max s.wasm.durability.cloudQueue.queue.length
        (min maxQueueDepth (s.wasm.durability.cloudQueue.queue.length + ops.length)) := by
  induction ops generalizing s with
  | nil => simp
  | cons op ops ih =>
    have hsignature : op.delta.signature = [] := hunsigned op List.mem_cons_self
    have hanswer : ¬∃ err, (s.wasm.crdt.apply lib.toEngineLibraries .wasm op.delta op.wasm.now
        none).1 = .error err := by
      rw [wasm_apply_error_iff]
      rintro ⟨⟨adopt, hpass⟩, -⟩
      unfold CrdtEngine.gate CrdtEngine.signatureGate at hpass
      rw [if_pos hsignature, if_pos hsignature] at hpass
      split_ifs at hpass
      split at hpass <;> cases hpass
    have hstep : (deliver lib s op).wasm.durability.cloudQueue.queue.length =
        if s.wasm.durability.cloudQueue.queue.length < maxQueueDepth
        then s.wasm.durability.cloudQueue.queue.length + 1
        else s.wasm.durability.cloudQueue.queue.length := by
      show (s.wasm.receiveDelta lib op.delta op.wasm).2.durability.cloudQueue.queue.length = _
      rw [durability_wasm_receiveDelta]
      cases hout : (s.wasm.crdt.apply lib.toEngineLibraries .wasm op.delta op.wasm.now none).1 with
      | error err => exact absurd ⟨err, hout⟩ hanswer
      | ok outcome =>
        split_ifs with hlt
        · simp [DurabilitySubsystem.registerDelta_of_lt hlt]
        · simp [DurabilitySubsystem.registerDelta,
            CloudOutboundQueue.enqueue_of_le (not_lt.mp hlt)]
    rw [run_cons, ih _ fun o ho => hunsigned o (List.mem_cons_of_mem op ho), hstep,
      List.length_cons]
    split_ifs with hlt <;> omega

/-- Enough Deltas without a signature fill the queue, and nothing can be registered any more. -/
theorem registerDelta_after_unsigned (lib : CoreLibraries) (s : Devices) {ops : List Arrival}
    (hunsigned : ∀ op ∈ ops, op.delta.signature = []) (hmany : maxQueueDepth ≤ ops.length)
    (deltaId : DeltaId) (bytes : Bytes) (parents : List DeltaId) :
    ∃ depth, ((run (deliver lib) s ops).wasm.durability.registerDelta deltaId deltaId bytes parents
      ∅).1 = .error (.cloudQueueFull depth) := by
  have hfull :
      maxQueueDepth ≤ (run (deliver lib) s ops).wasm.durability.cloudQueue.queue.length := by
    rw [length_queue_unsigned lib s ops hunsigned]
    omega
  exact ⟨_, DurabilitySubsystem.registerDelta_of_le hfull deltaId deltaId bytes parents ∅⟩

def sampleLib : CoreLibraries := CoreHandle.sampleCoreLibraries []

def sampleState : DeltaDurabilityState := ⟨0x501, .tier2, ∅, false⟩

def sampleDevices : Devices :=
  let h := { CoreHandle.sampleHandle ⟨.empty, .empty, [], []⟩ with
    durability := ⟨(∅ : AList _).insert 0x501 sampleState, .new⟩ }
  ⟨h, .ofNative h⟩

def sampleArrival : Arrival where
  delta := ⟨0x501, CrdtEngine.sampleDid₂, [], 0, [], .low, [], [], 1, 5⟩
  native := ⟨9, none, none, 3, .ok false, false, false, fun _ => ⟨1, 2, 9, none, none, fun _ => false⟩⟩
  wasm := ⟨9, .ok false, fun _ => ⟨1, 2, 9, none, none, fun _ => false⟩⟩

/-- The forged Delta is rejected by both builds. On the WASM build it takes the acknowledgement of
the Delta whose identifier it bears, and enough of them fill the queue, so that no later write can
be registered. -/
theorem forged_delta_registers :
    Refused (nativeOutcome sampleLib sampleDevices sampleArrival) ∧
      Refused (wasmOutcome sampleLib sampleDevices sampleArrival) ∧
      sampleDevices.native.durability = sampleDevices.wasm.durability ∧
      (deliver sampleLib sampleDevices sampleArrival).native.durability.durabilityTier 0x501 =
        .tier2 ∧
      (deliver sampleLib sampleDevices sampleArrival).wasm.durability.durabilityTier 0x501 =
        .uncommitted ∧
      ¬Framed sampleLib sampleDevices sampleArrival ∧
      ∀ (deltaId : DeltaId) (bytes : Bytes) (parents : List DeltaId), ∃ depth,
        ((run (deliver sampleLib) sampleDevices
          (List.replicate maxQueueDepth sampleArrival)).wasm.durability.registerDelta deltaId
            deltaId bytes parents ∅).1 = .error (.cloudQueueFull depth) := by
  refine ⟨.inl ⟨_, rfl⟩, .inl ⟨_, rfl⟩, rfl, by decide +kernel, by decide +kernel, ?_, ?_⟩
  · intro h
    have htier := h.same.states 0x501
    revert htier
    decide +kernel
  · intro deltaId bytes parents
    have hunsigned : ∀ op ∈ List.replicate maxQueueDepth sampleArrival,
        op.delta.signature = [] := by
      intro op hop
      rw [List.eq_of_mem_replicate hop]
      rfl
    have hmany : maxQueueDepth ≤ (List.replicate maxQueueDepth sampleArrival).length := by
      rw [List.length_replicate]
    exact registerDelta_after_unsigned _ _ hunsigned hmany deltaId bytes parents

theorem inbound_durability_iff_sample :
    (∀ earlier op rest, [sampleArrival] = earlier ++ op :: rest →
      Framed sampleLib (run (deliver sampleLib) sampleDevices earlier) op) ↔
      Guarded (deliver sampleLib) (NothingRegistered sampleLib) sampleDevices [sampleArrival] :=
  inbound_durability_iff sampleLib sampleDevices rfl [sampleArrival]

end TirBase.InboundDurability
