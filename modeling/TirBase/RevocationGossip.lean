import TirBase.MeshTransport
import TirBase.RevocationSubsystem

/-! # Gossip of revocations

A revocation is put into an unsigned Delta, scheduled and framed like any Delta. The receiver
takes the frame for an ordinary Delta. -/
namespace TirBase.RevocationGossip
open TransitionRuns MeshTransport

variable {lib : WireLibraries}

def revocationWrapper (lib : WireLibraries) (rev : RevocationDelta) : Delta :=
  ⟨0, "tirbase/revocation", [], 0, lib.toBytes (.inboundRevocationDelta rev), .high, [], [], 0, 0⟩

def enqueueRevocationGossip (lib : WireLibraries) (t : MeshTransport) (rev : RevocationDelta)
    (now : ℤ) : MeshTransport :=
  t.enqueueOutbound lib (revocationWrapper lib rev) now

structure Sender where
  transport : MeshTransport
  published : List Bytes

inductive SenderOperation
  | enqueueGossip (rev : RevocationDelta) (now : ℤ)
  | tickScheduler (linkCapacityBytes : ℕ)
  | publish

/-- Publishing empties the outbound channel. -/
def senderStep (lib : WireLibraries) (s : Sender) : SenderOperation → Sender
  | .enqueueGossip rev now =>
    { s with transport := enqueueRevocationGossip lib s.transport rev now }
  | .tickScheduler linkCapacityBytes =>
    { s with transport := (s.transport.tickScheduler lib linkCapacityBytes).2 }
  | .publish =>
    ⟨{ s.transport with outboundTx := s.transport.outboundTx.map fun tx =>
        { tx with payloads := [] } }, s.published ++ s.transport.outboundPayloads⟩

def enqueued (ops : List SenderOperation) : List RevocationDelta :=
  ops.filterMap fun
    | .enqueueGossip rev _ => some rev
    | _ => none

def WrapsOneOf (lib : WireLibraries) (revs : List RevocationDelta) (δ : Delta) : Prop :=
  ∃ rev ∈ revs, δ = revocationWrapper lib rev

/-- The sender's payloads are frames of wrapped revocations. -/
structure SendsWrappers (lib : WireLibraries) (mtu : ℕ) (revs : List RevocationDelta)
    (s : Sender) : Prop where
  mtu : s.transport.mtu = mtu
  sendsOnly : SendsOnly lib (WrapsOneOf lib revs) s.transport
  published : ∀ p ∈ s.published, ∃ δ, WrapsOneOf lib revs δ ∧
    ∃ msg ∈ s.transport.prepareOutbound lib δ, p = lib.toBytes msg

theorem mtu_forward (t : MeshTransport) (tx : Channel) (forwarded : ℕ)
    (queue : List QueuedDelta) : (t.forward lib tx forwarded queue).2.mtu = t.mtu := by
  induction queue generalizing tx forwarded with
  | nil => rfl
  | cons queued rest ih =>
    simp only [MeshTransport.forward]
    split
    · exact ih _ _
    · rfl

theorem mtu_tickScheduler (t : MeshTransport) (linkCapacityBytes : ℕ) :
    (t.tickScheduler lib linkCapacityBytes).2.mtu = t.mtu := by
  simp only [tickScheduler]
  split_ifs
  · rfl
  · split
    · rfl
    · exact mtu_forward _ _ _ _

theorem prepareOutbound_congr {t t' : MeshTransport} (h : t.mtu = t'.mtu) (δ : Delta) :
    t.prepareOutbound lib δ = t'.prepareOutbound lib δ := by
  simp only [prepareOutbound, h]

theorem SendsWrappers.step {mtu : ℕ} {revs : List RevocationDelta} {s : Sender}
    (h : SendsWrappers lib mtu revs s) {op : SenderOperation} (hop : enqueued [op] ⊆ revs) :
    SendsWrappers lib mtu revs (senderStep lib s op) := by
  cases op with
  | enqueueGossip rev now =>
    have hrev : rev ∈ revs := hop (by simp [enqueued])
    exact ⟨h.mtu, h.sendsOnly.enqueueOutbound ⟨rev, hrev, rfl⟩ now, h.published⟩
  | tickScheduler linkCapacityBytes =>
    have hmtu := @mtu_tickScheduler lib s.transport linkCapacityBytes
    refine ⟨hmtu.trans h.mtu, h.sendsOnly.tickScheduler linkCapacityBytes, fun p hp => ?_⟩
    obtain ⟨δ, hδ, msg, hmsg, heq⟩ := h.published p hp
    exact ⟨δ, hδ, msg, by rwa [senderStep, prepareOutbound_congr hmtu], heq⟩
  | publish =>
    refine ⟨h.mtu, ⟨h.sendsOnly.backlog, fun p hp => ?_⟩, fun p hp => ?_⟩
    · cases htx : s.transport.outboundTx <;> simp [senderStep, outboundPayloads, htx] at hp
    · rcases List.mem_append.mp hp with hp | hp
      · exact h.published p hp
      · exact h.sendsOnly.payloads p hp

theorem SendsWrappers.run {mtu : ℕ} {revs : List RevocationDelta} {s : Sender}
    (h : SendsWrappers lib mtu revs s) {ops : List SenderOperation} (hops : enqueued ops ⊆ revs) :
    SendsWrappers lib mtu revs (run (senderStep lib) s ops) := by
  induction ops generalizing s with
  | nil => exact h
  | cons op ops ih =>
    have happend : enqueued (op :: ops) = enqueued [op] ++ enqueued ops := by
      simp [enqueued, List.filterMap_cons]
      split <;> simp_all
    rw [happend] at hops
    have hop := List.append_subset.mp hops
    exact ih (h.step hop.1) hop.2

theorem swarmTurn_frame {sender : MeshTransport} {δ : Delta} {msg : GossipMessage}
    (hmsg : msg ∈ sender.prepareOutbound lib δ) (t : MeshTransport) {arrival : Arrival}
    (hparse : lib.fromBytes arrival.payload = some msg) :
    ∀ out ∈ (swarmTurn lib t arrival).2, ∃ δ', out = .inboundDelta δ' := by
  unfold prepareOutbound at hmsg
  split_ifs at hmsg
  · obtain ⟨f, -, rfl⟩ := List.mem_map.mp hmsg
    rw [swarmTurn_fragment t hparse]
    intro out hout
    simp only at hout
    split at hout
    · rw [Option.mem_toList] at hout
      obtain ⟨δ', -, rfl⟩ := Option.map_eq_some_iff.mp hout
      exact ⟨δ', rfl⟩
    · cases hout
  · rw [List.mem_singleton.mp hmsg] at hparse
    rw [swarmTurn_delta t hparse]
    intro out hout
    exact ⟨δ, List.mem_singleton.mp hout⟩

def processCall (identity : IdentityLibraries) (authored : Did → List DeltaId) (now : ℤ)
    (r : RevocationSubsystem) : InboundCall → RevocationSubsystem
  | .processRevocation rev =>
    (r.processIncomingDelta identity rev (authored rev.targetDid) now).2.1
  | _ => r

def ReadsBack (lib : WireLibraries) (t : MeshTransport) (revs : List RevocationDelta) : Prop :=
  ∀ rev ∈ revs, ∀ msg ∈ t.prepareOutbound lib (revocationWrapper lib rev),
    lib.fromBytes (lib.toBytes msg) = some msg

theorem receivedCalls_of_sendsWrappers {mtu : ℕ} {revs : List RevocationDelta} {s : Sender}
    (h : SendsWrappers lib mtu revs s) (hlib : ReadsBack lib s.transport revs)
    (receiver : MeshTransport) {arrivals : List Arrival}
    (harrivals : ∀ arrival ∈ arrivals, arrival.payload ∈ s.published) :
    ∀ call ∈ receivedCalls lib receiver arrivals, ∃ δ, call = .applyDelta δ := by
  intro call hcall
  obtain ⟨out, hout, heq⟩ := List.mem_filterMap.mp hcall
  obtain ⟨t, arrival, harrival, hout⟩ := mem_emitted hout
  obtain ⟨δ, ⟨rev, hrev, rfl⟩, msg, hmsg, hpayload⟩ := h.published _ (harrivals arrival harrival)
  have hparse : lib.fromBytes arrival.payload = some msg := by
    rw [hpayload]
    exact hlib rev hrev msg hmsg
  obtain ⟨δ', rfl⟩ := swarmTurn_frame hmsg t hparse out hout
  exact ⟨δ', (Option.some.inj heq).symm⟩

theorem foldl_processCall {identity : IdentityLibraries} {authored : Did → List DeltaId} {now : ℤ}
    {calls : List InboundCall} (h : ∀ call ∈ calls, ∃ δ, call = .applyDelta δ)
    (r : RevocationSubsystem) : calls.foldl (processCall identity authored now) r = r := by
  induction calls with
  | nil => rfl
  | cons call calls ih =>
    obtain ⟨δ, rfl⟩ := h call List.mem_cons_self
    exact ih fun c hc => h c (List.mem_cons_of_mem _ hc)

structure Idle (s : Sender) : Prop where
  backlog : s.transport.scheduler.backlog = []
  payloads : s.transport.outboundPayloads = []
  published : s.published = []

theorem Idle.sendsWrappers_run {s : Sender} (hs : Idle s) {ops : List SenderOperation}
    (hlib : ReadsBack lib s.transport (enqueued ops)) :
    SendsWrappers lib s.transport.mtu (enqueued ops) (run (senderStep lib) s ops) ∧
      ReadsBack lib (run (senderStep lib) s ops).transport (enqueued ops) := by
  have hidle : SendsWrappers lib s.transport.mtu (enqueued ops) s := by
    refine ⟨rfl, ⟨?_, ?_⟩, ?_⟩
    · simp [hs.backlog]
    · simp [hs.payloads]
    · simp [hs.published]
  have hrun := hidle.run (List.Subset.refl (enqueued ops))
  refine ⟨hrun, fun rev hrev msg hmsg => ?_⟩
  rw [prepareOutbound_congr hrun.mtu] at hmsg
  exact hlib rev hrev msg hmsg

/-- Every device that gets all published payloads, in whatever order, processes each revocation
that was enqueued. -/
def GossipArrives (lib : WireLibraries) (s : Sender) (ops : List SenderOperation) : Prop :=
  ∀ (receiver : MeshTransport) (arrivals : List Arrival),
    (arrivals.map Arrival.payload).Perm (run (senderStep lib) s ops).published →
    ∀ rev ∈ enqueued ops, .processRevocation rev ∈ receivedCalls lib receiver arrivals

theorem enqueued_eq_nil_of_gossipArrives {s : Sender} (hs : Idle s) {ops : List SenderOperation}
    (hlib : ReadsBack lib s.transport (enqueued ops)) (h : GossipArrives lib s ops) :
    enqueued ops = [] := by
  obtain ⟨hsends, hreads⟩ := hs.sendsWrappers_run hlib
  by_contra hne
  obtain ⟨rev, hrev⟩ := List.exists_mem_of_ne_nil _ hne
  let arrivals : List Arrival := (run (senderStep lib) s ops).published.map
    fun payload => ⟨⟨id, fun l => .refl l⟩, payload⟩
  have hpayloads : arrivals.map Arrival.payload = (run (senderStep lib) s ops).published := by
    rw [List.map_map]
    exact List.map_id _
  have hcall := h s.transport arrivals (.of_eq hpayloads) rev hrev
  obtain ⟨δ, hδ⟩ := receivedCalls_of_sendsWrappers hsends hreads s.transport
    (fun arrival harrival => hpayloads ▸ List.mem_map_of_mem harrival) _ hcall
  cases hδ

/-- Gossip arrives exactly when there is none: whatever reaches a receiver, in any number and
order, its revocation subsystem stays as it was. -/
theorem gossipArrives_iff {s : Sender} (hs : Idle s) {ops : List SenderOperation}
    (hlib : ReadsBack lib s.transport (enqueued ops)) :
    (GossipArrives lib s ops ↔ enqueued ops = []) ∧
      ∀ (receiver : MeshTransport) (arrivals : List Arrival),
        (∀ arrival ∈ arrivals, arrival.payload ∈ (run (senderStep lib) s ops).published) →
        ∀ (identity : IdentityLibraries) (authored : Did → List DeltaId) (now : ℤ)
          (r : RevocationSubsystem),
          (receivedCalls lib receiver arrivals).foldl (processCall identity authored now) r = r := by
  refine ⟨⟨enqueued_eq_nil_of_gossipArrives hs hlib, fun hnil _ _ _ rev hrev => ?_⟩,
    fun receiver arrivals harrivals identity authored now r => ?_⟩
  · rw [hnil] at hrev
    cases hrev
  · obtain ⟨hsends, hreads⟩ := hs.sendsWrappers_run hlib
    exact foldl_processCall (receivedCalls_of_sendsWrappers hsends hreads receiver harrivals) r

theorem apply_wrapper_not_merged (engineLib : EngineLibraries) (build : Build) (e : CrdtEngine)
    (rev : RevocationDelta) (now : ℤ) (fault : DagFault) (n : UInt64) :
    (e.apply engineLib build (revocationWrapper lib rev) now fault).1 ≠ .ok (.merged n) := by
  intro h
  obtain ⟨adopt, doc, hgate, -, -⟩ := CrdtEngine.apply_eq_merged ⟨n, h⟩
  have hsignature : ∀ adopt', CrdtEngine.signatureGate engineLib (revocationWrapper lib rev)
      adopt' = .reject .missingSignature "malformed delta: missing signature" :=
    fun adopt' => if_pos rfl
  unfold CrdtEngine.gate at hgate
  split_ifs at hgate
  split at hgate <;> simp [hsignature] at hgate

section Sample
open CrdtEngine

def sampleRevocation : RevocationDelta :=
  ⟨sampleDid₂, [⟨sampleDid₁, List.replicate 64 0⟩], 5⟩

def sampleRevocationJson : Bytes :=
  asciiBytes "\x7b\"InboundRevocationDelta\":\x7b\"target_did\":\"" ++ asciiBytes sampleDid₂ ++
    asciiBytes "\",\"signatures\":[\x7b\"manager_did\":\"" ++ asciiBytes sampleDid₁ ++
    asciiBytes "\",\"signature\":" ++ jsonArray (List.replicate 64 0) ++
    asciiBytes "\x7d],\"created_at\":5\x7d\x7d"

def sampleWrapper : Delta :=
  ⟨0, "tirbase/revocation", [], 0, sampleRevocationJson, .high, [], [], 0, 0⟩

def sampleWrapperJson : Bytes :=
  asciiBytes "\x7b\"id\":" ++ jsonArray (List.replicate 32 0) ++
    asciiBytes ",\"author_did\":\"tirbase/revocation\",\"signature\":[],\"schema_hash\":" ++
    jsonArray (List.replicate 32 0) ++ asciiBytes ",\"automerge_bytes\":" ++
    jsonArray sampleRevocationJson ++
    asciiBytes ",\"priority\":\"High\",\"causal_parents\":[],\"tags\":[],\"lamport\":0," ++
    asciiBytes "\"created_at\":0\x7d"

def sampleFrameJson : Bytes :=
  asciiBytes "\x7b\"InboundDelta\":" ++ sampleWrapperJson ++ asciiBytes "\x7d"

def sampleWire : WireLibraries where
  serialiseDelta _ := sampleWrapperJson
  parseDelta bytes := if bytes = sampleWrapperJson then some sampleWrapper else none
  toBytes
    | .inboundRevocationDelta _ => sampleRevocationJson
    | .inboundDelta _ => sampleFrameJson
    | _ => []
  fromBytes bytes :=
    if bytes = sampleFrameJson then some (.inboundDelta sampleWrapper)
    else if bytes = sampleRevocationJson then some (.inboundRevocationDelta sampleRevocation)
    else none

def sampleSender : Sender :=
  ⟨⟨0, ⟨4, ∅⟩, .empty, sampleDid₁, .new 1000000, some ⟨4096, false, []⟩, none⟩, []⟩

def sampleRun : List SenderOperation :=
  [.enqueueGossip sampleRevocation 6, .tickScheduler 1000000, .publish]

theorem idle_sampleSender : Idle sampleSender := ⟨rfl, rfl, rfl⟩

theorem readsBack_sampleWire :
    ReadsBack sampleWire sampleSender.transport (enqueued sampleRun) := by
  intro rev hrev msg hmsg
  have heq : rev = sampleRevocation := List.mem_singleton.mp hrev
  subst heq
  have hmsg : msg = .inboundDelta sampleWrapper := List.mem_singleton.mp hmsg
  rw [hmsg]
  simp only [sampleWire, if_true]

theorem gossipArrives_iff_sample :
    GossipArrives sampleWire sampleSender sampleRun ↔ enqueued sampleRun = [] :=
  (gossipArrives_iff idle_sampleSender readsBack_sampleWire).1

/-- A revocation that applies when it is processed, and that everything of leaves the sender, is
processed by nobody. -/
theorem complete_revocation_lost :
    ((RevocationSubsystem.new 1 1).processIncomingDelta
      (sampleLibraries []).toIdentityLibraries sampleRevocation [] 7).1 = .ok .applied ∧
    (run (senderStep sampleWire) sampleSender sampleRun).transport.scheduler.backlog = [] ∧
    (run (senderStep sampleWire) sampleSender sampleRun).published.length = 1 ∧
    ¬GossipArrives sampleWire sampleSender sampleRun := by
  refine ⟨by decide +kernel, by decide +kernel, by decide +kernel, fun h => ?_⟩
  have hnil := enqueued_eq_nil_of_gossipArrives idle_sampleSender readsBack_sampleWire h
  exact List.cons_ne_nil _ _ hnil

end Sample

end TirBase.RevocationGossip
