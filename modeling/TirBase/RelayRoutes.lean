import TirBase.WasmCoreHandle

/-! # Direct and relayed Deltas

A Delta that is relayed to a device reaches it inside a `RelayDelta`. The Swarm task of the native
build unwraps it; the WASM build has an arm for it that merges the Delta and does nothing else. -/
namespace TirBase
open Automerge Capability ScalarProjection

namespace WasmCoreHandle
variable (lib : CoreLibraries)

/-- The `RelayDelta` arm of `receive_inbound_wasm`. -/
def receiveRelay (h : WasmCoreHandle) (targetDid : Did) (δ : Delta) (env : WasmEnvironment) :
    Except TirBaseError Unit × WasmCoreHandle :=
  if targetDid = h.identity.did then
    let applied := h.crdt.apply lib.toEngineLibraries .wasm δ env.now none
    let h := { h with crdt := applied.2 }
    match applied.1 with
    | .error e => (.error e, h)
    | .ok (.merged _) =>
      (.ok (), { h with revocation := h.revocation.recordAuthoredDelta δ.authorDid δ.id })
    | .ok (.quarantined _) => (.ok (), h)
    | .ok (.rejected _) => (.ok (), h)
  else (.ok (), h)

end WasmCoreHandle

namespace RelayRoutes
variable (lib : CoreLibraries)

/-- A message reaches the Swarm task, and what it passes on is received. -/
def receiveNative (hash : HashOrder) (h : CoreHandle) (msg : GossipMessage)
    (env : CoreHandle.InboundEnvironment) : Except TirBaseError Unit × CoreHandle :=
  let out := h.transport.handleWireMessage lib.wire hash msg
  let h := { h with transport := out.1 }
  match out.2 with
  | none => (.ok (), h)
  | some msg => h.receiveInbound lib msg env

/-- The transport goes by the DID of the device. -/
def OwnTransport (h : CoreHandle) : Prop := h.transport.localDid = h.identity.did

theorem ownTransport_init {config : DeploymentConfig} {identity : Identity} {storage : Storage}
    {started : Bool} {h : CoreHandle}
    (hinit : CoreHandle.init lib config identity storage started = .ok h) : OwnTransport h := by
  simp only [CoreHandle.init] at hinit
  split at hinit
  · cases hinit
  · cases hinit
    rfl

theorem localDid_sendOnOutbound (lib : WireLibraries) (t : MeshTransport)
    (messages : List GossipMessage) :
    (t.sendOnOutbound lib messages).2.localDid = t.localDid := by
  rw [MeshTransport.sendOnOutbound]
  cases t.outboundTx <;> rfl

theorem localDid_handleWireMessage (lib : WireLibraries) (hash : HashOrder) (t : MeshTransport)
    (msg : GossipMessage) : (t.handleWireMessage lib hash msg).1.localDid = t.localDid := by
  cases msg with
  | inboundDeltaFragment f =>
    simp only [MeshTransport.handleWireMessage, MeshTransport.processWireMessage]
    split <;> rfl
  | relayDelta targetDid δ =>
    simp only [MeshTransport.handleWireMessage]
    split_ifs <;> rfl
  | _ => rfl

section Own
variable {h : CoreHandle}

theorem OwnTransport.tagRoot (hown : OwnTransport h) (env : TaintEnvironment) (root : DeltaId)
    (source : TaintSource) : OwnTransport (h.tagRoot env root source) := hown

theorem OwnTransport.foldl_tagRoot (env : DeltaId → TaintEnvironment) (ids : List DeltaId)
    (hown : OwnTransport h) :
    OwnTransport (ids.foldl (fun h id => h.tagRoot (env id) id (.deviceRevocation id)) h) := by
  induction ids generalizing h with
  | nil => exact hown
  | cons id ids ih => exact ih (hown.tagRoot (env id) id (.deviceRevocation id))

theorem OwnTransport.revocationEffects (env : CoreHandle.InboundEnvironment)
    (effects : List RevocationEffect) (hown : OwnTransport h) :
    OwnTransport (effects.foldl (fun h effect => h.revocationEffect lib env effect) h) := by
  induction effects generalizing h with
  | nil => exact hown
  | cons effect effects ih =>
    apply ih
    cases effect with
    | revocationApplied targetDid complete => exact hown
    | cceTrigger targetDid deltaIds => exact OwnTransport.foldl_tagRoot env.taint deltaIds hown

theorem OwnTransport.receiveDelta (δ : Delta) (env : CoreHandle.InboundEnvironment)
    (hown : OwnTransport h) : OwnTransport (h.receiveDelta lib δ env).2 := by
  simp only [CoreHandle.receiveDelta]
  split
  · exact hown
  · simp only [CoreHandle.issueDurabilityReceipt, CoreHandle.projectMerged]
    refine (localDid_sendOnOutbound _ _ _).trans ?_
    split <;> exact hown
  · exact hown
  · exact hown

theorem OwnTransport.receiveInbound (msg : GossipMessage) (env : CoreHandle.InboundEnvironment)
    (hown : OwnTransport h) : OwnTransport (h.receiveInbound lib msg env).2 := by
  cases msg with
  | inboundDelta δ => exact hown.receiveDelta lib δ env
  | inboundDurabilityReceipt receipt =>
    simp only [CoreHandle.receiveInbound, CoreHandle.receiveReceipt]
    split <;> exact hown
  | inboundRevocationDelta δ =>
    simp only [CoreHandle.receiveInbound, CoreHandle.processRevocation]
    split
    · exact OwnTransport.revocationEffects lib env _ hown
    · exact OwnTransport.revocationEffects lib env _ hown
  | inboundMigrationDelta δ => exact hown
  | inboundMigrationRevocationDelta δ =>
    simp only [CoreHandle.receiveInbound, CoreHandle.revokeMigration]
    split
    · exact hown
    · exact hown
  | inboundDeltaFragment f => exact hown
  | relayDelta targetDid δ => exact hown

theorem OwnTransport.receiveNative (hash : HashOrder) (msg : GossipMessage)
    (env : CoreHandle.InboundEnvironment) (hown : OwnTransport h) :
    OwnTransport (receiveNative lib hash h msg env).2 := by
  have hwire : OwnTransport { h with
      transport := (h.transport.handleWireMessage lib.wire hash msg).1 } :=
    (localDid_handleWireMessage lib.wire hash h.transport msg).trans hown
  simp only [RelayRoutes.receiveNative]
  split
  · exact hwire
  · exact hwire.receiveInbound lib _ env

end Own

/-- A device whose transport goes by the device's own DID. -/
structure NativeDevice where
  handle : CoreHandle
  ownTransport : OwnTransport handle

def NativeDevice.receive (hash : HashOrder) (d : NativeDevice) (msg : GossipMessage)
    (env : CoreHandle.InboundEnvironment) : Except TirBaseError Unit × NativeDevice :=
  ((receiveNative lib hash d.handle msg env).1,
    ⟨(receiveNative lib hash d.handle msg env).2,
      OwnTransport.receiveNative lib hash msg env d.ownTransport⟩)

/-- Every subsystem of the device is in the same state; a hash map is what it looks up. -/
structure SameState (h h' : WasmCoreHandle) : Prop where
  identity : h.identity = h'.identity
  tables : ∀ row, h.tables.lookup row = h'.tables.lookup row
  deltaIndex : ∀ id, h.deltaIndex.lookup id = h'.deltaIndex.lookup id
  tagStore : h.tagStore = h'.tagStore
  crdt : h.crdt = h'.crdt
  cce : h.cce = h'.cce
  cceDag : h.cceDag = h'.cceDag
  capability : h.capability = h'.capability
  revocation : h.revocation.toRevocationSubsystem = h'.revocation.toRevocationSubsystem
  authored : ∀ did, h.revocation.authoredDeltas.lookup did = h'.revocation.authoredDeltas.lookup did
  migration : { h.migration with quarantineLedger := [] } =
    { h'.migration with quarantineLedger := [] }
  quarantined : ∀ id, h.migration.quarantineLedger.find? (fun e => e.id = id) =
    h'.migration.quarantineLedger.find? (fun e => e.id = id)
  durability : ∀ id, h.durability.states.lookup id = h'.durability.states.lookup id
  cloudQueue : h.durability.cloudQueue = h'.durability.cloudQueue

/-- It does not matter how the Delta arrives, and one for another device changes nothing. -/
structure RouteIrrelevant (hash : HashOrder) (d : NativeDevice) (w : WasmCoreHandle) (δ : Delta)
    (env : CoreHandle.InboundEnvironment) (wenv : WasmEnvironment) : Prop where
  native : d.receive lib hash (.relayDelta d.handle.identity.did δ) env =
    d.receive lib hash (.inboundDelta δ) env
  nativeOther : ∀ did, did ≠ d.handle.identity.did →
    d.receive lib hash (.relayDelta did δ) env = (.ok (), d)
  wasm : SameState (w.receiveRelay lib w.identity.did δ wenv).2 (w.receiveDelta lib δ wenv).2
  wasmOther : ∀ did, did ≠ w.identity.did → w.receiveRelay lib did δ wenv = (.ok (), w)

/-- The Delta waits with a fresh state already, and the queue has no room for another entry. -/
def Registered (d : DurabilitySubsystem) (δ : Delta) : Prop :=
  d.states.lookup δ.id = some ⟨δ.id, .uncommitted, ∅, false⟩ ∧
    maxQueueDepth ≤ d.cloudQueue.queue.length

/-- What the direct route does besides has been done: the merge fails, or the Delta is registered, and
its row is projected, or its text is in quarantine since this very time. -/
def LeavesNothing (w : WasmCoreHandle) (δ : Delta) (wenv : WasmEnvironment) : Prop :=
  let applied := w.crdt.apply lib.toEngineLibraries .wasm δ wenv.now none
  match applied.1 with
  | .error _ => True
  | .ok (.merged _) => Registered w.durability δ ∧
      ∀ table key value, WasmCoreHandle.projection lib applied.2.doc δ.automergeBytes =
        some (table, key, value) → w.tables.lookup (table, key) = some value ∧
          (table, key) ∈ (w.deltaIndex.lookup δ.id).getD []
  | .ok (.quarantined reason) => Registered w.durability δ ∧
      w.migration.quarantineLedger.find? (fun e => e.id = lib.sha256 (lib.serialiseDelta δ)) =
        some ⟨lib.sha256 (lib.serialiseDelta δ), δ.authorDid, lib.serialiseDelta δ,
          some δ.schemaHash, reason, wenv.now, none⟩
  | .ok (.rejected _) => Registered w.durability δ

section Routes
variable {lib} {hash : HashOrder} {δ : Delta}

theorem receive_relay (d : NativeDevice) (env : CoreHandle.InboundEnvironment) :
    d.receive lib hash (.relayDelta d.handle.identity.did δ) env =
      d.receive lib hash (.inboundDelta δ) env := by
  have hwire : d.handle.transport.handleWireMessage lib.wire hash
      (.relayDelta d.handle.identity.did δ) = (d.handle.transport, some (.inboundDelta δ)) :=
    if_pos d.ownTransport.symm
  have hsame : receiveNative lib hash d.handle (.relayDelta d.handle.identity.did δ) env =
      receiveNative lib hash d.handle (.inboundDelta δ) env := by
    simp only [receiveNative, hwire]
    rfl
  simp only [NativeDevice.receive, hsame]

theorem receive_other (d : NativeDevice) (env : CoreHandle.InboundEnvironment) {did : Did}
    (hdid : did ≠ d.handle.identity.did) :
    d.receive lib hash (.relayDelta did δ) env = (.ok (), d) := by
  have hwire : d.handle.transport.handleWireMessage lib.wire hash (.relayDelta did δ) =
      (d.handle.transport, some (.relayDelta did δ)) :=
    if_neg fun h => hdid (h.trans d.ownTransport)
  have hsame : receiveNative lib hash d.handle (.relayDelta did δ) env = (.ok (), d.handle) := by
    simp only [receiveNative, hwire]
    rfl
  simp only [NativeDevice.receive, hsame]

/-- Registering a Delta changes nothing exactly when it is registered and the queue is full. -/
theorem registerDelta_same_iff (d : DurabilitySubsystem) (δ : Delta) (bytes : Bytes) :
    let d' := (d.registerDelta δ.id δ.id bytes δ.causalParents ∅).2
    ((∀ id, d.states.lookup id = d'.states.lookup id) ∧ d.cloudQueue = d'.cloudQueue) ↔
      Registered d δ := by
  intro d'
  have hstates : ∀ id, d'.states.lookup id =
      if id = δ.id then some ⟨δ.id, .uncommitted, ∅, false⟩ else d.states.lookup id := by
    intro id
    have hinsert : d'.states = d.states.insert δ.id ⟨δ.id, .uncommitted, ∅, false⟩ := by
      simp only [d', DurabilitySubsystem.registerDelta]
      split <;> rfl
    rw [hinsert]
    split_ifs with hid
    · rw [hid, AList.lookup_insert]
    · rw [AList.lookup_insert_ne hid]
  have hqueue : d.cloudQueue = d'.cloudQueue ↔ maxQueueDepth ≤ d.cloudQueue.queue.length := by
    by_cases hfull : maxQueueDepth ≤ d.cloudQueue.queue.length
    · simp only [d', DurabilitySubsystem.registerDelta, CloudOutboundQueue.enqueue_of_le hfull, hfull]
    · have hroom : d.cloudQueue.queue.length < maxQueueDepth := by omega
      simp only [d', DurabilitySubsystem.registerDelta, CloudOutboundQueue.enqueue_of_lt hroom, hfull,
        iff_false]
      intro heq
      have hlength := congrArg (fun q => q.queue.length) heq
      simp at hlength
  rw [hqueue, Registered]
  constructor
  · rintro ⟨hsame, hfull⟩
    refine ⟨?_, hfull⟩
    rw [hsame, hstates, if_pos rfl]
  · rintro ⟨hregistered, hfull⟩
    refine ⟨fun id => ?_, hfull⟩
    rw [hstates]
    split_ifs with hid
    · rw [hid, hregistered]
    · rfl

/-- A row is projected to no effect exactly when it is there and noted for the Delta. -/
theorem project_same_iff (w : WasmCoreHandle) (id : DeltaId) (table key : String)
    (value : JsonValue) :
    ((∀ row, w.tables.lookup row = (w.project id table key value).tables.lookup row) ∧
        ∀ id', w.deltaIndex.lookup id' = (w.project id table key value).deltaIndex.lookup id') ↔
      w.tables.lookup (table, key) = some value ∧
        (table, key) ∈ (w.deltaIndex.lookup id).getD [] := by
  have hrows : ∀ row, (w.project id table key value).tables.lookup row =
      if row = (table, key) then some value else w.tables.lookup row := by
    intro row
    split_ifs with hrow
    · rw [hrow]
      exact AList.lookup_insert _
    · exact AList.lookup_insert_ne hrow
  have hindex : ∀ id', (w.project id table key value).deltaIndex.lookup id' =
      if id' = id then
        some (if (table, key) ∈ (w.deltaIndex.lookup id).getD [] then
          (w.deltaIndex.lookup id).getD []
        else (w.deltaIndex.lookup id).getD [] ++ [(table, key)])
      else w.deltaIndex.lookup id' := by
    intro id'
    by_cases hid : id' = id
    · rw [if_pos hid, hid]
      exact AList.lookup_insert _
    · rw [if_neg hid]
      exact AList.lookup_insert_ne hid
  constructor
  · rintro ⟨hsame, hnoted⟩
    refine ⟨by rw [hsame, hrows, if_pos rfl], ?_⟩
    rw [hnoted id, hindex, if_pos rfl, Option.getD_some]
    split_ifs with hmem
    · exact hmem
    · exact List.mem_append_right _ (List.mem_singleton_self _)
  · rintro ⟨hrow, hmem⟩
    refine ⟨fun row => ?_, fun id' => ?_⟩
    · rw [hrows]
      split_ifs with h
      · rw [h, hrow]
      · rfl
    · rw [hindex]
      split_ifs with h
      · rw [h]
        cases hlookup : w.deltaIndex.lookup id with
        | none =>
          rw [hlookup] at hmem
          exact absurd hmem List.not_mem_nil
        | some rows => rfl
      · rfl

theorem find_putQuarantineEntry (ledger : List QuarantineEntry) (entry : QuarantineEntry)
    (id : BitVec 256) :
    (putQuarantineEntry ledger entry).find? (fun e => e.id = id) =
      if id = entry.id then some entry else ledger.find? fun e => e.id = id := by
  rw [putQuarantineEntry, List.find?_append]
  by_cases hid : id = entry.id
  · have hnone : (ledger.filter fun e => e.id ≠ entry.id).find? (fun e => e.id = id) = none := by
      refine List.find?_eq_none.mpr fun e he => ?_
      have hne := of_decide_eq_true (List.mem_filter.mp he).2
      rw [hid]
      simpa using hne
    rw [hnone, if_pos hid, Option.none_or]
    simp [hid]
  · have hother : (ledger.filter fun e => e.id ≠ entry.id).find? (fun e => e.id = id) =
        ledger.find? fun e => e.id = id := by
      rw [List.find?_filter]
      apply congrFun (congrArg _ _)
      funext e
      by_cases he : e.id = id
      · simp [he, hid]
      · simp [he]
    have hentry : ¬entry.id = id := fun h => hid h.symm
    rw [hother, if_neg hid]
    simp [hentry]

/-- On the WASM device the routes end alike exactly when the direct one has nothing left to do. -/
theorem sameState_iff (w : WasmCoreHandle) (δ : Delta) (wenv : WasmEnvironment) :
    SameState (w.receiveRelay lib w.identity.did δ wenv).2 (w.receiveDelta lib δ wenv).2 ↔
      LeavesNothing lib w δ wenv := by
  cases happly : w.crdt.apply lib.toEngineLibraries .wasm δ wenv.now none with
  | mk result engine =>
    cases result with
    | error e =>
      simp only [WasmCoreHandle.receiveRelay, WasmCoreHandle.receiveDelta, LeavesNothing, happly,
        if_true, iff_true]
      exact ⟨rfl, fun _ => rfl, fun _ => rfl, rfl, rfl, rfl, rfl, rfl, rfl, fun _ => rfl, rfl,
        fun _ => rfl, fun _ => rfl, rfl⟩
    | ok outcome =>
      have hregister := registerDelta_same_iff w.durability δ (lib.serialiseDelta δ)
      cases outcome with
      | rejected reason =>
        simp only [WasmCoreHandle.receiveRelay, WasmCoreHandle.receiveDelta, LeavesNothing, happly,
          if_true, ← hregister]
        constructor
        · exact fun h => ⟨h.durability, h.cloudQueue⟩
        · rintro ⟨hstates, hqueue⟩
          exact ⟨rfl, fun _ => rfl, fun _ => rfl, rfl, rfl, rfl, rfl, rfl, rfl, fun _ => rfl, rfl,
            fun _ => rfl, hstates, hqueue⟩
      | quarantined reason =>
        simp only [WasmCoreHandle.receiveRelay, WasmCoreHandle.receiveDelta, LeavesNothing, happly,
          if_true, ← hregister]
        constructor
        · intro h
          refine ⟨⟨h.durability, h.cloudQueue⟩, ?_⟩
          have hfound := h.quarantined (lib.sha256 (lib.serialiseDelta δ))
          simp only [WasmCoreHandle.quarantineIncoming, find_putQuarantineEntry, if_true] at hfound
          exact hfound
        · rintro ⟨⟨hstates, hqueue⟩, hfound⟩
          refine ⟨rfl, fun _ => rfl, fun _ => rfl, rfl, rfl, rfl, rfl, rfl, rfl, fun _ => rfl, rfl,
            fun id => ?_, hstates, hqueue⟩
          simp only [WasmCoreHandle.quarantineIncoming, find_putQuarantineEntry]
          split_ifs with hid
          · rw [hid, hfound]
          · rfl
      | merged lamport =>
        simp only [WasmCoreHandle.receiveRelay, WasmCoreHandle.receiveDelta, LeavesNothing, happly,
          if_true, ← hregister, WasmCoreHandle.projectMerged]
        cases hprojection : WasmCoreHandle.projection lib engine.doc δ.automergeBytes with
        | none =>
          simp only [reduceCtorEq, false_imp_iff, implies_true, and_true]
          constructor
          · exact fun h => ⟨h.durability, h.cloudQueue⟩
          · rintro ⟨hstates, hqueue⟩
            exact ⟨rfl, fun _ => rfl, fun _ => rfl, rfl, rfl, rfl, rfl, rfl, rfl, fun _ => rfl, rfl,
              fun _ => rfl, hstates, hqueue⟩
        | some row =>
          obtain ⟨table, key, value⟩ := row
          have hproject := project_same_iff w δ.id table key value
          constructor
          · intro h
            refine ⟨⟨h.durability, h.cloudQueue⟩, fun t k v hrow => ?_⟩
            cases hrow
            exact hproject.mp ⟨h.tables, h.deltaIndex⟩
          · rintro ⟨⟨hstates, hqueue⟩, hrow⟩
            obtain ⟨htables, hindex⟩ := hproject.mpr (hrow table key value rfl)
            exact ⟨rfl, htables, hindex, rfl, rfl, rfl, rfl, rfl, rfl, fun _ => rfl, rfl,
              fun _ => rfl, hstates, hqueue⟩

/-- For every device of either build the route of a Delta is irrelevant exactly when the direct route
leaves nothing besides the merge on the WASM device. -/
theorem routeIrrelevant_iff (lib : CoreLibraries) (hash : HashOrder) (d : NativeDevice)
    (w : WasmCoreHandle) (δ : Delta) (env : CoreHandle.InboundEnvironment)
    (wenv : WasmEnvironment) :
    RouteIrrelevant lib hash d w δ env wenv ↔ LeavesNothing lib w δ wenv := by
  rw [← sameState_iff]
  constructor
  · exact fun h => h.wasm
  · intro h
    exact ⟨receive_relay d env, fun did hdid => receive_other d env hdid, h,
      fun did hdid => if_neg hdid⟩

end Routes

/-- The envelope of the row `items/k`. -/
def envelopeText : Bytes :=
  asciiBytes "\x7b\"_data\":true,\"_tirbase_key\":\"k\",\"_tirbase_table\":\"items\"\x7d"

def envelopeLibraries : CoreLibraries :=
  { CoreHandle.sampleCoreLibraries [] with
    parseJson := fun bytes => if bytes = envelopeText then
      some (.object [("_data", .bool true), ("_tirbase_key", .string "k"),
        ("_tirbase_table", .string "items")]) else none }

def sampleNative : NativeDevice := ⟨CoreHandle.sampleHandle ⟨.empty, .empty, [], []⟩, rfl⟩

def sampleWasm : WasmCoreHandle := .ofNative sampleNative.handle

def relayedDelta : Delta :=
  ⟨7, CrdtEngine.sampleDid₂, List.replicate 64 0, 0, envelopeText, .low, [], [], 1, 5⟩

def sampleMoment : WasmEnvironment :=
  ⟨10, .ok false, fun _ => ⟨1, 2, 10, none, none, fun _ => false⟩⟩

/-- The relayed Delta merges on the WASM device, but its row is not written and it is not registered
for durability. -/
theorem relayed_row_missing :
    let relayed := (sampleWasm.receiveRelay envelopeLibraries sampleWasm.identity.did relayedDelta
      sampleMoment).2
    let direct := (sampleWasm.receiveDelta envelopeLibraries relayedDelta sampleMoment).2
    relayed.revocation.authoredDeltaIds CrdtEngine.sampleDid₂ = [7] ∧
      direct.tables.entries.map Sigma.fst = [("items", "k")] ∧ relayed.tables.entries.length = 0 ∧
      direct.durability.states.entries.map Sigma.fst = [7] ∧
      relayed.durability.states.entries.length = 0 ∧
      ¬RouteIrrelevant envelopeLibraries ⟨fun l => l, fun l => .refl l⟩ sampleNative sampleWasm
        relayedDelta CoreHandle.calmInbound sampleMoment := by
  intro relayed direct
  have hshown : relayed.revocation.authoredDeltaIds CrdtEngine.sampleDid₂ = [7] ∧
      direct.tables.entries.map Sigma.fst = [("items", "k")] ∧ relayed.tables.entries.length = 0 ∧
      direct.durability.states.entries.map Sigma.fst = [7] ∧
      relayed.durability.states.entries.length = 0 := by decide +kernel
  refine ⟨hshown.1, hshown.2.1, hshown.2.2.1, hshown.2.2.2.1, hshown.2.2.2.2, fun h => ?_⟩
  have hqueue : relayed.durability.cloudQueue = direct.durability.cloudQueue := h.wasm.cloudQueue
  revert hqueue
  decide +kernel

end RelayRoutes

end TirBase
