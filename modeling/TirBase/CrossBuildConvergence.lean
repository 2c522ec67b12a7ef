import TirBase.TransitionRuns
import TirBase.WasmCoreHandle

/-! # The two builds converge

A native and a WASM device that start alike and receive the same Deltas and revocations stay alike:
one step of either pipeline keeps the relation between them, whatever the payloads are. -/
namespace TirBase.CrossBuildConvergence
open Automerge Capability ScalarProjection TransitionRuns

/-- What the two engines have in common: all but the DAG and the times of the rejections. -/
structure EngineAgrees (e e' : CrdtEngine) : Prop where
  doc : e.doc = e'.doc
  lamport : e.lamport = e'.lamport
  knownSchemaHash : e.knownSchemaHash = e'.knownSchemaHash
  knownSchemas : e.knownSchemas = e'.knownSchemas
  schemaDefinitions : e.schemaDefinitions = e'.schemaDefinitions
  revokedDids : e.revokedDids = e'.revokedDids

namespace EngineAgrees
variable {lib : EngineLibraries} {e e' : CrdtEngine}

theorem gate_eq (h : EngineAgrees e e') (δ : Delta) :
    e.gate lib δ = e'.gate lib δ := by
  simp only [CrdtEngine.gate, CrdtEngine.classifyIncomingSchema, h.revokedDids, h.knownSchemas,
    h.schemaDefinitions, h.knownSchemaHash]

theorem mergePayload_eq (h : EngineAgrees e e') (δ : Delta) :
    e.mergePayload lib δ = e'.mergePayload lib δ := by
  simp only [CrdtEngine.mergePayload, h.doc, h.lamport]

theorem failedMerge_eq (h : EngineAgrees e e') (δ : Delta) :
    e.failedMerge lib δ = e'.failedMerge lib δ := by
  simp only [CrdtEngine.failedMerge, h.doc]

theorem addKnownSchema (h : EngineAgrees e e') (hash : SchemaIdentifierHash) :
    EngineAgrees (e.addKnownSchema hash) (e'.addKnownSchema hash) := by
  refine ⟨h.doc, h.lamport, h.knownSchemaHash, ?_, h.schemaDefinitions, h.revokedDids⟩
  simp only [CrdtEngine.addKnownSchema, h.knownSchemas]

theorem markDidRevoked (h : EngineAgrees e e') (did : Did) :
    EngineAgrees (e.markDidRevoked did) (e'.markDidRevoked did) := by
  refine ⟨h.doc, h.lamport, h.knownSchemaHash, h.knownSchemas, h.schemaDefinitions, ?_⟩
  simp only [CrdtEngine.markDidRevoked, h.revokedDids]

theorem setDoc (h : EngineAgrees e e') (δ : Delta) (doc : Document) :
    EngineAgrees { e with doc := doc, lamport := e.advanceLamport δ }
      { e' with doc := doc, lamport := e'.advanceLamport δ } := by
  refine ⟨rfl, ?_, h.knownSchemaHash, h.knownSchemas, h.schemaDefinitions, h.revokedDids⟩
  simp only [CrdtEngine.advanceLamport, h.lamport]

theorem apply (h : EngineAgrees e e') (δ : Delta) (now now' : ℤ) :
    (e.apply lib .native δ now none).1 =
        (e'.apply lib .wasm δ now' none).1 ∧
      EngineAgrees (e.apply lib .native δ now none).2
        (e'.apply lib .wasm δ now' none).2 := by
  have hadopted : ∀ adopt : Bool, EngineAgrees
      (if adopt then e.addKnownSchema δ.schemaHash else e)
      (if adopt then e'.addKnownSchema δ.schemaHash else e') := by
    intro adopt
    cases adopt with
    | true => exact h.addKnownSchema δ.schemaHash
    | false => exact h
  cases hgate : e'.gate lib δ with
  | reject code reason =>
    simp only [CrdtEngine.apply, h.gate_eq δ, hgate, true_and]
    exact ⟨h.doc, h.lamport, h.knownSchemaHash, h.knownSchemas, h.schemaDefinitions, h.revokedDids⟩
  | quarantine reason =>
    simp only [CrdtEngine.apply, h.gate_eq δ, hgate, true_and]
    exact h
  | pass adopt =>
    have hadopt := hadopted adopt
    simp only [CrdtEngine.apply, h.gate_eq δ, hgate, hadopt.mergePayload_eq δ]
    split
    · simp only [CrdtEngine.failedDoc, hadopt.failedMerge_eq δ, true_and]
      exact ⟨rfl, hadopt.lamport, hadopt.knownSchemaHash, hadopt.knownSchemas,
        hadopt.schemaDefinitions, hadopt.revokedDids⟩
    · rename_i doc hmerge
      have hset := hadopt.setDoc δ doc
      simp only [CrdtEngine.insertDagNode]
      exact ⟨congrArg (fun n => Except.ok (MergeOutcome.merged n)) hset.lamport, hset.doc, hset.lamport,
        hset.knownSchemaHash, hset.knownSchemas, hset.schemaDefinitions, hset.revokedDids⟩

end EngineAgrees

/-- The first `_data` is the value. -/
theorem envelopeValue_of_data {members : List (String × JsonValue)} {member : String × JsonValue}
    (hdata : (members.find? fun m => m.1 == "_data") = some member)
    (appData : List (String × JsonValue)) :
    WasmCoreHandle.envelopeValue appData members = some member.2 := by
  induction members generalizing appData with
  | nil => cases hdata
  | cons first members ih =>
    obtain ⟨key, value⟩ := first
    by_cases hkey : key = "_data"
    · rw [List.find?_cons_of_pos (by simp [hkey])] at hdata
      cases hdata
      simp [WasmCoreHandle.envelopeValue, hkey]
    · rw [List.find?_cons_of_neg (by simp [hkey])] at hdata
      rw [WasmCoreHandle.envelopeValue, if_neg hkey]
      split_ifs
      · exact ih hdata _
      · exact ih hdata _

def ownMembers (members : List (String × JsonValue)) : List (String × JsonValue) :=
  members.filter fun m => m.1 ≠ "_tirbase_table" && m.1 ≠ "_tirbase_key"

theorem ownMembers_cons (key : String) (value : JsonValue) (members : List (String × JsonValue)) :
    ownMembers ((key, value) :: members) =
      if key ≠ "_tirbase_table" ∧ key ≠ "_tirbase_key" then (key, value) :: ownMembers members
      else ownMembers members := by
  simp only [ownMembers, List.filter_cons, Bool.and_eq_true, decide_eq_true_eq]

/-- Without `_data` they are the value. -/
theorem envelopeValue_of_no_data {members : List (String × JsonValue)}
    (hdata : (members.find? fun m => m.1 == "_data") = none) (appData : List (String × JsonValue)) :
    WasmCoreHandle.envelopeValue appData members =
      if appData ++ ownMembers members = [] then none
      else some (.object (appData ++ ownMembers members)) := by
  induction members generalizing appData with
  | nil =>
    have hnone : ownMembers [] = [] := rfl
    rw [hnone, List.append_nil, WasmCoreHandle.envelopeValue]
  | cons first members ih =>
    obtain ⟨key, value⟩ := first
    have hkey : key ≠ "_data" := by
      rintro rfl
      simp at hdata
    rw [List.find?_cons_of_neg (by simp [hkey])] at hdata
    rw [WasmCoreHandle.envelopeValue, if_neg hkey, ownMembers_cons]
    by_cases hrouting : key ≠ "_tirbase_table" ∧ key ≠ "_tirbase_key"
    · rw [if_pos hrouting, if_pos hrouting, ih hdata, List.append_assoc]
      rfl
    · rw [if_neg hrouting, if_neg hrouting, ih hdata]

/-- Both builds project a merged Delta to the same row with the same value. -/
theorem projection_eq (lib : CoreLibraries) (doc : Document) (automergeBytes : Bytes) :
    WasmCoreHandle.projection lib doc automergeBytes =
      CoreHandle.projection lib doc automergeBytes := by
  unfold WasmCoreHandle.projection CoreHandle.projection
  split_ifs with hempty
  · rfl
  · cases hjson : lib.parseJson automergeBytes with
    | none =>
      simp only [CoreHandle.documentProjection]
      cases (readScalar doc "_tirbase_table").bind JsonValue.asStr? with
      | none => rfl
      | some table =>
        cases (readScalar doc "_tirbase_key").bind JsonValue.asStr? with
        | none => rfl
        | some key =>
          cases hvalue : readScalar doc key with
          | none => simp [hvalue]
          | some value =>
            cases value with
            | string s =>
              simp only [hvalue, Option.map_some, CoreHandle.storedValue]
              cases lib.json.fromStr s <;> rfl
            | _ => simp [hvalue, CoreHandle.storedValue]
    | some envelope =>
      cases envelope with
      | object members =>
        simp only [CoreHandle.envelopeProjection]
        cases ((JsonValue.object members).get? "_tirbase_table").bind JsonValue.asStr? with
        | none => rfl
        | some table =>
          cases ((JsonValue.object members).get? "_tirbase_key").bind JsonValue.asStr? with
          | none => rfl
          | some key =>
            cases hdata : members.find? fun m => m.1 == "_data" with
            | some member => simp [JsonValue.get?, hdata, envelopeValue_of_data hdata]
            | none =>
              have hown : (members.filter fun m => m.1 ≠ "_tirbase_table" && m.1 ≠ "_tirbase_key") =
                  ownMembers members := rfl
              simp only [JsonValue.get?, hdata, envelopeValue_of_no_data hdata, List.nil_append,
                Option.map_none, hown, List.isEmpty_iff]
              split_ifs <;> rfl
      | _ => rfl

/-- What decides on a revocation: its signatures and their threshold, not the times. -/
def votes (s : PendingRevocationStore) (did : Did) : Option (List ManagerSignature × ℕ) :=
  (s.pending.lookup did).map fun p => (p.signatures, p.thresholdM)

structure RevocationAgrees (r r' : RevocationSubsystem) : Prop where
  votes : ∀ did, votes r.store did = votes r'.store did
  thresholdM : r.thresholdM = r'.thresholdM
  thresholdN : r.thresholdN = r'.thresholdN
  revokedDids : r.revokedDids = r'.revokedDids

theorem votes_insert {s s' : PendingRevocationStore} (h : ∀ did, votes s did = votes s' did)
    (targetDid : Did) {p p' : PendingRevocation}
    (hentry : (p.signatures, p.thresholdM) = (p'.signatures, p'.thresholdM)) (did : Did) :
    votes ⟨s.pending.insert targetDid p⟩ did = votes ⟨s'.pending.insert targetDid p'⟩ did := by
  unfold votes
  by_cases hdid : did = targetDid
  · subst hdid
    simp only [AList.lookup_insert, Option.map_some, hentry]
  · have hother := h did
    unfold votes at hother
    simp only [AList.lookup_insert_ne hdid, hother]

theorem signatures_getD {s s' : PendingRevocationStore} (h : ∀ did, votes s did = votes s' did)
    (targetDid : Did) (thresholdM thresholdN : ℕ) (now now' : ℤ) :
    ((s.pending.lookup targetDid).getD ⟨targetDid, [], thresholdM, thresholdN, now,
        none⟩).signatures =
      ((s'.pending.lookup targetDid).getD ⟨targetDid, [], thresholdM, thresholdN, now',
        none⟩).signatures := by
  have htarget := h targetDid
  unfold votes at htarget
  cases hs : s.pending.lookup targetDid with
  | none =>
    cases hs' : s'.pending.lookup targetDid with
    | none => rfl
    | some p' => simp [hs, hs'] at htarget
  | some p =>
    cases hs' : s'.pending.lookup targetDid with
    | none => simp [hs, hs'] at htarget
    | some p' =>
      simp only [hs, hs', Option.map_some, Option.some.injEq, Prod.mk.injEq] at htarget
      exact htarget.1

theorem addSignature_agrees (lib : IdentityLibraries) {s s' : PendingRevocationStore}
    (h : ∀ did, votes s did = votes s' did) (targetDid : Did) (sig : ManagerSignature)
    (thresholdM thresholdN : ℕ) (revokedDids : List Did) (now now' : ℤ) :
    (s.addSignature lib targetDid sig thresholdM thresholdN revokedDids now).1 =
        (s'.addSignature lib targetDid sig thresholdM thresholdN revokedDids now').1 ∧
      ∀ did, votes (s.addSignature lib targetDid sig thresholdM thresholdN revokedDids now).2 did =
        votes (s'.addSignature lib targetDid sig thresholdM thresholdN revokedDids now').2 did := by
  have hsignatures := signatures_getD h targetDid thresholdM thresholdN now now'
  unfold PendingRevocationStore.addSignature
  dsimp only
  rw [hsignatures]
  generalize (s'.pending.lookup targetDid).getD ⟨targetDid, [], thresholdM, thresholdN, now',
    none⟩ = entry' at hsignatures ⊢
  generalize (s.pending.lookup targetDid).getD ⟨targetDid, [], thresholdM, thresholdN, now,
    none⟩ = entry at hsignatures ⊢
  by_cases hrevoked : sig.managerDid ∈ revokedDids
  · rw [if_pos hrevoked, if_pos hrevoked]
    exact ⟨rfl, h⟩
  · rw [if_neg hrevoked, if_neg hrevoked]
    cases lib.resolveDid sig.managerDid with
    | error e => exact ⟨rfl, h⟩
    | ok publicKey =>
      dsimp only
      cases lib.verify publicKey (RevocationDelta.signingPayload lib targetDid) sig.signature with
      | error e => exact ⟨rfl, h⟩
      | ok u =>
        dsimp only
        by_cases hduplicate : sig.managerDid ∈ entry'.signatures.map ManagerSignature.managerDid
        · rw [if_pos hduplicate, if_pos hduplicate]
          exact ⟨rfl, votes_insert h targetDid rfl⟩
        · rw [if_neg hduplicate, if_neg hduplicate]
          split_ifs
          · exact ⟨rfl, votes_insert h targetDid rfl⟩
          · exact ⟨rfl, votes_insert h targetDid rfl⟩
          · exact ⟨rfl, votes_insert h targetDid rfl⟩

theorem addSignatures_agrees (lib : IdentityLibraries) {r r' : RevocationSubsystem}
    (h : RevocationAgrees r r') (targetDid : Did) (now now' : ℤ) (sigs : List ManagerSignature)
    (lastStatus : Option RevocationStatus) :
    (r.addSignatures lib targetDid now lastStatus sigs).1 =
        (r'.addSignatures lib targetDid now' lastStatus sigs).1 ∧
      RevocationAgrees (r.addSignatures lib targetDid now lastStatus sigs).2
        (r'.addSignatures lib targetDid now' lastStatus sigs).2 := by
  induction sigs generalizing r r' lastStatus with
  | nil => exact ⟨rfl, h⟩
  | cons sig sigs ih =>
    obtain ⟨hstatus, hvotes⟩ := addSignature_agrees lib h.votes targetDid sig r'.thresholdM
      r'.thresholdN r'.revokedDids now now'
    simp only [RevocationSubsystem.addSignatures]
    rw [h.thresholdM, h.thresholdN, h.revokedDids, hstatus]
    split
    · refine ih ?_ _
      exact ⟨hvotes, rfl, rfl, rfl⟩
    · refine ih ?_ _
      exact ⟨hvotes, rfl, rfl, rfl⟩

theorem status_eq {r r' : RevocationSubsystem} (h : RevocationAgrees r r') (did : Did) :
    r.store.status did = r'.store.status did := by
  have hvotes := congrArg (Option.map fun v : List ManagerSignature × ℕ =>
    if v.2 ≤ v.1.length then RevocationStatus.applied else .pending v.1.length v.2) (h.votes did)
  unfold votes at hvotes
  rw [Option.map_map, Option.map_map] at hvotes
  exact hvotes

/-- A message on a revocation is answered alike, whatever Deltas are known of the target. -/
theorem processIncomingDelta_agrees (lib : IdentityLibraries) {r r' : RevocationSubsystem}
    (h : RevocationAgrees r r') (δ : RevocationDelta) (authored authored' : List DeltaId)
    (now now' : ℤ) :
    (r.processIncomingDelta lib δ authored now).1 = (r'.processIncomingDelta lib δ authored' now').1 ∧
      RevocationAgrees (r.processIncomingDelta lib δ authored now).2.1
        (r'.processIncomingDelta lib δ authored' now').2.1 := by
  obtain ⟨hstatus, hagrees⟩ := addSignatures_agrees lib h δ.targetDid now now' δ.signatures none
  unfold RevocationSubsystem.processIncomingDelta
  dsimp only
  by_cases htarget : δ.targetDid = ""
  · rw [if_pos htarget, if_pos htarget]
    exact ⟨rfl, h⟩
  rw [if_neg htarget, if_neg htarget]
  by_cases hsigned : δ.signatures = []
  · rw [if_pos hsigned, if_pos hsigned, h.thresholdM]
    exact ⟨rfl, h⟩
  rw [if_neg hsigned, if_neg hsigned, hstatus]
  generalize (r.addSignatures lib δ.targetDid now none δ.signatures).2 = s at hagrees ⊢
  generalize (r'.addSignatures lib δ.targetDid now' none δ.signatures).2 = s' at hagrees ⊢
  rw [status_eq hagrees, hagrees.thresholdM]
  cases (r'.addSignatures lib δ.targetDid now' none δ.signatures).1.or
    (s'.store.status δ.targetDid) with
  | none => exact ⟨rfl, hagrees⟩
  | some status =>
    cases status with
    | pending collected required => exact ⟨rfl, hagrees⟩
    | applied =>
      dsimp only
      rw [hagrees.revokedDids]
      by_cases hknown : δ.targetDid ∈ s'.revokedDids
      · rw [if_pos hknown, if_pos hknown]
        exact ⟨rfl, hagrees⟩
      · rw [if_neg hknown, if_neg hknown]
        exact ⟨rfl, hagrees.votes, rfl, hagrees.thresholdN, rfl⟩

inductive Message
  | delta (δ : Delta)
  | revocation (δ : RevocationDelta)

def Message.gossip : Message → GossipMessage
  | .delta δ => .inboundDelta δ
  | .revocation δ => .inboundRevocationDelta δ

structure Arrival where
  message : Message
  native : CoreHandle.InboundEnvironment
  wasm : WasmEnvironment

def Arrival.working (op : Arrival) : CoreHandle.InboundEnvironment :=
  { op.native with applyFault := none, storeFault := none }

/-- A native device with the map that the writes to its rows amount to. -/
structure NativeDevice where
  handle : CoreHandle
  values : AList fun _ : String × String => JsonValue

def writeRow (values : AList fun _ : String × String => JsonValue) :
    Option (String × String × JsonValue) → AList fun _ : String × String => JsonValue
  | some (table, key, value) => values.insert (table, key) value
  | none => values

variable (lib : CoreLibraries)

def mergedRow (h : CoreHandle) (δ : Delta) (env : CoreHandle.InboundEnvironment) :
    Option (String × String × JsonValue) :=
  let applied := h.crdt.apply lib.toEngineLibraries .native δ env.now env.applyFault
  match applied.1 with
  | .ok (.merged _) => CoreHandle.projection lib applied.2.doc δ.automergeBytes
  | _ => none

def nativeStep (n : NativeDevice) (op : Arrival) : NativeDevice where
  handle := (n.handle.receiveInbound lib op.message.gossip op.working).2
  values :=
    match op.message with
    | .delta δ => writeRow n.values (mergedRow lib n.handle δ op.working)
    | .revocation _ => n.values

def wasmStep (w : WasmCoreHandle) (op : Arrival) : WasmCoreHandle :=
  match op.message with
  | .delta δ => (w.receiveDelta lib δ op.wasm).2
  | .revocation δ => (w.processRevocation lib δ op.wasm).2

/-- An entry lies under the hash of its text, which is one of those at hand. -/
def Keyed (texts : Set Bytes) (ledger : List QuarantineEntry) : Prop :=
  ∀ entry ∈ ledger, entry.id = lib.sha256 entry.rawBytes ∧ entry.rawBytes ∈ texts

structure SameState (n : NativeDevice) (w : WasmCoreHandle) : Prop where
  identity : n.handle.identity = w.identity
  engine : { n.handle.crdt with dag := w.crdt.dag } = w.crdt
  revocation : n.handle.revocation = w.revocation.toRevocationSubsystem
  capability : n.handle.capability = w.capability
  quarantineLedger : n.handle.migration.quarantineLedger = w.migration.quarantineLedger
  values : n.values = w.tables

structure Converged (n : NativeDevice) (w : WasmCoreHandle) : Prop where
  document : n.handle.crdt.doc = w.crdt.doc
  lamport : n.handle.crdt.lamport = w.crdt.lamport
  currentSchema : n.handle.crdt.knownSchemaHash = w.crdt.knownSchemaHash
  knownSchemas : n.handle.crdt.knownSchemas = w.crdt.knownSchemas
  quarantined : ∀ bytes, bytes ∈ n.handle.migration.quarantineLedger.map QuarantineEntry.rawBytes ↔
    bytes ∈ w.migration.quarantineLedger.map QuarantineEntry.rawBytes
  refusedDids : n.handle.crdt.revokedDids = w.crdt.revokedDids
  revokedDids : n.handle.revocation.revokedDids = w.revocation.revokedDids
  ioGate : n.handle.capability.ensureLocalTrustAllowsIo = w.capability.ensureLocalTrustAllowsIo
  values : ∀ table key, n.values.lookup (table, key) = w.tables.lookup (table, key)

structure Alike (texts : Set Bytes) (n : NativeDevice) (w : WasmCoreHandle) : Prop where
  did : n.handle.identity.did = w.identity.did
  engine : EngineAgrees n.handle.crdt w.crdt
  revocation : RevocationAgrees n.handle.revocation w.revocation.toRevocationSubsystem
  trustLevel : n.handle.capability.trustLevel = w.capability.trustLevel
  nativeKeyed : Keyed lib texts n.handle.migration.quarantineLedger
  wasmKeyed : Keyed lib texts w.migration.quarantineLedger
  quarantined : ∀ bytes, bytes ∈ n.handle.migration.quarantineLedger.map QuarantineEntry.rawBytes ↔
    bytes ∈ w.migration.quarantineLedger.map QuarantineEntry.rawBytes
  values : ∀ row, n.values.lookup row = w.tables.lookup row

variable {lib}

theorem Alike.converged {texts : Set Bytes} {n : NativeDevice} {w : WasmCoreHandle}
    (h : Alike lib texts n w) : Converged n w where
  document := h.engine.doc
  lamport := h.engine.lamport
  currentSchema := h.engine.knownSchemaHash
  knownSchemas := h.engine.knownSchemas
  quarantined := h.quarantined
  refusedDids := h.engine.revokedDids
  revokedDids := h.revocation.revokedDids
  ioGate := by simp only [CapabilityManager.ensureLocalTrustAllowsIo, h.trustLevel]
  values := fun table key => h.values (table, key)

theorem SameState.alike {texts : Set Bytes} {n : NativeDevice} {w : WasmCoreHandle}
    (h : SameState n w) (hkeyed : Keyed lib texts n.handle.migration.quarantineLedger) :
    Alike lib texts n w where
  did := by rw [h.identity]
  engine := by
    rw [← h.engine]
    exact ⟨rfl, rfl, rfl, rfl, rfl, rfl⟩
  revocation := by
    rw [h.revocation]
    exact ⟨fun _ => rfl, rfl, rfl, rfl⟩
  trustLevel := by rw [h.capability]
  nativeKeyed := hkeyed
  wasmKeyed := h.quarantineLedger ▸ hkeyed
  quarantined := fun bytes => by rw [h.quarantineLedger]
  values := fun row => by rw [h.values]

/-- The rows of the native store are written by the same projection. -/
theorem store_receiveDelta (h : CoreHandle) (δ : Delta) (env : CoreHandle.InboundEnvironment) :
    (h.receiveDelta lib δ env).2.store =
      match mergedRow lib h δ env with
      | some (table, key, value) =>
        (h.store.write lib.store env.storeFault table key value).2
      | none => h.store := by
  simp only [CoreHandle.receiveDelta, mergedRow]
  cases (h.crdt.apply lib.toEngineLibraries .native δ env.now env.applyFault).1 with
  | error e => rfl
  | ok outcome =>
    cases outcome with
    | merged n =>
      simp only [CoreHandle.issueDurabilityReceipt, CoreHandle.projectMerged]
      split <;> simp_all
    | quarantined reason => rfl
    | rejected reason => rfl

theorem wasm_revocationEffects_eq (env : WasmEnvironment) (effects : List RevocationEffect)
    (h : WasmCoreHandle) : ∃ tagStore cce,
      effects.foldl (WasmCoreHandle.revocationEffect env) h =
        { h with tagStore := tagStore, cce := cce } := by
  have htags : ∀ (ids : List DeltaId) (h : WasmCoreHandle), ∃ tagStore cce,
      ids.foldl (fun h id => h.tagRoot (env.taint id) id (.deviceRevocation id)) h =
        { h with tagStore := tagStore, cce := cce } := by
    intro ids
    induction ids with
    | nil => exact fun h => ⟨h.tagStore, h.cce, rfl⟩
    | cons id ids ih =>
      intro h
      obtain ⟨tagStore, cce, hids⟩ := ih (h.tagRoot (env.taint id) id (.deviceRevocation id))
      exact ⟨tagStore, cce, by rw [List.foldl_cons, hids]; rfl⟩
  induction effects generalizing h with
  | nil => exact ⟨h.tagStore, h.cce, rfl⟩
  | cons effect effects ih =>
    obtain ⟨tagStore, cce, heffects⟩ := ih (WasmCoreHandle.revocationEffect env h effect)
    cases effect with
    | revocationApplied targetDid complete =>
      exact ⟨tagStore, cce, by rw [List.foldl_cons, heffects]; rfl⟩
    | cceTrigger targetDid deltaIds =>
      obtain ⟨tagStore', cce', hids⟩ := htags deltaIds h
      refine ⟨tagStore, cce, ?_⟩
      rw [List.foldl_cons, heffects]
      simp only [WasmCoreHandle.revocationEffect, hids]

def wasmCloseGates (h : WasmCoreHandle) (δ : RevocationDelta) (now : ℤ) :
    Except TirBaseError RevocationStatus → WasmCoreHandle
  | .ok .applied => { h with
      crdt := h.crdt.markDidRevoked δ.targetDid
      capability := if δ.targetDid = h.identity.did then h.capability.applyRevocation now
                    else h.capability }
  | _ => h

theorem wasmCloseGates_of_ne (h : WasmCoreHandle) (δ : RevocationDelta) (now : ℤ)
    {status : Except TirBaseError RevocationStatus} (hstatus : status ≠ .ok .applied) :
    wasmCloseGates h δ now status = h := by
  unfold wasmCloseGates
  split
  · exact absurd rfl hstatus
  · rfl

theorem wasm_processRevocation_eq (lib : CoreLibraries) (h : WasmCoreHandle) (δ : RevocationDelta)
    (env : WasmEnvironment) :
    let authored := h.revocation.authoredDeltaIds δ.targetDid
    let out := h.revocation.toRevocationSubsystem.processIncomingDelta lib.toIdentityLibraries δ
      authored env.now
    ∃ tagStore cce, (h.processRevocation lib δ env).2 =
      wasmCloseGates { h with
        revocation := { h.revocation with toRevocationSubsystem := out.2.1 }
        tagStore := tagStore, cce := cce } δ env.now out.1 := by
  intro authored out
  obtain ⟨tagStore, cce, heffects⟩ := wasm_revocationEffects_eq env out.2.2
    { h with revocation := { h.revocation with toRevocationSubsystem := out.2.1 } }
  refine ⟨tagStore, cce, ?_⟩
  have hclosed : (h.processRevocation lib δ env).2 = wasmCloseGates
      (out.2.2.foldl (WasmCoreHandle.revocationEffect env)
        { h with revocation := { h.revocation with toRevocationSubsystem := out.2.1 } })
      δ env.now out.1 := by
    simp only [WasmCoreHandle.processRevocation]
    change _ = wasmCloseGates _ δ env.now
      (h.revocation.toRevocationSubsystem.processIncomingDelta lib.toIdentityLibraries δ authored
        env.now).1
    split
    · rename_i happlied
      rw [show (h.revocation.toRevocationSubsystem.processIncomingDelta lib.toIdentityLibraries δ
        authored env.now).1 = .ok .applied from happlied]
      rfl
    · rename_i hnot
      exact (wasmCloseGates_of_ne _ δ env.now hnot).symm
  rw [hclosed, heffects]

/-- An ignored entry was there under its own text. -/
theorem mem_rawBytes_quarantineIncoming {texts : Set Bytes} (hsha : Set.InjOn lib.sha256 texts)
    {m : SchemaMigrationEngine} (hkeyed : Keyed lib texts m.quarantineLedger) {rawBytes : Bytes}
    (htext : rawBytes ∈ texts) (senderDid : Did) (schemaHash : Option SchemaIdentifierHash)
    (reason : QuarantineReason) (now : ℤ) (bytes : Bytes) :
    bytes ∈ (m.quarantineIncoming lib.toMigrationLibraries senderDid rawBytes schemaHash reason
        now).quarantineLedger.map QuarantineEntry.rawBytes ↔
      bytes ∈ m.quarantineLedger.map QuarantineEntry.rawBytes ∨ bytes = rawBytes := by
  unfold SchemaMigrationEngine.quarantineIncoming
  dsimp only
  split_ifs with hknown
  · obtain ⟨entry, hentry, hid⟩ := List.mem_map.mp hknown
    obtain ⟨hown, hmem⟩ := hkeyed entry hentry
    have hraw : entry.rawBytes = rawBytes := hsha hmem htext (hown.symm.trans hid)
    have hthere : rawBytes ∈ m.quarantineLedger.map QuarantineEntry.rawBytes :=
      hraw ▸ List.mem_map_of_mem hentry
    exact ⟨.inl, fun h => h.elim (fun h => h) fun h => h ▸ hthere⟩
  · simp

/-- A replaced entry had the same text. -/
theorem mem_rawBytes_put {texts : Set Bytes} (hsha : Set.InjOn lib.sha256 texts)
    {ledger : List QuarantineEntry} (hkeyed : Keyed lib texts ledger) {entry : QuarantineEntry}
    (hid : entry.id = lib.sha256 entry.rawBytes) (htext : entry.rawBytes ∈ texts) (bytes : Bytes) :
    bytes ∈ (putQuarantineEntry ledger entry).map QuarantineEntry.rawBytes ↔
      bytes ∈ ledger.map QuarantineEntry.rawBytes ∨ bytes = entry.rawBytes := by
  simp only [putQuarantineEntry, List.map_append, List.mem_append, List.map_cons, List.map_nil,
    List.mem_singleton, List.mem_map, List.mem_filter, decide_eq_true_eq]
  constructor
  · rintro (⟨old, ⟨hold, -⟩, rfl⟩ | rfl)
    · exact .inl ⟨old, hold, rfl⟩
    · exact .inr rfl
  · rintro (⟨old, hold, rfl⟩ | rfl)
    · by_cases hsame : old.id = entry.id
      · obtain ⟨hown, hmem⟩ := hkeyed old hold
        exact .inr (hsha hmem htext (by rw [← hown, hsame, hid]))
      · exact .inl ⟨old, ⟨hold, hsame⟩, rfl⟩
    · exact .inr rfl

theorem keyed_quarantineIncoming {texts : Set Bytes} {m : SchemaMigrationEngine}
    (hkeyed : Keyed lib texts m.quarantineLedger) {rawBytes : Bytes} (htext : rawBytes ∈ texts)
    (senderDid : Did) (schemaHash : Option SchemaIdentifierHash) (reason : QuarantineReason)
    (now : ℤ) : Keyed lib texts (m.quarantineIncoming lib.toMigrationLibraries senderDid rawBytes
      schemaHash reason now).quarantineLedger := by
  unfold SchemaMigrationEngine.quarantineIncoming
  dsimp only
  split_ifs
  · exact hkeyed
  · intro entry hentry
    rcases List.mem_append.mp hentry with hold | hnew
    · exact hkeyed entry hold
    · rw [List.mem_singleton.mp hnew]
      exact ⟨rfl, htext⟩

theorem keyed_put {texts : Set Bytes} {ledger : List QuarantineEntry}
    (hkeyed : Keyed lib texts ledger) {entry : QuarantineEntry}
    (hid : entry.id = lib.sha256 entry.rawBytes) (htext : entry.rawBytes ∈ texts) :
    Keyed lib texts (putQuarantineEntry ledger entry) := by
  intro e he
  rcases List.mem_append.mp he with hold | hnew
  · exact hkeyed e (List.mem_of_mem_filter hold)
  · rw [List.mem_singleton.mp hnew]
    exact ⟨hid, htext⟩

theorem lookup_writeRow {values values' : AList fun _ : String × String => JsonValue}
    (h : ∀ row, values.lookup row = values'.lookup row)
    (written : Option (String × String × JsonValue))
    (row : String × String) :
    (writeRow values written).lookup row = (writeRow values' written).lookup row := by
  cases written with
  | none => exact h row
  | some w =>
    obtain ⟨table, key, value⟩ := w
    by_cases hrow : row = (table, key)
    · subst hrow
      simp only [writeRow, AList.lookup_insert]
    · simp only [writeRow, AList.lookup_insert_ne hrow, h row]

theorem receipted_eq (lib : CoreLibraries) (h : CoreHandle) (δ : Delta)
    (env : CoreHandle.InboundEnvironment) :
    ∃ store transport, (h.projectMerged lib δ none).issueDurabilityReceipt lib δ.id env.receiptId
      env.now = { h with store := store, transport := transport } := by
  unfold CoreHandle.projectMerged
  split
  · exact ⟨_, _, rfl⟩
  · exact ⟨_, _, rfl⟩

theorem wasm_projectMerged_eq (lib : CoreLibraries) (h : WasmCoreHandle) (δ : Delta) :
    ∃ deltaIndex, h.projectMerged lib δ =
      { h with
        tables := writeRow h.tables (WasmCoreHandle.projection lib h.crdt.doc δ.automergeBytes)
        deltaIndex := deltaIndex } := by
  unfold WasmCoreHandle.projectMerged
  split
  · rename_i hrow
    exact ⟨_, by rw [hrow]; rfl⟩
  · rename_i hrow
    exact ⟨_, by rw [hrow]; rfl⟩

theorem alike_delta {texts : Set Bytes} (hsha : Set.InjOn lib.sha256 texts) {n : NativeDevice}
    {w : WasmCoreHandle} (h : Alike lib texts n w) (δ : Delta)
    (htext : lib.serialiseDelta δ ∈ texts) (native : CoreHandle.InboundEnvironment)
    (wasm : WasmEnvironment) :
    Alike lib texts (nativeStep lib n ⟨.delta δ, native, wasm⟩)
      (wasmStep lib w ⟨.delta δ, native, wasm⟩) := by
  obtain ⟨houtcome, hengine⟩ : (n.handle.crdt.apply lib.toEngineLibraries .native δ native.now
        none).1 = (w.crdt.apply lib.toEngineLibraries .wasm δ wasm.now none).1 ∧
      EngineAgrees (n.handle.crdt.apply lib.toEngineLibraries .native δ native.now none).2
        (w.crdt.apply lib.toEngineLibraries .wasm δ wasm.now none).2 :=
    h.engine.apply δ native.now wasm.now
  simp only [nativeStep, wasmStep, Message.gossip, Arrival.working, CoreHandle.receiveInbound,
    CoreHandle.receiveDelta, WasmCoreHandle.receiveDelta, mergedRow, houtcome]
  cases (w.crdt.apply lib.toEngineLibraries .wasm δ wasm.now none).1 with
  | error e =>
    exact ⟨h.did, hengine, h.revocation, h.trustLevel, h.nativeKeyed, h.wasmKeyed, h.quarantined,
      h.values⟩
  | ok outcome =>
    cases outcome with
    | rejected reason =>
      exact ⟨h.did, hengine, h.revocation, h.trustLevel, h.nativeKeyed, h.wasmKeyed, h.quarantined,
        h.values⟩
    | quarantined reason =>
      refine ⟨h.did, hengine, h.revocation, h.trustLevel,
        keyed_quarantineIncoming h.nativeKeyed htext _ _ _ _, keyed_put h.wasmKeyed rfl htext, ?_,
        h.values⟩
      intro bytes
      show _ ↔ bytes ∈ (putQuarantineEntry _ _).map QuarantineEntry.rawBytes
      rw [mem_rawBytes_quarantineIncoming hsha h.nativeKeyed htext,
        mem_rawBytes_put hsha h.wasmKeyed rfl htext, h.quarantined]
    | merged lamport =>
      obtain ⟨store, transport, hnative⟩ := receipted_eq lib
        { n.handle with
          crdt := (n.handle.crdt.apply lib.toEngineLibraries .native δ native.now none).2 }
        δ native
      obtain ⟨deltaIndex, hwasm⟩ := wasm_projectMerged_eq lib
        { w with
          crdt := (w.crdt.apply lib.toEngineLibraries .wasm δ wasm.now none).2
          revocation := w.revocation.recordAuthoredDelta δ.authorDid δ.id } δ
      simp only [hnative, hwasm]
      refine ⟨h.did, hengine, ⟨h.revocation.votes, h.revocation.thresholdM, h.revocation.thresholdN,
        h.revocation.revokedDids⟩, h.trustLevel, h.nativeKeyed, h.wasmKeyed, h.quarantined, ?_⟩
      rw [projection_eq, hengine.doc]
      exact lookup_writeRow h.values _

theorem alike_revocation {texts : Set Bytes} {n : NativeDevice} {w : WasmCoreHandle}
    (h : Alike lib texts n w) (δ : RevocationDelta) (native : CoreHandle.InboundEnvironment)
    (wasm : WasmEnvironment) :
    Alike lib texts (nativeStep lib n ⟨.revocation δ, native, wasm⟩)
      (wasmStep lib w ⟨.revocation δ, native, wasm⟩) := by
  obtain ⟨cce, dag, store, transport, hnative⟩ := CoreHandle.processRevocation_eq lib n.handle δ
    { native with applyFault := none, storeFault := none }
  obtain ⟨tagStore, cce', hwasm⟩ := wasm_processRevocation_eq lib w δ wasm
  obtain ⟨hstatus, hagrees⟩ := processIncomingDelta_agrees lib.toIdentityLibraries h.revocation δ
    (if native.authoredFault then [] else n.handle.crdt.dag.nodesByAuthor δ.targetDid)
    (w.revocation.authoredDeltaIds δ.targetDid) native.now wasm.now
  have hengine : EngineAgrees { n.handle.crdt with dag := dag } w.crdt :=
    ⟨h.engine.doc, h.engine.lamport, h.engine.knownSchemaHash, h.engine.knownSchemas,
      h.engine.schemaDefinitions, h.engine.revokedDids⟩
  simp only [nativeStep, wasmStep, Message.gossip, Arrival.working, CoreHandle.receiveInbound, hnative,
    hwasm, hstatus]
  cases (w.revocation.toRevocationSubsystem.processIncomingDelta lib.toIdentityLibraries δ
    (w.revocation.authoredDeltaIds δ.targetDid) wasm.now).1 with
  | error e =>
    exact ⟨h.did, hengine, hagrees, h.trustLevel, h.nativeKeyed, h.wasmKeyed, h.quarantined,
      h.values⟩
  | ok status =>
    cases status with
    | pending collected required =>
      exact ⟨h.did, hengine, hagrees, h.trustLevel, h.nativeKeyed, h.wasmKeyed, h.quarantined,
        h.values⟩
    | applied =>
      refine ⟨h.did, hengine.markDidRevoked δ.targetDid, hagrees, ?_, h.nativeKeyed, h.wasmKeyed,
        h.quarantined, h.values⟩
      simp only [CoreHandle.closeGates, wasmCloseGates, h.did]
      split_ifs
      · rfl
      · exact h.trustLevel

/-- Two devices that start alike show the same after every message. The hypotheses are on SHA-256,
which is not to collide on the texts at hand, and on the entries of the ledger, which lie under the
hashes of their texts. -/
theorem builds_converge (lib : CoreLibraries) (n : NativeDevice) (w : WasmCoreHandle)
    (ops : List Arrival) (hsame : SameState n w) (texts : Set Bytes)
    (hsha : Set.InjOn lib.sha256 texts)
    (hkeyed : Keyed lib texts n.handle.migration.quarantineLedger)
    (htexts : ∀ op ∈ ops, ∀ δ, op.message = .delta δ → lib.serialiseDelta δ ∈ texts) :
    ∀ earlier later, ops = earlier ++ later →
      Converged (run (nativeStep lib) n earlier) (run (wasmStep lib) w earlier) := by
  rintro earlier later rfl
  have hstep : ∀ (n : NativeDevice) (w : WasmCoreHandle) (op : Arrival),
      (∀ δ, op.message = .delta δ → lib.serialiseDelta δ ∈ texts) → Alike lib texts n w →
      Alike lib texts (nativeStep lib n op) (wasmStep lib w op) := by
    rintro n w ⟨message, native, wasm⟩ htext h
    cases message with
    | delta δ => exact alike_delta hsha h δ (htext δ rfl) native wasm
    | revocation δ => exact alike_revocation h δ native wasm
  have hearlier : ∀ op ∈ earlier, ∀ δ, op.message = .delta δ → lib.serialiseDelta δ ∈ texts :=
    fun op hop => htexts op (List.mem_append_left later hop)
  have halike := related_run hstep hearlier (hsame.alike hkeyed)
  exact halike.converged

def sampleDelta : Delta :=
  ⟨0x501, CrdtEngine.sampleDid₂, List.replicate 64 0, 7, [1], .low, [], [], 1, 5⟩

def sampleHandle : CoreHandle := CoreHandle.sampleHandle ⟨.empty, .empty, [], []⟩

def sampleArrivals : List Arrival :=
  let native : CoreHandle.InboundEnvironment :=
    ⟨9, none, none, 3, .ok false, false, false, fun _ => ⟨1, 2, 9, none, none, fun _ => false⟩⟩
  let wasm : WasmEnvironment := ⟨10, .ok false, fun _ => ⟨1, 2, 10, none, none, fun _ => false⟩⟩
  [⟨.delta sampleDelta, native, wasm⟩,
    ⟨.revocation ⟨CrdtEngine.sampleDid₂, [⟨CrdtEngine.sampleDid₃, List.replicate 64 0⟩], 4⟩, native,
      wasm⟩]

theorem builds_converge_sample :
    Converged
      (run (nativeStep (CoreHandle.sampleCoreLibraries [])) ⟨sampleHandle, ∅⟩ sampleArrivals)
      (run (wasmStep (CoreHandle.sampleCoreLibraries [])) (.ofNative sampleHandle)
        sampleArrivals) :=
  (builds_converge (CoreHandle.sampleCoreLibraries []) ⟨sampleHandle, ∅⟩ (.ofNative sampleHandle)
    sampleArrivals ⟨rfl, rfl, rfl, rfl, rfl, rfl⟩ {[1]} (Set.injOn_singleton _ _)
    (fun entry hentry => absurd hentry (List.not_mem_nil))
    (by
      intro op hop δ hδ
      rcases List.mem_cons.mp hop with rfl | hop
      · cases hδ
        rfl
      · rw [List.mem_singleton.mp hop] at hδ
        cases hδ)) _ [] (List.append_nil _).symm

end TirBase.CrossBuildConvergence
