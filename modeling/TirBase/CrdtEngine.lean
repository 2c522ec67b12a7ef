import TirBase.ChangesetDag
import TirBase.MergeVerification
import TirBase.ScalarProjection
import TirBase.SchemaDefinition

/-! # The CRDT engine

One Automerge document, a Lamport clock and the Changeset DAG, with the gate that an incoming
Delta passes before its payload is merged. -/
namespace TirBase
open Automerge MergeVerification ScalarProjection

inductive Build
  | native | wasm
  deriving DecidableEq

/-- Libraries the engine calls besides those of the identity code: the Automerge codec, the text
of a failing merge and what it leaves of the local document, and the JSON serialisation of a whole
Delta. -/
structure EngineLibraries extends IdentityLibraries where
  load : Bytes → Option (List Change)
  save : Document → Bytes
  failedMerge : Document → Document → String × Document
  serialiseDelta : Delta → Bytes
  json : JsonText

inductive QuarantineReason
  | breakingSchemaChange | unknownSchemaHash | missingOrMalformedHash
  deriving DecidableEq

inductive MergeOutcome
  | merged (newLamport : UInt64)
  | quarantined (reason : QuarantineReason)
  | rejected (reason : String)
  deriving DecidableEq

inductive DeltaRejectionCode
  | revokedAuthor | missingSignature | didResolutionFailed | signatureVerificationFailed
  deriving DecidableEq

structure DeltaRejectionRecord where
  code : DeltaRejectionCode
  authorDid : Did
  deltaId : DeltaId
  reason : String
  occurredAtUtc : ℤ
  deriving DecidableEq

def maxRejectionRecords : ℕ := 1024

structure CrdtEngine where
  doc : Document
  lamport : UInt64
  knownSchemaHash : SchemaIdentifierHash
  knownSchemas : List SchemaIdentifierHash
  schemaDefinitions : List (SchemaIdentifierHash × Schema)
  authorDid : Did
  secretKey : KeyBytes
  revokedDids : List Did
  rejectionRecords : List DeltaRejectionRecord
  dag : ChangesetDag
  deriving DecidableEq

inductive IncomingSchemaClass
  | known
  | additive (diff : SchemaDiff)
  | breaking (diff : SchemaDiff)
  | unknown
  deriving DecidableEq

inductive GateDecision
  | reject (code : DeltaRejectionCode) (reason : String)
  | quarantine (reason : QuarantineReason)
  | pass (adoptAdditiveHash : Bool)
  deriving DecidableEq

abbrev DagFault := Option TirBaseError

namespace CrdtEngine

/-- `CrdtEngine::new`; the DAG is the one the storage holds. -/
def new (secretKey publicKey : KeyBytes) (authorDid : Did) (schemaHash : SchemaIdentifierHash)
    (dag : ChangesetDag) : CrdtEngine where
  doc := Document.empty publicKey.val
  lamport := 0
  knownSchemaHash := schemaHash
  knownSchemas := [schemaHash]
  schemaDefinitions := []
  authorDid := authorDid
  secretKey := secretKey
  revokedDids := []
  rejectionRecords := []
  dag := dag

def addKnownSchema (e : CrdtEngine) (hash : SchemaIdentifierHash) : CrdtEngine :=
  { e with knownSchemas := if hash ∈ e.knownSchemas then e.knownSchemas
                           else e.knownSchemas ++ [hash] }

def setCurrentSchema (e : CrdtEngine) (hash : SchemaIdentifierHash) : CrdtEngine :=
  { e.addKnownSchema hash with knownSchemaHash := hash }

def markDidRevoked (e : CrdtEngine) (did : Did) : CrdtEngine :=
  { e with revokedDids := if did ∈ e.revokedDids then e.revokedDids else e.revokedDids ++ [did] }

def classifyIncomingSchema (e : CrdtEngine) (hash : SchemaIdentifierHash) :
    IncomingSchemaClass :=
  if hash ∈ e.knownSchemas then .known
  else
    match e.schemaDefinitions.lookup e.knownSchemaHash, e.schemaDefinitions.lookup hash with
    | some current, some incoming =>
      let diff := diffSchemas current incoming
      if diff.isAdditive then .additive diff
      else if diff.isBreaking then .breaking diff
      else .unknown
    | _, _ => .unknown

/-- The buffer drops its oldest record once it is full. -/
def recordRejection (e : CrdtEngine) (code : DeltaRejectionCode) (δ : Delta) (reason : String)
    (now : ℤ) : CrdtEngine :=
  let records := e.rejectionRecords ++ [⟨code, δ.authorDid, δ.id, reason, now⟩]
  { e with rejectionRecords :=
      if records.length > maxRejectionRecords then records.tail else records }

variable (lib : EngineLibraries)

def signatureGate (δ : Delta) (adoptAdditiveHash : Bool) : GateDecision :=
  if δ.signature = [] then .reject .missingSignature "malformed delta: missing signature"
  else
    match lib.resolveDid δ.authorDid with
    | .error e => .reject .didResolutionFailed e.message
    | .ok publicKey =>
      match lib.verify publicKey (lib.canonicalBytes δ) δ.signature with
      | .error e => .reject .signatureVerificationFailed e.message
      | .ok () => .pass adoptAdditiveHash

/-- The revocation, schema and signature checks, in the order of the source. -/
def gate (e : CrdtEngine) (δ : Delta) : GateDecision :=
  if δ.authorDid ∈ e.revokedDids then
    let author := δ.authorDid
    .reject .revokedAuthor s!"author DID '{author}' is REVOKED — inbound Deltas from revoked devices are rejected (Req 8.6)"
  else
    match e.classifyIncomingSchema δ.schemaHash with
    | .known => signatureGate lib δ false
    | .additive _ => signatureGate lib δ true
    | .breaking _ => .quarantine .breakingSchemaChange
    | .unknown => .quarantine .unknownSchemaHash

def loadIncomingDoc (bytes : Bytes) : Option Document :=
  if bytes = [] then none else (lib.load bytes).map fun changes => ⟨[], changes, []⟩

/-- Capture the conflicts, merge, and override where the Lamport rule says so. -/
def mergeIncoming (localDoc incoming : Document) (deltaLamport localLamport : UInt64) :
    Option Document :=
  let snapshot := captureConflicts localDoc incoming
  (localDoc.merge incoming).map fun merged =>
    if snapshot.lww ≠ [] ∨ snapshot.rga ≠ [] then
      (verifyAndOverride merged snapshot deltaLamport localLamport).1
    else merged

def mergePayload (e : CrdtEngine) (δ : Delta) : Option Document :=
  match loadIncomingDoc lib δ.automergeBytes with
  | none => some e.doc
  | some incoming => mergeIncoming e.doc incoming δ.lamport e.lamport

/-- What Automerge says of a failing merge of the payload, and the document that this leaves. -/
def failedMerge (e : CrdtEngine) (δ : Delta) : String × Document :=
  match loadIncomingDoc lib δ.automergeBytes with
  | none => ("", e.doc)
  | some incoming => lib.failedMerge e.doc incoming

def failedDoc (e : CrdtEngine) (δ : Delta) : Document := (e.failedMerge lib δ).2

def dagNode (e : CrdtEngine) (δ : Delta) : DagNode :=
  ⟨δ.id, δ.automergeBytes, some (lib.serialiseDelta δ), δ.causalParents, e.doc.actor, δ.lamport,
    δ.schemaHash, false, δ.authorDid⟩

/-- Only the native engine keeps a DAG. -/
def insertDagNode (build : Build) (e : CrdtEngine) (δ : Delta) (fault : DagFault) :
    Except TirBaseError CrdtEngine :=
  match build, fault with
  | .wasm, _ => .ok e
  | .native, some err => .error err
  | .native, none => .ok { e with dag := e.dag.insert (dagNode lib e δ) }

/-- `max(local, incoming) + 1` on 64-bit words. -/
def advanceLamport (e : CrdtEngine) (δ : Delta) : UInt64 := max e.lamport δ.lamport + 1

def apply (build : Build) (e : CrdtEngine) (δ : Delta) (now : ℤ) (fault : DagFault) :
    Except TirBaseError MergeOutcome × CrdtEngine :=
  match e.gate lib δ with
  | .reject code reason => (.ok (.rejected reason), e.recordRejection code δ reason now)
  | .quarantine reason => (.ok (.quarantined reason), e)
  | .pass adopt =>
    let e := if adopt then e.addKnownSchema δ.schemaHash else e
    match e.mergePayload lib δ with
    | none =>
      let text := (e.failedMerge lib δ).1
      (.error (.deltaMalformed s!"automerge merge failed: {text}"),
        { e with doc := e.failedDoc lib δ })
    | some doc =>
      let e := { e with doc := doc, lamport := e.advanceLamport δ }
      match insertDagNode lib build e δ fault with
      | .error err => (.error err, e)
      | .ok e => (.ok (.merged e.lamport), e)

/-- The stored nodes without children, among those the topological sort reaches. -/
def dagTips (e : CrdtEngine) (hash : HashOrder) : List DeltaId :=
  (e.dag.topologicalSort hash).filter fun id => e.dag.children id = []

theorem mem_dagTips {e : CrdtEngine} (hash : HashOrder) {id : DeltaId} :
    id ∈ e.dagTips hash ↔ e.dag.Tip id := by
  simp only [dagTips, List.mem_filter, decide_eq_true_eq, ChangesetDag.mem_topologicalSort,
    ChangesetDag.Tip]

def resolveCausalParents (build : Build) (e : CrdtEngine) (hash : HashOrder)
    (explicit : List DeltaId) (fault : DagFault) : Except TirBaseError (List DeltaId) :=
  if explicit ≠ [] then .ok explicit
  else
    match build, fault with
    | .wasm, _ => .ok []
    | .native, some err => .error err
    | .native, none => .ok (e.dagTips hash)

def signedDelta (e : CrdtEngine) (automergeBytes : Bytes) (priority : PriorityClass)
    (parents : List DeltaId) (tags : List DeltaTag) (now : ℤ) : Delta :=
  let unsigned : Delta := ⟨0, e.authorDid, [], e.knownSchemaHash, automergeBytes, priority,
    parents, tags, e.lamport, now⟩
  let canonical := lib.canonicalBytes unsigned
  { unsigned with signature := lib.sign e.secretKey canonical, id := lib.computeId canonical }

structure ProduceEnvironment where
  hash : HashOrder
  now : ℤ
  tipsFault : DagFault
  insertFault : DagFault

def produceDeltaWithTags (build : Build) (e : CrdtEngine) (automergeBytes : Bytes)
    (priority : PriorityClass) (causalParents : List DeltaId) (tags : List DeltaTag)
    (env : ProduceEnvironment) : Except TirBaseError Delta × CrdtEngine :=
  let e := { e with lamport := e.lamport + 1 }
  match resolveCausalParents build e env.hash causalParents env.tipsFault with
  | .error err => (.error err, e)
  | .ok parents =>
    let δ := signedDelta lib e automergeBytes priority parents tags env.now
    match insertDagNode lib build e δ env.insertFault with
    | .error err => (.error err, e)
    | .ok e => (.ok δ, e)

/-- `produce_delta`. -/
def produceDelta (build : Build) (e : CrdtEngine) (automergeBytes : Bytes)
    (priority : PriorityClass) (causalParents : List DeltaId) (env : ProduceEnvironment) :
    Except TirBaseError Delta × CrdtEngine :=
  produceDeltaWithTags lib build e automergeBytes priority causalParents [] env

def savedDocument (json : JsonText) (e : CrdtEngine) (table key : String) (value : JsonValue) :
    Document :=
  ((e.doc.put "_tirbase_table" (.str table)).put "_tirbase_key" (.str key)).put key
    (scalarOfJson json value)

/-- Put the routing keys and the value, then save. A `put` of a scalar on `ROOT` does not fail, so
none of the error arms is taken. -/
def writeScalar (e : CrdtEngine) (table key : String) (value : JsonValue) :
    Except TirBaseError Bytes × CrdtEngine :=
  let doc := savedDocument lib.json e table key value
  (.ok (lib.save doc), { e with doc := doc.commit })

/-- `register_schema_definition`. -/
def registerSchemaDefinition (e : CrdtEngine) (expectedHash computed : SchemaIdentifierHash)
    (schema : Schema) : Except TirBaseError CrdtEngine :=
  if computed ≠ expectedHash then
    let got := computed.toHex
    let expected := expectedHash.toHex
    .error (.schemaRegistrationFailed s!"schema definition hashes to {got}, not the registered version hash {expected}")
  else .ok { e with schemaDefinitions := (computed, schema) :: e.schemaDefinitions }

/-- The policy of a table in the current schema; the first definition of the name counts. -/
def compactionPolicyFor (e : CrdtEngine) (table : String) : CompactionPolicy :=
  match e.schemaDefinitions.lookup e.knownSchemaHash with
  | none => .none
  | some schema =>
    ((schema.tables.find? fun t => t.name = table).map TableDef.compactionPolicy).getD .none

def shouldCompact (policy : CompactionPolicy) (currentDeltaCount : ℕ) : Bool :=
  match policy with
  | .aggressive threshold => decide (threshold < currentDeltaCount)
  | .none => false

/-- What compaction meets: the statement on the saved document fails, and the document is read
back under a random actor, or the statement on the nodes fails. -/
inductive CompactionFault
  | updateDocs (restoredActor : ActorId)
  | markNodes

/-- `compact_table`. -/
def compactTable (e : CrdtEngine) (fault : Option CompactionFault) : CrdtEngine :=
  match fault with
  | some (.updateDocs restoredActor) =>
    match lib.load (lib.save e.doc) with
    | some changes => { e with doc := ⟨restoredActor, changes, []⟩ }
    | none => e
  | some .markNodes => e
  | none =>
    { e with dag := { e.dag with nodes := e.dag.nodes.map fun r => { r with compacted := true } } }

def maybeCompact (e : CrdtEngine) (policy : CompactionPolicy) (fault : Option CompactionFault) :
    Bool × CrdtEngine :=
  if shouldCompact policy e.doc.commit.changes.length then (true, compactTable lib e fault)
  else (false, e)

def compactAfterWrite (e : CrdtEngine) (table : String) (fault : Option CompactionFault) :
    Bool × CrdtEngine :=
  maybeCompact lib e (e.compactionPolicyFor table) fault

@[simp] theorem dag_recordRejection (e : CrdtEngine) (code : DeltaRejectionCode) (δ : Delta)
    (reason : String) (now : ℤ) : (e.recordRejection code δ reason now).dag = e.dag := rfl

@[simp] theorem doc_recordRejection (e : CrdtEngine) (code : DeltaRejectionCode) (δ : Delta)
    (reason : String) (now : ℤ) : (e.recordRejection code δ reason now).doc = e.doc := rfl

@[simp] theorem lamport_recordRejection (e : CrdtEngine) (code : DeltaRejectionCode) (δ : Delta)
    (reason : String) (now : ℤ) : (e.recordRejection code δ reason now).lamport = e.lamport := rfl

@[simp] theorem doc_addKnownSchema (e : CrdtEngine) (hash : SchemaIdentifierHash) :
    (e.addKnownSchema hash).doc = e.doc := rfl

@[simp] theorem lamport_addKnownSchema (e : CrdtEngine) (hash : SchemaIdentifierHash) :
    (e.addKnownSchema hash).lamport = e.lamport := rfl

@[simp] theorem dag_addKnownSchema (e : CrdtEngine) (hash : SchemaIdentifierHash) :
    (e.addKnownSchema hash).dag = e.dag := rfl

/-- The gate lets the Delta through: its author is not revoked, its schema is known and its
signature verifies. -/
structure Accepts (e : CrdtEngine) (δ : Delta) : Prop where
  notRevoked : δ.authorDid ∉ e.revokedDids
  known : δ.schemaHash ∈ e.knownSchemas
  signed : δ.signature ≠ []
  verified : ∃ publicKey, lib.resolveDid δ.authorDid = .ok publicKey ∧
    lib.verify publicKey (lib.canonicalBytes δ) δ.signature = .ok ()

variable {lib}

theorem gate_of_accepts {e : CrdtEngine} {δ : Delta} (h : e.Accepts lib δ) :
    e.gate lib δ = .pass false := by
  obtain ⟨publicKey, hresolve, hverify⟩ := h.verified
  simp [gate, h.notRevoked, classifyIncomingSchema, h.known, signatureGate, h.signed, hresolve,
    hverify]

def mergedEngine (build : Build) (lib : EngineLibraries) (e : CrdtEngine) (δ : Delta)
    (adopt : Bool) (doc : Document) : CrdtEngine :=
  let e := if adopt then e.addKnownSchema δ.schemaHash else e
  { e with
    doc := doc
    lamport := e.advanceLamport δ
    dag := if build = .native then
        e.dag.insert (dagNode lib { e with doc := doc, lamport := e.advanceLamport δ } δ)
      else e.dag }

/-- An accepted Delta whose payload merges is merged, or storing its node fails. -/
theorem apply_of_pass {e : CrdtEngine} {δ : Delta} {adopt : Bool} {doc : Document}
    (hgate : e.gate lib δ = .pass adopt) (hmerge : e.mergePayload lib δ = some doc)
    (build : Build) (now : ℤ) (fault : DagFault) :
    (∃ err, fault = some err ∧ build = .native ∧ apply lib build e δ now fault =
      (.error err, { mergedEngine build lib e δ adopt doc with dag := e.dag })) ∨
    apply lib build e δ now fault =
      (.ok (.merged (e.advanceLamport δ)), mergedEngine build lib e δ adopt doc) := by
  have hmerge' : (if adopt then e.addKnownSchema δ.schemaHash else e).mergePayload lib δ =
      some doc := by
    cases adopt <;> exact hmerge
  simp only [apply, hgate, hmerge']
  cases build with
  | wasm => cases adopt <;> exact .inr rfl
  | native =>
    cases fault with
    | none => cases adopt <;> exact .inr rfl
    | some err => cases adopt <;> exact .inl ⟨err, rfl, rfl, rfl⟩

/-- Merged is returned only behind the gate, for a payload that merges. -/
theorem apply_eq_merged {build : Build} {e : CrdtEngine} {δ : Delta} {now : ℤ}
    {fault : DagFault} (h : ∃ n, (apply lib build e δ now fault).1 = .ok (.merged n)) :
    ∃ adopt doc, e.gate lib δ = .pass adopt ∧ e.mergePayload lib δ = some doc ∧
      (apply lib build e δ now fault).2 = mergedEngine build lib e δ adopt doc := by
  obtain ⟨n, h⟩ := h
  cases hgate : e.gate lib δ with
  | reject code reason => simp [apply, hgate] at h
  | quarantine reason => simp [apply, hgate] at h
  | pass adopt =>
    have hsame : (if adopt then e.addKnownSchema δ.schemaHash else e).mergePayload lib δ =
        e.mergePayload lib δ := by
      cases adopt <;> rfl
    cases hmerge : e.mergePayload lib δ with
    | none => simp [apply, hgate, hsame, hmerge] at h
    | some doc =>
      refine ⟨adopt, doc, rfl, rfl, ?_⟩
      rcases apply_of_pass hgate hmerge build now fault with
        ⟨err, -, -, happly⟩ | happly
      · rw [happly] at h
        cases h
      · rw [happly]

theorem dag_apply_of_not_merged {build : Build} {e : CrdtEngine} {δ : Delta} {now : ℤ}
    {fault : DagFault} (h : ∀ n, (apply lib build e δ now fault).1 ≠ .ok (.merged n)) :
    (apply lib build e δ now fault).2.dag = e.dag := by
  cases hgate : e.gate lib δ with
  | reject code reason => simp [apply, hgate]
  | quarantine reason => simp [apply, hgate]
  | pass adopt =>
    cases hmerge : e.mergePayload lib δ with
    | none =>
      have hsame : (if adopt then e.addKnownSchema δ.schemaHash else e).mergePayload lib δ =
          none := by
        cases adopt <;> exact hmerge
      simp only [apply, hgate, hsame]
      cases adopt <;> rfl
    | some doc =>
      rcases apply_of_pass hgate hmerge build now fault with
        ⟨err, -, -, happly⟩ | happly
      · rw [happly]
      · exact absurd (congrArg Prod.fst happly) (h _)

theorem extends_apply (build : Build) (e : CrdtEngine) (δ : Delta) (now : ℤ) (fault : DagFault) :
    e.dag.Extends (apply lib build e δ now fault).2.dag := by
  by_cases h : ∃ n, (apply lib build e δ now fault).1 = .ok (.merged n)
  · obtain ⟨adopt, doc, -, -, happly⟩ := apply_eq_merged h
    rw [happly]
    cases build with
    | native => cases adopt <;> exact ChangesetDag.extends_insert _ _
    | wasm => cases adopt <;> exact .refl _
  · push Not at h
    rw [dag_apply_of_not_merged h]
    exact .refl _

theorem apply_engine (lib : EngineLibraries) (build : Build) (e : CrdtEngine) (δ : Delta) (now : ℤ) (fault : DagFault) :
    ∃ doc lamport known records dag, (apply lib build e δ now fault).2 = { e with
      doc := doc, lamport := lamport, knownSchemas := known, rejectionRecords := records
      dag := dag } := by
  cases hgate : e.gate lib δ with
  | reject code reason =>
    exact ⟨e.doc, e.lamport, e.knownSchemas, _, e.dag, by simp only [apply, hgate]; rfl⟩
  | quarantine reason =>
    exact ⟨e.doc, e.lamport, e.knownSchemas, e.rejectionRecords, e.dag, by simp only [apply, hgate]⟩
  | pass adopt =>
    obtain ⟨known, hadopt⟩ : ∃ known,
        (if adopt then e.addKnownSchema δ.schemaHash else e) = { e with knownSchemas := known } := by
      cases adopt <;> exact ⟨_, rfl⟩
    simp only [apply, hgate, hadopt]
    split
    · exact ⟨_, e.lamport, known, e.rejectionRecords, e.dag, rfl⟩
    · cases build with
      | wasm => exact ⟨_, _, known, e.rejectionRecords, e.dag, rfl⟩
      | native => cases fault <;> exact ⟨_, _, known, e.rejectionRecords, _, rfl⟩

@[simp] theorem knownSchemaHash_apply (build : Build) (e : CrdtEngine) (δ : Delta) (now : ℤ)
    (fault : DagFault) : (apply lib build e δ now fault).2.knownSchemaHash = e.knownSchemaHash := by
  obtain ⟨doc, lamport, known, records, dag, happly⟩ := apply_engine lib build e δ now fault
  rw [happly]

@[simp] theorem revokedDids_apply (build : Build) (e : CrdtEngine) (δ : Delta) (now : ℤ)
    (fault : DagFault) : (apply lib build e δ now fault).2.revokedDids = e.revokedDids := by
  obtain ⟨doc, lamport, known, records, dag, happly⟩ := apply_engine lib build e δ now fault
  rw [happly]

def derivedParents (build : Build) (e : CrdtEngine) (hash : HashOrder) : List DeltaId :=
  match build with
  | .native => e.dagTips hash
  | .wasm => []

/-- Producing a Delta fails without touching the DAG, or stores the signed Delta as a child of
the derived parents. -/
theorem produceDelta_cases (build : Build) (e : CrdtEngine) (bytes : Bytes)
    (priority : PriorityClass) (env : ProduceEnvironment) :
    let e₁ : CrdtEngine := { e with lamport := e.lamport + 1 }
    let δ := signedDelta lib e₁ bytes priority (derivedParents build e env.hash) [] env.now
    (∃ err, produceDelta lib build e bytes priority [] env = (.error err, e₁)) ∨
      produceDelta lib build e bytes priority [] env = (.ok δ,
        match build with
        | .native => { e₁ with dag := e.dag.insert (dagNode lib e₁ δ) }
        | .wasm => e₁) := by
  intro e₁ δ
  cases build with
  | wasm => exact .inr rfl
  | native =>
    cases htips : env.tipsFault with
    | some err =>
      exact .inl ⟨err, by simp [produceDelta, produceDeltaWithTags, resolveCausalParents, htips, e₁]⟩
    | none =>
      cases hinsert : env.insertFault with
      | some err =>
        exact .inl ⟨err, by simp [produceDelta, produceDeltaWithTags, resolveCausalParents, htips,
          insertDagNode, hinsert, e₁]⟩
      | none =>
        refine .inr ?_
        simp only [produceDelta, produceDeltaWithTags, resolveCausalParents, htips, insertDagNode,
          hinsert, ne_eq, not_true_eq_false, if_false]
        rfl

theorem writeScalar_engine (lib : EngineLibraries) (e : CrdtEngine) (table key : String)
    (value : JsonValue) : ∃ doc, (e.writeScalar lib table key value).2 = { e with doc := doc } :=
  ⟨_, rfl⟩

/-- A compaction saves the document and marks the rows of the DAG. -/
theorem maybeCompact_engine (lib : EngineLibraries) (e : CrdtEngine) (policy : CompactionPolicy)
    (fault : Option CompactionFault) : ∃ doc dag,
      (e.maybeCompact lib policy fault).2 = { e with doc := doc, dag := dag } := by
  unfold maybeCompact
  split_ifs
  · cases fault with
    | none => exact ⟨e.doc, _, rfl⟩
    | some f =>
      cases f with
      | markNodes => exact ⟨e.doc, e.dag, rfl⟩
      | updateDocs actor =>
        simp only [compactTable]
        split
        · exact ⟨_, e.dag, rfl⟩
        · exact ⟨e.doc, e.dag, rfl⟩
  · exact ⟨e.doc, e.dag, rfl⟩

@[simp] theorem lamport_compactAfterWrite (e : CrdtEngine) (table : String)
    (fault : Option CompactionFault) :
    (e.compactAfterWrite lib table fault).2.lamport = e.lamport := by
  obtain ⟨doc, dag, hcompact⟩ :=
    maybeCompact_engine lib e (e.compactionPolicyFor table) fault
  rw [compactAfterWrite, hcompact]

/-- A fault of the DAG fails the production after the clock has advanced. -/
theorem produceDeltaWithTags_of_fault (lib : EngineLibraries) (e : CrdtEngine) (bytes : Bytes) (priority : PriorityClass)
    (tags : List DeltaTag) {env : ProduceEnvironment}
    (h : ¬(env.tipsFault = none ∧ env.insertFault = none)) :
    ∃ err, produceDeltaWithTags lib .native e bytes priority [] tags env =
      (.error err, { e with lamport := e.lamport + 1 }) := by
  cases htips : env.tipsFault with
  | some err =>
    exact ⟨err, by simp [produceDeltaWithTags, resolveCausalParents, htips]⟩
  | none =>
    cases hinsert : env.insertFault with
    | some err =>
      exact ⟨err, by simp [produceDeltaWithTags, resolveCausalParents, htips, insertDagNode, hinsert]⟩
    | none => exact absurd ⟨htips, hinsert⟩ h

/-- Without a fault the signed Delta is stored as a child of the tips. -/
theorem produceDeltaWithTags_of_no_fault (e : CrdtEngine) (bytes : Bytes)
    (priority : PriorityClass) (tags : List DeltaTag) {env : ProduceEnvironment}
    (htips : env.tipsFault = none) (hinsert : env.insertFault = none) :
    let e₁ : CrdtEngine := { e with lamport := e.lamport + 1 }
    let δ := signedDelta lib e₁ bytes priority (e.dagTips env.hash) tags env.now
    produceDeltaWithTags lib .native e bytes priority [] tags env =
      (.ok δ, { e₁ with dag := e.dag.insert (dagNode lib e₁ δ) }) := by
  simp only [produceDeltaWithTags, resolveCausalParents, htips, insertDagNode, hinsert, ne_eq,
    not_true_eq_false, if_false]
  rfl

/-- Three `did:key` names with the keys they encode, signatures that verify, and a table of
saved documents. -/
def sampleLibraries (saved : List (Bytes × List Change)) : EngineLibraries where
  bs58Decode s :=
    if s = "6MkeXBLjYiSvqnhFb6D7sHm8yKm4jV45wwBFRaatf1cfZ76" then
      .ok (0xed :: 0x01 :: List.replicate 32 1)
    else if s = "6Mkeb6dsrBTX95vPgLiZAcgRr6XJthFm1czoqFEx34DQtRo" then
      .ok (0xed :: 0x01 :: List.replicate 32 2)
    else if s = "6Mkef1w29eU7SP9XmbDzTwbiisHZ3uTS5JpNEuu1R6pADkW" then
      .ok (0xed :: 0x01 :: List.replicate 32 3)
    else .error "provided string contained invalid character"
  ed25519VerifyingKey _ := .ok ()
  ed25519Verify _ _ _ := .ok ()
  ed25519Sign _ _ := ⟨List.replicate 64 0, by simp⟩
  sha256 bytes := BitVec.ofNat 256 (bytes.foldl (fun n b => 256 * n + b.val) 0)
  serialiseCanonical p := [Fin.ofNat 256 p.createdAt.toNat, Fin.ofNat 256 p.lamport.toNat]
  load bytes := saved.lookup bytes
  save d := ((saved.find? fun s => s.2 == d.commit.changes).map Prod.fst).getD []
  failedMerge d incoming :=
    ((incoming.commit.changes.find? (d.commit.duplicateSeq ·)).elim "" fun c =>
      let seq := c.seq
      let actor := String.ofList
        (c.actor.flatMap fun b => [Nat.digitChar (b.val / 16), Nat.digitChar (b.val % 16)])
      s!"duplicate seq {seq} found for actor {actor}", d.commit)
  serialiseDelta δ := δ.automergeBytes
  json := ⟨fun _ => "", fun _ => .error "expected value at line 1 column 1"⟩

def sampleDid₁ : Did := "did:key:z6MkeXBLjYiSvqnhFb6D7sHm8yKm4jV45wwBFRaatf1cfZ76"
def sampleDid₂ : Did := "did:key:z6Mkeb6dsrBTX95vPgLiZAcgRr6XJthFm1czoqFEx34DQtRo"
def sampleDid₃ : Did := "did:key:z6Mkef1w29eU7SP9XmbDzTwbiisHZ3uTS5JpNEuu1R6pADkW"

def sampleKey (b : Byte) : KeyBytes := ⟨List.replicate 32 b, by simp⟩

end CrdtEngine

end TirBase
