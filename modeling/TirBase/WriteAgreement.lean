import TirBase.CrossBuildConvergence
import TirBase.DeviceLogs
import TirBase.WasmWrites

/-! # The same write on both builds

A write that reacts to no incident leaves the two engines alike. The native one stores its Delta in
the DAG, the other one keeps its identifier beside the author. -/
namespace TirBase.WriteAgreement
open CoreHandle CrdtEngine CrossBuildConvergence DeviceLogs TagLogs

structure SameRows (dag dag' : ChangesetDag) : Prop extends SameLogs dag dag' where
  authors : ∀ did, dag'.nodesByAuthor did = dag.nodesByAuthor did

theorem SameRows.refl (dag : ChangesetDag) : SameRows dag dag := ⟨.refl dag, fun _ => rfl⟩

theorem nodesByAuthor_map {dag : ChangesetDag} {f : DagRow → DagRow} (hid : ∀ r, (f r).id = r.id)
    (hauthor : ∀ r, (f r).authorDid = r.authorDid) (did : Did) :
    ({ dag with nodes := dag.nodes.map f } : ChangesetDag).nodesByAuthor did =
      dag.nodesByAuthor did := by
  simp only [ChangesetDag.nodesByAuthor, List.filter_map, List.map_map]
  have hfilter : ((fun r : DagRow => decide (r.authorDid = did)) ∘ f) =
      fun r : DagRow => decide (r.authorDid = did) := by
    funext r
    rw [Function.comp_apply, hauthor]
  have hmap : DagRow.id ∘ f = DagRow.id := by
    funext r
    exact hid r
  rw [hfilter, hmap]

theorem nodesByAuthor_insert (dag : ChangesetDag) (node : DagNode) (did : Did) :
    (dag.insert node).nodesByAuthor did =
      if node.deltaId ∉ dag.ids ∧ node.authorDid = did then dag.nodesByAuthor did ++ [node.deltaId]
      else dag.nodesByAuthor did := by
  have hid : node.row.id = node.deltaId := rfl
  have hauthor : node.row.authorDid = node.authorDid := rfl
  unfold ChangesetDag.nodesByAuthor ChangesetDag.insert ChangesetDag.insertRow ChangesetDag.ids
  by_cases hstored : node.deltaId ∈ dag.nodes.map DagRow.id
  · simp [hid, hstored]
  · by_cases hdid : node.authorDid = did
    · simp [hid, hauthor, hstored, hdid]
    · simp [hid, hauthor, hstored, hdid]

/-- What a merge or a write stores under its own author is the last one that was not there. -/
theorem nodesByAuthor_insert_of_mem {dag : ChangesetDag} {node : DagNode}
    (hmem : node.deltaId ∈ (dag.insert node).nodesByAuthor node.authorDid) :
    (dag.insert node).nodesByAuthor node.authorDid =
      if node.deltaId ∈ dag.nodesByAuthor node.authorDid then dag.nodesByAuthor node.authorDid
      else dag.nodesByAuthor node.authorDid ++ [node.deltaId] := by
  have hinsert := nodesByAuthor_insert dag node node.authorDid
  by_cases hstored : node.deltaId ∈ dag.ids
  · rw [if_neg fun h => h.1 hstored] at hinsert
    rw [hinsert] at hmem ⊢
    rw [if_pos hmem]
  · have hnew : node.deltaId ∉ dag.nodesByAuthor node.authorDid := by
      intro hin
      obtain ⟨r, hr, hid⟩ := List.mem_map.mp hin
      exact hstored (List.mem_map.mpr ⟨r, List.mem_of_mem_filter hr, hid⟩)
    rw [hinsert, if_pos ⟨hstored, rfl⟩, if_neg hnew]

theorem sameRows_compactAfterWrite (lib : EngineLibraries) (e : CrdtEngine) (table : String)
    (fault : Option CompactionFault) :
    SameRows e.dag (e.compactAfterWrite lib table fault).2.dag := by
  refine ⟨sameLogs_compactAfterWrite lib e table fault, fun did => ?_⟩
  unfold compactAfterWrite maybeCompact
  split_ifs
  · cases fault with
    | none =>
      exact nodesByAuthor_map (f := fun r => { r with compacted := true })
        (fun _ => rfl) (fun _ => rfl) did
    | some f =>
      cases f with
      | markNodes => rfl
      | updateDocs actor =>
        simp only [compactTable]
        split <;> rfl
  · rfl

section Engine
variable (lib : EngineLibraries)

/-- The value is put into the document, and a Delta without tags is signed over it. -/
def writeEngine (build : Build) (compact : CrdtEngine → CrdtEngine) (e : CrdtEngine)
    (table key : String) (data : JsonValue) (env : ProduceEnvironment) :
    Except TirBaseError Delta × CrdtEngine :=
  let written := e.writeScalar lib table key data
  match written.1 with
  | .error err => (.error err, written.2)
  | .ok automergeBytes =>
    (compact written.2).produceDeltaWithTags lib build automergeBytes .low [] [] env

variable {lib} {e e' : CrdtEngine} {compact : CrdtEngine → CrdtEngine}

theorem agrees_of_dag (h : EngineAgrees e e') (dag : ChangesetDag) :
    EngineAgrees { e with dag := dag } e' :=
  ⟨h.doc, h.lamport, h.knownSchemaHash, h.knownSchemas, h.schemaDefinitions, h.revokedDids⟩

variable (lib) in
theorem agrees_writeScalar (h : EngineAgrees e e') (table key : String) (data : JsonValue) :
    (e.writeScalar lib table key data).1 = (e'.writeScalar lib table key data).1 ∧
      EngineAgrees (e.writeScalar lib table key data).2 (e'.writeScalar lib table key data).2 := by
  have hsaved : savedDocument lib.json e table key data =
      savedDocument lib.json e' table key data := by
    simp only [savedDocument, h.doc]
  unfold writeScalar
  rw [hsaved]
  exact ⟨rfl, rfl, h.lamport, h.knownSchemaHash, h.knownSchemas, h.schemaDefinitions,
    h.revokedDids⟩

theorem agrees_produce (h : EngineAgrees e e') (bytes : Bytes)
    (env env' : ProduceEnvironment) :
    EngineAgrees (e.produceDeltaWithTags lib .native bytes .low [] [] env).2
      (e'.produceDeltaWithTags lib .wasm bytes .low [] [] env').2 := by
  have hclock : EngineAgrees { e with lamport := e.lamport + 1 }
      { e' with lamport := e'.lamport + 1 } :=
    ⟨h.doc, by rw [h.lamport], h.knownSchemaHash, h.knownSchemas, h.schemaDefinitions, h.revokedDids⟩
  have hwasm : (e'.produceDeltaWithTags lib .wasm bytes .low [] [] env').2 =
      { e' with lamport := e'.lamport + 1 } := by
    rcases EngineRuns.produceDeltaWithTags_cases .wasm e' bytes .low [] [] env' with
      ⟨err, hproduce⟩ | ⟨parents, hproduce⟩ <;> rw [hproduce]
  rw [hwasm]
  rcases EngineRuns.produceDeltaWithTags_cases .native e bytes .low [] [] env with
    ⟨err, hproduce⟩ | ⟨parents, hproduce⟩
  · rw [hproduce]
    exact hclock
  · rw [hproduce]
    exact agrees_of_dag hclock _

/-- The two engines stay alike when the native compaction leaves the document alone. -/
theorem agrees_writeEngine (h : EngineAgrees e e')
    (hcompact : ∀ e, ∃ dag, compact e = { e with dag := dag }) (table key : String)
    (data : JsonValue) (env env' : ProduceEnvironment) :
    EngineAgrees (writeEngine lib .native compact e table key data env).2
      (writeEngine lib .wasm id e' table key data env').2 := by
  obtain ⟨hout, hwritten⟩ := agrees_writeScalar lib h table key data
  unfold writeEngine
  dsimp only
  rw [hout]
  cases (e'.writeScalar lib table key data).1 with
  | error err => exact hwritten
  | ok bytes =>
    obtain ⟨dag, hdag⟩ := hcompact (e.writeScalar lib table key data).2
    dsimp only
    rw [hdag]
    exact agrees_produce (agrees_of_dag hwritten dag) bytes env env'

/-- The engine keeps its rows, and stores the Delta that it made under its own name. -/
theorem writeEngine_cases (hcompact : ∀ e, SameRows e.dag (compact e).dag ∧
      (compact e).authorDid = e.authorDid) (e : CrdtEngine) (table key : String)
    (data : JsonValue) (env : ProduceEnvironment) :
    let out := writeEngine lib .native compact e table key data env
    out.2.authorDid = e.authorDid ∧
      ((∃ err, out.1 = .error err ∧ SameRows e.dag out.2.dag) ∨
        ∃ δ dag₁ node, out.1 = .ok δ ∧ SameRows e.dag dag₁ ∧ node.deltaId = δ.id ∧
          node.authorDid = e.authorDid ∧ out.2.dag = dag₁.insert node) := by
  obtain ⟨doc, hwritten⟩ := writeScalar_engine lib e table key data
  unfold writeEngine
  dsimp only
  cases (e.writeScalar lib table key data).1 with
  | error err =>
    dsimp only
    rw [hwritten]
    exact ⟨rfl, .inl ⟨err, rfl, .refl e.dag⟩⟩
  | ok bytes =>
    dsimp only
    obtain ⟨hrows, hauthor⟩ := hcompact (e.writeScalar lib table key data).2
    rw [hwritten] at hrows hauthor ⊢
    rcases EngineRuns.produceDeltaWithTags_cases .native (compact { e with doc := doc }) bytes .low []
      [] env with ⟨err, hproduce⟩ | ⟨parents, hproduce⟩
    · rw [hproduce]
      exact ⟨hauthor, .inl ⟨err, rfl, hrows⟩⟩
    · rw [hproduce]
      exact ⟨hauthor, .inr ⟨_, _, _, rfl, hrows, rfl, hauthor, rfl⟩⟩

end Engine

section Write
variable (lib : CoreLibraries)

/-- No mutex and no statement keeps a row from the store. -/
def stores (h : CoreHandle) (table key : String) (data : JsonValue) (env : WriteEnvironment) :
    Bool :=
  !env.poisoned .capability && !env.poisoned .store &&
    (h.store.write lib.store env.storeFault table key data).1.isOk

def wasmStores (env : WasmWriteEnvironment) : Bool :=
  !env.poisoned .capability && !env.poisoned .store && env.storeFault.isNone

def written (h : CoreHandle) (table key : String) (data : JsonValue) (env : WriteEnvironment) :
    Option Delta × CrdtEngine :=
  if h.capability.ensureLocalTrustAllowsIo.isOk && stores lib h table key data env &&
      !env.poisoned .crdt then
    let out := writeEngine lib.toEngineLibraries .native
      (fun e => (e.compactAfterWrite lib.toEngineLibraries table env.compaction).2) h.crdt table key
      data env.produce
    (out.1.toOption, out.2)
  else (none, h.crdt)

def wasmWritten (h : WasmCoreHandle) (table key : String) (data : JsonValue)
    (env : WasmWriteEnvironment) : Option Delta × CrdtEngine :=
  if h.capability.ensureLocalTrustAllowsIo.isOk && wasmStores env && !env.poisoned .crdt then
    let out := writeEngine lib.toEngineLibraries .wasm id h.crdt table key data env.produce
    (out.1.toOption, out.2)
  else (none, h.crdt)

theorem commitWrite_eq (h : CoreHandle) (table : String) (δ : Delta) (compacted : Bool)
    (env : WriteEnvironment) : ∃ durability migration transport,
      (h.commitWrite lib table δ compacted env).2 =
        { h with durability := durability, migration := migration, transport := transport } := by
  have hregister : ∃ durability, (h.registerWrite lib δ compacted env).2 =
      { h with durability := durability } := by
    unfold registerWrite
    by_cases hmutex : env.poisoned .durability = true
    · rw [if_pos hmutex]
      exact ⟨h.durability, rfl⟩
    · rw [if_neg hmutex]
      dsimp only
      split <;> exact ⟨_, rfl⟩
  obtain ⟨durability, hregister⟩ := hregister
  unfold commitWrite
  dsimp only
  split
  · exact ⟨durability, h.migration, h.transport, hregister⟩
  · rw [hregister]
    unfold publishWrite captureWrite
    split_ifs <;> exact ⟨durability, _, _, rfl⟩

theorem wasm_commitWrite_eq (h : WasmCoreHandle) (table : String) (δ : Delta) (compacted : Bool)
    (env : WasmWriteEnvironment) : ∃ durability migration,
      (h.commitWrite lib table δ compacted env).2 =
        { h with durability := durability, migration := migration } := by
  have hregister : ∃ durability, (h.registerWrite lib δ compacted env).2 =
      { h with durability := durability } := by
    unfold WasmCoreHandle.registerWrite
    by_cases hmutex : env.poisoned .durability = true
    · rw [if_pos hmutex]
      exact ⟨h.durability, rfl⟩
    · rw [if_neg hmutex]
      dsimp only
      split <;> exact ⟨_, rfl⟩
  obtain ⟨durability, hregister⟩ := hregister
  unfold WasmCoreHandle.commitWrite
  dsimp only
  split
  · exact ⟨durability, h.migration, hregister⟩
  · rw [hregister]
    unfold WasmCoreHandle.captureWrite
    split_ifs <;> exact ⟨durability, _, rfl⟩

variable {lib}

variable (lib) in
theorem producing_isSome (h : CoreHandle) (table key : String) (data : JsonValue)
    (env : WriteEnvironment) : (WrittenDeltas.producing lib h table key data env).isSome =
      (h.capability.ensureLocalTrustAllowsIo.isOk && stores lib h table key data env) := by
  unfold WrittenDeltas.producing stores
  cases env.poisoned .capability with
  | true => simp
  | false =>
    cases h.capability.ensureLocalTrustAllowsIo with
    | error e => rfl
    | ok u =>
      cases env.poisoned .store with
      | true => simp
      | false =>
        simp only [Bool.false_eq_true, if_false]
        cases (h.store.write lib.store env.storeFault table key data).1 <;> rfl

variable (lib) in
/-- Without a reaction a write changes the engine as its Delta does, and nothing that is tainted or
revoked. -/
theorem write_of_no_reaction {h : CoreHandle} {table key : String} (data : JsonValue)
    {env : WriteEnvironment} (hnone : h.humanReactionIncident table key env = none) :
    WrittenDeltas.writtenDelta lib h table key data env = (written lib h table key data env).1 ∧
      ∃ store durability migration transport, (h.write lib table key data env).2 =
        { h with
          store := store
          crdt := (written lib h table key data env).2
          durability := durability, migration := migration, transport := transport } := by
  have hsome := producing_isSome lib h table key data env
  unfold WrittenDeltas.writtenDelta written
  rcases WrittenDeltas.producing_cases lib h table key data env with
    ⟨hproducing, err, store, hwrite⟩ | ⟨store, hproducing, hwrite⟩
  · rw [hproducing] at hsome
    rw [← hsome, hproducing, hwrite]
    exact ⟨rfl, store, _, _, _, rfl⟩
  · rw [hproducing] at hsome
    rw [← hsome, hproducing, hwrite]
    have hincident : ({ h with store := store } : CoreHandle).humanReactionIncident table key env =
        none := hnone
    cases hpoisoned : env.poisoned .crdt with
    | true =>
      have hproduce : ({ h with store := store } : CoreHandle).produceWrite lib table key data env =
          (.error (poisonError "crdt"), { h with store := store }) := by
        simp only [produceWrite, hpoisoned, if_true]
      rw [publishRow_of_error hproduce, Option.bind_some, hproduce]
      exact ⟨rfl, store, _, _, _, rfl⟩
    | false =>
      obtain ⟨compacted, hproduce⟩ : ∃ compacted,
          ({ h with store := store } : CoreHandle).produceWrite lib table key data env =
            let out := writeEngine lib.toEngineLibraries .native
              (fun e => (e.compactAfterWrite lib.toEngineLibraries table env.compaction).2) h.crdt
              table key data env.produce
            (out.1.map fun δ => (δ, compacted), { h with store := store, crdt := out.2 }) := by
        simp only [produceWrite, hpoisoned, hincident, writeEngine, Option.toList_none, List.map_nil]
        cases (h.crdt.writeScalar lib.toEngineLibraries table key data).1 with
        | error err => exact ⟨false, rfl⟩
        | ok bytes => exact ⟨_, rfl⟩
      dsimp only at hproduce
      generalize writeEngine lib.toEngineLibraries .native
        (fun e => (e.compactAfterWrite lib.toEngineLibraries table env.compaction).2) h.crdt table
        key data env.produce = out at hproduce ⊢
      obtain ⟨result, e'⟩ := out
      cases result with
      | error err =>
        rw [publishRow_of_error hproduce, Option.bind_some, hproduce]
        exact ⟨rfl, store, _, _, _, rfl⟩
      | ok δ =>
        rw [publishRow_of_ok hproduce, Option.bind_some, hproduce, hincident]
        obtain ⟨durability, migration, transport, hcommit⟩ := commitWrite_eq lib
          { h with store := store, crdt := e' } table δ compacted env
        exact ⟨rfl, store, durability, migration, transport, hcommit⟩

variable (lib) in
def recordedWrite (h : WasmCoreHandle) (table key : String) (data : JsonValue)
    (env : WasmWriteEnvironment) : Option DeltaId :=
  if env.revocationPoisoned then none else (h.writtenDelta lib table key data env).map Delta.id

variable (lib) in
theorem wasm_producing_cases (h : WasmCoreHandle) (table key : String) (data : JsonValue)
    (env : WasmWriteEnvironment) :
    (h.producing table key data env = none ∧
        (h.capability.ensureLocalTrustAllowsIo.isOk && wasmStores env) = false ∧
        ∃ err, h.write lib table key data env = (.error err, h)) ∨
      h.producing table key data env = some { h with tables := h.tables.insert (table, key) data } ∧
        (h.capability.ensureLocalTrustAllowsIo.isOk && wasmStores env) = true ∧
        h.write lib table key data env =
          ({ h with tables := h.tables.insert (table, key) data } : WasmCoreHandle).publishRow lib
            table key data env := by
  unfold WasmCoreHandle.producing WasmCoreHandle.write wasmStores
  cases env.poisoned .capability with
  | true => exact .inl ⟨by simp, by simp, _, by simp; rfl⟩
  | false =>
    cases h.capability.ensureLocalTrustAllowsIo with
    | error e => exact .inl ⟨rfl, rfl, e, rfl⟩
    | ok u =>
      cases env.poisoned .store with
      | true => exact .inl ⟨by simp, by simp, _, by simp; rfl⟩
      | false =>
        cases env.storeFault with
        | some e => exact .inl ⟨by simp, by simp, e, by simp⟩
        | none => exact .inr ⟨by simp, by simp [Except.isOk, Except.toBool], by simp⟩

variable (lib) in
/-- The same in the WASM build, where the identifier is noted. -/
theorem wasm_write_of_no_reaction {h : WasmCoreHandle} {table key : String} (data : JsonValue)
    {env : WasmWriteEnvironment} (hnone : h.humanReactionIncident table key env = none) :
    h.writtenDelta lib table key data env = (wasmWritten lib h table key data env).1 ∧
      ∃ tables deltaIndex durability migration, (h.write lib table key data env).2 =
        { h with
          tables := tables, deltaIndex := deltaIndex
          crdt := (wasmWritten lib h table key data env).2
          revocation := (recordedWrite lib h table key data env).elim h.revocation
            (h.revocation.recordAuthoredDelta h.identity.did)
          durability := durability, migration := migration } := by
  unfold recordedWrite WasmCoreHandle.writtenDelta wasmWritten
  rcases wasm_producing_cases lib h table key data env with
    ⟨hproducing, hstores, err, hwrite⟩ | ⟨hproducing, hstores, hwrite⟩
  · rw [hstores, hproducing, hwrite]
    refine ⟨rfl, h.tables, h.deltaIndex, h.durability, h.migration, ?_⟩
    cases env.revocationPoisoned <;> rfl
  · rw [hstores, hproducing, hwrite]
    generalize h.tables.insert (table, key) data = tables
    have hincident : ({ h with tables := tables } : WasmCoreHandle).humanReactionIncident table key
        env = none := hnone
    cases hpoisoned : env.poisoned .crdt with
    | true =>
      have hproduce : ({ h with tables := tables } : WasmCoreHandle).produceWrite lib table key data
          env = (.error (poisonError "crdt"), { h with tables := tables }) := by
        simp only [WasmCoreHandle.produceWrite, hpoisoned, if_true]
      simp only [WasmCoreHandle.publishRow, Option.bind_some, hproduce]
      refine ⟨rfl, tables, h.deltaIndex, h.durability, h.migration, ?_⟩
      cases env.revocationPoisoned <;> rfl
    | false =>
      obtain ⟨compacted, hproduce⟩ : ∃ compacted,
          ({ h with tables := tables } : WasmCoreHandle).produceWrite lib table key data env =
            let out := writeEngine lib.toEngineLibraries .wasm id h.crdt table key data env.produce
            (out.1.map fun δ => (δ, compacted), { h with tables := tables, crdt := out.2 }) := by
        simp only [WasmCoreHandle.produceWrite, hpoisoned, hincident, writeEngine,
          Option.toList_none, List.map_nil]
        cases (h.crdt.writeScalar lib.toEngineLibraries table key data).1 with
        | error err => exact ⟨false, rfl⟩
        | ok bytes => exact ⟨_, rfl⟩
      dsimp only at hproduce
      generalize writeEngine lib.toEngineLibraries .wasm id h.crdt table key data env.produce = out
        at hproduce ⊢
      obtain ⟨result, e'⟩ := out
      simp only [WasmCoreHandle.publishRow, Option.bind_some, hproduce]
      cases result with
      | error err =>
        refine ⟨rfl, tables, h.deltaIndex, h.durability, h.migration, ?_⟩
        cases env.revocationPoisoned <;> rfl
      | ok δ =>
        simp only [Except.map, hincident, WasmCoreHandle.tagReaction, Except.toOption]
        let recorded := ({ h with tables := tables, crdt := e' } : WasmCoreHandle).recordWrite δ.id
          table key env
        obtain ⟨durability, migration, hcommit⟩ :=
          wasm_commitWrite_eq lib recorded table δ compacted env
        refine ⟨rfl, tables, recorded.deltaIndex, durability, migration, hcommit.trans ?_⟩
        simp only [recorded, WasmCoreHandle.recordWrite]
        cases env.revocationPoisoned <;> rfl

end Write

end TirBase.WriteAgreement
