import TirBase.ContaminationEngine
import TirBase.CrdtEngine
import TirBase.TransitionRuns

/-! # Runs of the CRDT engine

The operations that change an engine, each with what the environment decides during it. -/
namespace TirBase.EngineRuns
open Automerge CrdtEngine TransitionRuns

inductive EngineOperation
  | apply (δ : Delta) (now : ℤ) (fault : DagFault)
  | produceDeltaWithTags (automergeBytes : Bytes) (priority : PriorityClass)
      (causalParents : List DeltaId) (tags : List DeltaTag) (env : ProduceEnvironment)
  | writeScalar (table key : String) (value : JsonValue)
  | markDidRevoked (did : Did)
  | addKnownSchema (hash : SchemaIdentifierHash)
  | setCurrentSchema (hash : SchemaIdentifierHash)
  | registerSchemaDefinition (expectedHash computed : SchemaIdentifierHash) (schema : Schema)
  | maybeCompact (policy : CompactionPolicy) (fault : Option CompactionFault)

variable (lib : EngineLibraries) (build : Build)

def step (e : CrdtEngine) : EngineOperation → CrdtEngine
  | .apply δ now fault => (e.apply lib build δ now fault).2
  | .produceDeltaWithTags automergeBytes priority causalParents tags env =>
    (e.produceDeltaWithTags lib build automergeBytes priority causalParents tags env).2
  | .writeScalar table key value => (e.writeScalar lib table key value).2
  | .markDidRevoked did => e.markDidRevoked did
  | .addKnownSchema hash => e.addKnownSchema hash
  | .setCurrentSchema hash => e.setCurrentSchema hash
  | .registerSchemaDefinition expectedHash computed schema =>
    match e.registerSchemaDefinition expectedHash computed schema with
    | .ok e' => e'
    | .error _ => e
  | .maybeCompact policy fault => (e.maybeCompact lib policy fault).2

def admitted (e : CrdtEngine) : EngineOperation → Option Delta
  | .apply δ now fault =>
    match (e.apply lib build δ now fault).1 with
    | .ok (.merged _) => some δ
    | _ => none
  | .produceDeltaWithTags automergeBytes priority causalParents tags env =>
    (e.produceDeltaWithTags lib build automergeBytes priority causalParents tags env).1.toOption
  | _ => none

structure NodeOf (δ : Delta) (node : DagNode) : Prop where
  id : node.deltaId = δ.id
  payload : node.payload = δ.automergeBytes
  text : node.deltaBytes = some (lib.serialiseDelta δ)
  parents : node.parentIds = δ.causalParents
  author : node.authorDid = δ.authorDid
  lamport : node.lamport = δ.lamport

variable {lib build}

theorem nodeOf_dagNode (e : CrdtEngine) (δ : Delta) : NodeOf lib δ (dagNode lib e δ) :=
  ⟨rfl, rfl, rfl, rfl, rfl, rfl⟩

/-- Producing a Delta fails with the clock advanced, or the Delta is stored. -/
theorem produceDeltaWithTags_cases (build : Build) (e : CrdtEngine) (bytes : Bytes)
    (priority : PriorityClass) (causalParents : List DeltaId) (tags : List DeltaTag)
    (env : ProduceEnvironment) :
    let e₁ : CrdtEngine := { e with lamport := e.lamport + 1 }
    (∃ err, produceDeltaWithTags lib build e bytes priority causalParents tags env =
      (.error err, e₁)) ∨
    ∃ parents, produceDeltaWithTags lib build e bytes priority causalParents tags env =
      (.ok (signedDelta lib e₁ bytes priority parents tags env.now),
        match build with
        | .native => { e₁ with
            dag := e.dag.insert (dagNode lib e₁
              (signedDelta lib e₁ bytes priority parents tags env.now)) }
        | .wasm => e₁) := by
  intro e₁
  unfold produceDeltaWithTags
  dsimp only
  cases hparents : resolveCausalParents build { e with lamport := e.lamport + 1 } env.hash
      causalParents env.tipsFault with
  | error err => exact .inl ⟨err, rfl⟩
  | ok parents =>
    cases build with
    | wasm => exact .inr ⟨parents, rfl⟩
    | native =>
      cases hinsert : env.insertFault with
      | some err => exact .inl ⟨err, rfl⟩
      | none => exact .inr ⟨parents, rfl⟩

theorem doc_produceDeltaWithTags (e : CrdtEngine) (bytes : Bytes) (priority : PriorityClass)
    (causalParents : List DeltaId) (tags : List DeltaTag) (env : ProduceEnvironment) :
    (e.produceDeltaWithTags lib build bytes priority causalParents tags env).2.doc = e.doc := by
  rcases produceDeltaWithTags_cases build e bytes priority causalParents tags env with
    ⟨err, hproduce⟩ | ⟨parents, hproduce⟩
  · rw [hproduce]
  · rw [hproduce]
    cases build <;> rfl

theorem dag_step_of_admitted {e : CrdtEngine} {op : EngineOperation} {δ : Delta}
    (h : admitted lib .native e op = some δ) :
    ∃ node, NodeOf lib δ node ∧ (step lib .native e op).dag = e.dag.insert node := by
  cases op with
  | apply δ' now fault =>
    simp only [admitted] at h
    split at h
    · rename_i n hmerged
      cases h
      obtain ⟨adopt, doc, -, -, happly⟩ := apply_eq_merged ⟨n, hmerged⟩
      rw [step, happly]
      cases adopt with
      | true => exact ⟨_, ⟨rfl, rfl, rfl, rfl, rfl, rfl⟩, rfl⟩
      | false => exact ⟨_, ⟨rfl, rfl, rfl, rfl, rfl, rfl⟩, rfl⟩
    · cases h
  | produceDeltaWithTags bytes priority causalParents tags env =>
    rcases produceDeltaWithTags_cases .native e bytes priority causalParents tags env with
      ⟨err, hproduce⟩ | ⟨parents, hproduce⟩
    · rw [admitted, hproduce] at h
      cases h
    · rw [admitted, hproduce] at h
      cases h
      exact ⟨_, nodeOf_dagNode _ _, by rw [step, hproduce]⟩
  | _ => cases h

theorem dag_compactTable (e : CrdtEngine) (fault : Option CompactionFault) :
    e.dag.Retags (compactTable lib e fault).dag ∧ (compactTable lib e fault).dag.graph = e.dag.graph := by
  cases fault with
  | some f =>
    cases f with
    | markNodes => exact ⟨.refl _, rfl⟩
    | updateDocs actor =>
      simp only [compactTable]
      split <;> exact ⟨.refl _, rfl⟩
  | none =>
    have hrow : ∀ r : DagRow, r.Extends { r with compacted := true } :=
      fun r => ⟨rfl, rfl, rfl, rfl, rfl, rfl, List.prefix_rfl⟩
    refine ⟨⟨fun r hr => ⟨_, List.mem_map_of_mem hr, hrow r⟩, fun r' hr' => ?_⟩, ?_⟩
    · obtain ⟨r, hr, rfl⟩ := List.mem_map.mp hr'
      exact ⟨r, hr, hrow r⟩
    · simp only [ChangesetDag.graph, ChangesetDag.ids, compactTable, List.map_map]
      rfl

theorem dag_writeScalar (e : CrdtEngine) (table key : String) (value : JsonValue) :
    (e.writeScalar lib table key value).2.dag = e.dag := by
  obtain ⟨doc, hwrite⟩ := writeScalar_engine lib e table key value
  rw [hwrite]

/-- An operation that admits no Delta stores none, and the WASM build stores none at all. -/
theorem dag_step_of_not_stored {e : CrdtEngine} {op : EngineOperation}
    (h : build = .wasm ∨ admitted lib build e op = none) :
    e.dag.Retags (step lib build e op).dag ∧ (step lib build e op).dag.graph = e.dag.graph := by
  have hsame : ∀ e' : CrdtEngine, e'.dag = e.dag →
      e.dag.Retags e'.dag ∧ e'.dag.graph = e.dag.graph := by
    intro e' hdag
    rw [hdag]
    exact ⟨.refl _, rfl⟩
  cases op with
  | apply δ now fault =>
    refine hsame _ ?_
    by_cases hmerged : ∃ n, (e.apply lib build δ now fault).1 = .ok (.merged n)
    · rcases h with rfl | hnone
      · obtain ⟨adopt, doc, -, -, happly⟩ := apply_eq_merged hmerged
        rw [step, happly]
        cases adopt <;> rfl
      · obtain ⟨n, hmerged⟩ := hmerged
        rw [admitted, hmerged] at hnone
        cases hnone
    · exact dag_apply_of_not_merged fun n hn => hmerged ⟨n, hn⟩
  | produceDeltaWithTags bytes priority causalParents tags env =>
    rcases produceDeltaWithTags_cases build e bytes priority causalParents tags env with
      ⟨err, hproduce⟩ | ⟨parents, hproduce⟩
    · exact hsame _ (by rw [step, hproduce])
    · rcases h with rfl | hnone
      · exact hsame _ (by rw [step, hproduce])
      · rw [admitted, hproduce] at hnone
        cases hnone
  | writeScalar table key value => exact hsame _ (dag_writeScalar e table key value)
  | markDidRevoked did => exact hsame _ rfl
  | addKnownSchema hash => exact hsame _ rfl
  | setCurrentSchema hash => exact hsame _ rfl
  | registerSchemaDefinition expectedHash computed schema =>
    refine hsame _ ?_
    simp only [step, registerSchemaDefinition]
    split_ifs <;> rfl
  | maybeCompact policy fault =>
    simp only [step, maybeCompact]
    split_ifs
    · exact dag_compactTable e fault
    · exact hsame _ rfl

theorem identity_step (e : CrdtEngine) (op : EngineOperation) :
    (step lib build e op).authorDid = e.authorDid ∧
      (step lib build e op).secretKey = e.secretKey := by
  cases op with
  | apply δ now fault =>
    simp only [step, CrdtEngine.apply]
    split
    · exact ⟨rfl, rfl⟩
    · exact ⟨rfl, rfl⟩
    · rename_i adopt _
      split
      · cases adopt <;> exact ⟨rfl, rfl⟩
      · cases build with
        | wasm => cases adopt <;> exact ⟨rfl, rfl⟩
        | native => cases fault <;> cases adopt <;> exact ⟨rfl, rfl⟩
  | produceDeltaWithTags bytes priority causalParents tags env =>
    rcases produceDeltaWithTags_cases build e bytes priority causalParents tags env with
      ⟨err, hproduce⟩ | ⟨parents, hproduce⟩
    · rw [step, hproduce]
      exact ⟨rfl, rfl⟩
    · rw [step, hproduce]
      cases build <;> exact ⟨rfl, rfl⟩
  | writeScalar table key value =>
    obtain ⟨doc, hwrite⟩ := writeScalar_engine lib e table key value
    rw [step, hwrite]
    exact ⟨rfl, rfl⟩
  | registerSchemaDefinition expectedHash computed schema =>
    simp only [step, registerSchemaDefinition]
    split_ifs <;> exact ⟨rfl, rfl⟩
  | maybeCompact policy fault =>
    obtain ⟨doc, dag, hcompact⟩ := maybeCompact_engine lib e policy fault
    rw [step, hcompact]
    exact ⟨rfl, rfl⟩
  | _ => exact ⟨rfl, rfl⟩

theorem toNat_max (a b : UInt64) : (max a b).toNat = max a.toNat b.toNat := by
  have hmax : max a b = if a ≤ b then b else a := rfl
  rw [hmax]
  split_ifs with h
  · exact (max_eq_right (UInt64.le_iff_toNat_le.mp h)).symm
  · exact (max_eq_left (UInt64.le_iff_toNat_le.mp (UInt64.le_of_lt (UInt64.not_le.mp h)))).symm

theorem toNat_advanceLamport (e : CrdtEngine) (δ : Delta) : (e.advanceLamport δ).toNat =
    (max e.lamport.toNat δ.lamport.toNat + 1) % 2 ^ 64 := by
  rw [advanceLamport, UInt64.toNat_add, toNat_max]
  rfl

theorem apply_of_fault {e : CrdtEngine} {δ : Delta} {adopt : Bool} {doc : Document}
    (hgate : e.gate lib δ = .pass adopt) (hmerge : e.mergePayload lib δ = some doc) (now : ℤ)
    (err : TirBaseError) : e.apply lib .native δ now (some err) =
      (.error err, { mergedEngine .native lib e δ adopt doc with dag := e.dag }) := by
  have hmerge' : (if adopt then e.addKnownSchema δ.schemaHash else e).mergePayload lib δ =
      some doc := by
    cases adopt <;> exact hmerge
  simp only [CrdtEngine.apply, hgate, hmerge']
  cases adopt <;> rfl

theorem apply_of_stored {e : CrdtEngine} {δ : Delta} {adopt : Bool} {doc : Document}
    (hgate : e.gate lib δ = .pass adopt) (hmerge : e.mergePayload lib δ = some doc) (now : ℤ)
    {fault : DagFault} (hstored : build = .wasm ∨ fault = none) :
    e.apply lib build δ now fault =
      (.ok (.merged (e.advanceLamport δ)), mergedEngine build lib e δ adopt doc) := by
  rcases apply_of_pass hgate hmerge build now fault with ⟨err, hfault, hbuild, -⟩ | happly
  · rcases hstored with hwasm | hnone
    · rw [hbuild] at hwasm
      cases hwasm
    · rw [hfault] at hnone
      cases hnone
  · exact happly

end TirBase.EngineRuns
