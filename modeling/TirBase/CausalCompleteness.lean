import TirBase.MergeConvergence

/-! # Causal completeness of produced Deltas

A Delta is produced as a child of the DAG's tips. The tips come from a topological sort that
never reaches a Delta with an ancestor that is not stored, and the WASM engine has no tips. -/
namespace TirBase.CausalCompleteness
open CrdtEngine MergeConvergence TransitionRuns

inductive Origin
  | produced | merged
  deriving DecidableEq

/-- The engine with the Deltas it produced and merged so far, oldest first. -/
structure EngineRun where
  engine : CrdtEngine
  history : List (Origin × Delta)

inductive Operation
  | produce (bytes : Bytes) (priority : PriorityClass) (env : ProduceEnvironment)
  | receive (arrival : Arrival)

def held (h : List (Origin × Delta)) : List Delta := h.map Prod.snd

/-- `a` is an ancestor of `b` along the causal parents of the held Deltas. -/
def Ancestor (held : List Delta) (a b : DeltaId) : Prop :=
  Relation.TransGen (fun p c => ∃ δ ∈ held, δ.id = c ∧ p ∈ δ.causalParents) a b

/-- Everything the engine held before it produced a Delta is an ancestor of that Delta. -/
def CausallyComplete (h : List (Origin × Delta)) : Prop :=
  ∀ earlier δ later, h = earlier ++ (.produced, δ) :: later →
    ∀ x ∈ held earlier, Ancestor (held h) x.id δ.id

def step (lib : EngineLibraries) (build : Build) (s : EngineRun) : Operation → EngineRun
  | .produce bytes priority env =>
    match produceDelta lib build s.engine bytes priority [] env with
    | (.ok δ, e) => ⟨e, s.history ++ [(.produced, δ)]⟩
    | (.error _, e) => ⟨e, s.history⟩
  | .receive a =>
    match apply lib build s.engine a.delta a.now a.fault with
    | (.ok (.merged _), e) => ⟨e, s.history ++ [(.merged, a.delta)]⟩
    | (_, e) => ⟨e, s.history⟩

/-- When a Delta is produced, every held Delta has all its ancestors held and none is its own
ancestor; the WASM engine holds nothing yet. -/
def Complete (build : Build) (s : EngineRun) : Operation → Prop
  | .produce _ _ _ =>
    match build with
    | .native => ∀ id ∈ s.engine.dag.ids, s.engine.dag.Grounded id
    | .wasm => s.history = []
  | .receive _ => True

def start (secretKey publicKey : KeyBytes) (did : Did) (schema : SchemaIdentifierHash) :
    EngineRun := ⟨CrdtEngine.new secretKey publicKey did schema .empty, []⟩

structure Records (dag : ChangesetDag) (held : List Delta) : Prop where
  wellFormed : dag.WellFormed
  ids : ∀ id, id ∈ dag.ids ↔ ∃ δ ∈ held, δ.id = id
  edges : ∀ p c, (p, c) ∈ dag.edges ↔ ∃ δ ∈ held, δ.id = c ∧ p ∈ δ.causalParents

theorem records_empty : Records .empty [] :=
  ⟨ChangesetDag.wellFormed_empty, by simp [ChangesetDag.ids, ChangesetDag.empty],
    by simp [ChangesetDag.empty]⟩

theorem Records.insert {dag : ChangesetDag} {deltas : List Delta} (h : Records dag deltas)
    {node : DagNode} {δ : Delta} (hid : node.deltaId = δ.id)
    (hparents : node.parentIds = δ.causalParents) :
    Records (dag.insert node) (deltas ++ [δ]) := by
  refine ⟨h.wellFormed.insert node, fun id => ?_, fun p c => ?_⟩
  · rw [ChangesetDag.mem_ids_insert, h.ids, hid]
    simp only [List.mem_append, List.mem_singleton, or_and_right, exists_or, exists_eq_left]
    exact or_congr_right eq_comm
  · rw [ChangesetDag.mem_edges_insert, h.edges, hid, hparents]
    simp only [List.mem_append, List.mem_singleton, or_and_right, exists_or, exists_eq_left]
    exact or_congr_right (and_comm.trans (and_congr_left fun _ => eq_comm))

theorem Ancestor.mono {deltas deltas' : List Delta} (h : ∀ δ ∈ deltas, δ ∈ deltas')
    {a b : DeltaId} (hab : Ancestor deltas a b) : Ancestor deltas' a b :=
  Relation.TransGen.mono (fun _ _ ⟨δ, hδ, hid, hp⟩ => ⟨δ, h δ hδ, hid, hp⟩) _ _ hab

/-- When every stored Delta is grounded, each one leads to a tip. -/
theorem Records.exists_tip {e : CrdtEngine} {deltas : List Delta} (h : Records e.dag deltas)
    (hg : ∀ id ∈ e.dag.ids, e.dag.Grounded id) (hash : HashOrder) {δ : Delta} (hδ : δ ∈ deltas) :
    ∃ t ∈ e.dagTips hash, t = δ.id ∨ Ancestor deltas δ.id t := by
  have hkeys : ∀ id, id ∈ e.dag.graph.keys ↔ id ∈ e.dag.ids := fun id => h.wellFormed.mem_keys
  obtain ⟨t, ht, hpath, hsink⟩ := KahnSort.exists_sink (g := e.dag.graph) (v := δ.id)
    (fun v hv => hg v ((hkeys v).mp hv))
    (fun p c hpc => (hkeys c).mpr (h.wellFormed.childStored p c hpc))
    ((hkeys _).mpr ((h.ids _).mpr ⟨δ, hδ, rfl⟩))
  refine ⟨t, ?_, ?_⟩
  · simp only [dagTips, List.mem_filter, decide_eq_true_eq]
    refine ⟨(ChangesetDag.mem_topologicalSort hash).mpr (hg t ((hkeys t).mp ht)), ?_⟩
    rw [List.eq_nil_iff_forall_not_mem]
    exact fun c hc => hsink c (ChangesetDag.mem_children.mp hc)
  · rcases Relation.reflTransGen_iff_eq_or_transGen.mp hpath with heq | htrans
    · exact .inl heq
    · exact .inr (Relation.TransGen.mono (fun p c hpc => (h.edges p c).mp hpc) _ _ htrans)

/-- A history stays complete when a Delta is added, provided that all of it precedes the Delta
if the engine produced it. -/
theorem CausallyComplete.append {h : List (Origin × Delta)} (hc : CausallyComplete h)
    {origin : Origin} {δ : Delta}
    (hnew : origin = .produced → ∀ x ∈ held h, Ancestor (held (h ++ [(origin, δ)])) x.id δ.id) :
    CausallyComplete (h ++ [(origin, δ)]) := by
  intro earlier δ' later heq x hx
  have hmono : ∀ y ∈ held h, y ∈ held (h ++ [(origin, δ)]) := by simp [held]; tauto
  rcases List.eq_nil_or_concat later with rfl | ⟨later', last, rfl⟩
  · obtain ⟨rfl, hlast⟩ := List.append_inj' heq rfl
    simp only [List.cons.injEq, Prod.mk.injEq, and_true] at hlast
    obtain ⟨rfl, rfl⟩ := hlast
    exact hnew rfl x hx
  · rw [List.concat_eq_append, ← List.cons_append, ← List.append_assoc] at heq
    obtain ⟨rfl, -⟩ := List.append_inj' heq rfl
    exact (hc earlier δ' later' rfl x hx).mono hmono

structure RunInvariant (build : Build) (s : EngineRun) : Prop where
  records : build = .native → Records s.engine.dag (held s.history)
  complete : CausallyComplete s.history

theorem runInvariant_start (build : Build) (secretKey publicKey : KeyBytes) (did : Did)
    (schema : SchemaIdentifierHash) :
    RunInvariant build (start secretKey publicKey did schema) :=
  ⟨fun _ => records_empty, by
    intro earlier δ later h
    simp [start] at h⟩

variable {lib : EngineLibraries} {build : Build}

private theorem held_append (h : List (Origin × Delta)) (origin : Origin) (δ : Delta) :
    held (h ++ [(origin, δ)]) = held h ++ [δ] := by
  simp [held]

/-- The derived parents put every held Delta before the new one. -/
theorem ancestor_of_derivedParents {s : EngineRun} (hs : RunInvariant build s) {bytes : Bytes}
    {priority : PriorityClass} {env : ProduceEnvironment}
    (hcomplete : Complete build s (.produce bytes priority env)) {δ : Delta}
    (hparents : δ.causalParents = derivedParents build s.engine env.hash) :
    ∀ x ∈ held s.history, Ancestor (held s.history ++ [δ]) x.id δ.id := by
  intro x hx
  cases build with
  | wasm =>
    have hempty : s.history = [] := hcomplete
    simp [held, hempty] at hx
  | native =>
    obtain ⟨t, ht, hxt⟩ := (hs.records rfl).exists_tip hcomplete env.hash hx
    have hlast : Ancestor (held s.history ++ [δ]) t δ.id :=
      .single ⟨δ, by simp, rfl, by rw [hparents]; exact ht⟩
    rcases hxt with rfl | hxt
    · exact hlast
    · exact (hxt.mono (by simp +contextual)).trans hlast

theorem runInvariant_step {s : EngineRun} {op : Operation} (hcomplete : Complete build s op)
    (hs : RunInvariant build s) : RunInvariant build (step lib build s op) := by
  cases op with
  | produce bytes priority env =>
    rcases @produceDelta_cases lib build s.engine bytes priority env with
      ⟨err, hproduce⟩ | hproduce
    · simp only [step, hproduce]
      exact ⟨hs.records, hs.complete⟩
    · simp only [step, hproduce]
      refine ⟨fun hnative => ?_, hs.complete.append fun _ => ?_⟩
      · subst hnative
        rw [held_append]
        exact (hs.records rfl).insert rfl rfl
      · rw [held_append]
        exact ancestor_of_derivedParents hs hcomplete rfl
  | receive a =>
    by_cases hmerged : ∃ n, (apply lib build s.engine a.delta a.now a.fault).1 = .ok (.merged n)
    · obtain ⟨adopt, doc, -, -, hengine⟩ := apply_eq_merged hmerged
      obtain ⟨n, hn⟩ := hmerged
      have hstep : step lib build s (.receive a) =
          ⟨(apply lib build s.engine a.delta a.now a.fault).2,
            s.history ++ [(.merged, a.delta)]⟩ := by
        simp only [step]
        rw [← Prod.mk.eta (p := apply lib build s.engine a.delta a.now a.fault), hn]
      rw [hstep, hengine]
      refine ⟨fun hnative => ?_, hs.complete.append (by simp)⟩
      subst hnative
      rw [held_append]
      cases adopt <;> exact (hs.records rfl).insert rfl rfl
    · have hdag := @dag_apply_of_not_merged lib _ _ _ _ _ (not_exists.mp hmerged)
      have hstep : step lib build s (.receive a) =
          ⟨(apply lib build s.engine a.delta a.now a.fault).2, s.history⟩ := by
        simp only [step]
        split
        · rename_i n e heq
          exact absurd ⟨n, by rw [heq]⟩ hmerged
        · rename_i heq
          rw [heq]
      rw [hstep]
      exact ⟨fun hnative => by rw [hdag]; exact hs.records hnative, hs.complete⟩

/-- In a run that produces Deltas only while the held ones are causally complete, every Delta
produced descends from everything held before. -/
theorem causallyComplete_run (lib : EngineLibraries) (build : Build)
    (secretKey publicKey : KeyBytes) (did : Did) (schema : SchemaIdentifierHash)
    (ops : List Operation)
    (hguard : Guarded (step lib build) (Complete build)
      (start secretKey publicKey did schema) ops) :
    CausallyComplete
      (run (step lib build) (start secretKey publicKey did schema) ops).history :=
  (guarded_run (fun _ _ hg hs => runInvariant_step hg hs) hguard
    (runInvariant_start build secretKey publicKey did schema)).complete

theorem not_ancestor_of_no_parents {deltas : List Delta} {a b : DeltaId}
    (h : ∀ δ ∈ deltas, δ.id = b → δ.causalParents = []) : ¬ Ancestor deltas a b := by
  intro hab
  obtain ⟨p, -, δ, hδ, hid, hp⟩ := Relation.TransGen.tail'_iff.mp hab
  simp [h δ hδ hid] at hp

def peerDelta (id : DeltaId) (parents : List DeltaId) (lamport : UInt64) : Delta :=
  ⟨id, sampleDid₂, List.replicate 64 0, 0, [], .low, parents, [], lamport, 0⟩

def plainEnvironment : ProduceEnvironment := ⟨⟨fun l => l, fun _ => .refl _⟩, 0, none, none⟩

def sampleStart : EngineRun := start (sampleKey 1) (sampleKey 1) sampleDid₁ 0

def producedDelta (lamport : UInt64) : Delta :=
  ⟨BitVec.ofNat 256 lamport.toNat, sampleDid₁, List.replicate 64 0, 0, [], .low, [], [],
    lamport, 0⟩

/-- A merged Delta whose parent never arrives is no ancestor of the next Delta produced, and on
the WASM build no Delta is an ancestor of a later one. -/
theorem not_causallyComplete_orphan :
    ¬ CausallyComplete (run (step (sampleLibraries []) .native) sampleStart
      [.receive ⟨peerDelta 77 [76] 1, 0, none⟩, .produce [] .low plainEnvironment]).history ∧
    ¬ CausallyComplete (run (step (sampleLibraries []) .wasm) sampleStart
      [.produce [] .low plainEnvironment, .produce [] .low plainEnvironment]).history := by
  have hnative : (run (step (sampleLibraries []) .native) sampleStart
      [.receive ⟨peerDelta 77 [76] 1, 0, none⟩, .produce [] .low plainEnvironment]).history =
        [(.merged, peerDelta 77 [76] 1)] ++ (.produced, producedDelta 3) :: [] := by
    decide +kernel
  have hwasm : (run (step (sampleLibraries []) .wasm) sampleStart
      [.produce [] .low plainEnvironment, .produce [] .low plainEnvironment]).history =
        [(.produced, producedDelta 1)] ++ (.produced, producedDelta 2) :: [] := by
    decide +kernel
  refine ⟨fun hc => ?_, fun hc => ?_⟩
  · rw [hnative] at hc
    exact not_ancestor_of_no_parents (by decide +kernel)
      (hc _ _ _ rfl (peerDelta 77 [76] 1) (by simp [held]))
  · rw [hwasm] at hc
    exact not_ancestor_of_no_parents (by decide +kernel)
      (hc _ _ _ rfl (producedDelta 1) (by simp [held]))

def familyRun : EngineRun :=
  run (step (sampleLibraries []) .native) sampleStart
    [.receive ⟨peerDelta 76 [] 1, 0, none⟩, .receive ⟨peerDelta 77 [76] 2, 0, none⟩]

theorem familyRun_ids : familyRun.engine.dag.ids = [76, 77] := by decide +kernel

theorem familyRun_edges : familyRun.engine.dag.edges = [(76, 77)] := by decide +kernel

theorem familyRun_grounded :
    ∀ id ∈ familyRun.engine.dag.ids, familyRun.engine.dag.Grounded id := by
  have hgraph : familyRun.engine.dag.graph = ⟨[76, 77], [(76, 77)]⟩ := by
    simp [ChangesetDag.graph, familyRun_ids, familyRun_edges]
  have hparent : KahnSort.Grounded ⟨[76, 77], [(76, 77)]⟩ (76 : DeltaId) :=
    .intro (by decide) fun p hp => by simp at hp
  have hchild : KahnSort.Grounded ⟨[76, 77], [(76, 77)]⟩ (77 : DeltaId) :=
    .intro (by decide) fun p hp => by
      simp only [List.mem_singleton, Prod.mk.injEq, and_true] at hp
      exact hp ▸ hparent
  intro id hid
  rw [ChangesetDag.Grounded, hgraph]
  rw [familyRun_ids] at hid
  simp only [List.mem_cons, List.not_mem_nil, or_false] at hid
  rcases hid with rfl | rfl
  · exact hparent
  · exact hchild

theorem causallyComplete_run_family :
    CausallyComplete (run (step (sampleLibraries []) .native) sampleStart
      ([.receive ⟨peerDelta 76 [] 1, 0, none⟩, .receive ⟨peerDelta 77 [76] 2, 0, none⟩] ++
        [.produce [] .low plainEnvironment])).history :=
  causallyComplete_run (sampleLibraries []) .native _ _ _ _ _
    ((guarded_append _ _ _ _ _).mpr ⟨⟨trivial, trivial, trivial⟩, familyRun_grounded, trivial⟩)

end TirBase.CausalCompleteness
