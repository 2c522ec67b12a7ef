import TirBase.WasmChangesetDag

/-! # The two builds of the Changeset DAG

The native build ignores a node whose identifier is stored and adds its edges; the WASM build
replaces the node and appends its edges. -/
namespace TirBase
open BreadthFirst TransitionRuns

namespace ChangesetDag

/-- `UPDATE dag_nodes SET compacted = 1 WHERE id = ?1`. -/
def markCompacted (dag : ChangesetDag) (deltaId : DeltaId) : ChangesetDag :=
  { dag with nodes := dag.nodes.map fun r =>
      if r.id = deltaId then { r with compacted := true } else r }

variable {dag : ChangesetDag} {node : DagNode} {id other : DeltaId}

theorem get_eq_some (h : dag.ids.Nodup) {row : DagRow} :
    dag.get id = some row ↔ row ∈ dag.nodes ∧ row.id = id := by
  constructor
  · intro hget
    exact ⟨List.mem_of_find?_eq_some hget, by simpa using List.find?_some hget⟩
  · rintro ⟨hrow, hid⟩
    obtain ⟨row', hget⟩ : ∃ row', dag.get id = some row' := by
      cases hget : dag.get id with
      | some row' => exact ⟨row', rfl⟩
      | none =>
        have hnone := List.find?_eq_none.mp hget row hrow
        exact absurd hid (by simpa using hnone)
    have hrow' : row' ∈ dag.nodes := List.mem_of_find?_eq_some hget
    have hid' : row'.id = id := by simpa using List.find?_some hget
    have hsame : row' = row := List.inj_on_of_nodup_map h hrow' hrow (hid'.trans hid.symm)
    rw [hget, hsame]

theorem get_eq_none : dag.get id = none ↔ id ∉ dag.ids := by
  simp [get, ids]

theorem get_insert : (dag.insert node).get id =
    (dag.get id).or (if id = node.deltaId then some node.row else none) := by
  have hid : node.row.id = node.deltaId := rfl
  unfold get insert insertRow
  dsimp only
  split_ifs with hstored hsame hsame
  · obtain ⟨row, hrow, hrowId⟩ := List.mem_map.mp hstored
    have hsome : (dag.nodes.find? fun r => r.id = id).isSome := by
      rw [List.find?_isSome]
      exact ⟨row, hrow, by rw [hrowId, hid, hsame, decide_eq_true_eq]⟩
    obtain ⟨row', hrow'⟩ := Option.isSome_iff_exists.mp hsome
    rw [hrow', Option.some_or]
  · rw [Option.or_none]
  · rw [List.find?_append]
    congr 1
    rw [List.find?_singleton, hid, hsame, if_pos (decide_eq_true rfl)]
  · rw [List.find?_append]
    congr 1
    rw [List.find?_singleton, hid, if_neg]
    simpa using Ne.symm hsame

theorem get_markCompacted : (dag.markCompacted id).get other =
    (dag.get other).map fun r => if other = id then { r with compacted := true } else r := by
  have hids : ∀ r : DagRow, (if r.id = id then { r with compacted := true } else r).id = r.id := by
    intro r
    split_ifs <;> rfl
  unfold get markCompacted
  dsimp only
  rw [List.find?_map]
  simp only [Function.comp_def, hids]
  cases hfind : dag.nodes.find? fun r => decide (r.id = other) with
  | none => rfl
  | some row =>
    have hid : row.id = other := by simpa using List.find?_some hfind
    rw [Option.map_some, Option.map_some, hid]

@[simp] theorem graph_markCompacted : (dag.markCompacted id).graph = dag.graph := by
  have hids : ∀ r : DagRow, (if r.id = id then { r with compacted := true } else r).id = r.id := by
    intro r
    split_ifs <;> rfl
  simp only [graph, ids, markCompacted, List.map_map]
  congr 1
  exact List.map_congr_left fun r _ => hids r

theorem mem_parents {p c : DeltaId} : p ∈ dag.parents c ↔ (p, c) ∈ dag.edges := by
  simp [parents]

theorem WellFormed.nodup_children (h : dag.WellFormed) (id : DeltaId) :
    (dag.children id).Nodup := by
  refine List.Nodup.map_on ?_ (h.edgesNodup.filter _)
  intro e he e' he' hchild
  have hparent : e.1 = e'.1 := by
    rw [of_decide_eq_true (List.mem_filter.mp he).2, of_decide_eq_true (List.mem_filter.mp he').2]
  exact Prod.ext hparent hchild

theorem WellFormed.nodup_parents (h : dag.WellFormed) (id : DeltaId) : (dag.parents id).Nodup := by
  refine List.Nodup.map_on ?_ (h.edgesNodup.filter _)
  intro e he e' he' hparent
  have hchild : e.2 = e'.2 := by
    rw [of_decide_eq_true (List.mem_filter.mp he).2, of_decide_eq_true (List.mem_filter.mp he').2]
  exact Prod.ext hparent hchild

end ChangesetDag

namespace DagAgreement

structure SameSet {Element : Type*} (l l' : List Element) : Prop where
  nodup : l.Nodup
  nodup' : l'.Nodup
  same : ∀ x, x ∈ l ↔ x ∈ l'

/-- The two builds hold the same nodes, column by column, and answer every query with the same set. -/
structure Agree (dag : ChangesetDag) (wasm : WasmChangesetDag) : Prop where
  nodes : ∀ id, dag.get id = (wasm.get id).map DagNode.row
  children : ∀ id, SameSet (dag.children id) (wasm.children id)
  parents : ∀ id, SameSet (dag.parents id) (wasm.parents id)
  descendants : ∀ id, SameSet (dag.bfsDescendants id) (wasm.bfsDescendants id)
  byAuthor : ∀ did, SameSet (dag.nodesByAuthor did) (wasm.nodesByAuthor did)
  bySchemaHash : ∀ hash, SameSet (dag.nodesBySchemaHash hash) (wasm.nodesBySchemaHash hash)

inductive DagOperation
  | insert (node : DagNode)
  | markCompacted (deltaId : DeltaId)
  deriving DecidableEq

def step (s : ChangesetDag × WasmChangesetDag) : DagOperation → ChangesetDag × WasmChangesetDag
  | .insert node => (s.1.insert node, s.2.insert node)
  | .markCompacted deltaId => (s.1.markCompacted deltaId, s.2.markCompacted deltaId)

def AgreesAfter (s : ChangesetDag × WasmChangesetDag) (op : DagOperation) : Prop :=
  Agree (step s op).1 (step s op).2

/-- The parents are distinct, and a stored node has none and is inserted as it is stored. -/
def Harmless (s : ChangesetDag × WasmChangesetDag) : DagOperation → Prop
  | .insert node => node.parentIds.Nodup ∧
      ∀ row, s.1.get node.deltaId = some row → s.1.parents node.deltaId = [] ∧ row = node.row
  | .markCompacted _ => True

structure Keyed (s : ChangesetDag × WasmChangesetDag) : Prop where
  wellFormed : s.1.WellFormed
  idsNodup : s.1.ids.Nodup

variable {dag : ChangesetDag} {wasm : WasmChangesetDag} {s : ChangesetDag × WasmChangesetDag}
  {op : DagOperation}

theorem wasm_deltaId (h : ∀ id, dag.get id = (wasm.get id).map DagNode.row) {id : DeltaId}
    {node : DagNode} (hnode : wasm.get id = some node) : node.deltaId = id := by
  have hget : dag.get id = some node.row := by rw [h, hnode, Option.map_some]
  have hid : node.row.id = id := by simpa using List.find?_some hget
  exact hid

theorem wasm_mem_entries {id : DeltaId} {node : DagNode} :
    ⟨id, node⟩ ∈ wasm.nodes.entries ↔ wasm.get id = some node :=
  AList.mem_lookup_iff.symm

/-- A query for a column selects the same nodes on both sides. -/
theorem sameSet_select (hids : dag.ids.Nodup)
    (hnodes : ∀ id, dag.get id = (wasm.get id).map DagNode.row) (p : DagRow → Bool) :
    SameSet ((dag.nodes.filter p).map DagRow.id)
      ((wasm.nodes.entries.filter fun e => p e.2.row).map fun e => e.2.deltaId) := by
  have hkey : ∀ e ∈ wasm.nodes.entries, e.2.deltaId = e.1 :=
    fun e he => wasm_deltaId hnodes (wasm_mem_entries.mp he)
  refine ⟨hids.sublist (List.filter_sublist.map _), ?_, fun id => ?_⟩
  · have hkeys : (wasm.nodes.entries.map Sigma.fst).Nodup := wasm.nodes.nodupKeys
    have hsame : (wasm.nodes.entries.filter fun e => p e.2.row).map (fun e => e.2.deltaId) =
        (wasm.nodes.entries.filter fun e => p e.2.row).map Sigma.fst :=
      List.map_congr_left fun e he => hkey e (List.mem_of_mem_filter he)
    rw [hsame]
    exact hkeys.sublist (List.filter_sublist.map _)
  · constructor
    · intro hmem
      obtain ⟨row, hrow, rfl⟩ := List.mem_map.mp hmem
      obtain ⟨hrow, hp⟩ := List.mem_filter.mp hrow
      have hget : dag.get row.id = some row := (ChangesetDag.get_eq_some hids).mpr ⟨hrow, rfl⟩
      rw [hnodes, Option.map_eq_some_iff] at hget
      obtain ⟨node, hnode, hnodeRow⟩ := hget
      have hentry : (⟨row.id, node⟩ : Sigma fun _ => DagNode) ∈ wasm.nodes.entries :=
        wasm_mem_entries.mpr hnode
      exact List.mem_map.mpr ⟨_, List.mem_filter.mpr ⟨hentry, by rw [hnodeRow, hp]⟩, hkey _ hentry⟩
    · intro hmem
      obtain ⟨e, he, rfl⟩ := List.mem_map.mp hmem
      obtain ⟨he, hp⟩ := List.mem_filter.mp he
      have hget : dag.get e.1 = some e.2.row := by
        rw [hnodes, wasm_mem_entries.mp he, Option.map_some]
      obtain ⟨hrow, -⟩ := (ChangesetDag.get_eq_some hids).mp hget
      exact List.mem_map.mpr ⟨_, List.mem_filter.mpr ⟨hrow, hp⟩, rfl⟩

theorem reaches_congr {Vertex : Type*} {successors successors' : Vertex → List Vertex}
    (h : ∀ v w, w ∈ successors v ↔ w ∈ successors' v) {v w : Vertex} :
    Reaches successors v w ↔ Reaches successors' v w := by
  have hrel : (fun v w => w ∈ successors v) = fun v w => w ∈ successors' v := by
    funext v w
    exact propext (h v w)
  rw [Reaches, hrel, Reaches]

theorem wasm_mem_bfsDescendants_iff {id other : DeltaId} :
    other ∈ wasm.bfsDescendants id ↔ Reaches wasm.children id other := by
  have hkeys : ∀ v, wasm.children v ≠ [] → v ∈ wasm.childrenMap.keys.toFinset := by
    intro v hv
    rw [List.mem_toFinset, ← AList.mem_keys, ← AList.lookup_isSome]
    cases hlookup : wasm.childrenMap.lookup v with
    | some children => rfl
    | none =>
      unfold WasmChangesetDag.children at hv
      rw [hlookup] at hv
      exact absurd rfl hv
  refine mem_walk_iff hkeys ?_
  have hentries : (wasm.childrenMap.keys.map fun v => (wasm.children v).length) =
      wasm.childrenMap.entries.map fun e => e.2.length := by
    unfold AList.keys List.keys
    rw [List.map_map]
    refine List.map_congr_left fun e he => ?_
    have hlookup : wasm.childrenMap.lookup e.1 = some e.2 :=
      AList.mem_lookup_iff.mpr he
    simp only [Function.comp_apply, WasmChangesetDag.children, hlookup, Option.getD_some]
  rw [List.sum_toFinset _ wasm.childrenMap.keys_nodup, hentries]
  omega

/-- Agreement comes down to the nodes and the two ends of the edges. -/
theorem agree_of_tables (hkeyed : Keyed (dag, wasm))
    (hnodes : ∀ id, dag.get id = (wasm.get id).map DagNode.row)
    (hchildren : ∀ id, SameSet (dag.children id) (wasm.children id))
    (hparents : ∀ id, SameSet (dag.parents id) (wasm.parents id)) : Agree dag wasm := by
  refine ⟨hnodes, hchildren, hparents, fun id => ?_, fun did => ?_, fun hash => ?_⟩
  · refine ⟨ChangesetDag.nodup_bfsDescendants, nodup_walk _ List.nodup_nil, fun other => ?_⟩
    rw [ChangesetDag.mem_bfsDescendants_iff, wasm_mem_bfsDescendants_iff]
    exact reaches_congr fun v w => (hchildren v).same w
  · exact sameSet_select hkeyed.idsNodup hnodes fun r => r.authorDid = did
  · exact sameSet_select hkeyed.idsNodup hnodes fun r => r.schemaHash = hash

theorem keyed_step (h : Keyed s) (op : DagOperation) : Keyed (step s op) := by
  cases op with
  | insert node => exact ⟨h.wellFormed.insert node, ChangesetDag.nodup_ids_insert h.idsNodup node⟩
  | markCompacted id =>
    have hgraph : (s.1.markCompacted id).graph = s.1.graph := ChangesetDag.graph_markCompacted
    refine ⟨h.wellFormed.of_graph hgraph, ?_⟩
    have hids := h.idsNodup
    rwa [← ChangesetDag.ids_of_graph hgraph] at hids

theorem agree_markCompacted (hkeyed : Keyed s) (h : Agree s.1 s.2) (id : DeltaId) :
    AgreesAfter s (.markCompacted id) := by
  refine agree_of_tables (keyed_step hkeyed (.markCompacted id)) ?_ ?_ ?_
  · intro other
    simp only [step, ChangesetDag.get_markCompacted, WasmChangesetDag.get_markCompacted, h.nodes,
      Option.map_map]
    congr 1
    funext node
    simp only [Function.comp]
    split_ifs <;> rfl
  · intro other
    have hnative : (s.1.markCompacted id).children other = s.1.children other :=
      ChangesetDag.children_of_graph ChangesetDag.graph_markCompacted other
    rw [step, hnative, WasmChangesetDag.children_markCompacted]
    exact h.children other
  · intro other
    have hnative : (s.1.markCompacted id).parents other = s.1.parents other := rfl
    rw [step, hnative, WasmChangesetDag.parents_markCompacted]
    exact h.parents other

/-- Agreement survives an insertion only when it is harmless: the edges of a node that has parents
already would be doubled or dropped. -/
theorem harmless_of_agree {node : DagNode} (h : Agree s.1 s.2)
    (hafter : AgreesAfter s (.insert node)) : Harmless s (.insert node) := by
  have hparents := hafter.parents node.deltaId
  simp only [step, WasmChangesetDag.parents_insert, if_true] at hparents
  refine ⟨hparents.nodup', fun row hrow => ⟨?_, ?_⟩⟩
  · rw [List.eq_nil_iff_forall_not_mem]
    intro p hp
    have hedge := ChangesetDag.mem_parents.mp hp
    have hagain : p ∈ node.parentIds := by
      rw [← hparents.same, ChangesetDag.mem_parents, ChangesetDag.mem_edges_insert]
      exact .inl hedge
    have hstored : node.deltaId ∈ s.2.children p := by
      rw [← (h.children p).same, ChangesetDag.mem_children]
      exact hedge
    have hnodup := (hafter.children p).nodup'
    simp only [step, WasmChangesetDag.children_insert] at hnodup
    have hdouble : node.deltaId ∈ List.replicate (node.parentIds.count p) node.deltaId :=
      List.mem_replicate.mpr ⟨(List.count_pos_iff.mpr hagain).ne', rfl⟩
    exact (List.nodup_append.mp hnodup).2.2 _ hstored _ hdouble rfl
  · have hnodes := hafter.nodes node.deltaId
    simp only [step, ChangesetDag.get_insert, hrow, Option.some_or, WasmChangesetDag.get_insert,
      if_true, Option.map_some, Option.some.injEq] at hnodes
    exact hnodes

theorem agree_insert {node : DagNode} (hkeyed : Keyed s) (h : Agree s.1 s.2)
    (hharmless : Harmless s (.insert node)) : AgreesAfter s (.insert node) := by
  obtain ⟨hnodup, hstored⟩ := hharmless
  have hfree : ∀ p, (p, node.deltaId) ∉ s.1.edges := by
    intro p hedge
    have hid := hkeyed.wellFormed.childStored p node.deltaId hedge
    cases hget : s.1.get node.deltaId with
    | none => exact ChangesetDag.get_eq_none.mp hget hid
    | some row =>
      have hmem := ChangesetDag.mem_parents.mpr hedge
      rw [(hstored row hget).1] at hmem
      exact List.not_mem_nil hmem
  refine agree_of_tables (keyed_step hkeyed (.insert node)) ?_ ?_ ?_
  · intro id
    simp only [step, ChangesetDag.get_insert, WasmChangesetDag.get_insert]
    by_cases hid : id = node.deltaId
    · rw [if_pos hid, if_pos hid, hid]
      cases hget : s.1.get node.deltaId with
      | none => rfl
      | some row => rw [Option.some_or, (hstored row hget).2, Option.map_some]
    · rw [if_neg hid, if_neg hid, Option.or_none, h.nodes]
  · intro p
    have hold := h.children p
    refine ⟨(keyed_step hkeyed (.insert node)).wellFormed.nodup_children p, ?_, fun c => ?_⟩
    · simp only [step, WasmChangesetDag.children_insert]
      refine List.nodup_append.mpr ⟨hold.nodup', ?_, ?_⟩
      · exact List.nodup_replicate.mpr (List.nodup_iff_count_le_one.mp hnodup p)
      · rintro c hc c' hc' rfl
        rw [← hold.same, ChangesetDag.mem_children, (List.mem_replicate.mp hc').2] at hc
        exact hfree p hc
    · simp only [step, WasmChangesetDag.children_insert, ChangesetDag.mem_children,
        ChangesetDag.mem_edges_insert, List.mem_append, List.mem_replicate, ne_eq, List.count_eq_zero,
        not_not, ← hold.same]
  · intro c
    have hold := h.parents c
    refine ⟨(keyed_step hkeyed (.insert node)).wellFormed.nodup_parents c, ?_, fun p => ?_⟩
    · simp only [step, WasmChangesetDag.parents_insert]
      split_ifs
      · exact hnodup
      · exact hold.nodup'
    · simp only [step, WasmChangesetDag.parents_insert, ChangesetDag.mem_parents,
        ChangesetDag.mem_edges_insert]
      by_cases hc : c = node.deltaId
      · rw [if_pos hc, hc]
        exact ⟨fun hp => (hp.resolve_left (hfree p)).1, fun hp => .inr ⟨hp, rfl⟩⟩
      · rw [if_neg hc, ← hold.same, ChangesetDag.mem_parents]
        exact ⟨fun hp => hp.resolve_right fun hnew => hc hnew.2, .inl⟩

theorem agreesAfter_iff (hkeyed : Keyed s) (h : Agree s.1 s.2) :
    AgreesAfter s op ↔ Harmless s op := by
  cases op with
  | insert node => exact ⟨harmless_of_agree h, agree_insert hkeyed h⟩
  | markCompacted id => exact iff_of_true (agree_markCompacted hkeyed h id) trivial

def start : ChangesetDag × WasmChangesetDag := (.empty, .new)

theorem keyed_start : Keyed start := ⟨ChangesetDag.wellFormed_empty, List.nodup_nil⟩

theorem agree_start : Agree start.1 start.2 := by
  have hnone : ∀ id, SameSet (start.1.children id) (start.2.children id) ∧
      SameSet (start.1.parents id) (start.2.parents id) :=
    fun id => ⟨⟨List.nodup_nil, List.nodup_nil, fun x => Iff.rfl⟩,
      ⟨List.nodup_nil, List.nodup_nil, fun x => Iff.rfl⟩⟩
  exact agree_of_tables keyed_start (fun id => rfl) (fun id => (hnone id).1) fun id => (hnone id).2

/-- No stored node names an actor; the table `dag_nodes` has no column for it. -/
def NoActors (wasm : WasmChangesetDag) : Prop :=
  ∀ id node, wasm.get id = some node → node.actorId = []

def NoActorsAfter (s : ChangesetDag × WasmChangesetDag) (op : DagOperation) : Prop :=
  NoActors (step s op).2

def WithoutActor : DagOperation → Prop
  | .insert node => node.actorId = []
  | .markCompacted _ => True

theorem noActorsAfter_iff (h : NoActors s.2) : NoActorsAfter s op ↔ WithoutActor op := by
  cases op with
  | insert node =>
    constructor
    · intro hafter
      exact hafter node.deltaId node (by simp only [step, WasmChangesetDag.get_insert, if_true])
    · intro hnode id node' hget
      simp only [step, WasmChangesetDag.get_insert] at hget
      split_ifs at hget
      · cases hget
        exact hnode
      · exact h id node' hget
  | markCompacted deltaId =>
    refine iff_of_true (fun id node hget => ?_) trivial
    simp only [step, WasmChangesetDag.get_markCompacted, Option.map_eq_some_iff] at hget
    obtain ⟨node', hget', rfl⟩ := hget
    split_ifs
    · exact h id node' hget'
    · exact h id node' hget'

/-- Along every run the two builds agree, column by column and query by query, exactly when each
insertion is harmless; they hold the actors alike as well exactly when none is given. -/
theorem agree_iff_harmless (ops : List DagOperation) :
    (Guarded step AgreesAfter start ops ↔ Guarded step Harmless start ops) ∧
      (Guarded step (fun s op => AgreesAfter s op ∧ NoActorsAfter s op) start ops ↔
        Guarded step (fun s op => Harmless s op ∧ WithoutActor op) start ops) := by
  have hallowed : Guarded step (fun _ _ => True) start ops :=
    guarded_iff_splits.mpr fun _ _ _ _ => trivial
  have hagree : Guarded step AgreesAfter start ops ↔ Guarded step Harmless start ops := by
    have hiff : ∀ s op, True → Keyed s ∧ Agree s.1 s.2 → (AgreesAfter s op ↔ Harmless s op) :=
      fun s op _ hs => agreesAfter_iff hs.1 hs.2
    have hstep : ∀ s op, True → Harmless s op → Keyed s ∧ Agree s.1 s.2 →
        Keyed (step s op) ∧ Agree (step s op).1 (step s op).2 :=
      fun s op _ hharmless hs => ⟨keyed_step hs.1 op, (agreesAfter_iff hs.1 hs.2).mpr hharmless⟩
    exact guarded_congr hiff hstep hallowed ⟨keyed_start, agree_start⟩
  have hactors : Guarded step NoActorsAfter start ops ↔
      Guarded step (fun _ op => WithoutActor op) start ops := by
    have hiff : ∀ s op, True → NoActors s.2 → (NoActorsAfter s op ↔ WithoutActor op) :=
      fun s op _ hs => noActorsAfter_iff hs
    have hstep : ∀ s op, True → WithoutActor op → NoActors s.2 → NoActors (step s op).2 :=
      fun s op _ hop hs => (noActorsAfter_iff hs).mpr hop
    exact guarded_congr hiff hstep hallowed fun id node hget => by cases hget
  refine ⟨hagree, ?_⟩
  rw [guarded_and, guarded_and, hagree, hactors]

def repeatedNode (payload : Bytes) (parentIds : List DeltaId) : DagNode :=
  ⟨2, payload, none, parentIds, [], 1, 0, false, "did:key:z6Mk"⟩

/-- A node that arrives twice is twice among the children on the WASM build, and a second node under
its identifier is stored on that build only. -/
theorem repeated_insert_disagrees :
    let twice := [DagOperation.insert (repeatedNode [7] [1]), .insert (repeatedNode [7] [1])]
    let replaced := [DagOperation.insert (repeatedNode [7] []), .insert (repeatedNode [8] [])]
    ((run step start twice).1.children 1 = [2] ∧ (run step start twice).2.children 1 = [2, 2] ∧
      ¬Guarded step AgreesAfter start twice) ∧
      ((run step start replaced).1.get 2 = some (repeatedNode [7] []).row ∧
        (run step start replaced).2.get 2 = some (repeatedNode [8] []) ∧
        ¬Guarded step AgreesAfter start replaced) := by
  intro twice replaced
  have hdouble : (run step start twice).2.children 1 = [2, 2] := by decide
  have hkept : (run step start replaced).1.get 2 = some (repeatedNode [7] []).row := by decide
  have hreplaced : (run step start replaced).2.get 2 = some (repeatedNode [8] []) := by decide
  refine ⟨⟨by decide, hdouble, fun h => ?_⟩, hkept, hreplaced, fun h => ?_⟩
  · have hnodup := (h.2.1.children 1).nodup'
    have hlist : [(2 : DeltaId), 2].Nodup := hdouble ▸ hnodup
    exact absurd hlist (by decide)
  · have hnodes : (run step start replaced).1.get 2 =
        ((run step start replaced).2.get 2).map DagNode.row := h.2.1.nodes 2
    rw [hkept, hreplaced] at hnodes
    exact absurd hnodes (by decide)

end DagAgreement

end TirBase
