import TirBase.Delta
import TirBase.KahnSort

/-! # The Changeset DAG

The two tables `dag_nodes` and `dag_edges` of the native build. Both are filled by
`INSERT OR IGNORE` inside one transaction, so an insert happens completely or not at all. -/
namespace TirBase

structure DagNode where
  deltaId : DeltaId
  payload : Bytes
  deltaBytes : Option Bytes
  parentIds : List DeltaId
  actorId : Bytes
  lamport : UInt64
  schemaHash : SchemaIdentifierHash
  compacted : Bool
  authorDid : Did
  deriving DecidableEq

/-- A row of `dag_nodes`. -/
structure DagRow where
  id : DeltaId
  payload : Bytes
  deltaBytes : Option Bytes
  lamport : UInt64
  schemaHash : SchemaIdentifierHash
  compacted : Bool
  authorDid : Did
  tagsJson : List DeltaTag
  deriving DecidableEq

def DagNode.row (n : DagNode) : DagRow :=
  ⟨n.deltaId, n.payload, n.deltaBytes, n.lamport, n.schemaHash, n.compacted, n.authorDid, []⟩

structure ChangesetDag where
  nodes : List DagRow
  edges : List (DeltaId × DeltaId)
  deriving DecidableEq

/-- A row as it was stored, with more tags. -/
structure DagRow.Extends (r r' : DagRow) : Prop where
  id : r'.id = r.id
  payload : r'.payload = r.payload
  deltaBytes : r'.deltaBytes = r.deltaBytes
  lamport : r'.lamport = r.lamport
  schemaHash : r'.schemaHash = r.schemaHash
  authorDid : r'.authorDid = r.authorDid
  tags : r.tagsJson <+: r'.tagsJson

theorem DagRow.Extends.refl (r : DagRow) : r.Extends r :=
  ⟨rfl, rfl, rfl, rfl, rfl, rfl, List.prefix_rfl⟩

theorem DagRow.Extends.trans {r r' r'' : DagRow} (h : r.Extends r') (h' : r'.Extends r'') :
    r.Extends r'' :=
  ⟨h'.id.trans h.id, h'.payload.trans h.payload, h'.deltaBytes.trans h.deltaBytes,
    h'.lamport.trans h.lamport, h'.schemaHash.trans h.schemaHash, h'.authorDid.trans h.authorDid,
    h.tags.trans h'.tags⟩

/-- The order in which a hash map yields its entries. -/
structure HashOrder where
  order : List DeltaId → List DeltaId
  perm : ∀ l, (order l).Perm l

namespace ChangesetDag

def empty : ChangesetDag := ⟨[], []⟩

def insertRow (rows : List DagRow) (row : DagRow) : List DagRow :=
  if row.id ∈ rows.map DagRow.id then rows else rows ++ [row]

def insertEdge (edges : List (DeltaId × DeltaId)) (edge : DeltaId × DeltaId) :
    List (DeltaId × DeltaId) :=
  if edge ∈ edges then edges else edges ++ [edge]

def insert (dag : ChangesetDag) (node : DagNode) : ChangesetDag :=
  { nodes := insertRow dag.nodes node.row
    edges := (node.parentIds.map fun p => (p, node.deltaId)).foldl insertEdge dag.edges }

def ids (dag : ChangesetDag) : List DeltaId := dag.nodes.map DagRow.id

def children (dag : ChangesetDag) (parentId : DeltaId) : List DeltaId :=
  (dag.edges.filter fun e => e.1 = parentId).map Prod.snd

def parents (dag : ChangesetDag) (childId : DeltaId) : List DeltaId :=
  (dag.edges.filter fun e => e.2 = childId).map Prod.fst

def get (dag : ChangesetDag) (deltaId : DeltaId) : Option DagRow :=
  dag.nodes.find? fun r => r.id = deltaId

def nodesByAuthor (dag : ChangesetDag) (authorDid : Did) : List DeltaId :=
  (dag.nodes.filter fun r => r.authorDid = authorDid).map DagRow.id

def graph (dag : ChangesetDag) : KahnSort.Graph DeltaId := ⟨dag.ids, dag.edges⟩

def topologicalSort (dag : ChangesetDag) (hash : HashOrder) : List DeltaId :=
  KahnSort.sort dag.graph hash.order

@[simp] theorem mem_insertEdge {edges : List (DeltaId × DeltaId)} {e e' : DeltaId × DeltaId} :
    e' ∈ insertEdge edges e ↔ e' ∈ edges ∨ e' = e := by
  by_cases h : e ∈ edges
  · simp only [insertEdge, if_pos h]
    exact ⟨.inl, fun h' => h'.elim (fun hid => hid) fun he => he ▸ h⟩
  · simp [insertEdge, h]

theorem mem_foldl_insertEdge {new edges : List (DeltaId × DeltaId)} {e : DeltaId × DeltaId} :
    e ∈ new.foldl insertEdge edges ↔ e ∈ edges ∨ e ∈ new := by
  induction new generalizing edges with
  | nil => simp
  | cons e' new ih => simp [ih, or_assoc]

theorem nodup_foldl_insertEdge {new edges : List (DeltaId × DeltaId)} (h : edges.Nodup) :
    (new.foldl insertEdge edges).Nodup := by
  induction new generalizing edges with
  | nil => exact h
  | cons e' new ih =>
    refine ih ?_
    by_cases he : e' ∈ edges
    · simpa [insertEdge, he] using h
    · simpa [insertEdge, he] using List.nodup_append.mpr
        ⟨h, by simp, by rintro a ha b hb rfl; exact he (List.mem_singleton.mp hb ▸ ha)⟩

theorem mem_map_insertRow {rows : List DagRow} {row : DagRow} {id : DeltaId} :
    id ∈ (insertRow rows row).map DagRow.id ↔ id ∈ rows.map DagRow.id ∨ id = row.id := by
  by_cases h : row.id ∈ rows.map DagRow.id
  · rw [insertRow, if_pos h]
    exact ⟨.inl, fun h' => h'.elim (fun hid => hid) fun he => he ▸ h⟩
  · simp [insertRow, h]

@[simp] theorem mem_ids_insert {dag : ChangesetDag} {node : DagNode} {id : DeltaId} :
    id ∈ (dag.insert node).ids ↔ id ∈ dag.ids ∨ id = node.deltaId :=
  mem_map_insertRow

@[simp] theorem mem_edges_insert {dag : ChangesetDag} {node : DagNode} {p c : DeltaId} :
    (p, c) ∈ (dag.insert node).edges ↔
      (p, c) ∈ dag.edges ∨ p ∈ node.parentIds ∧ c = node.deltaId := by
  simp only [insert, mem_foldl_insertEdge, List.mem_map, Prod.mk.injEq]
  constructor
  · rintro (h | ⟨q, hq, rfl, rfl⟩)
    · exact .inl h
    · exact .inr ⟨hq, rfl⟩
  · rintro (h | ⟨hp, rfl⟩)
    · exact .inl h
    · exact .inr ⟨p, hp, rfl, rfl⟩

theorem mem_children {dag : ChangesetDag} {p c : DeltaId} :
    c ∈ dag.children p ↔ (p, c) ∈ dag.edges := by
  simp [children]

theorem nodup_ids_insert {dag : ChangesetDag} (h : dag.ids.Nodup) (node : DagNode) :
    (dag.insert node).ids.Nodup := by
  unfold ids insert insertRow
  dsimp only
  split_ifs with hmem
  · exact h
  · rw [List.map_append, List.map_singleton]
    refine List.nodup_append.mpr ⟨h, List.nodup_singleton _, ?_⟩
    rintro id hid id' hid' rfl
    exact hmem (List.mem_singleton.mp hid' ▸ hid)

def Extends (dag dag' : ChangesetDag) : Prop :=
  ∀ r ∈ dag.nodes, ∃ r' ∈ dag'.nodes, r.Extends r'

theorem Extends.refl (dag : ChangesetDag) : dag.Extends dag := fun r hr => ⟨r, hr, .refl r⟩

theorem Extends.trans {dag dag' dag'' : ChangesetDag} (h : dag.Extends dag')
    (h' : dag'.Extends dag'') : dag.Extends dag'' := by
  intro r hr
  obtain ⟨r', hr', hext⟩ := h r hr
  obtain ⟨r'', hr'', hext'⟩ := h' r' hr'
  exact ⟨r'', hr'', hext.trans hext'⟩

theorem mem_nodes_insert {dag : ChangesetDag} {node : DagNode} {r : DagRow} :
    r ∈ (dag.insert node).nodes ↔ r ∈ dag.nodes ∨ node.deltaId ∉ dag.ids ∧ r = node.row := by
  have hid : node.row.id = node.deltaId := rfl
  by_cases h : node.deltaId ∈ dag.ids
  · have hmem : node.row.id ∈ dag.nodes.map DagRow.id := h
    simp [insert, insertRow, hmem, h]
  · have hmem : node.row.id ∉ dag.nodes.map DagRow.id := h
    simp [insert, insertRow, hmem, h]

theorem extends_insert (dag : ChangesetDag) (node : DagNode) : dag.Extends (dag.insert node) :=
  fun r hr => ⟨r, mem_nodes_insert.mpr (.inl hr), .refl r⟩

/-- The primary key of `dag_edges`, and every edge leads to a stored node. -/
structure WellFormed (dag : ChangesetDag) : Prop where
  edgesNodup : dag.edges.Nodup
  childStored : ∀ p c, (p, c) ∈ dag.edges → c ∈ dag.ids

instance (dag : ChangesetDag) : Decidable dag.WellFormed :=
  decidable_of_iff (dag.edges.Nodup ∧ ∀ e ∈ dag.edges, e.2 ∈ dag.ids)
    ⟨fun h => ⟨h.1, fun p c hpc => h.2 (p, c) hpc⟩,
      fun h => ⟨h.edgesNodup, fun e he => h.childStored e.1 e.2 he⟩⟩

theorem wellFormed_empty : empty.WellFormed := ⟨List.nodup_nil, by simp [empty]⟩

theorem WellFormed.insert {dag : ChangesetDag} (h : dag.WellFormed) (node : DagNode) :
    (dag.insert node).WellFormed := by
  refine ⟨nodup_foldl_insertEdge h.edgesNodup, fun p c hpc => ?_⟩
  rw [mem_ids_insert]
  rcases mem_edges_insert.mp hpc with hold | ⟨-, hc⟩
  · exact .inl (h.childStored p c hold)
  · exact .inr hc

theorem WellFormed.mem_keys {dag : ChangesetDag} (h : dag.WellFormed) {id : DeltaId} :
    id ∈ dag.graph.keys ↔ id ∈ dag.ids := by
  simp only [graph, KahnSort.Graph.keys, List.mem_dedup, List.mem_append, List.mem_map]
  constructor
  · rintro (hid | ⟨⟨p, c⟩, hpc, rfl⟩)
    · exact hid
    · exact h.childStored p c hpc
  · exact .inl

/-- A stored node whose ancestors are all stored and of which none is its own ancestor. -/
def Grounded (dag : ChangesetDag) (id : DeltaId) : Prop := KahnSort.Grounded dag.graph id

theorem mem_topologicalSort {dag : ChangesetDag} (hash : HashOrder) {id : DeltaId} :
    id ∈ dag.topologicalSort hash ↔ dag.Grounded id :=
  KahnSort.mem_sort_iff (g := dag.graph) hash.perm

theorem ids_of_graph {dag dag' : ChangesetDag} (h : dag'.graph = dag.graph) : dag'.ids = dag.ids :=
  congrArg KahnSort.Graph.nodes h

theorem edges_of_graph {dag dag' : ChangesetDag} (h : dag'.graph = dag.graph) :
    dag'.edges = dag.edges := congrArg KahnSort.Graph.edges h

theorem children_of_graph {dag dag' : ChangesetDag} (h : dag'.graph = dag.graph) (id : DeltaId) :
    dag'.children id = dag.children id := by
  rw [children, children, edges_of_graph h]

theorem WellFormed.of_graph {dag dag' : ChangesetDag} (hdag : dag.WellFormed)
    (h : dag'.graph = dag.graph) : dag'.WellFormed := by
  refine ⟨?_, fun p c hpc => ?_⟩
  · rw [edges_of_graph h]
    exact hdag.edgesNodup
  · rw [edges_of_graph h] at hpc
    rw [ids_of_graph h]
    exact hdag.childStored p c hpc

/-- A node without children that the sort reaches. -/
def Tip (dag : ChangesetDag) (id : DeltaId) : Prop := dag.Grounded id ∧ dag.children id = []

theorem Tip.of_graph {dag dag' : ChangesetDag} {id : DeltaId} (hid : dag.Tip id)
    (h : dag'.graph = dag.graph) : dag'.Tip id := by
  refine ⟨?_, by rw [children_of_graph h, hid.2]⟩
  rw [Grounded, h]
  exact hid.1

theorem WellFormed.grounded_insert {dag : ChangesetDag} (h : dag.WellFormed) {node : DagNode}
    (hnew : node.deltaId ∉ dag.ids) {id : DeltaId} (hid : dag.Grounded id) :
    (dag.insert node).Grounded id := by
  induction hid with
  | intro entry parents ih =>
    rename_i v
    have hstored : v ∈ dag.ids := h.mem_keys.mp entry
    refine .intro ((h.insert node).mem_keys.mpr (mem_ids_insert.mpr (.inl hstored))) ?_
    intro p hp
    rcases mem_edges_insert.mp hp with hold | ⟨-, rfl⟩
    · exact ih p hold
    · exact absurd hstored hnew

/-- A new node behind reachable parents is a tip, unless something already follows its name. -/
theorem WellFormed.tip_insert {dag : ChangesetDag} (h : dag.WellFormed) {node : DagNode}
    (hnew : node.deltaId ∉ dag.ids) (hchildren : dag.children node.deltaId = [])
    (hparents : ∀ p ∈ node.parentIds, dag.Grounded p) : (dag.insert node).Tip node.deltaId := by
  constructor
  · refine .intro ((h.insert node).mem_keys.mpr (mem_ids_insert.mpr (.inr rfl))) ?_
    intro p hp
    rcases mem_edges_insert.mp hp with hold | ⟨hp, -⟩
    · exact absurd (h.childStored _ _ hold) hnew
    · exact h.grounded_insert hnew (hparents p hp)
  · rw [List.eq_nil_iff_forall_not_mem]
    intro c hc
    rcases mem_edges_insert.mp (mem_children.mp hc) with hold | ⟨hp, -⟩
    · rw [← mem_children, hchildren] at hold
      exact absurd hold List.not_mem_nil
    · cases hparents _ hp with
      | intro entry _ => exact hnew (h.mem_keys.mp entry)

end ChangesetDag

end TirBase
