import TirBase.CrdtEngine
import TirBase.KahnRuns

/-! # The order of a stored DAG

Nodes may arrive before their parents, or without them. The sort reaches a node when all its
ancestors are stored and none is its own ancestor; the tips are found among what it reaches. -/
namespace TirBase.CausalOrder
open FiniteRelations KahnBatches Relation

/-- The DAG after the insertions that succeed; one that fails is rolled back. -/
def stored (nodes : List DagNode) : ChangesetDag := nodes.foldl ChangesetDag.insert .empty

/-- `topological_sort` with its `*deg -= 1`: no result when a degree would fall below zero, or when
the queue is not empty after so many turns. -/
def topologicalSortChecked (dag : ChangesetDag) (hash : HashOrder) (turns : ℕ) :
    Option (List DeltaId) :=
  (drainChecked dag.edges id turns (start dag.graph.keys dag.edges hash.order)).map Progress.sorted

structure SortsCausally (e : CrdtEngine) (hash : HashOrder) : Prop where
  ends : ∃ turns, ∀ more,
    topologicalSortChecked e.dag hash (turns + more) = some (e.dag.topologicalSort hash)
  nodup : (e.dag.topologicalSort hash).Nodup
  all : ∀ id, id ∈ e.dag.topologicalSort hash ↔ id ∈ e.dag.ids
  parentsFirst : ∀ earlier id later, e.dag.topologicalSort hash = earlier ++ id :: later →
    ∀ p, (p, id) ∈ e.dag.edges → p ∈ e.dag.ids → p ∈ earlier
  tips : ∀ id, id ∈ e.dagTips hash ↔ id ∈ e.dag.ids ∧ ∀ c ∈ e.dag.ids, (id, c) ∉ e.dag.edges

def ParentOf (nodes : List DagNode) (p c : DeltaId) : Prop :=
  ∃ n ∈ nodes, n.deltaId = c ∧ p ∈ n.parentIds

/-- Every parent that is named arrives, and no node is its own ancestor. -/
structure CausallyClosed (nodes : List DagNode) : Prop where
  parentsStored : ∀ n ∈ nodes, ∀ p ∈ n.parentIds, p ∈ nodes.map DagNode.deltaId
  acyclic : ∀ id, ¬TransGen (ParentOf nodes) id id

variable {nodes : List DagNode} {p c : DeltaId}

theorem stored_concat (nodes : List DagNode) (n : DagNode) :
    stored (nodes ++ [n]) = (stored nodes).insert n := by
  simp [stored]

theorem mem_ids_stored {id : DeltaId} : id ∈ (stored nodes).ids ↔ id ∈ nodes.map DagNode.deltaId := by
  induction nodes using List.reverseRecOn with
  | nil => simp [stored, ChangesetDag.ids, ChangesetDag.empty]
  | append_singleton nodes n ih =>
    rw [stored_concat, ChangesetDag.mem_ids_insert, ih]
    simp

theorem mem_edges_stored : (p, c) ∈ (stored nodes).edges ↔ ParentOf nodes p c := by
  induction nodes using List.reverseRecOn with
  | nil => simp [stored, ParentOf, ChangesetDag.empty]
  | append_singleton nodes n ih =>
    rw [stored_concat, ChangesetDag.mem_edges_insert, ih]
    simp only [ParentOf, List.mem_append, List.mem_singleton]
    constructor
    · rintro (⟨m, hm, hid, hp⟩ | ⟨hp, rfl⟩)
      · exact ⟨m, .inl hm, hid, hp⟩
      · exact ⟨n, .inr rfl, rfl, hp⟩
    · rintro ⟨m, hm | rfl, hid, hp⟩
      · exact .inl ⟨m, hm, hid, hp⟩
      · exact .inr ⟨hp, hid.symm⟩

theorem edgeOf_stored (nodes : List DagNode) :
    EdgeOf (stored nodes).edges = ParentOf nodes := by
  funext p c
  exact propext mem_edges_stored

theorem wellFormed_stored (nodes : List DagNode) : (stored nodes).WellFormed := by
  induction nodes using List.reverseRecOn with
  | nil => exact ChangesetDag.wellFormed_empty
  | append_singleton nodes n ih =>
    rw [stored_concat]
    exact ih.insert n

section Reached
variable {dag : ChangesetDag}

theorem edge_to_key (dag : ChangesetDag) (p c : DeltaId) (h : (p, c) ∈ dag.edges) :
    c ∈ dag.graph.keys := by
  simp only [KahnSort.Graph.keys, ChangesetDag.graph, List.mem_dedup, List.mem_append, List.mem_map]
  exact .inr ⟨(p, c), h, rfl⟩

theorem topologicalSort_eq (dag : ChangesetDag) (hash : HashOrder) : dag.topologicalSort hash =
    (drain dag.edges id dag.graph.keys.length
      (start dag.graph.keys dag.edges hash.order)).sorted := by
  have hdrain := KahnSort.drain_batched dag.graph dag.graph.keys.length
    (KahnSort.start dag.graph hash.order)
  rw [KahnSort.start_batched] at hdrain
  exact congrArg Progress.sorted hdrain

/-- The loop ends on every DAG, and no degree falls below zero. -/
theorem topologicalSortChecked_eq (dag : ChangesetDag) (hash : HashOrder) (more : ℕ) :
    topologicalSortChecked dag hash (dag.graph.keys.length + more) =
      some (dag.topologicalSort hash) := by
  have hstart : DrainInvariant dag.graph.keys dag.edges
      (start dag.graph.keys dag.edges hash.order) :=
    drainInvariant_start (List.nodup_dedup _) hash.perm
  have hperm : ∀ l : List DeltaId, (id l).Perm l := fun l => .refl l
  have hends := drainChecked_eq hperm (edge_to_key dag) dag.graph.keys.length hstart
    (Nat.le_add_right _ _)
  rw [topologicalSortChecked, drainChecked_add more _ hends, Option.map_some, topologicalSort_eq]

theorem topologicalSort_taken (dag : ChangesetDag) (hash : HashOrder) :
    Taken dag.graph.keys dag.edges (dag.topologicalSort hash) := by
  rw [topologicalSort_eq]
  exact drain_taken (List.nodup_dedup _) hash.perm (fun l => .refl l) (edge_to_key dag)

/-- A node is reached when it is not behind a cycle and its ancestors are stored. -/
theorem grounded_of_acc {id : DeltaId} (hdag : dag.WellFormed)
    (hparents : ∀ p c, (p, c) ∈ dag.edges → p ∈ dag.ids) (hacc : Acc (EdgeOf dag.edges) id)
    (hid : id ∈ dag.ids) : dag.Grounded id := by
  induction hacc with
  | intro id _ ih =>
    exact .intro (hdag.mem_keys.mpr hid) fun p hp => ih p hp (hparents p id hp)

theorem mem_ids_of_grounded {id : DeltaId} (hdag : dag.WellFormed) (h : dag.Grounded id) :
    id ∈ dag.ids := by
  cases h with
  | intro entry _ => exact hdag.mem_keys.mp entry

end Reached

/-- The sort lists every stored node and the tips are what has no child, exactly when the nodes that
arrived are closed under parents and without cycles. -/
theorem sortsCausally_iff_closed (nodes : List DagNode) (e : CrdtEngine) (hash : HashOrder) :
    SortsCausally { e with dag := stored nodes } hash ↔ CausallyClosed nodes := by
  have hdag := wellFormed_stored nodes
  have htaken := topologicalSort_taken (stored nodes) hash
  constructor
  · intro h
    have hgrounded : ∀ id ∈ (stored nodes).ids, (stored nodes).Grounded id := fun id hid =>
      (ChangesetDag.mem_topologicalSort hash).mp ((h.all id).mpr hid)
    refine ⟨fun n hn p hp => ?_, fun id hcycle => ?_⟩
    · have hedge : (p, n.deltaId) ∈ (stored nodes).edges := mem_edges_stored.mpr ⟨n, hn, rfl, hp⟩
      cases hgrounded n.deltaId (hdag.childStored _ _ hedge) with
      | intro _ hparents =>
        exact mem_ids_stored.mp (mem_ids_of_grounded hdag (hparents p hedge))
    · obtain ⟨p, -, hlast⟩ := TransGen.tail'_iff.mp hcycle
      have hid := hdag.childStored p id (mem_edges_stored.mpr hlast)
      rw [← edgeOf_stored] at hcycle
      exact (hgrounded id hid).not_transGen_self hcycle
  · intro h
    have hparents : ∀ p c, (p, c) ∈ (stored nodes).edges → p ∈ (stored nodes).ids := by
      intro p c hpc
      obtain ⟨n, hn, -, hp⟩ := mem_edges_stored.mp hpc
      exact mem_ids_stored.mpr (h.parentsStored n hn p hp)
    have hacc : ∀ id, Acc (EdgeOf (stored nodes).edges) id := by
      intro id
      refine acc_of_not_behindCycle (finite_edgeOf _) ?_
      rintro ⟨c, hcycle, -⟩
      rw [edgeOf_stored] at hcycle
      exact h.acyclic c hcycle
    have hall : ∀ id, id ∈ (stored nodes).topologicalSort hash ↔ id ∈ (stored nodes).ids := by
      intro id
      rw [ChangesetDag.mem_topologicalSort hash]
      exact ⟨mem_ids_of_grounded hdag, grounded_of_acc hdag hparents (hacc id)⟩
    refine ⟨⟨_, topologicalSortChecked_eq (stored nodes) hash⟩, htaken.nodup, hall,
      fun earlier id later hsplit p hp _ => htaken.before earlier id later hsplit p hp,
      fun id => ?_⟩
    have hchildren : (stored nodes).children id = [] ↔
        ∀ c ∈ (stored nodes).ids, (id, c) ∉ (stored nodes).edges := by
      rw [List.eq_nil_iff_forall_not_mem]
      constructor
      · exact fun hnone c _ hc => hnone c (ChangesetDag.mem_children.mpr hc)
      · intro hnone c hc
        have hedge := ChangesetDag.mem_children.mp hc
        exact hnone c (hdag.childStored id c hedge) hedge
    simp only [CrdtEngine.dagTips, List.mem_filter, decide_eq_true_eq, hall, hchildren]

def arrived (id : DeltaId) (parentIds : List DeltaId) : DagNode :=
  ⟨id, [], none, parentIds, [], 1, 0, false, "did:key:zAuthor"⟩

def asQueued : HashOrder := ⟨fun ids => ids, fun l => .refl l⟩

/-- Node 3 arrives without its parent 2: the sort drops it with its child 4, and no tip is left. -/
theorem child_without_parent_dropped :
    (stored [arrived 3 [2], arrived 4 [3]]).ids = [3, 4] ∧
      (stored [arrived 3 [2], arrived 4 [3]]).topologicalSort asQueued = [] ∧
      ¬SortsCausally { CrdtEngine.new (CrdtEngine.sampleKey 1) (CrdtEngine.sampleKey 1)
        CrdtEngine.sampleDid₁ 0 .empty with dag := stored [arrived 3 [2], arrived 4 [3]] }
        asQueued := by
  have hids : (stored [arrived 3 [2], arrived 4 [3]]).ids = [3, 4] := by decide +kernel
  have hsort : (stored [arrived 3 [2], arrived 4 [3]]).topologicalSort asQueued = [] := by
    decide +kernel
  refine ⟨hids, hsort, fun h => ?_⟩
  have hmem : (3 : DeltaId) ∈ (stored [arrived 3 [2], arrived 4 [3]]).topologicalSort asQueued :=
    (h.all 3).mpr (by rw [hids]; exact List.mem_cons_self)
  rw [hsort] at hmem
  exact List.not_mem_nil hmem

end TirBase.CausalOrder
