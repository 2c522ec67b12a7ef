import TirBase.BreadthFirst
import TirBase.ContaminationEngine
import TirBase.TransitionRuns

/-! # The Changeset DAG of the WASM build

Two hash maps stand for the two tables. A node that is inserted again replaces the stored one, and
its edges are appended. -/
namespace TirBase
open TransitionRuns

structure WasmChangesetDag where
  nodes : AList fun _ : DeltaId => DagNode
  childrenMap : AList fun _ : DeltaId => List DeltaId

namespace WasmChangesetDag

def new : WasmChangesetDag := ⟨∅, ∅⟩

def children (dag : WasmChangesetDag) (parentId : DeltaId) : List DeltaId :=
  (dag.childrenMap.lookup parentId).getD []

def parents (dag : WasmChangesetDag) (childId : DeltaId) : List DeltaId :=
  ((dag.nodes.lookup childId).map DagNode.parentIds).getD []

/-- `entry(parent_id).or_default().push(child_id)`. -/
def pushChild (childrenMap : AList fun _ : DeltaId => List DeltaId) (parentId childId : DeltaId) :
    AList fun _ : DeltaId => List DeltaId :=
  childrenMap.insert parentId ((childrenMap.lookup parentId).getD [] ++ [childId])

def insert (dag : WasmChangesetDag) (node : DagNode) : WasmChangesetDag :=
  let childrenMap := node.parentIds.foldl (fun m p => pushChild m p node.deltaId) dag.childrenMap
  { nodes := dag.nodes.insert node.deltaId node
    childrenMap :=
      childrenMap.insert node.deltaId ((childrenMap.lookup node.deltaId).getD []) }

def get (dag : WasmChangesetDag) (deltaId : DeltaId) : Option DagNode := dag.nodes.lookup deltaId

def nodesBySchemaHash (dag : WasmChangesetDag) (schemaHash : SchemaIdentifierHash) :
    List DeltaId :=
  (dag.nodes.entries.filter fun e => e.2.schemaHash = schemaHash).map fun e => e.2.deltaId

def nodesByAuthor (dag : WasmChangesetDag) (authorDid : Did) : List DeltaId :=
  (dag.nodes.entries.filter fun e => e.2.authorDid = authorDid).map fun e => e.2.deltaId

/-- The same walk as on the native build; the queue takes in each entry once at most. -/
def bfsDescendants (dag : WasmChangesetDag) (rootId : DeltaId) : List DeltaId :=
  BreadthFirst.walk dag.children
    ((dag.childrenMap.entries.map fun e => e.2.length).sum + 1) [] [rootId]

def markCompacted (dag : WasmChangesetDag) (deltaId : DeltaId) : WasmChangesetDag :=
  match dag.nodes.lookup deltaId with
  | some node => { dag with nodes := dag.nodes.insert deltaId { node with compacted := true } }
  | none => dag

variable (dag : WasmChangesetDag) (node : DagNode) (id other : DeltaId)

theorem get_insert : (dag.insert node).get id =
    if id = node.deltaId then some node else dag.get id := by
  unfold get insert
  by_cases h : id = node.deltaId
  · rw [if_pos h, h]
    exact AList.lookup_insert _
  · rw [if_neg h]
    exact AList.lookup_insert_ne h

theorem parents_insert : (dag.insert node).parents id =
    if id = node.deltaId then node.parentIds else dag.parents id := by
  have hget := get_insert dag node id
  unfold get at hget
  rw [parents, hget]
  split_ifs <;> rfl

theorem lookup_pushChild (childrenMap : AList fun _ : DeltaId => List DeltaId)
    (parentId childId : DeltaId) : ((pushChild childrenMap parentId childId).lookup id).getD [] =
      (childrenMap.lookup id).getD [] ++ if id = parentId then [childId] else [] := by
  unfold pushChild
  by_cases h : id = parentId
  · rw [if_pos h, h, AList.lookup_insert, Option.getD_some]
  · rw [if_neg h, AList.lookup_insert_ne h, List.append_nil]

/-- Every mention of a parent appends the node to the children of that parent. -/
theorem children_insert : (dag.insert node).children id =
    dag.children id ++ List.replicate (node.parentIds.count id) node.deltaId := by
  have hpushed : ∀ (parentIds : List DeltaId) (m : AList fun _ : DeltaId => List DeltaId),
      ((parentIds.foldl (fun m p => pushChild m p node.deltaId) m).lookup id).getD [] =
        (m.lookup id).getD [] ++ List.replicate (parentIds.count id) node.deltaId := by
    intro parentIds
    induction parentIds with
    | nil => simp
    | cons p parentIds ih =>
      intro m
      rw [List.foldl_cons, ih, lookup_pushChild, List.append_assoc]
      congr 1
      by_cases h : id = p
      · rw [if_pos h, h, List.count_cons_self, List.replicate_succ, List.singleton_append]
      · rw [if_neg h, List.count_cons_of_ne (Ne.symm h), List.nil_append]
  have hbefore : dag.children id = (dag.childrenMap.lookup id).getD [] := rfl
  rw [hbefore, ← hpushed node.parentIds dag.childrenMap]
  unfold children insert
  dsimp only
  by_cases h : id = node.deltaId
  · rw [h, AList.lookup_insert, Option.getD_some]
  · rw [AList.lookup_insert_ne h]

theorem get_markCompacted : (dag.markCompacted id).get other =
    (dag.get other).map fun n => if other = id then { n with compacted := true } else n := by
  unfold get markCompacted
  cases hlookup : dag.nodes.lookup id with
  | some node =>
    dsimp only
    by_cases h : other = id
    · rw [h, AList.lookup_insert, hlookup, Option.map_some, if_pos rfl]
    · rw [AList.lookup_insert_ne h]
      simp [h]
  | none =>
    by_cases h : other = id
    · rw [h, hlookup]
      rfl
    · simp [h]

theorem children_markCompacted : (dag.markCompacted id).children other = dag.children other := by
  unfold markCompacted
  split <;> rfl

theorem parents_markCompacted : (dag.markCompacted id).parents other = dag.parents other := by
  have hget := get_markCompacted dag id other
  unfold get at hget
  rw [parents, parents, hget, Option.map_map]
  congr 2
  funext n
  simp only [Function.comp]
  split_ifs <;> rfl

end WasmChangesetDag

end TirBase
