import TirBase.ContaminationEngine

/-! # The descendants of a Delta

`bfs_descendants` asks the DAG for the children of each Delta; `bfs_descendants_raw` is written
again over the locked connection. Edges may lead to what is not stored, and may form cycles. -/
namespace TirBase.Descendants
open BreadthFirst Relation

/-- `bfs_descendants`, when its queue is empty within so many turns. -/
def bfsDescendantsChecked (dag : ChangesetDag) (rootId : DeltaId) (turns : ℕ) :
    Option (List DeltaId) := walkChecked dag.children turns [] [rootId]

/-- `SELECT child_id FROM dag_edges WHERE parent_id = ?1`. -/
def childRows (dagEdges : List (DeltaId × DeltaId)) (current : DeltaId) : List DeltaId :=
  (dagEdges.filter fun e => e.1 = current).map Prod.snd

/-- The loop of `bfs_descendants_raw`; what is in the result has been visited. -/
def rawLoop (dagEdges : List (DeltaId × DeltaId)) :
    ℕ → List DeltaId → List DeltaId → Option (List DeltaId)
  | _, result, [] => some result
  | 0, _, _ :: _ => none
  | turns + 1, result, current :: queue =>
    if current ∈ result then rawLoop dagEdges turns result queue
    else
      rawLoop dagEdges turns (result ++ [current])
        ((childRows dagEdges current).foldl (fun queue child =>
          if child ∈ result ++ [current] then queue else queue ++ [child]) queue)

def bfsDescendantsRaw (dagEdges : List (DeltaId × DeltaId)) (rootDeltaId : DeltaId) (turns : ℕ) :
    Option (List DeltaId) := rawLoop dagEdges turns [] [rootDeltaId]

/-- The walk ends with a list of the Deltas that the edges lead to, each once, the root first. -/
structure ListsReachable (dagEdges : List (DeltaId × DeltaId)) (root : DeltaId)
    (walk : ℕ → Option (List DeltaId)) (result : List DeltaId) : Prop where
  ends : ∃ turns, ∀ more, walk (turns + more) = some result
  nodup : result.Nodup
  rootFirst : result.head? = some root
  mem_iff : ∀ id, id ∈ result ↔ ReflTransGen (fun p c => (p, c) ∈ dagEdges) root id

theorem foldl_push (result : List DeltaId) (children queue : List DeltaId) :
    children.foldl (fun queue child => if child ∈ result then queue else queue ++ [child]) queue =
      queue ++ children.filter fun c => c ∉ result := by
  induction children generalizing queue with
  | nil => simp
  | cons child children ih =>
    rw [List.foldl_cons, ih]
    by_cases h : child ∈ result
    · simp [h]
    · simp [h]

theorem rawLoop_eq (dag : ChangesetDag) (turns : ℕ) (result queue : List DeltaId) :
    rawLoop dag.edges turns result queue = walkChecked dag.children turns result queue := by
  induction turns generalizing result queue with
  | zero => cases queue <;> rfl
  | succ turns ih =>
    cases queue with
    | nil => rfl
    | cons current queue =>
      have hrows : childRows dag.edges current = dag.children current := rfl
      simp only [rawLoop, walkChecked, foldl_push, hrows, ih]

theorem listsReachable_bfsDescendants (dag : ChangesetDag) (root : DeltaId) :
    ListsReachable dag.edges root (bfsDescendantsChecked dag root) (dag.bfsDescendants root) := by
  have hreaches : ∀ id, Reaches dag.children root id ↔
      ReflTransGen (fun p c => (p, c) ∈ dag.edges) root id := by
    have hrel : (fun p c => c ∈ dag.children p) = fun p c => (p, c) ∈ dag.edges := by
      funext p c
      exact propext ChangesetDag.mem_children
    intro id
    rw [Reaches, hrel]
  refine ⟨⟨dag.edges.length + 1, fun more => walkChecked_add more _ ?_⟩,
    ChangesetDag.nodup_bfsDescendants, ?_, fun id => ?_⟩
  · rw [ChangesetDag.bfsDescendants, ChangesetDag.walk_eq]
    refine walkChecked_eq ChangesetDag.mem_keys_of_children _ ?_
    rw [remaining_nil, ChangesetDag.sum_children, List.length_singleton]
    omega
  · rw [ChangesetDag.bfsDescendants, ChangesetDag.walk_eq]
    exact head_walk _
  · rw [ChangesetDag.mem_bfsDescendants_iff, hreaches]

/-- On every DAG both walks end with exactly what the edges lead to from the root. -/
theorem walks_list_reachable (dag : ChangesetDag) (root : DeltaId) :
    ListsReachable dag.edges root (bfsDescendantsChecked dag root) (dag.bfsDescendants root) ∧
      ListsReachable dag.edges root (bfsDescendantsRaw dag.edges root)
        (dag.bfsDescendants root) := by
  have h := listsReachable_bfsDescendants dag root
  have hraw : bfsDescendantsRaw dag.edges root = bfsDescendantsChecked dag root := by
    funext turns
    exact rawLoop_eq dag turns [] [root]
  refine ⟨h, ?_⟩
  rw [hraw]
  exact h

end TirBase.Descendants
