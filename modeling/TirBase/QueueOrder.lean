import TirBase.CloudSync
import TirBase.KahnRuns

/-! # The order of any queue

A queue may hold a Delta twice, and the parents that its entries name may form cycles. What the sort
does not take is appended entry by entry. -/
namespace TirBase.QueueOrder
open CloudOutboundQueue FiniteRelations KahnBatches Relation

/-- `sort_by_key` on the place in the queue. -/
def byQueueOrder (q : CloudOutboundQueue) (ids : List DeltaId) : List DeltaId :=
  ids.insertionSort fun a b => q.orderIndex a ≤ q.orderIndex b

/-- `topological_sort_queue` with its `*deg -= 1`: no result when a degree would fall below zero, or
when something is ready still after so many turns. -/
def topologicalSortQueueChecked (q : CloudOutboundQueue) (turns : ℕ) : Option (List DeltaId) :=
  (drainChecked q.causalEdges (byQueueOrder q) turns
    (start q.ids.dedup q.causalEdges (byQueueOrder q))).map fun s =>
      s.sorted ++ q.ids.filter (· ∉ s.sorted)

/-- An entry of the child names the parent, which waits in the queue too. -/
def QueuedParent (q : CloudOutboundQueue) (parent child : DeltaId) : Prop :=
  parent ∈ q.ids ∧ ∃ e ∈ q.queue, e.deltaId = child ∧ parent ∈ e.causalParents

structure ListsOnce (q : CloudOutboundQueue) : Prop where
  ends : ∃ turns, ∀ more,
    topologicalSortQueueChecked q (turns + more) = some q.topologicalSortQueue
  once : ∀ id, q.topologicalSortQueue.count id = if id ∈ q.ids then 1 else 0
  parentsFirst : ∀ earlier id later, q.topologicalSortQueue = earlier ++ id :: later →
    ¬BehindCycle (QueuedParent q) id → ∀ parent, QueuedParent q parent id → parent ∈ earlier

/-- No Delta on a cycle, or behind one, waits twice. -/
def CyclesWaitOnce (q : CloudOutboundQueue) : Prop :=
  ∀ id ∈ q.ids, BehindCycle (QueuedParent q) id → q.ids.count id = 1

variable {q : CloudOutboundQueue}

theorem edgeOf_causalEdges (q : CloudOutboundQueue) : EdgeOf q.causalEdges = QueuedParent q := by
  funext parent child
  exact propext mem_causalEdges

theorem perm_byQueueOrder (q : CloudOutboundQueue) (ids : List DeltaId) :
    (byQueueOrder q ids).Perm ids := List.perm_insertionSort _ ids

theorem child_queued (q : CloudOutboundQueue) (p c : DeltaId) (h : (p, c) ∈ q.causalEdges) :
    c ∈ q.ids.dedup := by
  obtain ⟨-, e, he, rfl, -⟩ := mem_causalEdges.mp h
  exact List.mem_dedup.mpr (mem_ids.mpr ⟨e, he, rfl⟩)

/-- What Kahn's loop takes of the queue. -/
def taken (q : CloudOutboundQueue) : List DeltaId :=
  (drain q.causalEdges (byQueueOrder q) q.ids.dedup.length
    (start q.ids.dedup q.causalEdges (byQueueOrder q))).sorted

theorem topologicalSortQueue_eq (q : CloudOutboundQueue) :
    q.topologicalSortQueue = taken q ++ q.ids.filter (· ∉ taken q) := rfl

theorem taken_taken (q : CloudOutboundQueue) : Taken q.ids.dedup q.causalEdges (taken q) :=
  drain_taken (List.nodup_dedup _) (perm_byQueueOrder q) (perm_byQueueOrder q) (child_queued q)

theorem mem_taken {id : DeltaId} :
    id ∈ taken q ↔ id ∈ q.ids ∧ ¬BehindCycle (QueuedParent q) id := by
  have hparents : ∀ p c, (p, c) ∈ q.causalEdges → p ∈ q.ids.dedup := fun p c hpc =>
    List.mem_dedup.mpr (mem_causalEdges.mp hpc).1
  rw [(taken_taken q).mem_iff_not_behindCycle hparents, List.mem_dedup, edgeOf_causalEdges]

/-- The loop ends on every queue, and no degree falls below zero. -/
theorem topologicalSortQueueChecked_eq (q : CloudOutboundQueue) (more : ℕ) :
    topologicalSortQueueChecked q (q.ids.dedup.length + more) = some q.topologicalSortQueue := by
  have hstart : DrainInvariant q.ids.dedup q.causalEdges
      (start q.ids.dedup q.causalEdges (byQueueOrder q)) :=
    drainInvariant_start (List.nodup_dedup _) (perm_byQueueOrder q)
  have hends := drainChecked_eq (perm_byQueueOrder q) (child_queued q) q.ids.dedup.length hstart
    (Nat.le_add_right _ _)
  rw [topologicalSortQueueChecked, drainChecked_add more _ hends]
  rfl

theorem count_topologicalSortQueue (q : CloudOutboundQueue) (id : DeltaId) :
    q.topologicalSortQueue.count id = if id ∈ taken q then 1 else q.ids.count id := by
  rw [topologicalSortQueue_eq, List.count_append, (taken_taken q).nodup.count]
  split_ifs with htaken
  · have hgone : id ∉ q.ids.filter (· ∉ taken q) := by simp [htaken]
    rw [List.count_eq_zero.mpr hgone]
  · rw [Nat.zero_add, List.count_filter (by simpa using htaken)]

/-- The parents of what is taken come first, whatever is appended. -/
theorem parents_first {earlier later : List DeltaId} {id parent : DeltaId}
    (hsplit : q.topologicalSortQueue = earlier ++ id :: later)
    (hid : ¬BehindCycle (QueuedParent q) id) (hparent : QueuedParent q parent id) :
    parent ∈ earlier := by
  have hedge : (parent, id) ∈ q.causalEdges := mem_causalEdges.mpr hparent
  have hqueued : id ∈ q.ids := List.mem_dedup.mp (child_queued q parent id hedge)
  have hmem : id ∈ taken q := mem_taken.mpr ⟨hqueued, hid⟩
  rw [topologicalSortQueue_eq] at hsplit
  rcases List.append_eq_append_iff.mp hsplit with ⟨mid, hearlier, hrest⟩ | ⟨mid, htaken, hrest⟩
  · have happended : id ∈ q.ids.filter (· ∉ taken q) := by rw [hrest]; simp
    simp [hmem] at happended
  · cases mid with
    | nil =>
      rw [List.nil_append] at hrest
      have happended : id ∈ q.ids.filter (· ∉ taken q) := by rw [← hrest]; simp
      simp [hmem] at happended
    | cons first mid =>
      rw [List.cons_append] at hrest
      obtain ⟨rfl, -⟩ := List.cons.inj hrest
      exact (taken_taken q).before earlier id mid htaken parent hedge

/-- The sort ends on every queue with the waiting parents first where there is no cycle; it lists each
Delta once exactly when what is on or behind a cycle waits once. -/
theorem listsOnce_iff (q : CloudOutboundQueue) : ListsOnce q ↔ CyclesWaitOnce q := by
  constructor
  · intro h id hid hcycle
    have hcount := h.once id
    have hnot : id ∉ taken q := fun hmem => (mem_taken.mp hmem).2 hcycle
    rw [count_topologicalSortQueue, if_neg hnot, if_pos hid] at hcount
    exact hcount
  · intro h
    refine ⟨⟨_, topologicalSortQueueChecked_eq q⟩, fun id => ?_,
      fun earlier id later hsplit hid parent hparent => parents_first hsplit hid hparent⟩
    rw [count_topologicalSortQueue]
    split_ifs with htaken hid hid
    · rfl
    · exact absurd (mem_taken.mp htaken).1 hid
    · have hcycle : BehindCycle (QueuedParent q) id := by
        by_contra hnot
        exact htaken (mem_taken.mpr ⟨hid, hnot⟩)
      exact h id hid hcycle
    · exact List.count_eq_zero.mpr hid

/-- A Delta that names itself as its parent waits twice and is listed twice. -/
theorem selfParent_listed_twice :
    let entry : QueueEntry := .new 1 [] [1]
    (⟨[entry, entry]⟩ : CloudOutboundQueue).topologicalSortQueue = [1, 1] ∧
      ¬ListsOnce ⟨[entry, entry]⟩ := by
  intro entry
  have hsorted : (⟨[entry, entry]⟩ : CloudOutboundQueue).topologicalSortQueue = [1, 1] := by
    decide +kernel
  refine ⟨hsorted, fun h => ?_⟩
  have hcount := h.once 1
  rw [hsorted] at hcount
  revert hcount
  decide +kernel

end TirBase.QueueOrder
