import Mathlib
import TirBase.DurabilitySubsystem
import TirBase.KahnBatches
import TirBase.TransitionRuns

/-! # Cloud synchronisation

A cycle puts the waiting Deltas in causal order once and then offers them to the Cloud Ledger one by
one. What is rejected, or cannot be fetched again, stays in the queue, and the cycle goes on behind
it. -/
namespace TirBase
open TransitionRuns

namespace QueueEntry

/-- The bytes at hand, or those of a peer when they were compacted. -/
def resolveBytes (refetch : DeltaId → List Did → Option Bytes) (e : QueueEntry) : Option Bytes :=
  match e.deltaBytes with
  | some bytes => some bytes
  | none => if e.compacted then refetch e.deltaId e.receiptHolders else none

end QueueEntry

namespace CloudOutboundQueue

def find (q : CloudOutboundQueue) (deltaId : DeltaId) : Option QueueEntry :=
  q.queue.find? fun e => e.deltaId = deltaId

/-- The causal parents that wait in the queue too, each with its child. -/
def causalEdges (q : CloudOutboundQueue) : List (DeltaId × DeltaId) :=
  q.queue.flatMap fun e => (e.causalParents.filter (· ∈ q.ids)).map fun parent => (parent, e.deltaId)

/-- `order_index`: the last place of an identifier in the queue. -/
def orderIndex (q : CloudOutboundQueue) (deltaId : DeltaId) : ℕ :=
  (q.ids.zipIdx.reverse.lookup deltaId).getD (2 ^ 64 - 1)

/-- Parents before children; what is on a cycle comes last, as it was queued. -/
def topologicalSortQueue (q : CloudOutboundQueue) : List DeltaId :=
  let sorted := KahnBatches.sort q.ids.dedup q.causalEdges fun ids =>
    ids.insertionSort fun a b => q.orderIndex a ≤ q.orderIndex b
  sorted ++ q.ids.filter (· ∉ sorted)

end CloudOutboundQueue

structure CloudSyncResult where
  acknowledged : ℕ
  rejected : ℕ
  deferred : ℕ
  acknowledgedIds : List DeltaId
  deriving DecidableEq

structure SyncProgress (Γ : Type*) where
  queue : CloudOutboundQueue
  conn : Γ
  result : CloudSyncResult

section Cycle
variable {Γ : Type*} (sendDelta : Γ → DeltaId → Bytes → Except String Unit × Γ)
  (refetch : DeltaId → List Did → Option Bytes)

def syncEntry (s : SyncProgress Γ) (deltaId : DeltaId) : SyncProgress Γ :=
  match s.queue.find deltaId with
  | none => s
  | some entry =>
    if entry.tier2Durable then { s with
      queue := s.queue.acknowledge deltaId
      result := { s.result with acknowledged := s.result.acknowledged + 1 } }
    else
      match entry.resolveBytes refetch with
      | none => { s with result := { s.result with deferred := s.result.deferred + 1 } }
      | some bytes =>
        let out := sendDelta s.conn deltaId bytes
        match out.1 with
        | .ok () => {
            queue := s.queue.acknowledge deltaId
            conn := out.2
            result := { s.result with
              acknowledged := s.result.acknowledged + 1
              acknowledgedIds := s.result.acknowledgedIds ++ [deltaId] } }
        | .error _ => { s with
            conn := out.2
            result := { s.result with rejected := s.result.rejected + 1 } }

def cloudSyncLoop (queue : CloudOutboundQueue) (conn : Γ) : SyncProgress Γ :=
  queue.topologicalSortQueue.foldl (syncEntry sendDelta refetch) ⟨queue, conn, ⟨0, 0, 0, []⟩⟩

end Cycle

namespace CloudOutboundQueue
variable {q : CloudOutboundQueue} {deltaId : DeltaId} {e : QueueEntry}

/-- A rank of Deltas that grows from every causal parent to its child: there are no cycles. -/
def CausallyRanked (rank : DeltaId → ℕ) (q : CloudOutboundQueue) : Prop :=
  ∀ e ∈ q.queue, ∀ parent ∈ e.causalParents, rank parent < rank e.deltaId

theorem mem_ids : deltaId ∈ q.ids ↔ ∃ e ∈ q.queue, e.deltaId = deltaId := List.mem_map

theorem find_eq_some (h : q.find deltaId = some e) : e ∈ q.queue ∧ e.deltaId = deltaId := by
  refine ⟨List.mem_of_find?_eq_some h, ?_⟩
  simpa using List.find?_some h

theorem exists_find (h : deltaId ∈ q.ids) : ∃ e, q.find deltaId = some e := by
  obtain ⟨e, he, hid⟩ := mem_ids.mp h
  cases hfind : q.find deltaId with
  | some e => exact ⟨e, rfl⟩
  | none =>
    have hnone := List.find?_eq_none.mp hfind e he
    simp [hid] at hnone

theorem mem_causalEdges {parent child : DeltaId} : (parent, child) ∈ q.causalEdges ↔
    parent ∈ q.ids ∧ ∃ e ∈ q.queue, e.deltaId = child ∧ parent ∈ e.causalParents := by
  simp only [causalEdges, List.mem_flatMap, List.mem_map, List.mem_filter, decide_eq_true_eq,
    Prod.mk.injEq]
  constructor
  · rintro ⟨e, he, p, ⟨hp, hqueued⟩, rfl, rfl⟩
    exact ⟨hqueued, e, he, rfl, hp⟩
  · rintro ⟨hqueued, e, he, rfl, hp⟩
    exact ⟨e, he, parent, ⟨hp, hqueued⟩, rfl, rfl⟩

/-- Without cycles the order lists each waiting Delta once, behind its waiting parents. -/
theorem topologicalSortQueue_spec {rank : DeltaId → ℕ} (h : q.CausallyRanked rank) :
    q.topologicalSortQueue.Nodup ∧ (∀ id, id ∈ q.topologicalSortQueue ↔ id ∈ q.ids) ∧
      ∀ before id rest, q.topologicalSortQueue = before ++ id :: rest →
        ∀ e ∈ q.queue, e.deltaId = id → ∀ parent ∈ e.causalParents, parent ∈ q.ids →
          parent ∈ before := by
  have hedges : ∀ p c, (p, c) ∈ q.causalEdges → p ∈ q.ids.dedup ∧ c ∈ q.ids.dedup := by
    intro p c hpc
    obtain ⟨hp, e, he, rfl, -⟩ := mem_causalEdges.mp hpc
    exact ⟨List.mem_dedup.mpr hp, List.mem_dedup.mpr (List.mem_map_of_mem he)⟩
  have hrank : ∀ p c, (p, c) ∈ q.causalEdges → rank p < rank c := by
    intro p c hpc
    obtain ⟨-, e, he, rfl, hparent⟩ := mem_causalEdges.mp hpc
    exact h e he p hparent
  let order : List DeltaId → List DeltaId :=
    fun ids => ids.insertionSort fun a b => q.orderIndex a ≤ q.orderIndex b
  have hperm : ∀ ids, (order ids).Perm ids := fun ids => List.perm_insertionSort _ ids
  obtain ⟨hnodup, hmem, hbefore⟩ :=
    KahnBatches.sort_spec (List.nodup_dedup _) hperm hedges rank hrank
  simp only [List.mem_dedup] at hmem
  have hsort : q.topologicalSortQueue = KahnBatches.sort q.ids.dedup q.causalEdges order := by
    have hnil : (q.ids.filter fun id =>
        decide (id ∉ KahnBatches.sort q.ids.dedup q.causalEdges order)) = [] := by
      refine List.filter_eq_nil_iff.mpr fun id hid => ?_
      simp [(hmem id).mpr hid]
    exact (congrArg _ hnil).trans (List.append_nil _)
  rw [hsort]
  refine ⟨hnodup, hmem, fun before id rest hsplit e he hid parent hparent hqueued => ?_⟩
  exact hbefore before id rest hsplit parent (mem_causalEdges.mpr ⟨hqueued, e, he, hid, hparent⟩)

end CloudOutboundQueue

section Turn
variable {Γ : Type*} (sendDelta : Γ → DeltaId → Bytes → Except String Unit × Γ)
  (refetch : DeltaId → List Did → Option Bytes)

variable {s : SyncProgress Γ} {deltaId : DeltaId} {e : QueueEntry}

theorem syncEntry_of_durable (hfind : s.queue.find deltaId = some e) (h : e.tier2Durable = true) :
    syncEntry sendDelta refetch s deltaId = { s with
      queue := s.queue.acknowledge deltaId
      result := { s.result with acknowledged := s.result.acknowledged + 1 } } := by
  simp only [syncEntry, hfind, h, if_true]

theorem syncEntry_of_deferred (hfind : s.queue.find deltaId = some e)
    (h : e.tier2Durable = false) (hbytes : e.resolveBytes refetch = none) :
    syncEntry sendDelta refetch s deltaId =
      { s with result := { s.result with deferred := s.result.deferred + 1 } } := by
  simp only [syncEntry, hfind, h, hbytes, Bool.false_eq_true, if_false]

theorem syncEntry_of_sent {bytes : Bytes} (hfind : s.queue.find deltaId = some e)
    (h : e.tier2Durable = false) (hbytes : e.resolveBytes refetch = some bytes) :
    syncEntry sendDelta refetch s deltaId =
      let out := sendDelta s.conn deltaId bytes
      match out.1 with
      | .ok () => {
          queue := s.queue.acknowledge deltaId
          conn := out.2
          result := { s.result with
            acknowledged := s.result.acknowledged + 1
            acknowledgedIds := s.result.acknowledgedIds ++ [deltaId] } }
      | .error _ => { s with
          conn := out.2
          result := { s.result with rejected := s.result.rejected + 1 } } := by
  simp only [syncEntry, hfind, h, hbytes, Bool.false_eq_true, if_false]

/-- A turn removes the Delta, if it is marked durable or acknowledged now, or nothing. -/
theorem syncEntry_cases (s : SyncProgress Γ) (deltaId : DeltaId) :
    let s' := syncEntry sendDelta refetch s deltaId
    (s'.queue = s.queue ∧ s'.result.acknowledgedIds = s.result.acknowledgedIds) ∨
    ∃ e, s.queue.find deltaId = some e ∧ s'.queue = s.queue.acknowledge deltaId ∧
      (e.tier2Durable = true ∧ s'.result.acknowledgedIds = s.result.acknowledgedIds ∨
        s'.result.acknowledgedIds = s.result.acknowledgedIds ++ [deltaId]) := by
  intro s'
  cases hfind : s.queue.find deltaId with
  | none =>
    have hs' : s' = s := by simp only [s', syncEntry, hfind]
    exact .inl ⟨by rw [hs'], by rw [hs']⟩
  | some e =>
    cases htier : e.tier2Durable with
    | true =>
      have hs' : s' = _ := syncEntry_of_durable sendDelta refetch hfind htier
      rw [hs']
      exact .inr ⟨e, rfl, rfl, .inl ⟨htier, rfl⟩⟩
    | false =>
      cases hbytes : e.resolveBytes refetch with
      | none =>
        have hs' : s' = _ := syncEntry_of_deferred sendDelta refetch hfind htier hbytes
        rw [hs']
        exact .inl ⟨rfl, rfl⟩
      | some bytes =>
        have hs' : s' = _ := syncEntry_of_sent sendDelta refetch hfind htier hbytes
        rw [hs']
        rcases sendDelta s.conn deltaId bytes with ⟨answer, conn⟩
        cases answer with
        | error reason => exact .inl ⟨rfl, rfl⟩
        | ok u => exact .inr ⟨e, rfl, rfl, .inr rfl⟩

end Turn

end TirBase
