import TirBase.ChangesetDag

/-! # The tag logs

A tag is appended by reading the log, pushing the tag and writing the log back. A log that cannot
be read counts as empty, both when a tag is appended and when a root is looked up. -/
namespace TirBase

def DeltaTag.isResolved : DeltaTag → Bool
  | .resolved _ _ => true
  | _ => false

namespace ChangesetDag

/-- `append_tag_to_db`: an absent row has no tags to change. -/
def appendTag (dag : ChangesetDag) (deltaId : DeltaId) (tag : DeltaTag) : ChangesetDag :=
  { dag with nodes := dag.nodes.map fun r =>
      if r.id = deltaId then { r with tagsJson := r.tagsJson ++ [tag] } else r }

def hasResolvedTag (dag : ChangesetDag) (deltaId : DeltaId) : Bool :=
  (((dag.get deltaId).map DagRow.tagsJson).getD []).any DeltaTag.isResolved

/-- One tag for each Delta of a set, but for those whose tags cannot be stored. -/
def tagEach (dag : ChangesetDag) (ids : Finset DeltaId) (fault : DeltaId → Bool)
    (tag : DeltaTag) : ChangesetDag :=
  { dag with nodes := dag.nodes.map fun r =>
      if r.id ∈ ids ∧ fault r.id = false then { r with tagsJson := r.tagsJson ++ [tag] } else r }

end ChangesetDag

namespace TagLogs

/-- The readings that fail: before the append of a tag, and in `has_resolved_tag`. -/
structure LogEnvironment where
  unread : DeltaId → DeltaTag → Bool
  unreadable : DeltaId → Bool

def LogEnvironment.clean : LogEnvironment := ⟨fun _ _ => false, fun _ => false⟩

section Access
variable (log : LogEnvironment)

/-- `append_tag_to_db` on a row whose update does not fail. -/
def storeTag (tag : DeltaTag) (r : DagRow) : DagRow :=
  { r with tagsJson := (if log.unread r.id tag then [] else r.tagsJson) ++ [tag] }

/-- Append a tag to the logs of the Deltas whose updates come through. -/
def storeEach (dag : ChangesetDag) (stored : DeltaId → Bool) (tag : DeltaTag) : ChangesetDag :=
  { dag with nodes := dag.nodes.map fun r => if stored r.id then storeTag log tag r else r }

def appendTag (dag : ChangesetDag) (deltaId : DeltaId) (tag : DeltaTag) : ChangesetDag :=
  storeEach log dag (fun id => decide (id = deltaId)) tag

def tagEach (dag : ChangesetDag) (ids : Finset DeltaId) (fault : DeltaId → Bool)
    (tag : DeltaTag) : ChangesetDag :=
  storeEach log dag (fun id => decide (id ∈ ids ∧ fault id = false)) tag

def readsResolved (dag : ChangesetDag) (id : DeltaId) : Bool :=
  !log.unreadable id && dag.hasResolvedTag id

/-- Distinct Deltas are tagged one after the other as they are tagged together. -/
theorem foldl_appendTag (tag : DeltaTag) {ids : List DeltaId} (hnodup : ids.Nodup)
    (dag : ChangesetDag) : ids.foldl (fun dag id => appendTag log dag id tag) dag =
      storeEach log dag (fun id => decide (id ∈ ids)) tag := by
  induction ids generalizing dag with
  | nil => simp [storeEach]
  | cons first ids ih =>
    obtain ⟨hfirst, hrest⟩ := List.nodup_cons.mp hnodup
    rw [List.foldl_cons, ih hrest]
    simp only [storeEach, appendTag, List.map_map, List.mem_cons, decide_eq_true_eq]
    congr 1
    refine List.map_congr_left fun r _ => ?_
    by_cases hr : r.id = first
    · subst hr
      simp [storeTag, hfirst]
    · simp [hr]

end Access

theorem appendTag_clean : appendTag .clean = ChangesetDag.appendTag := by
  funext dag deltaId tag
  simp [appendTag, ChangesetDag.appendTag, storeEach, storeTag, LogEnvironment.clean]

theorem tagEach_clean : tagEach .clean = ChangesetDag.tagEach := by
  funext dag ids fault tag
  simp [tagEach, ChangesetDag.tagEach, storeEach, storeTag, LogEnvironment.clean]

theorem readsResolved_clean : readsResolved .clean = ChangesetDag.hasResolvedTag := by
  funext dag id
  simp [readsResolved, LogEnvironment.clean]

end TagLogs

end TirBase
