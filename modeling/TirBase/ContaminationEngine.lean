import Mathlib
import TirBase.BreadthFirst
import TirBase.LocalStore
import TirBase.TagLogs

/-! # The causal contamination engine

Taint spreads from a root along the edges of the Changeset DAG. Every root opens an incident; an
incident that shares a Delta with an open one is joined with it into a composite. -/
namespace TirBase

abbrev IncidentId := Uuid

inductive IncidentState
  | open_ | closed | supersededBy (id : IncidentId) | decomposed
  deriving DecidableEq

inductive TaintSource
  | deviceRevocation (revocationDeltaId : DeltaId)
  | badMigration (migrationId : BitVec 256)
  | humanReaction (triggeredByIncidentId : IncidentId)
  deriving DecidableEq

structure AffectedRow where
  table : String
  rowKey : String
  deltaId : DeltaId
  deriving DecidableEq

inductive AuditOperation
  | verifyData | adminClose
  deriving DecidableEq

structure AuditEntry where
  operation : AuditOperation
  managerDid : Did
  utcTimestamp : ℤ
  affectedDeltaIds : List DeltaId
  deriving DecidableEq

structure IncidentContextObject where
  id : IncidentId
  state : IncidentState
  taintSource : TaintSource
  contaminationRoots : List DeltaId
  contaminatedDeltas : Finset DeltaId
  affectedRows : List AffectedRow
  compositeOf : Option (List IncidentId)
  createdAt : ℤ
  updatedAt : ℤ
  auditLog : List AuditEntry
  deriving DecidableEq

structure CompositeIncidentInstance where
  id : IncidentId
  state : IncidentState
  compositeOf : List IncidentId
  contaminationRoots : List DeltaId
  contaminatedDeltas : Finset DeltaId
  affectedRows : List AffectedRow
  createdAt : ℤ
  updatedAt : ℤ
  auditLog : List AuditEntry
  deriving DecidableEq

namespace ChangesetDag

/-- The queue of the breadth-first walk; a Delta enters it once for each edge at most. -/
def walk (dag : ChangesetDag) : ℕ → List DeltaId → List DeltaId → List DeltaId
  | 0, result, _ => result
  | _, result, [] => result
  | fuel + 1, result, current :: queue =>
    if current ∈ result then dag.walk fuel result queue
    else
      dag.walk fuel (result ++ [current])
        (queue ++ (dag.children current).filter fun c => c ∉ result ++ [current])

def bfsDescendants (dag : ChangesetDag) (rootId : DeltaId) : List DeltaId :=
  dag.walk (dag.edges.length + 1) [] [rootId]

def nodesBySchemaHash (dag : ChangesetDag) (schemaHash : SchemaIdentifierHash) : List DeltaId :=
  (dag.nodes.filter fun r => r.schemaHash = schemaHash).map DagRow.id

/-- The same rows, with more tags. -/
structure Retags (dag dag' : ChangesetDag) : Prop where
  forth : dag.Extends dag'
  back : ∀ r' ∈ dag'.nodes, ∃ r ∈ dag.nodes, r.Extends r'

theorem Retags.refl (dag : ChangesetDag) : dag.Retags dag :=
  ⟨.refl dag, fun r hr => ⟨r, hr, .refl r⟩⟩

theorem Retags.trans {dag dag' dag'' : ChangesetDag} (h : dag.Retags dag')
    (h' : dag'.Retags dag'') : dag.Retags dag'' := by
  refine ⟨h.forth.trans h'.forth, fun r'' hr'' => ?_⟩
  obtain ⟨r', hr', hext'⟩ := h'.back r'' hr''
  obtain ⟨r, hr, hext⟩ := h.back r' hr'
  exact ⟨r, hr, hext.trans hext'⟩

theorem retags_appendTag (dag : ChangesetDag) (deltaId : DeltaId) (tag : DeltaTag) :
    dag.Retags (dag.appendTag deltaId tag) := by
  have hrow : ∀ r : DagRow, r.Extends
      (if r.id = deltaId then { r with tagsJson := r.tagsJson ++ [tag] } else r) := by
    intro r
    split_ifs
    · exact ⟨rfl, rfl, rfl, rfl, rfl, rfl, List.prefix_append _ _⟩
    · exact .refl r
  refine ⟨fun r hr => ⟨_, List.mem_map_of_mem hr, hrow r⟩, fun r' hr' => ?_⟩
  obtain ⟨r, hr, rfl⟩ := List.mem_map.mp hr'
  exact ⟨r, hr, hrow r⟩

theorem retags_foldl_appendTag (tag : DeltaTag) (ids : List DeltaId) (dag : ChangesetDag) :
    dag.Retags (ids.foldl (fun dag id => dag.appendTag id tag) dag) := by
  induction ids generalizing dag with
  | nil => exact .refl dag
  | cons id ids ih => exact (retags_appendTag dag id tag).trans (ih _)

@[simp] theorem graph_appendTag (dag : ChangesetDag) (deltaId : DeltaId) (tag : DeltaTag) :
    (dag.appendTag deltaId tag).graph = dag.graph := by
  have hids : ∀ r : DagRow,
      (if r.id = deltaId then { r with tagsJson := r.tagsJson ++ [tag] } else r).id = r.id := by
    intro r
    split_ifs <;> rfl
  simp only [graph, ids, appendTag, List.map_map]
  congr 1
  exact List.map_congr_left fun r _ => hids r

theorem graph_foldl_appendTag (tag : DeltaTag) (ids : List DeltaId) (dag : ChangesetDag) :
    (ids.foldl (fun dag id => dag.appendTag id tag) dag).graph = dag.graph := by
  induction ids generalizing dag with
  | nil => rfl
  | cons id ids ih => rw [List.foldl_cons, ih, graph_appendTag]

section Descendants
variable {dag : ChangesetDag} {id other : DeltaId}

theorem walk_eq (fuel : ℕ) (result queue : List DeltaId) :
    dag.walk fuel result queue = BreadthFirst.walk dag.children fuel result queue := by
  induction fuel generalizing result queue with
  | zero => rfl
  | succ fuel ih =>
    cases queue with
    | nil => rfl
    | cons current queue =>
      simp only [ChangesetDag.walk, BreadthFirst.walk, ih]

theorem length_children (v : DeltaId) :
    (dag.children v).length = (dag.edges.map Prod.fst).count v := by
  rw [children, List.length_map, List.count, List.countP_map, List.countP_eq_length_filter]
  congr 1

theorem mem_keys_of_children (v : DeltaId) (hv : dag.children v ≠ []) :
    v ∈ (dag.edges.map Prod.fst).toFinset := by
  rw [List.mem_toFinset, ← List.count_pos_iff, ← length_children]
  exact List.length_pos_iff.mpr hv

/-- The turns of the walk are enough for the root and an entry for each edge. -/
theorem sum_children :
    ∑ v ∈ (dag.edges.map Prod.fst).toFinset, (dag.children v).length = dag.edges.length := by
  simp only [length_children, List.sum_toFinset_count_eq_length, List.length_map]

/-- The walk of the native build reaches what its edges reach. -/
theorem mem_bfsDescendants_iff :
    other ∈ dag.bfsDescendants id ↔ BreadthFirst.Reaches dag.children id other := by
  rw [bfsDescendants, walk_eq]
  refine BreadthFirst.mem_walk_iff mem_keys_of_children ?_
  rw [sum_children]
  omega

theorem nodup_bfsDescendants : (dag.bfsDescendants id).Nodup := by
  rw [bfsDescendants, walk_eq]
  exact BreadthFirst.nodup_walk _ List.nodup_nil

end Descendants

end ChangesetDag

/-- Join two incidents; of the rows with one key the first is kept. -/
def compositeMerge (a b : IncidentContextObject) (compositeId : IncidentId) (now : ℤ) :
    IncidentContextObject × IncidentContextObject × CompositeIncidentInstance :=
  let roots := b.contaminationRoots.foldl
    (fun roots r => if r ∈ roots then roots else roots ++ [r]) a.contaminationRoots
  let rows := b.affectedRows.foldl (fun rows (row : AffectedRow) =>
    if rows.any fun r => r.rowKey == row.rowKey then rows else rows ++ [row]) a.affectedRows
  ({ a with state := .supersededBy compositeId }, { b with state := .supersededBy compositeId },
    ⟨compositeId, .open_, [a.id, b.id], roots, a.contaminatedDeltas ∪ b.contaminatedDeltas, rows,
      now, now, []⟩)

/-- What a hash map holds is listed in the order in which it yields its entries. -/
structure ContaminationEngine where
  incidents : AList fun _ : IncidentId => IncidentContextObject
  compositeIncidents : AList fun _ : IncidentId => CompositeIncidentInstance
  contaminatedRows : AList fun _ : String × String => IncidentId
  deriving DecidableEq

/-- The identifiers drawn, the time, the errors that the queries meet, and the Deltas whose tags
cannot be updated. -/
structure TaintEnvironment where
  icoId : IncidentId
  compositeId : IncidentId
  now : ℤ
  walkFault : Option TirBaseError
  rowsFault : Option TirBaseError
  tagFault : DeltaId → Bool

namespace ContaminationEngine

def new : ContaminationEngine := ⟨∅, ∅, ∅⟩

def isRowContaminated (cce : ContaminationEngine) (table rowKey : String) : Bool :=
  (cce.contaminatedRows.lookup (table, rowKey)).isSome

def activeIncidentForRow (cce : ContaminationEngine) (table rowKey : String) :
    Option IncidentId :=
  cce.contaminatedRows.lookup (table, rowKey)

def indexRows (cce : ContaminationEngine) (rows : List AffectedRow) (id : IncidentId) :
    ContaminationEngine :=
  { cce with contaminatedRows :=
      rows.foldl (fun index row => index.insert (row.table, row.rowKey) id) cce.contaminatedRows }

/-- The first open incident that shares a Delta with a new one. -/
def overlapping (cce : ContaminationEngine) (ico : IncidentContextObject) :
    Option IncidentContextObject :=
  (cce.incidents.entries.map Sigma.snd).find? fun existing =>
    existing.state = .open_ && !decide (Disjoint existing.contaminatedDeltas ico.contaminatedDeltas)

/-- Enter a new incident, as part of a composite if it overlaps an open one. -/
def register (cce : ContaminationEngine) (ico : IncidentContextObject) (compositeId : IncidentId)
    (now : ℤ) : IncidentId × ContaminationEngine :=
  match cce.overlapping ico with
  | some existing =>
    let (a, b, composite) := compositeMerge existing ico compositeId now
    (compositeId, indexRows
      { cce with
        incidents := (cce.incidents.insert a.id a).insert b.id b
        compositeIncidents := cce.compositeIncidents.insert compositeId composite }
      composite.affectedRows compositeId)
  | none =>
    (ico.id, indexRows { cce with incidents := cce.incidents.insert ico.id ico }
      ico.affectedRows ico.id)

/-- `tag_contamination_root` of the native build. A tag that cannot be stored is dropped, and all
rows count as affected. -/
def tagContaminationRoot (log : TagLogs.LogEnvironment) (env : TaintEnvironment)
    (rootDeltaId : DeltaId) (source : TaintSource) (cce : ContaminationEngine) (dag : ChangesetDag)
    (store : LocalStore) :
    Except TirBaseError IncidentId × ContaminationEngine × ChangesetDag × LocalStore :=
  match env.walkFault with
  | some e => (.error e, cce, dag, store)
  | none =>
    let descendants := dag.bfsDescendants rootDeltaId
    let tagged := descendants.filter fun id => !env.tagFault id
    let dag := tagged.foldl
      (fun dag id => TagLogs.appendTag log dag id (.contaminated rootDeltaId env.icoId)) dag
    match env.rowsFault with
    | some e => (.error e, cce, dag, store)
    | none =>
      let rows := store.projectedKeys.map fun row => ⟨row.1, row.2, rootDeltaId⟩
      let store := rows.foldl
        (fun store (row : AffectedRow) => store.markRowContaminated row.table row.rowKey) store
      let ico : IncidentContextObject := ⟨env.icoId, .open_, source, [rootDeltaId],
        descendants.toFinset, rows, none, env.now, env.now, []⟩
      let out := cce.register ico env.compositeId env.now
      (.ok out.1, out.2, dag, store)

theorem retags_tagContaminationRoot (env : TaintEnvironment) (rootDeltaId : DeltaId)
    (source : TaintSource) (cce : ContaminationEngine) (dag : ChangesetDag) (store : LocalStore) :
    dag.Retags (tagContaminationRoot .clean env rootDeltaId source cce dag store).2.2.1 := by
  unfold tagContaminationRoot
  rw [TagLogs.appendTag_clean]
  split
  · exact .refl dag
  · split <;> exact dag.retags_foldl_appendTag _ _

theorem graph_tagContaminationRoot (env : TaintEnvironment) (rootDeltaId : DeltaId)
    (source : TaintSource) (cce : ContaminationEngine) (dag : ChangesetDag) (store : LocalStore) :
    (tagContaminationRoot .clean env rootDeltaId source cce dag store).2.2.1.graph = dag.graph := by
  unfold tagContaminationRoot
  rw [TagLogs.appendTag_clean]
  split
  · rfl
  · split <;> exact dag.graph_foldl_appendTag _ _

end ContaminationEngine

end TirBase
