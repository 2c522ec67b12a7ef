import TirBase.IncidentResolution
import TirBase.TransitionRuns

/-! # Runs of the contamination engine

Roots are tagged and certified and incidents are closed, over a DAG and a store that only these calls
change. What a call does to the incidents and the composites is stated once, in terms of what they
show: their state, roots, Deltas and rows. -/
namespace TirBase.IncidentRuns
open ContaminationEngine TransitionRuns
open TagLogs (appendTag_clean)

structure IncidentRun where
  cce : ContaminationEngine
  dag : ChangesetDag
  store : LocalStore

inductive IncidentOperation
  | tag (env : TaintEnvironment) (rootDeltaId : DeltaId) (source : TaintSource)
  | verify (env : ResolutionEnvironment) (rootDeltaId : DeltaId) (managerDid : Did)
      (managerSig : Bytes) (managerTokenExpiry nowSecs : ℤ)
  | close (now : ℤ) (incidentId : IncidentId) (managerDid : Did) (managerSig : Bytes)
      (managerTokenExpiry nowSecs : ℤ)

def step (lib : IdentityLibraries) (s : IncidentRun) : IncidentOperation → IncidentRun
  | .tag env rootDeltaId source =>
    let out := tagContaminationRoot .clean env rootDeltaId source s.cce s.dag s.store
    ⟨out.2.1, out.2.2.1, out.2.2.2⟩
  | .verify env rootDeltaId managerDid managerSig managerTokenExpiry nowSecs =>
    let out := verifyData .clean lib env rootDeltaId managerDid managerSig managerTokenExpiry nowSecs
      s.cce s.dag s.store
    ⟨out.2.1, out.2.2.1, out.2.2.2⟩
  | .close now incidentId managerDid managerSig managerTokenExpiry nowSecs =>
    { s with cce := (adminClose lib now incidentId managerDid managerSig managerTokenExpiry nowSecs
        s.cce).2 }

/-- The key of an incident on the left, of a composite on the right. -/
abbrev IncidentKey := IncidentId ⊕ IncidentId

structure IncidentView where
  id : IncidentId
  state : IncidentState
  roots : List DeltaId
  deltas : Finset DeltaId
  rows : Finset (String × String)
  deriving DecidableEq

def rowKeys (rows : List AffectedRow) : Finset (String × String) :=
  (rows.map fun row => (row.table, row.rowKey)).toFinset

def icoView (ico : IncidentContextObject) : IncidentView :=
  ⟨ico.id, ico.state, ico.contaminationRoots, ico.contaminatedDeltas, rowKeys ico.affectedRows⟩

def compositeView (comp : CompositeIncidentInstance) : IncidentView :=
  ⟨comp.id, comp.state, comp.contaminationRoots, comp.contaminatedDeltas,
    rowKeys comp.affectedRows⟩

def view (cce : ContaminationEngine) : IncidentKey → Option IncidentView
  | .inl id => (cce.incidents.lookup id).map icoView
  | .inr id => (cce.compositeIncidents.lookup id).map compositeView

def absorbed (cce : ContaminationEngine) (id : IncidentId) : Option (List IncidentId) :=
  (cce.compositeIncidents.lookup id).map CompositeIncidentInstance.compositeOf

def projected (store : LocalStore) : Finset (String × String) := store.projectedKeys.toFinset

theorem mem_projected {store : LocalStore} {x : String × String} :
    x ∈ projected store ↔ ∃ name t, store.tables.lookup name = some t ∧
      x.1 = String.ofList (t.name.toList.drop "proj_".length) ∧ x.2 ∈ t.rows := by
  simp only [projected, LocalStore.projectedKeys, List.mem_toFinset, List.mem_flatMap, List.mem_map]
  constructor
  · rintro ⟨⟨name, t⟩, ht, key, hkey, rfl⟩
    exact ⟨name, t, AList.mem_lookup_iff.mpr ht, rfl, hkey⟩
  · rintro ⟨name, t, ht, htable, hkey⟩
    exact ⟨⟨name, t⟩, AList.mem_lookup_iff.mp ht, x.2, hkey, Prod.ext htable.symm rfl⟩

theorem projected_createTable (store : LocalStore) (table : String) :
    projected (store.createTable table) = projected store := by
  unfold LocalStore.createTable
  cases hlookup : store.tables.lookup (sqlName table) with
  | some t => rfl
  | none =>
    ext x
    rw [mem_projected, mem_projected]
    constructor
    · rintro ⟨name, t, ht, htable, hkey⟩
      by_cases hname : name = sqlName table
      · subst hname
        rw [AList.lookup_insert] at ht
        cases ht
        exact absurd hkey (AList.notMem_empty _)
      · rw [AList.lookup_insert_ne hname] at ht
        exact ⟨name, t, ht, htable, hkey⟩
    · rintro ⟨name, t, ht, hrest⟩
      have hname : name ≠ sqlName table := by
        rintro rfl
        cases hlookup.symm.trans ht
      exact ⟨name, t, by rw [AList.lookup_insert_ne hname]; exact ht, hrest⟩

theorem projected_setRow {store : LocalStore} {table key : String} {row : ProjectionRow}
    (hrow : store.row? table key = some row) (row' : ProjectionRow) :
    projected (store.setRow table key row') = projected store := by
  unfold LocalStore.setRow
  cases hlookup : store.tables.lookup (sqlName table) with
  | none => rfl
  | some t =>
    have hkey : key ∈ t.rows := by
      rw [LocalStore.row?, hlookup] at hrow
      exact AList.lookup_isSome.mp (Option.isSome_iff_exists.mpr ⟨row, hrow⟩)
    ext x
    rw [mem_projected, mem_projected]
    constructor
    · rintro ⟨name, t', ht', htable, hmem⟩
      by_cases hname : name = sqlName table
      · subst hname
        rw [AList.lookup_insert] at ht'
        cases ht'
        refine ⟨_, t, hlookup, htable, ?_⟩
        rcases (AList.mem_insert _).mp hmem with hsame | hmem
        · exact hsame ▸ hkey
        · exact hmem
      · rw [AList.lookup_insert_ne hname] at ht'
        exact ⟨name, t', ht', htable, hmem⟩
    · rintro ⟨name, t', ht', htable, hmem⟩
      by_cases hname : name = sqlName table
      · subst hname
        cases hlookup.symm.trans ht'
        exact ⟨_, _, AList.lookup_insert _, htable, (AList.mem_insert _).mpr (.inr hmem)⟩
      · exact ⟨name, t', by rw [AList.lookup_insert_ne hname]; exact ht', htable, hmem⟩

theorem projected_markRowContaminated (store : LocalStore) (table key : String) :
    projected (store.markRowContaminated table key) = projected store := by
  unfold LocalStore.markRowContaminated
  dsimp only
  split
  · exact projected_createTable store table
  · rename_i row hrow
    rw [projected_setRow hrow, projected_createTable]

theorem projected_clearRowContamination (store : LocalStore) (table key : String) :
    projected (store.clearRowContamination table key) = projected store := by
  unfold LocalStore.clearRowContamination
  split
  · rfl
  · rename_i row hrow
    exact projected_setRow hrow _

theorem projected_foldl {Item : Type} {f : LocalStore → Item → LocalStore}
    (hf : ∀ store item, projected (f store item) = projected store) (items : List Item)
    (store : LocalStore) : projected (items.foldl f store) = projected store := by
  induction items generalizing store with
  | nil => rfl
  | cons item items ih => rw [List.foldl_cons, ih, hf]

def markAll (store : LocalStore) : LocalStore :=
  store.projectedKeys.foldl (fun store row => store.markRowContaminated row.1 row.2) store

theorem projected_markAll (store : LocalStore) : projected (markAll store) = projected store := by
  rw [markAll]
  exact projected_foldl (fun store row => projected_markRowContaminated store _ _) _ _

theorem rowKeys_projectedKeys (store : LocalStore) (rootDeltaId : DeltaId) :
    rowKeys (store.projectedKeys.map fun row => ⟨row.1, row.2, rootDeltaId⟩) =
      projected store := by
  rw [rowKeys, projected, List.map_map]
  congr 1
  exact List.map_id _

/-- The same graph, with the same roots resolved. -/
structure SameResolved (dag dag' : ChangesetDag) : Prop where
  graph : dag'.graph = dag.graph
  resolved : ∀ id, dag'.hasResolvedTag id = dag.hasResolvedTag id

theorem SameResolved.refl (dag : ChangesetDag) : SameResolved dag dag := ⟨rfl, fun _ => rfl⟩

theorem SameResolved.trans {dag dag' dag'' : ChangesetDag} (h : SameResolved dag dag')
    (h' : SameResolved dag' dag'') : SameResolved dag dag'' :=
  ⟨h'.graph.trans h.graph, fun id => (h'.resolved id).trans (h.resolved id)⟩

theorem bfsDescendants_congr {dag dag' : ChangesetDag} (h : dag'.graph = dag.graph)
    (id : DeltaId) : dag'.bfsDescendants id = dag.bfsDescendants id := by
  have hedges : dag'.edges = dag.edges := congrArg KahnSort.Graph.edges h
  have hchildren : dag'.children = dag.children := by
    funext parent
    rw [ChangesetDag.children, ChangesetDag.children, hedges]
  rw [ChangesetDag.bfsDescendants, ChangesetDag.bfsDescendants, ChangesetDag.walk_eq,
    ChangesetDag.walk_eq, hchildren, hedges]

theorem get_map {dag : ChangesetDag} {f : DagRow → DagRow} (hid : ∀ r, (f r).id = r.id)
    (id : DeltaId) :
    ({ dag with nodes := dag.nodes.map f } : ChangesetDag).get id = (dag.get id).map f := by
  rw [ChangesetDag.get, ChangesetDag.get, List.find?_map]
  congr 2
  funext r
  rw [Function.comp_apply, hid]

/-- Rows that change their tags only, by tags that resolve nothing. -/
theorem sameResolved_map {dag : ChangesetDag} {f : DagRow → DagRow} (hid : ∀ r, (f r).id = r.id)
    (htags : ∀ r, (f r).tagsJson.any DeltaTag.isResolved = r.tagsJson.any DeltaTag.isResolved) :
    SameResolved dag { dag with nodes := dag.nodes.map f } := by
  refine ⟨?_, fun id => ?_⟩
  · simp only [ChangesetDag.graph, ChangesetDag.ids, List.map_map]
    congr 1
    exact List.map_congr_left fun r _ => hid r
  · rw [ChangesetDag.hasResolvedTag, ChangesetDag.hasResolvedTag, get_map hid]
    cases dag.get id with
    | none => rfl
    | some r => exact htags r

theorem sameResolved_appendTag (dag : ChangesetDag) (id : DeltaId) {tag : DeltaTag}
    (htag : tag.isResolved = false) : SameResolved dag (dag.appendTag id tag) := by
  refine sameResolved_map (fun r => ?_) fun r => ?_
  · split_ifs <;> rfl
  · split_ifs
    · simp [htag]
    · rfl

theorem sameResolved_foldl_appendTag {tag : DeltaTag} (htag : tag.isResolved = false)
    (ids : List DeltaId) (dag : ChangesetDag) :
    SameResolved dag (ids.foldl (fun dag id => dag.appendTag id tag) dag) := by
  induction ids generalizing dag with
  | nil => exact .refl dag
  | cons id ids ih => exact (sameResolved_appendTag dag id htag).trans (ih _)

theorem sameResolved_tagEach (dag : ChangesetDag) (ids : Finset DeltaId) (fault : DeltaId → Bool)
    {tag : DeltaTag} (htag : tag.isResolved = false) :
    SameResolved dag (dag.tagEach ids fault tag) := by
  refine sameResolved_map (fun r => ?_) fun r => ?_
  · split_ifs <;> rfl
  · split_ifs
    · simp [htag]
    · rfl

theorem tagEach_empty (dag : ChangesetDag) (fault : DeltaId → Bool) (tag : DeltaTag) :
    dag.tagEach ∅ fault tag = dag := by
  simp [ChangesetDag.tagEach]

theorem hasResolvedTag_resolve (dag : ChangesetDag) (rootDeltaId : DeltaId) (did : Did) (now : ℤ)
    (id : DeltaId) :
    (dag.appendTag rootDeltaId (.resolved did now)).hasResolvedTag id =
      (dag.hasResolvedTag id || decide (id = rootDeltaId ∧ rootDeltaId ∈ dag.ids)) := by
  have hid : ∀ r : DagRow, (if r.id = rootDeltaId then
      { r with tagsJson := r.tagsJson ++ [.resolved did now] } else r).id = r.id := by
    intro r
    split_ifs <;> rfl
  rw [ChangesetDag.hasResolvedTag, ChangesetDag.hasResolvedTag, ChangesetDag.appendTag, get_map hid]
  cases hget : dag.get id with
  | none =>
    have habsent : ¬(id = rootDeltaId ∧ rootDeltaId ∈ dag.ids) := by
      rintro ⟨rfl, hmem⟩
      obtain ⟨r, hr, hsame⟩ := List.mem_map.mp hmem
      exact List.find?_eq_none.mp hget r hr (decide_eq_true hsame)
    rw [decide_eq_false habsent]
    rfl
  | some r =>
    have hrow : r ∈ dag.nodes := List.mem_of_find?_eq_some hget
    have hsame : r.id = id := by simpa using List.find?_some hget
    by_cases hroot : id = rootDeltaId
    · have hstored : rootDeltaId ∈ dag.ids := List.mem_map.mpr ⟨r, hrow, hsame.trans hroot⟩
      simp [hsame, hroot, hstored, DeltaTag.isResolved]
    · simp [hsame, hroot]

@[simp] theorem view_insertIncident (cce : ContaminationEngine) (id : IncidentId)
    (ico : IncidentContextObject) (k : IncidentKey) :
    view { cce with incidents := cce.incidents.insert id ico } k =
      if k = .inl id then some (icoView ico) else view cce k := by
  cases k with
  | inl other =>
    by_cases hsame : other = id
    · subst hsame
      simp [view]
    · simp [view, hsame]
  | inr other => simp [view]

@[simp] theorem view_insertComposite (cce : ContaminationEngine) (id : IncidentId)
    (comp : CompositeIncidentInstance) (k : IncidentKey) :
    view { cce with compositeIncidents := cce.compositeIncidents.insert id comp } k =
      if k = .inr id then some (compositeView comp) else view cce k := by
  cases k with
  | inl other => simp [view]
  | inr other =>
    by_cases hsame : other = id
    · subst hsame
      simp [view]
    · simp [view, hsame]

@[simp] theorem view_indexRows (cce : ContaminationEngine) (rows : List AffectedRow)
    (id : IncidentId) (k : IncidentKey) : view (cce.indexRows rows id) k = view cce k := by
  cases k <;> rfl

@[simp] theorem absorbed_insertComposite (cce : ContaminationEngine) (id : IncidentId)
    (comp : CompositeIncidentInstance) (k : IncidentId) :
    absorbed { cce with compositeIncidents := cce.compositeIncidents.insert id comp } k =
      if k = id then some comp.compositeOf else absorbed cce k := by
  by_cases hsame : k = id
  · subst hsame
    simp [absorbed]
  · simp [absorbed, hsame]

@[simp] theorem absorbed_indexRows (cce : ContaminationEngine) (rows : List AffectedRow)
    (id k : IncidentId) : absorbed (cce.indexRows rows id) k = absorbed cce k := rfl

theorem lookup_indexRows (cce : ContaminationEngine) (rows : List AffectedRow) (id : IncidentId)
    (x : String × String) : (cce.indexRows rows id).contaminatedRows.lookup x =
      if x ∈ rowKeys rows then some id else cce.contaminatedRows.lookup x := by
  have hfold : ∀ index : AList fun _ : String × String => IncidentId,
      (rows.foldl (fun index row => index.insert (row.table, row.rowKey) id) index).lookup x =
        if x ∈ rowKeys rows then some id else index.lookup x := by
    induction rows with
    | nil => intro index; rfl
    | cons row rows ih =>
      intro index
      rw [List.foldl_cons, ih]
      simp only [rowKeys, List.map_cons, List.toFinset_cons, Finset.mem_insert]
      by_cases hrow : x = (row.table, row.rowKey)
      · subst hrow
        simp
      · simp [hrow]
  exact hfold _

def Keyed (cce : ContaminationEngine) : Prop :=
  (∀ id v, view cce (.inl id) = some v → v.id = id) ∧
    ∀ id v, view cce (.inr id) = some v → v.id = id

theorem view_incident {cce : ContaminationEngine} {id : IncidentId} {ico : IncidentContextObject}
    (h : cce.incidents.lookup id = some ico) : view cce (.inl id) = some (icoView ico) := by
  rw [view, h, Option.map_some]

theorem view_composite {cce : ContaminationEngine} {id : IncidentId}
    {comp : CompositeIncidentInstance} (h : cce.compositeIncidents.lookup id = some comp) :
    view cce (.inr id) = some (compositeView comp) := by
  rw [view, h, Option.map_some]

theorem lookup_of_view_incident {cce : ContaminationEngine} {id : IncidentId} {v : IncidentView}
    (h : view cce (.inl id) = some v) :
    ∃ ico, cce.incidents.lookup id = some ico ∧ icoView ico = v :=
  Option.map_eq_some_iff.mp h

theorem lookup_of_view_composite {cce : ContaminationEngine} {id : IncidentId} {v : IncidentView}
    (h : view cce (.inr id) = some v) :
    ∃ comp, cce.compositeIncidents.lookup id = some comp ∧ compositeView comp = v :=
  Option.map_eq_some_iff.mp h

theorem mem_incidentsOf {cce : ContaminationEngine} (hkeyed : Keyed cce) {root : DeltaId}
    {id : IncidentId} : id ∈ cce.incidentsOf root ↔
      ∃ v, view cce (.inl id) = some v ∧ root ∈ v.roots := by
  simp only [incidentsOf, List.mem_map, List.mem_filter, decide_eq_true_eq]
  constructor
  · rintro ⟨ico, ⟨⟨e, he, rfl⟩, hroot⟩, rfl⟩
    have hlookup := AList.mem_lookup_iff.mpr he
    have hview := view_incident hlookup
    have hid : e.2.id = e.1 := hkeyed.1 _ _ hview
    exact ⟨icoView e.2, hid ▸ hview, hroot⟩
  · rintro ⟨v, hview, hroot⟩
    obtain ⟨ico, hlookup, rfl⟩ := lookup_of_view_incident hview
    exact ⟨ico, ⟨⟨⟨id, ico⟩, AList.mem_lookup_iff.mp hlookup, rfl⟩, hroot⟩,
      hkeyed.1 _ _ hview⟩

theorem mem_compositesOf {cce : ContaminationEngine} (hkeyed : Keyed cce) {root : DeltaId}
    {openOnly : Bool} {id : IncidentId} : id ∈ cce.compositesOf root openOnly ↔
      ∃ v, view cce (.inr id) = some v ∧ root ∈ v.roots ∧
        (openOnly = true → v.state = .open_) := by
  simp only [compositesOf, List.mem_map, List.mem_filter, decide_eq_true_eq]
  constructor
  · rintro ⟨comp, ⟨⟨e, he, rfl⟩, hroot⟩, rfl⟩
    have hlookup := AList.mem_lookup_iff.mpr he
    have hview := view_composite hlookup
    have hid : e.2.id = e.1 := hkeyed.2 _ _ hview
    exact ⟨compositeView e.2, hid ▸ hview, hroot⟩
  · rintro ⟨v, hview, hroot⟩
    obtain ⟨comp, hlookup, rfl⟩ := lookup_of_view_composite hview
    exact ⟨comp, ⟨⟨⟨id, comp⟩, AList.mem_lookup_iff.mp hlookup, rfl⟩, hroot⟩,
      hkeyed.2 _ _ hview⟩

def openedView (dag : ChangesetDag) (store : LocalStore) (id : IncidentId)
    (rootDeltaId : DeltaId) : IncidentView :=
  ⟨id, .open_, [rootDeltaId], (dag.bfsDescendants rootDeltaId).toFinset, projected store⟩

theorem overlapping_some {cce : ContaminationEngine} (hkeyed : Keyed cce)
    {ico existing : IncidentContextObject} (h : cce.overlapping ico = some existing) :
    view cce (.inl existing.id) = some (icoView existing) ∧ existing.state = .open_ ∧
      ¬Disjoint existing.contaminatedDeltas ico.contaminatedDeltas := by
  have hfound := List.find?_some h
  obtain ⟨e, he, rfl⟩ := List.mem_map.mp (List.mem_of_find?_eq_some h)
  have hview := view_incident (AList.mem_lookup_iff.mpr he)
  have hid : e.2.id = e.1 := hkeyed.1 _ _ hview
  simp only [Bool.and_eq_true, decide_eq_true_eq, Bool.not_eq_true', decide_eq_false_iff_not]
    at hfound
  exact ⟨hid ▸ hview, hfound⟩

theorem overlapping_none {cce : ContaminationEngine} {ico : IncidentContextObject}
    (h : cce.overlapping ico = none) {id : IncidentId} {v : IncidentView}
    (hview : view cce (.inl id) = some v) (hopen : v.state = .open_) :
    Disjoint v.deltas ico.contaminatedDeltas := by
  obtain ⟨existing, hlookup, rfl⟩ := lookup_of_view_incident hview
  have hmiss := List.find?_eq_none.mp h existing
    (List.mem_map.mpr ⟨⟨id, existing⟩, AList.mem_lookup_iff.mp hlookup, rfl⟩)
  by_contra hmeet
  change ¬Disjoint existing.contaminatedDeltas ico.contaminatedDeltas at hmeet
  exact hmiss (by simpa [show existing.state = .open_ from hopen] using hmeet)

/-- The composite of an incident and a new root's incident. -/
structure IsMerge (v w merged : IncidentView) : Prop where
  open_ : merged.state = .open_
  roots : ∀ r, r ∈ merged.roots ↔ r ∈ v.roots ∨ r ∈ w.roots
  deltas : merged.deltas = v.deltas ∪ w.deltas
  rows : v.rows ⊆ merged.rows
  rowsLe : merged.rows ⊆ v.rows ∪ w.rows

theorem mem_foldl_roots {roots new : List DeltaId} {r : DeltaId} :
    r ∈ new.foldl (fun roots r => if r ∈ roots then roots else roots ++ [r]) roots ↔
      r ∈ roots ∨ r ∈ new := by
  induction new generalizing roots with
  | nil => simp
  | cons q new ih =>
    rw [List.foldl_cons, ih]
    split_ifs with hq
    · constructor
      · rintro (h | h)
        · exact .inl h
        · exact .inr (List.mem_cons_of_mem q h)
      · rintro (h | h)
        · exact .inl h
        · rcases List.mem_cons.mp h with rfl | h
          · exact .inl hq
          · exact .inr h
    · simp [or_assoc]

theorem mem_foldl_rows {rows new : List AffectedRow} :
    (∀ row ∈ rows, row ∈ new.foldl (fun rows (row : AffectedRow) =>
      if rows.any fun r => r.rowKey == row.rowKey then rows else rows ++ [row]) rows) ∧
    ∀ row ∈ new.foldl (fun rows (row : AffectedRow) =>
      if rows.any fun r => r.rowKey == row.rowKey then rows else rows ++ [row]) rows,
      row ∈ rows ∨ row ∈ new := by
  induction new generalizing rows with
  | nil => simp
  | cons first new ih =>
    rw [List.foldl_cons]
    split_ifs with hfirst
    · obtain ⟨hkept, hback⟩ := @ih rows
      exact ⟨hkept, fun row hrow => (hback row hrow).imp id (List.mem_cons_of_mem first)⟩
    · obtain ⟨hkept, hback⟩ := @ih (rows ++ [first])
      refine ⟨fun row hrow => hkept row (List.mem_append_left _ hrow), fun row hrow => ?_⟩
      rcases hback row hrow with h | h
      · rcases List.mem_append.mp h with h | h
        · exact .inl h
        · exact .inr (List.mem_singleton.mp h ▸ List.mem_cons_self)
      · exact .inr (List.mem_cons_of_mem first h)

theorem isMerge_compositeMerge (a b : IncidentContextObject) (compositeId : IncidentId) (now : ℤ) :
    IsMerge (icoView a) (icoView b) (compositeView (compositeMerge a b compositeId now).2.2) := by
  refine ⟨rfl, fun r => mem_foldl_roots, rfl, fun x hx => ?_, fun x hx => ?_⟩
  · simp only [icoView, compositeView, compositeMerge, rowKeys, List.mem_toFinset, List.mem_map]
      at hx ⊢
    obtain ⟨row, hrow, rfl⟩ := hx
    exact ⟨row, mem_foldl_rows.1 row hrow, rfl⟩
  · simp only [icoView, compositeView, compositeMerge, rowKeys, List.mem_toFinset, List.mem_map,
      Finset.mem_union] at hx ⊢
    obtain ⟨row, hrow, rfl⟩ := hx
    exact (mem_foldl_rows.2 row hrow).imp (fun h => ⟨row, h, rfl⟩) fun h => ⟨row, h, rfl⟩

/-- What entering a new incident does to the registries and the index. -/
inductive RegisterEffect (v : IncidentView) (compositeId : IncidentId)
    (cce cce' : ContaminationEngine) : Prop
  | alone
      (hdisjoint : ∀ id u, view cce (.inl id) = some u → u.state = .open_ →
        Disjoint u.deltas v.deltas)
      (hview : ∀ k, view cce' k = if k = .inl v.id then some v else view cce k)
      (habsorbed : ∀ k, absorbed cce' k = absorbed cce k)
      (hindex : ∀ x, cce'.contaminatedRows.lookup x =
        if x ∈ v.rows then some v.id else cce.contaminatedRows.lookup x)
  | merged (id : IncidentId) (u w : IncidentView) (hu : view cce (.inl id) = some u)
      (hopen : u.state = .open_) (hmeet : ¬Disjoint u.deltas v.deltas) (hmerge : IsMerge u v w)
      (hid : w.id = compositeId)
      (hview : ∀ k, view cce' k =
        if k = .inr compositeId then some w
        else if k = .inl v.id then some { v with state := .supersededBy compositeId }
        else if k = .inl id then some { u with state := .supersededBy compositeId }
        else view cce k)
      (habsorbed : ∀ k, absorbed cce' k =
        if k = compositeId then some [id, v.id] else absorbed cce k)
      (hindex : ∀ x, cce'.contaminatedRows.lookup x =
        if x ∈ w.rows then some compositeId else cce.contaminatedRows.lookup x)

theorem registerEffect {cce : ContaminationEngine} (hkeyed : Keyed cce)
    (ico : IncidentContextObject) (compositeId : IncidentId) (now : ℤ) :
    RegisterEffect (icoView ico) compositeId cce (cce.register ico compositeId now).2 := by
  unfold register
  split
  · rename_i existing hexisting
    obtain ⟨hfound, hopen, hmeet⟩ := overlapping_some hkeyed hexisting
    refine .merged existing.id (icoView existing) _ hfound hopen hmeet
      (isMerge_compositeMerge existing ico compositeId now) rfl (fun k => ?_) (fun k => ?_)
      fun x => lookup_indexRows _ _ compositeId x
    · refine (view_insertComposite ⟨_, cce.compositeIncidents, cce.contaminatedRows⟩
        compositeId _ k).trans (if_congr Iff.rfl rfl ?_)
      refine (view_insertIncident ⟨_, cce.compositeIncidents, cce.contaminatedRows⟩
        ico.id _ k).trans (if_congr Iff.rfl rfl ?_)
      exact view_insertIncident cce existing.id _ k
    · exact absorbed_insertComposite ⟨_, cce.compositeIncidents, cce.contaminatedRows⟩
        compositeId _ k
  · rename_i hnone
    refine .alone (fun id u hu hopen => overlapping_none hnone hu hopen) (fun k => ?_)
      (fun k => rfl) fun x => lookup_indexRows _ _ ico.id x
    simp only [view_indexRows, view_insertIncident]
    rfl

theorem keyed_register {v : IncidentView} {compositeId : IncidentId} {cce cce' : ContaminationEngine}
    (hkeyed : Keyed cce) (heffect : RegisterEffect v compositeId cce cce') : Keyed cce' := by
  cases heffect with
  | alone hdisjoint hview habsorbed hindex =>
    refine ⟨fun id u hu => ?_, fun id u hu => ?_⟩
    · rw [hview] at hu
      split_ifs at hu with hk
      · cases hu
        exact (Sum.inl.inj hk).symm
      · exact hkeyed.1 id u hu
    · rw [hview, if_neg (by simp)] at hu
      exact hkeyed.2 id u hu
  | merged first u w hu hopen hmeet hmerge hname hview habsorbed hindex =>
    refine ⟨fun id u' hu' => ?_, fun id u' hu' => ?_⟩
    · rw [hview, if_neg (by simp)] at hu'
      split_ifs at hu' with hk hk'
      · cases hu'
        exact (Sum.inl.inj hk).symm
      · cases hu'
        exact (hkeyed.1 first u hu).trans (Sum.inl.inj hk').symm
      · exact hkeyed.1 id u' hu'
    · rw [hview, if_neg (by simp : (Sum.inr id : IncidentKey) ≠ .inl v.id),
        if_neg (by simp : (Sum.inr id : IncidentKey) ≠ .inl first)] at hu'
      split_ifs at hu' with hk
      · cases hu'
        exact hname.trans (Sum.inr.inj hk).symm
      · exact hkeyed.2 id u' hu'

def Tags (env : TaintEnvironment) : Prop := env.walkFault = none ∧ env.rowsFault = none

inductive TagEffect (env : TaintEnvironment) (rootDeltaId : DeltaId) (s s' : IncidentRun) : Prop
  | failed (hfails : ¬Tags env) (hcce : s'.cce = s.cce) (hstore : s'.store = s.store)
  | alone (htags : Tags env)
      (hdisjoint : ∀ id v, view s.cce (.inl id) = some v → v.state = .open_ →
        Disjoint v.deltas (s.dag.bfsDescendants rootDeltaId).toFinset)
      (hview : ∀ k, view s'.cce k =
        if k = .inl env.icoId then some (openedView s.dag s.store env.icoId rootDeltaId)
        else view s.cce k)
      (habsorbed : ∀ k, absorbed s'.cce k = absorbed s.cce k)
      (hindex : ∀ x, s'.cce.contaminatedRows.lookup x =
        if x ∈ projected s.store then some env.icoId else s.cce.contaminatedRows.lookup x)
      (hstore : s'.store = markAll s.store)
  | merged (htags : Tags env) (id : IncidentId) (v w : IncidentView)
      (hv : view s.cce (.inl id) = some v) (hopen : v.state = .open_)
      (hmeet : ¬Disjoint v.deltas (s.dag.bfsDescendants rootDeltaId).toFinset)
      (hmerge : IsMerge v (openedView s.dag s.store env.icoId rootDeltaId) w)
      (hid : w.id = env.compositeId)
      (hview : ∀ k, view s'.cce k =
        if k = .inr env.compositeId then some w
        else if k = .inl env.icoId then
          some { openedView s.dag s.store env.icoId rootDeltaId with
            state := .supersededBy env.compositeId }
        else if k = .inl id then some { v with state := .supersededBy env.compositeId }
        else view s.cce k)
      (habsorbed : ∀ k, absorbed s'.cce k =
        if k = env.compositeId then some [id, env.icoId] else absorbed s.cce k)
      (hindex : ∀ x, s'.cce.contaminatedRows.lookup x =
        if x ∈ w.rows then some env.compositeId else s.cce.contaminatedRows.lookup x)
      (hstore : s'.store = markAll s.store)

/-- A tagging leaves the registries alone, or enters the incident of its root. -/
theorem TagEffect.register {env : TaintEnvironment} {rootDeltaId : DeltaId} {s s' : IncidentRun}
    (h : TagEffect env rootDeltaId s s') : s'.cce = s.cce ∨
      RegisterEffect (openedView s.dag s.store env.icoId rootDeltaId) env.compositeId s.cce
        s'.cce := by
  cases h with
  | failed hfails hcce hstore => exact .inl hcce
  | alone htags hdisjoint hview habsorbed hindex hstore =>
    exact .inr (.alone hdisjoint hview habsorbed hindex)
  | merged htags id v w hv hopen hmeet hmerge hid hview habsorbed hindex hstore =>
    exact .inr (.merged id v w hv hopen hmeet hmerge hid hview habsorbed hindex)

theorem tagEffect (lib : IdentityLibraries) {s : IncidentRun} (hkeyed : Keyed s.cce)
    (env : TaintEnvironment) (rootDeltaId : DeltaId) (source : TaintSource) :
    TagEffect env rootDeltaId s (step lib s (.tag env rootDeltaId source)) := by
  simp only [step]
  unfold tagContaminationRoot
  rw [appendTag_clean]
  split
  · rename_i e hwalk
    exact .failed (fun h => by cases hwalk.symm.trans h.1) rfl rfl
  · rename_i hwalk
    dsimp only
    split
    · rename_i e hfault
      exact .failed (fun h => by cases hfault.symm.trans h.2) rfl rfl
    · rename_i hrowsFault
      have hopened : ∀ rows : List AffectedRow, rowKeys rows = projected s.store →
          icoView ⟨env.icoId, .open_, source, [rootDeltaId],
            (s.dag.bfsDescendants rootDeltaId).toFinset, rows, none, env.now, env.now, []⟩ =
            openedView s.dag s.store env.icoId rootDeltaId := by
        intro rows hrows
        rw [icoView, openedView, hrows]
      have hrows := rowKeys_projectedKeys s.store rootDeltaId
      have hview := hopened _ hrows
      have hregister := registerEffect hkeyed ⟨env.icoId, .open_, source, [rootDeltaId],
        (s.dag.bfsDescendants rootDeltaId).toFinset,
        s.store.projectedKeys.map fun row => ⟨row.1, row.2, rootDeltaId⟩, none, env.now, env.now,
        []⟩ env.compositeId env.now
      rw [hview] at hregister
      cases hregister with
      | alone hdisjoint hviews habsorbed hindex =>
        exact .alone ⟨hwalk, hrowsFault⟩ hdisjoint hviews habsorbed hindex List.foldl_map
      | merged id u w hu hopen hmeet hmerge hid hviews habsorbed hindex =>
        exact .merged ⟨hwalk, hrowsFault⟩ id u w hu hopen hmeet hmerge hid hviews habsorbed hindex
          List.foldl_map

theorem sameResolved_tag (lib : IdentityLibraries) (s : IncidentRun) (env : TaintEnvironment)
    (rootDeltaId : DeltaId) (source : TaintSource) :
    SameResolved s.dag (step lib s (.tag env rootDeltaId source)).dag ∧
      projected (step lib s (.tag env rootDeltaId source)).store = projected s.store := by
  simp only [step]
  unfold tagContaminationRoot
  rw [appendTag_clean]
  split
  · exact ⟨.refl _, rfl⟩
  · dsimp only
    split
    · exact ⟨sameResolved_foldl_appendTag rfl _ _, rfl⟩
    · refine ⟨sameResolved_foldl_appendTag rfl _ _, ?_⟩
      exact projected_foldl (fun store row => projected_markRowContaminated store _ _) _ _

def Accepts (lib : IdentityLibraries) (incidentId : IncidentId) (managerDid : Did)
    (managerSig : Bytes) (managerTokenExpiry nowSecs : ℤ) : Prop :=
  verifyManagerAuth lib managerDid managerSig (uuidBytes incidentId) managerTokenExpiry
    nowSecs = .ok ()

inductive CloseEffect (accepted : Prop) (incidentId : IncidentId) (s s' : IncidentRun) : Prop
  | refused (hrefused : accepted → ∀ v, view s.cce (.inl incidentId) = some v → v.state ≠ .open_)
      (hsame : s' = s)
  | closed (haccepted : accepted) (v : IncidentView) (hv : view s.cce (.inl incidentId) = some v)
      (hopen : v.state = .open_)
      (hview : ∀ k, view s'.cce k =
        if k = .inl incidentId then some { v with state := .closed } else view s.cce k)
      (habsorbed : ∀ k, absorbed s'.cce k = absorbed s.cce k)
      (hindex : s'.cce.contaminatedRows = s.cce.contaminatedRows)
      (hdag : s'.dag = s.dag) (hstore : s'.store = s.store)

theorem closeEffect (lib : IdentityLibraries) (s : IncidentRun) (now : ℤ) (incidentId : IncidentId)
    (managerDid : Did) (managerSig : Bytes) (managerTokenExpiry nowSecs : ℤ) :
    CloseEffect (Accepts lib incidentId managerDid managerSig managerTokenExpiry nowSecs)
      incidentId s (step lib s (.close now incidentId managerDid managerSig managerTokenExpiry nowSecs)) := by
  simp only [step]
  unfold adminClose
  split
  · rename_i e hauth
    exact .refused (fun h => by cases hauth.symm.trans h) rfl
  · rename_i hauth
    split
    · rename_i hnone
      refine .refused (fun _ v hv => ?_) rfl
      rw [view, hnone] at hv
      cases hv
    · rename_i ico hico
      split_ifs with hstate
      · refine .refused (fun _ v hv => ?_) rfl
        cases (view_incident hico).symm.trans hv
        exact hstate
      · exact .closed hauth (icoView ico) (view_incident hico) (not_not.mp hstate)
          (fun k => view_insertIncident s.cce incidentId _ k) (fun k => rfl) rfl rfl rfl

end TirBase.IncidentRuns
