import TirBase.IncidentRuns

/-! # What certifying a root does

`verify_data` notes the certificate, walks the incidents of the root, and decomposes its composites.
Over a DAG that has not grown since the incidents were opened the walks find nothing, and what is
left is the decomposition: every root of a composite that is not resolved gets a new incident. -/
namespace TirBase.IncidentRuns
open ContaminationEngine TransitionRuns
open TagLogs (appendTag_clean readsResolved_clean tagEach_clean)

/-- No query of a resolution fails. -/
structure Calm (env : ResolutionEnvironment) : Prop where
  walk : ∀ rootId, env.walkFault rootId = none
  descendants : ∀ rootId, env.descendantsFault rootId = false
  rows : ∀ rootId, env.rowsFault rootId = none

/-- What is registered shows all descendants of its roots. -/
def Snapshots (dag : ChangesetDag) (cce : ContaminationEngine) : Prop :=
  ∀ k v, view cce k = some v → ∀ r ∈ v.roots, (dag.bfsDescendants r).toFinset ⊆ v.deltas

theorem foldUntilError_ok {S A : Type} {f : S → A → Except TirBaseError Unit × S} {P : S → Prop}
    (hf : ∀ s a, P s → (f s a).1 = .ok () ∧ P (f s a).2) (items : List A) {s : S} (hs : P s) :
    (foldUntilError f s items).1 = .ok () ∧ P (foldUntilError f s items).2 := by
  induction items generalizing s with
  | nil => exact ⟨rfl, hs⟩
  | cons a items ih =>
    obtain ⟨hok, hnext⟩ := hf s a hs
    rw [foldUntilError]
    split
    · rename_i e s' hout
      rw [hout] at hok
      cases hok
    · rename_i s' hout
      rw [hout] at hnext
      exact ih hnext

/-- Nothing shows but tags that resolve nothing, and the contents of rows. -/
structure Touched (s s' : Resolution) : Prop where
  view : ∀ k, view s'.cce k = view s.cce k
  absorbed : ∀ k, absorbed s'.cce k = absorbed s.cce k
  index : s'.cce.contaminatedRows = s.cce.contaminatedRows
  tags : SameResolved s.dag s'.dag
  rows : projected s'.store = projected s.store
  newIcos : s'.newIcos = s.newIcos

namespace Touched

theorem refl (s : Resolution) : Touched s s :=
  ⟨fun _ => rfl, fun _ => rfl, rfl, .refl _, rfl, rfl⟩

theorem trans {s s' s'' : Resolution} (h : Touched s s') (h' : Touched s' s'') : Touched s s'' :=
  ⟨fun k => (h'.view k).trans (h.view k), fun k => (h'.absorbed k).trans (h.absorbed k),
    h'.index.trans h.index, h.tags.trans h'.tags, h'.rows.trans h.rows,
    h'.newIcos.trans h.newIcos⟩

theorem snapshots {s s' : Resolution} (h : Touched s s') (hs : Snapshots s.dag s.cce) :
    Snapshots s'.dag s'.cce := by
  intro k v hv r hr
  rw [bfsDescendants_congr h.tags.graph]
  exact hs k v ((h.view k).symm.trans hv) r hr

theorem keyed {s s' : Resolution} (h : Touched s s') (hs : Keyed s.cce) : Keyed s'.cce :=
  ⟨fun id v hv => hs.1 id v ((h.view _).symm.trans hv),
    fun id v hv => hs.2 id v ((h.view _).symm.trans hv)⟩

end Touched

/-- An incident that is entered again under its key shows what it showed. -/
theorem view_reinsertIncident {cce : ContaminationEngine} {id : IncidentId}
    {ico ico' : IncidentContextObject} (h : cce.incidents.lookup id = some ico)
    (hsame : icoView ico' = icoView ico) (k : IncidentKey) :
    view { cce with incidents := cce.incidents.insert id ico' } k = view cce k := by
  rw [view_insertIncident, hsame]
  split_ifs with hk
  · rw [hk, view_incident h]
  · rfl

theorem touched_certify (env : ResolutionEnvironment) (rootDeltaId : DeltaId) (managerDid : Did)
    (s : Resolution) (id : IncidentId) :
    Touched s (Resolution.certify .clean env rootDeltaId managerDid s id) := by
  unfold Resolution.certify
  rw [readsResolved_clean, tagEach_clean]
  split
  · exact .refl s
  · rename_i ico hico
    dsimp only
    split_ifs
    · refine ⟨fun k => view_reinsertIncident hico (by rfl) k, fun k => rfl, rfl,
        sameResolved_tagEach _ _ _ rfl, ?_, rfl⟩
      exact projected_foldl (fun store row => projected_clearRowContamination store _ _) _ _
    · exact ⟨fun k => view_reinsertIncident hico (by rfl) k, fun k => rfl, rfl, .refl _, rfl, rfl⟩

theorem touched_foldl_certify (env : ResolutionEnvironment) (rootDeltaId : DeltaId)
    (managerDid : Did) (ids : List IncidentId) (s : Resolution) :
    Touched s (ids.foldl (Resolution.certify .clean env rootDeltaId managerDid) s) := by
  induction ids generalizing s with
  | nil => exact .refl s
  | cons id ids ih => exact (touched_certify env rootDeltaId managerDid s id).trans (ih _)

theorem sameResolved_lateArrivals (env : ResolutionEnvironment) (resolved : Bool)
    (id : IncidentId) (roots : List DeltaId)
    (known : Finset DeltaId) (dag : ChangesetDag) :
    SameResolved dag (Resolution.lateArrivals .clean env resolved id roots known dag).2.2 := by
  induction roots generalizing known dag with
  | nil => exact .refl dag
  | cons root roots ih =>
    by_cases hturn : dag.hasResolvedTag root = resolved
    · cases hwalk : env.walkFault root with
      | some e =>
        simp only [Resolution.lateArrivals, readsResolved_clean, if_pos hturn, hwalk]
        exact .refl dag
      | none =>
        simp only [Resolution.lateArrivals, readsResolved_clean, tagEach_clean, if_pos hturn, hwalk]
        refine (sameResolved_tagEach dag _ env.tagFault ?_).trans (ih _ _)
        cases resolved <;> rfl
    · simp only [Resolution.lateArrivals, readsResolved_clean, if_neg hturn]
      exact ih known dag

theorem lateArrivals_snapshot {env : ResolutionEnvironment} (hcalm : Calm env) (resolved : Bool)
    (id : IncidentId) {roots : List DeltaId} {known : Finset DeltaId} {dag : ChangesetDag}
    (hknown : ∀ r ∈ roots, (dag.bfsDescendants r).toFinset ⊆ known) :
    Resolution.lateArrivals .clean env resolved id roots known dag = (.ok (), known, dag) := by
  induction roots with
  | nil => rfl
  | cons r roots ih =>
    obtain ⟨hfirst, hrest⟩ := List.forall_mem_cons.mp hknown
    have hlate : ((dag.bfsDescendants r).filter fun id => id ∉ known).toFinset = ∅ := by
      rw [List.toFinset_eq_empty_iff, List.filter_eq_nil_iff]
      intro id hid
      simpa using hfirst (List.mem_toFinset.mpr hid)
    rw [Resolution.lateArrivals, readsResolved_clean, tagEach_clean, hcalm.walk r]
    simp only [hlate, Finset.union_empty, tagEach_empty, ih hrest, ite_self]

theorem walkIncident_snapshot {env : ResolutionEnvironment} (hcalm : Calm env) {s : Resolution}
    (hs : Snapshots s.dag s.cce) (id : IncidentId) :
    (Resolution.walkIncident .clean env s id).1 = .ok () ∧
      Touched s (Resolution.walkIncident .clean env s id).2 ∧
        (Resolution.walkIncident .clean env s id).2.store = s.store := by
  unfold Resolution.walkIncident
  rw [readsResolved_clean]
  split
  · exact ⟨rfl, .refl s, rfl⟩
  · rename_i ico hico
    have hknown : ∀ r ∈ ico.contaminationRoots,
        (s.dag.bfsDescendants r).toFinset ⊆ ico.contaminatedDeltas :=
      hs _ _ (view_incident hico)
    dsimp only
    rw [lateArrivals_snapshot hcalm _ _ hknown]
    exact ⟨rfl, ⟨fun k => view_reinsertIncident hico (by rfl) k, fun k => rfl, rfl, .refl _, rfl,
      rfl⟩, rfl⟩

theorem walkComposite_snapshot {env : ResolutionEnvironment} (hcalm : Calm env) {s : Resolution}
    (hs : Snapshots s.dag s.cce) (id : IncidentId) :
    (Resolution.walkComposite .clean env s id).1 = .ok () ∧
      Touched s (Resolution.walkComposite .clean env s id).2 ∧
        (Resolution.walkComposite .clean env s id).2.store = s.store := by
  unfold Resolution.walkComposite
  rw [readsResolved_clean]
  split
  · exact ⟨rfl, .refl s, rfl⟩
  · rename_i comp hcomp
    have hknown : ∀ r ∈ comp.contaminationRoots,
        (s.dag.bfsDescendants r).toFinset ⊆ comp.contaminatedDeltas :=
      hs _ _ (view_composite hcomp)
    dsimp only
    rw [lateArrivals_snapshot hcalm _ _ hknown]
    refine ⟨rfl, ⟨fun k => ?_, fun k => ?_, rfl, .refl _, rfl, rfl⟩, rfl⟩
    · rw [view_insertComposite]
      split_ifs with hk
      · rw [hk, view_composite hcomp]
      · rfl
    · rw [absorbed_insertComposite]
      split_ifs with hk
      · rw [hk, absorbed, hcomp, Option.map_some]
      · rfl

/-- Walks that each show nothing new, show nothing new together. -/
theorem touched_walks {f : Resolution → IncidentId → Except TirBaseError Unit × Resolution}
    (hf : ∀ s, Snapshots s.dag s.cce → ∀ id,
      (f s id).1 = .ok () ∧ Touched s (f s id).2 ∧ (f s id).2.store = s.store)
    {s : Resolution} (hs : Snapshots s.dag s.cce) (ids : List IncidentId) :
    ∃ s', foldUntilError f s ids = (.ok (), s') ∧ Touched s s' ∧ s'.store = s.store := by
  have hfold := foldUntilError_ok (P := fun s' => Touched s s' ∧ s'.store = s.store)
    (fun s' id hs' => by
      obtain ⟨hok, htouched, hstore⟩ := hf s' (hs'.1.snapshots hs) id
      exact ⟨hok, hs'.1.trans htouched, hstore.trans hs'.2⟩) ids ⟨.refl s, rfl⟩
  exact ⟨_, Prod.ext hfold.1 rfl, hfold.2⟩

def IncidentView.decomposed (v : IncidentView) : IncidentView := { v with state := .decomposed }

def unresolvedOf (cce : ContaminationEngine) (dag : ChangesetDag) (id : IncidentId) :
    List DeltaId :=
  (((view cce (.inr id)).map IncidentView.roots).getD []).filter fun r => !dag.hasResolvedTag r

/-- The composites done so far, and the composite and root of each incident opened. -/
structure Decomposing (env : ResolutionEnvironment) (s₀ s : Resolution) (done : List IncidentId)
    (opened : List (IncidentId × DeltaId)) : Prop where
  dag : s.dag = s₀.dag
  store : s.store = markAll^[opened.length] s₀.store
  absorbed : ∀ k, absorbed s.cce k = absorbed s₀.cce k
  index : s.cce.contaminatedRows = s₀.cce.contaminatedRows
  composite : ∀ k, view s.cce (.inr k) = if k ∈ done then
    (view s₀.cce (.inr k)).map IncidentView.decomposed else view s₀.cce (.inr k)
  incident : ∀ k,
    (∃ p ∈ opened, k = env.newId p.1 p.2 ∧
      view s.cce (.inl k) = some (openedView s₀.dag s₀.store k p.2)) ∨
    (∀ p ∈ opened, k ≠ env.newId p.1 p.2) ∧ view s.cce (.inl k) = view s₀.cce (.inl k)
  newIcos : s.newIcos.map (fun new => (new.1, rowKeys new.2)) =
    s₀.newIcos.map (fun new => (new.1, rowKeys new.2)) ++
      opened.map fun p => (env.newId p.1 p.2, projected s₀.store)

theorem projected_iterate_markAll (n : ℕ) (store : LocalStore) :
    projected (markAll^[n] store) = projected store := by
  induction n generalizing store with
  | zero => rfl
  | succ n ih => rw [Function.iterate_succ_apply, ih, projected_markAll]

namespace Decomposing
variable {env : ResolutionEnvironment} {s₀ s : Resolution} {done : List IncidentId}
  {opened : List (IncidentId × DeltaId)}

theorem refl (env : ResolutionEnvironment) (s : Resolution) : Decomposing env s s [] [] :=
  ⟨rfl, rfl, fun _ => rfl, rfl, fun _ => by simp, fun _ => .inr ⟨by simp, rfl⟩, by simp⟩

theorem rows (h : Decomposing env s₀ s done opened) : projected s.store = projected s₀.store := by
  rw [h.store, projected_iterate_markAll]

theorem reopen (hcalm : Calm env) (h : Decomposing env s₀ s done opened) (id : IncidentId)
    (rootId : DeltaId) : (Resolution.reopen env id s rootId).1 = .ok () ∧
      Decomposing env s₀ (Resolution.reopen env id s rootId).2 done (opened ++ [(id, rootId)]) := by
  have hkeys := rowKeys_projectedKeys s.store rootId
  unfold Resolution.reopen
  rw [hcalm.rows, hcalm.descendants]
  refine ⟨rfl, h.dag, ?_, h.absorbed, h.index, fun k => ?_, fun k => ?_, ?_⟩
  · rw [List.length_append, List.length_singleton, Function.iterate_succ_apply', ← h.store]
    exact List.foldl_map
  · exact (view_insertIncident s.cce _ _ _).trans (h.composite k)
  · simp only [view_insertIncident, Sum.inl.injEq, List.mem_append, List.mem_singleton]
    by_cases hk : k = env.newId id rootId
    · refine .inl ⟨(id, rootId), .inr rfl, hk, ?_⟩
      rw [if_pos hk, icoView, hkeys, openedView, h.dag, h.rows, hk]
      rfl
    · rw [if_neg hk]
      rcases h.incident k with ⟨p, hp, hsame, hview⟩ | ⟨hnew, hview⟩
      · exact .inl ⟨p, .inl hp, hsame, hview⟩
      · refine .inr ⟨?_, hview⟩
        rintro p (hp | rfl)
        · exact hnew p hp
        · exact hk
  · simp only [List.map_append, List.map_cons, List.map_nil, h.newIcos, List.append_assoc]
    rw [hkeys, h.rows]

theorem reopenEach (hcalm : Calm env) (h : Decomposing env s₀ s done opened) (id : IncidentId)
    (roots : List DeltaId) :
    (foldUntilError (Resolution.reopen env id) s roots).1 = .ok () ∧
      Decomposing env s₀ (foldUntilError (Resolution.reopen env id) s roots).2 done
        (opened ++ roots.map fun r => (id, r)) := by
  induction roots generalizing s opened with
  | nil => exact ⟨rfl, by simpa [foldUntilError] using h⟩
  | cons r roots ih =>
    obtain ⟨hok, hnext⟩ := h.reopen hcalm id r
    rw [foldUntilError]
    split
    · rename_i e s' hout
      rw [hout] at hok
      cases hok
    · rename_i s' hout
      rw [hout] at hnext
      simpa using ih hnext

theorem absent (h : Decomposing env s₀ s done opened) {id : IncidentId}
    (habsent : view s₀.cce (.inr id) = none) : Decomposing env s₀ s (done ++ [id]) opened := by
  refine { h with composite := fun k => ?_ }
  rw [h.composite]
  by_cases hk : k = id
  · simp [hk, habsent]
  · simp [hk]

theorem mark (h : Decomposing env s₀ s done opened) {id : IncidentId}
    {comp : CompositeIncidentInstance} (hlookup : s.cce.compositeIncidents.lookup id = some comp) :
    Decomposing env s₀ { s with
      cce := { s.cce with
        compositeIncidents :=
          s.cce.compositeIncidents.insert id { comp with state := .decomposed } } }
      (done ++ [id]) opened := by
  refine { h with
    absorbed := fun k => ?_, composite := fun k => ?_, incident := fun k => ?_ }
  · refine (absorbed_insertComposite s.cce id _ k).trans ?_
    split_ifs with hk
    · rw [hk, ← h.absorbed, IncidentRuns.absorbed, hlookup, Option.map_some]
    · exact h.absorbed k
  · refine (view_insertComposite s.cce id _ (.inr k)).trans ?_
    by_cases hk : k = id
    · subst hk
      have hview : view s.cce (.inr k) = some (compositeView comp) := view_composite hlookup
      rw [if_pos rfl, if_pos (by simp)]
      change some (compositeView comp).decomposed = _
      rw [h.composite] at hview
      split_ifs at hview
      · obtain ⟨v, hv, hdecomposed⟩ := Option.map_eq_some_iff.mp hview
        rw [hv, ← hdecomposed]
        rfl
      · rw [hview]
        rfl
    · simpa [hk] using h.composite k
  · exact h.incident k

theorem decompose (hcalm : Calm env) (h : Decomposing env s₀ s done opened) (id : IncidentId) :
    (Resolution.decompose .clean env s id).1 = .ok () ∧
      Decomposing env s₀ (Resolution.decompose .clean env s id).2 (done ++ [id])
        (opened ++ (unresolvedOf s₀.cce s₀.dag id).map fun r => (id, r)) := by
  have hroots : (view s.cce (.inr id)).map IncidentView.roots =
      (view s₀.cce (.inr id)).map IncidentView.roots := by
    rw [h.composite]
    split_ifs
    · rw [Option.map_map]
      rfl
    · rfl
  unfold Resolution.decompose
  rw [readsResolved_clean]
  split
  · rename_i hnone
    have habsent : view s₀.cce (.inr id) = none := by
      rw [view, hnone] at hroots
      exact Option.map_eq_none_iff.mp hroots.symm
    have hnothing : unresolvedOf s₀.cce s₀.dag id = [] := by
      rw [unresolvedOf, habsent]
      rfl
    rw [hnothing, List.map_nil, List.append_nil]
    exact ⟨rfl, h.absent habsent⟩
  · rename_i comp hlookup
    have hunresolved : comp.contaminationRoots.filter (fun r => !s.dag.hasResolvedTag r) =
        unresolvedOf s₀.cce s₀.dag id := by
      rw [unresolvedOf, ← hroots, view_composite hlookup, h.dag]
      rfl
    dsimp only
    rw [hunresolved]
    exact (h.mark hlookup).reopenEach hcalm id _

theorem decomposeEach (hcalm : Calm env) (h : Decomposing env s₀ s done opened)
    (ids : List IncidentId) :
    (foldUntilError (Resolution.decompose .clean env) s ids).1 = .ok () ∧
      Decomposing env s₀ (foldUntilError (Resolution.decompose .clean env) s ids).2 (done ++ ids)
        (opened ++ ids.flatMap fun id => (unresolvedOf s₀.cce s₀.dag id).map fun r => (id, r)) := by
  induction ids generalizing s done opened with
  | nil => exact ⟨rfl, by simpa [foldUntilError] using h⟩
  | cons id ids ih =>
    obtain ⟨hok, hnext⟩ := h.decompose hcalm id
    rw [foldUntilError]
    split
    · rename_i e s' hout
      rw [hout] at hok
      cases hok
    · rename_i s' hout
      rw [hout] at hnext
      simpa using ih hnext

end Decomposing

section Certified
variable {env : ResolutionEnvironment} {rootDeltaId : DeltaId} {managerDid : Did}

def certified (env : ResolutionEnvironment) (rootDeltaId : DeltaId) (managerDid : Did)
    (s : IncidentRun) : Resolution :=
  (s.cce.incidentsOf rootDeltaId).foldl (Resolution.certify .clean env rootDeltaId managerDid)
    ⟨s.cce, s.dag.appendTag rootDeltaId (.resolved managerDid env.now), s.store, []⟩

def reopened (cce : ContaminationEngine) (dag : ChangesetDag) (rootDeltaId : DeltaId) :
    List (IncidentId × DeltaId) :=
  (cce.compositesOf rootDeltaId false).flatMap fun id =>
    (unresolvedOf cce dag id).map fun r => (id, r)

theorem resolveRoot_eq (hroot : env.rootFault = none) {s : IncidentRun} {s₁ s₂ : Resolution}
    (hincidents : foldUntilError (Resolution.walkIncident .clean env)
      (certified env rootDeltaId managerDid s) (s.cce.incidentsOf rootDeltaId) = (.ok (), s₁))
    (hcomposites : foldUntilError (Resolution.walkComposite .clean env) s₁
      ((certified env rootDeltaId managerDid s).cce.compositesOf rootDeltaId true) = (.ok (), s₂)) :
    resolveRoot .clean env rootDeltaId managerDid ⟨s.cce, s.dag, s.store, []⟩ =
      foldUntilError (Resolution.decompose .clean env) s₂ (s₂.cce.compositesOf rootDeltaId false) := by
  rw [certified] at hincidents hcomposites
  rw [resolveRoot, appendTag_clean, hroot]
  dsimp only
  rw [hincidents]
  dsimp only
  rw [hcomposites]

theorem resolveRoot_calm (hcalm : Calm env) (hroot : env.rootFault = none) {s : IncidentRun}
    (hsnapshots : Snapshots s.dag s.cce) (rootDeltaId : DeltaId) (managerDid : Did) :
    (resolveRoot .clean env rootDeltaId managerDid ⟨s.cce, s.dag, s.store, []⟩).1 = .ok () ∧
      ∃ s₁, Touched (certified env rootDeltaId managerDid s) s₁ ∧
        s₁.store = (certified env rootDeltaId managerDid s).store ∧
        Decomposing env s₁
          (resolveRoot .clean env rootDeltaId managerDid ⟨s.cce, s.dag, s.store, []⟩).2
          (s₁.cce.compositesOf rootDeltaId false) (reopened s₁.cce s₁.dag rootDeltaId) := by
  have htagged : Snapshots (s.dag.appendTag rootDeltaId (.resolved managerDid env.now)) s.cce := by
    intro k v hv r hr
    rw [bfsDescendants_congr (ChangesetDag.graph_appendTag _ _ _)]
    exact hsnapshots k v hv r hr
  have hnoted : Snapshots (certified env rootDeltaId managerDid s).dag
      (certified env rootDeltaId managerDid s).cce :=
    (touched_foldl_certify env rootDeltaId managerDid _ _).snapshots htagged
  obtain ⟨s₁, hincidents, hwalked, hstore⟩ := touched_walks
    (fun s hs id => walkIncident_snapshot hcalm hs id) hnoted (s.cce.incidentsOf rootDeltaId)
  obtain ⟨s₂, hcomposites, hwalked', hstore'⟩ := touched_walks
    (fun s hs id => walkComposite_snapshot hcalm hs id) (hwalked.snapshots hnoted)
    ((certified env rootDeltaId managerDid s).cce.compositesOf rootDeltaId true)
  rw [resolveRoot_eq hroot hincidents hcomposites]
  obtain ⟨hdone, hdecomposing⟩ := (Decomposing.refl env s₂).decomposeEach hcalm
    (s₂.cce.compositesOf rootDeltaId false)
  exact ⟨hdone, s₂, hwalked.trans hwalked', hstore'.trans hstore, hdecomposing⟩

end Certified

/-- A root that is left when the composites of another one are decomposed. -/
def Reopens (s : IncidentRun) (dag' : ChangesetDag) (rootDeltaId : DeltaId) (id : IncidentId)
    (q : DeltaId) : Prop :=
  ∃ v, view s.cce (.inr id) = some v ∧ rootDeltaId ∈ v.roots ∧ q ∈ v.roots ∧
    dag'.hasResolvedTag q = false

theorem mem_reopened {cce : ContaminationEngine} (hkeyed : Keyed cce) {dag : ChangesetDag}
    {rootDeltaId : DeltaId} {p : IncidentId × DeltaId} :
    p ∈ reopened cce dag rootDeltaId ↔ ∃ v, view cce (.inr p.1) = some v ∧
      rootDeltaId ∈ v.roots ∧ p.2 ∈ v.roots ∧ dag.hasResolvedTag p.2 = false := by
  simp only [reopened, List.mem_flatMap, mem_compositesOf hkeyed, List.mem_map, unresolvedOf,
    List.mem_filter, Bool.not_eq_true']
  constructor
  · rintro ⟨id, ⟨v, hv, hroot, -⟩, q, ⟨hq, hunresolved⟩, rfl⟩
    rw [hv] at hq
    exact ⟨v, hv, hroot, hq, hunresolved⟩
  · rintro ⟨v, hv, hroot, hq, hunresolved⟩
    refine ⟨p.1, ⟨v, hv, hroot, by simp⟩, p.2, ⟨?_, hunresolved⟩, rfl⟩
    rw [hv]
    exact hq

/-- Open, with a root that is not resolved. -/
def Live (dag : ChangesetDag) (v : IncidentView) : Prop :=
  v.state = .open_ ∧ ∃ r ∈ v.roots, dag.hasResolvedTag r = false

theorem keepsRow_iff {cce : ContaminationEngine} {dag : ChangesetDag} {id : IncidentId} :
    cce.keepsRow .clean dag id = true ↔ (∃ v, view cce (.inl id) = some v ∧ Live dag v) ∨
      view cce (.inl id) = none ∧ ∃ v, view cce (.inr id) = some v ∧ Live dag v := by
  unfold keepsRow
  rw [readsResolved_clean]
  split
  · rename_i ico hico
    simp [view_incident hico, Live, icoView]
  · rename_i hnone
    have habsent : view cce (.inl id) = none := by rw [view, hnone, Option.map_none]
    split
    · rename_i comp hcomp
      simp [habsent, view_composite hcomp, Live, compositeView]
    · rename_i hnone'
      have habsent' : view cce (.inr id) = none := by rw [view, hnone', Option.map_none]
      simp [habsent, habsent']

@[simp] theorem view_pruneRows (cce : ContaminationEngine) (dag : ChangesetDag) (k : IncidentKey) :
    view (cce.pruneRows .clean dag) k = view cce k := by
  cases k <;> rfl

/-- `retain` on the index: an entry stays if its incident does. -/
theorem lookup_retain (index : AList fun _ : String × String => IncidentId)
    (keeps : IncidentId → Bool) (x : String × String) :
    ((index.entries.filter fun e => !keeps e.2).foldl (fun index e => index.erase e.1)
      index).lookup x = (index.lookup x).filter keeps := by
  have hfold : ∀ (stale : List (Sigma fun _ : String × String => IncidentId))
      (index : AList fun _ : String × String => IncidentId),
      (stale.foldl (fun index e => index.erase e.1) index).lookup x =
        if x ∈ stale.map Sigma.fst then none else index.lookup x := by
    intro stale
    induction stale with
    | nil => simp
    | cons e stale ih =>
      intro index
      rw [List.foldl_cons, ih]
      by_cases hx : x = e.1
      · subst hx
        simp
      · simp [hx, AList.lookup_erase_ne hx]
  refine (hfold _ _).trans ?_
  cases hlookup : index.lookup x with
  | none => simp
  | some id =>
    have hstale : x ∈ (index.entries.filter fun e => !keeps e.2).map Sigma.fst ↔
        keeps id = false := by
      simp only [List.mem_map, List.mem_filter, Bool.not_eq_true']
      constructor
      · rintro ⟨e, ⟨he, hkeeps⟩, rfl⟩
        cases hlookup.symm.trans (AList.mem_lookup_iff.mpr he)
        exact hkeeps
      · intro hkeeps
        exact ⟨⟨x, id⟩, ⟨AList.mem_lookup_iff.mp hlookup, hkeeps⟩, rfl⟩
    cases hkeeps : keeps id with
    | true => rw [if_neg (by rw [hstale, hkeeps]; decide), Option.filter_some, if_pos hkeeps]
    | false => rw [if_pos (hstale.mpr hkeeps), Option.filter_some, hkeeps]; rfl

theorem lookup_pruneRows (cce : ContaminationEngine) (dag : ChangesetDag) (x : String × String) :
    (cce.pruneRows .clean dag).contaminatedRows.lookup x =
      (cce.contaminatedRows.lookup x).filter (cce.keepsRow .clean dag) :=
  lookup_retain cce.contaminatedRows (cce.keepsRow .clean dag) x

theorem lookup_indexEach (news : List (IncidentId × List AffectedRow)) (cce : ContaminationEngine)
    {rows : Finset (String × String)} (hrows : ∀ new ∈ news, rowKeys new.2 = rows) :
    (news = [] ∧ ∀ x, (news.foldl (fun cce new => cce.indexRows new.2 new.1) cce
        ).contaminatedRows.lookup x = cce.contaminatedRows.lookup x) ∨
      ∃ new ∈ news, ∀ x, (news.foldl (fun cce new => cce.indexRows new.2 new.1) cce
        ).contaminatedRows.lookup x =
          if x ∈ rows then some new.1 else cce.contaminatedRows.lookup x := by
  induction news generalizing cce with
  | nil => exact .inl ⟨rfl, fun x => rfl⟩
  | cons new news ih =>
    obtain ⟨hfirst, hrest⟩ := List.forall_mem_cons.mp hrows
    refine .inr ?_
    rcases ih (cce.indexRows new.2 new.1) hrest with ⟨rfl, hsame⟩ | ⟨last, hlast, hindex⟩
    · refine ⟨new, List.mem_cons_self, fun x => ?_⟩
      rw [← hfirst]
      exact lookup_indexRows cce new.2 new.1 x
    · refine ⟨last, List.mem_cons_of_mem _ hlast, fun x => ?_⟩
      rw [List.foldl_cons, hindex, lookup_indexRows, hfirst]
      split_ifs <;> rfl

theorem view_indexEach (news : List (IncidentId × List AffectedRow)) (cce : ContaminationEngine)
    (k : IncidentKey) :
    view (news.foldl (fun cce new => cce.indexRows new.2 new.1) cce) k = view cce k := by
  induction news generalizing cce with
  | nil => rfl
  | cons new news ih => rw [List.foldl_cons, ih, view_indexRows]

theorem absorbed_indexEach (news : List (IncidentId × List AffectedRow))
    (cce : ContaminationEngine) (k : IncidentId) :
    absorbed (news.foldl (fun cce new => cce.indexRows new.2 new.1) cce) k = absorbed cce k := by
  induction news generalizing cce with
  | nil => rfl
  | cons new news ih => rw [List.foldl_cons, ih, absorbed_indexRows]

def Certifies (lib : IdentityLibraries) (env : ResolutionEnvironment) (rootDeltaId : DeltaId)
    (managerDid : Did) (managerSig : Bytes) (managerTokenExpiry nowSecs : ℤ) : Prop :=
  verifyManagerAuth lib managerDid managerSig (digestBytes rootDeltaId) managerTokenExpiry
    nowSecs = .ok () ∧ env.rootFault = none

structure CertifyEffect (env : ResolutionEnvironment) (rootDeltaId : DeltaId) (managerDid : Did)
    (s s' : IncidentRun) : Prop where
  graph : s'.dag.graph = s.dag.graph
  resolved : ∀ id, s'.dag.hasResolvedTag id =
    (s.dag.hasResolvedTag id || decide (id = rootDeltaId ∧ rootDeltaId ∈ s.dag.ids))
  rows : projected s'.store = projected s.store
  absorbed : ∀ k, absorbed s'.cce k = absorbed s.cce k
  composite : ∀ k, view s'.cce (.inr k) = (view s.cce (.inr k)).map fun v =>
    if rootDeltaId ∈ v.roots then v.decomposed else v
  incident : ∀ k,
    (∃ id q, Reopens s s'.dag rootDeltaId id q ∧ k = env.newId id q ∧
      view s'.cce (.inl k) = some (openedView s.dag s.store k q)) ∨
    (∀ id q, Reopens s s'.dag rootDeltaId id q → k ≠ env.newId id q) ∧
      view s'.cce (.inl k) = view s.cce (.inl k)
  index : ∃ index : String × String → Option IncidentId,
    (∀ x, s'.cce.contaminatedRows.lookup x = (index x).filter (s'.cce.keepsRow .clean s'.dag)) ∧
    ((∀ id q, ¬Reopens s s'.dag rootDeltaId id q) ∧
        (∀ x, index x = s.cce.contaminatedRows.lookup x) ∨
      ∃ id q, Reopens s s'.dag rootDeltaId id q ∧ ∀ x, index x =
        if x ∈ projected s.store then some (env.newId id q)
        else s.cce.contaminatedRows.lookup x)
  store : ∃ n, s'.store = markAll^[n] (certified env rootDeltaId managerDid s).store ∧
    (n = 0 ↔ ∀ id q, ¬Reopens s s'.dag rootDeltaId id q)

theorem certifyEffect {env : ResolutionEnvironment} {rootDeltaId : DeltaId} {managerDid : Did}
    {s : IncidentRun} {s₁ s₂ : Resolution} (hkeyed : Keyed s.cce)
    (hwalked : Touched (certified env rootDeltaId managerDid s) s₁)
    (hstore : s₁.store = (certified env rootDeltaId managerDid s).store)
    (hdecomposing : Decomposing env s₁ s₂ (s₁.cce.compositesOf rootDeltaId false)
      (reopened s₁.cce s₁.dag rootDeltaId)) :
    CertifyEffect env rootDeltaId managerDid s
      ⟨(s₂.newIcos.foldl (fun cce new => cce.indexRows new.2 new.1) s₂.cce).pruneRows .clean s₂.dag,
        s₂.dag, s₂.store⟩ := by
  have htouched := (touched_foldl_certify env rootDeltaId managerDid
    (s.cce.incidentsOf rootDeltaId) ⟨s.cce, s.dag.appendTag rootDeltaId
      (.resolved managerDid env.now), s.store, []⟩).trans hwalked
  have hview : ∀ k, view s₁.cce k = view s.cce k := htouched.view
  have hreopens : ∀ p, p ∈ reopened s₁.cce s₁.dag rootDeltaId ↔
      Reopens s s₂.dag rootDeltaId p.1 p.2 := by
    intro p
    rw [mem_reopened (htouched.keyed hkeyed), Reopens, hview, hdecomposing.dag]
  have hgraph : s₁.dag.graph = s.dag.graph :=
    htouched.tags.graph.trans (ChangesetDag.graph_appendTag _ _ _)
  have hrows : projected s₁.store = projected s.store := htouched.rows
  have hindex : s₁.cce.contaminatedRows = s.cce.contaminatedRows := htouched.index
  have hnews : s₂.newIcos.map (fun new => (new.1, rowKeys new.2)) =
      (reopened s₁.cce s₁.dag rootDeltaId).map
        fun p => (env.newId p.1 p.2, projected s.store) := by
    rw [hdecomposing.newIcos, show s₁.newIcos = [] from htouched.newIcos, hrows]
    rfl
  have hopened : ∀ k q, openedView s₁.dag s₁.store k q = openedView s.dag s.store k q := by
    intro k q
    rw [openedView, openedView, bfsDescendants_congr hgraph, hrows]
  refine ⟨by rw [hdecomposing.dag, hgraph], fun id => ?_, hdecomposing.rows.trans hrows,
    fun k => ?_, fun k => ?_, fun k => ?_, ?_,
    (reopened s₁.cce s₁.dag rootDeltaId).length, ?_, ?_⟩
  · rw [hdecomposing.dag, htouched.tags.resolved]
    exact hasResolvedTag_resolve _ _ _ _ _
  · refine (absorbed_indexEach s₂.newIcos s₂.cce k).trans ?_
    exact (hdecomposing.absorbed k).trans (htouched.absorbed k)
  · rw [view_pruneRows, view_indexEach, hdecomposing.composite, hview]
    simp only [mem_compositesOf (htouched.keyed hkeyed), hview]
    cases view s.cce (.inr k) with
    | none => simp
    | some v =>
      by_cases hv : rootDeltaId ∈ v.roots
      · simp [hv]
      · simp [hv]
  · rw [view_pruneRows, view_indexEach]
    rcases hdecomposing.incident k with ⟨p, hp, hk, hshown⟩ | ⟨hnew, hshown⟩
    · exact .inl ⟨p.1, p.2, (hreopens p).mp hp, hk, by rw [hshown, hopened]⟩
    · refine .inr ⟨fun id q hq => hnew (id, q) ((hreopens (id, q)).mpr hq), ?_⟩
      rw [hshown, hview]
  · have hkeys : ∀ new ∈ s₂.newIcos, rowKeys new.2 = projected s.store := by
      intro new hnew
      have hmem := List.mem_map_of_mem (f := fun new => (new.1, rowKeys new.2)) hnew
      rw [hnews] at hmem
      obtain ⟨p, -, hp⟩ := List.mem_map.mp hmem
      exact (congrArg Prod.snd hp).symm
    refine ⟨_, lookup_pruneRows _ s₂.dag, ?_⟩
    rcases lookup_indexEach s₂.newIcos s₂.cce hkeys with ⟨hnil, hsame⟩ | ⟨new, hnew, hlast⟩
    · refine .inl ⟨fun id q hq => ?_, fun x => ?_⟩
      · rw [hnil, List.map_nil, List.nil_eq, List.map_eq_nil_iff] at hnews
        have hmem := (hreopens (id, q)).mpr hq
        rw [hnews] at hmem
        cases hmem
      · rw [hsame, hdecomposing.index, hindex]
    · have hmem := List.mem_map_of_mem (f := fun new => (new.1, rowKeys new.2)) hnew
      rw [hnews] at hmem
      obtain ⟨p, hp, hsame⟩ := List.mem_map.mp hmem
      refine .inr ⟨p.1, p.2, (hreopens p).mp hp, fun x => ?_⟩
      rw [hlast, hdecomposing.index, hindex, ← (congrArg Prod.fst hsame : env.newId p.1 p.2 = _)]
  · rw [hdecomposing.store, hstore]
  · rw [List.length_eq_zero_iff, List.eq_nil_iff_forall_not_mem]
    exact ⟨fun h id q hq => h (id, q) ((hreopens (id, q)).mpr hq),
      fun h p hp => h p.1 p.2 ((hreopens p).mp hp)⟩

theorem verify_cases (lib : IdentityLibraries) {env : ResolutionEnvironment} {s : IncidentRun}
    (hkeyed : Keyed s.cce) (hsnapshots : Snapshots s.dag s.cce) {rootDeltaId : DeltaId}
    {managerDid : Did} {managerSig : Bytes} {managerTokenExpiry nowSecs : ℤ}
    (hcalm : Certifies lib env rootDeltaId managerDid managerSig managerTokenExpiry nowSecs →
      Calm env) :
    ¬Certifies lib env rootDeltaId managerDid managerSig managerTokenExpiry nowSecs ∧
        step lib s (.verify env rootDeltaId managerDid managerSig managerTokenExpiry nowSecs) = s ∨
      Certifies lib env rootDeltaId managerDid managerSig managerTokenExpiry nowSecs ∧
        CertifyEffect env rootDeltaId managerDid s
          (step lib s (.verify env rootDeltaId managerDid managerSig managerTokenExpiry
            nowSecs)) := by
  simp only [step]
  unfold verifyData
  split
  · rename_i e hauth
    exact .inl ⟨fun h => (by cases hauth.symm.trans h.1), rfl⟩
  · rename_i hauth
    cases hroot : env.rootFault with
    | some e =>
      rw [resolveRoot, hroot]
      exact .inl ⟨fun h => (by cases hroot.symm.trans h.2), rfl⟩
    | none =>
      obtain ⟨hok, s₁, hwalked, hstore, hdecomposing⟩ := resolveRoot_calm (hcalm ⟨hauth, hroot⟩)
        hroot hsnapshots rootDeltaId managerDid
      rcases hout : resolveRoot .clean env rootDeltaId managerDid ⟨s.cce, s.dag, s.store, []⟩ with
        ⟨_ | _, s₂⟩
      · rw [hout] at hok
        cases hok
      rw [hout] at hdecomposing
      exact .inr ⟨⟨hauth, hroot⟩, certifyEffect hkeyed hwalked hstore hdecomposing⟩

end TirBase.IncidentRuns
