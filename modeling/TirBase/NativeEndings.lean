import TirBase.IncidentEndings
import TirBase.LateArrivals

/-! # The end of incidents in the native build

A certificate is a tag in the log of its root. While the root is stored and the tags are, a call that
returns ends the incidents of which it certifies the last root. -/
namespace TirBase.NativeEndings
open ContaminationEngine IncidentRuns IncidentEndings CompositeFormation TransitionRuns
open TagLogs (Grows appendTag_clean foldUntilError_keeps graph_storeEach grows_insert
  grows_storeEach mem_ids_of_tagsOf readsResolved_clean recorded_tagContaminationRoot storeEach
  tagEach_clean tagsOf tagsOf_of_mem_ids tagsOf_storeEach)
open LateArrivals (appends_lateArrivals)

structure EndingRun extends IncidentRun where
  done : Certificates

inductive EndingOperation
  | insert (node : DagNode)
  | project (store : LocalStore)
  | incident (op : IncidentOperation)

section Machine
variable (lib : IdentityLibraries)

/-- What a call certifies, if it returns `Ok`. -/
def certificates (s : IncidentRun) : IncidentOperation → Certificates
  | .tag _ _ _ | .close _ _ _ _ _ _ => []
  | .verify env rootDeltaId managerDid managerSig managerTokenExpiry nowSecs =>
    match (verifyData .clean lib env rootDeltaId managerDid managerSig managerTokenExpiry nowSecs
      s.cce s.dag s.store).1 with
    | .ok () => certificatesOf s.cce rootDeltaId
    | .error _ => []

def endingStep (s : EndingRun) : EndingOperation → EndingRun
  | .insert node => { s with dag := s.dag.insert node }
  | .project store => { s with store := store }
  | .incident op => ⟨step lib s.toIncidentRun op, s.done ++ certificates lib s.toIncidentRun op⟩

/-- What is asked of a step: certified incidents have ended, and what is open can be closed. -/
structure EndsIncidents (s : EndingRun) (op : EndingOperation) : Prop where
  certified : AllEnded (tagsOf (endingStep lib s op).dag) (endingStep lib s op).done
    (endingStep lib s op).cce
  closed : ∀ now id managerDid managerSig managerTokenExpiry nowSecs,
    op = .incident (.close now id managerDid managerSig managerTokenExpiry nowSecs) →
      ClosesOpen (Accepts lib id managerDid managerSig managerTokenExpiry nowSecs) id s.cce
        (adminClose lib now id managerDid managerSig managerTokenExpiry nowSecs s.cce)

/-- The root is stored if it has an incident, the tags are stored, the identifiers drawn are new, and
no composite is left without a root to certify. -/
structure Certifiable (s : EndingRun) (env : ResolutionEnvironment) (rootDeltaId : DeltaId) :
    Prop where
  stored : certificatesOf s.cce rootDeltaId ≠ [] → rootDeltaId ∈ s.dag.ids
  tags : ∀ id ∈ s.dag.ids, env.tagFault id = false
  fresh : ∀ id q, Unused s.cce (env.newId id q)
  composite : ∀ id v, view s.cce (.inr id) = some v → rootDeltaId ∈ v.roots →
    ∃ r ∈ v.roots, r ≠ rootDeltaId ∧ (.inr id, r) ∉ s.done

/-- The condition under which a step ends what it should. -/
def EndsCleanly (s : EndingRun) : EndingOperation → Prop
  | .insert _ | .project _ => True
  | .incident (.tag env _ _) => Unused s.cce env.icoId ∧ Unused s.cce env.compositeId
  | .incident (.verify env rootDeltaId managerDid managerSig managerTokenExpiry nowSecs) =>
    Certifies lib env rootDeltaId managerDid managerSig managerTokenExpiry nowSecs →
      Certifiable s env rootDeltaId
  | .incident (.close _ id managerDid managerSig managerTokenExpiry nowSecs) =>
    Accepts lib id managerDid managerSig managerTokenExpiry nowSecs → Closable s.cce id

end Machine

section Tags
variable {dag : ChangesetDag}

theorem keeps_storeEach (dag : ChangesetDag) (stored : DeltaId → Bool) (tag : DeltaTag) :
    Keeps (tagsOf dag) (tagsOf (storeEach .clean dag stored tag)) := by
  have hgrows : Grows (fun _ _ => True) dag (storeEach .clean dag stored tag) :=
    grows_storeEach (fun _ _ => rfl) fun _ _ => trivial
  exact keeps_of_grows hgrows

theorem keeps_tagEach (dag : ChangesetDag) (ids : Finset DeltaId) (fault : DeltaId → Bool)
    (tag : DeltaTag) : Keeps (tagsOf dag) (tagsOf (dag.tagEach ids fault tag)) := by
  rw [← tagEach_clean]
  exact keeps_storeEach dag _ tag

theorem decontaminated_tagEach {ids : Finset DeltaId} (fault : DeltaId → Bool)
    (hfault : ∀ δ ∈ dag.ids, fault δ = false) (hlogs : ∀ δ ∈ ids, ∃ l, tagsOf dag δ = some l)
    (id : IncidentId) (now : ℤ) :
    Decontaminated (tagsOf (dag.tagEach ids fault (.decontaminated id now))) id ids := by
  intro δ hδ
  obtain ⟨l, hl⟩ := hlogs δ hδ
  have hclean := hfault δ (mem_ids_of_tagsOf hl)
  refine ⟨l ++ [.decontaminated id now], ?_, now, by simp⟩
  rw [← tagEach_clean, TagLogs.tagEach, tagsOf_storeEach, hl]
  simp [hδ, hclean, TagLogs.LogEnvironment.clean]

theorem stored_of_descends (hdag : dag.WellFormed) {root δ : DeltaId}
    (hδ : δ ∈ dag.bfsDescendants root) : δ = root ∨ δ ∈ dag.ids := by
  rcases (ChangesetDag.mem_bfsDescendants_iff.mp hδ).cases_tail with hsame | ⟨p, -, hchild⟩
  · exact .inl hsame
  · exact .inr (hdag.childStored p δ (ChangesetDag.mem_children.mp hchild))

theorem stored_of_lateArrivals (hdag : dag.WellFormed) {env : ResolutionEnvironment}
    {resolved : Bool} {id : IncidentId} {roots : List DeltaId} {known : Finset DeltaId} {δ : DeltaId}
    (hδ : δ ∈ (Resolution.lateArrivals .clean env resolved id roots known dag).2.1) :
    δ ∈ known ∨ δ ∈ roots ∨ δ ∈ dag.ids := by
  induction roots generalizing known dag with
  | nil => exact .inl hδ
  | cons root roots ih =>
    by_cases hturn : dag.hasResolvedTag root = resolved
    · cases hwalk : env.walkFault root with
      | some e =>
        simp only [Resolution.lateArrivals, readsResolved_clean, if_pos hturn, hwalk] at hδ
        exact .inl hδ
      | none =>
        simp only [Resolution.lateArrivals, readsResolved_clean, tagEach_clean, if_pos hturn, hwalk] at hδ
        generalize hlate :
          ((dag.bfsDescendants root).filter fun id => id ∉ known).toFinset = late at hδ
        generalize (if resolved = true then DeltaTag.decontaminated id env.lateNow
          else .contaminated root id) = tag at hδ
        have hgraph : (dag.tagEach late env.tagFault tag).graph = dag.graph := by
          rw [← tagEach_clean]
          exact graph_storeEach _ _ _ _
        rcases ih (hdag.of_graph hgraph) hδ with hknown | hroots | hstored
        · rcases Finset.mem_union.mp hknown with hknown | hnew
          · exact .inl hknown
          · rw [← hlate, List.mem_toFinset, List.mem_filter] at hnew
            rcases stored_of_descends hdag hnew.1 with rfl | hstored
            · exact .inr (.inl List.mem_cons_self)
            · exact .inr (.inr hstored)
        · exact .inr (.inl (List.mem_cons_of_mem root hroots))
        · rw [ChangesetDag.ids_of_graph hgraph] at hstored
          exact .inr (.inr hstored)
    · simp only [Resolution.lateArrivals, readsResolved_clean, if_neg hturn] at hδ
      rcases ih hdag hδ with hknown | hroots | hstored
      · exact .inl hknown
      · exact .inr (.inl (List.mem_cons_of_mem root hroots))
      · exact .inr (.inr hstored)

/-- Late Deltas of an incident that is resolved are decontaminated as they join it. -/
theorem decontaminated_lateArrivals (hdag : dag.WellFormed) {env : ResolutionEnvironment}
    (hfault : ∀ δ ∈ dag.ids, env.tagFault δ = false) {id : IncidentId} {roots : List DeltaId}
    (hroots : ∀ r ∈ roots, r ∈ dag.ids) {known : Finset DeltaId}
    (hknown : Decontaminated (tagsOf dag) id known) :
    Decontaminated (tagsOf (Resolution.lateArrivals .clean env true id roots known dag).2.2) id
      (Resolution.lateArrivals .clean env true id roots known dag).2.1 := by
  induction roots generalizing known dag with
  | nil => exact hknown
  | cons root roots ih =>
    obtain ⟨hfirst, hrest⟩ := List.forall_mem_cons.mp hroots
    by_cases hturn : dag.hasResolvedTag root = true
    · cases hwalk : env.walkFault root with
      | some e =>
        simp only [Resolution.lateArrivals, readsResolved_clean, if_pos hturn, hwalk]
        exact hknown
      | none =>
        simp only [Resolution.lateArrivals, readsResolved_clean, tagEach_clean, if_pos hturn, hwalk, if_true]
        generalize hlate :
          ((dag.bfsDescendants root).filter fun id => id ∉ known).toFinset = late
        have hgraph : (dag.tagEach late env.tagFault (.decontaminated id env.lateNow)).graph =
            dag.graph := by
          rw [← tagEach_clean]
          exact graph_storeEach _ _ _ _
        have hlogs : ∀ δ ∈ late, ∃ l, tagsOf dag δ = some l := by
          intro δ hδ
          rw [← hlate, List.mem_toFinset, List.mem_filter] at hδ
          rcases stored_of_descends hdag hδ.1 with rfl | hstored
          · exact tagsOf_of_mem_ids hfirst
          · exact tagsOf_of_mem_ids hstored
        refine ih (hdag.of_graph hgraph) ?_ ?_ fun δ hδ => ?_
        · rwa [ChangesetDag.ids_of_graph hgraph]
        · rwa [ChangesetDag.ids_of_graph hgraph]
        · rcases Finset.mem_union.mp hδ with hδ | hδ
          · exact hknown.keeps (keeps_tagEach dag late env.tagFault _) δ hδ
          · exact decontaminated_tagEach env.tagFault hfault hlogs id env.lateNow δ hδ
    · simp only [Resolution.lateArrivals, readsResolved_clean, if_neg hturn]
      exact ih hdag hfault hrest hknown

end Tags

/-- What a call keeps while it runs: the graph, and what the certificates have come to. -/
structure Underway (dag : ChangesetDag) (done before : Certificates) (pending : IncidentId → Prop)
    (s : Resolution) : Prop where
  graph : s.dag.graph = dag.graph
  settling : Settling (tagsOf s.dag) done before pending s.cce

theorem sameEntries_insertComposite {cce : ContaminationEngine} {id : IncidentId}
    {comp comp' : CompositeIncidentInstance} (hcomp : cce.compositeIncidents.lookup id = some comp)
    (hid : comp'.id = comp.id) (hroots : comp'.contaminationRoots = comp.contaminationRoots) :
    SameEntries cce
      { cce with compositeIncidents := cce.compositeIncidents.insert id comp' } := by
  refine ⟨fun k v' hv' => ?_, fun k v hv => ?_, rfl⟩
  · rw [view_insertComposite] at hv'
    split_ifs at hv' with hk
    · cases hv'
      subst hk
      exact ⟨compositeView comp, view_composite hcomp, hid, hroots, fun _ h => (by cases h)⟩
    · exact ⟨v', hv', rfl, rfl, fun _ _ => rfl⟩
  · rw [view_insertComposite]
    split_ifs
    · exact ⟨_, rfl⟩
    · exact ⟨v, hv⟩

section Resolving
variable {env : ResolutionEnvironment} {dag : ChangesetDag} {done before : Certificates}
  {pending : IncidentId → Prop} {s : Resolution}

theorem all_resolved_of_certified {cce : ContaminationEngine}
    (h : Settling (tagsOf dag) done before pending cce) {k : IncidentKey} {v : IncidentView}
    (hcertified : Certified done k v) : v.roots.all dag.hasResolvedTag = true :=
  List.all_eq_true.mpr fun r hr => resolved_iff.mp (h.noted k r (hcertified r hr)).2

theorem Underway.certify (h : Underway dag done before pending s)
    (hfault : ∀ δ ∈ dag.ids, env.tagFault δ = false) (rootDeltaId : DeltaId) (managerDid : Did)
    (icoId : IncidentId) : Underway dag done before (fun id => pending id ∧ id ≠ icoId)
      (Resolution.certify .clean env rootDeltaId managerDid s icoId) := by
  unfold Resolution.certify
  rw [readsResolved_clean, tagEach_clean]
  split
  · rename_i hnone
    exact ⟨h.graph, h.settling.absent hnone⟩
  · rename_i ico hico
    have hname : ico.id = icoId := h.settling.keyed.1 icoId _ (view_incident hico)
    dsimp only
    split_ifs with hall
    · have hlogs : ∀ δ ∈ ico.contaminatedDeltas, ∃ l, tagsOf s.dag δ = some l := by
        intro δ hδ
        rcases h.settling.within icoId _ (view_incident hico) δ hδ with hlog | hroot
        · exact hlog
        · obtain ⟨l, hl, -⟩ := resolved_iff.mpr (List.all_eq_true.mp hall δ hroot)
          exact ⟨l, hl⟩
      have hended := decontaminated_tagEach env.tagFault
        (by rwa [ChangesetDag.ids_of_graph h.graph]) hlogs ico.id env.now
      have hgraph : (s.dag.tagEach ico.contaminatedDeltas env.tagFault
          (.decontaminated ico.id env.now)).graph = s.dag.graph := by
        rw [← tagEach_clean]
        exact graph_storeEach _ _ _ _
      exact ⟨hgraph.trans h.graph, h.settling.note (keeps_tagEach s.dag _ env.tagFault _) hico
        (by rfl) fun _ => hname ▸ hended⟩
    · exact ⟨h.graph, h.settling.note (.refl _) hico (by rfl) fun hcertified =>
        absurd (all_resolved_of_certified h.settling hcertified) hall⟩

theorem Underway.walkIncident (hdag : dag.WellFormed)
    (hfault : ∀ δ ∈ dag.ids, env.tagFault δ = false)
    (h : Underway dag done before (fun _ => False) s) (icoId : IncidentId) :
    Underway dag done before (fun _ => False) (Resolution.walkIncident .clean env s icoId).2 := by
  unfold Resolution.walkIncident
  rw [readsResolved_clean]
  split
  · exact h
  · rename_i ico hico
    have hv := view_incident hico
    have hstored : s.dag.WellFormed := hdag.of_graph h.graph
    have hkeeps := keeps_of_grows (appends_lateArrivals env
      (ico.contaminationRoots.all s.dag.hasResolvedTag) icoId ico.contaminationRoots
      ico.contaminatedDeltas s.dag)
    refine ⟨(sameResolved_lateArrivals env _ icoId _ _ s.dag).graph.trans h.graph,
      h.settling.join hkeeps hv (fun δ hδ => ?_) (fun hcertified => ?_)
        (fun k => view_insertIncident s.cce icoId _ k) rfl⟩
    · have hlogged : (∃ l, tagsOf s.dag δ = some l) ∨ δ ∈ ico.contaminationRoots := by
        rcases stored_of_lateArrivals hstored hδ with hknown | hroot | hin
        · exact h.settling.within icoId _ hv δ hknown
        · exact .inr hroot
        · exact .inl (tagsOf_of_mem_ids hin)
      rcases hlogged with ⟨l, hl⟩ | hroot
      · obtain ⟨new, hnew⟩ := hkeeps δ l hl
        exact .inl ⟨_, hnew⟩
      · exact .inr hroot
    · have hall : ico.contaminationRoots.all s.dag.hasResolvedTag = true :=
        all_resolved_of_certified h.settling hcertified
      rw [hall]
      refine decontaminated_lateArrivals hstored ?_ (fun r hr => ?_)
        (h.settling.ended icoId _ hv hcertified fun hpending => hpending)
      · rwa [ChangesetDag.ids_of_graph h.graph]
      · obtain ⟨l, hl, -⟩ := resolved_iff.mpr (List.all_eq_true.mp hall r hr)
        exact mem_ids_of_tagsOf hl

variable (env) in
theorem Underway.walkComposite (h : Underway dag done before pending s) (compId : IncidentId) :
    Underway dag done before pending (Resolution.walkComposite .clean env s compId).2 := by
  unfold Resolution.walkComposite
  rw [readsResolved_clean]
  split
  · exact h
  · rename_i comp hcomp
    have hkept := h.settling.keeps (keeps_of_grows (appends_lateArrivals env
      (comp.contaminationRoots.all s.dag.hasResolvedTag) compId comp.contaminationRoots
      comp.contaminatedDeltas s.dag))
    exact ⟨(sameResolved_lateArrivals env _ compId _ _ s.dag).graph.trans h.graph,
      hkept.same (sameEntries_insertComposite hcomp rfl rfl)⟩

/-- A root that is left gets an incident, which nothing certifies. -/
theorem Underway.reopen (hdag : dag.WellFormed) (h : Underway dag done before pending s)
    (hbefore : before ⊆ done) {compositeId : IncidentId} {rootId : DeltaId}
    (hnew : (.inl (env.newId compositeId rootId), rootId) ∉ done) :
    Underway dag done before pending (Resolution.reopen env compositeId s rootId).2 := by
  unfold Resolution.reopen
  dsimp only
  split
  · exact h
  · refine ⟨h.graph, h.settling.enter (v := ⟨env.newId compositeId rootId, .open_, [rootId], _, _⟩)
      hbefore rfl hnew (fun δ hδ => ?_) (fun k => view_insertIncident s.cce _ _ k) fun x => .inr rfl⟩
    have hδ : δ = rootId ∨ δ ∈ s.dag.ids := by
      rw [List.mem_toFinset] at hδ
      split_ifs at hδ
      · exact .inl (List.mem_singleton.mp hδ)
      · exact stored_of_descends (hdag.of_graph h.graph) hδ
    rcases hδ with rfl | hin
    · exact .inr (List.mem_singleton_self δ)
    · exact .inl (tagsOf_of_mem_ids hin)

theorem Underway.decompose (hdag : dag.WellFormed) (h : Underway dag done before pending s)
    (hbefore : before ⊆ done) (hnew : ∀ id r, (.inl (env.newId id r), r) ∉ done)
    (compositeId : IncidentId) :
    Underway dag done before pending (Resolution.decompose .clean env s compositeId).2 := by
  unfold Resolution.decompose
  rw [readsResolved_clean]
  split
  · exact h
  · rename_i comp hcomp
    refine foldUntilError_keeps (P := Underway dag done before pending) (fun s' r hs' =>
      hs'.reopen hdag hbefore (hnew compositeId r)) _ ⟨h.graph, ?_⟩
    exact h.settling.same (sameEntries_insertComposite hcomp rfl rfl)

end Resolving

section Calls
variable {s : EndingRun} {env : ResolutionEnvironment} {rootDeltaId : DeltaId}

structure Ending (s : EndingRun) : Prop where
  wellFormed : s.dag.WellFormed
  settling : Settling (tagsOf s.dag) s.done s.done (fun _ => False) s.cce

/-- The certificates of a call count whatever becomes of it. -/
theorem underway_resolveRoot (h : Ending s) (hcertifiable : Certifiable s env rootDeltaId)
    (hroot : env.rootFault = none) (managerDid : Did) :
    Underway s.dag (s.done ++ certificatesOf s.cce rootDeltaId) s.done (fun _ => False)
      (resolveRoot .clean env rootDeltaId managerDid ⟨s.cce, s.dag, s.store, []⟩).2 := by
  have hbefore : s.done ⊆ s.done ++ certificatesOf s.cce rootDeltaId := List.subset_append_left _ _
  have hnew : ∀ id r, (.inl (env.newId id r), r) ∉ s.done ++ certificatesOf s.cce rootDeltaId := by
    intro id r hin
    have hunused := hcertifiable.fresh id r
    rcases List.mem_append.mp hin with hin | hin
    · exact (h.settling.unused hunused r).1 hin
    · obtain ⟨-, v, hv, -⟩ := (mem_certificatesOf h.settling.keyed).mp hin
      cases hunused.1.symm.trans hv
  have hkeeps : Keeps (tagsOf s.dag)
      (tagsOf (s.dag.appendTag rootDeltaId (.resolved managerDid env.now))) := by
    rw [← appendTag_clean]
    exact keeps_storeEach s.dag _ _
  have hstored : Underway s.dag (s.done ++ certificatesOf s.cce rootDeltaId) s.done
      (fun id => id ∈ s.cce.incidentsOf rootDeltaId)
      ⟨s.cce, s.dag.appendTag rootDeltaId (.resolved managerDid env.now), s.store, []⟩ := by
    refine ⟨ChangesetDag.graph_appendTag _ _ _, h.settling.certify hkeeps (fun hsome => ?_)
      hcertifiable.composite⟩
    rw [resolved_iff, hasResolvedTag_resolve]
    simp [hcertifiable.stored hsome]
  have hdone : Underway s.dag (s.done ++ certificatesOf s.cce rootDeltaId) s.done (fun _ => False)
      ((s.cce.incidentsOf rootDeltaId).foldl (Resolution.certify .clean env rootDeltaId managerDid)
        ⟨s.cce, s.dag.appendTag rootDeltaId (.resolved managerDid env.now), s.store, []⟩) :=
    foldl_pending (P := Underway s.dag (s.done ++ certificatesOf s.cce rootDeltaId) s.done)
      (fun _ _ id hs' => hs'.certify hcertifiable.tags rootDeltaId managerDid id)
      (fun _ _ _ hle hs' => ⟨hs'.graph, hs'.settling.mono hle⟩) _ hstored
  let kept := Underway s.dag (s.done ++ certificatesOf s.cce rootDeltaId) s.done fun _ => False
  unfold resolveRoot
  rw [appendTag_clean]
  rw [hroot]
  dsimp only
  have hwalked := foldUntilError_keeps (P := kept)
    (fun s' id hs' => Underway.walkIncident h.wellFormed hcertifiable.tags hs' id)
    (s.cce.incidentsOf rootDeltaId) hdone
  split
  · rename_i e s₁ hout
    rw [hout] at hwalked
    exact hwalked
  · rename_i s₁ hout
    rw [hout] at hwalked
    have hwalked' := foldUntilError_keeps (P := kept)
      (fun s' id hs' => Underway.walkComposite env hs' id)
      (((s.cce.incidentsOf rootDeltaId).foldl (Resolution.certify .clean env rootDeltaId managerDid)
        ⟨s.cce, s.dag.appendTag rootDeltaId (.resolved managerDid env.now), s.store,
          []⟩).cce.compositesOf rootDeltaId true) hwalked
    split
    · rename_i e s₂ hout'
      rw [hout'] at hwalked'
      exact hwalked'
    · rename_i s₂ hout'
      rw [hout'] at hwalked'
      exact foldUntilError_keeps (P := kept)
        (fun s' id hs' => Underway.decompose h.wellFormed hs' hbefore hnew id) _ hwalked'

/-- A certified incident has no indexed row after the index is pruned. -/
theorem pruned_of_certified {done before : Certificates} {dag : ChangesetDag}
    {cce : ContaminationEngine} (h : Settling (tagsOf dag) done before (fun _ => False) cce)
    {cce' : ContaminationEngine} (hview : ∀ k, view cce' k = view cce k) {id : IncidentId}
    {v : IncidentView} (hv : view cce (.inl id) = some v) (hcertified : Certified done (.inl id) v)
    (x : String × String) : (cce'.pruneRows .clean dag).contaminatedRows.lookup x ≠ some id := by
  intro hindexed
  rw [lookup_pruneRows, Option.filter_eq_some_iff] at hindexed
  have hall := all_resolved_of_certified h hcertified
  rcases keepsRow_iff.mp hindexed.2 with ⟨u, hu, -, r, hr, hunresolved⟩ | ⟨hnone, -⟩
  · rw [hview, hv] at hu
    cases hu
    cases hunresolved.symm.trans (List.all_eq_true.mp hall r hr)
  · rw [hview, hv] at hnone
    cases hnone

variable (lib : IdentityLibraries)

theorem ending_verify (h : Ending s) {managerDid : Did} {managerSig : Bytes}
    {managerTokenExpiry nowSecs : ℤ}
    (hcertifies : Certifies lib env rootDeltaId managerDid managerSig managerTokenExpiry nowSecs →
      Certifiable s env rootDeltaId) :
    Ending (endingStep lib s (.incident (.verify env rootDeltaId managerDid managerSig
      managerTokenExpiry nowSecs))) := by
  simp only [endingStep, certificates, step]
  unfold verifyData
  split
  · exact ⟨h.wellFormed, by simpa using h.settling⟩
  · rename_i hauth
    cases hroot : env.rootFault with
    | some e =>
      simp only [resolveRoot, hroot, List.append_nil]
      exact h
    | none =>
      have hunderway := underway_resolveRoot h (hcertifies ⟨hauth, hroot⟩) hroot managerDid
      have hwellFormed := h.wellFormed.of_graph hunderway.graph
      rcases hout : resolveRoot .clean env rootDeltaId managerDid ⟨s.cce, s.dag, s.store, []⟩ with
        ⟨_ | _, s₂⟩
      · rw [hout] at hunderway hwellFormed
        refine ⟨hwellFormed, ?_⟩
        simpa using hunderway.settling.forget (List.subset_append_left s.done _)
      · rw [hout] at hunderway hwellFormed
        refine ⟨hwellFormed, ?_⟩
        exact hunderway.settling.reindex (fun k => by rw [view_pruneRows, view_indexEach])
          fun id v hv hcertified x =>
            pruned_of_certified hunderway.settling (fun k => view_indexEach s₂.newIcos s₂.cce k) hv
              hcertified x

theorem ending_tag (h : Ending s) {env : TaintEnvironment} (hico : Unused s.cce env.icoId)
    (hcomposite : Unused s.cce env.compositeId) (source : TaintSource) :
    Ending (endingStep lib s (.incident (.tag env rootDeltaId source))) := by
  have heffect := tagEffect lib (s := s.toIncidentRun) h.settling.keyed env rootDeltaId source
  have hcall := @recorded_tagContaminationRoot .clean s.cce s.dag env h.settling.keyed
    (fun _ _ _ => rfl) rootDeltaId source s.store
  have hkept := h.settling.keeps (keeps_of_grows hcall.grows)
  refine ⟨h.wellFormed.of_graph hcall.graph, ?_⟩
  simp only [endingStep, certificates, List.append_nil]
  rcases heffect.register with hsame | hregister
  · rw [hsame]
    exact hkept
  · refine hkept.register rfl (fun δ hδ => ?_) hico hcomposite hregister
    rcases stored_of_descends h.wellFormed (List.mem_toFinset.mp hδ) with rfl | hstored
    · exact .inr (List.mem_singleton_self δ)
    · obtain ⟨l, hl⟩ := tagsOf_of_mem_ids hstored
      obtain ⟨new, hnew, -⟩ := hcall.grows.kept δ l hl
      exact .inl ⟨_, hnew⟩

theorem ending_close (h : Ending s) (now : ℤ) (id : IncidentId) (managerDid : Did)
    (managerSig : Bytes) (managerTokenExpiry nowSecs : ℤ) :
    Ending (endingStep lib s (.incident (.close now id managerDid managerSig managerTokenExpiry
      nowSecs))) := by
  have heffect := closeEffect lib s.toIncidentRun now id managerDid managerSig managerTokenExpiry
    nowSecs
  simp only [endingStep, certificates, List.append_nil]
  have hdag : (step lib s.toIncidentRun (.close now id managerDid managerSig managerTokenExpiry
      nowSecs)).dag = s.dag := rfl
  exact ⟨hdag ▸ h.wellFormed, hdag ▸ h.settling.close rfl heffect⟩

theorem ending_step (h : Ending s) {op : EndingOperation} (hop : EndsCleanly lib s op) :
    Ending (endingStep lib s op) := by
  cases op with
  | insert node =>
    exact ⟨h.wellFormed.insert node,
      h.settling.keeps (keeps_of_grows (grows_insert (fun _ _ => True) s.dag node))⟩
  | project store => exact ⟨h.wellFormed, h.settling⟩
  | incident op =>
    cases op with
    | tag env rootDeltaId source => exact ending_tag lib h hop.1 hop.2 source
    | verify env rootDeltaId managerDid managerSig managerTokenExpiry nowSecs =>
      exact ending_verify lib h hop
    | close now id managerDid managerSig managerTokenExpiry nowSecs =>
      exact ending_close lib h now id managerDid managerSig managerTokenExpiry nowSecs

theorem endsIncidents_step (h : Ending s) {op : EndingOperation} (hop : EndsCleanly lib s op) :
    EndsIncidents lib s op := by
  refine ⟨(ending_step lib h hop).settling.allEnded, ?_⟩
  rintro now id managerDid managerSig managerTokenExpiry nowSecs rfl
  exact (closesOpen_iff lib s.cce now id managerDid managerSig managerTokenExpiry nowSecs).mpr hop

end Calls

theorem ending_new {dag : ChangesetDag} (hdag : dag.WellFormed) (store : LocalStore) :
    Ending ⟨⟨.new, dag, store⟩, []⟩ := ⟨hdag, settling_new _⟩

/-- Along a run whose steps meet the condition, every step ends what it should. -/
theorem endsIncidents_run (lib : IdentityLibraries) {dag : ChangesetDag} (hdag : dag.WellFormed)
    (store : LocalStore) {ops : List EndingOperation}
    (hops : Guarded (endingStep lib) (EndsCleanly lib) ⟨⟨.new, dag, store⟩, []⟩ ops) :
    Guarded (endingStep lib) (EndsIncidents lib) ⟨⟨.new, dag, store⟩, []⟩ ops :=
  guarded_of_invariant (fun _ _ hop h => endsIncidents_step lib h hop)
    (fun _ _ hop h => ending_step lib h hop) hops (ending_new hdag store)

end TirBase.NativeEndings
