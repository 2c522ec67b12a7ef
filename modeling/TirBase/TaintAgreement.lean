import TirBase.IncidentMatching
import TirBase.LateArrivals
import TirBase.WasmIncidents
import TirBase.WriteAgreement

/-! # Incidents on both builds

The native engine walks the DAG and the other one has none, so they agree as long as every root is
alone: it has no descendants when it is tagged, and none when it is certified. -/
namespace TirBase.TaintAgreement
open ContaminationEngine IncidentRuns IncidentMatching TagLogs

/-- The log of a Delta, empty for one that is not stored. -/
def logOf (dag : ChangesetDag) (id : DeltaId) : List DeltaTag := (tagsOf dag id).getD []

/-- No other stored Delta names this one as a parent. -/
def Childless (dag : ChangesetDag) (root : DeltaId) : Prop :=
  ∀ c, (root, c) ∈ dag.edges → c = root

/-- The engines of the two devices agree on incidents that are about one Delta each. -/
structure TaintsAgree (h : CoreHandle) (w : WasmCoreHandle) : Prop where
  single : Single h.cce
  keyed : Keyed w.cce
  noDag : w.cceDag = .empty
  agree : ∃ m : Matching, m.Agree h.cce w.cce (logOf h.crdt.dag) w.readTags

section Logs
variable {dag : ChangesetDag} {root : DeltaId}

theorem mem_bfsDescendants_childless (h : Childless dag root) (id : DeltaId) :
    id ∈ dag.bfsDescendants root ↔ id = root := by
  rw [ChangesetDag.mem_bfsDescendants_iff]
  constructor
  · intro hreach
    induction hreach with
    | refl => rfl
    | tail _ hchild ih =>
      subst ih
      exact h _ (ChangesetDag.mem_children.mp hchild)
  · rintro rfl
    exact .refl

theorem childless_of_graph {dag' : ChangesetDag} (h : Childless dag root)
    (hgraph : dag'.graph = dag.graph) : Childless dag' root := by
  intro c hc
  rw [ChangesetDag.edges_of_graph hgraph] at hc
  exact h c hc

theorem logOf_storeEach {stored : DeltaId → Bool} (hstored : ∀ id, stored id = true → id ∈ dag.ids)
    (tag : DeltaTag) (id : DeltaId) : logOf (storeEach .clean dag stored tag) id =
      logOf dag id ++ if stored id = true then [tag] else [] := by
  unfold logOf
  rw [tagsOf_storeEach]
  by_cases hid : stored id = true
  · obtain ⟨l, hl⟩ := tagsOf_of_mem_ids (hstored id hid)
    simp [hl, hid, LogEnvironment.clean]
  · simp [hid]

structure Appends (dag dag' : ChangesetDag) (new : DeltaId → List DeltaTag) : Prop where
  graph : dag'.graph = dag.graph
  authors : ∀ did, dag'.nodesByAuthor did = dag.nodesByAuthor did
  logs : ∀ id, logOf dag' id = logOf dag id ++ new id

theorem Appends.refl (dag : ChangesetDag) : Appends dag dag fun _ => [] :=
  ⟨rfl, fun _ => rfl, fun _ => (List.append_nil _).symm⟩

theorem Appends.trans {dag' dag'' : ChangesetDag} {new new' : DeltaId → List DeltaTag}
    (h : Appends dag dag' new) (h' : Appends dag' dag'' new') :
    Appends dag dag'' fun id => new id ++ new' id :=
  ⟨h'.graph.trans h.graph, fun did => (h'.authors did).trans (h.authors did),
    fun id => by rw [h'.logs, h.logs, List.append_assoc]⟩

theorem Appends.congr {dag' : ChangesetDag} {new new' : DeltaId → List DeltaTag}
    (h : Appends dag dag' new) (hsame : ∀ id, new id = new' id) : Appends dag dag' new' :=
  ⟨h.graph, h.authors, fun id => by rw [h.logs, hsame]⟩

theorem appends_storeEach {stored : DeltaId → Bool}
    (hstored : ∀ id, stored id = true → id ∈ dag.ids) (tag : DeltaTag) :
    Appends dag (storeEach .clean dag stored tag) fun id =>
      if stored id = true then [tag] else [] := by
  refine ⟨graph_storeEach .clean dag stored tag, fun did => ?_, logOf_storeEach hstored tag⟩
  refine WriteAgreement.nodesByAuthor_map (fun r => ?_) (fun r => ?_) did
  · split_ifs <;> rfl
  · split_ifs <;> rfl

theorem appends_appendTag (hroot : root ∈ dag.ids) (tag : DeltaTag) :
    Appends dag (dag.appendTag root tag) fun id => if id = root then [tag] else [] := by
  rw [← appendTag_clean]
  refine (appends_storeEach (fun id hid => ?_) tag).congr fun id => ?_
  · rw [of_decide_eq_true hid]
    exact hroot
  · simp only [decide_eq_true_eq]

theorem logOf_insert (dag : ChangesetDag) (node : DagNode) (id : DeltaId) :
    logOf (dag.insert node) id = logOf dag id := by
  unfold logOf
  rw [tagsOf_insert]
  split_ifs with hnew
  · obtain ⟨habsent, rfl⟩ := hnew
    cases hl : tagsOf dag node.deltaId with
    | none => rfl
    | some l => exact absurd (mem_ids_of_tagsOf hl) habsent
  · rfl

theorem readTags_append (w : WasmCoreHandle) (tags : List (DeltaId × DeltaTag)) (id : DeltaId) :
    ({ w with tagStore := w.tagStore ++ tags } : WasmCoreHandle).readTags id =
      w.readTags id ++ (tags.filter fun e => e.1 = id).map Prod.snd := by
  simp [WasmCoreHandle.readTags]

end Logs

section Tagging
variable {h : CoreHandle} {w : WasmCoreHandle} {env env' : TaintEnvironment} {root : DeltaId}

/-- A stored Delta without descendants and without an incident is tagged. -/
structure Taggable (h : CoreHandle) (w : WasmCoreHandle) (env env' : TaintEnvironment)
    (root : DeltaId) : Prop where
  tags : Tags env
  tagFault : env.tagFault root = false
  stored : root ∈ h.crdt.dag.ids
  childless : Childless h.crdt.dag root
  rootless : Rootless h.cce root
  fresh : view h.cce (.inl env.icoId) = none
  wasmFresh : view w.cce (.inl env'.icoId) = none

structure Tagged (h h' : CoreHandle) (w w' : WasmCoreHandle) (env env' : TaintEnvironment)
    (root : DeltaId) : Prop where
  agree : TaintsAgree h' w'
  dag : Appends h.crdt.dag h'.crdt.dag fun δ =>
    if δ = root then [.contaminated root env.icoId] else []
  opened : ∃ v : IncidentView, v.roots = [root] ∧
    ∀ k, view h'.cce k = if k = .inl env.icoId then some v else view h.cce k
  wasmOthers : ∀ k, k ≠ .inl env'.icoId → view w'.cce k = view w.cce k

theorem tagged_tagRoot (hs : TaintsAgree h w) (htag : Taggable h w env env' root)
    (source : TaintSource) :
    Tagged h (h.tagRoot env root source) w (w.tagRoot env' root source) env env' root := by
  obtain ⟨m, hagree⟩ := hs.agree
  have hdescendants := mem_bfsDescendants_childless htag.childless
  have heffect := tagEffect (CrdtEngine.sampleLibraries []).toIdentityLibraries
    (s := ⟨h.cce, h.crdt.dag, h.store⟩) hs.single.keyed env root source
  have hregister : RegisterEffect (openedView h.crdt.dag h.store env.icoId root) env.compositeId
      h.cce (h.tagRoot env root source).cce := by
    cases heffect with
    | failed hfails hcce hstore => exact absurd htag.tags hfails
    | alone _ hdisjoint hview habsorbed hindex hstore =>
      exact .alone hdisjoint hview habsorbed hindex
    | merged _ id v u hv hopen hmeet hmerge hid hview habsorbed hindex hstore =>
      exact .merged id v u hv hopen hmeet hmerge hid hview habsorbed hindex
  have hdeltas : (openedView h.crdt.dag h.store env.icoId root).deltas = {root} := by
    ext id
    rw [Finset.mem_singleton, ← hdescendants id]
    exact List.mem_toFinset
  obtain ⟨hview, hsingle⟩ := hs.single.register hregister rfl hdeltas htag.rootless
  have hwalk : w.cceDag.bfsDescendants root = [root] := by
    rw [hs.noDag]
    rfl
  have hwasm := registerEffect hs.keyed ⟨env'.icoId, .open_, source, [root],
    (w.cceDag.bfsDescendants root).toFinset, w.affectedRows (w.cceDag.bfsDescendants root), none,
    env'.now, env'.now, []⟩ env'.compositeId env'.now
  have hwasmDeltas : (icoView ⟨env'.icoId, .open_, source, [root],
      (w.cceDag.bfsDescendants root).toFinset, w.affectedRows (w.cceDag.bfsDescendants root), none,
      env'.now, env'.now, []⟩).deltas = {root} := by
    simp only [icoView, hwalk]
    rfl
  obtain ⟨hwasmView, hwasmSingle⟩ := (hs.single.matched hagree hs.keyed).register hwasm rfl
    hwasmDeltas (htag.rootless.matched hagree)
  have hdag : Appends h.crdt.dag (h.tagRoot env root source).crdt.dag fun δ =>
      if δ = root then [.contaminated root env.icoId] else [] := by
    rw [LateArrivals.dag_tagRoot, if_pos htag.tags.1]
    refine (appends_storeEach (fun id hid => ?_) _).congr fun δ => ?_
    · exact (hdescendants id).mp (of_decide_eq_true hid).1 ▸ htag.stored
    · simp only [decide_eq_true_eq, hdescendants]
      by_cases hδ : δ = root
      · rw [if_pos ⟨hδ, hδ ▸ htag.tagFault⟩, if_pos hδ]
      · rw [if_neg fun hboth => hδ hboth.1, if_neg hδ]
  have hwasmLogs : ∀ δ, (w.tagRoot env' root source).readTags δ = w.readTags δ ++
      if δ = root then [.contaminated root env'.icoId] else [] := by
    intro δ
    refine (readTags_append w _ δ).trans ?_
    rw [hwalk]
    by_cases hδ : δ = root
    · simp [hδ]
    · simp [hδ, Ne.symm hδ]
  refine ⟨⟨hsingle, hwasmSingle.keyed, hs.noDag, ?_⟩, hdag, ⟨_, rfl, hview⟩, fun k hk => ?_⟩
  · exact hagree.enter htag.fresh htag.wasmFresh hview hwasmView rfl (hdeltas.trans hwasmDeltas.symm)
      rfl rfl hdag.logs hwasmLogs
  · exact (hwasmView k).trans (if_neg hk)

/-- The Deltas of a revoked device have no descendants and each is tagged, and the identifiers
drawn for their incidents are new. -/
structure Separate (h : CoreHandle) (w : WasmCoreHandle) (env env' : DeltaId → TaintEnvironment)
    (ids : List DeltaId) : Prop where
  tags : ∀ id ∈ ids, Tags (env id) ∧ (env id).tagFault id = false
  childless : ∀ id ∈ ids, Childless h.crdt.dag id
  drawn : (ids.map fun id => (env id).icoId).Nodup
  wasmDrawn : (ids.map fun id => (env' id).icoId).Nodup
  fresh : ∀ id ∈ ids, view h.cce (.inl (env id).icoId) = none
  wasmFresh : ∀ id ∈ ids, view w.cce (.inl (env' id).icoId) = none

/-- They are stored once, and without incidents. -/
structure AllTaggable (h : CoreHandle) (w : WasmCoreHandle) (env env' : DeltaId → TaintEnvironment)
    (ids : List DeltaId) : Prop extends Separate h w env env' ids where
  nodup : ids.Nodup
  stored : ∀ id ∈ ids, id ∈ h.crdt.dag.ids
  rootless : ∀ id ∈ ids, Rootless h.cce id

theorem AllTaggable.tail {env env' : DeltaId → TaintEnvironment} {id : DeltaId}
    {ids : List DeltaId} {h' : CoreHandle} {w' : WasmCoreHandle}
    (hall : AllTaggable h w env env' (id :: ids))
    (htagged : Tagged h h' w w' (env id) (env' id) id) : AllTaggable h' w' env env' ids := by
  obtain ⟨hid, hnodup⟩ := List.nodup_cons.mp hall.nodup
  obtain ⟨hdrawn, hdrawns⟩ := List.nodup_cons.mp hall.drawn
  obtain ⟨hwasmDrawn, hwasmDrawns⟩ := List.nodup_cons.mp hall.wasmDrawn
  obtain ⟨v, hroots, hview⟩ := htagged.opened
  refine ⟨⟨fun other hother => hall.tags other (.tail _ hother), fun other hother => ?_, hdrawns,
    hwasmDrawns, fun other hother => ?_, fun other hother => ?_⟩, hnodup, fun other hother => ?_,
    fun other hother k u hu => ?_⟩
  · exact childless_of_graph (hall.childless other (.tail _ hother)) htagged.dag.graph
  · have hne : (env other).icoId ≠ (env id).icoId := fun heq =>
      hdrawn (List.mem_map.mpr ⟨other, hother, heq⟩)
    rw [hview, if_neg (by simpa using hne)]
    exact hall.fresh other (.tail _ hother)
  · have hne : (env' other).icoId ≠ (env' id).icoId := fun heq =>
      hwasmDrawn (List.mem_map.mpr ⟨other, hother, heq⟩)
    rw [htagged.wasmOthers _ (by simpa using hne)]
    exact hall.wasmFresh other (.tail _ hother)
  · rw [ChangesetDag.ids_of_graph htagged.dag.graph]
    exact hall.stored other (.tail _ hother)
  · rw [hview] at hu
    split_ifs at hu with hk
    · cases hu
      rw [hroots, List.mem_singleton]
      rintro rfl
      exact hid hother
    · exact hall.rootless other (.tail _ hother) k u hu

/-- One after the other gets its incident. -/
theorem taintsAgree_tagEach {env env' : DeltaId → TaintEnvironment} {ids : List DeltaId}
    (hs : TaintsAgree h w) (hall : AllTaggable h w env env' ids) :
    let h' := ids.foldl (fun h id => h.tagRoot (env id) id (.deviceRevocation id)) h
    let w' := ids.foldl (fun w id => w.tagRoot (env' id) id (.deviceRevocation id)) w
    TaintsAgree h' w' ∧ (∃ new, Appends h.crdt.dag h'.crdt.dag new) ∧
      ∀ k v, view h'.cce k = some v → view h.cce k = some v ∨ ∃ id ∈ ids, v.roots = [id] := by
  induction ids generalizing h w with
  | nil => exact ⟨hs, ⟨_, .refl h.crdt.dag⟩, fun k v hv => .inl hv⟩
  | cons id ids ih =>
    have htagged := tagged_tagRoot hs ⟨(hall.tags id List.mem_cons_self).1,
      (hall.tags id List.mem_cons_self).2, hall.stored id List.mem_cons_self,
      hall.childless id List.mem_cons_self, hall.rootless id List.mem_cons_self,
      hall.fresh id List.mem_cons_self, hall.wasmFresh id List.mem_cons_self⟩ (.deviceRevocation id)
    obtain ⟨hagree, ⟨new, hdag⟩, hopened⟩ := ih htagged.agree (hall.tail htagged)
    refine ⟨hagree, ⟨_, htagged.dag.trans hdag⟩, fun k v hv => ?_⟩
    obtain ⟨u, hroots, hview⟩ := htagged.opened
    rcases hopened k v hv with hold | ⟨other, hother, hv⟩
    · rw [hview] at hold
      split_ifs at hold
      · cases hold
        exact .inr ⟨id, List.mem_cons_self, hroots⟩
      · exact .inl hold
    · exact .inr ⟨other, .tail _ hother, hv⟩

end Tagging

section Certifying
variable {cce cce' : ContaminationEngine} {dag : ChangesetDag} {root : DeltaId} {managerDid : Did}

def certificate (cce : ContaminationEngine) (root : DeltaId) (managerDid : Did) (now : ℤ) :
    List DeltaTag :=
  .resolved managerDid now :: (cce.incidentsOf root).map fun id => .decontaminated id now

/-- The root is stored, and when an incident is about it the walk finds no descendants. -/
structure Certifiable (cce : ContaminationEngine) (dag : ChangesetDag) (env : ResolutionEnvironment)
    (root : DeltaId) : Prop where
  rootFault : env.rootFault = none
  stored : root ∈ dag.ids
  alone : ¬Rootless cce root →
    env.tagFault root = false ∧ (env.walkFault root = none → Childless dag root)

/-- The incidents show the same, and tags are appended. -/
structure Noted (s s' : Resolution) (new : DeltaId → List DeltaTag) : Prop where
  shown : ∀ k, view s'.cce k = view s.cce k
  dag : Appends s.dag s'.dag new

/-- A walk from a root without descendants finds nothing, and neither does one that fails. -/
theorem lateArrivals_childless (env : ResolutionEnvironment) (resolved : Bool) (id : IncidentId)
    {known : Finset DeltaId} (hknown : root ∈ known)
    (h : env.walkFault root = none → Childless dag root) :
    (Resolution.lateArrivals .clean env resolved id [root] known dag).2 = (known, dag) := by
  by_cases hturn : dag.hasResolvedTag root = resolved
  · rw [Resolution.lateArrivals, readsResolved_clean, tagEach_clean, if_pos hturn]
    cases hwalk : env.walkFault root with
    | some e => rfl
    | none =>
      have hlate : ((dag.bfsDescendants root).filter fun id => id ∉ known).toFinset = ∅ := by
        rw [List.toFinset_eq_empty_iff, List.filter_eq_nil_iff]
        intro other hother
        simpa [(mem_bfsDescendants_childless (h hwalk) other).mp hother] using hknown
      simp only [hlate, Finset.union_empty, tagEach_empty]
      rfl
  · rw [Resolution.lateArrivals, readsResolved_clean, if_neg hturn]
    rfl

theorem incident_of_single (hs : Single cce) {id : IncidentId} {v : IncidentView}
    (hv : view cce (.inl id) = some v) (hroot : root ∈ v.roots) :
    ∃ ico, cce.incidents.lookup id = some ico ∧ ico.id = id ∧ ico.contaminationRoots = [root] ∧
      ico.contaminatedDeltas = {root} := by
  obtain ⟨ico, hico, rfl⟩ := Option.map_eq_some_iff.mp hv
  obtain ⟨r, hroots, hdeltas⟩ := hs.single id _ hv
  have hr : root = r := List.mem_singleton.mp (hroots ▸ hroot)
  subst hr
  exact ⟨ico, hico, hs.keyed.1 id _ hv, hroots, hdeltas⟩

theorem certify_single {s : Resolution} (hs : Single s.cce) {env : ResolutionEnvironment}
    {id : IncidentId} {v : IncidentView} (hv : view s.cce (.inl id) = some v)
    (hroot : root ∈ v.roots) (hfault : env.tagFault root = false) (hstored : root ∈ s.dag.ids)
    (hresolved : s.dag.hasResolvedTag root = true) (managerDid : Did) :
    Noted s (Resolution.certify .clean env root managerDid s id) fun δ =>
      if δ = root then [.decontaminated id env.now] else [] := by
  obtain ⟨ico, hico, hid, hroots, hdeltas⟩ := incident_of_single hs hv hroot
  have hall : ico.contaminationRoots.all s.dag.hasResolvedTag = true := by
    rw [hroots, List.all_cons, hresolved]
    rfl
  simp only [Resolution.certify, readsResolved_clean, hico, hall, if_true]
  refine ⟨fun k => view_reinsertIncident hico (by rfl) k, ?_⟩
  rw [hdeltas, hid]
  dsimp only
  refine (appends_storeEach (fun δ hδ => ?_) _).congr fun δ => ?_
  · rw [Finset.mem_singleton.mp (of_decide_eq_true hδ).1]
    exact hstored
  · simp only [decide_eq_true_eq, Finset.mem_singleton]
    by_cases hδ : δ = root
    · rw [if_pos ⟨hδ, hδ ▸ hfault⟩, if_pos hδ]
    · rw [if_neg fun hboth => hδ hboth.1, if_neg hδ]

/-- The walk over the incident of a single Delta changes nothing that shows. -/
theorem walkIncident_single {s : Resolution} (hs : Single s.cce) (env : ResolutionEnvironment)
    {id : IncidentId} {v : IncidentView} (hv : view s.cce (.inl id) = some v)
    (hroot : root ∈ v.roots) (hchildless : env.walkFault root = none → Childless s.dag root) :
    Noted s (Resolution.walkIncident .clean env s id).2 fun _ => [] := by
  obtain ⟨ico, hico, -, hroots, hdeltas⟩ := incident_of_single hs hv hroot
  have hknown : root ∈ ico.contaminatedDeltas := hdeltas ▸ Finset.mem_singleton_self root
  have hwalk := lateArrivals_childless env (ico.contaminationRoots.all s.dag.hasResolvedTag) id
    hknown hchildless
  rw [← hroots] at hwalk
  simp only [Resolution.walkIncident, readsResolved_clean, hico, hwalk]
  exact ⟨fun k => view_reinsertIncident hico (by rfl) k, .refl s.dag⟩

theorem Noted.trans {s s' s'' : Resolution} {new new' : DeltaId → List DeltaTag}
    (h : Noted s s' new) (h' : Noted s' s'' new') : Noted s s'' fun id => new id ++ new' id :=
  ⟨fun k => (h'.shown k).trans (h.shown k), h.dag.trans h'.dag⟩

theorem Noted.single {s s' : Resolution} {new : DeltaId → List DeltaTag} (h : Noted s s' new)
    (hs : Single s.cce) : Single s'.cce :=
  hs.of_views (keyed_of_view hs.keyed h.shown) h.shown

/-- The incidents of the root are decontaminated, and the walks find nothing. -/
theorem noted_walks {env : ResolutionEnvironment} (managerDid : Did) (hs : Single cce)
    {s : Resolution} (hcce : s.cce = cce) (hstored : root ∈ s.dag.ids) (hresolved : s.dag.hasResolvedTag root = true)
    (halone : ¬Rootless cce root →
      env.tagFault root = false ∧ (env.walkFault root = none → Childless s.dag root)) :
    Noted s (foldUntilError (Resolution.walkIncident .clean env)
      ((cce.incidentsOf root).foldl (Resolution.certify .clean env root managerDid) s)
        (cce.incidentsOf root)).2 fun δ =>
      if δ = root then (cce.incidentsOf root).map fun id => .decontaminated id env.now else [] := by
  subst hcce
  rcases rootless_or s.cce root with hnone | ⟨id, v, hv, hroot⟩
  · rw [hs.incidentsOf_rootless hnone]
    refine ⟨fun _ => rfl, (Appends.refl s.dag).congr fun δ => ?_⟩
    split_ifs <;> rfl
  · rw [hs.incidentsOf hv hroot]
    obtain ⟨hfault, hchildless⟩ := halone fun hnone => hnone id v hv hroot
    have hcertified := certify_single hs hv hroot hfault hstored hresolved managerDid
    have hwalked := walkIncident_single (hcertified.single hs) env
      ((hcertified.shown (.inl id)).trans hv) hroot
      fun hwalk => childless_of_graph (hchildless hwalk) hcertified.dag.graph
    have hnoted := hcertified.trans hwalked
    have hwalk : (foldUntilError (Resolution.walkIncident .clean env)
        (Resolution.certify .clean env root managerDid s id) [id]).2 =
        (Resolution.walkIncident .clean env (Resolution.certify .clean env root managerDid s id) id).2 := by
      rw [foldUntilError]
      split
      · rename_i e s' hout
        rw [hout]
      · rename_i s' hout
        rw [hout]
        rfl
    change Noted s (foldUntilError (Resolution.walkIncident .clean env)
      (Resolution.certify .clean env root managerDid s id) [id]).2 _
    rw [hwalk]
    refine ⟨hnoted.shown, hnoted.dag.congr fun δ => ?_⟩
    rw [List.append_nil]
    rfl

theorem resolveRoot_single {env : ResolutionEnvironment} (hs : Single cce)
    (hcertifiable : Certifiable cce dag env root) (managerDid : Did) (store : LocalStore) :
    Noted ⟨cce, dag, store, []⟩
      (ContaminationEngine.resolveRoot .clean env root managerDid ⟨cce, dag, store, []⟩).2 fun δ =>
        if δ = root then certificate cce root managerDid env.now else [] := by
  have happended := appends_appendTag hcertifiable.stored (.resolved managerDid env.now)
  have hresolved : (dag.appendTag root (.resolved managerDid env.now)).hasResolvedTag root = true := by
    rw [hasResolvedTag_resolve]
    simp [hcertifiable.stored]
  have hstored : root ∈ (dag.appendTag root (.resolved managerDid env.now)).ids := by
    rw [ChangesetDag.ids_of_graph happended.graph]
    exact hcertifiable.stored
  let s : Resolution := ⟨cce, dag.appendTag root (.resolved managerDid env.now), store, []⟩
  have hwalks : Noted s _ _ := noted_walks managerDid hs rfl hstored hresolved fun hroot =>
    ⟨(hcertifiable.alone hroot).1,
      fun hwalk => childless_of_graph ((hcertifiable.alone hroot).2 hwalk) happended.graph⟩
  have hstart : Noted ⟨cce, dag, store, []⟩ s _ := ⟨fun _ => rfl, happended⟩
  have hnoted := hstart.trans hwalks
  have hcertified := touched_foldl_certify env root managerDid (cce.incidentsOf root) s
  have hnothing := (hs.of_views (keyed_of_view hs.keyed hcertified.view)
    hcertified.view).compositesOf root true
  have hleft := (hnoted.single hs).compositesOf root false
  unfold ContaminationEngine.resolveRoot
  rw [appendTag_clean]
  rw [hcertifiable.rootFault]
  dsimp only [s] at hnothing hnoted hleft ⊢
  rw [hnothing]
  generalize foldUntilError (Resolution.walkIncident .clean env) _ (cce.incidentsOf root) = walked
    at hnoted hleft ⊢
  obtain ⟨result, s'⟩ := walked
  have hnew : Noted ⟨cce, dag, store, []⟩ s' fun δ =>
      if δ = root then certificate cce root managerDid env.now else [] := by
    refine ⟨hnoted.shown, hnoted.dag.congr fun δ => ?_⟩
    split_ifs <;> rfl
  cases result with
  | error e => exact hnew
  | ok u =>
    simp only [foldUntilError, hleft]
    exact hnew

section Calls
variable {identity : IdentityLibraries} {managerSig : Bytes} {managerTokenExpiry nowSecs : ℤ}

theorem verifyData_single {env : ResolutionEnvironment} (hs : Single cce)
    (hcertifiable : Certifiable cce dag env root)
    (hauth : verifyManagerAuth identity managerDid managerSig (digestBytes root)
      managerTokenExpiry nowSecs = .ok ()) (store : LocalStore) :
    let out := ContaminationEngine.verifyData .clean identity env root managerDid managerSig
      managerTokenExpiry nowSecs cce dag store
    (∀ k, view out.2.1 k = view cce k) ∧ Appends dag out.2.2.1 fun δ =>
      if δ = root then certificate cce root managerDid env.now else [] := by
  have hnoted := resolveRoot_single hs hcertifiable managerDid store
  unfold ContaminationEngine.verifyData
  rw [hauth]
  dsimp only
  generalize ContaminationEngine.resolveRoot .clean env root managerDid ⟨cce, dag, store, []⟩ = resolved
    at hnoted ⊢
  obtain ⟨result, s⟩ := resolved
  cases result with
  | error e => exact ⟨hnoted.shown, hnoted.dag⟩
  | ok u =>
    refine ⟨fun k => ?_, hnoted.dag⟩
    exact (view_pruneRows _ _ k).trans ((view_indexEach _ _ k).trans (hnoted.shown k))

/-- The incident of a root notes the certificate in the WASM build, and is decontaminated. -/
theorem wasm_certify_single {w : WasmCoreHandle} (hs : Single w.cce) {id : IncidentId}
    {v : IncidentView} (hv : view w.cce (.inl id) = some v) (hroot : root ∈ v.roots)
    (hresolved : w.hasResolvedTag root = true) (managerDid : Did) (now : ℤ) :
    ∃ cce, WasmCoreHandle.certify now root managerDid w id =
        { w with cce := cce, tagStore := w.tagStore ++ [(root, .decontaminated id now)] } ∧
      ∀ k, view cce k = view w.cce k := by
  obtain ⟨ico, hico, -, hroots, hdeltas⟩ := incident_of_single hs hv hroot
  have hall : ico.contaminationRoots.all w.hasResolvedTag = true := by
    rw [hroots, List.all_cons, hresolved]
    rfl
  have hsort : ico.contaminatedDeltas.sort = [root] := by
    rw [hdeltas, Finset.sort_singleton]
  let noted : IncidentContextObject := { ico with
    auditLog := ico.auditLog ++ [⟨.verifyData, managerDid, now, [root]⟩]
    updatedAt := now }
  have hsame : icoView noted = icoView ico := rfl
  refine ⟨{ w.cce with incidents := w.cce.incidents.insert id noted }, ?_,
    view_reinsertIncident hico hsame⟩
  simp only [WasmCoreHandle.certify, hico, hsort, List.map_cons, List.map_nil]
  exact if_pos hall

theorem wasm_verifyData_single {w : WasmCoreHandle} (hs : Single w.cce)
    (hauth : verifyManagerAuth identity managerDid managerSig (digestBytes root)
      managerTokenExpiry nowSecs = .ok ()) (now : ℤ) :
    ∃ cce tagStore, (w.verifyData identity now root managerDid managerSig managerTokenExpiry
        nowSecs).2 = { w with cce := cce, tagStore := tagStore } ∧
      (∀ k, view cce k = view w.cce k) ∧
      ∀ δ, ({ w with cce := cce, tagStore := tagStore } : WasmCoreHandle).readTags δ =
        w.readTags δ ++ if δ = root then certificate w.cce root managerDid now else [] := by
  let w₁ : WasmCoreHandle :=
    { w with tagStore := w.tagStore ++ [(root, .resolved managerDid now)] }
  have hlogs : ∀ δ, w₁.readTags δ = w.readTags δ ++
      if δ = root then [.resolved managerDid now] else [] := by
    intro δ
    refine (readTags_append w _ δ).trans ?_
    by_cases hδ : δ = root
    · simp [hδ]
    · simp [hδ, Ne.symm hδ]
  have hresolved : w₁.hasResolvedTag root = true := by
    rw [WasmCoreHandle.hasResolvedTag, hlogs, if_pos rfl, List.any_append]
    simp [DeltaTag.isResolved]
  unfold WasmCoreHandle.verifyData
  rw [hauth]
  dsimp only
  rcases rootless_or w.cce root with hnone | ⟨id, v, hv, hroot⟩
  · rw [certificate, hs.incidentsOf_rootless hnone]
    exact ⟨_, _, rfl, fun k => by cases k <;> rfl, hlogs⟩
  · obtain ⟨cce, hcertify, hshown⟩ :=
      wasm_certify_single (w := w₁) hs hv hroot hresolved managerDid now
    rw [certificate, hs.incidentsOf hv hroot]
    simp only [List.foldl_cons, List.foldl_nil]
    rw [hcertify]
    refine ⟨_, _, rfl, fun k => ?_, fun δ => ?_⟩
    · rw [← hshown]
      cases k <;> rfl
    · refine (readTags_append w₁ _ δ).trans ?_
      rw [hlogs]
      by_cases hδ : δ = root
      · simp [hδ]
      · simp [hδ, Ne.symm hδ]

/-- Certificates differ in the identifiers of the incidents. -/
theorem sameTags_certificate {m : Matching} {logs logs' : DeltaId → List DeltaTag} (hs : Single cce)
    (hs' : Single cce') (hagree : m.Agree cce cce' logs logs') (root : DeltaId) (managerDid : Did)
    (now now' : ℤ) : List.Forall₂ m.SameTag (certificate cce root managerDid now)
      (certificate cce' root managerDid now') := by
  refine .cons rfl ?_
  rcases rootless_or cce root with hnone | ⟨id, v, hv, hroot⟩
  · rw [hs.incidentsOf_rootless hnone, hs'.incidentsOf_rootless (hnone.matched hagree)]
    exact .nil
  · obtain ⟨k', v', hp, hv', hsame⟩ := hagree.matched hv
    cases k' with
    | inr id' => cases m.kinds _ hp
    | inl id' =>
      rw [hs.incidentsOf hv hroot, hs'.incidentsOf hv' (hsame.roots ▸ hroot)]
      exact .cons ⟨_, hp, rfl, rfl⟩ .nil

/-- `verify_data` of a native device. -/
def nativeVerify (identity : IdentityLibraries) (env : ResolutionEnvironment) (root : DeltaId)
    (managerDid : Did) (managerSig : Bytes) (managerTokenExpiry nowSecs : ℤ) (h : CoreHandle) :
    CoreHandle :=
  let out := ContaminationEngine.verifyData .clean identity env root managerDid managerSig
    managerTokenExpiry nowSecs h.cce h.crdt.dag h.store
  { h with cce := out.2.1, crdt := { h.crdt with dag := out.2.2.1 }, store := out.2.2.2 }

/-- `admin_close` of a native device. -/
def nativeClose (identity : IdentityLibraries) (now : ℤ) (incidentId : IncidentId)
    (managerDid : Did) (managerSig : Bytes) (managerTokenExpiry nowSecs : ℤ) (h : CoreHandle) :
    CoreHandle :=
  { h with cce := (ContaminationEngine.adminClose identity now incidentId managerDid managerSig
      managerTokenExpiry nowSecs h.cce).2 }

theorem taintsAgree_verify {h : CoreHandle} {w : WasmCoreHandle} {env : ResolutionEnvironment}
    (hs : TaintsAgree h w) (hcertifiable : Certifiable h.cce h.crdt.dag env root)
    (hauth : verifyManagerAuth identity managerDid managerSig (digestBytes root)
      managerTokenExpiry nowSecs = .ok ()) (now : ℤ) :
    TaintsAgree
      (nativeVerify identity env root managerDid managerSig managerTokenExpiry nowSecs h)
      (w.verifyData identity now root managerDid managerSig managerTokenExpiry nowSecs).2 := by
  obtain ⟨m, hagree⟩ := hs.agree
  have hsingle' := hs.single.matched hagree hs.keyed
  obtain ⟨hshown, hdag⟩ := verifyData_single hs.single hcertifiable hauth h.store
  obtain ⟨cce', tagStore, hwasm, hshown', hlogs'⟩ := wasm_verifyData_single hsingle' hauth now
  rw [hwasm]
  refine ⟨hs.single.of_views (keyed_of_view hs.single.keyed hshown) hshown,
    keyed_of_view hs.keyed hshown', hs.noDag, m, ?_⟩
  refine hagree.extend hshown hshown' hdag.logs hlogs' fun δ => ?_
  split_ifs
  · exact sameTags_certificate hs.single hsingle' hagree root managerDid env.now now
  · exact .nil

end Calls

end Certifying

section Closing
variable {identity : IdentityLibraries} {h : CoreHandle} {w : WasmCoreHandle}

/-- Closing names an incident, and changes its state alone. -/
theorem adminClose_cases (identity : IdentityLibraries) (now : ℤ) (id : IncidentId)
    (managerDid : Did) (managerSig : Bytes) (managerTokenExpiry nowSecs : ℤ)
    (cce : ContaminationEngine) :
    let cce' := (ContaminationEngine.adminClose identity now id managerDid managerSig
      managerTokenExpiry nowSecs cce).2
    ((Accepts identity id managerDid managerSig managerTokenExpiry nowSecs →
        ∀ v, view cce (.inl id) = some v → v.state ≠ .open_) ∧ cce' = cce) ∨
      ∃ v, Accepts identity id managerDid managerSig managerTokenExpiry nowSecs ∧
        view cce (.inl id) = some v ∧ v.state = .open_ ∧
        ∀ k, view cce' k = if k = .inl id then some { v with state := .closed } else view cce k := by
  cases closeEffect identity ⟨cce, .empty, .empty⟩ now id managerDid managerSig managerTokenExpiry
    nowSecs with
  | refused hrefused hsame => exact .inl ⟨hrefused, congrArg IncidentRun.cce hsame⟩
  | closed haccepted v hv hopen hview habsorbed hindex hdag hstore =>
    exact .inr ⟨v, haccepted, hv, hopen, hview⟩

theorem mem_pairs_of_roots {m : Matching} {cce cce' : ContaminationEngine}
    {logs logs' : DeltaId → List DeltaTag} (hs' : Single cce') (hagree : m.Agree cce cce' logs logs')
    {id id' : IncidentId} {v v' : IncidentView} (hv : view cce (.inl id) = some v)
    (hv' : view cce' (.inl id') = some v') (hroots : v.roots = v'.roots) :
    (.inl id, .inl id') ∈ m.pairs := by
  obtain ⟨k', u, hp, hu, hsame⟩ := hagree.matched hv
  cases k' with
  | inr other => cases m.kinds _ hp
  | inl other =>
    obtain rfl := hs'.distinct other id' u v' hu hv' (hsame.roots.symm.trans hroots)
    exact hp

def NamesSame (cce cce' : ContaminationEngine) (id id' : IncidentId) : Prop :=
  (view cce (.inl id)).map IncidentView.roots = (view cce' (.inl id')).map IncidentView.roots

theorem taintsAgree_close (hs : TaintsAgree h w) {id id' : IncidentId}
    (hnames : NamesSame h.cce w.cce id id') (managerDid : Did) {managerSig managerSig' : Bytes}
    {managerTokenExpiry nowSecs : ℤ}
    (haccepts : Accepts identity id managerDid managerSig managerTokenExpiry nowSecs ↔
      Accepts identity id' managerDid managerSig' managerTokenExpiry nowSecs) (now now' : ℤ) :
    TaintsAgree
      (nativeClose identity now id managerDid managerSig managerTokenExpiry nowSecs h)
      (w.adminClose identity now' id' managerDid managerSig' managerTokenExpiry nowSecs).2 := by
  obtain ⟨m, hagree⟩ := hs.agree
  have hsingle' := hs.single.matched hagree hs.keyed
  have hstates : ∀ v v', view h.cce (.inl id) = some v → view w.cce (.inl id') = some v' →
      (v.state = .open_ ↔ v'.state = .open_) := by
    intro v v' hv hv'
    have hroots : v.roots = v'.roots := by
      rw [NamesSame, hv, hv'] at hnames
      exact Option.some.inj hnames
    have hsame := hagree.shown _ (mem_pairs_of_roots hsingle' hagree hv hv' hroots) v v' hv hv'
    exact hsame.state.open_iff
  have hsome : ∀ v, view h.cce (.inl id) = some v → ∃ v', view w.cce (.inl id') = some v' ∧
      v.roots = v'.roots := by
    intro v hv
    rw [NamesSame, hv] at hnames
    obtain ⟨v', hv', hroots⟩ := Option.map_eq_some_iff.mp hnames.symm
    exact ⟨v', hv', hroots.symm⟩
  have hsome' : ∀ v', view w.cce (.inl id') = some v' → ∃ v, view h.cce (.inl id) = some v := by
    intro v' hv'
    rw [NamesSame, hv'] at hnames
    obtain ⟨v, hv, -⟩ := Option.map_eq_some_iff.mp hnames
    exact ⟨v, hv⟩
  unfold nativeClose WasmCoreHandle.adminClose
  rcases adminClose_cases identity now id managerDid managerSig managerTokenExpiry nowSecs h.cce with
    ⟨hrefused, hcce⟩ | ⟨v, haccepted, hv, hopen, hview⟩
  · rcases adminClose_cases identity now' id' managerDid managerSig' managerTokenExpiry nowSecs
      w.cce with ⟨-, hcce'⟩ | ⟨v', haccepted', hv', hopen', -⟩
    · rw [hcce]
      dsimp only
      rw [hcce']
      exact ⟨hs.single, hs.keyed, hs.noDag, m, hagree⟩
    · obtain ⟨v, hv⟩ := hsome' v' hv'
      exact absurd ((hstates v v' hv hv').mpr hopen') (hrefused (haccepts.mpr haccepted') v hv)
  · obtain ⟨v', hv', hroots⟩ := hsome v hv
    rcases adminClose_cases identity now' id' managerDid managerSig' managerTokenExpiry nowSecs
      w.cce with ⟨hrefused', -⟩ | ⟨u, -, hu, -, hview'⟩
    · exact absurd ((hstates v v' hv hv').mp hopen) (hrefused' (haccepts.mp haccepted) v' hv')
    · cases hv'.symm.trans hu
      have hpair := mem_pairs_of_roots hsingle' hagree hv hv' hroots
      have hclosed := hagree.close hpair hv hv' hview hview'
      have hsingle : Single (ContaminationEngine.adminClose identity now id managerDid managerSig
          managerTokenExpiry nowSecs h.cce).2 := hs.single.close hv hview
      exact ⟨hsingle, (hsingle'.close hv' hview').keyed, hs.noDag, m, hclosed⟩

end Closing

end TirBase.TaintAgreement
