import TirBase.CrdtEngine
import TirBase.LogGrowth
import TirBase.RootCertification

/-! # What the tag logs record

Tags are only added, and each with its reason: taint of a root goes to the descendants of the root,
and an incident is decontaminated once all its roots are certified. Nodes may be inserted into the
DAG between the calls. -/
namespace TirBase.TagLogs
open IncidentRuns ContaminationEngine Resolution TransitionRuns

def AllResolved (base : ContaminationEngine) (dag : ChangesetDag) (id : IncidentId) : Prop :=
  ∃ k v, (k = .inl id ∨ k = .inr id) ∧ view base k = some v ∧
    ∀ r ∈ v.roots, dag.hasResolvedTag r = true

/-- The tags that the engine may give a Delta: nothing but a write gives the tag of a human
reaction. -/
def Lawful (base : ContaminationEngine) (dag : ChangesetDag) (id : DeltaId) : DeltaTag → Prop
  | .contaminated rootId _ => id ∈ dag.bfsDescendants rootId
  | .decontaminated incidentId _ => AllResolved base dag incidentId
  | .contaminatedByHumanReaction _ => False
  | _ => True

theorem AllResolved.grows {base : ContaminationEngine} {dag dag' : ChangesetDag}
    {allowed : DeltaId → DeltaTag → Prop} {id : IncidentId} (h : AllResolved base dag id)
    (hgrows : Grows allowed dag dag') : AllResolved base dag' id := by
  obtain ⟨k, v, hk, hv, hroots⟩ := h
  exact ⟨k, v, hk, hv, fun r hr => hgrows.hasResolvedTag (hroots r hr)⟩

theorem Lawful.grows {base : ContaminationEngine} {dag dag' : ChangesetDag}
    {allowed : DeltaId → DeltaTag → Prop} {id : DeltaId} {t : DeltaTag} (h : Lawful base dag id t)
    (hgraph : dag'.graph = dag.graph) (hgrows : Grows allowed dag dag') :
    Lawful base dag' id t := by
  cases t with
  | contaminated rootId incidentId =>
    change id ∈ dag'.bfsDescendants rootId
    rw [bfsDescendants_congr hgraph]
    exact h
  | decontaminated incidentId resolvedAt => exact AllResolved.grows h hgrows
  | contaminatedByHumanReaction incidentId => exact h
  | resolved byManagerDid at_ => trivial
  | contaminatedByCorruptedMigration migrationId => trivial
  | replayComplete migrationId => trivial

/-- What is registered has the roots that it had at first. -/
def SameRoots (base cce : ContaminationEngine) : Prop :=
  ∀ k v, view cce k = some v → ∃ v₀, view base k = some v₀ ∧ v.id = v₀.id ∧ v.roots = v₀.roots

/-- A step of a certification: the graph stays, the logs grow by lawful tags. -/
structure Certifies (base : ContaminationEngine) (s s' : Resolution) : Prop where
  graph : s'.dag.graph = s.dag.graph
  grows : Grows (Lawful base s'.dag) s.dag s'.dag
  roots : SameRoots base s'.cce

/-- Every log of a stored Delta is read before a tag is appended. -/
def Reads (log : LogEnvironment) (dag : ChangesetDag) : Prop :=
  ∀ id ∈ dag.ids, ∀ tag, log.unread id tag = false

theorem Reads.of_graph {log : LogEnvironment} {dag dag' : ChangesetDag} (h : Reads log dag)
    (hgraph : dag'.graph = dag.graph) : Reads log dag' := by
  intro id hid
  rw [ChangesetDag.ids_of_graph hgraph] at hid
  exact h id hid

theorem grows_lawful {base : ContaminationEngine} {dag dag' dag'' : ChangesetDag}
    (h : Grows (Lawful base dag') dag dag') (h' : Grows (Lawful base dag'') dag' dag'')
    (hgraph : dag''.graph = dag'.graph) : Grows (Lawful base dag'') dag dag'' :=
  (h.mono fun _ _ ht => ht.grows hgraph h').trans h'

theorem Certifies.refl {base : ContaminationEngine} {s : Resolution}
    (hs : SameRoots base s.cce) : Certifies base s s := ⟨rfl, .refl _ _, hs⟩

theorem Certifies.trans {base : ContaminationEngine} {s s' s'' : Resolution}
    (h : Certifies base s s') (h' : Certifies base s' s'') : Certifies base s s'' :=
  ⟨h'.graph.trans h.graph, grows_lawful h.grows h'.grows h'.graph, h'.roots⟩

theorem sameRoots_insertIncident {base cce : ContaminationEngine} (h : SameRoots base cce)
    {id : IncidentId} {ico ico' : IncidentContextObject} (hico : cce.incidents.lookup id = some ico)
    (hid : ico'.id = ico.id) (hroots : ico'.contaminationRoots = ico.contaminationRoots) :
    SameRoots base { cce with incidents := cce.incidents.insert id ico' } := by
  intro k v hv
  rw [view_insertIncident] at hv
  split_ifs at hv with hk
  · cases hv
    obtain ⟨v₀, hv₀, hsame, hroots₀⟩ := h k _ (hk ▸ view_incident hico)
    exact ⟨v₀, hv₀, hid.trans hsame, hroots.trans hroots₀⟩
  · exact h k v hv

theorem sameRoots_insertComposite {base cce : ContaminationEngine} (h : SameRoots base cce)
    {id : IncidentId} {comp comp' : CompositeIncidentInstance}
    (hcomp : cce.compositeIncidents.lookup id = some comp) (hid : comp'.id = comp.id)
    (hroots : comp'.contaminationRoots = comp.contaminationRoots) :
    SameRoots base { cce with compositeIncidents := cce.compositeIncidents.insert id comp' } := by
  intro k v hv
  rw [view_insertComposite] at hv
  split_ifs at hv with hk
  · cases hv
    obtain ⟨v₀, hv₀, hsame, hroots₀⟩ := h k _ (hk ▸ view_composite hcomp)
    exact ⟨v₀, hv₀, hid.trans hsame, hroots.trans hroots₀⟩
  · exact h k v hv

section Certification
variable {log : LogEnvironment} {env : ResolutionEnvironment} {base : ContaminationEngine}
  {s : Resolution}

theorem allResolved_of_reads {dag : ChangesetDag} {id : IncidentId} {k : IncidentKey}
    {v : IncidentView} (hs : SameRoots base s.cce) (hk : k = .inl id ∨ k = .inr id)
    (hv : view s.cce k = some v) (hall : v.roots.all (readsResolved log dag) = true) :
    AllResolved base dag id := by
  obtain ⟨v₀, hv₀, -, hroots⟩ := hs k v hv
  refine ⟨k, v₀, hk, hv₀, fun r hr => ?_⟩
  have hread := List.all_eq_true.mp hall r (hroots ▸ hr)
  rw [readsResolved, Bool.and_eq_true] at hread
  exact hread.2

variable (env) in
theorem certifies_certify (hkeyed : Keyed base) (hs : SameRoots base s.cce)
    (hread : Reads log s.dag) (rootDeltaId : DeltaId) (managerDid : Did) (icoId : IncidentId) :
    Certifies base s (certify log env rootDeltaId managerDid s icoId) := by
  unfold certify
  split
  · exact .refl hs
  · rename_i ico hico
    have hroots : SameRoots base { s.cce with incidents := s.cce.incidents.insert icoId { ico with
        auditLog := ico.auditLog ++ [⟨.verifyData, managerDid, env.now, [rootDeltaId]⟩]
        updatedAt := env.now } } := sameRoots_insertIncident hs hico rfl rfl
    dsimp only
    split_ifs with hall
    · obtain ⟨v₀, hv₀, hid, -⟩ := hs _ _ (view_incident hico)
      have hname : ico.id = icoId := hid.trans (hkeyed.1 icoId v₀ hv₀)
      have hresolved : AllResolved base s.dag ico.id :=
        allResolved_of_reads hs (.inl (by rw [hname])) (view_incident hico) hall
      have hgrows : ∀ allowed : DeltaId → DeltaTag → Prop,
          (∀ id, allowed id (.decontaminated ico.id env.now)) →
          Grows allowed s.dag (tagEach log s.dag ico.contaminatedDeltas env.tagFault
            (.decontaminated ico.id env.now)) := fun allowed hallowed =>
        grows_storeEach (fun id hid => hread id hid _) fun id _ => hallowed id
      refine ⟨graph_storeEach _ _ _ _, hgrows _ fun id => ?_, hroots⟩
      exact hresolved.grows (hgrows (fun _ _ => True) fun _ => trivial)
    · exact ⟨rfl, .refl _ _, hroots⟩

variable (env) in
theorem certifies_foldl_certify (hkeyed : Keyed base) (hs : SameRoots base s.cce)
    (hread : Reads log s.dag) (rootDeltaId : DeltaId) (managerDid : Did)
    (ids : List IncidentId) :
    Certifies base s (ids.foldl (certify log env rootDeltaId managerDid) s) := by
  induction ids generalizing s with
  | nil => exact .refl hs
  | cons id ids ih =>
    have hfirst := certifies_certify env hkeyed hs hread rootDeltaId managerDid id
    exact hfirst.trans (ih hfirst.roots (hread.of_graph hfirst.graph))

/-- The walk of the late descendants, for an incident whose roots are resolved or are not. -/
theorem grows_lateArrivals (env : ResolutionEnvironment) (id : IncidentId) (roots : List DeltaId)
    (known : Finset DeltaId) {resolved : Bool} {dag : ChangesetDag} (hread : Reads log dag)
    (hresolved : resolved = true → AllResolved base dag id) :
    (lateArrivals log env resolved id roots known dag).2.2.graph = dag.graph ∧
      Grows (Lawful base (lateArrivals log env resolved id roots known dag).2.2) dag
        (lateArrivals log env resolved id roots known dag).2.2 := by
  induction roots generalizing known dag with
  | nil => exact ⟨rfl, .refl _ _⟩
  | cons root roots ih =>
    by_cases hturn : readsResolved log dag root = resolved
    · cases hwalk : env.walkFault root with
      | some e =>
        simp only [lateArrivals, if_pos hturn, hwalk]
        exact ⟨trivial, .refl _ _⟩
      | none =>
        simp only [lateArrivals, if_pos hturn, hwalk]
        generalize hlate :
          ((dag.bfsDescendants root).filter fun id => id ∉ known).toFinset = late
        have hmem : ∀ other, other ∈ late → other ∈ dag.bfsDescendants root := by
          intro other hother
          rw [← hlate, List.mem_toFinset, List.mem_filter] at hother
          exact hother.1
        generalize htag : (if resolved = true then DeltaTag.decontaminated id env.lateNow
          else .contaminated root id) = tag
        generalize hnext : tagEach log dag late env.tagFault tag = next
        have hgraph : next.graph = dag.graph := hnext ▸ graph_storeEach _ _ _ _
        have hkept : ∀ allowed : DeltaId → DeltaTag → Prop,
            (∀ other ∈ late, allowed other tag) → Grows allowed dag next := by
          intro allowed hallowed
          rw [← hnext]
          refine grows_storeEach (fun other hother => hread other hother _) fun other hother => ?_
          exact hallowed other (of_decide_eq_true hother).1
        have hany := hkept (fun _ _ => True) fun _ _ => trivial
        have hfirst : Grows (Lawful base next) dag next := by
          refine hkept _ fun other hother => ?_
          subst htag
          cases resolved with
          | true => exact (hresolved rfl).grows hany
          | false =>
            change other ∈ next.bfsDescendants root
            rw [bfsDescendants_congr hgraph]
            exact hmem other hother
        obtain ⟨hgraph', hgrows'⟩ := ih (known ∪ late) (hread.of_graph hgraph)
          fun h => (hresolved h).grows hany
        exact ⟨hgraph'.trans hgraph, grows_lawful hfirst hgrows' hgraph'⟩
    · simp only [lateArrivals, if_neg hturn]
      exact ih known hread hresolved

variable (log env) in
theorem certifies_walkIncident (hs : SameRoots base s.cce) (hread : Reads log s.dag)
    (icoId : IncidentId) : Certifies base s (walkIncident log env s icoId).2 := by
  unfold walkIncident
  split
  · exact .refl hs
  · rename_i ico hico
    have hresolved : ico.contaminationRoots.all (readsResolved log s.dag) = true →
        AllResolved base s.dag icoId :=
      fun hall => allResolved_of_reads hs (.inl rfl) (view_incident hico) hall
    obtain ⟨hgraph, hgrows⟩ := grows_lateArrivals env icoId ico.contaminationRoots
      ico.contaminatedDeltas hread hresolved
    exact ⟨hgraph, hgrows, sameRoots_insertIncident hs hico rfl rfl⟩

variable (log env) in
theorem certifies_walkComposite (hs : SameRoots base s.cce) (hread : Reads log s.dag)
    (compId : IncidentId) : Certifies base s (walkComposite log env s compId).2 := by
  unfold walkComposite
  split
  · exact .refl hs
  · rename_i comp hcomp
    have hresolved : comp.contaminationRoots.all (readsResolved log s.dag) = true →
        AllResolved base s.dag compId :=
      fun hall => allResolved_of_reads hs (.inr rfl) (view_composite hcomp) hall
    obtain ⟨hgraph, hgrows⟩ := grows_lateArrivals env compId comp.contaminationRoots
      comp.contaminatedDeltas hread hresolved
    exact ⟨hgraph, hgrows, sameRoots_insertComposite hs hcomp rfl rfl⟩

/-- Items that keep a property keep it together, also when one of them fails. -/
theorem foldUntilError_keeps {S A : Type} {f : S → A → Except TirBaseError Unit × S} {P : S → Prop}
    (hf : ∀ s a, P s → P (f s a).2) (items : List A) {s : S} (hs : P s) :
    P (foldUntilError f s items).2 := by
  induction items generalizing s with
  | nil => exact hs
  | cons a items ih =>
    have hnext := hf s a hs
    rw [foldUntilError]
    split
    · rename_i e s' hout
      rw [hout] at hnext
      exact hnext
    · rename_i s' hout
      rw [hout] at hnext
      exact ih hnext

/-- The items that are reached certify one after the other. -/
theorem certifies_foldUntilError
    {f : Resolution → IncidentId → Except TirBaseError Unit × Resolution}
    (hf : ∀ s id, SameRoots base s.cce → Reads log s.dag → Certifies base s (f s id).2)
    (ids : List IncidentId) (hs : SameRoots base s.cce) (hread : Reads log s.dag) :
    Certifies base s (foldUntilError f s ids).2 := by
  refine foldUntilError_keeps (P := Certifies base s) (fun s' id hs' => ?_) ids (.refl hs)
  exact hs'.trans (hf s' id hs'.roots (hread.of_graph hs'.graph))

variable (log env) in
/-- A decomposition opens incidents under their identifiers and leaves the DAG alone. -/
theorem decompose_keeps (hs : Keyed s.cce) (compositeId : IncidentId) :
    Keyed (decompose log env s compositeId).2.cce ∧
      (decompose log env s compositeId).2.dag = s.dag := by
  unfold decompose
  split
  · exact ⟨hs, rfl⟩
  · rename_i composite hcomposite
    refine foldUntilError_keeps (P := fun s' : Resolution => Keyed s'.cce ∧ s'.dag = s.dag)
      (fun s' root hs' => ?_) _ ⟨⟨fun id v hv => ?_, fun id v hv => ?_⟩, rfl⟩
    · unfold Resolution.reopen
      dsimp only
      split
      · exact hs'
      · refine ⟨⟨fun id v hv => ?_, fun id v hv => ?_⟩, hs'.2⟩
        · rw [view_insertIncident] at hv
          by_cases hid : (Sum.inl id : IncidentKey) = .inl (env.newId compositeId root)
          · rw [if_pos hid] at hv
            cases hv
            exact (Sum.inl.inj hid).symm
          · rw [if_neg hid] at hv
            exact hs'.1.1 id v hv
        · rw [view_insertIncident, if_neg (by simp)] at hv
          exact hs'.1.2 id v hv
    · rw [view_insertComposite, if_neg (by simp)] at hv
      exact hs.1 id v hv
    · rw [view_insertComposite] at hv
      split_ifs at hv with hid
      · cases hv
        have hname := hs.2 compositeId _ (view_composite hcomposite)
        exact hname.trans (Sum.inr.inj hid).symm
      · exact hs.2 id v hv

theorem SameRoots.keyed {cce : ContaminationEngine} (h : SameRoots base cce)
    (hkeyed : Keyed base) : Keyed cce := by
  refine ⟨fun id v hv => ?_, fun id v hv => ?_⟩
  · obtain ⟨v₀, hv₀, hid, -⟩ := h _ v hv
    exact hid.trans (hkeyed.1 id v₀ hv₀)
  · obtain ⟨v₀, hv₀, hid, -⟩ := h _ v hv
    exact hid.trans (hkeyed.2 id v₀ hv₀)

structure Recorded (base : ContaminationEngine) (dag : ChangesetDag) (s' : Resolution) : Prop where
  graph : s'.dag.graph = dag.graph
  grows : Grows (Lawful base s'.dag) dag s'.dag
  keyed : Keyed s'.cce

theorem Certifies.recorded {s' : Resolution} (h : Certifies base s s') (hkeyed : Keyed base) :
    Recorded base s.dag s' := ⟨h.graph, h.grows, h.roots.keyed hkeyed⟩

variable (env) in
theorem recorded_resolveRoot (hkeyed : Keyed s.cce) (hread : Reads log s.dag)
    (rootDeltaId : DeltaId) (managerDid : Did) :
    Recorded s.cce s.dag (resolveRoot log env rootDeltaId managerDid s).2 := by
  have hsame : SameRoots s.cce s.cce := fun k v hv => ⟨v, hv, rfl, rfl⟩
  unfold resolveRoot
  split
  · exact (Certifies.refl hsame).recorded hkeyed
  · dsimp only
    generalize hresolved : appendTag log s.dag rootDeltaId (.resolved managerDid env.now) = dag₁
    have hgrows : ∀ allowed : DeltaId → DeltaTag → Prop,
        (∀ id, allowed id (.resolved managerDid env.now)) → Grows allowed s.dag dag₁ :=
      fun allowed hallowed =>
        hresolved ▸ grows_storeEach (fun id hid => hread id hid _) fun id _ => hallowed id
    have hfirst : Certifies s.cce s { s with dag := dag₁ } :=
      ⟨hresolved ▸ graph_storeEach _ _ _ _, hgrows _ fun _ => trivial, hsame⟩
    have hread₁ : Reads log dag₁ := hread.of_graph hfirst.graph
    have hnoted := hfirst.trans (certifies_foldl_certify (s := { s with dag := dag₁ }) env hkeyed
      hsame hread₁ rootDeltaId managerDid (s.cce.incidentsOf rootDeltaId))
    generalize (s.cce.incidentsOf rootDeltaId).foldl (certify log env rootDeltaId managerDid)
      { s with dag := dag₁ } = s₁ at hnoted ⊢
    have hwalked := hnoted.trans (certifies_foldUntilError
      (fun s id hs hread => certifies_walkIncident log env hs hread id)
      (s.cce.incidentsOf rootDeltaId) hnoted.roots (hread.of_graph hnoted.graph))
    split
    · rename_i e s₂ hout
      rw [hout] at hwalked
      exact hwalked.recorded hkeyed
    · rename_i s₂ hout
      rw [hout] at hwalked
      have hjoined := hwalked.trans (certifies_foldUntilError
        (fun s id hs hread => certifies_walkComposite log env hs hread id)
        (s₁.cce.compositesOf rootDeltaId true) hwalked.roots (hread.of_graph hwalked.graph))
      split
      · rename_i e s₃ hout'
        rw [hout'] at hjoined
        exact hjoined.recorded hkeyed
      · rename_i s₃ hout'
        rw [hout'] at hjoined
        have hlast := foldUntilError_keeps
          (P := fun s' : Resolution => Keyed s'.cce ∧ s'.dag = s₃.dag)
          (fun s' id hs' => by
            have hnext := decompose_keeps log env hs'.1 id
            exact ⟨hnext.1, hnext.2.trans hs'.2⟩)
          (s₃.cce.compositesOf rootDeltaId false) ⟨hjoined.roots.keyed hkeyed, rfl⟩
        refine ⟨?_, ?_, hlast.1⟩
        · rw [hlast.2]
          exact hjoined.graph
        · rw [hlast.2]
          exact hjoined.grows

end Certification

/-- What a call leaves: the graph, logs that grew by lawful tags, and registries under their
identifiers. -/
structure CallRecorded (cce : ContaminationEngine) (dag : ChangesetDag)
    (cce' : ContaminationEngine) (dag' : ChangesetDag) : Prop where
  graph : dag'.graph = dag.graph
  grows : Grows (Lawful cce dag') dag dag'
  keyed : Keyed cce'

theorem CallRecorded.refl {cce : ContaminationEngine} (hkeyed : Keyed cce) (dag : ChangesetDag) :
    CallRecorded cce dag cce dag := ⟨rfl, .refl _ _, hkeyed⟩

theorem keyed_of_view {cce cce' : ContaminationEngine} (h : Keyed cce)
    (hview : ∀ k, view cce' k = view cce k) : Keyed cce' :=
  ⟨fun id v hv => h.1 id v ((hview _).symm.trans hv),
    fun id v hv => h.2 id v ((hview _).symm.trans hv)⟩

section Calls
variable {log : LogEnvironment} {cce : ContaminationEngine} {dag : ChangesetDag}

theorem recorded_verifyData (lib : IdentityLibraries) (env : ResolutionEnvironment)
    (hkeyed : Keyed cce) (hread : Reads log dag) (rootDeltaId : DeltaId) (managerDid : Did)
    (managerSig : Bytes) (managerTokenExpiry nowSecs : ℤ) (store : LocalStore) :
    let out := verifyData log lib env rootDeltaId managerDid managerSig managerTokenExpiry nowSecs
      cce dag store
    CallRecorded cce dag out.2.1 out.2.2.1 := by
  dsimp only
  unfold verifyData
  split
  · exact .refl hkeyed dag
  · have hrecorded := recorded_resolveRoot (s := ⟨cce, dag, store, []⟩) env hkeyed hread rootDeltaId
      managerDid
    split
    · rename_i e s hout
      rw [hout] at hrecorded
      exact ⟨hrecorded.graph, hrecorded.grows, hrecorded.keyed⟩
    · rename_i s hout
      rw [hout] at hrecorded
      refine ⟨hrecorded.graph, hrecorded.grows, keyed_of_view hrecorded.keyed fun k => ?_⟩
      have hpruned : ∀ cce : ContaminationEngine, view (pruneRows log cce s.dag) k = view cce k := by
        intro cce
        cases k <;> rfl
      rw [hpruned, view_indexEach]

theorem keyed_tag {env : TaintEnvironment} {rootDeltaId : DeltaId} {s s' : IncidentRun}
    (hkeyed : Keyed s.cce) (h : TagEffect env rootDeltaId s s') : Keyed s'.cce := by
  rcases h.register with hsame | heffect
  · exact hsame ▸ hkeyed
  · exact keyed_register hkeyed heffect

/-- The registries of a tagging do not depend on the readings. -/
theorem cce_tagContaminationRoot (env : TaintEnvironment) (rootDeltaId : DeltaId)
    (source : TaintSource) (store : LocalStore) :
    (tagContaminationRoot log env rootDeltaId source cce dag store).2.1 =
      (tagContaminationRoot .clean env rootDeltaId source cce dag store).2.1 := by
  unfold tagContaminationRoot
  cases env.walkFault with
  | some e => rfl
  | none => cases env.rowsFault <;> rfl

variable (log cce dag) in
/-- The logs of a tagging: untouched, or one tag for each descendant whose update comes through. -/
theorem dag_tagContaminationRoot (env : TaintEnvironment) (rootDeltaId : DeltaId)
    (source : TaintSource) (store : LocalStore) :
    (tagContaminationRoot log env rootDeltaId source cce dag store).2.2.1 =
      if env.walkFault = none then storeEach log dag
        (fun id => decide (id ∈ dag.bfsDescendants rootDeltaId ∧ env.tagFault id = false))
        (.contaminated rootDeltaId env.icoId)
      else dag := by
  have hnodup : (dag.bfsDescendants rootDeltaId).Nodup := ChangesetDag.nodup_bfsDescendants
  have htagged := foldl_appendTag log (.contaminated rootDeltaId env.icoId)
    (hnodup.filter fun id => !env.tagFault id) dag
  simp only [List.mem_filter, Bool.not_eq_true'] at htagged
  rw [← htagged]
  unfold tagContaminationRoot
  cases env.walkFault with
  | some e => rfl
  | none => cases env.rowsFault <;> rfl

theorem recorded_tagContaminationRoot (env : TaintEnvironment) (hkeyed : Keyed cce)
    (hread : Reads log dag) (rootDeltaId : DeltaId) (source : TaintSource) (store : LocalStore) :
    let out := tagContaminationRoot log env rootDeltaId source cce dag store
    CallRecorded cce dag out.2.1 out.2.2.1 := by
  have hcce : Keyed (tagContaminationRoot log env rootDeltaId source cce dag store).2.1 := by
    rw [cce_tagContaminationRoot]
    exact keyed_tag (s := ⟨cce, dag, store⟩) hkeyed
      (tagEffect (CrdtEngine.sampleLibraries []).toIdentityLibraries hkeyed env rootDeltaId source)
  have hdag := dag_tagContaminationRoot log cce dag env rootDeltaId source store
  dsimp only
  generalize (tagContaminationRoot log env rootDeltaId source cce dag store).2.2.1 = dag' at hdag ⊢
  split_ifs at hdag
  · have hgraph : dag'.graph = dag.graph := hdag ▸ graph_storeEach _ _ _ _
    refine ⟨hgraph, ?_, hcce⟩
    have hgrows : ∀ allowed : DeltaId → DeltaTag → Prop,
        (∀ id ∈ dag.bfsDescendants rootDeltaId, allowed id (.contaminated rootDeltaId env.icoId)) →
        Grows allowed dag dag' := fun allowed hallowed => hdag ▸ grows_storeEach
      (fun id hid => hread id hid _) fun id hid => hallowed id (of_decide_eq_true hid).1
    refine hgrows _ fun id hid => ?_
    change id ∈ dag'.bfsDescendants rootDeltaId
    rw [bfsDescendants_congr hgraph]
    exact hid
  · rw [hdag]
    exact ⟨rfl, .refl _ _, hcce⟩

end Calls

inductive LogOperation
  | insert (node : DagNode)
  | tag (env : TaintEnvironment) (log : LogEnvironment) (rootDeltaId : DeltaId)
      (source : TaintSource)
  | verify (env : ResolutionEnvironment) (log : LogEnvironment) (rootDeltaId : DeltaId)
      (managerDid : Did) (managerSig : Bytes) (managerTokenExpiry nowSecs : ℤ)

variable (lib : IdentityLibraries)

def logStep (s : IncidentRun) : LogOperation → IncidentRun
  | .insert node => { s with dag := s.dag.insert node }
  | .tag env log rootDeltaId source =>
    let out := tagContaminationRoot log env rootDeltaId source s.cce s.dag s.store
    ⟨out.2.1, out.2.2.1, out.2.2.2⟩
  | .verify env log rootDeltaId managerDid managerSig managerTokenExpiry nowSecs =>
    let out := verifyData log lib env rootDeltaId managerDid managerSig managerTokenExpiry nowSecs
      s.cce s.dag s.store
    ⟨out.2.1, out.2.2.1, out.2.2.2⟩

def taggedRoot (s : IncidentRun) : LogOperation → Option DeltaId
  | .tag env log rootDeltaId source =>
    match (tagContaminationRoot log env rootDeltaId source s.cce s.dag s.store).1 with
    | .ok _ => some rootDeltaId
    | .error _ => none
  | _ => none

/-- What a call may do to the logs: they keep what they hold, a root that is tagged taints each
stored descendant, and a Delta is decontaminated for an incident of certified roots only. -/
structure LogLaw (s : IncidentRun) (op : LogOperation) : Prop where
  grows : ∀ id l, tagsOf s.dag id = some l →
    ∃ l', tagsOf (logStep lib s op).dag id = some l' ∧ l <+: l'
  contaminates : ∀ root ∈ taggedRoot s op, ∀ id ∈ (logStep lib s op).dag.bfsDescendants root,
    ∀ l, tagsOf (logStep lib s op).dag id = some l → ∃ incidentId, .contaminated root incidentId ∈ l
  decontaminates : ∀ id new,
    tagsOf (logStep lib s op).dag id = some ((tagsOf s.dag id).getD [] ++ new) →
    ∀ incidentId resolvedAt, .decontaminated incidentId resolvedAt ∈ new →
      AllResolved s.cce (logStep lib s op).dag incidentId

/-- The laws along a run, and every earlier log is the first part of every later one. -/
structure LogLaws (s : IncidentRun) (ops : List LogOperation) : Prop where
  prefixes : ∀ earlier later, earlier <+: later → later <+: ops → ∀ id l,
    tagsOf (run (logStep lib) s earlier).dag id = some l →
      ∃ l', tagsOf (run (logStep lib) s later).dag id = some l' ∧ l <+: l'
  steps : Guarded (logStep lib) (LogLaw lib) s ops

/-- Before a tag is appended to the log of a stored Delta the log is read, and the updates of a
tagging come through. -/
def StoresTags (s : IncidentRun) : LogOperation → Prop
  | .insert _ => True
  | .tag env log rootDeltaId _ => Reads log s.dag ∧
      ∀ id ∈ s.dag.bfsDescendants rootDeltaId, id ∈ s.dag.ids → env.tagFault id = false
  | .verify _ log _ _ _ _ _ => Reads log s.dag

theorem mem_ids_of_tagsOf {dag : ChangesetDag} {id : DeltaId} {l : List DeltaTag}
    (h : tagsOf dag id = some l) : id ∈ dag.ids := by
  obtain ⟨r, hr, -⟩ := Option.map_eq_some_iff.mp h
  have hsame : r.id = id := by simpa using List.find?_some hr
  exact List.mem_map.mpr ⟨r, List.mem_of_find?_eq_some hr, hsame⟩

theorem tagsOf_of_mem_ids {dag : ChangesetDag} {id : DeltaId} (h : id ∈ dag.ids) :
    ∃ l, tagsOf dag id = some l := by
  obtain ⟨r, hr, hsame⟩ := List.mem_map.mp h
  have hfound : (dag.get id).isSome = true :=
    List.find?_isSome.mpr ⟨r, hr, decide_eq_true hsame⟩
  obtain ⟨row, hrow⟩ := Option.isSome_iff_exists.mp hfound
  exact ⟨row.tagsJson, by rw [tagsOf, hrow, Option.map_some]⟩

section Laws
variable {lib} {s : IncidentRun} {op : LogOperation}

variable (lib) in
theorem grows_logStep (hkeyed : Keyed s.cce) (hstored : StoresTags s op) :
    Grows (Lawful s.cce (logStep lib s op).dag) s.dag (logStep lib s op).dag ∧
      Keyed (logStep lib s op).cce := by
  cases op with
  | insert node => exact ⟨grows_insert _ s.dag node, hkeyed⟩
  | tag env log rootDeltaId source =>
    have hcall := recorded_tagContaminationRoot env hkeyed hstored.1 rootDeltaId source s.store
    exact ⟨hcall.grows, hcall.keyed⟩
  | verify env log rootDeltaId managerDid managerSig managerTokenExpiry nowSecs =>
    have hcall := recorded_verifyData lib env hkeyed hstored rootDeltaId managerDid managerSig
      managerTokenExpiry nowSecs s.store
    exact ⟨hcall.grows, hcall.keyed⟩

/-- A tagging that succeeds leaves its tag in the log of every stored descendant. -/
theorem contaminated_of_tagged (hstored : StoresTags s op) {root : DeltaId}
    (hroot : root ∈ taggedRoot s op) {id : DeltaId}
    (hid : id ∈ (logStep lib s op).dag.bfsDescendants root) {l : List DeltaTag}
    (hl : tagsOf (logStep lib s op).dag id = some l) :
    ∃ incidentId, .contaminated root incidentId ∈ l := by
  cases op with
  | insert node => cases hroot
  | verify env log rootDeltaId managerDid managerSig managerTokenExpiry nowSecs => cases hroot
  | tag env log rootDeltaId source =>
    obtain ⟨-, hfault⟩ := hstored
    have hwalk : env.walkFault = none := by
      cases hwalk : env.walkFault with
      | none => rfl
      | some e => simp [taggedRoot, tagContaminationRoot, hwalk] at hroot
    have hsame : rootDeltaId = root := by
      simp only [taggedRoot] at hroot
      split at hroot
      · exact Option.mem_some_iff.mp hroot
      · cases hroot
    subst hsame
    have hdag := dag_tagContaminationRoot log s.cce s.dag env rootDeltaId source s.store
    rw [if_pos hwalk] at hdag
    simp only [logStep, hdag] at hid hl
    rw [bfsDescendants_congr (graph_storeEach _ _ _ _)] at hid
    have hin : id ∈ s.dag.ids := by
      have hmem := mem_ids_of_tagsOf hl
      rwa [ChangesetDag.ids_of_graph (graph_storeEach _ _ _ _)] at hmem
    rw [tagsOf_storeEach] at hl
    obtain ⟨l₀, -, rfl⟩ := Option.map_eq_some_iff.mp hl
    simp [hid, hfault id hid hin]

theorem logLaw_of_storesTags (hkeyed : Keyed s.cce) (hstored : StoresTags s op) : LogLaw lib s op := by
  obtain ⟨hgrows, -⟩ := grows_logStep lib hkeyed hstored
  refine ⟨fun id l hl => ?_, fun root hroot id hid l hl => ?_, fun id new hnew => ?_⟩
  · obtain ⟨new, hnew, -⟩ := hgrows.kept id l hl
    exact ⟨l ++ new, hnew, List.prefix_append l new⟩
  · exact contaminated_of_tagged hstored hroot hid hl
  · intro incidentId resolvedAt hin
    cases hbefore : tagsOf s.dag id with
    | none =>
      rw [hbefore] at hnew
      exact hgrows.fresh id _ hbefore hnew _ (by simpa using hin)
    | some l =>
      obtain ⟨new', hnew', hlawful⟩ := hgrows.kept id l hbefore
      rw [hbefore, Option.getD_some, hnew', Option.some.injEq, List.append_cancel_left_eq] at hnew
      exact hlawful _ (hnew ▸ hin)

end Laws

theorem keyed_new : Keyed .new := ⟨fun _ _ hv => (by cases hv), fun _ _ hv => (by cases hv)⟩

theorem prefix_run {s : IncidentRun} {ops : List LogOperation} (hkeyed : Keyed s.cce)
    (hstored : Guarded (logStep lib) StoresTags s ops) {id : DeltaId} {l : List DeltaTag}
    (hl : tagsOf s.dag id = some l) :
    ∃ l', tagsOf (run (logStep lib) s ops).dag id = some l' ∧ l <+: l' := by
  induction ops generalizing s l with
  | nil => exact ⟨l, hl, List.prefix_rfl⟩
  | cons op ops ih =>
    obtain ⟨hgrows, hkeyed'⟩ := grows_logStep lib hkeyed hstored.1
    obtain ⟨new, hnew, -⟩ := hgrows.kept id l hl
    obtain ⟨l', hl', hprefix⟩ := ih hkeyed' hstored.2 hnew
    exact ⟨l', hl', (List.prefix_append l new).trans hprefix⟩

theorem keyed_run {s : IncidentRun} {ops : List LogOperation} (hkeyed : Keyed s.cce)
    (hstored : Guarded (logStep lib) StoresTags s ops) : Keyed (run (logStep lib) s ops).cce :=
  @guarded_run _ _ (logStep lib) StoresTags (fun s => Keyed s.cce)
    (fun _ _ hop hs => (grows_logStep lib hs hop).2) s ops hstored hkeyed

/-- The tag logs obey their laws in every run in which each log is read before a tag is appended
to it and no update of a tagging is lost. -/
theorem log_laws_of_storesTags (dag : ChangesetDag) (store : LocalStore) (ops : List LogOperation)
    (hstored : Guarded (logStep lib) StoresTags ⟨.new, dag, store⟩ ops) :
    LogLaws lib ⟨.new, dag, store⟩ ops := by
  constructor
  · rintro earlier later ⟨middle, rfl⟩ ⟨rest, rfl⟩ id l hl
    obtain ⟨hlater, -⟩ := (guarded_append _ _ _ (earlier ++ middle) rest).mp hstored
    obtain ⟨hearlier, hmiddle⟩ := (guarded_append _ _ _ earlier middle).mp hlater
    rw [run_append]
    exact prefix_run lib (keyed_run lib keyed_new hearlier) hmiddle hl
  · have hlaws : ∀ (ops : List LogOperation) (s : IncidentRun), Keyed s.cce →
        Guarded (logStep lib) StoresTags s ops → Guarded (logStep lib) (LogLaw lib) s ops := by
      intro ops
      induction ops with
      | nil => exact fun _ _ _ => trivial
      | cons op ops ih =>
        intro s hs hop
        exact ⟨logLaw_of_storesTags hs hop.1, ih _ (grows_logStep lib hs hop.1).2 hop.2⟩
    exact hlaws ops _ keyed_new hstored

def loggedNode (id : DeltaId) (parents : List DeltaId) : DagNode :=
  ⟨id, [], none, parents, [], 1, 0, false, "did:key:zAuthor"⟩

def calmTaint (icoId compositeId : IncidentId) : TaintEnvironment :=
  ⟨icoId, compositeId, 0, none, none, fun _ => false⟩

def calmResolution : ResolutionEnvironment :=
  ⟨7, 8, fun id _ => id, none, fun _ => false, fun _ => none, fun _ => false, fun _ => none⟩

/-- A descendant arrives after its root was tagged and is found when the root is certified. -/
def certifiedLate : List LogOperation :=
  [.insert (loggedNode 1 []), .tag (calmTaint 1 2) .clean 1 (.deviceRevocation 1),
    .insert (loggedNode 2 [1]),
    .verify calmResolution .clean 1 CrdtEngine.sampleDid₂ (List.replicate 64 0) 10 0]

theorem log_laws_of_storesTags_sample :
    LogLaws (CrdtEngine.sampleLibraries []).toIdentityLibraries ⟨.new, .empty, .empty⟩
        certifiedLate ∧
      tagsOf (run (logStep (CrdtEngine.sampleLibraries []).toIdentityLibraries)
        ⟨.new, .empty, .empty⟩ certifiedLate).dag 2 = some [.decontaminated 1 8] :=
  ⟨log_laws_of_storesTags _ .empty .empty certifiedLate
    ⟨trivial, ⟨fun _ _ _ => rfl, fun _ _ _ => rfl⟩, trivial, fun _ _ _ => rfl, trivial⟩, by rfl⟩

/-- The Delta is tagged twice; its log cannot be read the second time. -/
def taggedTwice : List LogOperation :=
  [.insert (loggedNode 1 []), .tag (calmTaint 1 2) .clean 1 (.deviceRevocation 1),
    .tag (calmTaint 3 4) ⟨fun _ _ => true, fun _ => false⟩ 1 (.deviceRevocation 1)]

theorem unread_log_lost :
    ¬LogLaws (CrdtEngine.sampleLibraries []).toIdentityLibraries ⟨.new, .empty, .empty⟩
      taggedTwice := by
  intro hlaws
  have hearlier : tagsOf (run (logStep (CrdtEngine.sampleLibraries []).toIdentityLibraries)
      ⟨.new, .empty, .empty⟩ (taggedTwice.take 2)).dag 1 = some [.contaminated 1 1] := by rfl
  have hlater : tagsOf (run (logStep (CrdtEngine.sampleLibraries []).toIdentityLibraries)
      ⟨.new, .empty, .empty⟩ taggedTwice).dag 1 = some [.contaminated 1 3] := by rfl
  obtain ⟨l, hl, hprefix⟩ := hlaws.prefixes (taggedTwice.take 2) taggedTwice
    (List.take_prefix 2 taggedTwice) List.prefix_rfl 1 _ hearlier
  rw [hlater] at hl
  cases hl
  exact absurd hprefix (by decide)

end TirBase.TagLogs
