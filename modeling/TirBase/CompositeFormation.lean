import TirBase.CrdtEngine
import TirBase.RootCertification

/-! # When composites are formed completely

An incident that shares a Delta with an open one is joined with it into a composite. The search for
an overlap reads the incidents alone and takes its first hit, so a root that reaches into a composite
or into two incidents leaves open incidents that overlap. -/
namespace TirBase.CompositeFormation
open IncidentRuns TransitionRuns

def IsOpen (cce : ContaminationEngine) (k : IncidentKey) (v : IncidentView) : Prop :=
  view cce k = some v ∧ v.state = .open_

def AdminClosed (cce : ContaminationEngine) (r : DeltaId) : Prop :=
  ∃ id v, view cce (.inl id) = some v ∧ v.state = .closed ∧ r ∈ v.roots

/-- The roots, Deltas and rows of some incidents, taken together. -/
structure IsUnion (cce : ContaminationEngine) (ids : List IncidentId) (v : IncidentView) :
    Prop where
  registered : ∀ id ∈ ids, ∃ w, view cce (.inl id) = some w
  roots : ∀ r, r ∈ v.roots ↔ ∃ id ∈ ids, ∃ w, view cce (.inl id) = some w ∧ r ∈ w.roots
  deltas : ∀ d, d ∈ v.deltas ↔ ∃ id ∈ ids, ∃ w, view cce (.inl id) = some w ∧ d ∈ w.deltas
  rows : ∀ x, x ∈ v.rows ↔ ∃ id ∈ ids, ∃ w, view cce (.inl id) = some w ∧ x ∈ w.rows

structure Complete (s : IncidentRun) : Prop where
  disjoint : ∀ k v k' v', IsOpen s.cce k v → IsOpen s.cce k' v' → k ≠ k' →
    Disjoint v.deltas v'.deltas
  covered : ∀ k v, view s.cce k = some v → ∀ r ∈ v.roots, s.dag.hasResolvedTag r = false →
    ¬AdminClosed s.cce r → ∃! k', ∃ v', IsOpen s.cce k' v' ∧ r ∈ v'.roots
  union : ∀ id v, IsOpen s.cce (.inr id) v →
    ∃ ids, absorbed s.cce id = some ids ∧ IsUnion s.cce ids v

structure Formed (s : IncidentRun) : Prop where
  keyed : Keyed s.cce
  incident : ∀ id v, view s.cce (.inl id) = some v → ∃ r, v.roots = [r] ∧
    v.deltas = (s.dag.bfsDescendants r).toFinset ∧ v.rows = projected s.store
  composite : ∀ id v, view s.cce (.inr id) = some v →
    ∃ ids, absorbed s.cce id = some ids ∧ IsUnion s.cce ids v

theorem view_new (k : IncidentKey) : view .new k = none := by
  cases k <;> rfl

theorem formed_new (dag : ChangesetDag) (store : LocalStore) : Formed ⟨.new, dag, store⟩ := by
  refine ⟨⟨fun id v hv => ?_, fun id v hv => ?_⟩, fun id v hv => ?_, fun id v hv => ?_⟩ <;>
    cases (view_new _).symm.trans hv

theorem mem_bfsDescendants_self (dag : ChangesetDag) (r : DeltaId) :
    r ∈ (dag.bfsDescendants r).toFinset :=
  List.mem_toFinset.mpr (ChangesetDag.mem_bfsDescendants_iff.mpr .refl)

theorem Formed.snapshots {s : IncidentRun} (h : Formed s) : Snapshots s.dag s.cce := by
  have hincident : ∀ id v, view s.cce (.inl id) = some v → ∀ r ∈ v.roots,
      (s.dag.bfsDescendants r).toFinset ⊆ v.deltas := by
    intro id v hv r hr
    obtain ⟨root, hroots, hdeltas, -⟩ := h.incident id v hv
    rw [hroots, List.mem_singleton] at hr
    rw [hr, hdeltas]
  intro k v hv r hr
  cases k with
  | inl id => exact hincident id v hv r hr
  | inr id =>
    obtain ⟨ids, -, hunion⟩ := h.composite id v hv
    obtain ⟨a, ha, w, hw, hrw⟩ := (hunion.roots r).mp hr
    exact fun d hd => (hunion.deltas d).mpr ⟨a, ha, w, hw, hincident a w hw r hrw hd⟩

theorem Formed.root_mem {s : IncidentRun} (h : Formed s) {k : IncidentKey} {v : IncidentView}
    (hv : view s.cce k = some v) {r : DeltaId} (hr : r ∈ v.roots) : r ∈ v.deltas :=
  h.snapshots k v hv r hr (mem_bfsDescendants_self s.dag r)

/-- The incidents of one engine are those of the other, but for their states. -/
def Persists (cce cce' : ContaminationEngine) : Prop :=
  ∀ id v, view cce (.inl id) = some v → ∃ v', view cce' (.inl id) = some v' ∧
    v'.roots = v.roots ∧ v'.deltas = v.deltas ∧ v'.rows = v.rows

theorem IsUnion.persists {cce cce' : ContaminationEngine} (h : Persists cce cce')
    {ids : List IncidentId} {v v' : IncidentView} (hunion : IsUnion cce ids v)
    (hroots : v'.roots = v.roots) (hdeltas : v'.deltas = v.deltas) (hrows : v'.rows = v.rows) :
    IsUnion cce' ids v' := by
  have hiff : ∀ P : IncidentView → Prop,
      (∀ w w', w'.roots = w.roots → w'.deltas = w.deltas → w'.rows = w.rows → (P w' ↔ P w)) →
      ((∃ id ∈ ids, ∃ w, view cce' (.inl id) = some w ∧ P w) ↔
        ∃ id ∈ ids, ∃ w, view cce (.inl id) = some w ∧ P w) := by
    intro P hP
    refine exists_congr fun id => and_congr_right fun hid => ?_
    obtain ⟨w, hw⟩ := hunion.registered id hid
    obtain ⟨w', hw', hsame⟩ := h id w hw
    rw [hw, hw']
    simpa using hP w w' hsame.1 hsame.2.1 hsame.2.2
  refine ⟨fun id hid => ?_, fun r => ?_, fun d => ?_, fun x => ?_⟩
  · obtain ⟨w, hw⟩ := hunion.registered id hid
    obtain ⟨w', hw', -⟩ := h id w hw
    exact ⟨w', hw'⟩
  · rw [hroots, hunion.roots, hiff]
    exact fun w w' hsame _ _ => by rw [hsame]
  · rw [hdeltas, hunion.deltas, hiff]
    exact fun w w' _ hsame _ => by rw [hsame]
  · rw [hrows, hunion.rows, hiff]
    exact fun w w' _ _ hsame => by rw [hsame]

/-- An identifier that no incident and no composite has. -/
def Unused (cce : ContaminationEngine) (id : IncidentId) : Prop :=
  view cce (.inl id) = none ∧ view cce (.inr id) = none

instance (cce : ContaminationEngine) (id : IncidentId) : Decidable (Unused cce id) :=
  inferInstanceAs (Decidable (view cce (.inl id) = none ∧ view cce (.inr id) = none))

section Views
variable {cce cce' : ContaminationEngine} {icoId compositeId id : IncidentId}
  {k : IncidentKey} {u w x y : IncidentView}

theorem view_of_alone (hico : Unused cce icoId)
    (hview : ∀ k, view cce' k = if k = .inl icoId then some x else view cce k)
    (hu : view cce k = some u) : view cce' k = some u := by
  rw [hview, if_neg, hu]
  rintro rfl
  cases hico.1.symm.trans hu

/-- A new composite hides the incident that it takes in and no other. -/
theorem view_of_merged (hico : Unused cce icoId) (hcomposite : Unused cce compositeId)
    (hview : ∀ k, view cce' k = if k = .inr compositeId then some w
      else if k = .inl icoId then some x else if k = .inl id then some y else view cce k)
    (hu : view cce k = some u) (hk : k ≠ .inl id) : view cce' k = some u := by
  rw [hview, if_neg, if_neg, if_neg hk, hu]
  · rintro rfl
    cases hico.1.symm.trans hu
  · rintro rfl
    cases hcomposite.2.symm.trans hu

theorem open_of_merged (hx : x.state ≠ .open_) (hy : y.state ≠ .open_)
    (hview : ∀ k, view cce' k = if k = .inr compositeId then some w
      else if k = .inl icoId then some x else if k = .inl id then some y else view cce k)
    (hu : IsOpen cce' k u) : k = .inr compositeId ∧ u = w ∨ IsOpen cce k u ∧ k ≠ .inl id := by
  obtain ⟨hu, hopen⟩ := hu
  rw [hview] at hu
  split_ifs at hu with hk hk' hk''
  · cases hu
    exact .inl ⟨hk, rfl⟩
  · cases hu
    exact absurd hopen hx
  · cases hu
    exact absurd hopen hy
  · exact .inr ⟨⟨hu, hopen⟩, hk''⟩

theorem open_of_closed (hy : y.state ≠ .open_)
    (hview : ∀ k, view cce' k = if k = .inl id then some y else view cce k)
    (hu : IsOpen cce' k u) : IsOpen cce k u ∧ k ≠ .inl id := by
  obtain ⟨hu, hopen⟩ := hu
  rw [hview] at hu
  split_ifs at hu with hk
  · cases hu
    exact absurd hopen hy
  · exact ⟨⟨hu, hopen⟩, hk⟩

end Views

/-- The identifiers that a call draws are new, and no query of a resolution fails. -/
def Undisturbed (lib : IdentityLibraries) (s : IncidentRun) : IncidentOperation → Prop
  | .tag env _ _ =>
    Unused s.cce env.icoId ∧ Unused s.cce env.compositeId ∧ env.icoId ≠ env.compositeId
  | .verify env rootDeltaId managerDid managerSig managerTokenExpiry nowSecs =>
    Certifies lib env rootDeltaId managerDid managerSig managerTokenExpiry nowSecs →
      Calm env ∧ ∀ id q, Unused s.cce (env.newId id q)
  | .close _ _ _ _ _ _ => True

theorem Formed.of_persists {s s' : IncidentRun} (h : Formed s) (hkeyed : Keyed s'.cce)
    (hgraph : s'.dag.graph = s.dag.graph) (hrows : projected s'.store = projected s.store)
    (hpersists : Persists s.cce s'.cce)
    (hincident : ∀ id v, view s'.cce (.inl id) = some v →
      (∃ w, view s.cce (.inl id) = some w ∧ v.roots = w.roots ∧ v.deltas = w.deltas ∧
        v.rows = w.rows) ∨
      ∃ r, v.roots = [r] ∧ v.deltas = (s.dag.bfsDescendants r).toFinset ∧
        v.rows = projected s.store)
    (hcomposite : ∀ id v, view s'.cce (.inr id) = some v →
      (∃ w, view s.cce (.inr id) = some w ∧ absorbed s'.cce id = absorbed s.cce id ∧
        v.roots = w.roots ∧ v.deltas = w.deltas ∧ v.rows = w.rows) ∨
      ∃ ids, absorbed s'.cce id = some ids ∧ IsUnion s'.cce ids v) : Formed s' := by
  refine ⟨hkeyed, fun id v hv => ?_, fun id v hv => ?_⟩
  · simp only [bfsDescendants_congr hgraph, hrows]
    rcases hincident id v hv with ⟨w, hw, hroots, hdeltas, hsame⟩ | hnew
    · obtain ⟨r, hr⟩ := h.incident id w hw
      exact ⟨r, hroots.trans hr.1, hdeltas.trans hr.2.1, hsame.trans hr.2.2⟩
    · exact hnew
  · rcases hcomposite id v hv with ⟨w, hw, habsorbed, hroots, hdeltas, hsame⟩ | hnew
    · obtain ⟨ids, hids, hunion⟩ := h.composite id w hw
      exact ⟨ids, habsorbed.trans hids, hunion.persists hpersists hroots hdeltas hsame⟩
    · exact hnew

theorem isUnion_pair {cce : ContaminationEngine} {a b : IncidentId} {v w u : IncidentView}
    (ha : view cce (.inl a) = some v) (hb : view cce (.inl b) = some w)
    (hroots : ∀ r, r ∈ u.roots ↔ r ∈ v.roots ∨ r ∈ w.roots)
    (hdeltas : u.deltas = v.deltas ∪ w.deltas) (hrows : u.rows = v.rows ∪ w.rows) :
    IsUnion cce [a, b] u := by
  refine ⟨fun id hid => ?_, fun r => ?_, fun d => ?_, fun x => ?_⟩
  · rcases List.mem_pair.mp hid with rfl | rfl
    · exact ⟨v, ha⟩
    · exact ⟨w, hb⟩
  · rw [hroots]
    simp [ha, hb]
  · rw [hdeltas]
    simp [ha, hb]
  · rw [hrows]
    simp [ha, hb]

theorem formed_tag {env : TaintEnvironment} {rootDeltaId : DeltaId} {s s' : IncidentRun}
    (h : Formed s) (hico : Unused s.cce env.icoId)
    (hgraph : s'.dag.graph = s.dag.graph) (hrows : projected s'.store = projected s.store)
    (heffect : TagEffect env rootDeltaId s s') : Formed s' := by
  cases heffect with
  | failed _ hcce hstore =>
    refine h.of_persists (hcce ▸ h.keyed) hgraph hrows (fun id v hv => ?_) (fun id v hv => ?_)
      fun id v hv => ?_
    · exact ⟨v, hcce ▸ hv, rfl, rfl, rfl⟩
    · exact .inl ⟨v, hcce ▸ hv, rfl, rfl, rfl⟩
    · exact .inl ⟨v, hcce ▸ hv, by rw [hcce], rfl, rfl, rfl⟩
  | alone _ _ hview habsorbed _ _ =>
    refine h.of_persists ⟨fun id v hv => ?_, fun id v hv => ?_⟩ hgraph hrows
      (fun id v hv => ⟨v, ?_, rfl, rfl, rfl⟩) (fun id v hv => ?_)
      fun id v hv => .inl ⟨v, ?_, habsorbed id, rfl, rfl, rfl⟩
    · rw [hview] at hv
      split_ifs at hv with hk
      · cases hk
        cases hv
        rfl
      · exact h.keyed.1 id v hv
    · rw [hview, if_neg (by simp)] at hv
      exact h.keyed.2 id v hv
    · exact view_of_alone hico hview hv
    · rw [hview] at hv
      split_ifs at hv with hk
      · cases hv
        exact .inr ⟨rootDeltaId, rfl, rfl, rfl⟩
      · exact .inl ⟨v, hv, rfl, rfl, rfl⟩
    · rw [hview, if_neg (by simp)] at hv
      exact hv
  | merged _ a v w hv hopen hmeet hmerge hid hview habsorbed _ _ =>
    have hne : a ≠ env.icoId := by
      rintro rfl
      cases hico.1.symm.trans hv
    obtain ⟨r, hroots, hdeltas, hvrows⟩ := h.incident a v hv
    have ha : view s'.cce (.inl a) = some { v with state := .supersededBy env.compositeId } := by
      rw [hview, if_neg (by simp), if_neg (by simpa using hne), if_pos rfl]
    have hb : view s'.cce (.inl env.icoId) = some { openedView s.dag s.store env.icoId rootDeltaId
        with state := .supersededBy env.compositeId } := by
      rw [hview, if_neg (by simp), if_pos rfl]
    have hother : ∀ id, id ≠ a → id ≠ env.icoId →
        view s'.cce (.inl id) = view s.cce (.inl id) := by
      intro id hida hidb
      rw [hview, if_neg (by simp), if_neg (by simpa using hidb), if_neg (by simpa using hida)]
    have hcomp : ∀ id, view s'.cce (.inr id) =
        if id = env.compositeId then some w else view s.cce (.inr id) := by
      intro id
      rw [hview]
      simp
    refine h.of_persists ⟨fun id u hu => ?_, fun id u hu => ?_⟩ hgraph hrows
      (fun id u hu => ?_) (fun id u hu => ?_) fun id u hu => ?_
    · by_cases hida : id = a
      · rw [hida, ha] at hu
        cases hu
        exact (h.keyed.1 a v hv).trans hida.symm
      · by_cases hidb : id = env.icoId
        · rw [hidb, hb] at hu
          cases hu
          exact hidb.symm
        · exact h.keyed.1 id u (hother id hida hidb ▸ hu)
    · rw [hcomp] at hu
      split_ifs at hu with hk
      · cases hu
        exact hid.trans hk.symm
      · exact h.keyed.2 id u hu
    · by_cases hida : id = a
      · rw [hida] at hu ⊢
        cases hv.symm.trans hu
        exact ⟨_, ha, rfl, rfl, rfl⟩
      · refine ⟨u, ?_, rfl, rfl, rfl⟩
        rw [hother id hida, hu]
        rintro rfl
        cases hico.1.symm.trans hu
    · by_cases hida : id = a
      · rw [hida, ha] at hu
        cases hu
        exact .inl ⟨v, hida ▸ hv, rfl, rfl, rfl⟩
      · by_cases hidb : id = env.icoId
        · rw [hidb, hb] at hu
          cases hu
          exact .inr ⟨rootDeltaId, rfl, rfl, rfl⟩
        · exact .inl ⟨u, hother id hida hidb ▸ hu, rfl, rfl, rfl⟩
    · rw [hcomp] at hu
      split_ifs at hu with hk
      · cases hu
        refine .inr ⟨[a, env.icoId], by rw [habsorbed, if_pos hk], ?_⟩
        refine isUnion_pair ha hb hmerge.roots hmerge.deltas ?_
        have hsame : (openedView s.dag s.store env.icoId rootDeltaId).rows = v.rows := hvrows.symm
        exact hmerge.rowsLe.antisymm
          (Finset.union_subset hmerge.rows (hsame.symm ▸ hmerge.rows))
      · exact .inl ⟨u, hu, by rw [habsorbed, if_neg hk], rfl, rfl, rfl⟩

theorem formed_close {accepted : Prop} {incidentId : IncidentId} {s s' : IncidentRun} (h : Formed s)
    (heffect : CloseEffect accepted incidentId s s') : Formed s' := by
  cases heffect with
  | refused _ hsame => rwa [hsame]
  | closed _ v hv hopen hview habsorbed _ hdag hstore =>
    refine h.of_persists ⟨fun id u hu => ?_, fun id u hu => ?_⟩ (by rw [hdag]) (by rw [hstore])
      (fun id u hu => ?_) (fun id u hu => ?_)
      fun id u hu => .inl ⟨u, ?_, habsorbed id, rfl, rfl, rfl⟩
    · rw [hview] at hu
      split_ifs at hu with hk
      · cases hk
        cases hu
        exact h.keyed.1 incidentId v hv
      · exact h.keyed.1 id u hu
    · rw [hview, if_neg (by simp)] at hu
      exact h.keyed.2 id u hu
    · rw [hview]
      split_ifs with hk
      · cases hk
        cases hv.symm.trans hu
        exact ⟨_, rfl, rfl, rfl, rfl⟩
      · exact ⟨u, hu, rfl, rfl, rfl⟩
    · rw [hview] at hu
      split_ifs at hu with hk
      · cases hk
        cases hu
        exact .inl ⟨v, hv, rfl, rfl, rfl⟩
      · exact .inl ⟨u, hu, rfl, rfl, rfl⟩
    · rw [hview, if_neg (by simp)] at hu
      exact hu

theorem formed_certify {env : ResolutionEnvironment} {rootDeltaId : DeltaId} {managerDid : Did}
    {s s' : IncidentRun} (h : Formed s) (hfresh : ∀ id q, Unused s.cce (env.newId id q))
    (heffect : CertifyEffect env rootDeltaId managerDid s s') : Formed s' := by
  refine h.of_persists ⟨fun id u hu => ?_, fun id u hu => ?_⟩ heffect.graph heffect.rows
    (fun id u hu => ?_) (fun id u hu => ?_) fun id u hu => ?_
  · rcases heffect.incident id with ⟨K, q, -, -, hview⟩ | ⟨-, hview⟩
    · cases hview.symm.trans hu
      rfl
    · exact h.keyed.1 id u (hview ▸ hu)
  · rw [heffect.composite] at hu
    obtain ⟨v, hv, rfl⟩ := Option.map_eq_some_iff.mp hu
    split_ifs <;> exact h.keyed.2 id v hv
  · rcases heffect.incident id with ⟨K, q, -, hid, -⟩ | ⟨-, hview⟩
    · rw [hid] at hu
      cases (hfresh K q).1.symm.trans hu
    · exact ⟨u, hview ▸ hu, rfl, rfl, rfl⟩
  · rcases heffect.incident id with ⟨K, q, -, -, hview⟩ | ⟨-, hview⟩
    · cases hview.symm.trans hu
      exact .inr ⟨q, rfl, rfl, rfl⟩
    · exact .inl ⟨u, hview ▸ hu, rfl, rfl, rfl⟩
  · rw [heffect.composite] at hu
    obtain ⟨v, hv, rfl⟩ := Option.map_eq_some_iff.mp hu
    refine .inl ⟨v, hv, heffect.absorbed id, ?_⟩
    split_ifs <;> exact ⟨rfl, rfl, rfl⟩

theorem formed_step (lib : IdentityLibraries) {s : IncidentRun} {op : IncidentOperation}
    (hop : Undisturbed lib s op) (h : Formed s) : Formed (step lib s op) := by
  cases op with
  | tag env rootDeltaId source =>
    obtain ⟨htags, hrows⟩ := sameResolved_tag lib s env rootDeltaId source
    exact formed_tag h hop.1 htags.graph hrows (tagEffect lib h.keyed env rootDeltaId source)
  | verify env rootDeltaId managerDid managerSig managerTokenExpiry nowSecs =>
    rcases verify_cases lib h.keyed h.snapshots (fun hc => (hop hc).1) with
      ⟨-, hsame⟩ | ⟨hc, heffect⟩
    · rwa [hsame]
    · exact formed_certify h (hop hc).2 heffect
  | close now incidentId managerDid managerSig managerTokenExpiry nowSecs =>
    exact formed_close h (closeEffect lib s now incidentId managerDid managerSig _ _)

/-- Not resolved, and not resolved by a certificate of the root either. -/
def Left (s : IncidentRun) (rootDeltaId q : DeltaId) : Prop :=
  s.dag.hasResolvedTag q = false ∧ (q = rootDeltaId → rootDeltaId ∉ s.dag.ids)

instance (s : IncidentRun) (rootDeltaId q : DeltaId) : Decidable (Left s rootDeltaId q) :=
  inferInstanceAs (Decidable (_ ∧ _))

/-- A new root meets no composite that is open, and one open incident at most; a certified root has
no composite with other roots that are left, but for an open one with a single such root. -/
def Apart (lib : IdentityLibraries) (s : IncidentRun) : IncidentOperation → Prop
  | .tag env rootDeltaId _ => Tags env →
    (∀ id v, IsOpen s.cce (.inr id) v →
      Disjoint v.deltas (s.dag.bfsDescendants rootDeltaId).toFinset) ∧
    ∀ a v b w, IsOpen s.cce (.inl a) v → IsOpen s.cce (.inl b) w →
      ¬Disjoint v.deltas (s.dag.bfsDescendants rootDeltaId).toFinset →
      ¬Disjoint w.deltas (s.dag.bfsDescendants rootDeltaId).toFinset → a = b
  | .verify env rootDeltaId managerDid managerSig managerTokenExpiry nowSecs =>
    Certifies lib env rootDeltaId managerDid managerSig managerTokenExpiry nowSecs →
      ∀ id v, view s.cce (.inr id) = some v → rootDeltaId ∈ v.roots →
        ∀ q ∈ v.roots, Left s rootDeltaId q →
          v.state = .open_ ∧ ∀ q' ∈ v.roots, Left s rootDeltaId q' → q' = q
  | .close _ _ _ _ _ _ => True

theorem left_iff {env : ResolutionEnvironment} {rootDeltaId : DeltaId} {managerDid : Did}
    {s s' : IncidentRun} (heffect : CertifyEffect env rootDeltaId managerDid s s') (q : DeltaId) :
    s'.dag.hasResolvedTag q = false ↔ Left s rootDeltaId q := by
  rw [heffect.resolved, Bool.or_eq_false_iff, decide_eq_false_iff_not, not_and, Left]

def Splits (s : IncidentRun) (rootDeltaId : DeltaId) : Prop :=
  ∃ id v, view s.cce (.inr id) = some v ∧ rootDeltaId ∈ v.roots ∧
    ∃ q ∈ v.roots, Left s rootDeltaId q

section Certificate
variable {env : ResolutionEnvironment} {rootDeltaId : DeltaId} {managerDid : Did}
  {s s' : IncidentRun}

theorem reopens_iff (heffect : CertifyEffect env rootDeltaId managerDid s s') :
    (∃ id q, Reopens s s'.dag rootDeltaId id q) ↔ Splits s rootDeltaId := by
  constructor
  · rintro ⟨id, q, v, hv, hroot, hq, hunresolved⟩
    exact ⟨id, v, hv, hroot, q, hq, (left_iff heffect q).mp hunresolved⟩
  · rintro ⟨id, v, hv, hroot, q, hq, hleft⟩
    exact ⟨id, q, v, hv, hroot, hq, (left_iff heffect q).mpr hleft⟩

/-- Without a split the store is what the certificate left, and the index what pruning left. -/
theorem certify_unsplit (heffect : CertifyEffect env rootDeltaId managerDid s s')
    (hsplits : ¬Splits s rootDeltaId) :
    s'.store = (certified env rootDeltaId managerDid s).store ∧
      (∀ x, s'.cce.contaminatedRows.lookup x =
        (s.cce.contaminatedRows.lookup x).filter (s'.cce.keepsRow .clean s'.dag)) ∧
      ∀ id, view s'.cce (.inl id) = view s.cce (.inl id) := by
  have hnone : ∀ id q, ¬Reopens s s'.dag rootDeltaId id q :=
    fun id q hq => hsplits ((reopens_iff heffect).mp ⟨id, q, hq⟩)
  obtain ⟨n, hstore, hn⟩ := heffect.store
  obtain ⟨index, hindex, hcases⟩ := heffect.index
  refine ⟨?_, fun x => ?_, fun id => ?_⟩
  · rw [hstore, hn.mpr hnone, Function.iterate_zero_apply]
  · rcases hcases with ⟨-, hsame⟩ | ⟨id, q, hq, -⟩
    · rw [hindex, hsame]
    · exact absurd hq (hnone id q)
  · rcases heffect.incident id with ⟨K, q, hq, -⟩ | ⟨-, hview⟩
    · exact absurd hq (hnone K q)
    · exact hview

end Certificate

/-- Incidents that share no Delta cover a root once. -/
theorem complete_of_covered {s : IncidentRun} (h : Formed s)
    (hdisjoint : ∀ k v k' v', IsOpen s.cce k v → IsOpen s.cce k' v' → k ≠ k' →
      Disjoint v.deltas v'.deltas)
    (hcovered : ∀ k v, view s.cce k = some v → ∀ r ∈ v.roots, s.dag.hasResolvedTag r = false →
      ¬AdminClosed s.cce r → ∃ k' v', IsOpen s.cce k' v' ∧ r ∈ v'.roots) : Complete s := by
  refine ⟨hdisjoint, fun k v hv r hr hunresolved hclosed => ?_, fun id v hv => h.composite id v hv.1⟩
  obtain ⟨k', v', hopen, hr'⟩ := hcovered k v hv r hr hunresolved hclosed
  refine ⟨k', ⟨v', hopen, hr'⟩, ?_⟩
  rintro k'' ⟨v'', hopen', hr''⟩
  by_contra hne
  exact Finset.disjoint_left.mp (hdisjoint k'' v'' k' v' hopen' hopen hne)
    (h.root_mem hopen'.1 hr'') (h.root_mem hopen.1 hr')

theorem complete_new (dag : ChangesetDag) (store : LocalStore) : Complete ⟨.new, dag, store⟩ := by
  refine complete_of_covered (formed_new dag store) (fun k v k' v' hv => ?_) fun k v hv => ?_
  · cases (view_new k).symm.trans hv.1
  · cases (view_new k).symm.trans hv

section Steps
variable {s s' : IncidentRun} {rootDeltaId : DeltaId}

/-- What covers the roots after a call that keeps what is closed. -/
theorem covered_of_complete (h : Complete s)
    (hresolved : ∀ q, s'.dag.hasResolvedTag q = false → s.dag.hasResolvedTag q = false)
    (hclosed : ∀ r, AdminClosed s.cce r → AdminClosed s'.cce r) {k : IncidentKey}
    {v : IncidentView} (hv : view s.cce k = some v) {r : DeltaId} (hr : r ∈ v.roots)
    (hunresolved : s'.dag.hasResolvedTag r = false) (hopen : ¬AdminClosed s'.cce r) :
    ∃ k' v', IsOpen s.cce k' v' ∧ r ∈ v'.roots := by
  obtain ⟨k', ⟨v', hv'⟩, -⟩ := h.covered k v hv r hr (hresolved r hunresolved)
    fun hr => hopen (hclosed r hr)
  exact ⟨k', v', hv'⟩

theorem complete_tag {env : TaintEnvironment} (hformed : Formed s') (h : Complete s)
    (hico : Unused s.cce env.icoId) (hcomposite : Unused s.cce env.compositeId)
    (htags : SameResolved s.dag s'.dag)
    (hapart : Tags env →
      (∀ id v, IsOpen s.cce (.inr id) v →
        Disjoint v.deltas (s.dag.bfsDescendants rootDeltaId).toFinset) ∧
      ∀ a v b w, IsOpen s.cce (.inl a) v → IsOpen s.cce (.inl b) w →
        ¬Disjoint v.deltas (s.dag.bfsDescendants rootDeltaId).toFinset →
        ¬Disjoint w.deltas (s.dag.bfsDescendants rootDeltaId).toFinset → a = b)
    (heffect : TagEffect env rootDeltaId s s') : Complete s' := by
  have hresolved : ∀ q, s'.dag.hasResolvedTag q = false → s.dag.hasResolvedTag q = false :=
    fun q hq => (htags.resolved q).symm.trans hq
  cases heffect with
  | failed _ hcce hstore =>
    refine complete_of_covered hformed (by rw [hcce]; exact h.disjoint) ?_
    intro k v hv r hr hunresolved hopen
    rw [hcce] at hv hopen ⊢
    obtain ⟨k', hk', -⟩ := h.covered k v hv r hr (hresolved r hunresolved) hopen
    exact ⟨k', hk'⟩
  | alone htag hdisjoint hview _ _ _ =>
    have hold : ∀ k v, view s.cce k = some v → view s'.cce k = some v :=
      fun k v hv => view_of_alone hico hview hv
    have hnew : ∀ k v, IsOpen s.cce k v →
        Disjoint v.deltas (s.dag.bfsDescendants rootDeltaId).toFinset := by
      intro k v hv
      cases k with
      | inl id => exact hdisjoint id v hv.1 hv.2
      | inr id => exact (hapart htag).1 id v hv
    have hcases : ∀ k v, IsOpen s'.cce k v → IsOpen s.cce k v ∨
        k = .inl env.icoId ∧ v.deltas = (s.dag.bfsDescendants rootDeltaId).toFinset := by
      rintro k v ⟨hv, hopen⟩
      rw [hview] at hv
      split_ifs at hv with hk
      · cases hv
        exact .inr ⟨hk, rfl⟩
      · exact .inl ⟨hv, hopen⟩
    refine complete_of_covered hformed (fun k v k' v' hv hv' hne => ?_)
      fun k v hv r hr hunresolved hopen => ?_
    · rcases hcases k v hv with hv | ⟨rfl, hdeltas⟩ <;>
        rcases hcases k' v' hv' with hv' | ⟨rfl, hdeltas'⟩
      · exact h.disjoint k v k' v' hv hv' hne
      · rw [hdeltas']
        exact hnew k v hv
      · rw [hdeltas]
        exact (hnew k' v' hv').symm
      · exact absurd rfl hne
    · rw [hview] at hv
      split_ifs at hv with hk
      · cases hv
        exact ⟨.inl env.icoId, _, ⟨by rw [hview, if_pos rfl], rfl⟩, hr⟩
      · obtain ⟨k', v', hv', hr'⟩ := covered_of_complete h hresolved
          (fun r ⟨id, w, hw, hrest⟩ => ⟨id, w, hold _ w hw, hrest⟩) hv hr hunresolved hopen
        exact ⟨k', v', ⟨hold k' v' hv'.1, hv'.2⟩, hr'⟩
  | merged htag a v w hv hvopen hmeet hmerge hid hview _ _ _ =>
    have hother : ∀ k u, view s.cce k = some u → k ≠ .inl a → view s'.cce k = some u :=
      fun k u hu hk => view_of_merged hico hcomposite hview hu hk
    have hcases : ∀ k u, IsOpen s'.cce k u →
        k = .inr env.compositeId ∧ u = w ∨ IsOpen s.cce k u ∧ k ≠ .inl a :=
      fun k u hu => open_of_merged (by simp) (by simp) hview hu
    have hnew : ∀ k u, IsOpen s.cce k u → k ≠ .inl a → Disjoint u.deltas w.deltas := by
      intro k u hu hk
      rw [hmerge.deltas]
      refine Finset.disjoint_union_right.mpr ⟨h.disjoint k u (.inl a) v hu ⟨hv, hvopen⟩ hk, ?_⟩
      cases k with
      | inl b =>
        by_contra hmeet'
        exact hk (congrArg Sum.inl ((hapart htag).2 a v b u ⟨hv, hvopen⟩ hu hmeet hmeet').symm)
      | inr id => exact (hapart htag).1 id u hu
    have hw : IsOpen s'.cce (.inr env.compositeId) w := ⟨by rw [hview, if_pos rfl], hmerge.open_⟩
    refine complete_of_covered hformed (fun k u k' u' hu hu' hne => ?_)
      fun k u hu r hr hunresolved hopen => ?_
    · rcases hcases k u hu with ⟨rfl, rfl⟩ | ⟨hu, hk⟩ <;>
        rcases hcases k' u' hu' with ⟨rfl, rfl⟩ | ⟨hu', hk'⟩
      · exact absurd rfl hne
      · exact (hnew k' u' hu' hk').symm
      · exact hnew k u hu hk
      · exact h.disjoint k u k' u' hu hu' hne
    · by_cases hrw : r ∈ w.roots
      · exact ⟨_, w, hw, hrw⟩
      rw [hmerge.roots, not_or] at hrw
      rw [hview] at hu
      split_ifs at hu
      · cases hu
        exact absurd ((hmerge.roots r).mp hr) (not_or.mpr hrw)
      · cases hu
        exact absurd hr hrw.2
      · cases hu
        exact absurd hr hrw.1
      · have hclosed : ∀ r, AdminClosed s.cce r → AdminClosed s'.cce r := by
          rintro r ⟨id, x, hx, hstate, hrx⟩
          refine ⟨id, x, hother _ x hx ?_, hstate, hrx⟩
          intro hk
          rw [hk, hv] at hx
          cases hx
          cases hvopen.symm.trans hstate
        obtain ⟨k', u', hu', hr'⟩ := covered_of_complete h hresolved hclosed hu hr hunresolved
          hopen
        refine ⟨k', u', ⟨hother k' u' hu'.1 ?_, hu'.2⟩, hr'⟩
        rintro rfl
        cases hv.symm.trans hu'.1
        exact hrw.1 hr'

theorem complete_close {accepted : Prop} {incidentId : IncidentId} (hformed : Formed s')
    (h : Complete s)
    (heffect : CloseEffect accepted incidentId s s') : Complete s' := by
  cases heffect with
  | refused _ hsame => rwa [hsame]
  | closed _ v hv hvopen hview _ _ hdag _ =>
    have hcases : ∀ k u, IsOpen s'.cce k u → IsOpen s.cce k u :=
      fun k u hu => (open_of_closed (by simp) hview hu).1
    have hother : ∀ k u, view s.cce k = some u → k ≠ .inl incidentId → view s'.cce k = some u := by
      intro k u hu hk
      rw [hview, if_neg hk, hu]
    have hclosed : ∀ r ∈ v.roots, AdminClosed s'.cce r :=
      fun r hr => ⟨incidentId, { v with state := .closed }, by rw [hview, if_pos rfl], rfl, hr⟩
    refine complete_of_covered hformed
      (fun k u k' u' hu hu' => h.disjoint k u k' u' (hcases k u hu) (hcases k' u' hu'))
      fun k u hu r hr hunresolved hopen => ?_
    rw [hview] at hu
    split_ifs at hu with hk
    · cases hu
      exact absurd (hclosed r hr) hopen
    · have hstill : ∀ r, AdminClosed s.cce r → AdminClosed s'.cce r := by
        rintro r ⟨id, x, hx, hstate, hrx⟩
        by_cases hid : id = incidentId
        · rw [hid, hv] at hx
          cases hx
          exact hclosed r hrx
        · exact ⟨id, x, hother _ x hx (by simpa using hid), hstate, hrx⟩
      obtain ⟨k', u', hu', hr'⟩ := covered_of_complete h (fun q hq => by rwa [hdag] at hq)
        hstill hu hr hunresolved hopen
      refine ⟨k', u', ⟨hother k' u' hu'.1 ?_, hu'.2⟩, hr'⟩
      rintro rfl
      cases hv.symm.trans hu'.1
      exact hopen (hclosed r hr')

/-- A certificate puts the one root that is left of an open composite in its place. -/
theorem complete_certify {env : ResolutionEnvironment} {managerDid : Did} (hs : Formed s)
    (hformed : Formed s') (h : Complete s) (hfresh : ∀ id q, Unused s.cce (env.newId id q))
    (hapart : ∀ id v, view s.cce (.inr id) = some v → rootDeltaId ∈ v.roots →
      ∀ q ∈ v.roots, Left s rootDeltaId q →
        v.state = .open_ ∧ ∀ q' ∈ v.roots, Left s rootDeltaId q' → q' = q)
    (heffect : CertifyEffect env rootDeltaId managerDid s s') : Complete s' := by
  have hreopens : ∀ id q, Reopens s s'.dag rootDeltaId id q → ∃ v, IsOpen s.cce (.inr id) v ∧
      rootDeltaId ∈ v.roots ∧ q ∈ v.roots ∧ ∀ q', Reopens s s'.dag rootDeltaId id q' → q' = q := by
    rintro id q ⟨v, hv, hroot, hq, hunresolved⟩
    obtain ⟨hopen, honly⟩ := hapart id v hv hroot q hq ((left_iff heffect q).mp hunresolved)
    refine ⟨v, ⟨hv, hopen⟩, hroot, hq, ?_⟩
    rintro q' ⟨v', hv', -, hq', hunresolved'⟩
    cases hv.symm.trans hv'
    exact honly q' hq' ((left_iff heffect q').mp hunresolved')
  have hone : ∀ id q id' q', Reopens s s'.dag rootDeltaId id q →
      Reopens s s'.dag rootDeltaId id' q' → id = id' ∧ q = q' := by
    intro id q id' q' hq hq'
    obtain ⟨v, hv, hroot, -, -⟩ := hreopens id q hq
    obtain ⟨v', hv', hroot', -, honly⟩ := hreopens id' q' hq'
    have hid : id = id' := by
      by_contra hne
      exact Finset.disjoint_left.mp (h.disjoint _ v _ v' hv hv' (by simpa using hne))
        (hs.root_mem hv.1 hroot) (hs.root_mem hv'.1 hroot')
    subst hid
    exact ⟨rfl, honly q hq⟩
  have hcases : ∀ k u, IsOpen s'.cce k u →
      (∃ id q, Reopens s s'.dag rootDeltaId id q ∧ k = .inl (env.newId id q) ∧
        u.deltas = (s.dag.bfsDescendants q).toFinset) ∨
      IsOpen s.cce k u ∧ ∀ id, k = .inr id → rootDeltaId ∉ u.roots := by
    rintro k u ⟨hu, hopen⟩
    cases k with
    | inl id =>
      rcases heffect.incident id with ⟨K, q, hq, hid, hview⟩ | ⟨-, hview⟩
      · cases hview.symm.trans hu
        exact .inl ⟨K, q, hq, congrArg Sum.inl hid, rfl⟩
      · exact .inr ⟨⟨hview ▸ hu, hopen⟩, by simp⟩
    | inr id =>
      rw [heffect.composite] at hu
      obtain ⟨v, hv, rfl⟩ := Option.map_eq_some_iff.mp hu
      split_ifs at hopen ⊢ with hroot
      · cases hopen
      · exact .inr ⟨⟨hv, hopen⟩, fun _ _ => hroot⟩
  have hnew : ∀ id q, Reopens s s'.dag rootDeltaId id q → ∀ k u, IsOpen s.cce k u →
      (∀ id, k = .inr id → rootDeltaId ∉ u.roots) →
      Disjoint (s.dag.bfsDescendants q).toFinset u.deltas := by
    intro id q hq k u hu hroot
    obtain ⟨v, hv, hrootv, hqv, -⟩ := hreopens id q hq
    refine Finset.disjoint_of_subset_left (hs.snapshots _ v hv.1 q hqv) ?_
    refine h.disjoint _ v k u hv hu ?_
    rintro rfl
    cases hv.1.symm.trans hu.1
    exact hroot id rfl hrootv
  refine complete_of_covered hformed (fun k u k' u' hu hu' hne => ?_)
    fun k u hu r hr hunresolved hopen => ?_
  · rcases hcases k u hu with ⟨id, q, hq, rfl, hdeltas⟩ | ⟨hu, hroot⟩ <;>
      rcases hcases k' u' hu' with ⟨id', q', hq', rfl, hdeltas'⟩ | ⟨hu', hroot'⟩
    · obtain ⟨rfl, rfl⟩ := hone id q id' q' hq hq'
      exact absurd rfl hne
    · rw [hdeltas]
      exact hnew id q hq k' u' hu' hroot'
    · rw [hdeltas']
      exact (hnew id' q' hq' k u hu hroot).symm
    · exact h.disjoint k u k' u' hu hu' hne
  · have hlisted : ∃ k₀ v₀, view s.cce k₀ = some v₀ ∧ r ∈ v₀.roots := by
      cases k with
      | inl id =>
        rcases heffect.incident id with ⟨K, q, ⟨v, hv, -, hq, -⟩, -, hview⟩ | ⟨-, hview⟩
        · cases hview.symm.trans hu
          cases List.mem_singleton.mp hr
          exact ⟨_, v, hv, hq⟩
        · exact ⟨_, u, hview ▸ hu, hr⟩
      | inr id =>
        rw [heffect.composite] at hu
        obtain ⟨v, hv, rfl⟩ := Option.map_eq_some_iff.mp hu
        refine ⟨_, v, hv, ?_⟩
        split_ifs at hr <;> exact hr
    have hkept : ∀ id v, view s.cce (.inl id) = some v → view s'.cce (.inl id) = some v := by
      intro id v hv
      rcases heffect.incident id with ⟨K, q, -, hid, -⟩ | ⟨-, hview⟩
      · rw [hid] at hv
        cases (hfresh K q).1.symm.trans hv
      · rw [hview, hv]
    obtain ⟨k₀, v₀, hv₀, hr₀⟩ := hlisted
    obtain ⟨k', v', hv', hr'⟩ := covered_of_complete h
      (fun q hq => ((left_iff heffect q).mp hq).1)
      (fun r ⟨id, x, hx, hrest⟩ => ⟨id, x, hkept id x hx, hrest⟩) hv₀ hr₀ hunresolved hopen
    cases k' with
    | inl id => exact ⟨_, v', ⟨hkept id v' hv'.1, hv'.2⟩, hr'⟩
    | inr id =>
      by_cases hroot : rootDeltaId ∈ v'.roots
      · have hq : Reopens s s'.dag rootDeltaId id r := ⟨v', hv'.1, hroot, hr', hunresolved⟩
        rcases heffect.incident (env.newId id r) with ⟨id', q, hq', -, hview⟩ | ⟨hne, -⟩
        · obtain ⟨-, rfl⟩ := hone id r id' q hq hq'
          exact ⟨_, _, ⟨hview, rfl⟩, List.mem_singleton_self r⟩
        · exact absurd rfl (hne id r hq)
      · refine ⟨.inr id, v', ⟨?_, hv'.2⟩, hr'⟩
        rw [heffect.composite, hv'.1, Option.map_some, if_neg hroot]

end Steps

theorem complete_step (lib : IdentityLibraries) {s : IncidentRun} {op : IncidentOperation}
    (hundisturbed : Undisturbed lib s op) (hapart : Apart lib s op) (hformed : Formed s)
    (hcomplete : Complete s) : Formed (step lib s op) ∧ Complete (step lib s op) := by
  have hnext := formed_step lib hundisturbed hformed
  refine ⟨hnext, ?_⟩
  cases op with
  | tag env rootDeltaId source =>
    exact complete_tag hnext hcomplete hundisturbed.1 hundisturbed.2.1
      (sameResolved_tag lib s env rootDeltaId source).1 hapart
      (tagEffect lib hformed.keyed env rootDeltaId source)
  | verify env rootDeltaId managerDid managerSig managerTokenExpiry nowSecs =>
    rcases verify_cases lib hformed.keyed hformed.snapshots (fun hc => (hundisturbed hc).1) with
      ⟨-, hsame⟩ | ⟨hc, heffect⟩
    · rwa [hsame]
    · exact complete_certify hformed hnext hcomplete (hundisturbed hc).2 (hapart hc) heffect
  | close now incidentId managerDid managerSig managerTokenExpiry nowSecs =>
    exact complete_close hnext hcomplete
      (closeEffect lib s now incidentId managerDid managerSig managerTokenExpiry nowSecs)

/-- In a run whose identifiers are new, whose roots each meet one open incident at most and whose
certificates decompose a composite once, the composites are complete. -/
theorem complete_of_apart (lib : IdentityLibraries) (dag : ChangesetDag) (store : LocalStore)
    (ops : List IncidentOperation)
    (hguard : Guarded (step lib) (fun s op => Undisturbed lib s op ∧ Apart lib s op)
      ⟨.new, dag, store⟩ ops) :
    Complete (run (step lib) ⟨.new, dag, store⟩ ops) := by
  have hstep : ∀ s op, Undisturbed lib s op ∧ Apart lib s op → (Formed s ∧ Complete s) →
      Formed (step lib s op) ∧ Complete (step lib s op) :=
    fun s op hop hs => complete_step lib hop.1 hop.2 hs.1 hs.2
  exact (guarded_run hstep hguard ⟨formed_new dag store, complete_new dag store⟩).2

def sampleLib : IdentityLibraries := (CrdtEngine.sampleLibraries []).toIdentityLibraries

def sampleDag : ChangesetDag :=
  ⟨[1, 2, 3, 4, 5].map fun id => ⟨id, [], none, 0, 0, false, "", []⟩,
    [(1, 4), (2, 5), (3, 4), (3, 5)]⟩

def sampleStart : IncidentRun := ⟨.new, sampleDag, .empty⟩

def sampleTag (rootDeltaId : DeltaId) (icoId compositeId : IncidentId) : IncidentOperation :=
  .tag ⟨icoId, compositeId, 5, none, none, fun _ => false⟩ rootDeltaId (.badMigration 9)

def sampleVerify (rootDeltaId : DeltaId) (newId : IncidentId) : IncidentOperation :=
  .verify ⟨6, 6, fun _ _ => newId, none, fun _ => false, fun _ => none, fun _ => false,
    fun _ => none⟩ rootDeltaId CrdtEngine.sampleDid₂ (List.replicate 64 0) 10 0

def sampleClose (incidentId : IncidentId) : IncidentOperation :=
  .close 7 incidentId CrdtEngine.sampleDid₂ (List.replicate 64 0) 10 0

theorem view_no_composite {cce : ContaminationEngine} (h : cce.compositeIncidents.entries = [])
    (id : IncidentId) : view cce (.inr id) = none := by
  rw [view, Option.map_eq_none_iff, AList.lookup_eq_none]
  intro hmem
  rw [AList.mem_keys, AList.keys, h] at hmem
  cases hmem

/-- The guard of a tagging, checked on the entries. -/
theorem apart_tag {lib : IdentityLibraries} {s : IncidentRun} {env : TaintEnvironment}
    {rootDeltaId : DeltaId} {source : TaintSource}
    (hcomposites : ∀ e ∈ s.cce.compositeIncidents.entries, e.2.state ≠ .open_)
    (hincidents : ∀ e ∈ s.cce.incidents.entries, ∀ e' ∈ s.cce.incidents.entries, e.1 = e'.1) :
    Apart lib s (.tag env rootDeltaId source) := by
  refine fun _ => ⟨fun id v hv => ?_, fun a v b w hv hw _ _ => ?_⟩
  · obtain ⟨comp, hcomp, rfl⟩ := lookup_of_view_composite hv.1
    exact absurd hv.2 (hcomposites _ (AList.mem_lookup_iff.mp hcomp))
  · obtain ⟨x, hx, -⟩ := lookup_of_view_incident hv.1
    obtain ⟨y, hy, -⟩ := lookup_of_view_incident hw.1
    exact hincidents _ (AList.mem_lookup_iff.mp hx) _ (AList.mem_lookup_iff.mp hy)

/-- Two roots are joined, and one of them is certified. -/
theorem complete_of_apart_sample :
    Complete (run (step sampleLib) sampleStart
      [sampleTag 1 21 31, sampleTag 3 23 33, sampleVerify 1 41]) := by
  have hcomposites : ∀ e ∈ (run (step sampleLib) sampleStart [sampleTag 1 21 31,
      sampleTag 3 23 33]).cce.compositeIncidents.entries,
      e.2.contaminationRoots = [1, 3] ∧ e.2.state = .open_ := by
    decide +kernel
  have hstored : (1 : DeltaId) ∈ (run (step sampleLib) sampleStart [sampleTag 1 21 31,
      sampleTag 3 23 33]).dag.ids := by
    decide +kernel
  have hnew : Unused (run (step sampleLib) sampleStart [sampleTag 1 21 31,
      sampleTag 3 23 33]).cce 41 := by
    decide +kernel
  refine complete_of_apart sampleLib sampleDag .empty _
    ⟨⟨⟨by decide +kernel, by decide +kernel, by decide +kernel⟩,
        apart_tag (by decide +kernel) (by decide +kernel)⟩,
      ⟨⟨by decide +kernel, by decide +kernel, by decide +kernel⟩,
        apart_tag (by decide +kernel) (by decide +kernel)⟩,
      ⟨fun _ => ⟨⟨fun _ => rfl, fun _ => rfl, fun _ => rfl⟩, fun _ _ => ?_⟩, fun _ => ?_⟩, trivial⟩
  · exact hnew
  · intro id v hv _ q hq hleft
    obtain ⟨comp, hcomp, rfl⟩ := lookup_of_view_composite hv
    obtain ⟨hroots, hopen⟩ := hcomposites _ (AList.mem_lookup_iff.mp hcomp)
    have honly : ∀ r ∈ (compositeView comp).roots, r ≠ 1 → r = 3 := by
      intro r hr hne
      rw [compositeView, hroots] at hr
      exact (List.mem_pair.mp hr).resolve_left hne
    refine ⟨hopen, fun q' hq' hleft' => ?_⟩
    rw [honly q hq fun h => hleft.2 h hstored, honly q' hq' fun h => hleft'.2 h hstored]

theorem not_complete_of_shared {s : IncidentRun} (k k' : IncidentKey) (d : DeltaId) (hne : k ≠ k')
    (h : (view s.cce k).any (fun v => v.state = .open_ ∧ d ∈ v.deltas) = true)
    (h' : (view s.cce k').any (fun v => v.state = .open_ ∧ d ∈ v.deltas) = true) :
    ¬Complete s := by
  rw [Option.any_eq_true] at h h'
  obtain ⟨v, hv, hd⟩ := h
  obtain ⟨v', hv', hd'⟩ := h'
  rw [decide_eq_true_eq] at hd hd'
  exact fun hcomplete => Finset.disjoint_left.mp
    (hcomplete.disjoint k v k' v' ⟨hv, hd.1⟩ ⟨hv', hd'.1⟩ hne) hd.2 hd'.2

/-- A root that reaches into a composite, and a root that reaches into two incidents. -/
theorem incidents_overlap :
    let third := [sampleTag 1 21 31, sampleTag 3 23 33, sampleTag 2 22 32]
    let between := [sampleTag 1 21 31, sampleTag 2 22 32, sampleTag 3 23 33]
    Guarded (step sampleLib) (Undisturbed sampleLib) sampleStart third ∧
      ¬Complete (run (step sampleLib) sampleStart third) ∧
      Guarded (step sampleLib) (Undisturbed sampleLib) sampleStart between ∧
      ¬Complete (run (step sampleLib) sampleStart between) := by
  intro third between
  refine ⟨⟨⟨by decide +kernel, by decide +kernel, by decide +kernel⟩,
      ⟨by decide +kernel, by decide +kernel, by decide +kernel⟩,
      ⟨by decide +kernel, by decide +kernel, by decide +kernel⟩, trivial⟩,
    not_complete_of_shared (.inr 33) (.inl 22) 5 (by decide) (by decide +kernel)
      (by decide +kernel),
    ⟨⟨by decide +kernel, by decide +kernel, by decide +kernel⟩,
      ⟨by decide +kernel, by decide +kernel, by decide +kernel⟩,
      ⟨by decide +kernel, by decide +kernel, by decide +kernel⟩, trivial⟩,
    not_complete_of_shared (.inr 33) (.inl 21) 4 (by decide) (by decide +kernel)
      (by decide +kernel)⟩

end TirBase.CompositeFormation
