import TirBase.RowContamination

/-! # Certifying a root again

A root that is resolved may be certified again. The call decomposes the composites of the root
whatever their state, so it opens new incidents for the roots of a composite that are left, also
where the first call did so. -/
namespace TirBase.RepeatedCertification
open IncidentRuns TransitionRuns CompositeFormation RowContamination
open TagLogs (readsResolved_clean tagEach_clean)

/-- No incident is opened, no state changes and no row is contaminated again. -/
structure Unchanged (s s' : IncidentRun) : Prop where
  opensNone : ∀ k, view s.cce k = none → view s'.cce k = none
  states : ∀ k v, view s.cce k = some v → ∃ v', view s'.cce k = some v' ∧ v'.state = v.state
  index : ∀ table key, s'.cce.isRowContaminated table key = true →
    s.cce.isRowContaminated table key = true
  flags : ∀ table key row', s'.store.row? table key = some row' → row'.contaminated = true →
    s.store.row? table key = some row'

theorem Unchanged.refl (s : IncidentRun) : Unchanged s s :=
  ⟨fun _ h => h, fun _ v hv => ⟨v, hv, rfl⟩, fun _ _ h => h, fun _ _ _ h _ => h⟩

/-- The composites of the root are decomposed, and none of their roots is left. -/
def Settled (s : IncidentRun) (rootDeltaId : DeltaId) : Prop :=
  ∀ id v, view s.cce (.inr id) = some v → rootDeltaId ∈ v.roots →
    v.state = .decomposed ∧ ∀ q ∈ v.roots, s.dag.hasResolvedTag q = true

/-- A root that is not resolved is a root of one open incident at most. -/
def OneIncident (s : IncidentRun) : Prop :=
  ∀ q, s.dag.hasResolvedTag q = false → ∀ k v k' v', IsOpen s.cce k v → IsOpen s.cce k' v' →
    q ∈ v.roots → q ∈ v'.roots → k = k'

section Again
variable {env : ResolutionEnvironment} {rootDeltaId : DeltaId} {managerDid : Did}

/-- The flags that are set after a certificate were set before it. -/
theorem flags_certify (t : Resolution) (id : IncidentId) {table key : String}
    {row' : ProjectionRow}
    (hrow : (Resolution.certify .clean env rootDeltaId managerDid t id).store.row? table key = some row')
    (hset : row'.contaminated = true) : t.store.row? table key = some row' := by
  unfold Resolution.certify at hrow
  rw [readsResolved_clean, tagEach_clean] at hrow
  split at hrow
  · exact hrow
  · rename_i ico hico
    dsimp only at hrow
    split_ifs at hrow
    · have hfold : ico.affectedRows.foldl
          (fun store row => store.clearRowContamination row.table row.rowKey) t.store =
          (ico.affectedRows.map fun row => (row.table, row.rowKey)).foldl
            (fun store row => store.clearRowContamination row.1 row.2) t.store := by
        rw [List.foldl_map]
      dsimp only at hrow
      rw [hfold, setsFlag_clear.row?_foldl] at hrow
      split_ifs at hrow
      · obtain ⟨row, -, rfl⟩ := Option.map_eq_some_iff.mp hrow
        cases hset
      · exact hrow
    · exact hrow

theorem flags_certified {s : IncidentRun} {table key : String} {row' : ProjectionRow}
    (hrow : (certified env rootDeltaId managerDid s).store.row? table key = some row')
    (hset : row'.contaminated = true) : s.store.row? table key = some row' := by
  have hfold : ∀ (ids : List IncidentId) (t : Resolution),
      (ids.foldl (Resolution.certify .clean env rootDeltaId managerDid) t).store.row? table key =
        some row' → t.store.row? table key = some row' := by
    intro ids
    induction ids with
    | nil => exact fun t h => h
    | cons id ids ih => exact fun t h => flags_certify t id (ih _ h) hset
  exact hfold _ _ hrow

variable {s s' : IncidentRun}

theorem not_splits_of_settled (h : Settled s rootDeltaId) : ¬Splits s rootDeltaId := by
  rintro ⟨id, v, hv, hroot, q, hq, hleft⟩
  cases hleft.1.symm.trans ((h id v hv hroot).2 q hq)

/-- A certificate of a resolved root changes nothing just when the composites of the root are
settled. -/
theorem unchanged_certify_iff (hresolved : s.dag.hasResolvedTag rootDeltaId = true)
    (hfresh : ∀ id q, Unused s.cce (env.newId id q))
    (heffect : CertifyEffect env rootDeltaId managerDid s s') :
    Unchanged s s' ↔ Settled s rootDeltaId := by
  constructor
  · intro h id v hv hroot
    obtain ⟨v', hv', hstate⟩ := h.states (.inr id) v hv
    rw [heffect.composite, hv, Option.map_some, if_pos hroot] at hv'
    cases hv'
    refine ⟨hstate.symm, fun q hq => Bool.eq_true_of_not_eq_false fun hunresolved => ?_⟩
    have hleft : Left s rootDeltaId q := by
      refine ⟨hunresolved, ?_⟩
      rintro rfl
      cases hunresolved.symm.trans hresolved
    have hq' : Reopens s s'.dag rootDeltaId id q :=
      ⟨v, hv, hroot, hq, (left_iff heffect q).mpr hleft⟩
    have hnone := h.opensNone _ (hfresh id q).1
    rcases heffect.incident (env.newId id q) with ⟨_, _, _, _, hview⟩ | ⟨hne, -⟩
    · cases hnone.symm.trans hview
    · exact hne id q hq' rfl
  · intro h
    obtain ⟨hstore, hindex, hincidents⟩ := certify_unsplit heffect (not_splits_of_settled h)
    have hview : ∀ k, view s'.cce k = view s.cce k := by
      intro k
      cases k with
      | inl id => exact hincidents id
      | inr id =>
        rw [heffect.composite]
        cases hv : view s.cce (.inr id) with
        | none => rfl
        | some v =>
          rw [Option.map_some]
          split_ifs with hroot
          · rw [IncidentView.decomposed, ← (h id v hv hroot).1]
          · rfl
    refine ⟨fun k hk => (hview k).trans hk, fun k v hv => ⟨v, (hview k).trans hv, rfl⟩,
      fun table key hrow => ?_, fun table key row' hrow hset => ?_⟩
    · rw [ContaminationEngine.isRowContaminated, hindex] at hrow
      rw [ContaminationEngine.isRowContaminated]
      cases hlookup : s.cce.contaminatedRows.lookup (table, key) with
      | none => rw [hlookup] at hrow; cases hrow
      | some id => rfl
    · rw [hstore] at hrow
      exact flags_certified hrow hset

end Again

/-- A root that is joined with an open incident is not resolved, nor is the root of that incident,
and it is the root of no other open one; no composite of a certified root has roots that are
left. -/
def Single (lib : IdentityLibraries) (s : IncidentRun) : IncidentOperation → Prop
  | .tag env rootDeltaId _ => Tags env →
    (∀ id v, IsOpen s.cce (.inr id) v → rootDeltaId ∈ v.roots →
      s.dag.hasResolvedTag rootDeltaId = true) ∧
    ∀ a v, IsOpen s.cce (.inl a) v →
      ¬Disjoint v.deltas (s.dag.bfsDescendants rootDeltaId).toFinset →
      (∀ q ∈ v.roots, s.dag.hasResolvedTag q = false) ∧
      s.dag.hasResolvedTag rootDeltaId = false ∧
      ∀ k w, IsOpen s.cce k w → rootDeltaId ∈ w.roots → k = .inl a
  | .verify env rootDeltaId managerDid managerSig managerTokenExpiry nowSecs =>
    Certifies lib env rootDeltaId managerDid managerSig managerTokenExpiry nowSecs →
      ¬Splits s rootDeltaId
  | .close _ _ _ _ _ _ => True

/-- Every resolved root has settled composites, every other one an open incident at most. -/
structure Repeatable (s : IncidentRun) : Prop where
  formed : Formed s
  settled : ∀ root, s.dag.hasResolvedTag root = true → Settled s root
  one : OneIncident s

theorem repeatable_new (dag : ChangesetDag) (store : LocalStore) :
    Repeatable ⟨.new, dag, store⟩ := by
  refine ⟨formed_new dag store, fun root _ id v hv => ?_, fun q _ k v k' v' hv => ?_⟩
  · cases (view_new _).symm.trans hv
  · cases (view_new _).symm.trans hv.1

section Steps
variable {s s' : IncidentRun} {rootDeltaId : DeltaId}

theorem repeatable_tag {env : TaintEnvironment} (h : Repeatable s) (hformed : Formed s')
    (htags : SameResolved s.dag s'.dag)
    (hsingle : Tags env →
      (∀ id v, IsOpen s.cce (.inr id) v → rootDeltaId ∈ v.roots →
        s.dag.hasResolvedTag rootDeltaId = true) ∧
      ∀ a v, IsOpen s.cce (.inl a) v →
        ¬Disjoint v.deltas (s.dag.bfsDescendants rootDeltaId).toFinset →
        (∀ q ∈ v.roots, s.dag.hasResolvedTag q = false) ∧
        s.dag.hasResolvedTag rootDeltaId = false ∧
        ∀ k w, IsOpen s.cce k w → rootDeltaId ∈ w.roots → k = .inl a)
    (heffect : TagEffect env rootDeltaId s s') : Repeatable s' := by
  cases heffect with
  | failed _ hcce hstore =>
    refine ⟨hformed, fun root hroot id v hv => ?_, fun q hq => ?_⟩
    · rw [hcce] at hv
      simp only [htags.resolved] at hroot ⊢
      exact h.settled root hroot id v hv
    · rw [htags.resolved] at hq
      rw [hcce]
      exact h.one q hq
  | alone htag hdisjoint hview _ _ _ =>
    refine ⟨hformed, fun root hroot id v hv => ?_, fun q hq k v k' v' hv hv' hr hr' => ?_⟩
    · rw [hview, if_neg (by simp)] at hv
      simp only [htags.resolved] at hroot ⊢
      exact h.settled root hroot id v hv
    · rw [htags.resolved] at hq
      have hnew : ∀ k v, IsOpen s.cce k v → rootDeltaId ∈ v.roots →
          s.dag.hasResolvedTag rootDeltaId = true := by
        intro k v hv hr
        cases k with
        | inl id =>
          exact absurd (mem_bfsDescendants_self s.dag rootDeltaId)
            (Finset.disjoint_left.mp (hdisjoint id v hv.1 hv.2) (h.formed.root_mem hv.1 hr))
        | inr id => exact (hsingle htag).1 id v hv hr
      have hcases : ∀ k v, IsOpen s'.cce k v → q ∈ v.roots →
          k = .inl env.icoId ∧ q = rootDeltaId ∨ IsOpen s.cce k v ∧ q ≠ rootDeltaId := by
        rintro k v ⟨hv, hopen⟩ hr
        rw [hview] at hv
        split_ifs at hv with hk
        · cases hv
          exact .inl ⟨hk, List.mem_singleton.mp hr⟩
        · refine .inr ⟨⟨hv, hopen⟩, ?_⟩
          rintro rfl
          cases hq.symm.trans (hnew k v ⟨hv, hopen⟩ hr)
      rcases hcases k v hv hr with ⟨hk, hroot⟩ | ⟨hold, hne⟩ <;>
        rcases hcases k' v' hv' hr' with ⟨hk', hroot'⟩ | ⟨hold', hne'⟩
      · rw [hk, hk']
      · exact absurd hroot hne'
      · exact absurd hroot' hne
      · exact h.one q hq k v k' v' hold hold' hr hr'
  | merged htag a v w hv hvopen hmeet hmerge hid hview _ _ _ =>
    obtain ⟨hroots, hroot, honly⟩ := (hsingle htag).2 a v ⟨hv, hvopen⟩ hmeet
    have hunresolved : ∀ q ∈ w.roots, s.dag.hasResolvedTag q = false := by
      intro q hq
      rcases (hmerge.roots q).mp hq with hq | hq
      · exact hroots q hq
      · rw [List.mem_singleton.mp hq, hroot]
    refine ⟨hformed, fun root hresolved id u hu hr => ?_,
      fun q hq k u k' u' hu hu' hr hr' => ?_⟩
    · rw [htags.resolved] at hresolved
      simp only [htags.resolved]
      have hcomp : view s'.cce (.inr id) =
          if id = env.compositeId then some w else view s.cce (.inr id) := by
        rw [hview]
        simp
      rw [hcomp] at hu
      split_ifs at hu
      · cases hu
        cases (hunresolved root hr).symm.trans hresolved
      · exact h.settled root hresolved id u hu hr
    · rw [htags.resolved] at hq
      have hcases : ∀ k u, IsOpen s'.cce k u → q ∈ u.roots →
          k = .inr env.compositeId ∧ q ∈ w.roots ∨ IsOpen s.cce k u ∧ q ∉ w.roots := by
        intro k u hu hr
        rcases open_of_merged (by simp) (by simp) hview hu with ⟨hk, rfl⟩ | ⟨hold, hk⟩
        · exact .inl ⟨hk, hr⟩
        · refine .inr ⟨hold, fun hqw => hk ?_⟩
          rcases (hmerge.roots q).mp hqw with hqv | hqr
          · exact h.one q hq k u (.inl a) v hold ⟨hv, hvopen⟩ hr hqv
          · cases List.mem_singleton.mp hqr
            exact honly k u hold hr
      rcases hcases k u hu hr with ⟨hk, hqw⟩ | ⟨hold, hqw⟩ <;>
        rcases hcases k' u' hu' hr' with ⟨hk', hqw'⟩ | ⟨hold', hqw'⟩
      · rw [hk, hk']
      · exact absurd hqw hqw'
      · exact absurd hqw' hqw
      · exact h.one q hq k u k' u' hold hold' hr hr'

theorem repeatable_close {accepted : Prop} {incidentId : IncidentId} (h : Repeatable s)
    (hformed : Formed s') (heffect : CloseEffect accepted incidentId s s') : Repeatable s' := by
  cases heffect with
  | refused _ hsame => rwa [hsame]
  | closed _ v hv hvopen hview _ _ hdag _ =>
    have hcases : ∀ k u, IsOpen s'.cce k u → IsOpen s.cce k u :=
      fun k u hu => (open_of_closed (by simp) hview hu).1
    refine ⟨hformed, fun root hroot id u hu hr => ?_, fun q hq k u k' u' hu hu' => ?_⟩
    · rw [hview, if_neg (by simp)] at hu
      rw [hdag] at hroot ⊢
      exact h.settled root hroot id u hu hr
    · rw [hdag] at hq
      exact h.one q hq k u k' u' (hcases k u hu) (hcases k' u' hu')

theorem repeatable_certify {env : ResolutionEnvironment} {managerDid : Did} (h : Repeatable s)
    (hformed : Formed s') (hsplits : ¬Splits s rootDeltaId)
    (heffect : CertifyEffect env rootDeltaId managerDid s s') : Repeatable s' := by
  obtain ⟨-, -, hincidents⟩ := certify_unsplit heffect hsplits
  have hkept : ∀ q, s.dag.hasResolvedTag q = true → s'.dag.hasResolvedTag q = true := by
    intro q hq
    rw [heffect.resolved, hq, Bool.true_or]
  refine ⟨hformed, fun root hroot id u hu hr => ?_, fun q hq k u k' u' hu hu' => ?_⟩
  · rw [heffect.composite] at hu
    obtain ⟨v, hv, rfl⟩ := Option.map_eq_some_iff.mp hu
    split_ifs at hr ⊢ with hlisted
    · refine ⟨rfl, fun q hq => Bool.eq_true_of_not_eq_false fun hunresolved => hsplits ?_⟩
      exact ⟨id, v, hv, hlisted, q, hq, (left_iff heffect q).mp hunresolved⟩
    · have hne : root ≠ rootDeltaId := fun hsame => hlisted (hsame ▸ hr)
      rw [heffect.resolved, decide_eq_false fun hboth => hne hboth.1, Bool.or_false] at hroot
      obtain ⟨hstate, hall⟩ := h.settled root hroot id v hv hr
      exact ⟨hstate, fun q hq => hkept q (hall q hq)⟩
  · have hcases : ∀ k u, IsOpen s'.cce k u → IsOpen s.cce k u := by
      rintro k u ⟨hu, hopen⟩
      cases k with
      | inl id => exact ⟨hincidents id ▸ hu, hopen⟩
      | inr id =>
        rw [heffect.composite] at hu
        obtain ⟨v, hv, rfl⟩ := Option.map_eq_some_iff.mp hu
        split_ifs at hopen ⊢
        · cases hopen
        · exact ⟨hv, hopen⟩
    exact h.one q ((left_iff heffect q).mp hq).1 k u k' u' (hcases k u hu) (hcases k' u' hu')

theorem repeatable_step (lib : IdentityLibraries) {op : IncidentOperation}
    (hundisturbed : Undisturbed lib s op) (hsingle : Single lib s op) (h : Repeatable s) :
    Repeatable (step lib s op) := by
  have hformed := formed_step lib hundisturbed h.formed
  cases op with
  | tag env rootDeltaId source =>
    exact repeatable_tag h hformed (sameResolved_tag lib s env rootDeltaId source).1 hsingle
      (tagEffect lib h.formed.keyed env rootDeltaId source)
  | verify env rootDeltaId managerDid managerSig managerTokenExpiry nowSecs =>
    rcases verify_cases lib h.formed.keyed h.formed.snapshots (fun hc => (hundisturbed hc).1) with
      ⟨-, hsame⟩ | ⟨hc, heffect⟩
    · rwa [hsame]
    · exact repeatable_certify h hformed (hsingle hc) heffect
  | close now incidentId managerDid managerSig managerTokenExpiry nowSecs =>
    exact repeatable_close h hformed
      (closeEffect lib s now incidentId managerDid managerSig managerTokenExpiry nowSecs)

end Steps

/-- Certifying a root that is resolved changes nothing. -/
def Idempotent (lib : IdentityLibraries) (s : IncidentRun) : Prop :=
  ∀ env rootDeltaId managerDid managerSig managerTokenExpiry nowSecs,
    Undisturbed lib s (.verify env rootDeltaId managerDid managerSig managerTokenExpiry nowSecs) →
      s.dag.hasResolvedTag rootDeltaId = true →
        Unchanged s (step lib s
          (.verify env rootDeltaId managerDid managerSig managerTokenExpiry nowSecs))

theorem unchanged_iff_settled (lib : IdentityLibraries) {s : IncidentRun} (h : Formed s)
    {env : ResolutionEnvironment} {rootDeltaId : DeltaId} {managerDid : Did} {managerSig : Bytes}
    {managerTokenExpiry nowSecs : ℤ}
    (hagain : Undisturbed lib s
      (.verify env rootDeltaId managerDid managerSig managerTokenExpiry nowSecs))
    (hresolved : s.dag.hasResolvedTag rootDeltaId = true) :
    Unchanged s (step lib s
        (.verify env rootDeltaId managerDid managerSig managerTokenExpiry nowSecs)) ↔
      (Certifies lib env rootDeltaId managerDid managerSig managerTokenExpiry nowSecs →
        Settled s rootDeltaId) := by
  rcases verify_cases lib h.keyed h.snapshots (fun hc => (hagain hc).1) with
    ⟨hnot, hsame⟩ | ⟨hc, heffect⟩
  · rw [hsame]
    exact iff_of_true (.refl s) fun hc => absurd hc hnot
  · rw [unchanged_certify_iff hresolved (hagain hc).2 heffect]
    exact ⟨fun h _ => h, fun h => h hc⟩

/-- In every state reached, certifying a resolved root again changes nothing just when the
composites of the root are settled; in a run that joins and splits no roots but as stated this is
always so, and no root that is not resolved has two open incidents. -/
theorem verify_again_iff_settled (lib : IdentityLibraries) (dag : ChangesetDag)
    (store : LocalStore) (ops : List IncidentOperation)
    (hundisturbed : Guarded (step lib) (Undisturbed lib) ⟨.new, dag, store⟩ ops) :
    let s := run (step lib) ⟨.new, dag, store⟩ ops
    (∀ env rootDeltaId managerDid managerSig managerTokenExpiry nowSecs,
      let again := .verify env rootDeltaId managerDid managerSig managerTokenExpiry nowSecs
      Undisturbed lib s again → s.dag.hasResolvedTag rootDeltaId = true →
        (Unchanged s (step lib s again) ↔
          (Certifies lib env rootDeltaId managerDid managerSig managerTokenExpiry nowSecs →
            Settled s rootDeltaId))) ∧
    (Guarded (step lib) (Single lib) ⟨.new, dag, store⟩ ops →
      Idempotent lib s ∧ OneIncident s) := by
  intro s
  have hformed : Formed s :=
    guarded_run (fun s op hop hs => formed_step lib hop hs) hundisturbed (formed_new dag store)
  refine ⟨fun env root did sig expiry nowSecs hagain hresolved =>
    unchanged_iff_settled lib hformed hagain hresolved, fun hsingle => ?_⟩
  have hend : Repeatable s :=
    guarded_run (fun s op hop hs => repeatable_step lib hop.1 hop.2 hs)
      (guarded_and.mpr ⟨hundisturbed, hsingle⟩) (repeatable_new dag store)
  refine ⟨fun env root did sig expiry nowSecs hagain hresolved => ?_, hend.one⟩
  exact (unchanged_iff_settled lib hformed hagain hresolved).mpr
    fun _ => hend.settled root hresolved

/-- The guard of a tagging of a root without incidents, checked on the entries. -/
theorem single_tag {lib : IdentityLibraries} {s : IncidentRun} {env : TaintEnvironment}
    {rootDeltaId : DeltaId} {source : TaintSource}
    (hcomposites : ∀ e ∈ s.cce.compositeIncidents.entries, rootDeltaId ∉ e.2.contaminationRoots)
    (hincidents : ∀ e ∈ s.cce.incidents.entries, rootDeltaId ∉ e.2.contaminationRoots ∧
      e.2.contaminationRoots.any s.dag.hasResolvedTag = false)
    (hroot : s.dag.hasResolvedTag rootDeltaId = false) :
    Single lib s (.tag env rootDeltaId source) := by
  have hcomposite : ∀ id v, view s.cce (.inr id) = some v → rootDeltaId ∉ v.roots := by
    intro id v hv
    obtain ⟨comp, hcomp, rfl⟩ := lookup_of_view_composite hv
    exact hcomposites _ (AList.mem_lookup_iff.mp hcomp)
  refine fun _ => ⟨fun id v hv hmem => absurd hmem (hcomposite id v hv.1), fun a v hv _ => ?_⟩
  refine ⟨fun q hq => ?_, hroot, fun k w hw hmem => ?_⟩
  · obtain ⟨ico, hico, rfl⟩ := lookup_of_view_incident hv.1
    have hnone := (hincidents _ (AList.mem_lookup_iff.mp hico)).2
    exact Bool.eq_false_iff.mpr (List.any_eq_false.mp hnone q hq)
  · cases k with
    | inl id =>
      obtain ⟨ico, hico, rfl⟩ := lookup_of_view_incident hw.1
      exact absurd hmem (hincidents _ (AList.mem_lookup_iff.mp hico)).1
    | inr id => exact absurd hmem (hcomposite id w hw.1)

def apartDag : ChangesetDag := { sampleDag with edges := [(1, 4), (2, 5), (3, 4)] }

def taggedApart : IncidentRun :=
  run (step sampleLib) ⟨.new, apartDag, .empty⟩
    [sampleTag 1 21 31, sampleTag 3 23 33, sampleTag 2 22 32]

theorem verify_again_iff_settled_apart :
    let s := run (step sampleLib) ⟨.new, apartDag, .empty⟩
      [sampleTag 1 21 31, sampleTag 3 23 33, sampleTag 2 22 32, sampleVerify 2 41]
    Idempotent sampleLib s ∧ OneIncident s := by
  have hnew : Unused taggedApart.cce 41 := by decide +kernel
  have hjoined : ∀ e ∈ taggedApart.cce.compositeIncidents.entries,
      e.2.contaminationRoots = [1, 3] := by decide +kernel
  have hcertified : Undisturbed sampleLib taggedApart (sampleVerify 2 41) :=
    fun _ => ⟨⟨fun _ => rfl, fun _ => rfl, fun _ => rfl⟩, fun _ _ => hnew⟩
  have hsingle : Single sampleLib taggedApart (sampleVerify 2 41) := by
    rintro - ⟨id, v, hv, hmem, -⟩
    obtain ⟨comp, hcomp, rfl⟩ := lookup_of_view_composite hv
    have hroots : (compositeView comp).roots = [1, 3] :=
      hjoined _ (AList.mem_lookup_iff.mp hcomp)
    rw [hroots] at hmem
    exact absurd hmem (by decide)
  exact (verify_again_iff_settled sampleLib apartDag .empty
    [sampleTag 1 21 31, sampleTag 3 23 33, sampleTag 2 22 32, sampleVerify 2 41]
    ⟨⟨by decide +kernel, by decide +kernel, by decide +kernel⟩,
      ⟨by decide +kernel, by decide +kernel, by decide +kernel⟩,
      ⟨by decide +kernel, by decide +kernel, by decide +kernel⟩, hcertified, trivial⟩).2
    ⟨single_tag (by decide +kernel) (by decide +kernel) (by decide +kernel),
      single_tag (by decide +kernel) (by decide +kernel) (by decide +kernel),
      single_tag (by decide +kernel) (by decide +kernel) (by decide +kernel), hsingle, trivial⟩

/-- Of two roots that are joined one is certified, and certified again. -/
theorem verified_twice :
    let s := run (step sampleLib) sampleStart [sampleTag 1 21 31, sampleTag 3 23 33,
      sampleVerify 1 41]
    let again := step sampleLib s (sampleVerify 1 42)
    s.dag.hasResolvedTag 1 = true ∧ ¬Unchanged s again ∧ ¬OneIncident again := by
  intro s again
  have hnew : Unused s.cce 42 := by decide +kernel
  have hfirst : (view again.cce (.inl 41)).any (fun v => v.state = .open_ ∧ 3 ∈ v.roots) = true := by
    decide +kernel
  have hsecond : (view again.cce (.inl 42)).any (fun v => v.state = .open_ ∧ 3 ∈ v.roots) = true := by
    decide +kernel
  obtain ⟨v, hv, hopen⟩ := (Option.any_eq_true _ _).mp hfirst
  obtain ⟨w, hw, hopen'⟩ := (Option.any_eq_true _ _).mp hsecond
  rw [decide_eq_true_eq] at hopen hopen'
  refine ⟨by decide +kernel, fun h => ?_, fun h => ?_⟩
  · cases (h.opensNone (.inl 42) hnew.1).symm.trans hw
  · have hsame := h 3 (by decide +kernel) (.inl 41) v (.inl 42) w ⟨hv, hopen.1⟩ ⟨hw, hopen'.1⟩
      hopen.2 hopen'.2
    exact absurd hsame (by decide)

end TirBase.RepeatedCertification
