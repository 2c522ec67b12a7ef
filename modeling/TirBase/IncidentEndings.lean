import TirBase.CompositeFormation
import TirBase.LogLaws

/-! # The end of an incident

An incident ends when all its roots are certified: it holds no row then, and each of its Deltas
carries its decontamination. What the calls must keep for that is stated over the registries and
over the tag logs, wherever a build keeps them. -/
namespace TirBase.IncidentEndings
open ContaminationEngine IncidentRuns CompositeFormation
open TagLogs (Grows keyed_new keyed_of_view tagsOf)

abbrev Logs := DeltaId → Option (List DeltaTag)

/-- Incidents with those of their roots that were certified while they were registered. -/
abbrev Certificates := List (IncidentKey × DeltaId)

def keyId : IncidentKey → IncidentId := Sum.elim (fun id => id) fun id => id

def certificatesOf (cce : ContaminationEngine) (rootDeltaId : DeltaId) : Certificates :=
  ((cce.incidentsOf rootDeltaId).map fun id => (.inl id, rootDeltaId)) ++
    (cce.compositesOf rootDeltaId false).map fun id => (.inr id, rootDeltaId)

theorem mem_certificatesOf {cce : ContaminationEngine} (hkeyed : Keyed cce) {root r : DeltaId}
    {k : IncidentKey} : (k, r) ∈ certificatesOf cce root ↔
      r = root ∧ ∃ v, view cce k = some v ∧ root ∈ v.roots := by
  simp only [certificatesOf, List.mem_append, List.mem_map, Prod.mk.injEq]
  constructor
  · rintro (⟨id, hid, rfl, rfl⟩ | ⟨id, hid, rfl, rfl⟩)
    · exact ⟨rfl, (mem_incidentsOf hkeyed).mp hid⟩
    · obtain ⟨v, hv, hroot, -⟩ := (mem_compositesOf hkeyed).mp hid
      exact ⟨rfl, v, hv, hroot⟩
  · rintro ⟨rfl, v, hv, hroot⟩
    cases k with
    | inl id => exact .inl ⟨id, (mem_incidentsOf hkeyed).mpr ⟨v, hv, hroot⟩, rfl, rfl⟩
    | inr id => exact .inr ⟨id, (mem_compositesOf hkeyed).mpr ⟨v, hv, hroot, by simp⟩, rfl, rfl⟩

def Certified (done : Certificates) (k : IncidentKey) (v : IncidentView) : Prop :=
  ∀ r ∈ v.roots, (k, r) ∈ done

def Decontaminated (logs : Logs) (id : IncidentId) (deltas : Finset DeltaId) : Prop :=
  ∀ δ ∈ deltas, ∃ l, logs δ = some l ∧ ∃ resolvedAt, .decontaminated id resolvedAt ∈ l

/-- The incident holds no row, and its Deltas are decontaminated for it. -/
structure Ended (logs : Logs) (cce : ContaminationEngine) (k : IncidentKey) (v : IncidentView) :
    Prop where
  rows : ∀ x, cce.contaminatedRows.lookup x ≠ some (keyId k)
  deltas : Decontaminated logs (keyId k) v.deltas

def AllEnded (logs : Logs) (done : Certificates) (cce : ContaminationEngine) : Prop :=
  ∀ k v, view cce k = some v → Certified done k v → Ended logs cce k v

theorem AllEnded.apply {logs : Logs} {done : Certificates} {cce : ContaminationEngine}
    (h : AllEnded logs done cce) (k : IncidentKey) (root : DeltaId)
    (hview : (view cce k).any (fun v => v.roots = [root] ∧ root ∈ v.deltas) = true)
    (hroot : (k, root) ∈ done) :
    (∀ x, cce.contaminatedRows.lookup x ≠ some (keyId k)) ∧ ∃ l, logs root = some l := by
  obtain ⟨v, hv, hroots⟩ := (Option.any_eq_true _ _).mp hview
  obtain ⟨hroots, hdelta⟩ := of_decide_eq_true hroots
  have hended := h k v hv fun r hr => by
    rw [hroots] at hr
    exact List.mem_singleton.mp hr ▸ hroot
  obtain ⟨l, hl, -⟩ := hended.deltas root hdelta
  exact ⟨hended.rows, l, hl⟩

/-- Closing what is open under an identifier succeeds and takes its rows from it. -/
def ClosesOpen (accepted : Prop) (id : IncidentId) (cce : ContaminationEngine)
    (out : Except TirBaseError Unit × ContaminationEngine) : Prop :=
  accepted → ∀ k v, keyId k = id → view cce k = some v → v.state = .open_ →
    out.1 = .ok () ∧ ∀ x, out.2.contaminatedRows.lookup x ≠ some id

/-- What is open under an identifier is an incident, and holds no row. -/
def Closable (cce : ContaminationEngine) (id : IncidentId) : Prop :=
  ∀ k v, keyId k = id → view cce k = some v → v.state = .open_ →
    (∃ u, view cce (.inl id) = some u ∧ u.state = .open_) ∧
      ∀ x, cce.contaminatedRows.lookup x ≠ some id

theorem closesOpen_iff (lib : IdentityLibraries) (cce : ContaminationEngine) (now : ℤ)
    (id : IncidentId) (managerDid : Did) (managerSig : Bytes) (managerTokenExpiry nowSecs : ℤ) :
    ClosesOpen (Accepts lib id managerDid managerSig managerTokenExpiry nowSecs) id cce
        (adminClose lib now id managerDid managerSig managerTokenExpiry nowSecs cce) ↔
      (Accepts lib id managerDid managerSig managerTokenExpiry nowSecs → Closable cce id) := by
  refine forall_congr' fun haccepts => forall_congr' fun k => forall_congr' fun v => ?_
  refine forall_congr' fun hk => forall_congr' fun hv => forall_congr' fun hopen => ?_
  rw [Accepts] at haccepts
  have hindex : (adminClose lib now id managerDid managerSig managerTokenExpiry nowSecs
      cce).2.contaminatedRows = cce.contaminatedRows := by
    unfold adminClose
    rw [haccepts]
    dsimp only
    split
    · rfl
    · split_ifs <;> rfl
  rw [hindex]
  refine and_congr_left fun _ => ?_
  unfold adminClose
  rw [haccepts]
  dsimp only
  split
  · rename_i hnone
    simp [view, hnone]
  · rename_i ico hico
    split_ifs with hstate
    · simp [view_incident hico, icoView, hstate]
    · simp only [view_incident hico, true_iff]
      exact ⟨_, rfl, not_not.mp hstate⟩

theorem unindexed {cce : ContaminationEngine} (hrows : cce.contaminatedRows.entries = [])
    (x : String × String) (id : IncidentId) : cce.contaminatedRows.lookup x ≠ some id := by
  intro hx
  have hin := AList.mem_lookup_iff.mp hx
  rw [hrows] at hin
  cases hin

/-- The condition, checked on the entries. -/
theorem closable_of_unindexed {cce : ContaminationEngine} {id : IncidentId}
    (hopen : (view cce (.inl id)).any (fun v => v.state = .open_) = true)
    (hrows : cce.contaminatedRows.entries = []) : Closable cce id := by
  intro k v _ _ _
  obtain ⟨u, hu, hopened⟩ := (Option.any_eq_true _ _).mp hopen
  exact ⟨⟨u, hu, of_decide_eq_true hopened⟩, fun x => unindexed hrows x id⟩

def Keeps (logs logs' : Logs) : Prop :=
  ∀ id l, logs id = some l → ∃ new, logs' id = some (l ++ new)

theorem Keeps.refl (logs : Logs) : Keeps logs logs := fun _ l hl => ⟨[], by rwa [List.append_nil]⟩

theorem keeps_of_grows {allowed : DeltaId → DeltaTag → Prop} {dag dag' : ChangesetDag}
    (h : Grows allowed dag dag') : Keeps (tagsOf dag) (tagsOf dag') := by
  intro id l hl
  obtain ⟨new, hnew, -⟩ := h.kept id l hl
  exact ⟨new, hnew⟩

def Resolved (logs : Logs) (id : DeltaId) : Prop :=
  ∃ l, logs id = some l ∧ l.any DeltaTag.isResolved = true

theorem Resolved.keeps {logs logs' : Logs} (h : Keeps logs logs') {id : DeltaId}
    (hid : Resolved logs id) : Resolved logs' id := by
  obtain ⟨l, hl, hresolved⟩ := hid
  obtain ⟨new, hnew⟩ := h id l hl
  exact ⟨l ++ new, hnew, by rw [List.any_append, hresolved, Bool.true_or]⟩

theorem resolved_iff {dag : ChangesetDag} {id : DeltaId} :
    Resolved (tagsOf dag) id ↔ dag.hasResolvedTag id = true := by
  change _ ↔ ((tagsOf dag id).getD []).any DeltaTag.isResolved = true
  unfold Resolved
  cases tagsOf dag id with
  | none => simp
  | some l => simp

theorem Decontaminated.keeps {logs logs' : Logs} (h : Keeps logs logs') {id : IncidentId}
    {deltas : Finset DeltaId} (hdeltas : Decontaminated logs id deltas) :
    Decontaminated logs' id deltas := by
  intro δ hδ
  obtain ⟨l, hl, resolvedAt, hin⟩ := hdeltas δ hδ
  obtain ⟨new, hnew⟩ := h δ l hl
  exact ⟨l ++ new, hnew, resolvedAt, List.mem_append_left new hin⟩

/-- What the calls keep. The certificates are written down and count for what is registered; the
Deltas of a certified incident are decontaminated, but for the incidents that are pending; those
that were certified before hold no row; and no composite is certified. -/
structure Settling (logs : Logs) (done before : Certificates) (pending : IncidentId → Prop)
    (cce : ContaminationEngine) : Prop where
  keyed : Keyed cce
  noted : ∀ k r, (k, r) ∈ done → (∃ v, view cce k = some v) ∧ Resolved logs r
  within : ∀ id v, view cce (.inl id) = some v → ∀ δ ∈ v.deltas,
    (∃ l, logs δ = some l) ∨ δ ∈ v.roots
  ended : ∀ id v, view cce (.inl id) = some v → Certified done (.inl id) v → ¬pending id →
    Decontaminated logs id v.deltas
  rows : ∀ id v, view cce (.inl id) = some v → Certified before (.inl id) v →
    ∀ x, cce.contaminatedRows.lookup x ≠ some id
  composite : ∀ id v, view cce (.inr id) = some v → ∃ r ∈ v.roots, (.inr id, r) ∉ done

/-- The same entries, in another state perhaps, and the same index; a composite may have grown. -/
structure SameEntries (cce cce' : ContaminationEngine) : Prop where
  back : ∀ k v', view cce' k = some v' → ∃ v, view cce k = some v ∧ v'.id = v.id ∧
    v'.roots = v.roots ∧ ∀ id, k = .inl id → v'.deltas = v.deltas
  forth : ∀ k v, view cce k = some v → ∃ v', view cce' k = some v'
  index : cce'.contaminatedRows = cce.contaminatedRows

namespace Settling
variable {logs logs' : Logs} {done before : Certificates} {pending : IncidentId → Prop}
  {cce cce' : ContaminationEngine}

theorem allEnded (h : Settling logs done done (fun _ => False) cce) : AllEnded logs done cce := by
  intro k v hv hcertified
  cases k with
  | inl id =>
    exact ⟨h.rows id v hv hcertified, h.ended id v hv hcertified fun hpending => hpending⟩
  | inr id =>
    obtain ⟨r, hr, hopen⟩ := h.composite id v hv
    exact absurd (hcertified r hr) hopen

theorem keeps (h : Settling logs done before pending cce) (hlogs : Keeps logs logs') :
    Settling logs' done before pending cce where
  keyed := h.keyed
  noted k r hr := ⟨(h.noted k r hr).1, (h.noted k r hr).2.keeps hlogs⟩
  within id v hv δ hδ := by
    rcases h.within id v hv δ hδ with ⟨l, hl⟩ | hroot
    · obtain ⟨new, hnew⟩ := hlogs δ l hl
      exact .inl ⟨_, hnew⟩
    · exact .inr hroot
  ended id v hv hcertified hpending := (h.ended id v hv hcertified hpending).keeps hlogs
  rows := h.rows
  composite := h.composite

theorem same (h : Settling logs done before pending cce) (hsame : SameEntries cce cce') :
    Settling logs done before pending cce' where
  keyed := by
    refine ⟨fun id v' hv' => ?_, fun id v' hv' => ?_⟩
    · obtain ⟨v, hv, hid, -, -⟩ := hsame.back _ v' hv'
      exact hid.trans (h.keyed.1 id v hv)
    · obtain ⟨v, hv, hid, -, -⟩ := hsame.back _ v' hv'
      exact hid.trans (h.keyed.2 id v hv)
  noted k r hr := by
    obtain ⟨⟨v, hv⟩, hresolved⟩ := h.noted k r hr
    exact ⟨hsame.forth k v hv, hresolved⟩
  within id v' hv' := by
    obtain ⟨v, hv, -, hroots, hdeltas⟩ := hsame.back _ v' hv'
    rw [hroots, hdeltas id rfl]
    exact h.within id v hv
  ended id v' hv' hcertified := by
    obtain ⟨v, hv, -, hroots, hdeltas⟩ := hsame.back _ v' hv'
    rw [Certified, hroots] at hcertified
    rw [hdeltas id rfl]
    exact h.ended id v hv hcertified
  rows id v' hv' hcertified := by
    obtain ⟨v, hv, -, hroots, -⟩ := hsame.back _ v' hv'
    rw [Certified, hroots] at hcertified
    rw [hsame.index]
    exact h.rows id v hv hcertified
  composite id v' hv' := by
    obtain ⟨v, hv, -, hroots, -⟩ := hsame.back _ v' hv'
    rw [hroots]
    exact h.composite id v hv

theorem forget (h : Settling logs done before pending cce) {done' : Certificates}
    (hsubset : done' ⊆ done) : Settling logs done' before pending cce where
  keyed := h.keyed
  noted k r hr := h.noted k r (hsubset hr)
  within := h.within
  ended id v hv hcertified := h.ended id v hv fun r hr => hsubset (hcertified r hr)
  rows := h.rows
  composite id v hv := by
    obtain ⟨r, hr, hopen⟩ := h.composite id v hv
    exact ⟨r, hr, fun hdone => hopen (hsubset hdone)⟩

theorem settle (h : Settling logs done before pending cce) {pending' : IncidentId → Prop}
    (hended : ∀ id v, view cce (.inl id) = some v → Certified done (.inl id) v → pending id →
      ¬pending' id → Decontaminated logs id v.deltas) :
    Settling logs done before pending' cce where
  keyed := h.keyed
  noted := h.noted
  within := h.within
  ended id v hv hcertified hnot := by
    by_cases hpending : pending id
    · exact hended id v hv hcertified hpending hnot
    · exact h.ended id v hv hcertified hpending
  rows := h.rows
  composite := h.composite

/-- Another index, which keeps no row for a certified incident. -/
theorem reindex (h : Settling logs done before pending cce) {before' : Certificates}
    (hview : ∀ k, view cce' k = view cce k)
    (hrows : ∀ id v, view cce (.inl id) = some v → Certified before' (.inl id) v →
      ∀ x, cce'.contaminatedRows.lookup x ≠ some id) :
    Settling logs done before' pending cce' where
  keyed := keyed_of_view h.keyed hview
  noted k r hr := by
    rw [hview]
    exact h.noted k r hr
  within id v hv := h.within id v ((hview _).symm.trans hv)
  ended id v hv := h.ended id v ((hview _).symm.trans hv)
  rows id v hv := hrows id v ((hview _).symm.trans hv)
  composite id v hv := h.composite id v ((hview _).symm.trans hv)

theorem sameViews (h : Settling logs done before pending cce)
    (hview : ∀ k, view cce' k = view cce k)
    (hindex : cce'.contaminatedRows = cce.contaminatedRows) :
    Settling logs done before pending cce' := by
  refine h.reindex hview ?_
  rw [hindex]
  exact h.rows

/-- More Deltas join an incident; if it is certified, they are decontaminated. -/
theorem join (h : Settling logs done before (fun _ => False) cce) (hlogs : Keeps logs logs')
    {icoId : IncidentId} {v : IncidentView} (hv : view cce (.inl icoId) = some v)
    {deltas : Finset DeltaId} (hwithin : ∀ δ ∈ deltas, (∃ l, logs' δ = some l) ∨ δ ∈ v.roots)
    (hended : Certified done (.inl icoId) v → Decontaminated logs' icoId deltas)
    (hview : ∀ k, view cce' k =
      if k = .inl icoId then some { v with deltas := deltas } else view cce k)
    (hindex : cce'.contaminatedRows = cce.contaminatedRows) :
    Settling logs' done before (fun _ => False) cce' := by
  have hkept := h.keeps hlogs
  -- what stands under the key of an incident stood there, with other Deltas perhaps
  have hincident : ∀ id u', view cce' (.inl id) = some u' →
      ∃ u, view cce (.inl id) = some u ∧ u'.id = u.id ∧ u'.roots = u.roots := by
    intro id u' hu'
    rw [hview] at hu'
    split_ifs at hu' with hk
    · cases hu'
      exact ⟨v, hk ▸ hv, rfl, rfl⟩
    · exact ⟨u', hu', rfl, rfl⟩
  refine ⟨⟨fun id u' hu' => ?_, fun id u' hu' => ?_⟩, fun k r hr => ?_, fun id u' hu' => ?_,
    fun id u' hu' hcertified hpending => ?_, fun id u' hu' hcertified => ?_, fun id u' hu' => ?_⟩
  · obtain ⟨u, hu, hid, -⟩ := hincident id u' hu'
    exact hid.trans (h.keyed.1 id u hu)
  · rw [hview, if_neg (by simp)] at hu'
    exact h.keyed.2 id u' hu'
  · obtain ⟨⟨u, hu⟩, hresolved⟩ := hkept.noted k r hr
    refine ⟨?_, hresolved⟩
    rw [hview]
    split_ifs
    · exact ⟨_, rfl⟩
    · exact ⟨u, hu⟩
  · rw [hview] at hu'
    split_ifs at hu'
    · cases hu'
      exact hwithin
    · exact hkept.within id u' hu'
  · rw [hview] at hu'
    split_ifs at hu' with hk
    · cases hu'
      rw [Sum.inl.inj hk] at hcertified ⊢
      exact hended hcertified
    · exact hkept.ended id u' hu' hcertified hpending
  · obtain ⟨u, hu, -, hroots⟩ := hincident id u' hu'
    rw [Certified, hroots] at hcertified
    rw [hindex]
    exact h.rows id u hu hcertified
  · rw [hview, if_neg (by simp)] at hu'
    exact h.composite id u' hu'

/-- A root is certified whose log holds the certificate, and which no composite lacks alone. -/
theorem certify (h : Settling logs done done (fun _ => False) cce) (hlogs : Keeps logs logs')
    {root : DeltaId} (hresolved : certificatesOf cce root ≠ [] → Resolved logs' root)
    (hcomposite : ∀ id v, view cce (.inr id) = some v → root ∈ v.roots →
      ∃ r ∈ v.roots, r ≠ root ∧ (.inr id, r) ∉ done) :
    Settling logs' (done ++ certificatesOf cce root) done (fun id => id ∈ cce.incidentsOf root)
      cce := by
  have hkept := h.keeps hlogs
  refine ⟨h.keyed, fun k r hr => ?_, hkept.within, fun id v hv hcertified hother => ?_, h.rows,
    fun id v hv => ?_⟩
  · rcases List.mem_append.mp hr with hr | hr
    · exact hkept.noted k r hr
    · have hsome := hresolved (List.ne_nil_of_mem hr)
      obtain ⟨rfl, v, hv, -⟩ := (mem_certificatesOf h.keyed).mp hr
      exact ⟨⟨v, hv⟩, hsome⟩
  · refine hkept.ended id v hv (fun r hr => ?_) fun hpending => hpending
    rcases List.mem_append.mp (hcertified r hr) with hold | hnew
    · exact hold
    · obtain ⟨rfl, -⟩ := (mem_certificatesOf h.keyed).mp hnew
      exact absurd ((mem_incidentsOf h.keyed).mpr ⟨v, hv, hr⟩) hother
  · have hopen : ∃ r ∈ v.roots, r ≠ root ∧ (.inr id, r) ∉ done := by
      by_cases hroot : root ∈ v.roots
      · exact hcomposite id v hv hroot
      · obtain ⟨r, hr, hr'⟩ := h.composite id v hv
        exact ⟨r, hr, fun hsame => hroot (hsame ▸ hr), hr'⟩
    obtain ⟨r, hr, hne, hr'⟩ := hopen
    refine ⟨r, hr, fun hin => ?_⟩
    rcases List.mem_append.mp hin with hin | hin
    · exact hr' hin
    · exact hne ((mem_certificatesOf h.keyed).mp hin).1

theorem unused (h : Settling logs done before pending cce) {id : IncidentId}
    (hid : Unused cce id) (r : DeltaId) : (.inl id, r) ∉ done ∧ (.inr id, r) ∉ done := by
  constructor
  · intro hr
    obtain ⟨⟨v, hv⟩, -⟩ := h.noted _ r hr
    rw [hid.1] at hv
    cases hv
  · intro hr
    obtain ⟨⟨v, hv⟩, -⟩ := h.noted _ r hr
    rw [hid.2] at hv
    cases hv

/-- An incident is entered under an identifier that nothing is certified for. -/
theorem enter (h : Settling logs done before pending cce) (hbefore : before ⊆ done)
    {v : IncidentView} {root : DeltaId} (hroots : v.roots = [root])
    (hnew : (.inl v.id, root) ∉ done)
    (hwithin : ∀ δ ∈ v.deltas, (∃ l, logs δ = some l) ∨ δ ∈ v.roots)
    (hview : ∀ k, view cce' k = if k = .inl v.id then some v else view cce k)
    (hindex : ∀ x, cce'.contaminatedRows.lookup x = some v.id ∨
      cce'.contaminatedRows.lookup x = cce.contaminatedRows.lookup x) :
    Settling logs done before pending cce' := by
  have hopened : ¬Certified done (.inl v.id) v := fun hcertified =>
    hnew (hcertified root (by rw [hroots]; exact List.mem_singleton_self root))
  refine ⟨⟨fun id u hu => ?_, fun id u hu => ?_⟩, fun k r hr => ?_, fun id u hu => ?_,
    fun id u hu hcertified => ?_, fun id u hu hcertified x => ?_, fun id u hu => ?_⟩
  · rw [hview] at hu
    split_ifs at hu with hk
    · cases hu
      exact (Sum.inl.inj hk).symm
    · exact h.keyed.1 id u hu
  · rw [hview, if_neg (by simp)] at hu
    exact h.keyed.2 id u hu
  · obtain ⟨⟨u, hu⟩, hresolved⟩ := h.noted k r hr
    refine ⟨?_, hresolved⟩
    rw [hview]
    split_ifs
    · exact ⟨v, rfl⟩
    · exact ⟨u, hu⟩
  · rw [hview] at hu
    split_ifs at hu
    · cases hu
      exact hwithin
    · exact h.within id u hu
  · rw [hview] at hu
    split_ifs at hu with hk
    · cases hu
      exact absurd (hk ▸ hcertified) hopened
    · exact h.ended id u hu hcertified
  · rw [hview] at hu
    split_ifs at hu with hk
    · cases hu
      exact absurd (hk ▸ fun r hr => hbefore (hcertified r hr)) hopened
    · rcases hindex x with hx | hx
      · rw [hx]
        exact fun hsame => hk (congrArg Sum.inl (Option.some.inj hsame).symm)
      · rw [hx]
        exact h.rows id u hu hcertified x
  · rw [hview, if_neg (by simp)] at hu
    exact h.composite id u hu

/-- A new incident is registered, as part of a composite if it overlaps an open one. -/
theorem register (h : Settling logs done done (fun _ => False) cce) {v : IncidentView}
    {root : DeltaId} (hroots : v.roots = [root])
    (hwithin : ∀ δ ∈ v.deltas, (∃ l, logs δ = some l) ∨ δ ∈ v.roots) {compositeId : IncidentId}
    (hid : Unused cce v.id) (hcomposite : Unused cce compositeId)
    (heffect : RegisterEffect v compositeId cce cce') :
    Settling logs done done (fun _ => False) cce' := by
  have hnew := (h.unused hid root).1
  have hopened : ¬Certified done (.inl v.id) v := fun hcertified =>
    hnew (hcertified root (by rw [hroots]; exact List.mem_singleton_self root))
  have hkeyed := keyed_register h.keyed heffect
  cases heffect with
  | alone hdisjoint hview habsorbed hindex =>
    refine h.enter (List.Subset.refl done) hroots hnew hwithin hview fun x => ?_
    rw [hindex]
    split_ifs
    · exact .inl rfl
    · exact .inr rfl
  | merged first u w hu hopen hmeet hmerge hname hview habsorbed hindex =>
    have hincident : ∀ id u', view cce' (.inl id) = some u' →
        (id = v.id ∧ u'.roots = v.roots ∧ u'.deltas = v.deltas) ∨
          ∃ u₀, view cce (.inl id) = some u₀ ∧ u'.roots = u₀.roots ∧ u'.deltas = u₀.deltas := by
      intro id u' hu'
      rw [hview, if_neg (by simp)] at hu'
      split_ifs at hu' with hk hk'
      · cases hu'
        exact .inl ⟨Sum.inl.inj hk, rfl, rfl⟩
      · cases hu'
        exact .inr ⟨u, hk' ▸ hu, rfl, rfl⟩
      · exact .inr ⟨u', hu', rfl, rfl⟩
    refine ⟨hkeyed, fun k r hr => ?_, fun id u' hu' => ?_, fun id u' hu' hcertified => ?_,
      fun id u' hu' hcertified x => ?_, fun id u' hu' => ?_⟩
    · obtain ⟨⟨u₀, hu₀⟩, hresolved⟩ := h.noted k r hr
      refine ⟨?_, hresolved⟩
      rw [hview]
      split_ifs
      · exact ⟨w, rfl⟩
      · exact ⟨_, rfl⟩
      · exact ⟨_, rfl⟩
      · exact ⟨u₀, hu₀⟩
    · rcases hincident id u' hu' with ⟨-, hr, hd⟩ | ⟨u₀, hu₀, hr, hd⟩
      · rw [hr, hd]
        exact hwithin
      · rw [hr, hd]
        exact h.within id u₀ hu₀
    · rcases hincident id u' hu' with ⟨rfl, hr, hd⟩ | ⟨u₀, hu₀, hr, hd⟩
      · rw [Certified, hr] at hcertified
        exact absurd hcertified hopened
      · rw [Certified, hr] at hcertified
        rw [hd]
        exact h.ended id u₀ hu₀ hcertified
    · rcases hincident id u' hu' with ⟨rfl, hr, hd⟩ | ⟨u₀, hu₀, hr, hd⟩
      · rw [Certified, hr] at hcertified
        exact absurd hcertified hopened
      · rw [Certified, hr] at hcertified
        rw [hindex]
        split_ifs
        · rintro hsame
          cases hsame
          rw [hcomposite.1] at hu₀
          cases hu₀
        · exact h.rows id u₀ hu₀ hcertified x
    · rw [hview, if_neg (by simp : (Sum.inr id : IncidentKey) ≠ .inl v.id),
        if_neg (by simp : (Sum.inr id : IncidentKey) ≠ .inl first)] at hu'
      split_ifs at hu' with hk
      · cases hu'
        refine ⟨root, (hmerge.roots root).mpr (.inr (by rw [hroots]; simp)), ?_⟩
        rw [Sum.inr.inj hk]
        exact (h.unused hcomposite root).2
      · exact h.composite id u' hu'

theorem note (h : Settling logs done before pending cce) (hlogs : Keeps logs logs')
    {icoId : IncidentId} {ico ico' : IncidentContextObject}
    (hico : cce.incidents.lookup icoId = some ico) (hsame : icoView ico' = icoView ico)
    (hended : Certified done (.inl icoId) (icoView ico) →
      Decontaminated logs' icoId ico.contaminatedDeltas) :
    Settling logs' done before (fun id => pending id ∧ id ≠ icoId)
      { cce with incidents := cce.incidents.insert icoId ico' } := by
  have hsettled : Settling logs' done before (fun id => pending id ∧ id ≠ icoId) cce :=
    (h.keeps hlogs).settle fun id v hv hcertified hpending hnot => by
      have hid : id = icoId := by_contra fun hne => hnot ⟨hpending, hne⟩
      subst hid
      cases (view_incident hico).symm.trans hv
      exact hended hcertified
  exact hsettled.sameViews (fun k => view_reinsertIncident hico hsame k) rfl

theorem absent (h : Settling logs done before pending cce) {icoId : IncidentId}
    (hnone : cce.incidents.lookup icoId = none) :
    Settling logs done before (fun id => pending id ∧ id ≠ icoId) cce := by
  refine h.settle fun id v hv hcertified hpending hnot => ?_
  have hid : id = icoId := by_contra fun hne => hnot ⟨hpending, hne⟩
  rw [view, hid, hnone] at hv
  cases hv

theorem mono (h : Settling logs done before pending cce) {pending' : IncidentId → Prop}
    (hle : ∀ id, pending id → pending' id) : Settling logs done before pending' cce :=
  h.settle fun id _ _ _ hpending hnot => absurd (hle id hpending) hnot

theorem close (h : Settling logs done before pending cce) {accepted : Prop} {id : IncidentId}
    {s s' : IncidentRun} (hs : s.cce = cce) (heffect : CloseEffect accepted id s s') :
    Settling logs done before pending s'.cce := by
  subst hs
  cases heffect with
  | refused hrefused hsame =>
    rw [hsame]
    exact h
  | closed haccepted v hv hopen hview habsorbed hindex hdag hstore =>
    refine h.same ⟨fun k v' hv' => ?_, fun k u hu => ?_, hindex⟩
    · rw [hview] at hv'
      split_ifs at hv' with hk
      · cases hv'
        exact ⟨v, hk ▸ hv, rfl, rfl, fun _ _ => rfl⟩
      · exact ⟨v', hv', rfl, rfl, fun _ _ => rfl⟩
    · rw [hview]
      split_ifs
      · exact ⟨_, rfl⟩
      · exact ⟨u, hu⟩

end Settling

theorem foldl_pending {S : Type} {f : S → IncidentId → S} {P : (IncidentId → Prop) → S → Prop}
    (hf : ∀ pending s id, P pending s → P (fun other => pending other ∧ other ≠ id) (f s id))
    (hmono : ∀ pending pending' s, (∀ id, pending id → pending' id) → P pending s → P pending' s)
    (ids : List IncidentId) {s : S} (hs : P (fun id => id ∈ ids) s) :
    P (fun _ => False) (ids.foldl f s) := by
  induction ids generalizing s with
  | nil => exact hmono _ _ s (fun id hid => by cases hid) hs
  | cons first ids ih =>
    refine ih (hmono _ _ _ (fun id hid => ?_) (hf _ s first hs))
    exact (List.mem_cons.mp hid.1).resolve_left hid.2

theorem settling_new (logs : Logs) : Settling logs [] [] (fun _ => False) .new := by
  refine ⟨keyed_new, fun k r hr => (by cases hr), fun id v hv => ?_, fun id v hv => ?_,
    fun id v hv => ?_, fun id v hv => ?_⟩ <;> cases (view_new _).symm.trans hv

end TirBase.IncidentEndings
