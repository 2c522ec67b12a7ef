import TirBase.NativeEndings
import TirBase.RowContamination
import TirBase.WasmIncidents

/-! # The end of incidents in the WASM build

The tags are always stored there. What a certificate does not end are the rows: the index keeps those
of an incident that is resolved, since it stays open. -/
namespace TirBase.WasmEndings
open ContaminationEngine IncidentRuns IncidentEndings CompositeFormation TransitionRuns
open NativeEndings (EndingOperation EndingRun EndsCleanly EndsIncidents endingStep endsIncidents_run)
open RowContamination (sampleStatements written)
open TagLogs (tagsOf)

structure WasmRun where
  device : WasmCoreHandle
  done : Certificates

inductive WasmOperation
  | project (deltaId : DeltaId) (table key : String) (value : JsonValue)
  | tag (env : TaintEnvironment) (rootDeltaId : DeltaId) (source : TaintSource)
  | verify (now : ℤ) (rootDeltaId : DeltaId) (managerDid : Did) (managerSig : Bytes)
      (managerTokenExpiry nowSecs : ℤ)
  | close (now : ℤ) (incidentId : IncidentId) (managerDid : Did) (managerSig : Bytes)
      (managerTokenExpiry nowSecs : ℤ)

def logs (h : WasmCoreHandle) : Logs := fun id => some (h.readTags id)

section Machine
variable (lib : IdentityLibraries)

def wasmStep (s : WasmRun) : WasmOperation → WasmRun
  | .project deltaId table key value => { s with device := s.device.project deltaId table key value }
  | .tag env rootDeltaId source => { s with device := s.device.tagRoot env rootDeltaId source }
  | .verify now rootDeltaId managerDid managerSig managerTokenExpiry nowSecs =>
    let out := s.device.verifyData lib now rootDeltaId managerDid managerSig managerTokenExpiry
      nowSecs
    ⟨out.2, match out.1 with
      | .ok () => s.done ++ certificatesOf s.device.cce rootDeltaId
      | .error _ => s.done⟩
  | .close now incidentId managerDid managerSig managerTokenExpiry nowSecs =>
    { s with device := (s.device.adminClose lib now incidentId managerDid managerSig
        managerTokenExpiry nowSecs).2 }

/-- What is asked of a step, as in the native build. -/
structure WasmEndsIncidents (s : WasmRun) (op : WasmOperation) : Prop where
  certified : AllEnded (logs (wasmStep lib s op).device) (wasmStep lib s op).done
    (wasmStep lib s op).device.cce
  closed : ∀ now id managerDid managerSig managerTokenExpiry nowSecs,
    op = .close now id managerDid managerSig managerTokenExpiry nowSecs →
      ClosesOpen (Accepts lib id managerDid managerSig managerTokenExpiry nowSecs) id s.device.cce
        (adminClose lib now id managerDid managerSig managerTokenExpiry nowSecs s.device.cce)

/-- No row is indexed for an incident of which the last root is certified while it counts as open,
and no composite is left without a root to certify. -/
structure WasmCertifiable (s : WasmRun) (rootDeltaId : DeltaId) : Prop where
  rows : ∀ id v, view s.device.cce (.inl id) = some v → rootDeltaId ∈ v.roots →
    (∀ r ∈ v.roots, r = rootDeltaId ∨ (.inl id, r) ∈ s.done) →
      s.device.cce.keepsOpenRow id = true → ∀ x, s.device.cce.contaminatedRows.lookup x ≠ some id
  composite : ∀ id v, view s.device.cce (.inr id) = some v → rootDeltaId ∈ v.roots →
    ∃ r ∈ v.roots, r ≠ rootDeltaId ∧ (.inr id, r) ∉ s.done

/-- The condition under which a step ends what it should. -/
def WasmEndsCleanly (s : WasmRun) : WasmOperation → Prop
  | .project _ _ _ _ => True
  | .tag env _ _ => Unused s.device.cce env.icoId ∧ Unused s.device.cce env.compositeId
  | .verify _ rootDeltaId managerDid managerSig managerTokenExpiry nowSecs =>
    verifyManagerAuth lib managerDid managerSig (digestBytes rootDeltaId) managerTokenExpiry
      nowSecs = .ok () → WasmCertifiable s rootDeltaId
  | .close _ id managerDid managerSig managerTokenExpiry nowSecs =>
    Accepts lib id managerDid managerSig managerTokenExpiry nowSecs → Closable s.device.cce id

end Machine

theorem keeps_append (h : WasmCoreHandle) (tags : List (DeltaId × DeltaTag)) :
    Keeps (logs h) (logs { h with tagStore := h.tagStore ++ tags }) := by
  intro id l hl
  cases hl
  refine ⟨(tags.filter fun e => e.1 = id).map Prod.snd, ?_⟩
  simp [logs, WasmCoreHandle.readTags]

theorem mem_readTags_append {h : WasmCoreHandle} {tags : List (DeltaId × DeltaTag)} {id : DeltaId}
    {tag : DeltaTag} (hin : (id, tag) ∈ tags) :
    tag ∈ ({ h with tagStore := h.tagStore ++ tags } : WasmCoreHandle).readTags id := by
  simp only [WasmCoreHandle.readTags, List.mem_map, List.mem_filter, List.mem_append]
  exact ⟨(id, tag), ⟨.inr hin, by simp⟩, rfl⟩

theorem keepsOpenRow_iff {cce : ContaminationEngine} {id : IncidentId} :
    cce.keepsOpenRow id = true ↔ ∃ k v, keyId k = id ∧ view cce k = some v ∧ v.state = .open_ := by
  have hkey : (∃ k v, keyId k = id ∧ view cce k = some v ∧ v.state = .open_) ↔
      (∃ v, view cce (.inl id) = some v ∧ v.state = .open_) ∨
        ∃ v, view cce (.inr id) = some v ∧ v.state = .open_ := by
    simp [keyId]
  rw [hkey, keepsOpenRow, Bool.or_eq_true]
  simp only [view]
  cases cce.incidents.lookup id <;> cases cce.compositeIncidents.lookup id <;>
    simp [icoView, compositeView]

section Certifying
variable {done before : Certificates} {pending : IncidentId → Prop} {h : WasmCoreHandle}

theorem settling_certify (hs : Settling (logs h) done before pending h.cce) (now : ℤ)
    (rootDeltaId : DeltaId) (managerDid : Did) (icoId : IncidentId) :
    Settling (logs (h.certify now rootDeltaId managerDid icoId)) done before
      (fun id => pending id ∧ id ≠ icoId) (h.certify now rootDeltaId managerDid icoId).cce := by
  unfold WasmCoreHandle.certify
  split
  · rename_i hnone
    exact hs.absent hnone
  · rename_i ico hico
    dsimp only
    split_ifs with hall
    · refine hs.note (keeps_append h _) hico (by rfl) fun _ δ hδ => ⟨_, rfl, now, ?_⟩
      refine mem_readTags_append (List.mem_map.mpr ⟨δ, ?_, rfl⟩)
      rwa [Finset.mem_sort]
    · refine hs.note (.refl _) hico (by rfl) fun hcertified => absurd ?_ hall
      refine List.all_eq_true.mpr fun r hr => ?_
      obtain ⟨l, hl, hresolved⟩ := (hs.noted _ r (hcertified r hr)).2
      cases hl
      exact hresolved

theorem certify_same (h : WasmCoreHandle) (now : ℤ) (rootDeltaId : DeltaId) (managerDid : Did)
    (ids : List IncidentId) :
    (∀ k, view (ids.foldl (WasmCoreHandle.certify now rootDeltaId managerDid) h).cce k =
        view h.cce k) ∧
      (ids.foldl (WasmCoreHandle.certify now rootDeltaId managerDid) h).cce.contaminatedRows =
        h.cce.contaminatedRows := by
  induction ids generalizing h with
  | nil => exact ⟨fun _ => rfl, rfl⟩
  | cons id ids ih =>
    obtain ⟨hview, hindex⟩ := ih (h.certify now rootDeltaId managerDid id)
    have hfirst : (∀ k, view (h.certify now rootDeltaId managerDid id).cce k = view h.cce k) ∧
        (h.certify now rootDeltaId managerDid id).cce.contaminatedRows =
          h.cce.contaminatedRows := by
      unfold WasmCoreHandle.certify
      split
      · exact ⟨fun _ => rfl, rfl⟩
      · rename_i ico hico
        dsimp only
        split_ifs <;> exact ⟨fun k => view_reinsertIncident hico (by rfl) k, rfl⟩
    exact ⟨fun k => (hview k).trans (hfirst.1 k), hindex.trans hfirst.2⟩

end Certifying

section Runs
variable (lib : IdentityLibraries) {s : WasmRun}

def WasmEnding (s : WasmRun) : Prop :=
  Settling (logs s.device) s.done s.done (fun _ => False) s.device.cce

theorem wasmEnding_verify (h : WasmEnding s) (now : ℤ) {rootDeltaId : DeltaId} {managerDid : Did}
    {managerSig : Bytes} {managerTokenExpiry nowSecs : ℤ}
    (hcertifiable : verifyManagerAuth lib managerDid managerSig (digestBytes rootDeltaId)
      managerTokenExpiry nowSecs = .ok () → WasmCertifiable s rootDeltaId) :
    WasmEnding (wasmStep lib s (.verify now rootDeltaId managerDid managerSig managerTokenExpiry
      nowSecs)) := by
  unfold WasmEnding
  simp only [wasmStep]
  unfold WasmCoreHandle.verifyData
  split
  · exact h
  · rename_i hauth
    obtain ⟨hrows, hcomposite⟩ := hcertifiable hauth
    generalize hstored : ({ s.device with
      tagStore := s.device.tagStore ++ [(rootDeltaId, DeltaTag.resolved managerDid now)] } :
        WasmCoreHandle) = stored
    have hcce : stored.cce = s.device.cce := by rw [← hstored]
    have hresolved : Resolved (logs stored) rootDeltaId := by
      refine ⟨_, rfl, List.any_eq_true.mpr ⟨.resolved managerDid now, ?_, rfl⟩⟩
      rw [← hstored]
      exact mem_readTags_append (List.mem_singleton_self _)
    have hkeeps : Keeps (logs s.device) (logs stored) := hstored ▸ keeps_append s.device _
    have hnoted := h.certify hkeeps (fun _ => hresolved) hcomposite
    dsimp only
    rw [hcce]
    have hdone := foldl_pending
      (P := fun pending (d : WasmCoreHandle) => Settling (logs d)
        (s.done ++ certificatesOf s.device.cce rootDeltaId) s.done pending d.cce)
      (fun _ _ id hd => settling_certify hd now rootDeltaId managerDid id)
      (fun _ _ _ hle hd => hd.mono hle) (s.device.cce.incidentsOf rootDeltaId)
      (s := stored) (by rw [hcce]; exact hnoted)
    obtain ⟨hview, hindex⟩ := certify_same stored now rootDeltaId managerDid
      (s.device.cce.incidentsOf rootDeltaId)
    rw [hcce] at hview hindex
    refine hdone.reindex (fun k => by cases k <;> rfl) fun id v hv hcertified x hx => ?_
    rw [pruneClosedRows, lookup_retain, Option.filter_eq_some_iff] at hx
    by_cases hroot : rootDeltaId ∈ v.roots
    · refine hrows id v ((hview _).symm.trans hv) hroot (fun r hr => ?_) ?_ x (hindex ▸ hx.1)
      · rcases List.mem_append.mp (hcertified r hr) with hold | hnew
        · exact .inr hold
        · exact .inl ((mem_certificatesOf h.keyed).mp hnew).1
      · obtain ⟨k, u, hk, hu, hopen⟩ := keepsOpenRow_iff.mp hx.2
        exact keepsOpenRow_iff.mpr ⟨k, u, hk, (hview k).symm.trans hu, hopen⟩
    · refine hdone.rows id v hv (fun r hr => ?_) x hx.1
      rcases List.mem_append.mp (hcertified r hr) with hold | hnew
      · exact hold
      · obtain ⟨rfl, -⟩ := (mem_certificatesOf h.keyed).mp hnew
        exact absurd hr hroot

theorem wasmEnding_tag (h : WasmEnding s) {env : TaintEnvironment}
    (hico : Unused s.device.cce env.icoId) (hcomposite : Unused s.device.cce env.compositeId)
    (rootDeltaId : DeltaId) (source : TaintSource) :
    WasmEnding (wasmStep lib s (.tag env rootDeltaId source)) := by
  have hkept := Settling.keeps h (keeps_append s.device
    ((s.device.cceDag.bfsDescendants rootDeltaId).map
      fun id => (id, .contaminated rootDeltaId env.icoId)))
  exact hkept.register (rfl : _ = [rootDeltaId]) (fun δ _ => .inl ⟨_, rfl⟩) hico hcomposite
    (registerEffect h.keyed _ env.compositeId env.now)

theorem wasmEnding_step (h : WasmEnding s) {op : WasmOperation} (hop : WasmEndsCleanly lib s op) :
    WasmEnding (wasmStep lib s op) := by
  cases op with
  | project deltaId table key value => exact h
  | tag env rootDeltaId source => exact wasmEnding_tag lib h hop.1 hop.2 rootDeltaId source
  | verify now rootDeltaId managerDid managerSig managerTokenExpiry nowSecs =>
    exact wasmEnding_verify lib h now hop
  | close now id managerDid managerSig managerTokenExpiry nowSecs =>
    exact Settling.close h (s := ⟨s.device.cce, .empty, .empty⟩) rfl
      (closeEffect lib _ now id managerDid managerSig managerTokenExpiry nowSecs)

theorem wasmEndsIncidents_step (h : WasmEnding s) {op : WasmOperation}
    (hop : WasmEndsCleanly lib s op) : WasmEndsIncidents lib s op := by
  refine ⟨(wasmEnding_step lib h hop).allEnded, ?_⟩
  rintro now id managerDid managerSig managerTokenExpiry nowSecs rfl
  exact (closesOpen_iff lib s.device.cce now id managerDid managerSig managerTokenExpiry
    nowSecs).mpr hop

theorem wasmEnding_new {device : WasmCoreHandle} (hdevice : device.cce = .new) :
    WasmEnding ⟨device, []⟩ := by
  unfold WasmEnding
  rw [hdevice]
  exact settling_new _

end Runs

/-- Incidents end in either build, along every run whose steps meet the condition. -/
theorem incidents_end (lib : IdentityLibraries) :
    (∀ dag : ChangesetDag, dag.WellFormed → ∀ (store : LocalStore) (ops : List EndingOperation),
      Guarded (endingStep lib) (EndsCleanly lib) ⟨⟨.new, dag, store⟩, []⟩ ops →
        Guarded (endingStep lib) (EndsIncidents lib) ⟨⟨.new, dag, store⟩, []⟩ ops) ∧
      ∀ device : WasmCoreHandle, device.cce = .new → ∀ ops : List WasmOperation,
        Guarded (wasmStep lib) (WasmEndsCleanly lib) ⟨device, []⟩ ops →
          Guarded (wasmStep lib) (WasmEndsIncidents lib) ⟨device, []⟩ ops := by
  constructor
  · intro dag hdag store ops hops
    exact endsIncidents_run lib hdag store hops
  · intro device hdevice ops hops
    exact guarded_of_invariant (fun _ _ hop h => wasmEndsIncidents_step lib h hop)
      (fun _ _ hop h => wasmEnding_step lib h hop) hops (wasmEnding_new hdevice)

def sampleRows : EndingOperation := .project (written sampleStatements)

def endingRun : List EndingOperation :=
  [sampleRows, .insert (TagLogs.loggedNode 1 []), .incident (sampleTag 1 21 31),
    .insert (TagLogs.loggedNode 2 [1]), .incident (sampleVerify 1 41), .incident (sampleClose 21)]

def wasmVerify (rootDeltaId : DeltaId) : WasmOperation :=
  .verify 6 rootDeltaId CrdtEngine.sampleDid₂ (List.replicate 64 0) 10 0

def wasmClose (id : IncidentId) : WasmOperation :=
  .close 7 id CrdtEngine.sampleDid₂ (List.replicate 64 0) 10 0

def wasmTag (rootDeltaId : DeltaId) (icoId compositeId : IncidentId) : WasmOperation :=
  .tag (TagLogs.calmTaint icoId compositeId) rootDeltaId (.deviceRevocation rootDeltaId)

def wasmDevice : WasmCoreHandle := .ofNative (CoreHandle.sampleHandle ⟨.empty, .empty, [], []⟩)

def wasmEndingRun : List WasmOperation :=
  [.project 6 "items" "k" .null, wasmTag 5 21 31, wasmVerify 5, wasmClose 21]

/-- A root is tagged and certified, and its incident is closed. -/
theorem incidents_end_sample :
    Guarded (endingStep sampleLib) (EndsIncidents sampleLib) ⟨⟨.new, .empty, .empty⟩, []⟩
        endingRun ∧
      Guarded (wasmStep sampleLib) (WasmEndsIncidents sampleLib) ⟨wasmDevice, []⟩
        wasmEndingRun := by
  have hnew : Unused (run (endingStep sampleLib) ⟨⟨.new, .empty, .empty⟩, []⟩
      (endingRun.take 4)).cce 41 := by
    decide +kernel
  have hnone : (run (endingStep sampleLib) ⟨⟨.new, .empty, .empty⟩, []⟩
      (endingRun.take 4)).cce.compositeIncidents.entries = [] := by
    decide +kernel
  have hnone' : (run (wasmStep sampleLib) ⟨wasmDevice, []⟩
      (wasmEndingRun.take 2)).device.cce.compositeIncidents.entries = [] := by
    decide +kernel
  have hrows : (run (wasmStep sampleLib) ⟨wasmDevice, []⟩
      (wasmEndingRun.take 2)).device.cce.contaminatedRows.entries = [] := by
    decide +kernel
  refine ⟨(incidents_end sampleLib).1 .empty ChangesetDag.wellFormed_empty .empty endingRun ?_,
    (incidents_end sampleLib).2 wasmDevice rfl wasmEndingRun ?_⟩
  · refine ⟨trivial, trivial, ⟨by decide +kernel, by decide +kernel⟩, trivial, fun _ => ?_, fun _ => ?_,
      trivial⟩
    · refine ⟨fun _ => by decide +kernel, fun _ _ => rfl, fun _ _ => hnew, fun id v hv => ?_⟩
      cases (view_no_composite hnone id).symm.trans hv
    · exact closable_of_unindexed (by decide +kernel) (by decide +kernel)
  · refine ⟨trivial, ⟨by decide +kernel, by decide +kernel⟩, fun _ => ?_, fun _ => ?_, trivial⟩
    · refine ⟨fun id v _ _ _ _ x => unindexed hrows x id, fun id v hv => ?_⟩
      cases (view_no_composite hnone' id).symm.trans hv
    · exact closable_of_unindexed (by decide +kernel) (by decide +kernel)

/-- The root of a revoked migration is certified; an incident that has rows is closed; in the WASM
build a root is certified whose Delta has a row. -/
theorem incidents_not_ended :
    ¬Guarded (endingStep sampleLib) (EndsIncidents sampleLib) ⟨⟨.new, .empty, .empty⟩, []⟩
        [.incident (sampleTag 9 21 31), .incident (sampleVerify 9 41)] ∧
      ¬Guarded (endingStep sampleLib) (EndsIncidents sampleLib) ⟨⟨.new, .empty, .empty⟩, []⟩
        [sampleRows, .insert (TagLogs.loggedNode 1 []), .incident (sampleTag 1 21 31),
          .incident (sampleClose 21)] ∧
      ¬Guarded (wasmStep sampleLib) (WasmEndsIncidents sampleLib) ⟨wasmDevice, []⟩
        [.project 5 "items" "k" .null, wasmTag 5 21 31, wasmVerify 5] := by
  refine ⟨fun h => ?_, fun h => ?_, fun h => ?_⟩
  · have hall : (run (endingStep sampleLib) ⟨⟨.new, .empty, .empty⟩, []⟩
        [.incident (sampleTag 9 21 31), .incident (sampleVerify 9 41)]).done = [(.inl 21, 9)] := by
      decide +kernel
    have hdone : (.inl 21, 9) ∈ (run (endingStep sampleLib) ⟨⟨.new, .empty, .empty⟩, []⟩
        [.incident (sampleTag 9 21 31), .incident (sampleVerify 9 41)]).done := by
      rw [hall]
      exact List.mem_singleton_self _
    obtain ⟨-, l, hl⟩ := h.2.1.certified.apply (.inl 21) 9 (by decide +kernel) hdone
    have hnone : tagsOf (run (endingStep sampleLib) ⟨⟨.new, .empty, .empty⟩, []⟩
        [.incident (sampleTag 9 21 31), .incident (sampleVerify 9 41)]).dag 9 = none := by
      decide +kernel
    cases hnone.symm.trans hl
  · have hauth : verifyManagerAuth sampleLib CrdtEngine.sampleDid₂ (List.replicate 64 0)
        (uuidBytes 21) 10 0 = .ok () := by
      decide +kernel
    have hclose := (closesOpen_iff ..).mp (h.2.2.2.1.closed 7 21 CrdtEngine.sampleDid₂
      (List.replicate 64 0) 10 0 rfl) hauth
    have hview : ((view (run (endingStep sampleLib) ⟨⟨.new, .empty, .empty⟩, []⟩
        [sampleRows, .insert (TagLogs.loggedNode 1 []), .incident (sampleTag 1 21 31)]).cce
          (.inl 21)).any fun v => v.state = .open_) = true := by
      decide +kernel
    obtain ⟨v, hv, hopen⟩ := (Option.any_eq_true _ _).mp hview
    exact (hclose (.inl 21) v rfl hv (of_decide_eq_true hopen)).2 ("items", "k") (by decide +kernel)
  · have hall : (run (wasmStep sampleLib) ⟨wasmDevice, []⟩
        [.project 5 "items" "k" .null, wasmTag 5 21 31, wasmVerify 5]).done = [(.inl 21, 5)] := by
      decide +kernel
    have hdone : (.inl 21, 5) ∈ (run (wasmStep sampleLib) ⟨wasmDevice, []⟩
        [.project 5 "items" "k" .null, wasmTag 5 21 31, wasmVerify 5]).done := by
      rw [hall]
      exact List.mem_singleton_self _
    have hended := h.2.2.1.certified.apply (.inl 21) 5 (by decide +kernel) hdone
    exact hended.1 ("items", "k") (by decide +kernel)

end TirBase.WasmEndings
