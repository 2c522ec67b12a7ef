import TirBase.DeviceRuns
import TirBase.ReceiptSoundness

/-! # Taint of a revoked author, one lock section at a time

A revocation that applies is recorded, the DAG is queried, each Delta that was found is tagged and
the merge gate is closed. The revocation lock is held from the record to the last tag; inbound
Deltas need the lock of the CRDT engine only and come in between. -/
namespace TirBase.RevocationTaint
open CoreHandle DeviceRuns TransitionRuns ReceiptSoundness
open TagLogs (appendTag_clean)

inductive Section
  | querying (targetDid : Did) (complete : RevocationDelta)
  | tagging (targetDid : Did) (deltaIds : List DeltaId)

def Section.target : Section → Did
  | .querying targetDid _ => targetDid
  | .tagging targetDid _ => targetDid

/-- A device, the holder of the revocation lock, the targets whose gate is yet to be closed and
those whose processing has finished. -/
structure RevocationDevice where
  handle : CoreHandle
  held : Option Section
  marking : List Did
  finished : List Did

inductive RevocationOperation
  | inbound (δ : Delta) (env : InboundEnvironment)
  | initiate (targetDid managerToken : String) (now : ℤ)
  | accumulate (δ : RevocationDelta) (now : ℤ)
  | query (env : InboundEnvironment)
  | tag (env : InboundEnvironment)
  | mark (index : ℕ) (now : ℤ)

namespace RevocationDevice
variable (lib : CoreLibraries)

def start (h : CoreHandle) : RevocationDevice := ⟨h, none, [], []⟩

/-- The first sections of `initiate_revocation`; its part is accumulated later. -/
def initiate (s : RevocationDevice) (targetDid managerToken : String) (now : ℤ) :
    RevocationDevice :=
  if isBlank managerToken then s
  else if isBlank targetDid then s
  else
    let part := RevocationSubsystem.producePartialDelta lib.toIdentityLibraries targetDid
      s.handle.identity.did s.handle.identity.secretKey now
    { s with handle := { s.handle with
        transport := RevocationGossip.enqueueRevocationGossip lib.wire s.handle.transport part
          now } }

/-- The signatures are counted; a target that is revoked for the first time is recorded. While
another processing holds the lock this one waits. -/
def accumulate (s : RevocationDevice) (δ : RevocationDelta) (now : ℤ) : RevocationDevice :=
  match s.held with
  | some _ => s
  | none =>
    let out := s.handle.revocation.processIncomingDelta lib.toIdentityLibraries δ [] now
    let s := { s with handle := { s.handle with revocation := out.2.1 } }
    match out.1, out.2.2 with
    | .ok .applied, .revocationApplied targetDid complete :: _ =>
      { s with held := some (.querying targetDid complete) }
    | .ok .applied, _ => { s with marking := s.marking ++ [δ.targetDid] }
    | _, _ => s

def tagNext (s : RevocationDevice) (targetDid : Did) : List DeltaId → RevocationDevice
  | [] => { s with held := none, marking := s.marking ++ [targetDid] }
  | id :: ids => { s with held := some (.tagging targetDid (id :: ids)) }

/-- The authored Deltas are looked up and the complete message is announced. -/
def query (s : RevocationDevice) (env : InboundEnvironment) : RevocationDevice :=
  match s.held with
  | some (.querying targetDid complete) =>
    let authored := if env.authoredFault then []
      else s.handle.crdt.dag.nodesByAuthor targetDid
    let announced := s.handle.revocationEffect lib env (.revocationApplied targetDid complete)
    { s with handle := announced }.tagNext targetDid authored
  | _ => s

def tag (s : RevocationDevice) (env : InboundEnvironment) : RevocationDevice :=
  match s.held with
  | some (.tagging targetDid (id :: ids)) =>
    { s with handle := s.handle.tagRoot (env.taint id) id (.deviceRevocation id) }.tagNext
      targetDid ids
  | _ => s

/-- `mark_did_revoked`, and the I/O gate of this device when it is the target. -/
def mark (s : RevocationDevice) (index : ℕ) (now : ℤ) : RevocationDevice :=
  match s.marking[index]? with
  | some targetDid =>
    { s with
      handle := { s.handle with
        crdt := s.handle.crdt.markDidRevoked targetDid
        capability := if targetDid = s.handle.identity.did then
            s.handle.capability.applyRevocation now
          else s.handle.capability }
      marking := s.marking.eraseIdx index
      finished := s.finished ++ [targetDid] }
  | none => s

def step (s : RevocationDevice) : RevocationOperation → RevocationDevice
  | .inbound δ env => { s with handle := (s.handle.receiveDelta lib δ env).2 }
  | .initiate targetDid managerToken now => s.initiate lib targetDid managerToken now
  | .accumulate δ now => s.accumulate lib δ now
  | .query env => s.query lib env
  | .tag env => s.tag env
  | .mark index now => s.mark index now

end RevocationDevice

section Together
variable (lib : CoreLibraries)

theorem revokedDids_addSignatures (r : RevocationSubsystem) (targetDid : Did) (now : ℤ)
    (lastStatus : Option RevocationStatus) (sigs : List ManagerSignature) :
    (r.addSignatures lib.toIdentityLibraries targetDid now lastStatus sigs).2.revokedDids =
      r.revokedDids := by
  induction sigs generalizing r lastStatus with
  | nil => rfl
  | cons sig sigs ih =>
    simp only [RevocationSubsystem.addSignatures]
    split
    · exact ih _ _
    · exact ih _ _

/-- What was found in the DAG decides about the tagging only. A target is recorded once. -/
theorem processIncomingDelta_cases (r : RevocationSubsystem) (δ : RevocationDelta)
    (authored : List DeltaId) (now : ℤ) :
    let bare := r.processIncomingDelta lib.toIdentityLibraries δ [] now
    let out := r.processIncomingDelta lib.toIdentityLibraries δ authored now
    out.1 = bare.1 ∧ out.2.1 = bare.2.1 ∧
      ((bare.2.2 = [] ∧ out.2.2 = [] ∧ bare.2.1.revokedDids = r.revokedDids ∧
          (bare.1 = .ok .applied → δ.targetDid ∈ r.revokedDids)) ∨
        ∃ complete, bare.1 = .ok .applied ∧ δ.targetDid ∉ r.revokedDids ∧
          bare.2.1.revokedDids = r.revokedDids ++ [δ.targetDid] ∧
          bare.2.2 = [.revocationApplied δ.targetDid complete] ∧
          out.2.2 = .revocationApplied δ.targetDid complete ::
            if authored = [] then [] else [.cceTrigger δ.targetDid authored]) := by
  have hrevoked := revokedDids_addSignatures lib r δ.targetDid now none δ.signatures
  intro bare out
  simp only [bare, out, RevocationSubsystem.processIncomingDelta]
  by_cases hempty : δ.targetDid = ""
  · simp only [hempty, if_true]
    exact ⟨trivial, trivial, .inl ⟨trivial, trivial, trivial, fun h => by cases h⟩⟩
  by_cases hsigned : δ.signatures = []
  · simp only [if_neg hempty, if_pos hsigned]
    exact ⟨trivial, trivial, .inl ⟨trivial, trivial, trivial, fun h => by cases h⟩⟩
  simp only [if_neg hempty, if_neg hsigned]
  generalize r.addSignatures lib.toIdentityLibraries δ.targetDid now none δ.signatures = counted
    at hrevoked ⊢
  cases counted.1.or (counted.2.store.status δ.targetDid) with
  | none => exact ⟨rfl, rfl, .inl ⟨rfl, rfl, hrevoked, fun h => by cases h⟩⟩
  | some status =>
    cases status with
    | pending collected required =>
      exact ⟨rfl, rfl, .inl ⟨rfl, rfl, hrevoked, fun h => by cases h⟩⟩
    | applied =>
      by_cases hknown : δ.targetDid ∈ counted.2.revokedDids
      · simp only [if_pos hknown]
        rw [hrevoked] at hknown
        exact ⟨trivial, trivial, .inl ⟨trivial, trivial, hrevoked, fun _ => hknown⟩⟩
      · simp only [if_neg hknown]
        rw [hrevoked] at hknown
        refine ⟨trivial, trivial, .inr ⟨_, trivial, hknown, ?_, rfl, rfl⟩⟩
        rw [hrevoked]

/-- Without a holder of the lock there is nothing to tag. -/
theorem run_tags_idle (env : InboundEnvironment) (n : ℕ) {s : RevocationDevice}
    (hs : s.held = none) :
    run (RevocationDevice.step lib) s (List.replicate n (.tag env)) = s := by
  induction n with
  | zero => rfl
  | succ n ih =>
    have hidle : s.step lib (.tag env) = s := by
      simp only [RevocationDevice.step, RevocationDevice.tag, hs]
    rw [List.replicate_succ, run_cons, hidle, ih]

theorem run_tags (env : InboundEnvironment) (targetDid : Did) (ids : List DeltaId)
    (s : RevocationDevice) :
    run (RevocationDevice.step lib) (s.tagNext targetDid ids)
        (List.replicate ids.length (.tag env)) =
      { s with
        handle := ids.foldl (fun h id => h.tagRoot (env.taint id) id (.deviceRevocation id)) s.handle
        held := none
        marking := s.marking ++ [targetDid] } := by
  induction ids generalizing s with
  | nil => rfl
  | cons id ids ih =>
    simp only [List.length_cons, List.replicate_succ, run_cons]
    exact ih { s with handle := s.handle.tagRoot (env.taint id) id (.deviceRevocation id) }

/-- A processing that is not interrupted is the one of the device. -/
theorem sections_processRevocation (h : CoreHandle) (δ : RevocationDelta)
    (env : InboundEnvironment) :
    let authored := if env.authoredFault then [] else h.crdt.dag.nodesByAuthor δ.targetDid
    (run (RevocationDevice.step lib) (.start h)
      (.accumulate δ env.now :: .query env ::
        (List.replicate authored.length (.tag env) ++ [.mark 0 env.now]))).handle =
      (h.processRevocation lib δ env).2 := by
  intro authored
  obtain ⟨hstatus, hrevocation, hcases⟩ :=
    processIncomingDelta_cases lib h.revocation δ authored env.now
  rw [run_cons, run_cons, run_append]
  rcases hcases with ⟨hbare, heffects, -, -⟩ | ⟨complete, happlied, -, -, hbare, heffects⟩
  · by_cases happlied :
        (h.revocation.processIncomingDelta lib.toIdentityLibraries δ [] env.now).1 = .ok .applied
    · have hmarking : (RevocationDevice.start h).step lib (.accumulate δ env.now) =
          ⟨{ h with revocation := (h.revocation.processIncomingDelta lib.toIdentityLibraries δ []
            env.now).2.1 }, none, [δ.targetDid], []⟩ := by
        simp only [RevocationDevice.step, RevocationDevice.accumulate, RevocationDevice.start,
          happlied, hbare, List.nil_append]
      rw [hmarking]
      change ((run (RevocationDevice.step lib) _ _).step lib (.mark 0 env.now)).handle = _
      rw [run_tags_idle lib env _ rfl]
      unfold processRevocation
      dsimp only
      rw [hstatus, hrevocation, heffects, happlied]
      rfl
    · have hignored : (RevocationDevice.start h).step lib (.accumulate δ env.now) =
          .start { h with revocation := (h.revocation.processIncomingDelta lib.toIdentityLibraries δ
            [] env.now).2.1 } := by
        simp only [RevocationDevice.step, RevocationDevice.accumulate, RevocationDevice.start,
          hbare]
        split
        · rename_i heq
          cases heq
        · rename_i heq _
          exact absurd heq happlied
        · rfl
      rw [hignored]
      change ((run (RevocationDevice.step lib) _ _).step lib (.mark 0 env.now)).handle = _
      rw [run_tags_idle lib env _ rfl]
      unfold processRevocation
      dsimp only
      rw [hstatus, hrevocation, heffects]
      split
      · rename_i heq
        exact absurd heq happlied
      · rfl
  · have hholding : (RevocationDevice.start h).step lib (.accumulate δ env.now) =
        ⟨{ h with revocation := (h.revocation.processIncomingDelta lib.toIdentityLibraries δ []
          env.now).2.1 }, some (.querying δ.targetDid complete), [], []⟩ := by
      simp only [RevocationDevice.step, RevocationDevice.accumulate, RevocationDevice.start,
        happlied, hbare]
    rw [hholding]
    change ((run (RevocationDevice.step lib) (RevocationDevice.tagNext _ δ.targetDid authored)
      _).step lib (.mark 0 env.now)).handle = _
    rw [run_tags]
    unfold processRevocation
    dsimp only
    rw [hstatus, hrevocation, heffects, happlied]
    by_cases hauthored : authored = []
    · simp only [hauthored, if_true]
      rfl
    · simp only [if_neg hauthored]
      rfl

end Together

def Tainted (row : DagRow) : Prop :=
  ∃ rootId incidentId, DeltaTag.contaminated rootId incidentId ∈ row.tagsJson

/-- Every Delta of a DID whose revocation has finished is tainted, and none merges any more. -/
structure Sealed (lib : CoreLibraries) (s : RevocationDevice) : Prop where
  tainted : ∀ did ∈ s.finished, ∀ row ∈ s.handle.crdt.dag.nodes, row.authorDid = did → Tainted row
  refused : ∀ did ∈ s.finished, ∀ δ : Delta, δ.authorDid = did → ∀ now fault lamport,
    (s.handle.crdt.apply lib.toEngineLibraries .native δ now fault).1 ≠ .ok (.merged lamport)

/-- The DID is recorded as revoked and its Deltas were looked up already. -/
def Exposed (s : RevocationDevice) (did : Did) : Prop :=
  did ∈ s.handle.revocation.revokedDids ∧ ∀ complete, s.held ≠ some (.querying did complete)

/-- No new Delta of a DID merges once its Deltas were looked up; the look-up fails only while
there is nothing to find, and a root is tagged unless it is tainted already. -/
def NothingEscapes (lib : CoreLibraries) (s : RevocationDevice) : RevocationOperation → Prop
  | .inbound δ env => Exposed s δ.authorDid → Merges lib s.handle.crdt δ env.applyFault →
      δ.id ∈ s.handle.crdt.dag.ids
  | .query env => ∀ did complete, s.held = some (.querying did complete) →
      env.authoredFault = true →
        ∀ row ∈ s.handle.crdt.dag.nodes, row.authorDid = did → Tainted row
  | .tag env => ∀ did id ids, s.held = some (.tagging did (id :: ids)) →
      (env.taint id).walkFault = none ∧ (env.taint id).tagFault id = false ∨
        ∀ row ∈ s.handle.crdt.dag.nodes, row.id = id → row.authorDid = did → Tainted row
  | _ => True

theorem Tainted.extends {row row' : DagRow} (h : Tainted row) (hext : row.Extends row') :
    Tainted row' := by
  obtain ⟨rootId, incidentId, hmem⟩ := h
  exact ⟨rootId, incidentId, hext.tags.subset hmem⟩

theorem tagged_appendTag {dag : ChangesetDag} {id : DeltaId} {tag : DeltaTag} {row : DagRow}
    (hrow : row ∈ (dag.appendTag id tag).nodes) (hid : row.id = id) : tag ∈ row.tagsJson := by
  obtain ⟨before, -, rfl⟩ := List.mem_map.mp hrow
  by_cases hbefore : before.id = id
  · rw [if_pos hbefore]
    exact List.mem_append_right _ (List.mem_singleton_self tag)
  · rw [if_neg hbefore] at hid
    exact absurd hid hbefore

theorem tagged_foldl_appendTag (tag : DeltaTag) {ids : List DeltaId} {dag : ChangesetDag}
    {row : DagRow} (hrow : row ∈ (ids.foldl (fun dag id => dag.appendTag id tag) dag).nodes)
    (hid : row.id ∈ ids) : tag ∈ row.tagsJson := by
  induction ids generalizing dag with
  | nil => exact absurd hid List.not_mem_nil
  | cons id ids ih =>
    by_cases hrest : row.id ∈ ids
    · exact ih hrow hrest
    · have hfirst : row.id = id := by
        rcases List.mem_cons.mp hid with hfirst | hmem
        · exact hfirst
        · exact absurd hmem hrest
      obtain ⟨before, hbefore, hext⟩ :=
        ((dag.appendTag id tag).retags_foldl_appendTag tag ids).back row hrow
      exact hext.tags.subset (tagged_appendTag hbefore (hext.id.symm.trans hfirst))

theorem tainted_tagRoot {h : CoreHandle} {env : TaintEnvironment} {rootId : DeltaId}
    {source : TaintSource} (hwalk : env.walkFault = none) (htag : env.tagFault rootId = false)
    {row : DagRow} (hrow : row ∈ (h.tagRoot env rootId source).crdt.dag.nodes)
    (hid : row.id = rootId) : Tainted row := by
  have hmem : row.id ∈ (h.crdt.dag.bfsDescendants rootId).filter fun id => !env.tagFault id := by
    rw [hid]
    refine List.mem_filter.mpr ⟨ChangesetDag.mem_bfsDescendants_iff.mpr .refl, ?_⟩
    rw [htag]
    rfl
  have htagged : row ∈ (((h.crdt.dag.bfsDescendants rootId).filter
      fun id => !env.tagFault id).foldl
        (fun dag id => dag.appendTag id (.contaminated rootId env.icoId)) h.crdt.dag).nodes := by
    unfold CoreHandle.tagRoot ContaminationEngine.tagContaminationRoot at hrow
    rw [appendTag_clean, hwalk] at hrow
    dsimp only at hrow
    split at hrow <;> exact hrow
  exact ⟨rootId, env.icoId, tagged_foldl_appendTag _ htagged hmem⟩

def awaited (held : Option Section) (did : Did) : List DeltaId :=
  match held with
  | some (.tagging targetDid ids) => if targetDid = did then ids else []
  | _ => []

structure Covered (s : RevocationDevice) : Prop where
  recorded : ∀ did, Exposed s did → ∀ row ∈ s.handle.crdt.dag.nodes, row.authorDid = did →
    Tainted row ∨ row.id ∈ awaited s.held did
  holder : ∀ sec, s.held = some sec → sec.target ∈ s.handle.revocation.revokedDids
  processed : ∀ did, did ∈ s.marking ∨ did ∈ s.finished →
    did ∈ s.handle.revocation.revokedDids ∧ ∀ sec, s.held = some sec → sec.target ≠ did
  closed : ∀ did ∈ s.finished, did ∈ s.handle.crdt.revokedDids

section Covered
variable {lib : CoreLibraries} {s : RevocationDevice}

/-- A row of the DAG after an inbound Delta was there before, or it is a new Delta that merged. -/
theorem rows_receiveDelta {h : CoreHandle} {δ : Delta} {env : InboundEnvironment} {row' : DagRow}
    (hrow : row' ∈ (h.receiveDelta lib δ env).2.crdt.dag.nodes) :
    (∃ row ∈ h.crdt.dag.nodes, row.Extends row') ∨
      (Merges lib h.crdt δ env.applyFault ∧ δ.id ∉ h.crdt.dag.ids ∧
        row'.authorDid = δ.authorDid) := by
  rw [crdt_receiveDelta] at hrow
  by_cases hmerged : ∃ n, (h.crdt.apply lib.toEngineLibraries .native δ env.now
      env.applyFault).1 = .ok (.merged n)
  · have hmerges := (merged_iff env.now).mp hmerged
    obtain ⟨adopt, doc, -, -, happly⟩ := CrdtEngine.apply_eq_merged hmerged
    rw [happly] at hrow
    have hinsert : ∃ e : CrdtEngine, row' ∈ (h.crdt.dag.insert
        (CrdtEngine.dagNode lib.toEngineLibraries e δ)).nodes := by
      cases adopt <;> exact ⟨_, hrow⟩
    obtain ⟨e, hinsert⟩ := hinsert
    rcases ChangesetDag.mem_nodes_insert.mp hinsert with hold | ⟨hnew, rfl⟩
    · exact .inl ⟨row', hold, .refl row'⟩
    · exact .inr ⟨hmerges, hnew, rfl⟩
  · push Not at hmerged
    rw [CrdtEngine.dag_apply_of_not_merged hmerged] at hrow
    exact .inl ⟨row', hrow, .refl row'⟩

theorem revocation_receiveDelta (lib : CoreLibraries) (h : CoreHandle) (δ : Delta)
    (env : InboundEnvironment) :
    (h.receiveDelta lib δ env).2.revocation = h.revocation := by
  have hprojected : ∀ h' : CoreHandle,
      (h'.projectMerged lib δ env.storeFault).revocation = h'.revocation := by
    intro h'
    unfold projectMerged
    split <;> rfl
  simp only [receiveDelta]
  split
  · rfl
  · exact hprojected _
  · rfl
  · rfl

/-- The holder of the lock goes on with the Deltas that are left. -/
theorem Covered.tagNext {did : Did} {ids : List DeltaId}
    (hothers : ∀ other ∈ s.handle.revocation.revokedDids, other ≠ did →
      ∀ row ∈ s.handle.crdt.dag.nodes, row.authorDid = other → Tainted row)
    (hrows : ∀ row ∈ s.handle.crdt.dag.nodes, row.authorDid = did →
      Tainted row ∨ row.id ∈ ids)
    (hdid : did ∈ s.handle.revocation.revokedDids)
    (hprocessed : ∀ other, other ∈ s.marking ∨ other ∈ s.finished →
      other ∈ s.handle.revocation.revokedDids ∧ did ≠ other)
    (hclosed : ∀ other ∈ s.finished, other ∈ s.handle.crdt.revokedDids) :
    Covered (s.tagNext did ids) := by
  cases ids with
  | nil =>
    constructor
    · rintro other ⟨hother, -⟩ row hrow hauthor
      by_cases hsame : other = did
      · rw [hsame] at hauthor
        exact .inl ((hrows row hrow hauthor).resolve_right List.not_mem_nil)
      · exact .inl (hothers other hother hsame row hrow hauthor)
    · intro sec hsec
      cases hsec
    · rintro other (hmarking | hfinished)
      · refine ⟨?_, fun sec hsec => by cases hsec⟩
        rcases List.mem_append.mp hmarking with hmarking | hnew
        · exact (hprocessed other (.inl hmarking)).1
        · rw [List.mem_singleton.mp hnew]
          exact hdid
      · exact ⟨(hprocessed other (.inr hfinished)).1, fun sec hsec => by cases hsec⟩
    · exact hclosed
  | cons id ids =>
    constructor
    · rintro other ⟨hother, -⟩ row hrow hauthor
      by_cases hsame : other = did
      · subst hsame
        simpa [awaited, RevocationDevice.tagNext] using hrows row hrow hauthor
      · exact .inl (hothers other hother hsame row hrow hauthor)
    · intro sec hsec
      cases hsec
      exact hdid
    · intro other hother
      refine ⟨(hprocessed other hother).1, fun sec hsec => ?_⟩
      cases hsec
      exact (hprocessed other hother).2
    · exact hclosed

/-- Of a recorded DID that nobody holds the lock for, every Delta is tainted. -/
theorem Covered.tainted (h : Covered s) {did : Did}
    (hdid : did ∈ s.handle.revocation.revokedDids)
    (hfree : ∀ sec, s.held = some sec → sec.target ≠ did) :
    ∀ row ∈ s.handle.crdt.dag.nodes, row.authorDid = did → Tainted row := by
  intro row hrow hauthor
  have hexposed : Exposed s did := ⟨hdid, fun complete hheld => hfree _ hheld rfl⟩
  have hawaited : awaited s.held did = [] := by
    unfold awaited
    split
    · rename_i targetDid ids hheld
      exact if_neg (hfree _ hheld)
    · rfl
  rcases h.recorded did hexposed row hrow hauthor with htainted | hwaits
  · exact htainted
  · rw [hawaited] at hwaits
    exact absurd hwaits List.not_mem_nil

theorem Covered.inbound (h : Covered s) {δ : Delta} {env : InboundEnvironment}
    (hguard : NothingEscapes lib s (.inbound δ env)) : Covered (s.step lib (.inbound δ env)) := by
  have hrevocation := revocation_receiveDelta lib s.handle δ env
  have hexposed : ∀ did, Exposed (s.step lib (.inbound δ env)) did → Exposed s did := by
    rintro did ⟨hdid, hheld⟩
    refine ⟨?_, hheld⟩
    rw [← hrevocation]
    exact hdid
  constructor
  · intro did hdid row hrow hauthor
    rcases rows_receiveDelta hrow with ⟨before, hbefore, hext⟩ | ⟨hmerges, hnew, hdelta⟩
    · have hsame : before.authorDid = did := hext.authorDid.symm.trans hauthor
      rcases h.recorded did (hexposed did hdid) before hbefore hsame with htainted | hwaits
      · exact .inl (htainted.extends hext)
      · rw [hext.id]
        exact .inr hwaits
    · rw [← hauthor, hdelta] at hdid
      exact absurd (hguard (hexposed _ hdid) hmerges) hnew
  · intro sec hsec
    change sec.target ∈ (s.handle.receiveDelta lib δ env).2.revocation.revokedDids
    rw [hrevocation]
    exact h.holder sec hsec
  · intro did hdid
    change did ∈ (s.handle.receiveDelta lib δ env).2.revocation.revokedDids ∧ _
    rw [hrevocation]
    exact h.processed did hdid
  · intro did hdid
    change did ∈ (s.handle.receiveDelta lib δ env).2.crdt.revokedDids
    rw [crdt_receiveDelta, CrdtEngine.revokedDids_apply]
    exact h.closed did hdid

theorem Covered.accumulate (h : Covered s) (δ : RevocationDelta) (now : ℤ) :
    Covered (s.accumulate lib δ now) := by
  obtain ⟨-, -, hcases⟩ := processIncomingDelta_cases lib s.handle.revocation δ [] now
  unfold RevocationDevice.accumulate
  cases hheld : s.held with
  | some sec => exact h
  | none =>
    dsimp only
    have htainted : ∀ did ∈ s.handle.revocation.revokedDids,
        ∀ row ∈ s.handle.crdt.dag.nodes, row.authorDid = did → Tainted row :=
      fun did hdid => h.tainted hdid fun sec hsec => by rw [hheld] at hsec; cases hsec
    generalize s.handle.revocation.processIncomingDelta lib.toIdentityLibraries δ [] now = out
      at hcases ⊢
    obtain ⟨status, revocation, effects⟩ := out
    rcases hcases with ⟨hbare, -, hsame, hknown⟩ | ⟨complete, happlied, hnew, hrecorded, hbare, -⟩
    · dsimp only at hbare hsame hknown
      subst hbare
      have hrest : ∀ marking, (∀ did ∈ marking, did ∈ s.handle.revocation.revokedDids) →
          Covered ⟨{ s.handle with revocation := revocation }, none, marking, s.finished⟩ := by
        intro marking hmarking
        constructor
        · rintro did ⟨hdid, -⟩ row hrow hauthor
          change did ∈ revocation.revokedDids at hdid
          rw [hsame] at hdid
          exact .inl (htainted did hdid row hrow hauthor)
        · intro sec hsec
          cases hsec
        · intro did hdid
          refine ⟨?_, fun sec hsec => by cases hsec⟩
          change did ∈ revocation.revokedDids
          rw [hsame]
          rcases hdid with hdid | hdid
          · exact hmarking did hdid
          · exact (h.processed did (.inr hdid)).1
        · exact h.closed
      have hbefore : ∀ did ∈ s.marking, did ∈ s.handle.revocation.revokedDids :=
        fun did hdid => (h.processed did (.inl hdid)).1
      split
      · rename_i heq
        cases heq
      · rename_i hstatus _
        refine hrest _ fun did hdid => ?_
        rcases List.mem_append.mp hdid with hdid | hdid
        · exact hbefore did hdid
        · rw [List.mem_singleton.mp hdid]
          exact hknown hstatus
      · exact hrest _ hbefore
    · dsimp only at happlied hrecorded hbare
      subst happlied hbare
      dsimp only
      constructor
      · rintro did ⟨hdid, hfree⟩ row hrow hauthor
        change did ∈ revocation.revokedDids at hdid
        rw [hrecorded] at hdid
        rcases List.mem_append.mp hdid with hdid | hdid
        · exact .inl (htainted did hdid row hrow hauthor)
        · rw [List.mem_singleton.mp hdid] at hfree
          exact absurd rfl (hfree complete)
      · intro sec hsec
        cases hsec
        change δ.targetDid ∈ revocation.revokedDids
        rw [hrecorded]
        exact List.mem_append_right _ (List.mem_singleton_self _)
      · intro did hdid
        have hbefore := (h.processed did hdid).1
        refine ⟨?_, fun sec hsec => ?_⟩
        · change did ∈ revocation.revokedDids
          rw [hrecorded]
          exact List.mem_append_left _ hbefore
        · cases hsec
          rintro rfl
          exact hnew hbefore
      · exact h.closed

theorem Covered.query (h : Covered s) {env : InboundEnvironment}
    (hguard : NothingEscapes lib s (.query env)) : Covered (s.query lib env) := by
  unfold RevocationDevice.query
  split
  · rename_i did complete hheld
    have hdid := h.holder _ hheld
    refine Covered.tagNext ?_ ?_ hdid ?_ h.closed
    · intro other hother hne
      refine h.tainted hother fun sec hsec => ?_
      rw [hheld] at hsec
      cases hsec
      exact Ne.symm hne
    · intro row hrow hauthor
      cases hfault : env.authoredFault with
      | true => exact .inl (hguard did complete hheld hfault row hrow hauthor)
      | false =>
        refine .inr (List.mem_map_of_mem (List.mem_filter.mpr ⟨hrow, ?_⟩))
        exact decide_eq_true hauthor
    · intro other hother
      exact ⟨(h.processed other hother).1, (h.processed other hother).2 _ hheld⟩
  · exact h

theorem Covered.tag (h : Covered s) {env : InboundEnvironment}
    (hguard : NothingEscapes lib s (.tag env)) : Covered (s.tag env) := by
  unfold RevocationDevice.tag
  split
  · rename_i did id ids hheld
    have hretags := s.handle.retags_tagRoot (env.taint id) id (.deviceRevocation id)
    refine Covered.tagNext ?_ ?_ (h.holder _ hheld) ?_ h.closed
    · intro other hother hne row hrow hauthor
      obtain ⟨before, hbefore, hext⟩ := hretags.back row hrow
      refine Tainted.extends (h.tainted hother ?_ before hbefore ?_) hext
      · intro sec hsec
        rw [hheld] at hsec
        cases hsec
        exact Ne.symm hne
      · exact hext.authorDid.symm.trans hauthor
    · intro row hrow hauthor
      obtain ⟨before, hbefore, hext⟩ := hretags.back row hrow
      have hsame : before.authorDid = did := hext.authorDid.symm.trans hauthor
      have hexposed : Exposed s did :=
        ⟨h.holder _ hheld, fun complete hquerying => by rw [hheld] at hquerying; cases hquerying⟩
      rcases h.recorded did hexposed before hbefore hsame with htainted | hwaits
      · exact .inl (htainted.extends hext)
      · rw [hheld, awaited, if_pos rfl] at hwaits
        rcases List.mem_cons.mp hwaits with hid | hwaits
        · rcases hguard did id ids hheld with ⟨hwalk, htag⟩ | htainted
          · exact .inl (tainted_tagRoot hwalk htag hrow (hext.id.trans hid))
          · exact .inl ((htainted before hbefore hid hsame).extends hext)
        · rw [hext.id]
          exact .inr hwaits
    · intro other hother
      exact ⟨(h.processed other hother).1, (h.processed other hother).2 _ hheld⟩
  · exact h

theorem mem_markDidRevoked {e : CrdtEngine} {did other : Did} :
    other ∈ (e.markDidRevoked did).revokedDids ↔ other ∈ e.revokedDids ∨ other = did := by
  unfold CrdtEngine.markDidRevoked
  dsimp only
  split_ifs with hknown
  · exact ⟨.inl, fun hor => hor.elim (fun hmem => hmem) fun heq => heq ▸ hknown⟩
  · simp

theorem Covered.mark (h : Covered s) (index : ℕ) (now : ℤ) : Covered (s.mark index now) := by
  unfold RevocationDevice.mark
  split
  · rename_i did hdid
    have hmarking : did ∈ s.marking := List.mem_of_getElem? hdid
    constructor
    · exact h.recorded
    · exact h.holder
    · rintro other (hother | hother)
      · exact h.processed other (.inl (List.mem_of_mem_eraseIdx hother))
      · rcases List.mem_append.mp hother with hother | hother
        · exact h.processed other (.inr hother)
        · rw [List.mem_singleton.mp hother]
          exact h.processed did (.inl hmarking)
    · intro other hother
      rcases List.mem_append.mp hother with hother | hother
      · exact mem_markDidRevoked.mpr (.inl (h.closed other hother))
      · exact mem_markDidRevoked.mpr (.inr (List.mem_singleton.mp hother))
  · exact h

theorem Covered.step (h : Covered s) {op : RevocationOperation}
    (hguard : NothingEscapes lib s op) : Covered (s.step lib op) := by
  cases op with
  | inbound δ env => exact h.inbound hguard
  | initiate targetDid managerToken now =>
    simp only [RevocationDevice.step, RevocationDevice.initiate]
    split_ifs
    · exact h
    · exact h
    · exact ⟨h.recorded, h.holder, h.processed, h.closed⟩
  | accumulate δ now => exact h.accumulate δ now
  | query env => exact h.query hguard
  | tag env => exact h.tag hguard
  | mark index now => exact h.mark index now

theorem Covered.isSealed (h : Covered s) : Sealed lib s where
  tainted did hdid :=
    h.tainted (h.processed did (.inr hdid)).1 (h.processed did (.inr hdid)).2
  refused did hdid δ hauthor now fault lamport := by
    have hrevoked : δ.authorDid ∈ s.handle.crdt.revokedDids := by
      rw [hauthor]
      exact h.closed did hdid
    intro hmerged
    obtain ⟨adopt, doc, hgate, -, -⟩ := CrdtEngine.apply_eq_merged ⟨lamport, hmerged⟩
    simp only [CrdtEngine.gate, if_pos hrevoked] at hgate
    cases hgate

end Covered

theorem sealed_of_nothingEscapes {lib : CoreLibraries} {config : DeploymentConfig}
    {identity : Identity} {storage : Storage} {started : Bool} {h : CoreHandle}
    (hinit : init lib config identity storage started = .ok h) (ops : List RevocationOperation)
    (hguard : Guarded (RevocationDevice.step lib) (NothingEscapes lib) (.start h) ops) :
    ∀ earlier later, ops = earlier ++ later →
      Sealed lib (run (RevocationDevice.step lib) (.start h) earlier) := by
  rintro earlier later rfl
  rw [guarded_append] at hguard
  have hnone : h.revocation.revokedDids = [] := (started_of_init hinit).revocations
  have hstart : Covered (.start h) := by
    constructor
    · rintro did ⟨hdid, -⟩
      change did ∈ h.revocation.revokedDids at hdid
      rw [hnone] at hdid
      exact absurd hdid List.not_mem_nil
    · intro sec hsec
      cases hsec
    · rintro did (hdid | hdid) <;> exact absurd hdid List.not_mem_nil
    · intro did hdid
      exact absurd hdid List.not_mem_nil
  have hrun : Covered (run (RevocationDevice.step lib) (.start h) earlier) :=
    guarded_run (fun s op hop hs => hs.step hop) hguard.1 hstart
  exact hrun.isSealed

def late : Delta := ⟨7, CrdtEngine.sampleDid₂, List.replicate 64 0, 0, [], .low, [], [], 1, 5⟩

def sampleRevocation : RevocationDelta :=
  ⟨CrdtEngine.sampleDid₂, [⟨CrdtEngine.sampleDid₃, List.replicate 64 0⟩], 4⟩

/-- The look-up finds nothing, then the Delta merges, then the gate is closed. -/
def overtakenGate : List RevocationOperation :=
  [.accumulate sampleRevocation 4, .query calmInbound, .inbound late calmInbound, .mark 0 9]

theorem overtakenGate_leaves_untainted :
    let after := run (RevocationDevice.step (sampleCoreLibraries []))
      (.start (sampleHandle ⟨.empty, .empty, [], []⟩)) overtakenGate
    after.finished = [CrdtEngine.sampleDid₂] ∧
      after.handle.crdt.dag.nodes.map (fun row => (row.id, row.authorDid, row.tagsJson)) =
        [(7, CrdtEngine.sampleDid₂, [])] ∧
      ¬Sealed (sampleCoreLibraries []) after := by
  intro after
  have hfinished : after.finished = [CrdtEngine.sampleDid₂] := by decide +kernel
  have hrows : after.handle.crdt.dag.nodes.map
      (fun row => (row.id, row.authorDid, row.tagsJson)) =
        [(7, CrdtEngine.sampleDid₂, [])] := by decide +kernel
  refine ⟨hfinished, hrows, fun hsealed => ?_⟩
  have hmem : (7, CrdtEngine.sampleDid₂, []) ∈ after.handle.crdt.dag.nodes.map
      (fun row => (row.id, row.authorDid, row.tagsJson)) := by
    rw [hrows]
    exact List.mem_singleton_self _
  obtain ⟨row, hrow, hfields⟩ := List.mem_map.mp hmem
  have hauthor : row.authorDid = CrdtEngine.sampleDid₂ := congrArg (fun f => f.2.1) hfields
  have htags : row.tagsJson = [] := congrArg (fun f => f.2.2) hfields
  have hdid : CrdtEngine.sampleDid₂ ∈ after.finished := by
    rw [hfinished]
    exact List.mem_singleton_self _
  obtain ⟨rootId, incidentId, htag⟩ := hsealed.tainted _ hdid row hrow hauthor
  rw [htags] at htag
  exact absurd htag List.not_mem_nil

/-- The Delta arrives first and is found. -/
theorem sealed_of_nothingEscapes_sample :
    Sealed (sampleCoreLibraries []) (run (RevocationDevice.step (sampleCoreLibraries []))
      (.start (sampleHandle ⟨.empty, .empty, [], []⟩))
      [.inbound late calmInbound, .accumulate sampleRevocation 4, .query calmInbound,
        .tag calmInbound, .mark 0 9]) := by
  have hinit : init (sampleCoreLibraries []) sampleConfig sampleIdentity ⟨.empty, .empty, [], []⟩
      true = .ok (sampleHandle ⟨.empty, .empty, [], []⟩) := rfl
  refine sealed_of_nothingEscapes hinit [.inbound late calmInbound,
    .accumulate sampleRevocation 4, .query calmInbound, .tag calmInbound, .mark 0 9]
    ⟨?_, trivial, ?_, ?_, trivial, trivial⟩ _ [] (List.append_nil _).symm
  · rintro ⟨hdid, -⟩
    exact absurd hdid List.not_mem_nil
  · intro did complete hheld hfault
    cases hfault
  · intro did id ids hheld
    exact .inl ⟨rfl, rfl⟩

end TirBase.RevocationTaint
