import TirBase.CloudLedger
import TirBase.ReceiptSoundness

/-! # What an acknowledgement of the Cloud Ledger attests

The ledger answers for identifiers. An acknowledgement is sound when its DAG holds, under the
identifier, a signed Delta whose canonical bytes hash to it. -/
namespace TirBase.LedgerAcks
open ReceiptSoundness TransitionRuns

variable (lib : CoreLibraries)

inductive LedgerOp
  | receiveDelta (δ : Delta) (now : ℤ) (fault : DagFault)
  | addKnownSchema (hash : SchemaIdentifierHash)

def step (l : CloudLedger) : LedgerOp → CloudLedger
  | .receiveDelta δ now fault => (l.receiveDelta lib.toEngineLibraries δ now fault).2
  | .addKnownSchema hash => l.addKnownSchema hash

/-- The identifier for which the ledger answers that it is committed, now or already. -/
def acknowledged (l : CloudLedger) : LedgerOp → Option DeltaId
  | .receiveDelta δ now fault =>
    match (l.receiveDelta lib.toEngineLibraries δ now fault).1 with
    | .ok .committed => some δ.id
    | .ok .alreadyCommitted => some δ.id
    | _ => none
  | .addKnownSchema _ => none

/-- A Delta under an identifier that is not committed is not quarantined, and if it merges, then
under its own hash. -/
def CommitsUnderOwnHash (l : CloudLedger) : LedgerOp → Prop
  | .receiveDelta δ _ fault => δ.id ∉ l.committed →
      (∀ reason, l.engine.gate lib.toEngineLibraries δ ≠ .quarantine reason) ∧
        (Merges lib l.engine δ fault → lib.computeId (lib.canonicalBytes δ) = δ.id)
  | .addKnownSchema _ => True

variable {lib} {l : CloudLedger} {δ : Delta} {now : ℤ} {fault : DagFault}

/-- What the ledger does with a Delta: it knows the identifier, it commits what its engine merges or
quarantines, or it acknowledges nothing. -/
inductive Submission (lib : CoreLibraries) (l : CloudLedger) (δ : Delta) (now : ℤ)
    (fault : DagFault) : Prop
  | known (committed : δ.id ∈ l.committed)
      (ack : acknowledged lib l (.receiveDelta δ now fault) = some δ.id)
      (after : step lib l (.receiveDelta δ now fault) = l)
  | merged (fresh : δ.id ∉ l.committed) (merges : Merges lib l.engine δ fault)
      (ack : acknowledged lib l (.receiveDelta δ now fault) = some δ.id)
      (after : step lib l (.receiveDelta δ now fault) = { l with
        engine := (l.engine.apply lib.toEngineLibraries .native δ now fault).2
        committed := l.committed ++ [δ.id] })
  | quarantined (fresh : δ.id ∉ l.committed) (reason : QuarantineReason)
      (gate : l.engine.gate lib.toEngineLibraries δ = .quarantine reason)
      (ack : acknowledged lib l (.receiveDelta δ now fault) = some δ.id)
      (after : step lib l (.receiveDelta δ now fault) =
        { l with committed := l.committed ++ [δ.id] })
  | refused (fresh : δ.id ∉ l.committed) (unmerged : ¬Merges lib l.engine δ fault)
      (ungated : ∀ reason, l.engine.gate lib.toEngineLibraries δ ≠ .quarantine reason)
      (ack : acknowledged lib l (.receiveDelta δ now fault) = none)
      (committed : (step lib l (.receiveDelta δ now fault)).committed = l.committed)
      (dag : (step lib l (.receiveDelta δ now fault)).engine.dag = l.engine.dag)

theorem gate_of_quarantined {e : CrdtEngine} {reason : QuarantineReason}
    (h : (e.apply lib.toEngineLibraries .native δ now fault).1 = .ok (.quarantined reason)) :
    e.gate lib.toEngineLibraries δ = .quarantine reason := by
  cases hgate : e.gate lib.toEngineLibraries δ with
  | quarantine reason' =>
    simp only [CrdtEngine.apply, hgate, Except.ok.injEq, MergeOutcome.quarantined.injEq] at h
    rw [h]
  | reject code reason' => simp [CrdtEngine.apply, hgate] at h
  | pass adopt =>
    cases hmerge : e.mergePayload lib.toEngineLibraries δ with
    | none =>
      have hsame : (if adopt then e.addKnownSchema δ.schemaHash else e).mergePayload
          lib.toEngineLibraries δ = none := by cases adopt <;> exact hmerge
      simp [CrdtEngine.apply, hgate, hsame] at h
    | some doc =>
      rcases CrdtEngine.apply_of_pass hgate hmerge .native now fault with
        ⟨err, -, -, happly⟩ | happly
      · rw [happly] at h
        cases h
      · rw [happly] at h
        cases h

theorem submission_of_not_quarantined (hnew : δ.id ∉ l.committed)
    (hgate : ∀ reason, l.engine.gate lib.toEngineLibraries δ ≠ .quarantine reason) (now : ℤ)
    (fault : DagFault) : Submission lib l δ now fault := by
  have hmerges : (∃ n, (l.engine.apply lib.toEngineLibraries .native δ now fault).1 =
      .ok (.merged n)) ↔ Merges lib l.engine δ fault := merged_iff now
  by_cases hmerged : ∃ n, (l.engine.apply lib.toEngineLibraries .native δ now fault).1 =
      .ok (.merged n)
  · obtain ⟨n, hout⟩ := hmerged
    have hmerge := hmerges.mp ⟨n, hout⟩
    refine .merged hnew hmerge ?_ ?_
    · simp only [acknowledged, CloudLedger.receiveDelta, if_neg hnew, hout]
    · simp only [step, CloudLedger.receiveDelta, if_neg hnew, hout]
  · have hnot : ¬Merges lib l.engine δ fault := fun h => hmerged (hmerges.mpr h)
    have hdag := CrdtEngine.dag_apply_of_not_merged (not_exists.mp hmerged)
    cases hout : (l.engine.apply lib.toEngineLibraries .native δ now fault).1 with
    | error e =>
      refine .refused hnew hnot hgate ?_ ?_ ?_
      · simp only [acknowledged, CloudLedger.receiveDelta, if_neg hnew, hout]
      · simp only [step, CloudLedger.receiveDelta, if_neg hnew, hout]
      · simpa only [step, CloudLedger.receiveDelta, if_neg hnew, hout] using hdag
    | ok outcome =>
      cases outcome with
      | merged n => exact absurd ⟨n, hout⟩ hmerged
      | quarantined reason => exact absurd (gate_of_quarantined hout) (hgate reason)
      | rejected reason =>
        refine .refused hnew hnot hgate ?_ ?_ ?_
        · simp only [acknowledged, CloudLedger.receiveDelta, if_neg hnew, hout]
        · simp only [step, CloudLedger.receiveDelta, if_neg hnew, hout]
        · simpa only [step, CloudLedger.receiveDelta, if_neg hnew, hout] using hdag

theorem submission (lib : CoreLibraries) (l : CloudLedger) (δ : Delta) (now : ℤ)
    (fault : DagFault) : Submission lib l δ now fault := by
  by_cases hknown : δ.id ∈ l.committed
  · have hreceive : l.receiveDelta lib.toEngineLibraries δ now fault = (.ok .alreadyCommitted, l) :=
      CloudLedger.receiveDelta_of_committed hknown now fault
    refine .known hknown ?_ ?_
    · simp only [acknowledged, hreceive]
    · simp only [step, hreceive]
  · cases hgate : l.engine.gate lib.toEngineLibraries δ with
    | quarantine reason =>
      have hreceive := CloudLedger.receiveDelta_of_quarantine hknown hgate now fault
      refine .quarantined hknown reason hgate ?_ ?_
      · simp only [acknowledged, hreceive]
      · simp only [step, hreceive]
    | reject code reason => exact submission_of_not_quarantined hknown (by simp [hgate]) now fault
    | pass adopt => exact submission_of_not_quarantined hknown (by simp [hgate]) now fault

def Recorded (l : CloudLedger) : Prop := ∀ id ∈ l.engine.dag.ids, id ∈ l.committed

def Sound (lib : CoreLibraries) (l : CloudLedger) : Prop :=
  ∀ id ∈ l.committed, Attests lib l.engine.dag id

theorem mem_ids_of_attests {dag : ChangesetDag} {id : DeltaId} (h : Attests lib dag id) :
    id ∈ dag.ids := by
  obtain ⟨row, hrow, hid, -⟩ := h
  exact List.mem_map.mpr ⟨row, hrow, hid⟩

theorem ids_apply {e : CrdtEngine} {id : DeltaId}
    (h : id ∈ (e.apply lib.toEngineLibraries .native δ now fault).2.dag.ids) :
    id ∈ e.dag.ids ∨ id = δ.id := by
  by_cases hmerged : ∃ n, (e.apply lib.toEngineLibraries .native δ now fault).1 = .ok (.merged n)
  · obtain ⟨adopt, doc, -, -, happly⟩ := CrdtEngine.apply_eq_merged hmerged
    obtain ⟨node, hdag, hid⟩ : ∃ node : DagNode,
        (e.apply lib.toEngineLibraries .native δ now fault).2.dag = e.dag.insert node ∧
          node.deltaId = δ.id := by
      rw [happly]
      cases adopt <;> exact ⟨_, rfl, rfl⟩
    rw [hdag] at h
    obtain ⟨row, hrow, rfl⟩ := List.mem_map.mp h
    rcases ChangesetDag.mem_nodes_insert.mp hrow with hrow | ⟨-, rfl⟩
    · exact .inl (List.mem_map.mpr ⟨row, hrow, rfl⟩)
    · exact .inr hid
  · rw [CrdtEngine.dag_apply_of_not_merged (not_exists.mp hmerged)] at h
    exact .inl h

theorem extends_step (l : CloudLedger) (op : LedgerOp) :
    l.engine.dag.Extends (step lib l op).engine.dag := by
  cases op with
  | addKnownSchema hash => exact .refl _
  | receiveDelta δ now fault =>
    cases submission lib l δ now fault with
    | known committed ack after =>
      rw [after]
      exact .refl _
    | merged fresh merges ack after =>
      rw [after]
      exact CrdtEngine.extends_apply .native l.engine δ now fault
    | quarantined fresh reason gate ack after =>
      rw [after]
      exact .refl _
    | refused fresh unmerged ungated ack committed dag =>
      rw [dag]
      exact .refl _

theorem recorded_step (op : LedgerOp) (h : Recorded l) : Recorded (step lib l op) := by
  cases op with
  | addKnownSchema hash => exact h
  | receiveDelta δ now fault =>
    cases submission lib l δ now fault with
    | known committed ack after =>
      rw [after]
      exact h
    | merged fresh merges ack after =>
      rw [after]
      intro id hid
      rw [List.mem_append, List.mem_singleton]
      exact (ids_apply hid).imp_left (h id)
    | quarantined fresh reason gate ack after =>
      rw [after]
      exact fun id hid => List.mem_append_left _ (h id hid)
    | refused fresh unmerged ungated ack committed dag =>
      unfold Recorded
      rw [dag, committed]
      exact h

theorem mem_committed_step (op : LedgerOp) {id : DeltaId}
    (h : id ∈ l.committed ∨ acknowledged lib l op = some id) : id ∈ (step lib l op).committed := by
  cases op with
  | addKnownSchema hash => exact h.resolve_right (by simp [acknowledged])
  | receiveDelta δ now fault =>
    cases submission lib l δ now fault with
    | known committed ack after =>
      rw [ack, Option.some.injEq] at h
      rw [after]
      exact h.elim (fun hmem => hmem) fun hid => hid ▸ committed
    | merged fresh merges ack after | quarantined fresh reason gate ack after =>
      rw [ack, Option.some.injEq] at h
      rw [after, List.mem_append, List.mem_singleton]
      exact h.imp_right Eq.symm
    | refused fresh unmerged ungated ack committed dag =>
      rw [ack] at h
      rw [committed]
      exact h.resolve_right (by simp)

theorem mem_committed_run (ops : List LedgerOp) {id : DeltaId} (h : id ∈ l.committed) :
    id ∈ (run (step lib) l ops).committed := by
  have hstep : ∀ (l : CloudLedger) (op : LedgerOp), id ∈ l.committed →
      id ∈ (step lib l op).committed := fun _ op hl => mem_committed_step op (.inl hl)
  exact invariant_run hstep ops h

def ReadsBack (lib : CoreLibraries) (op : LedgerOp) : Prop :=
  ∀ δ now fault, op = .receiveDelta δ now fault → lib.parseDelta (lib.serialiseDelta δ) = .ok δ

/-- A submission keeps the ledger sound if what is new is committed under its own hash. -/
theorem sound_step {op : LedgerOp} (hserde : ReadsBack lib op) (hrecorded : Recorded l)
    (hguard : CommitsUnderOwnHash lib l op) (h : Sound lib l) : Sound lib (step lib l op) := by
  have hkept : ∀ id ∈ l.committed, Attests lib (step lib l op).engine.dag id :=
    fun id hid => (h id hid).extends (extends_step l op)
  cases op with
  | addKnownSchema hash => exact h
  | receiveDelta δ now fault =>
    cases submission lib l δ now fault with
    | known committed ack after =>
      rw [after]
      exact h
    | merged fresh merges ack after =>
      have hfree : δ.id ∉ l.engine.dag.ids := fun hmem => fresh (hrecorded δ.id hmem)
      have hattests : Attests lib
          (l.engine.apply lib.toEngineLibraries .native δ now fault).2.dag δ.id :=
        (attests_apply_iff (hserde δ now fault rfl) merges).mpr
          (.inr ⟨hfree, (hguard fresh).2 merges⟩)
      rw [after] at hkept ⊢
      intro id hid
      rcases List.mem_append.mp hid with hid | hid
      · exact hkept id hid
      · exact List.mem_singleton.mp hid ▸ hattests
    | quarantined fresh reason gate ack after => exact absurd gate ((hguard fresh).1 reason)
    | refused fresh unmerged ungated ack committed dag =>
      intro id hid
      rw [committed] at hid
      exact hkept id hid

theorem sound_run {ops : List LedgerOp} (hserde : ∀ op ∈ ops, ReadsBack lib op)
    (hrecorded : Recorded l) (hguard : Guarded (step lib) (CommitsUnderOwnHash lib) l ops)
    (h : Sound lib l) : Sound lib (run (step lib) l ops) := by
  induction ops generalizing l with
  | nil => exact h
  | cons op ops ih =>
    have hop := hserde op List.mem_cons_self
    exact ih (fun o ho => hserde o (List.mem_cons_of_mem op ho)) (recorded_step op hrecorded)
      hguard.2 (sound_step hop hrecorded hguard.1 h)

/-- In a run from an empty ledger every acknowledgement is sound, when it is given and ever after,
exactly when whatever is new is neither quarantined nor merged under the hash of another Delta. -/
theorem acknowledgements_attested_iff (lib : CoreLibraries) (secretKey publicKey : KeyBytes)
    (authorDid : Did) (schemaHash : SchemaIdentifierHash) (ops : List LedgerOp)
    (hserde : ∀ op ∈ ops, ReadsBack lib op) :
    let start := CloudLedger.newInMemory secretKey publicKey authorDid schemaHash
    (∀ earlier op later rest id, ops = earlier ++ op :: (later ++ rest) →
      acknowledged lib (run (step lib) start earlier) op = some id →
      Attests lib (run (step lib) start (earlier ++ op :: later)).engine.dag id) ↔
      Guarded (step lib) (CommitsUnderOwnHash lib) start ops := by
  intro start
  have hstart : Recorded start := fun id hid => absurd hid List.not_mem_nil
  constructor
  · intro hsound
    rw [guarded_iff_splits]
    intro earlier op rest hsplit
    have hrecorded : Recorded (run (step lib) start earlier) :=
      invariant_run (fun l op hl => recorded_step op hl) earlier hstart
    cases op with
    | addKnownSchema hash => trivial
    | receiveDelta δ now fault =>
      intro hnew
      have hfree : ¬Attests lib (run (step lib) start earlier).engine.dag δ.id :=
        fun hattests => hnew (hrecorded δ.id (mem_ids_of_attests hattests))
      have hack := hsound earlier (.receiveDelta δ now fault) [] rest δ.id hsplit
      rw [run_append, run_cons, run_nil] at hack
      cases submission lib (run (step lib) start earlier) δ now fault with
      | known committed ack after => exact absurd committed hnew
      | merged fresh merges ack after =>
        have hattests := hack ack
        rw [after, attests_apply_iff (hserde _ (by simp [hsplit]) δ now fault rfl) merges]
          at hattests
        refine ⟨fun reason hgate => ?_, fun _ => (hattests.resolve_left hfree).2⟩
        obtain ⟨adopt, hpass⟩ := merges.passes
        rw [hpass] at hgate
        cases hgate
      | quarantined fresh reason gate ack after =>
        have hattests := hack ack
        rw [after] at hattests
        exact absurd hattests hfree
      | refused fresh unmerged ungated ack committed dag =>
        exact ⟨ungated, fun merges => absurd merges unmerged⟩
  · rintro hguard earlier op later rest id rfl hack
    have hends : earlier ++ op :: (later ++ rest) = (earlier ++ op :: later) ++ rest := by simp
    rw [hends] at hserde hguard
    have hsound := sound_run (fun o ho => hserde o (List.mem_append_left _ ho)) hstart
      ((guarded_append _ _ _ _ _).mp hguard).1 fun id hid => absurd hid List.not_mem_nil
    refine hsound id ?_
    rw [run_append, run_cons]
    exact mem_committed_run later (mem_committed_step op (.inr hack))

section Sample

def sampleLedger : CloudLedger :=
  .newInMemory ⟨List.replicate 32 1, by simp⟩ ⟨List.replicate 32 1, by simp⟩ CrdtEngine.sampleDid₂ 0

/-- Without a signature, under a schema that nobody knows and the identifier of the genuine Delta. -/
def unknownSchema : Delta := { forged with schemaHash := 9, signature := [] }

/-- The ledger acknowledges the unsigned Delta and then the genuine one, and stores neither. -/
theorem quarantined_for_genuine :
    let after := run (step sampleStored) sampleLedger
    let first : LedgerOp := .receiveDelta unknownSchema 0 none
    let second : LedgerOp := .receiveDelta genuine 0 none
    sampleStored.computeId (sampleStored.canonicalBytes genuine) = genuine.id ∧
      acknowledged sampleStored sampleLedger first = some genuine.id ∧
      acknowledged sampleStored (after [first]) second = some genuine.id ∧
      (after [first, second]).engine.dag.nodes = [] ∧
      ¬Attests sampleStored (after [first, second]).engine.dag genuine.id := by
  intro after first second
  have hempty : (after [first, second]).engine.dag.nodes = [] := by decide +kernel
  refine ⟨by decide +kernel, by decide +kernel, by decide +kernel, hempty, ?_⟩
  rintro ⟨row, hrow, -⟩
  rw [hempty] at hrow
  cases hrow

theorem acknowledgements_attested_iff_sample :
    let ops : List LedgerOp := [.receiveDelta genuine 0 none]
    (∀ earlier op later rest id, ops = earlier ++ op :: (later ++ rest) →
      acknowledged sampleStored (run (step sampleStored) sampleLedger earlier) op = some id →
      Attests sampleStored
        (run (step sampleStored) sampleLedger (earlier ++ op :: later)).engine.dag id) ↔
      Guarded (step sampleStored) (CommitsUnderOwnHash sampleStored) sampleLedger ops :=
  acknowledgements_attested_iff sampleStored _ _ _ _ [.receiveDelta genuine 0 none] (by
    intro op hop δ now fault hδ
    rw [List.mem_singleton.mp hop] at hδ
    cases hδ
    rfl)

end Sample

end TirBase.LedgerAcks
