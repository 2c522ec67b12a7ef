import TirBase.ApplyGate
import TirBase.EngineRuns

/-! # The log of rejected Deltas

The engine keeps the last records of what it rejected. What it keeps is told by the answers of the calls
alone: one record for every rejection, with its cause. -/
namespace TirBase.RejectionLog
open CrdtEngine EngineRuns TransitionRuns

section Logs
variable {Entry : Type*}

/-- An entry at the end; the oldest one is dropped beyond the limit. -/
def push (limit : ℕ) (log : List Entry) (entry : Entry) : List Entry :=
  let entries := log ++ [entry]
  if entries.length > limit then entries.tail else entries

/-- A log that keeps the last entries keeps the last ones after another entry. -/
theorem push_rtake (limit : ℕ) (entries : List Entry) (entry : Entry) :
    push limit (entries.rtake limit) entry = (entries ++ [entry]).rtake limit := by
  have hmove : entries.drop (entries.length - limit) ++ [entry] =
      (entries ++ [entry]).drop (entries.length - limit) :=
    (List.drop_append_of_le_length (Nat.sub_le _ _)).symm
  unfold push List.rtake
  dsimp only
  rw [hmove, List.length_drop, List.length_append, List.length_singleton]
  split_ifs with hfull
  · have hone : entries.length + 1 - limit = entries.length - limit + 1 := by omega
    rw [List.tail_drop, hone]
  · have hnone : entries.length + 1 - limit = entries.length - limit := by omega
    rw [hnone]

end Logs

variable (lib : EngineLibraries) (build : Build)

/-- Why a Delta is rejected: the first of the checks that it fails. -/
def causeOf (e : CrdtEngine) (δ : Delta) : DeltaRejectionCode :=
  if δ.authorDid ∈ e.revokedDids then .revokedAuthor
  else if δ.signature = [] then .missingSignature
  else if (lib.resolveDid δ.authorDid).isOk then .signatureVerificationFailed
  else .didResolutionFailed

/-- An operation with the record that its answer calls for. -/
def stepWithRejections (e : CrdtEngine) (op : EngineOperation) :
    CrdtEngine × List DeltaRejectionRecord :=
  (step lib build e op, match op with
    | .apply δ now fault =>
      match (e.apply lib build δ now fault).1 with
      | .ok (.rejected reason) => [⟨causeOf lib e δ, δ.authorDid, δ.id, reason, now⟩]
      | _ => []
    | _ => [])

variable {lib build} {e : CrdtEngine} {δ : Delta}

/-- A rejected Delta has a revoked author, or fails the signature checks. -/
theorem reject_cases {code : DeltaRejectionCode} {reason : String}
    (h : e.gate lib δ = .reject code reason) :
    (δ.authorDid ∈ e.revokedDids ∧ code = .revokedAuthor) ∨
      (δ.authorDid ∉ e.revokedDids ∧ ∃ adopt, signatureGate lib δ adopt = .reject code reason) := by
  unfold gate at h
  split_ifs at h with hrevoked
  · cases h
    exact .inl ⟨hrevoked, rfl⟩
  · refine .inr ⟨hrevoked, ?_⟩
    split at h
    · exact ⟨_, h⟩
    · exact ⟨_, h⟩
    · cases h
    · cases h

theorem causeOf_of_reject {code : DeltaRejectionCode} {reason : String}
    (h : e.gate lib δ = .reject code reason) : code = causeOf lib e δ := by
  unfold causeOf
  rcases reject_cases h with ⟨hrevoked, hcode⟩ | ⟨hfree, adopt, hgate⟩
  · rw [if_pos hrevoked]
    exact hcode
  · rw [if_neg hfree]
    unfold signatureGate at hgate
    by_cases hunsigned : δ.signature = []
    · rw [if_pos hunsigned] at hgate ⊢
      cases hgate
      rfl
    · rw [if_neg hunsigned] at hgate ⊢
      cases hkey : lib.resolveDid δ.authorDid with
      | error err =>
        rw [hkey] at hgate
        cases hgate
        rfl
      | ok publicKey =>
        rw [hkey] at hgate
        dsimp only at hgate
        split at hgate
        · cases hgate
          rfl
        · cases hgate

theorem rejectionRecords_produceDeltaWithTags (bytes : Bytes) (priority : PriorityClass)
    (parents : List DeltaId) (tags : List DeltaTag) (env : ProduceEnvironment) :
    (e.produceDeltaWithTags lib build bytes priority parents tags env).2.rejectionRecords =
      e.rejectionRecords := by
  rcases produceDeltaWithTags_cases build e bytes priority parents tags env with
    ⟨err, hproduce⟩ | ⟨parents', hproduce⟩
  · rw [hproduce]
  · rw [hproduce]
    cases build <;> rfl

theorem rejectionRecords_apply (now : ℤ) (fault : DagFault) :
    (e.apply lib build δ now fault).2.rejectionRecords =
      match (e.apply lib build δ now fault).1 with
      | .ok (.rejected reason) => push maxRejectionRecords e.rejectionRecords
          ⟨causeOf lib e δ, δ.authorDid, δ.id, reason, now⟩
      | _ => e.rejectionRecords := by
  cases hgate : e.gate lib δ with
  | reject code reason =>
    simp only [CrdtEngine.apply, hgate]
    rw [← causeOf_of_reject hgate]
    rfl
  | quarantine reason => simp only [CrdtEngine.apply, hgate]
  | pass adopt =>
    simp only [CrdtEngine.apply, hgate]
    split
    · cases adopt <;> rfl
    · cases build with
      | wasm => cases adopt <;> rfl
      | native => cases fault <;> cases adopt <;> rfl

/-- An operation appends the record that its answer calls for, and no other. -/
theorem rejectionRecords_step (op : EngineOperation) :
    (step lib build e op).rejectionRecords =
      run (push maxRejectionRecords) e.rejectionRecords (stepWithRejections lib build e op).2 := by
  cases op with
  | apply δ now fault =>
    refine (rejectionRecords_apply now fault).trans ?_
    simp only [stepWithRejections]
    split <;> rfl
  | produceDeltaWithTags bytes priority parents tags env =>
    exact rejectionRecords_produceDeltaWithTags bytes priority parents tags env
  | writeScalar table key value =>
    obtain ⟨doc, hwrite⟩ := writeScalar_engine lib e table key value
    rw [step, hwrite]
    rfl
  | registerSchemaDefinition expectedHash computed schema =>
    simp only [step, registerSchemaDefinition]
    split_ifs <;> rfl
  | maybeCompact policy fault =>
    obtain ⟨doc, dag, hcompact⟩ := maybeCompact_engine lib e policy fault
    rw [step, hcompact]
    rfl
  | _ => rfl

theorem run_push_rtake (limit : ℕ) {Entry : Type*} (before entries : List Entry) :
    run (push limit) (before.rtake limit) entries = (before ++ entries).rtake limit := by
  induction entries generalizing before with
  | nil => rw [List.append_nil]; rfl
  | cons entry entries ih => rw [run_cons, push_rtake, ih, List.append_assoc]; rfl

theorem rejectionRecords_run (ops : List EngineOperation) :
    (run (step lib build) e ops).rejectionRecords = run (push maxRejectionRecords)
      e.rejectionRecords (emitted (stepWithRejections lib build) e ops) := by
  induction ops generalizing e with
  | nil => rfl
  | cons op ops ih =>
    rw [run_cons, ih, rejectionRecords_step, emitted_cons, run_append]
    rfl

/-- An engine keeps the records of its last rejections, in order: every rejected Delta has left one,
with the first check that it failed, and nothing else leaves any. -/
theorem retained_rejections (lib : EngineLibraries) (build : Build)
    (secretKey publicKey : KeyBytes) (authorDid : Did) (schemaHash : SchemaIdentifierHash)
    (dag : ChangesetDag) (ops : List EngineOperation) :
    let e := CrdtEngine.new secretKey publicKey authorDid schemaHash dag
    (run (step lib build) e ops).rejectionRecords =
      (emitted (stepWithRejections lib build) e ops).rtake maxRejectionRecords := by
  intro e
  rw [rejectionRecords_run]
  exact run_push_rtake maxRejectionRecords [] _

end TirBase.RejectionLog
