import TirBase.EngineRuns
import TirBase.SchemaExtension

/-! # What an incoming Delta may change

A revoked author changes nothing for good, a merge needs an authorised Delta, and a Delta that is
not merged should leave the engine as it was. -/
namespace TirBase.ApplyGate
open CrdtEngine EngineRuns SchemaExtension TransitionRuns

variable (lib : EngineLibraries)

/-- The document, the clock, the known schemas and the DAG are the same. -/
structure Untouched (e e' : CrdtEngine) : Prop where
  doc : e'.doc = e.doc
  lamport : e'.lamport = e.lamport
  knownSchemas : e'.knownSchemas = e.knownSchemas
  dag : e'.dag = e.dag

/-- The author is not revoked, the schema is known or extends the current one, and the signature
verifies under the key of the author. -/
structure Authorised (e : CrdtEngine) (δ : Delta) : Prop where
  notRevoked : δ.authorDid ∉ e.revokedDids
  schema : δ.schemaHash ∈ e.knownSchemas ∨
    ∃ current incoming, e.schemaDefinitions.lookup e.knownSchemaHash = some current ∧
      e.schemaDefinitions.lookup δ.schemaHash = some incoming ∧ AdditiveExtension current incoming
  verified : ∃ publicKey, lib.resolveDid δ.authorDid = .ok publicKey ∧
    lib.verify publicKey (lib.canonicalBytes δ) δ.signature = .ok ()

variable {lib} {build : Build} {e : CrdtEngine} {δ : Delta}

theorem signatureGate_pass {adopt adopt' : Bool} (h : signatureGate lib δ adopt = .pass adopt') :
    adopt' = adopt ∧ ∃ publicKey, lib.resolveDid δ.authorDid = .ok publicKey ∧
      lib.verify publicKey (lib.canonicalBytes δ) δ.signature = .ok () := by
  unfold signatureGate at h
  split_ifs at h
  split at h
  · cases h
  · rename_i publicKey hresolve
    split at h
    · cases h
    · rename_i hverify
      cases h
      exact ⟨rfl, publicKey, hresolve, hverify⟩

theorem additive_of_classify {hash : SchemaIdentifierHash} {diff : SchemaDiff}
    (h : e.classifyIncomingSchema hash = .additive diff) :
    hash ∉ e.knownSchemas ∧
      ∃ current incoming, e.schemaDefinitions.lookup e.knownSchemaHash = some current ∧
        e.schemaDefinitions.lookup hash = some incoming ∧ AdditiveExtension current incoming := by
  unfold classifyIncomingSchema at h
  split_ifs at h with hknown
  refine ⟨hknown, ?_⟩
  split at h
  · rename_i current incoming hcurrent hincoming
    dsimp only at h
    split_ifs at h with hadditive
    exact ⟨current, incoming, hcurrent, hincoming, isAdditive_iff.mp hadditive⟩
  · cases h

theorem gate_pass {adopt : Bool} (h : e.gate lib δ = .pass adopt) :
    Authorised lib e δ ∧ (adopt = true ↔ δ.schemaHash ∉ e.knownSchemas) := by
  unfold gate at h
  split_ifs at h with hrevoked
  split at h
  · rename_i hclass
    obtain ⟨rfl, hverified⟩ := signatureGate_pass h
    have hknown : δ.schemaHash ∈ e.knownSchemas := by
      unfold classifyIncomingSchema at hclass
      split_ifs at hclass with hknown
      · exact hknown
      · split at hclass
        · dsimp only at hclass
          split_ifs at hclass
        · cases hclass
    exact ⟨⟨hrevoked, .inl hknown, hverified⟩, by simp [hknown]⟩
  · rename_i diff hclass
    obtain ⟨rfl, hverified⟩ := signatureGate_pass h
    obtain ⟨hnew, hadditive⟩ := additive_of_classify hclass
    exact ⟨⟨hrevoked, .inr hadditive, hverified⟩, by simp [hnew]⟩
  · cases h
  · cases h

theorem untouched_of_revoked (hrevoked : δ.authorDid ∈ e.revokedDids) (now : ℤ)
    (fault : DagFault) : Untouched e (e.apply lib build δ now fault).2 := by
  have hgate : ∃ code reason, e.gate lib δ = .reject code reason := by
    unfold gate
    rw [if_pos hrevoked]
    exact ⟨_, _, rfl⟩
  obtain ⟨code, reason, hgate⟩ := hgate
  simp only [CrdtEngine.apply, hgate]
  exact ⟨rfl, rfl, rfl, rfl⟩

theorem mem_revokedDids_step {did : Did} (h : did ∈ e.revokedDids) (op : EngineOperation) :
    did ∈ (step lib build e op).revokedDids := by
  cases op with
  | apply δ now fault =>
    rw [step, revokedDids_apply]
    exact h
  | produceDeltaWithTags bytes priority causalParents tags env =>
    rcases produceDeltaWithTags_cases build e bytes priority causalParents tags env with
      ⟨err, hproduce⟩ | ⟨parents, hproduce⟩
    · rw [step, hproduce]
      exact h
    · rw [step, hproduce]
      cases build <;> exact h
  | writeScalar table key value =>
    obtain ⟨doc, hwrite⟩ := writeScalar_engine lib e table key value
    rw [step, hwrite]
    exact h
  | markDidRevoked did' =>
    simp only [step, markDidRevoked]
    split_ifs
    · exact h
    · exact List.mem_append_left _ h
  | addKnownSchema hash => exact h
  | setCurrentSchema hash => exact h
  | registerSchemaDefinition expectedHash computed schema =>
    simp only [step, registerSchemaDefinition]
    split_ifs <;> exact h
  | maybeCompact policy fault =>
    obtain ⟨doc, dag, hcompact⟩ := maybeCompact_engine lib e policy fault
    rw [step, hcompact]
    exact h

theorem mem_revokedDids_markDidRevoked (e : CrdtEngine) (did : Did) :
    did ∈ (e.markDidRevoked did).revokedDids := by
  unfold markDidRevoked
  dsimp only
  split_ifs with h
  · exact h
  · exact List.mem_append_right _ List.mem_cons_self

/-- In every run a revoked author changes nothing from the revocation on, and a merge is answered
only for an authorised Delta. -/
theorem revoked_changes_nothing (lib : EngineLibraries) (build : Build) (e : CrdtEngine)
    (earlier later : List EngineOperation) (did : Did) (δ : Delta) (now : ℤ) (fault : DagFault) :
    let s := run (step lib build) e (earlier ++ .markDidRevoked did :: later)
    (δ.authorDid = did → Untouched s (s.apply lib build δ now fault).2) ∧
      ((∃ n, (s.apply lib build δ now fault).1 = .ok (.merged n)) → Authorised lib s δ) := by
  intro s
  constructor
  · rintro rfl
    have hmarked : δ.authorDid ∈
        (run (step lib build) e (earlier ++ [.markDidRevoked δ.authorDid])).revokedDids := by
      rw [run_append]
      exact mem_revokedDids_markDidRevoked _ _
    have hrevoked : δ.authorDid ∈ s.revokedDids := by
      have hsplit : s = run (step lib build)
          (run (step lib build) e (earlier ++ [.markDidRevoked δ.authorDid])) later := by
        rw [← run_append, List.append_assoc]
        rfl
      have hstep : ∀ (s : CrdtEngine) (op : EngineOperation), δ.authorDid ∈ s.revokedDids →
          δ.authorDid ∈ (step lib build s op).revokedDids :=
        fun s op h => mem_revokedDids_step h op
      rw [hsplit]
      exact invariant_run hstep later hmarked
    exact untouched_of_revoked hrevoked now fault
  · intro hmerged
    obtain ⟨adopt, doc, hgate, -, -⟩ := apply_eq_merged hmerged
    exact (gate_pass hgate).1

def gateDelta (author : Did) : Delta := ⟨7, author, List.replicate 64 0, 0, [], .low, [], [], 4, 0⟩

/-- One author is revoked; his Delta is refused and another one's merges. -/
theorem revoked_changes_nothing_sample :
    let e := CrdtEngine.new (sampleKey 1) (sampleKey 1) sampleDid₁ 0 .empty
    let s := run (step (sampleLibraries []) .native) e [.markDidRevoked sampleDid₂]
    Untouched s (s.apply (sampleLibraries []) .native (gateDelta sampleDid₂) 0 none).2 ∧
      (s.apply (sampleLibraries []) .native (gateDelta sampleDid₃) 0 none).1 = .ok (.merged 5) ∧
      Authorised (sampleLibraries []) s (gateDelta sampleDid₃) := by
  intro e s
  have hmerged : (s.apply (sampleLibraries []) .native (gateDelta sampleDid₃) 0 none).1 =
      .ok (.merged 5) := by decide +kernel
  have hrefused := revoked_changes_nothing (sampleLibraries []) .native e [] [] sampleDid₂
    (gateDelta sampleDid₂) 0 none
  have hauthorised := revoked_changes_nothing (sampleLibraries []) .native e [] [] sampleDid₂
    (gateDelta sampleDid₃) 0 none
  exact ⟨hrefused.1 rfl, hmerged, hauthorised.2 ⟨5, hmerged⟩⟩

/-- The document, its open transaction closed, the clock, the known schemas and the DAG are the
same. -/
structure Unchanged (e e' : CrdtEngine) : Prop where
  doc : e'.doc.commit = e.doc.commit
  lamport : e'.lamport = e.lamport
  knownSchemas : e'.knownSchemas = e.knownSchemas
  dag : e'.dag = e.dag

theorem Unchanged.refl (e : CrdtEngine) : Unchanged e e := ⟨rfl, rfl, rfl, rfl⟩

def greatestLamport : UInt64 := 18446744073709551615

/-- Nothing fails after an earlier stage has taken effect: when the payload does not merge, the
schema was known and the failing merge left the document alone; when it merges, the node is stored.
A fault behind it goes unseen only when the merge brought nothing and the clock came round to 0. -/
def NoLateFailure (lib : EngineLibraries) (build : Build) (e : CrdtEngine) (δ : Delta)
    (fault : DagFault) : Prop :=
  (∃ adopt, e.gate lib δ = .pass adopt) →
    match e.mergePayload lib δ with
    | none => δ.schemaHash ∈ e.knownSchemas ∧ (e.failedDoc lib δ).commit = e.doc.commit
    | some doc => build = .wasm ∨ fault = none ∨
        (δ.schemaHash ∈ e.knownSchemas ∧ doc.commit = e.doc.commit ∧ e.lamport = 0 ∧
          δ.lamport = greatestLamport)

theorem advanceLamport_eq_iff (e : CrdtEngine) (δ : Delta) :
    e.advanceLamport δ = e.lamport ↔ e.lamport = 0 ∧ δ.lamport = greatestLamport := by
  have hlocal := e.lamport.toNat_lt
  have hincoming := δ.lamport.toNat_lt
  rw [← UInt64.toNat_inj, ← UInt64.toNat_inj, ← UInt64.toNat_inj, toNat_advanceLamport]
  have hgreatest : greatestLamport.toNat = 2 ^ 64 - 1 := rfl
  rw [hgreatest, UInt64.toNat_zero]
  omega

theorem length_recordRejection (e : CrdtEngine) (code : DeltaRejectionCode) (δ : Delta)
    (reason : String) (now : ℤ) : (e.recordRejection code δ reason now).rejectionRecords.length ≤
      max maxRejectionRecords e.rejectionRecords.length := by
  unfold recordRejection
  dsimp only
  split_ifs with h
  · rw [List.length_tail, List.length_append, List.length_singleton]
    omega
  · omega

theorem adopted_knownSchemas {adopt : Bool} (h : e.gate lib δ = .pass adopt) :
    (if adopt then e.addKnownSchema δ.schemaHash else e).knownSchemas = e.knownSchemas ↔
      δ.schemaHash ∈ e.knownSchemas := by
  have hadopt := (gate_pass h).2
  cases adopt with
  | false => exact iff_of_true rfl (by simpa using hadopt)
  | true =>
    have hnew : δ.schemaHash ∉ e.knownSchemas := hadopt.mp rfl
    refine iff_of_false (fun heq => hnew ?_) hnew
    rw [if_pos rfl] at heq
    rw [← heq]
    simp [addKnownSchema, hnew]

theorem unchanged_failedMerge_iff {adopt : Bool} (h : e.gate lib δ = .pass adopt)
    (hmerge : e.mergePayload lib δ = none) (now : ℤ) (fault : DagFault) :
    Unchanged e (e.apply lib build δ now fault).2 ↔
      δ.schemaHash ∈ e.knownSchemas ∧ (e.failedDoc lib δ).commit = e.doc.commit := by
  have hsame : (if adopt then e.addKnownSchema δ.schemaHash else e).mergePayload lib δ = none := by
    cases adopt <;> exact hmerge
  have hdoc : (if adopt then e.addKnownSchema δ.schemaHash else e).failedDoc lib δ =
      e.failedDoc lib δ := by
    cases adopt <;> rfl
  have hrest : (if adopt then e.addKnownSchema δ.schemaHash else e).lamport = e.lamport ∧
      (if adopt then e.addKnownSchema δ.schemaHash else e).dag = e.dag := by
    cases adopt <;> exact ⟨rfl, rfl⟩
  simp only [CrdtEngine.apply, h, hsame, hdoc]
  rw [← adopted_knownSchemas h]
  constructor
  · intro hunchanged
    exact ⟨hunchanged.knownSchemas, hunchanged.doc⟩
  · rintro ⟨hschemas, hcommit⟩
    exact ⟨hcommit, hrest.1, hschemas, hrest.2⟩

theorem unchanged_fault_iff {adopt : Bool} {doc : Automerge.Document}
    (h : e.gate lib δ = .pass adopt) :
    Unchanged e { mergedEngine build lib e δ adopt doc with dag := e.dag } ↔
      δ.schemaHash ∈ e.knownSchemas ∧ doc.commit = e.doc.commit ∧ e.lamport = 0 ∧
        δ.lamport = greatestLamport := by
  have hlamport : (mergedEngine build lib e δ adopt doc).lamport = e.advanceLamport δ := by
    cases adopt <;> rfl
  have hschemas : (mergedEngine build lib e δ adopt doc).knownSchemas =
      (if adopt then e.addKnownSchema δ.schemaHash else e).knownSchemas := rfl
  rw [← adopted_knownSchemas h, ← advanceLamport_eq_iff, ← hschemas, ← hlamport]
  constructor
  · intro hunchanged
    exact ⟨hunchanged.knownSchemas, hunchanged.doc, hunchanged.lamport⟩
  · rintro ⟨hknown, hcommit, hclock⟩
    exact ⟨hcommit, hclock, hknown, rfl⟩

/-- A Delta that is not merged leaves the engine as it was, but for the rejection records within
their bound, exactly when nothing fails after an earlier stage has taken effect. -/
theorem unmerged_unchanged_iff (lib : EngineLibraries) (build : Build) (e : CrdtEngine)
    (δ : Delta) (now : ℤ) (fault : DagFault) :
    ((∀ n, (e.apply lib build δ now fault).1 ≠ .ok (.merged n)) →
      Unchanged e (e.apply lib build δ now fault).2 ∧
        (e.apply lib build δ now fault).2.rejectionRecords.length ≤
          max maxRejectionRecords e.rejectionRecords.length) ↔
      NoLateFailure lib build e δ fault := by
  unfold NoLateFailure
  cases hgate : e.gate lib δ with
  | reject code reason =>
    refine iff_of_true (fun _ => ?_) ?_
    · simp only [CrdtEngine.apply, hgate]
      exact ⟨⟨rfl, rfl, rfl, rfl⟩, length_recordRejection e code δ reason now⟩
    · rintro ⟨adopt, hpass⟩
      cases hpass
  | quarantine reason =>
    refine iff_of_true (fun _ => ?_) ?_
    · simp only [CrdtEngine.apply, hgate]
      exact ⟨.refl e, le_max_right _ _⟩
    · rintro ⟨adopt, hpass⟩
      cases hpass
  | pass adopt =>
    cases hmerge : e.mergePayload lib δ with
    | none =>
      have hunmerged : ∀ n, (e.apply lib build δ now fault).1 ≠ .ok (.merged n) := by
        intro n hmerged
        obtain ⟨adopt', doc, -, hdoc, -⟩ := apply_eq_merged ⟨n, hmerged⟩
        rw [hmerge] at hdoc
        cases hdoc
      have hrecords : (e.apply lib build δ now fault).2.rejectionRecords = e.rejectionRecords := by
        have hsame : (if adopt then e.addKnownSchema δ.schemaHash else e).mergePayload lib δ =
            none := by
          cases adopt <;> exact hmerge
        simp only [CrdtEngine.apply, hgate, hsame]
        cases adopt <;> rfl
      rw [hrecords, ← unchanged_failedMerge_iff hgate hmerge now fault]
      exact ⟨fun h _ => (h hunmerged).1, fun h _ => ⟨h ⟨adopt, rfl⟩, le_max_right _ _⟩⟩
    | some doc =>
      by_cases hstored : build = .wasm ∨ fault = none
      · rw [apply_of_stored hgate hmerge now hstored]
        exact iff_of_true (fun hunmerged => absurd rfl (hunmerged _)) fun _ =>
          hstored.elim .inl fun hfault => .inr (.inl hfault)
      · rw [not_or] at hstored
        obtain ⟨err, hfault⟩ := Option.ne_none_iff_exists'.mp hstored.2
        have hbuild : build = .native := by
          cases build with
          | native => rfl
          | wasm => exact absurd rfl hstored.1
        have hrecords : (mergedEngine build lib e δ adopt doc).rejectionRecords =
            e.rejectionRecords := by
          cases adopt <;> rfl
        have hiff : Unchanged e { mergedEngine build lib e δ adopt doc with dag := e.dag } ↔
            δ.schemaHash ∈ e.knownSchemas ∧ doc.commit = e.doc.commit ∧ e.lamport = 0 ∧
              δ.lamport = greatestLamport := unchanged_fault_iff hgate
        subst hbuild hfault
        rw [apply_of_fault hgate hmerge now err]
        constructor
        · intro h _
          exact .inr (.inr (hiff.mp (h fun n hmerged => by cases hmerged).1))
        · intro h _
          refine ⟨hiff.mpr ?_, ?_⟩
          · rcases h ⟨adopt, rfl⟩ with hwasm | hnone | hsame
            · cases hwasm
            · cases hnone
            · exact hsame
          · dsimp only
            rw [hrecords]
            exact le_max_right _ _

def noteSchema (columns : List String) : Schema :=
  ⟨[⟨"notes", columns.map fun c => ⟨c, .text, true, none⟩, .none, []⟩], "1.0.0"⟩

def noteEngine : CrdtEngine :=
  { CrdtEngine.new (sampleKey 1) (sampleKey 1) sampleDid₁ 0 .empty with
    doc := ⟨List.replicate 32 1, [⟨[5], 1, 1, [.set (.root "k") (.put (.str "mine")) []]⟩], []⟩
    schemaDefinitions := [(0, noteSchema ["body"]), (1, noteSchema ["body", "title"])] }

/-- A saved document with another change of the same actor and sequence number. -/
def conflictingLibraries : EngineLibraries :=
  sampleLibraries [([7], [⟨[5], 1, 1, [.set (.root "k") (.put (.str "yours")) []]⟩])]

def conflictingDelta : Delta :=
  ⟨7, sampleDid₂, List.replicate 64 0, 1, [7], .low, [], [], 4, 0⟩

/-- A Delta whose payload does not merge leaves its schema behind as a known one, and a storage
fault leaves the clock advanced. -/
theorem failed_apply_changes_engine :
    ((noteEngine.apply conflictingLibraries .native conflictingDelta 0 none).1 =
        .error (.deltaMalformed "automerge merge failed: duplicate seq 1 found for actor 05") ∧
      noteEngine.knownSchemas = [0] ∧
      (noteEngine.apply conflictingLibraries .native conflictingDelta 0 none).2.knownSchemas =
        [0, 1]) ∧
    ((noteEngine.apply conflictingLibraries .native (gateDelta sampleDid₃) 0
        (some (.localStoreWriteFailed "INSERT dag_nodes failed: disk I/O error"))).1 =
        .error (.localStoreWriteFailed "INSERT dag_nodes failed: disk I/O error") ∧
      noteEngine.lamport = 0 ∧
      (noteEngine.apply conflictingLibraries .native (gateDelta sampleDid₃) 0
        (some (.localStoreWriteFailed "INSERT dag_nodes failed: disk I/O error"))).2.lamport = 5) := by
  refine ⟨⟨?_, ?_, ?_⟩, ?_, ?_, ?_⟩ <;> decide +kernel

end TirBase.ApplyGate
