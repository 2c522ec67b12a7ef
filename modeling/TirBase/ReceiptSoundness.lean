import TirBase.CoreHandle
import TirBase.EngineRuns

/-! # What a durability receipt attests

A device signs a receipt over the identifier of a Delta that it merged. A receipt is sound when the
DAG holds, under that identifier, a signed Delta whose canonical bytes hash to it. -/
namespace TirBase.ReceiptSoundness
open CoreHandle TransitionRuns

variable (lib : CoreLibraries)

abbrev Inbound := GossipMessage × InboundEnvironment

def inboundStep (h : CoreHandle) (op : Inbound) : CoreHandle := (h.receiveInbound lib op.1 op.2).2

def issuedReceipt (h : CoreHandle) (op : Inbound) : Option DurabilityReceipt :=
  match op.1 with
  | .inboundDelta δ =>
    match (h.crdt.apply lib.toEngineLibraries .native δ op.2.now op.2.applyFault).1 with
    | .ok (.merged _) =>
      some ⟨op.2.receiptId, δ.id, h.identity.did,
        lib.sign h.identity.secretKey (receiptSigningPayload δ.id op.2.receiptId), none, none,
        op.2.now⟩
    | _ => none
  | _ => none

def SignatureVerifies (δ : Delta) : Prop :=
  ∃ publicKey, lib.resolveDid δ.authorDid = .ok publicKey ∧
    lib.verify publicKey (lib.canonicalBytes δ) δ.signature = .ok ()

structure Stores (row : DagRow) (δ : Delta) : Prop where
  text : ∃ bytes, row.deltaBytes = some bytes ∧ lib.parseDelta bytes = .ok δ
  payload : row.payload = δ.automergeBytes

/-- The DAG holds a signed Delta whose canonical bytes hash to the state hash. -/
def Attests (dag : ChangesetDag) (stateHash : DeltaId) : Prop :=
  ∃ row ∈ dag.nodes, row.id = stateHash ∧ ∃ δ, Stores lib row δ ∧
    lib.computeId (lib.canonicalBytes δ) = stateHash ∧ SignatureVerifies lib δ

/-- The Delta passes the gate, its payload merges and its node is stored. -/
structure Merges (e : CrdtEngine) (δ : Delta) (fault : DagFault) : Prop where
  passes : ∃ adopt, e.gate lib.toEngineLibraries δ = .pass adopt
  payload : ∃ doc, e.mergePayload lib.toEngineLibraries δ = some doc
  stored : fault = none

/-- A Delta that merges comes under its own hash, which no other row has taken, or under an
identifier that is attested already. -/
def MergesUnderOwnHash (h : CoreHandle) (op : Inbound) : Prop :=
  ∀ δ, op.1 = .inboundDelta δ → Merges lib h.crdt δ op.2.applyFault →
    Attests lib h.crdt.dag δ.id ∨
      δ.id ∉ h.crdt.dag.ids ∧ lib.computeId (lib.canonicalBytes δ) = δ.id

variable {lib}

theorem signatureVerifies_of_pass {e : CrdtEngine} {δ : Delta} {adopt : Bool}
    (h : e.gate lib.toEngineLibraries δ = .pass adopt) : SignatureVerifies lib δ := by
  have hsigned : ∃ b, CrdtEngine.signatureGate lib.toEngineLibraries δ b = .pass adopt := by
    unfold CrdtEngine.gate at h
    split_ifs at h
    split at h
    · exact ⟨false, h⟩
    · exact ⟨true, h⟩
    · cases h
    · cases h
  obtain ⟨b, hsigned⟩ := hsigned
  unfold CrdtEngine.signatureGate at hsigned
  split_ifs at hsigned
  split at hsigned
  · cases hsigned
  · rename_i publicKey hresolve
    split at hsigned
    · cases hsigned
    · rename_i hverify
      exact ⟨publicKey, hresolve, hverify⟩

theorem merged_iff {e : CrdtEngine} {δ : Delta} {fault : DagFault} (now : ℤ) :
    (∃ n, (e.apply lib.toEngineLibraries .native δ now fault).1 = .ok (.merged n)) ↔
      Merges lib e δ fault := by
  constructor
  · intro h
    obtain ⟨adopt, doc, hgate, hmerge, -⟩ := CrdtEngine.apply_eq_merged h
    refine ⟨⟨adopt, hgate⟩, ⟨doc, hmerge⟩, ?_⟩
    by_contra hfault
    obtain ⟨err, rfl⟩ := Option.ne_none_iff_exists'.mp hfault
    obtain ⟨n, h⟩ := h
    rw [EngineRuns.apply_of_fault hgate hmerge now err] at h
    cases h
  · rintro ⟨⟨adopt, hgate⟩, ⟨doc, hmerge⟩, rfl⟩
    exact ⟨_, by rw [EngineRuns.apply_of_stored hgate hmerge now (.inr rfl)]⟩

theorem issuedReceipt_eq_some {h : CoreHandle} {op : Inbound} {receipt : DurabilityReceipt}
    (hissued : issuedReceipt lib h op = some receipt) :
    ∃ δ, op.1 = .inboundDelta δ ∧ receipt.stateHash = δ.id ∧
      Merges lib h.crdt δ op.2.applyFault := by
  unfold issuedReceipt at hissued
  split at hissued
  · rename_i δ hmsg
    split at hissued
    · rename_i n hmerged
      cases hissued
      exact ⟨δ, hmsg, rfl, (merged_iff op.2.now).mp ⟨n, hmerged⟩⟩
    · cases hissued
  · cases hissued

theorem issuedReceipt_of_merges {h : CoreHandle} {δ : Delta} {env : InboundEnvironment}
    (hmerges : Merges lib h.crdt δ env.applyFault) :
    ∃ receipt, issuedReceipt lib h (.inboundDelta δ, env) = some receipt ∧
      receipt.stateHash = δ.id := by
  obtain ⟨n, hmerged⟩ := (merged_iff env.now).mpr hmerges
  refine ⟨⟨env.receiptId, δ.id, h.identity.did,
    lib.sign h.identity.secretKey (receiptSigningPayload δ.id env.receiptId), none, none,
    env.now⟩, ?_, rfl⟩
  simp only [issuedReceipt, hmerged]

theorem transport_receiveDelta (h : CoreHandle) (δ : Delta) (env : InboundEnvironment) :
    (h.receiveDelta lib δ env).2.transport =
      match issuedReceipt lib h (.inboundDelta δ, env) with
      | some receipt =>
        (h.transport.sendOnOutbound lib.wire [.inboundDurabilityReceipt receipt]).2
      | none => h.transport := by
  have hprojected : ∀ h' : CoreHandle,
      (h'.projectMerged lib δ env.storeFault).transport = h'.transport ∧
        (h'.projectMerged lib δ env.storeFault).identity = h'.identity := by
    intro h'
    unfold projectMerged
    split <;> exact ⟨rfl, rfl⟩
  simp only [receiveDelta, issuedReceipt]
  cases (h.crdt.apply lib.toEngineLibraries .native δ env.now env.applyFault).1 with
  | error e => rfl
  | ok outcome =>
    cases outcome with
    | merged n =>
      simp only [issueDurabilityReceipt, (hprojected _).1, (hprojected _).2]
    | quarantined reason => rfl
    | rejected reason => rfl

theorem Attests.extends {dag dag' : ChangesetDag} {stateHash : DeltaId}
    (h : Attests lib dag stateHash) (hext : dag.Extends dag') : Attests lib dag' stateHash := by
  obtain ⟨row, hrow, hid, δ, ⟨⟨bytes, hbytes, hparse⟩, hpayload⟩, hhash⟩ := h
  obtain ⟨row', hrow', hkept⟩ := hext row hrow
  refine ⟨row', hrow', hkept.id.trans hid, δ, ⟨⟨bytes, ?_, hparse⟩, ?_⟩, hhash⟩
  · rw [hkept.deltaBytes, hbytes]
  · rw [hkept.payload, hpayload]

theorem extends_inboundStep (h : CoreHandle) (op : Inbound) :
    h.crdt.dag.Extends (inboundStep lib h op).crdt.dag := by
  obtain ⟨msg, env⟩ := op
  cases msg with
  | inboundDelta δ =>
    rw [show (inboundStep lib h (.inboundDelta δ, env)).crdt = _ from crdt_receiveDelta h δ env]
    exact CrdtEngine.extends_apply .native h.crdt δ env.now env.applyFault
  | inboundDurabilityReceipt receipt =>
    unfold inboundStep receiveInbound receiveReceipt
    dsimp only
    split <;> exact .refl _
  | inboundRevocationDelta δ => exact (retags_processRevocation lib h δ env).forth
  | inboundMigrationDelta δ => exact .refl _
  | inboundMigrationRevocationDelta δ => exact (retags_revokeMigration lib h δ env).forth
  | inboundDeltaFragment fragment => exact .refl _
  | relayDelta targetDid δ => exact .refl _

theorem Attests.run {h : CoreHandle} {stateHash : DeltaId}
    (hattests : Attests lib h.crdt.dag stateHash) (ops : List Inbound) :
    Attests lib (run (inboundStep lib) h ops).crdt.dag stateHash := by
  have hstep : ∀ (h : CoreHandle) (op : Inbound), Attests lib h.crdt.dag stateHash →
      Attests lib (inboundStep lib h op).crdt.dag stateHash :=
    fun h op hbefore => hbefore.extends (extends_inboundStep h op)
  exact invariant_run hstep ops hattests

/-- After a merge the DAG attests the identifier exactly when it did before, or the Delta hashes to
it and the identifier was free. -/
theorem attests_apply_iff {e : CrdtEngine} {δ : Delta} {now : ℤ} {fault : DagFault}
    (hserde : lib.parseDelta (lib.serialiseDelta δ) = .ok δ) (hmerges : Merges lib e δ fault) :
    Attests lib (e.apply lib.toEngineLibraries .native δ now fault).2.dag δ.id ↔
      Attests lib e.dag δ.id ∨
        δ.id ∉ e.dag.ids ∧ lib.computeId (lib.canonicalBytes δ) = δ.id := by
  obtain ⟨adopt, doc, hgate, -, happly⟩ := CrdtEngine.apply_eq_merged ((merged_iff now).mpr hmerges)
  have hverifies := signatureVerifies_of_pass hgate
  obtain ⟨node, hdag, hid, hpayload, hbytes⟩ : ∃ node : DagNode,
      (e.apply lib.toEngineLibraries .native δ now fault).2.dag = e.dag.insert node ∧
        node.deltaId = δ.id ∧ node.payload = δ.automergeBytes ∧
          node.deltaBytes = some (lib.serialiseDelta δ) := by
    rw [happly]
    cases adopt <;> exact ⟨_, rfl, rfl, rfl, rfl⟩
  rw [hdag]
  constructor
  · rintro ⟨row, hrow, hrowid, δ', ⟨⟨bytes, hrowbytes, hparse⟩, hrowpayload⟩, hhash, hsigned⟩
    rcases ChangesetDag.mem_nodes_insert.mp hrow with hrow | ⟨hfree, rfl⟩
    · exact .inl ⟨row, hrow, hrowid, δ', ⟨⟨bytes, hrowbytes, hparse⟩, hrowpayload⟩, hhash, hsigned⟩
    · have htext : some (lib.serialiseDelta δ) = some bytes := hbytes.symm.trans hrowbytes
      cases htext
      have hsame : Except.ok δ = Except.ok δ' := hserde.symm.trans hparse
      cases hsame
      exact .inr ⟨hid ▸ hfree, hhash⟩
  · rintro (hattests | ⟨hfree, hhash⟩)
    · exact hattests.extends (ChangesetDag.extends_insert _ node)
    · refine ⟨node.row, ChangesetDag.mem_nodes_insert.mpr (.inr ⟨hid ▸ hfree, rfl⟩), hid, δ,
        ⟨⟨_, hbytes, hserde⟩, hpayload⟩, hhash, hverifies⟩

theorem attests_inboundStep_iff {h : CoreHandle} {δ : Delta} {env : InboundEnvironment}
    (hserde : lib.parseDelta (lib.serialiseDelta δ) = .ok δ)
    (hmerges : Merges lib h.crdt δ env.applyFault) :
    Attests lib (inboundStep lib h (.inboundDelta δ, env)).crdt.dag δ.id ↔
      Attests lib h.crdt.dag δ.id ∨
        δ.id ∉ h.crdt.dag.ids ∧ lib.computeId (lib.canonicalBytes δ) = δ.id := by
  have hcrdt : (inboundStep lib h (.inboundDelta δ, env)).crdt = _ := crdt_receiveDelta h δ env
  rw [hcrdt]
  exact attests_apply_iff hserde hmerges

/-- In a run over any messages every receipt is sound, when it is signed and ever after, exactly
when each Delta that merges comes under its own hash. -/
theorem receipts_attested_iff (lib : CoreLibraries) (h : CoreHandle) (ops : List Inbound)
    (hserde : ∀ op ∈ ops, ∀ δ, op.1 = .inboundDelta δ →
      lib.parseDelta (lib.serialiseDelta δ) = .ok δ) :
    (∀ earlier op later rest receipt, ops = earlier ++ op :: (later ++ rest) →
      issuedReceipt lib (run (inboundStep lib) h earlier) op = some receipt →
      Attests lib (run (inboundStep lib) h (earlier ++ op :: later)).crdt.dag receipt.stateHash) ↔
      Guarded (inboundStep lib) (MergesUnderOwnHash lib) h ops := by
  rw [guarded_iff_splits]
  constructor
  · rintro hsound earlier ⟨msg, env⟩ rest hsplit δ hmsg hmerges
    obtain rfl : msg = .inboundDelta δ := hmsg
    obtain ⟨receipt, hissued, hstate⟩ := issuedReceipt_of_merges hmerges
    have hattests := hsound earlier _ [] rest receipt hsplit hissued
    rw [run_append, hstate] at hattests
    have hmem : (.inboundDelta δ, env) ∈ ops := by simp [hsplit]
    exact (attests_inboundStep_iff (hserde _ hmem δ rfl) hmerges).mp hattests
  · rintro hguard earlier ⟨msg, env⟩ later rest receipt hsplit hissued
    obtain ⟨δ, hmsg, hstate, hmerges⟩ := issuedReceipt_eq_some hissued
    obtain rfl : msg = .inboundDelta δ := hmsg
    have hown := hguard earlier _ (later ++ rest) hsplit δ rfl hmerges
    have hmem : (.inboundDelta δ, env) ∈ ops := by simp [hsplit]
    have hattests := (attests_inboundStep_iff (hserde _ hmem δ rfl) hmerges).mpr hown
    rw [run_append, run_cons, hstate]
    exact hattests.run later

def sampleDelta (author : Did) (createdAt : ℤ) (id : DeltaId) : Delta :=
  ⟨id, author, List.replicate 64 0, 0, [], .low, [], [], 1, createdAt⟩

/-- A Delta under its own hash, and another one, by another author, under that hash. -/
def genuine : Delta := sampleDelta CrdtEngine.sampleDid₂ 5 0x501

def forged : Delta := sampleDelta CrdtEngine.sampleDid₃ 6 0x501

def sampleStored : CoreLibraries :=
  { sampleCoreLibraries [] with
    serialiseDelta := fun δ => [Fin.ofNat 256 δ.createdAt.toNat]
    parseDelta := fun bytes =>
      if bytes = [5] then .ok genuine
      else if bytes = [6] then .ok forged
      else .error "expected value at line 1 column 1" }

def sampleInbound (δ : Delta) : Inbound :=
  (.inboundDelta δ, ⟨9, none, none, 3, .ok false, false, false, fun _ => ⟨1, 2, 9, none, none, fun _ => false⟩⟩)

def sampleReceiver : CoreHandle := sampleHandle ⟨.empty, .empty, [], []⟩

/-- The forged Delta takes the identifier of the genuine one. Receipts are signed for both, and
the DAG never holds a Delta that hashes to it. -/
theorem forged_receipt :
    let after := run (inboundStep sampleStored) sampleReceiver
    sampleStored.computeId (sampleStored.canonicalBytes genuine) = genuine.id ∧
      (issuedReceipt sampleStored sampleReceiver (sampleInbound forged)).map
        DurabilityReceipt.stateHash = some genuine.id ∧
      (issuedReceipt sampleStored (after [sampleInbound forged]) (sampleInbound genuine)).map
        DurabilityReceipt.stateHash = some genuine.id ∧
      ¬Attests sampleStored (after [sampleInbound forged]).crdt.dag genuine.id ∧
      ¬Attests sampleStored (after [sampleInbound forged, sampleInbound genuine]).crdt.dag
        genuine.id := by
  intro after
  have hnone : ∀ dag : ChangesetDag, dag.nodes.map DagRow.deltaBytes = [some [6]] →
      ¬Attests sampleStored dag genuine.id := by
    rintro dag hnodes ⟨row, hrow, -, δ, ⟨⟨bytes, hbytes, hparse⟩, -⟩, hhash, -⟩
    have hmem : row.deltaBytes ∈ dag.nodes.map DagRow.deltaBytes := List.mem_map_of_mem hrow
    rw [hnodes, List.mem_singleton, hbytes] at hmem
    cases hmem
    have hδ : Except.ok forged = Except.ok δ := hparse
    cases hδ
    revert hhash
    decide +kernel
  refine ⟨by decide +kernel, by decide +kernel, by decide +kernel, hnone _ (by decide +kernel),
    hnone _ (by decide +kernel)⟩

theorem receipts_attested_iff_sample :
    (∀ earlier op later rest receipt, [sampleInbound genuine] = earlier ++ op :: (later ++ rest) →
      issuedReceipt sampleStored (run (inboundStep sampleStored) sampleReceiver earlier) op =
        some receipt →
      Attests sampleStored
        (run (inboundStep sampleStored) sampleReceiver (earlier ++ op :: later)).crdt.dag
        receipt.stateHash) ↔
      Guarded (inboundStep sampleStored) (MergesUnderOwnHash sampleStored) sampleReceiver
        [sampleInbound genuine] :=
  receipts_attested_iff sampleStored sampleReceiver [sampleInbound genuine] (by
    intro op hop δ hmsg
    rw [List.mem_singleton] at hop
    subst hop
    cases hmsg
    rfl)

end TirBase.ReceiptSoundness
