import TirBase.EngineRuns
import TirBase.ReceiptSoundness

/-! # Who wrote the nodes of the DAG

A row is authentic when it holds a Delta that hashes to its identifier and whose author signed it.
The engine takes the identifier of an incoming Delta as it comes. -/
namespace TirBase.DagAuthenticity
open EngineRuns ReceiptSoundness TransitionRuns

variable (lib : CoreLibraries)

/-- Every row holds a Delta that hashes to its identifier and is signed by its author; no
identifier is used twice. -/
structure Authentic (dag : ChangesetDag) : Prop where
  idsNodup : dag.ids.Nodup
  rows : ∀ row ∈ dag.nodes, ∃ δ, Stores lib row δ ∧
    lib.computeId (lib.canonicalBytes δ) = row.id ∧ row.authorDid = δ.authorDid ∧
      SignatureVerifies lib δ

/-- What the operation admits stands in the DAG: the row under its identifier holds the text that
was signed. -/
def Recorded (e : CrdtEngine) (op : EngineOperation) : Prop :=
  ∀ δ, admitted lib.toEngineLibraries .native e op = some δ →
    ∃ row ∈ (step lib.toEngineLibraries .native e op).dag.nodes, row.id = δ.id ∧
      ∃ δ', Stores lib row δ' ∧ lib.canonicalBytes δ' = lib.canonicalBytes δ

/-- A Delta that merges comes under its own hash. -/
def UnderOwnHash (e : CrdtEngine) : EngineOperation → Prop
  | .apply δ _ fault => Merges lib e δ fault → lib.computeId (lib.canonicalBytes δ) = δ.id
  | _ => True

/-- What the operation admits reads back from its text, and its signed text is one of `known`. -/
def Handles (known : Set Bytes) (e : CrdtEngine) (op : EngineOperation) : Prop :=
  ∀ δ, admitted lib.toEngineLibraries .native e op = some δ →
    lib.parseDelta (lib.serialiseDelta δ) = .ok δ ∧ lib.canonicalBytes δ ∈ known

structure Origin (known : Set Bytes) (e : CrdtEngine) : Prop where
  authentic : Authentic lib e.dag
  texts : ∀ row ∈ e.dag.nodes, ∀ δ, Stores lib row δ → lib.canonicalBytes δ ∈ known
  ownKey : ∃ publicKey, lib.resolveDid e.authorDid = .ok publicKey ∧
    ∀ payload, lib.verify publicKey payload (lib.sign e.secretKey payload) = .ok ()

variable {lib} {known : Set Bytes} {e : CrdtEngine} {op : EngineOperation} {δ : Delta}

theorem stores_unique {row : DagRow} {δ δ' : Delta} (h : Stores lib row δ)
    (h' : Stores lib row δ') : δ = δ' := by
  obtain ⟨⟨bytes, hbytes, hparse⟩, -⟩ := h
  obtain ⟨⟨bytes', hbytes', hparse'⟩, -⟩ := h'
  rw [hbytes] at hbytes'
  cases hbytes'
  rw [hparse] at hparse'
  exact Except.ok.inj hparse'

theorem Stores.of_extends {row row' : DagRow} (h : row.Extends row') :
    Stores lib row' δ ↔ Stores lib row δ := by
  constructor
  · rintro ⟨⟨bytes, hbytes, hparse⟩, hpayload⟩
    exact ⟨⟨bytes, h.deltaBytes ▸ hbytes, hparse⟩, h.payload ▸ hpayload⟩
  · rintro ⟨⟨bytes, hbytes, hparse⟩, hpayload⟩
    exact ⟨⟨bytes, h.deltaBytes.trans hbytes, hparse⟩, h.payload.trans hpayload⟩

theorem stores_row {node : DagNode} (hnode : NodeOf lib.toEngineLibraries δ node)
    (hserde : lib.parseDelta (lib.serialiseDelta δ) = .ok δ) : Stores lib node.row δ :=
  ⟨⟨_, hnode.text, hserde⟩, hnode.payload⟩

/-- Tags and compaction marks leave the DAG authentic. -/
theorem Authentic.retags {dag dag' : ChangesetDag} (h : Authentic lib dag)
    (hretags : dag.Retags dag') (hgraph : dag'.graph = dag.graph) : Authentic lib dag' := by
  refine ⟨?_, fun row' hrow' => ?_⟩
  · rw [ChangesetDag.ids_of_graph hgraph]
    exact h.idsNodup
  · obtain ⟨row, hrow, hext⟩ := hretags.back row' hrow'
    obtain ⟨δ, hstores, hhash, hauthor, hsigned⟩ := h.rows row hrow
    exact ⟨δ, (Stores.of_extends hext).mpr hstores, hhash.trans hext.id.symm,
      hext.authorDid.trans hauthor, hsigned⟩

theorem signed_of_admitted (horigin : Origin lib known e)
    (h : admitted lib.toEngineLibraries .native e op = some δ) : SignatureVerifies lib δ := by
  cases op with
  | apply δ' now fault =>
    simp only [admitted] at h
    split at h
    · rename_i n hmerged
      cases h
      obtain ⟨⟨adopt, hgate⟩, -, -⟩ := (merged_iff now).mp ⟨n, hmerged⟩
      exact signatureVerifies_of_pass hgate
    · cases h
  | produceDeltaWithTags bytes priority causalParents tags env =>
    obtain ⟨publicKey, hresolve, hverify⟩ := horigin.ownKey
    rcases produceDeltaWithTags_cases .native e bytes priority causalParents tags env with
      ⟨err, hproduce⟩ | ⟨parents, hproduce⟩
    · rw [admitted, hproduce] at h
      cases h
    · rw [admitted, hproduce] at h
      cases h
      exact ⟨publicKey, hresolve, hverify _⟩
  | _ => cases h

/-- An operation admits its Delta under the hash of its signed text exactly when it meets the
condition. -/
theorem underOwnHash_iff : UnderOwnHash lib e op ↔
    ∀ δ, admitted lib.toEngineLibraries .native e op = some δ →
      lib.computeId (lib.canonicalBytes δ) = δ.id := by
  cases op with
  | apply δ now fault =>
    constructor
    · intro hown δ' hadmitted
      simp only [admitted] at hadmitted
      split at hadmitted
      · rename_i n hmerged
        cases hadmitted
        exact hown ((merged_iff now).mp ⟨n, hmerged⟩)
      · cases hadmitted
    · intro hall hmerges
      obtain ⟨n, hmerged⟩ := (merged_iff now).mpr hmerges
      exact hall δ (by simp only [admitted, hmerged])
  | produceDeltaWithTags bytes priority causalParents tags env =>
    refine iff_of_true trivial fun δ hadmitted => ?_
    rcases produceDeltaWithTags_cases .native e bytes priority causalParents tags env with
      ⟨err, hproduce⟩ | ⟨parents, hproduce⟩
    · rw [admitted, hproduce] at hadmitted
      cases hadmitted
    · rw [admitted, hproduce] at hadmitted
      cases hadmitted
      rfl
  | _ => exact iff_of_true trivial fun δ hadmitted => by cases hadmitted

/-- The stored Delta is authentic and not shadowed exactly when it is named by its own hash. -/
theorem insert_iff {dag : ChangesetDag} {node : DagNode} (hdag : Authentic lib dag)
    (hhash : Set.InjOn lib.sha256 known)
    (htexts : ∀ row ∈ dag.nodes, ∀ δ, Stores lib row δ → lib.canonicalBytes δ ∈ known)
    (hnode : NodeOf lib.toEngineLibraries δ node)
    (hserde : lib.parseDelta (lib.serialiseDelta δ) = .ok δ)
    (hknown : lib.canonicalBytes δ ∈ known) (hsigned : SignatureVerifies lib δ) :
    (Authentic lib (dag.insert node) ∧
      ∃ row ∈ (dag.insert node).nodes, row.id = δ.id ∧
        ∃ δ', Stores lib row δ' ∧ lib.canonicalBytes δ' = lib.canonicalBytes δ) ↔
      lib.computeId (lib.canonicalBytes δ) = δ.id := by
  constructor
  · rintro ⟨hauthentic, row, hrow, hid, δ', hstores, hsame⟩
    obtain ⟨δ'', hstores', hhash', -, -⟩ := hauthentic.rows row hrow
    rw [stores_unique hstores' hstores] at hhash'
    rw [← hsame, hhash', hid]
  · intro hown
    have hnew : node.deltaId ∉ dag.ids → Authentic lib (dag.insert node) ∧
        node.row ∈ (dag.insert node).nodes := by
      intro hfree
      refine ⟨⟨ChangesetDag.nodup_ids_insert hdag.idsNodup node, fun row hrow => ?_⟩,
        ChangesetDag.mem_nodes_insert.mpr (.inr ⟨hfree, rfl⟩)⟩
      rcases ChangesetDag.mem_nodes_insert.mp hrow with hold | ⟨-, rfl⟩
      · exact hdag.rows row hold
      · exact ⟨δ, stores_row hnode hserde, hown.trans hnode.id.symm, hnode.author, hsigned⟩
    by_cases hmem : node.deltaId ∈ dag.ids
    · obtain ⟨row, hrow, hid⟩ := List.mem_map.mp hmem
      obtain ⟨δ', hstores, hhash', -, -⟩ := hdag.rows row hrow
      have hrow' : row ∈ (dag.insert node).nodes := ChangesetDag.mem_nodes_insert.mpr (.inl hrow)
      have hid : row.id = δ.id := hid.trans hnode.id
      have hdigest : lib.sha256 (lib.canonicalBytes δ') = lib.sha256 (lib.canonicalBytes δ) :=
        (hhash'.trans hid).trans hown.symm
      refine ⟨⟨ChangesetDag.nodup_ids_insert hdag.idsNodup node, fun row' hrow'' => ?_⟩, row, hrow', hid, δ',
        hstores, hhash (htexts row hrow δ' hstores) hknown hdigest⟩
      rcases ChangesetDag.mem_nodes_insert.mp hrow'' with hold | ⟨hfree, -⟩
      · exact hdag.rows row' hold
      · exact absurd hmem hfree
    · obtain ⟨hauthentic, hrow⟩ := hnew hmem
      exact ⟨hauthentic, node.row, hrow, hnode.id, δ, stores_row hnode hserde, rfl⟩

/-- After an operation the DAG is authentic and holds what was admitted exactly when the operation
meets the condition. -/
theorem authentic_step_iff (hhash : Set.InjOn lib.sha256 known) (horigin : Origin lib known e)
    (hhandles : Handles lib known e op) :
    Authentic lib (step lib.toEngineLibraries .native e op).dag ∧ Recorded lib e op ↔
      UnderOwnHash lib e op := by
  rw [underOwnHash_iff]
  cases hadmitted : admitted lib.toEngineLibraries .native e op with
  | none =>
    obtain ⟨hretags, hgraph⟩ := dag_step_of_not_stored (.inr hadmitted)
    refine iff_of_true ⟨horigin.authentic.retags hretags hgraph, fun δ h => ?_⟩ fun δ h => ?_
    · rw [hadmitted] at h
      cases h
    · cases h
  | some δ =>
    obtain ⟨node, hnode, hdag⟩ := dag_step_of_admitted hadmitted
    obtain ⟨hserde, hknown⟩ := hhandles δ hadmitted
    have hiff := insert_iff horigin.authentic hhash horigin.texts hnode hserde hknown
      (signed_of_admitted horigin hadmitted)
    rw [← hdag] at hiff
    constructor
    · rintro ⟨hauthentic, hrecorded⟩ δ' hδ'
      cases hδ'
      exact hiff.mp ⟨hauthentic, hrecorded δ hadmitted⟩
    · intro hown
      obtain ⟨hauthentic, hrow⟩ := hiff.mpr (hown δ rfl)
      refine ⟨hauthentic, fun δ' hδ' => ?_⟩
      rw [hadmitted] at hδ'
      cases hδ'
      exact hrow

theorem origin_step (hhash : Set.InjOn lib.sha256 known) (horigin : Origin lib known e)
    (hhandles : Handles lib known e op) (hown : UnderOwnHash lib e op) :
    Origin lib known (step lib.toEngineLibraries .native e op) := by
  obtain ⟨hauthentic, -⟩ := (authentic_step_iff hhash horigin hhandles).mpr hown
  have hidentity : (step lib.toEngineLibraries .native e op).authorDid = e.authorDid ∧
      (step lib.toEngineLibraries .native e op).secretKey = e.secretKey := identity_step e op
  obtain ⟨hdid, hkey⟩ := hidentity
  refine ⟨hauthentic, fun row' hrow' δ hstores => ?_, by rw [hdid, hkey]; exact horigin.ownKey⟩
  cases hadmitted : admitted lib.toEngineLibraries .native e op with
  | none =>
    obtain ⟨row, hrow, hext⟩ := (dag_step_of_not_stored (.inr hadmitted)).1.back row' hrow'
    exact horigin.texts row hrow δ ((Stores.of_extends hext).mp hstores)
  | some δ' =>
    obtain ⟨node, hnode, hdag⟩ := dag_step_of_admitted hadmitted
    obtain ⟨hserde, hknown⟩ := hhandles δ' hadmitted
    rw [hdag] at hrow'
    rcases ChangesetDag.mem_nodes_insert.mp hrow' with hold | ⟨-, rfl⟩
    · exact horigin.texts row' hold δ hstores
    · rw [stores_unique hstores (stores_row hnode hserde)]
      exact hknown

/-- Along a run over any operations every row stays authentic and every admitted Delta is recorded
under its identifier exactly when each Delta that merges comes under its own hash. -/
theorem authentic_iff_underOwnHash (lib : CoreLibraries) (known : Set Bytes)
    (hhash : Set.InjOn lib.sha256 known) (e : CrdtEngine) (horigin : Origin lib known e)
    (ops : List EngineOperation)
    (hhandles : Guarded (step lib.toEngineLibraries .native) (Handles lib known) e ops) :
    Guarded (step lib.toEngineLibraries .native) (fun e op =>
        Authentic lib (step lib.toEngineLibraries .native e op).dag ∧ Recorded lib e op) e ops ↔
      Guarded (step lib.toEngineLibraries .native) (UnderOwnHash lib) e ops := by
  have hstep : ∀ e op, Handles lib known e op → UnderOwnHash lib e op → Origin lib known e →
      Origin lib known (step lib.toEngineLibraries .native e op) :=
    fun e op hop hown hs => origin_step hhash hs hop hown
  have hiff : ∀ e op, Handles lib known e op → Origin lib known e →
      (Authentic lib (step lib.toEngineLibraries .native e op).dag ∧ Recorded lib e op ↔
        UnderOwnHash lib e op) :=
    fun e op hop hs => authentic_step_iff hhash hs hop
  exact guarded_congr hiff hstep hhandles horigin

def sampleEngine : CrdtEngine :=
  .new (CrdtEngine.sampleKey 1) (CrdtEngine.sampleKey 1) CrdtEngine.sampleDid₁ 0 .empty

def applied (δ : Delta) : EngineOperation := .apply δ 9 none

/-- The engine merges the forged Delta under the hash of the genuine one. No Delta stored there
hashes to it, and the genuine Delta then merges without being stored. -/
theorem forged_delta_shadows_genuine :
    let after := run (step sampleStored.toEngineLibraries .native) sampleEngine
    admitted sampleStored.toEngineLibraries .native sampleEngine (applied forged) = some forged ∧
      admitted sampleStored.toEngineLibraries .native (after [applied forged]) (applied genuine) =
        some genuine ∧
      sampleStored.computeId (sampleStored.canonicalBytes genuine) = genuine.id ∧
      (after [applied forged, applied genuine]).dag.nodes.map DagRow.deltaBytes = [some [6]] ∧
      ¬Authentic sampleStored (after [applied forged]).dag ∧
      ¬Recorded sampleStored (after [applied forged]) (applied genuine) := by
  intro after
  have hforged : ∀ row : DagRow, ∀ δ, row.deltaBytes = some [6] → Stores sampleStored row δ →
      δ = forged := by
    rintro row δ hrow ⟨⟨bytes, hbytes, hparse⟩, -⟩
    rw [hrow] at hbytes
    cases hbytes
    exact (Except.ok.inj hparse).symm
  have hrows : ∀ dag : ChangesetDag, dag.nodes.map DagRow.deltaBytes = [some [6]] →
      ∀ row ∈ dag.nodes, row.deltaBytes = some [6] := by
    intro dag hdag row hrow
    have hmem := List.mem_map_of_mem (f := DagRow.deltaBytes) hrow
    rwa [hdag, List.mem_singleton] at hmem
  have hfirst : (after [applied forged]).dag.nodes.map
      (fun row => (row.deltaBytes, row.id)) = [(some [6], genuine.id)] := by decide +kernel
  have hboth : (after [applied forged, applied genuine]).dag.nodes.map DagRow.deltaBytes =
      [some [6]] := by decide +kernel
  refine ⟨by decide +kernel, by decide +kernel, by decide +kernel, hboth, fun hauthentic => ?_,
    fun hrecorded => ?_⟩
  · obtain ⟨row, hrow⟩ : ∃ row, (after [applied forged]).dag.nodes[0]? = some row :=
      Option.isSome_iff_exists.mp (by decide +kernel)
    have hrow := List.mem_of_getElem? hrow
    have hmem := List.mem_map_of_mem (f := fun row => (row.deltaBytes, row.id)) hrow
    rw [hfirst, List.mem_singleton] at hmem
    obtain ⟨δ, hstores, hhash, -, -⟩ := hauthentic.rows row hrow
    rw [hforged row δ (Prod.mk.inj hmem).1 hstores, (Prod.mk.inj hmem).2] at hhash
    revert hhash
    decide +kernel
  · obtain ⟨row, hrow, -, δ', hstores, hsame⟩ := hrecorded genuine (by decide +kernel)
    rw [hforged row δ' (hrows _ hboth row hrow) hstores] at hsame
    revert hsame
    decide +kernel

theorem authentic_iff_underOwnHash_sample :
    Guarded (step sampleStored.toEngineLibraries .native) (fun e op =>
        Authentic sampleStored (step sampleStored.toEngineLibraries .native e op).dag ∧
          Recorded sampleStored e op) sampleEngine [applied genuine] ↔
      Guarded (step sampleStored.toEngineLibraries .native) (UnderOwnHash sampleStored)
        sampleEngine [applied genuine] := by
  have hadmitted : admitted sampleStored.toEngineLibraries .native sampleEngine (applied genuine) =
      some genuine := by decide +kernel
  refine authentic_iff_underOwnHash sampleStored {sampleStored.canonicalBytes genuine}
    (Set.injOn_singleton _ _) sampleEngine
    ⟨⟨List.nodup_nil, fun row hrow => absurd hrow List.not_mem_nil⟩,
      fun row hrow => absurd hrow List.not_mem_nil,
      CrdtEngine.sampleKey 1, by decide +kernel, fun payload => rfl⟩
    [applied genuine] ⟨fun δ hδ => ?_, trivial⟩
  rw [hadmitted] at hδ
  cases hδ
  exact ⟨rfl, rfl⟩

end TirBase.DagAuthenticity
