import TirBase.CrdtEngine
import TirBase.TransitionRuns

/-! # Convergence of merged documents

Two engines that merge the same Deltas hold the same operations, in whatever order the Deltas
came, as long as no post-merge override writes an operation of its own. -/
namespace TirBase.MergeConvergence
open OperationRegisters Automerge MergeVerification TransitionRuns CrdtEngine

variable {lib : EngineLibraries} {build : Build}

/-- One call of `apply`: the Delta with the time and storage fault of the moment. -/
structure Arrival where
  delta : Delta
  now : ℤ
  fault : DagFault
  deriving DecidableEq

def receive (lib : EngineLibraries) (build : Build) (e : CrdtEngine) (a : Arrival) : CrdtEngine :=
  (apply lib build e a.delta a.now a.fault).2

def payloadChanges (lib : EngineLibraries) (δ : Delta) : List Change :=
  ((loadIncomingDoc lib δ.automergeBytes).map Document.changes).getD []

/-- A validly signed Delta under the schema whose payload is an Automerge document. -/
structure WellSigned (lib : EngineLibraries) (schema : SchemaIdentifierHash) (δ : Delta) :
    Prop where
  schemaHash : δ.schemaHash = schema
  signed : δ.signature ≠ []
  verified : ∃ publicKey, lib.resolveDid δ.authorDid = .ok publicKey ∧
    lib.verify publicKey (lib.canonicalBytes δ) δ.signature = .ok ()
  payload : (loadIncomingDoc lib δ.automergeBytes).isSome = true

/-- Parents come before their children. -/
def CausalOrder : List Delta → Prop
  | [] => True
  | δ :: δs => (∀ δ' ∈ δs, δ'.id ∉ δ.causalParents) ∧ CausalOrder δs

instance causalOrderDecidable : ∀ δs, Decidable (CausalOrder δs)
  | [] => isTrue trivial
  | δ :: δs =>
    have := causalOrderDecidable δs
    inferInstanceAs (Decidable ((∀ δ' ∈ δs, δ'.id ∉ δ.causalParents) ∧ CausalOrder δs))

/-- Automerge's identifiers: one change for each actor and sequence number, one operation for
each operation identifier. -/
structure SharedHistory (changes : List Change) : Prop where
  uniqueChanges : ∀ c ∈ changes, ∀ c' ∈ changes, c.actor = c'.actor → c.seq = c'.seq → c = c'
  uniqueOps : UniqueIds (changes.flatMap Change.ops)

instance (changes : List Change) : Decidable (SharedHistory changes) :=
  decidable_of_iff (_ ∧ _) ⟨fun h => ⟨h.1, h.2⟩, fun h => ⟨h.uniqueChanges, h.uniqueOps⟩⟩

theorem SharedHistory.subset {changes changes' : List Change} (h : SharedHistory changes)
    (hsub : ∀ c ∈ changes', c ∈ changes) : SharedHistory changes' := by
  refine ⟨fun c hc c' hc' => h.uniqueChanges c (hsub c hc) c' (hsub c' hc'),
    h.uniqueOps.subset fun o ho => ?_⟩
  obtain ⟨c, hc, hoc⟩ := List.mem_flatMap.mp ho
  exact List.mem_flatMap.mpr ⟨c, hsub c hc, hoc⟩

/-- The merge of the payload keeps the engine's own operation at no key where the incoming one is
to win: the engine's clock is not behind the Delta, or no conflicting key shows the local
operation. -/
def OverrideFree (lib : EngineLibraries) (e : CrdtEngine) (δ : Delta) : Prop :=
  e.lamport < δ.lamport → ∀ incoming ∈ loadIncomingDoc lib δ.automergeBytes,
    ∀ merged ∈ e.doc.merge incoming, ∀ c ∈ captureLww e.doc incoming, ¬ Overrides true merged c

instance (lib : EngineLibraries) (e : CrdtEngine) (δ : Delta) :
    Decidable (OverrideFree lib e δ) := by
  unfold OverrideFree
  infer_instance

/-- The identifiers of the engine's document and of the payload are those of one history. -/
def SharesHistory (lib : EngineLibraries) (e : CrdtEngine) (δ : Delta) : Prop :=
  SharedHistory (e.doc.commit.changes ++ payloadChanges lib δ)

instance (lib : EngineLibraries) (e : CrdtEngine) (δ : Delta) : Decidable (SharesHistory lib e δ) := by
  unfold SharesHistory
  infer_instance

theorem merge_of_sharedHistory {d incoming : Document} (hincoming : incoming.pending = [])
    (hshared : SharedHistory (d.commit.changes ++ incoming.changes)) :
    ∃ merged, d.merge incoming = some merged := by
  have hnodup : ((incoming.changes.filter fun c => !d.commit.changes.contains c).any
      (d.commit.duplicateSeq ·)) = false := by
    rw [List.any_eq_false]
    intro c hc
    simp only [Document.duplicateSeq, List.any_eq_true, not_exists, not_and]
    intro c' hc'
    have hcc := List.mem_append_right d.commit.changes (List.mem_of_mem_filter hc)
    by_cases ha : c'.actor = c.actor
    · by_cases hs : c'.seq = c.seq
      · simp [hshared.uniqueChanges c' (List.mem_append_left _ hc') c hcc ha hs]
      · simp [hs]
    · simp [ha]
  rw [Document.merge, Document.commit_of_committed hincoming]
  exact ⟨_, if_neg (by rw [hnodup]; exact Bool.false_ne_true)⟩

/-- Without an override of a scalar the engine holds the merged document, its lists perhaps
reordered. -/
theorem mergeIncoming_of_overrideFree {e : CrdtEngine} {δ : Delta} {incoming plain : Document}
    (hfree : OverrideFree lib e δ)
    (hload : loadIncomingDoc lib δ.automergeBytes = some incoming)
    (hmerge : e.doc.merge incoming = some plain) :
    ∃ merged, mergeIncoming e.doc incoming δ.lamport e.lamport = some merged ∧
      EditsLists plain merged := by
  unfold mergeIncoming
  rw [hmerge, Option.map_some]
  refine ⟨_, rfl, ?_⟩
  split_ifs
  · exact editsLists_verifyAndOverride fun hlt => hfree hlt incoming hload plain hmerge
  · exact .refl plain

def payloadOps (lib : EngineLibraries) (δs : List Delta) : List Op :=
  (δs.flatMap (payloadChanges lib)).flatMap Change.ops

theorem mem_payloadOps {δs : List Delta} {o : Op} :
    o ∈ payloadOps lib δs ↔ ∃ δ ∈ δs, ∃ c ∈ payloadChanges lib δ, o ∈ c.ops := by
  simp only [payloadOps, List.mem_flatMap]
  constructor
  · rintro ⟨c, ⟨δ, hδ, hc⟩, ho⟩
    exact ⟨δ, hδ, c, hc, ho⟩
  · rintro ⟨δ, hδ, c, hc, ho⟩
    exact ⟨c, ⟨δ, hδ, hc⟩, ho⟩

/-- The document holds the operations of the Deltas merged so far, and others apart from `ROOT`. -/
structure HoldsPayloads (lib : EngineLibraries) (schema : SchemaIdentifierHash)
    (e : CrdtEngine) (merged : List Delta) : Prop where
  unique : UniqueIds e.doc.ops
  payloads : ∀ o ∈ payloadOps lib merged, o ∈ e.doc.ops
  apart : ∀ o ∈ e.doc.ops, o ∉ payloadOps lib merged → Apart IsRoot e.doc.ops o
  notRevoked : e.revokedDids = []
  known : schema ∈ e.knownSchemas

theorem holdsPayloads_new (secretKey publicKey : KeyBytes) (did : Did)
    (schema : SchemaIdentifierHash) (dag : ChangesetDag) :
    HoldsPayloads lib schema (CrdtEngine.new secretKey publicKey did schema dag) [] :=
  ⟨causallyClosed_nil.unique, fun _ ho => ho, fun _ ho => absurd ho List.not_mem_nil, rfl,
    List.mem_singleton_self schema⟩

theorem loadIncomingDoc_pending {bytes : Bytes} {incoming : Document}
    (h : loadIncomingDoc lib bytes = some incoming) : incoming.pending = [] := by
  unfold loadIncomingDoc at h
  split_ifs at h
  obtain ⟨changes, -, rfl⟩ := Option.map_eq_some_iff.mp h
  rfl

theorem holdsPayloads_receive {schema : SchemaIdentifierHash} {e : CrdtEngine}
    {merged : List Delta} (h : HoldsPayloads lib schema e merged) {a : Arrival}
    (hsigned : WellSigned lib schema a.delta) (hhistory : SharesHistory lib e a.delta)
    (hfree : OverrideFree lib e a.delta) :
    HoldsPayloads lib schema (receive lib build e a) (merged ++ [a.delta]) := by
  obtain ⟨incoming, hload⟩ := Option.isSome_iff_exists.mp hsigned.payload
  have hincoming := loadIncomingDoc_pending hload
  have hpayload : payloadChanges lib a.delta = incoming.changes := by
    simp [payloadChanges, hload]
  rw [SharesHistory, hpayload] at hhistory
  obtain ⟨plain, hplain⟩ := merge_of_sharedHistory hincoming hhistory
  obtain ⟨doc, hdoc, hedits⟩ := mergeIncoming_of_overrideFree hfree hload hplain
  have hops : SameOps plain.ops (e.doc.ops ++ incoming.ops) := Document.merge_ops hplain
  have hnew : ∀ o, o ∈ payloadOps lib (merged ++ [a.delta]) ↔
      o ∈ payloadOps lib merged ∨ o ∈ incoming.ops := by
    intro o
    rw [Document.ops_of_pending hincoming, ← hpayload]
    simp [payloadOps]
  have hunique : UniqueIds plain.ops := by
    refine hhistory.uniqueOps.subset fun o ho => ?_
    rw [List.flatMap_append, ← Document.ops_of_pending (Document.pending_commit e.doc),
      ← Document.ops_of_pending hincoming, Document.ops_commit]
    exact (hops o).mp ho
  have hheld : HoldsPayloads lib schema { e with doc := doc } (merged ++ [a.delta]) := by
    refine ⟨hedits.unique hunique, fun o ho => hedits.kept o ((hops o).mpr ?_), fun o ho hother => ?_,
      h.notRevoked, h.known⟩
    · rcases (hnew o).mp ho with ho | ho
      · exact List.mem_append_left _ (h.payloads o ho)
      · exact List.mem_append_right _ ho
    · by_cases hold : o ∈ plain.ops
      · obtain ⟨hother, hother'⟩ := not_or.mp fun ho => hother ((hnew o).mpr ho)
        have hmem := (List.mem_append.mp ((hops o).mp hold)).resolve_right hother'
        exact (h.apart o hmem hother).mono fun p hp =>
          hedits.kept p ((hops p).mpr (List.mem_append_left _ hp))
      · exact hedits.apart o ho hold
  have haccepts : e.Accepts lib a.delta :=
    ⟨by simp [h.notRevoked], hsigned.schemaHash ▸ h.known, hsigned.signed, hsigned.verified⟩
  have hmergePayload : e.mergePayload lib a.delta = some doc := by
    simp only [mergePayload, hload, hdoc]
  rcases apply_of_pass (gate_of_accepts haccepts) hmergePayload build a.now a.fault with
    ⟨err, -, -, happly⟩ | happly
  · rw [receive, happly]
    exact ⟨hheld.unique, hheld.payloads, hheld.apart, hheld.notRevoked, hheld.known⟩
  · rw [receive, happly]
    exact ⟨hheld.unique, hheld.payloads, hheld.apart, hheld.notRevoked, hheld.known⟩

theorem holdsPayloads_run {schema : SchemaIdentifierHash} {e : CrdtEngine} {merged : List Delta}
    {arrivals : List Arrival} (h : HoldsPayloads lib schema e merged)
    (hsigned : ∀ a ∈ arrivals, WellSigned lib schema a.delta)
    (hfree : Guarded (receive lib build)
      (fun e a => SharesHistory lib e a.delta ∧ OverrideFree lib e a.delta) e arrivals) :
    HoldsPayloads lib schema (run (receive lib build) e arrivals)
      (merged ++ arrivals.map Arrival.delta) := by
  induction arrivals generalizing e merged with
  | nil => simpa using h
  | cons a arrivals ih =>
    have hstep : HoldsPayloads lib schema (receive lib build e a) (merged ++ [a.delta]) :=
      holdsPayloads_receive h (hsigned a List.mem_cons_self) hfree.1.1 hfree.1.2
    have hrest := ih hstep (fun b hb => hsigned b (List.mem_cons_of_mem a hb)) hfree.2
    simpa using hrest

/-- What `ROOT` shows comes from the payloads alone. -/
theorem HoldsPayloads.rootScalar_eq {schema : SchemaIdentifierHash} {e : CrdtEngine}
    {merged : List Delta} (h : HoldsPayloads lib schema e merged) (key : String) :
    e.doc.rootScalar key =
      (OperationRegisters.winner (payloadOps lib merged) (.root key)).bind Op.value? := by
  rw [Document.rootScalar, Document.winner,
    winner_eq_of_apart h.unique h.payloads h.apart (⟨key, rfl⟩ : IsRoot (.root key))]

def historyOf (lib : EngineLibraries) (arrivals : List Arrival) : List Change :=
  arrivals.flatMap fun a => payloadChanges lib a.delta

/-- Two fresh engines that merge the same Deltas of one history in any two orders, no merge
overriding a scalar, end with the same value at every `ROOT` key. -/
theorem rootScalar_convergence (lib : EngineLibraries) (build build' : Build)
    (schema : SchemaIdentifierHash) (secretKey publicKey secretKey' publicKey' : KeyBytes)
    (did did' : Did) (dag dag' : ChangesetDag) (arrivals arrivals' : List Arrival)
    (hsame : ∀ δ, δ ∈ arrivals.map Arrival.delta ↔ δ ∈ arrivals'.map Arrival.delta)
    (hsigned : ∀ a ∈ arrivals, WellSigned lib schema a.delta)
    (hfree : Guarded (receive lib build)
      (fun e a => SharesHistory lib e a.delta ∧ OverrideFree lib e a.delta)
      (CrdtEngine.new secretKey publicKey did schema dag) arrivals)
    (hfree' : Guarded (receive lib build')
      (fun e a => SharesHistory lib e a.delta ∧ OverrideFree lib e a.delta)
      (CrdtEngine.new secretKey' publicKey' did' schema dag') arrivals') (key : String) :
    (run (receive lib build) (CrdtEngine.new secretKey publicKey did schema dag)
        arrivals).doc.rootScalar key =
      (run (receive lib build') (CrdtEngine.new secretKey' publicKey' did' schema dag')
        arrivals').doc.rootScalar key := by
  have hsigned' : ∀ a ∈ arrivals', WellSigned lib schema a.delta := by
    intro a' ha'
    obtain ⟨a, ha, heq⟩ := List.mem_map.mp ((hsame a'.delta).mpr (List.mem_map_of_mem ha'))
    exact heq ▸ hsigned a ha
  have hrun := holdsPayloads_run (holdsPayloads_new secretKey publicKey did schema dag) hsigned
    hfree
  have hrun' := holdsPayloads_run (holdsPayloads_new secretKey' publicKey' did' schema dag')
    hsigned' hfree'
  simp only [List.nil_append] at hrun hrun'
  have hops : SameOps (payloadOps lib (arrivals.map Arrival.delta))
      (payloadOps lib (arrivals'.map Arrival.delta)) := by
    intro o
    simp only [mem_payloadOps, hsame]
  rw [hrun.rootScalar_eq, hrun'.rootScalar_eq, hops.winner_eq (hrun.unique.subset hrun.payloads)]

/-- A key written twice by the first device and, under a later clock but a smaller operation
counter, once by the second. -/
def twoWritersLibraries : EngineLibraries :=
  sampleLibraries
    [([1], [⟨List.replicate 32 1, 1, 1, [.set (.root "k") (.put (.str "w")) []]⟩,
        ⟨List.replicate 32 1, 2, 2,
          [.set (.root "k") (.put (.str "x")) [⟨1, List.replicate 32 1⟩]]⟩]),
      ([2], [⟨List.replicate 32 2, 1, 1, [.set (.root "k") (.put (.str "y")) []]⟩])]

def firstWriter : Delta := ⟨1, sampleDid₁, List.replicate 64 0, 0, [1], .low, [], [], 2, 0⟩

def secondWriter (lamport : UInt64) : Delta :=
  ⟨2, sampleDid₂, List.replicate 64 0, 0, [2], .low, [], [], lamport, 0⟩

def freshEngine : CrdtEngine :=
  CrdtEngine.new (sampleKey 3) (sampleKey 3) sampleDid₃ 0 .empty

private theorem wellSigned_firstWriter : WellSigned twoWritersLibraries 0 firstWriter :=
  ⟨rfl, by decide, ⟨sampleKey 1, by decide +kernel, by decide +kernel⟩, by decide +kernel⟩

private theorem wellSigned_secondWriter (lamport : UInt64) :
    WellSigned twoWritersLibraries 0 (secondWriter lamport) :=
  have hresolve : twoWritersLibraries.resolveDid sampleDid₂ = .ok (sampleKey 2) := by
    decide +kernel
  ⟨rfl, by simp [secondWriter], ⟨sampleKey 2, hresolve, rfl⟩, rfl⟩

/-- With the second writer's clock at 10 the two orders end with different values. -/
theorem rootScalar_order_dependent :
    (∀ δ ∈ [firstWriter, secondWriter 10], WellSigned twoWritersLibraries 0 δ) ∧
    SharedHistory (historyOf twoWritersLibraries
      [⟨firstWriter, 0, none⟩, ⟨secondWriter 10, 0, none⟩]) ∧
    CausalOrder [firstWriter, secondWriter 10] ∧ CausalOrder [secondWriter 10, firstWriter] ∧
    (run (receive twoWritersLibraries .native) freshEngine
      [⟨firstWriter, 0, none⟩, ⟨secondWriter 10, 0, none⟩]).doc.rootScalar "k" =
        some (.str "y") ∧
    (run (receive twoWritersLibraries .native) freshEngine
      [⟨secondWriter 10, 0, none⟩, ⟨firstWriter, 0, none⟩]).doc.rootScalar "k" =
        some (.str "x") := by
  refine ⟨?_, by decide +kernel, by decide +kernel, by decide +kernel, by decide +kernel,
    by decide +kernel⟩
  intro δ hδ
  simp only [List.mem_cons, List.not_mem_nil, or_false] at hδ
  rcases hδ with rfl | rfl
  · exact wellSigned_firstWriter
  · exact wellSigned_secondWriter 10

/-- A list that the first device wrote beside a key, and a key that the second wrote on top. -/
def sharedListLibraries : EngineLibraries :=
  let first : Change := ⟨List.replicate 32 1, 1, 1, [.set (.root "list") (.make .list) [],
    .insert (some ⟨1, List.replicate 32 1⟩) none (.put (.str "item")),
    .set (.root "k") (.put (.str "w")) []]⟩
  let second : Change := ⟨List.replicate 32 2, 1, 4,
    [.set (.root "k") (.put (.str "y")) [⟨3, List.replicate 32 1⟩]]⟩
  sampleLibraries [([1], [first]), ([2], [first, second])]

private theorem wellSigned_sharedList (lamport : UInt64) :
    WellSigned sharedListLibraries 0 firstWriter ∧
      WellSigned sharedListLibraries 0 (secondWriter lamport) := by
  have hresolve : sharedListLibraries.resolveDid sampleDid₂ = .ok (sampleKey 2) := by
    decide +kernel
  exact ⟨⟨rfl, by decide, ⟨sampleKey 1, by decide +kernel, by decide +kernel⟩, by decide +kernel⟩,
    ⟨rfl, by simp [secondWriter], ⟨sampleKey 2, hresolve, rfl⟩, rfl⟩⟩

/-- The first order edits the list that both payloads carry, and the orders agree at the key. -/
theorem rootScalar_convergence_shared_list :
    (run (receive sharedListLibraries .native) freshEngine
      [⟨firstWriter, 0, none⟩, ⟨secondWriter 10, 0, none⟩]).doc.pending ≠ [] ∧
    (run (receive sharedListLibraries .native) freshEngine
      [⟨firstWriter, 0, none⟩, ⟨secondWriter 10, 0, none⟩]).doc.rootScalar "k" =
    (run (receive sharedListLibraries .wasm) freshEngine
      [⟨secondWriter 10, 0, none⟩, ⟨firstWriter, 0, none⟩]).doc.rootScalar "k" := by
  refine ⟨by decide +kernel, rootScalar_convergence sharedListLibraries .native .wasm 0 _ _ _ _ _ _
    _ _ _ _ ?_ ?_ (by decide +kernel) (by decide +kernel) "k"⟩
  · intro δ
    simp only [List.map_cons, List.map_nil, List.mem_cons, List.not_mem_nil, or_false]
    exact or_comm
  · intro a ha
    simp only [List.mem_cons, List.not_mem_nil, or_false] at ha
    rcases ha with rfl | rfl
    · exact (wellSigned_sharedList 10).1
    · exact (wellSigned_sharedList 10).2

end TirBase.MergeConvergence
