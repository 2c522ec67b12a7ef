import TirBase.ValueReplication

/-! # Devices that write and receive each other's Deltas

Each device writes into one document and merges the documents of the others. While no merge is
overridden the changes of all devices make one history, and the document of a device consists of
the Deltas that it has. -/
namespace TirBase.MeshRuns
open Automerge CoreHandle CrdtEngine DocumentGrowth DocumentHistories MergeConvergence
  MergeVerification
open OperationRegisters ScalarProjection ValueReplication WrittenDeltas

structure TableWrite where
  table : String
  key : String
  value : JsonValue
  delta : Delta

structure Mesh (D : Type*) where
  device : D → CoreHandle
  held : D → List TableWrite
  written : List TableWrite

inductive MeshOperation (D : Type*)
  | write (d : D) (table key : String) (value : JsonValue) (env : WriteEnvironment)
  | deliver (d : D) (w : TableWrite) (env : InboundEnvironment)

section Machine
variable {D : Type*} [DecidableEq D] (lib : CoreLibraries)

/-- What a write adds to the written Deltas: nothing when it fails before its Delta. -/
def made (h : CoreHandle) (table key : String) (value : JsonValue) (env : WriteEnvironment) :
    List TableWrite :=
  ((writtenDelta lib h table key value env).map fun δ => ⟨table, key, value, δ⟩).toList

def Mesh.advance (m : Mesh D) (d : D) (device : CoreHandle) (got written : List TableWrite) :
    Mesh D where
  device := Function.update m.device d device
  held := Function.update m.held d (m.held d ++ got)
  written := m.written ++ written

def Mesh.step (m : Mesh D) : MeshOperation D → Mesh D
  | .write d table key value env =>
    let new := made lib (m.device d) table key value env
    m.advance d ((m.device d).write lib table key value env).2 new new
  | .deliver d w env =>
    m.advance d ((m.device d).receiveInbound lib (.inboundDelta w.delta) env).2 [w] []

def payload (w : TableWrite) : Document :=
  ⟨[], payloadChanges lib.toEngineLibraries w.delta, []⟩

def history (written : List TableWrite) : List Change :=
  written.flatMap fun w => payloadChanges lib.toEngineLibraries w.delta

section Advance
variable (m : Mesh D) (d : D) (device : CoreHandle) (got written : List TableWrite)

@[simp] theorem device_advance_self : (m.advance d device got written).device d = device :=
  Function.update_self ..

@[simp] theorem held_advance_self : (m.advance d device got written).held d = m.held d ++ got :=
  Function.update_self ..

@[simp] theorem written_advance : (m.advance d device got written).written = m.written ++ written :=
  rfl

variable {m d device got written}

theorem device_advance_other {d' : D} (h : d' ≠ d) :
    (m.advance d device got written).device d' = m.device d' := Function.update_of_ne h _ _

theorem held_advance_other {d' : D} (h : d' ≠ d) :
    (m.advance d device got written).held d' = m.held d' := Function.update_of_ne h _ _

end Advance

end Machine

/-- No statement of the write fails and no mutex is poisoned that it locks before its Delta. A
compaction does not come to read the document back. -/
structure Undisturbed (env : WriteEnvironment) : Prop where
  capability : env.poisoned .capability = false
  store : env.poisoned .store = false
  crdt : env.poisoned .crdt = false
  storeFault : env.storeFault = none
  compaction : env.compaction = none ∨ env.compaction = some .markNodes
  tips : env.produce.tipsFault = none
  insert : env.produce.insertFault = none

instance (env : WriteEnvironment) : Decidable (env.compaction = none ∨
    env.compaction = some .markNodes) :=
  match h : env.compaction with
  | none => isTrue (.inl rfl)
  | some .markNodes => isTrue (.inr rfl)
  | some (.updateDocs _) => isFalse (by simp)

/-- The Delta of a write over the document that it saved. -/
structure DeltaOver (lib : CoreLibraries) (e : CrdtEngine) (saved : Document) (δ : Delta) :
    Prop where
  bytes : δ.automergeBytes = lib.save saved
  schemaHash : δ.schemaHash = e.knownSchemaHash
  authorDid : δ.authorDid = e.authorDid
  signature : δ.signature = lib.sign e.secretKey (lib.canonicalBytes δ)

section Write
variable {lib : CoreLibraries} {h : CoreHandle} {table key : String} {value : JsonValue}
  {env : WriteEnvironment}

theorem dag_compactAfterWrite (lib : EngineLibraries) (e : CrdtEngine) (table : String)
    {fault : Option CompactionFault} (hfault : fault = none ∨ fault = some .markNodes) :
    ∃ dag, (e.compactAfterWrite lib table fault).2 = { e with dag := dag } := by
  unfold compactAfterWrite maybeCompact
  split_ifs
  · rcases hfault with rfl | rfl
    · exact ⟨_, rfl⟩
    · exact ⟨e.dag, rfl⟩
  · exact ⟨e.dag, rfl⟩

theorem dag_tagReaction (h : CoreHandle) (env : TaintEnvironment) (incident : Option IncidentId)
    (root : DeltaId) :
    ∃ dag, (h.tagReaction env incident root).crdt = { h.crdt with dag := dag } := by
  cases incident with
  | none => exact ⟨h.crdt.dag, rfl⟩
  | some id => exact ⟨_, rfl⟩

/-- A production that nothing disturbs makes a Delta over the document that it leaves. -/
theorem produceWrite_of_undisturbed (lib : CoreLibraries) (h : CoreHandle) (table : String)
    (key : String) (value : JsonValue) (henv : Undisturbed env) :
    let saved := savedDocument lib.json h.crdt table key value
    ∃ tags dag compacted,
      let e : CrdtEngine := { h.crdt with doc := saved.commit, dag := dag }
      let δ := deltaOver lib e saved tags env.produce
      h.produceWrite lib table key value env =
        (.ok (δ, compacted), { h with crdt := withProduced lib e δ }) := by
  have hproduce := produceWrite_eq lib h table key value henv.crdt
  intro saved
  dsimp only at hproduce
  rw [show savedDocument lib.json h.crdt table key value = saved from rfl] at hproduce
  obtain ⟨dag, hcompacted⟩ := dag_compactAfterWrite lib.toEngineLibraries
    { h.crdt with doc := saved.commit } table henv.compaction
  simp only [hcompacted, produceDeltaWithTags_of_no_fault _ _ _ _ henv.tips henv.insert,
    Except.map] at hproduce
  exact ⟨_, dag, _, hproduce⟩

/-- A write that nothing disturbs comes to a Delta over the document that the engine then holds. -/
theorem write_of_undisturbed (lib : CoreLibraries) (key : String) (value : JsonValue)
    (hopen : h.capability.ensureLocalTrustAllowsIo = .ok ())
    (hquoted : quotable table = true) (henv : Undisturbed env) :
    let saved := savedDocument lib.json h.crdt table key value
    ∃ δ dag, writtenDelta lib h table key value env = some δ ∧ DeltaOver lib h.crdt saved δ ∧
      (h.write lib table key value env).2.crdt =
        { h.crdt with doc := saved.commit, lamport := h.crdt.lamport + 1, dag := dag } := by
  intro saved
  have hstored : (h.store.write lib.store env.storeFault table key value).1 = .ok () := by
    simp [LocalStore.write, hquoted, henv.storeFault]
  have hproducing : producing lib h table key value env = some
      { h with store := (h.store.write lib.store env.storeFault table key value).2 } := by
    simp only [producing, henv.capability, henv.store, hopen, hstored, Bool.false_eq_true, if_false]
  obtain ⟨tags, dag, compacted, hproduce⟩ := produceWrite_of_undisturbed lib
    { h with store := (h.store.write lib.store env.storeFault table key value).2 } table key value
    henv
  dsimp only at hproduce
  rw [show savedDocument lib.json ({ h with store := (h.store.write lib.store env.storeFault table
    key value).2 } : CoreHandle).crdt table key value = saved from rfl] at hproduce
  have hwrite := (producing_eq_some hproducing).2.2.2
  rw [publishRow_of_ok hproduce] at hwrite
  have hcrdt := congrArg (fun out => out.2.crdt) hwrite
  rw [(crdt_commitWrite _ table _ _ env).1] at hcrdt
  obtain ⟨dag', htagged⟩ := dag_tagReaction { h with
    store := (h.store.write lib.store env.storeFault table key value).2
    crdt := withProduced lib { h.crdt with doc := saved.commit, dag := dag }
      (deltaOver lib { h.crdt with doc := saved.commit, dag := dag } saved tags env.produce) }
    env.taint (({ h with
      store := (h.store.write lib.store env.storeFault table key value).2 } :
      CoreHandle).humanReactionIncident table key env)
    (deltaOver lib { h.crdt with doc := saved.commit, dag := dag } saved tags env.produce).id
  refine ⟨deltaOver lib { h.crdt with doc := saved.commit, dag := dag } saved tags env.produce, dag', ?_,
    ⟨rfl, rfl, rfl, rfl⟩, hcrdt.trans htagged⟩
  simp only [writtenDelta, hproducing, Option.bind_some, hproduce, Except.toOption, Option.map_some]

theorem rows_write (hopen : h.capability.ensureLocalTrustAllowsIo = .ok ())
    (hquoted : quotable table = true) (henv : Undisturbed env)
    (hreads : SavesReadBack lib h table key value) :
    (h.write lib table key value env).2.capability = h.capability ∧
      text? (h.write lib table key value env).2.store table key =
        some (lib.json.toString value) ∧
      ∀ table' key', (sqlName table', key') ≠ (sqlName table, key) →
        text? (h.write lib table key value env).2.store table' key' =
          text? h.store table' key' := by
  have hstored : (h.store.write lib.store env.storeFault table key value).1 = .ok () := by
    simp [LocalStore.write, hquoted, henv.storeFault]
  have hproducing : producing lib h table key value env = some
      { h with store := (h.store.write lib.store env.storeFault table key value).2 } := by
    simp only [producing, henv.capability, henv.store, hopen, hstored, Bool.false_eq_true, if_false]
  have hreads' : SavesReadBack lib { h with
      store := (h.store.write lib.store env.storeFault table key value).2 } table key value := hreads
  rw [(producing_eq_some hproducing).2.2.2]
  refine ⟨(text?_publishRow hreads' table key).2, ?_, fun table' key' hother => ?_⟩
  · rw [(text?_publishRow hreads' table key).1, henv.storeFault, text?,
      LocalStore.row?_write_self hquoted]
    rfl
  · rw [(text?_publishRow hreads' table' key').1, text?, text?,
      LocalStore.row?_write_other hquoted env.storeFault value hother]

def Refused (env : WriteEnvironment) : Prop :=
  env.poisoned .capability = true ∨ env.poisoned .store = true ∨ env.storeFault ≠ none

instance (env : WriteEnvironment) : Decidable (Refused env) := by
  unfold Refused
  infer_instance

/-- A write that fails before its row is stored leaves the texts of all rows. -/
theorem write_of_refused (lib : CoreLibraries) (key : String) (value : JsonValue)
    (hopen : h.capability.ensureLocalTrustAllowsIo = .ok ()) (hquoted : quotable table = true)
    (henv : Refused env) :
    ∃ store, (h.write lib table key value env).2 = { h with store := store } ∧
      (∀ table' key', text? store table' key' = text? h.store table' key') ∧
      made lib h table key value env = [] := by
  by_cases hcapability : env.poisoned .capability = true
  · refine ⟨h.store, ?_, fun _ _ => rfl, ?_⟩
    · simp [CoreHandle.write, hcapability]
    · simp [made, writtenDelta, producing, hcapability]
  by_cases hstore : env.poisoned .store = true
  · refine ⟨h.store, ?_, fun _ _ => rfl, ?_⟩
    · simp [CoreHandle.write, hcapability, hopen, hstore]
    · simp [made, writtenDelta, producing, hcapability, hopen, hstore]
  obtain ⟨fault, hfault⟩ := Option.ne_none_iff_exists'.mp
    ((henv.resolve_left hcapability).resolve_left hstore)
  obtain ⟨err, herr⟩ : ∃ err,
      (h.store.write lib.store env.storeFault table key value).1 = .error err := by
    rw [hfault]
    cases fault <;> simp [LocalStore.write, hquoted]
  refine ⟨(h.store.write lib.store env.storeFault table key value).2, ?_, fun table' key' => ?_, ?_⟩
  · simp [CoreHandle.write, hcapability, hopen, hstore, herr]
  · rw [hfault, text?, text?, LocalStore.row?_write_fault hquoted]
  · simp [made, writtenDelta, producing, hcapability, hopen, hstore, herr]

end Write

/-- Scalars are put under `ROOT` keys, and nothing else is done. -/
def Scalars (ops : List Op) : Prop :=
  ∀ o ∈ ops, ∃ key value pred, o.body = .set (.root key) (.put value) pred

theorem Scalars.not_delete {ops : List Op} (h : Scalars ops) {o : Op} (ho : o ∈ ops) :
    o.action ≠ .delete := by
  obtain ⟨key, value, pred, hbody⟩ := h o ho
  rw [Op.action, hbody]
  exact fun hdelete => by cases hdelete

theorem Scalars.listInserts_eq_nil {d : Document} (h : Scalars d.ops) : listInserts d = [] := by
  refine listInserts_of_sets fun o ho => ?_
  obtain ⟨key, value, pred, hbody⟩ := h o ho
  rw [hbody]
  trivial

section Documents
variable {lib : CoreLibraries} {e : CrdtEngine} {table key : String} {value : JsonValue}
  {d d' saved : Document}

theorem Scalars.put (hd : Scalars d.ops) (key : String) (scalar : ScalarValue) :
    Scalars (d.put key scalar).ops := by
  rcases put_eq d key scalar with hput | ⟨pred, hput⟩ <;> rw [hput]
  · exact hd
  · rw [Document.ops_append]
    intro o ho
    rcases List.mem_append.mp ho with ho | ho
    · exact hd o ho
    · rw [List.mem_singleton.mp ho]
      exact ⟨key, scalar, pred, rfl⟩

theorem actor_merge {incoming merged : Document} (h : d.merge incoming = some merged) :
    merged.actor = d.actor := by
  simp only [Document.merge] at h
  split_ifs at h
  cases h
  exact Document.actor_commit d

/-- What a write saves is the document with at most one change more. -/
structure Saved (before saved : Document) : Prop where
  valid : saved.Valid
  scalars : Scalars saved.ops
  actor : saved.actor = before.actor
  changes : saved.changes = before.changes

theorem saved_savedDocument (json : JsonText) (table key : String) (value : JsonValue)
    (hvalid : e.doc.Valid) (hscalars : Scalars e.doc.ops) :
    Saved e.doc (savedDocument json e table key value) := by
  refine ⟨((hvalid.put _ _).put _ _).put _ _, ((hscalars.put _ _).put _ _).put _ _, ?_,
    changes_savedDocument json e table key value⟩
  simp only [savedDocument, Document.actor_put]

theorem loadIncomingDoc_of_readsBack {δ : Delta} (hbytes : δ.automergeBytes = lib.save saved)
    (hreads : ReadsBack lib.toEngineLibraries saved) :
    loadIncomingDoc lib.toEngineLibraries δ.automergeBytes =
      some ⟨[], saved.commit.changes, []⟩ := by
  rw [hbytes, loadIncomingDoc, if_neg hreads.1, hreads.2]
  rfl

theorem ops_commit_changes (d : Document) :
    (⟨[], d.commit.changes, []⟩ : Document).ops = d.ops := by
  rw [Document.ops_of_pending rfl, ← Document.ops_commit d, Document.ops_of_pending (Document.pending_commit d)]

end Documents

def Signs (lib : IdentityLibraries) (e : CrdtEngine) : Prop :=
  ∃ publicKey, lib.resolveDid e.authorDid = .ok publicKey ∧
    ∀ payload, lib.verify publicKey payload (lib.sign e.secretKey payload) = .ok ()

/-- A Delta over a document that names the row of its write and shows the value under its key. -/
structure WellWritten (lib : CoreLibraries) (schema : SchemaIdentifierHash) (w : TableWrite) :
    Prop where
  signed : WellSigned lib.toEngineLibraries schema w.delta
  valid : (payload lib w).Valid
  scalars : Scalars (payload lib w).ops
  table : (payload lib w).rootScalar "_tirbase_table" = some (.str w.table)
  key : (payload lib w).rootScalar "_tirbase_key" = some (.str w.key)
  value : (payload lib w).rootScalar w.key = some (scalarOfJson lib.json w.value)

structure MadeOf (lib : EngineLibraries) (schema : SchemaIdentifierHash) (e : CrdtEngine)
    (δs : List Delta) : Prop where
  committed : e.doc.pending = []
  changes : ∀ c, c ∈ e.doc.changes ↔ ∃ δ ∈ δs, c ∈ payloadChanges lib δ
  notRevoked : e.revokedDids = []
  known : schema ∈ e.knownSchemas

/-- An engine in one history with others: its document is made of the Deltas that the device has,
and the changes of its own actor are all there, numbered up to their count. -/
structure InHistory (lib : CoreLibraries) (schema : SchemaIdentifierHash) (changes : List Change)
    (held : List TableWrite) (e : CrdtEngine) : Prop where
  holds : MadeOf lib.toEngineLibraries schema e (held.map TableWrite.delta)
  schema : e.knownSchemaHash = schema
  signs : Signs lib.toIdentityLibraries e
  valid : e.doc.Valid
  scalars : Scalars e.doc.ops
  covered : ∀ c ∈ e.doc.changes, c ∈ changes
  own : ∀ c ∈ changes, c.actor = e.doc.actor → c ∈ e.doc.changes
  counted : ∀ c ∈ e.doc.changes, c.actor = e.doc.actor →
    c.seq ≤ (e.doc.changes.filter fun c' => c'.actor == c.actor).length

section History
variable {lib : CoreLibraries} {schema : SchemaIdentifierHash} {changes : List Change}
  {held : List TableWrite} {e : CrdtEngine} {table key : String} {value : JsonValue}
  {saved : Document} {δ : Delta}

theorem InHistory.join (h : InHistory lib schema changes held e) {new : List Change}
    (hnew : ∀ c ∈ new, c ∈ changes ∨ c.actor ≠ e.doc.actor) :
    InHistory lib schema (changes ++ new) held e := by
  refine ⟨h.holds, h.schema, h.signs, h.valid, h.scalars, fun c hc => ?_, fun c hc hactor => ?_,
    h.counted⟩
  · exact List.mem_append_left _ (h.covered c hc)
  · rcases List.mem_append.mp hc with hc | hc
    · exact h.own c hc hactor
    · exact h.own c ((hnew c hc).resolve_right (not_not.mpr hactor)) hactor

theorem mem_savedChanges (hsaved : Saved e.doc saved) {c : Change} :
    c ∈ saved.commit.changes ↔ c ∈ e.doc.changes ∨ c ∈ closing saved := by
  rw [changes_commit, hsaved.changes, List.mem_append]

/-- A write keeps the history one: its change takes the next number of its actor, and its
operations are above all that the document holds. -/
theorem sharedHistory_write (hshared : SharedHistory changes)
    (h : InHistory lib schema changes held e) (hsaved : Saved e.doc saved) :
    SharedHistory (changes ++ saved.commit.changes) := by
  have hmade : Made e.doc.changes (closing saved) := made_closing hsaved.changes
  have hactor : ∀ c ∈ closing saved, c.actor = e.doc.actor := by
    intro c hc
    unfold closing at hc
    split_ifs at hc
    · cases hc
    · rw [List.mem_singleton.mp hc]
      exact hsaved.actor
  have hsplit : ∀ c ∈ changes ++ saved.commit.changes, c ∈ changes ∨ c ∈ closing saved := by
    intro c hc
    rcases List.mem_append.mp hc with hc | hc
    · exact .inl hc
    · exact ((mem_savedChanges hsaved).mp hc).imp_left (h.covered c)
  have hnext : ∀ c ∈ changes, ∀ new ∈ closing saved, c.actor = new.actor → c.seq ≠ new.seq := by
    intro c hc new hnew hsame hseq
    have hown := hsame.trans (hactor new hnew)
    have hcount := h.counted c (h.own c hc hown) hown
    have hnumber := hmade.seq new hnew
    rw [hsame] at hcount
    omega
  refine ⟨fun c hc c' hc' hsame hseq => ?_, fun o ho o' ho' hid => ?_⟩
  · rcases hsplit c hc with hc | hc <;> rcases hsplit c' hc' with hc' | hc'
    · exact hshared.uniqueChanges c hc c' hc' hsame hseq
    · exact absurd hseq (hnext c hc c' hc' hsame)
    · exact absurd hseq.symm (hnext c' hc' c hc hsame.symm)
    · exact hmade.single c hc c' hc'
  · have hops : ∀ o, o ∈ saved.ops ↔ ∃ c ∈ saved.commit.changes, o ∈ c.ops := by
      intro o
      rw [← ops_commit_changes saved, Document.ops_of_pending rfl]
      exact List.mem_flatMap
    have hheld : ∀ o c new, c ∈ changes → o ∈ c.ops → new ∈ closing saved → ∀ p ∈ new.ops,
        o.id = p.id → o ∈ saved.ops ∧ p ∈ saved.ops := by
      intro o c new hc hoc hnew p hp hsame
      have hown : c.actor = e.doc.actor := by
        rw [← (mem_numberOps hoc).1, hsame, (mem_numberOps hp).1, hactor new hnew]
      refine ⟨(hops o).mpr ⟨c, (mem_savedChanges hsaved).mpr (.inl (h.own c hc hown)), hoc⟩, ?_⟩
      exact (hops p).mpr ⟨new, (mem_savedChanges hsaved).mpr (.inr hnew), hp⟩
    obtain ⟨c, hc, hoc⟩ := List.mem_flatMap.mp ho
    obtain ⟨c', hc', hoc'⟩ := List.mem_flatMap.mp ho'
    rcases hsplit c hc with hc | hc <;> rcases hsplit c' hc' with hc' | hc'
    · exact hshared.uniqueOps o (List.mem_flatMap.mpr ⟨c, hc, hoc⟩) o'
        (List.mem_flatMap.mpr ⟨c', hc', hoc'⟩) hid
    · obtain ⟨hs, hs'⟩ := hheld o c c' hc hoc hc' o' hoc' hid
      exact hsaved.valid.unique o hs o' hs' hid
    · obtain ⟨hs', hs⟩ := hheld o' c' c hc' hoc' hc o hoc hid.symm
      exact hsaved.valid.unique o hs o' hs' hid
    · refine hsaved.valid.unique o ?_ o' ?_ hid
      · exact (hops o).mpr ⟨c, (mem_savedChanges hsaved).mpr (.inr hc), hoc⟩
      · exact (hops o').mpr ⟨c', (mem_savedChanges hsaved).mpr (.inr hc'), hoc'⟩

theorem payloadChanges_of_readsBack (hdelta : DeltaOver lib e saved δ)
    (hreads : ReadsBack lib.toEngineLibraries saved) :
    payloadChanges lib.toEngineLibraries δ = saved.commit.changes := by
  rw [payloadChanges, loadIncomingDoc_of_readsBack hdelta.bytes hreads]
  rfl

/-- The Delta of a write carries what the write put into the document. -/
theorem wellWritten_of_saved (h : InHistory lib schema changes held e)
    (hsaved : saved = savedDocument lib.json e table key value) (hdelta : DeltaOver lib e saved δ)
    (hreads : ReadsBack lib.toEngineLibraries saved) (htable : key ≠ "_tirbase_table")
    (hkey : key ≠ "_tirbase_key") : WellWritten lib schema ⟨table, key, value, δ⟩ := by
  have hload := loadIncomingDoc_of_readsBack hdelta.bytes hreads
  have hpayload : payload lib ⟨table, key, value, δ⟩ = ⟨[], saved.commit.changes, []⟩ := by
    rw [payload, payloadChanges_of_readsBack hdelta hreads]
  have hops : (payload lib ⟨table, key, value, δ⟩).ops = saved.ops := by
    rw [hpayload, ops_commit_changes]
  have hkept : Saved e.doc saved :=
    hsaved ▸ saved_savedDocument lib.json table key value h.valid h.scalars
  obtain ⟨hshowsTable, hshowsKey, hshowsValue⟩ :=
    rootScalar_savedDocument lib.json table value h.valid htable hkey
  rw [← hsaved] at hshowsTable hshowsKey hshowsValue
  obtain ⟨publicKey, hresolves, hverifies⟩ := h.signs
  refine ⟨⟨hdelta.schemaHash.trans h.schema, ?_, ⟨publicKey, ?_, ?_⟩, ?_⟩, ?_, ?_, ?_, ?_, ?_⟩
  · rw [hdelta.signature, IdentityLibraries.sign]
    intro hnil
    have hlength := (lib.ed25519Sign e.secretKey (lib.canonicalBytes δ)).property
    rw [hnil] at hlength
    cases hlength
  · rw [hdelta.authorDid]
    exact hresolves
  · rw [hdelta.signature]
    exact hverifies _
  · rw [hload]
    rfl
  · rw [Document.Valid, hops]
    exact hkept.valid
  · rw [hops]
    exact hkept.scalars
  · exact (rootScalar_congr hops _).trans hshowsTable
  · exact (rootScalar_congr hops _).trans hshowsKey
  · exact (rootScalar_congr hops _).trans hshowsValue

/-- After a write the device stays in the history that its Delta has joined. -/
theorem InHistory.write (h : InHistory lib schema changes held e)
    (hsaved : saved = savedDocument lib.json e table key value) (hdelta : DeltaOver lib e saved δ)
    (hreads : ReadsBack lib.toEngineLibraries saved) (lamport : UInt64) (dag : ChangesetDag) :
    InHistory lib schema (changes ++ payloadChanges lib.toEngineLibraries δ)
      (held ++ [⟨table, key, value, δ⟩])
      { e with doc := saved.commit, lamport := lamport, dag := dag } := by
  have hkept : Saved e.doc saved :=
    hsaved ▸ saved_savedDocument lib.json table key value h.valid h.scalars
  have hmade : Made e.doc.changes (closing saved) := made_closing hkept.changes
  have hpayload := payloadChanges_of_readsBack hdelta hreads
  have hactor : saved.commit.actor = e.doc.actor := (Document.actor_commit saved).trans hkept.actor
  refine ⟨⟨Document.pending_commit saved, fun c => ?_, h.holds.notRevoked, h.holds.known⟩, h.schema,
    h.signs, ?_, ?_, fun c hc => ?_, fun c hc hown => ?_, fun c hc hown => ?_⟩
  · change c ∈ saved.commit.changes ↔ _
    rw [List.map_append]
    constructor
    · intro hc
      exact ⟨δ, List.mem_append_right _ (List.mem_singleton_self δ), hpayload ▸ hc⟩
    · rintro ⟨δ', hδ', hc⟩
      rcases List.mem_append.mp hδ' with hδ' | hδ'
      · exact (mem_savedChanges hkept).mpr (.inl ((h.holds.changes c).mpr ⟨δ', hδ', hc⟩))
      · rw [List.mem_singleton.mp hδ'] at hc
        exact hpayload ▸ hc
  · change saved.commit.Valid
    rw [Document.Valid, Document.ops_commit]
    exact hkept.valid
  · change Scalars saved.commit.ops
    rw [Document.ops_commit]
    exact hkept.scalars
  · rw [hpayload]
    exact List.mem_append_right _ hc
  · rw [hpayload] at hc
    rcases List.mem_append.mp hc with hc | hc
    · exact (mem_savedChanges hkept).mpr (.inl (h.own c hc (hown.trans hactor)))
    · exact hc
  · change c.seq ≤ (saved.commit.changes.filter _).length
    rw [changes_commit, hkept.changes, List.filter_append, List.length_append]
    rcases (mem_savedChanges hkept).mp hc with hc | hc
    · have hcount := h.counted c hc (hown.trans hactor)
      omega
    · have hnumber := hmade.seq c hc
      have hself : 0 < ((closing saved).filter fun c' => c'.actor == c.actor).length :=
        List.length_pos_of_mem (List.mem_filter.mpr ⟨hc, beq_self_eq_true _⟩)
      omega

/-- What a merge does that nothing overrides and no statement fails. -/
structure Merges (lib : CoreLibraries) (e : CrdtEngine) (w : TableWrite) (merged : Document) :
    Prop where
  merge : e.doc.merge (payload lib w) = some merged
  ops : SameOps merged.ops (e.doc.ops ++ (payload lib w).ops)
  apply : ∀ now, e.apply lib.toEngineLibraries .native w.delta now none =
    (.ok (.merged (e.advanceLamport w.delta)),
      mergedEngine .native lib.toEngineLibraries e w.delta false merged)

theorem InHistory.deliver (h : InHistory lib schema changes held e)
    (hshared : SharedHistory changes) {w : TableWrite} (hw : WellWritten lib schema w)
    (hcovered : ∀ c ∈ payloadChanges lib.toEngineLibraries w.delta, c ∈ changes)
    (hfree : OverrideFree lib.toEngineLibraries e w.delta) :
    ∃ merged, Merges lib e w merged ∧ InHistory lib schema changes (held ++ [w])
      (mergedEngine .native lib.toEngineLibraries e w.delta false merged) := by
  obtain ⟨incoming, hload⟩ := Option.isSome_iff_exists.mp hw.signed.payload
  have hincoming : incoming = payload lib w := by
    have hchanges : payloadChanges lib.toEngineLibraries w.delta = incoming.changes := by
      rw [payloadChanges, hload]
      rfl
    unfold loadIncomingDoc at hload
    split_ifs at hload
    obtain ⟨loaded, -, rfl⟩ := Option.map_eq_some_iff.mp hload
    rw [payload, hchanges]
  subst hincoming
  have hcommit : e.doc.commit = e.doc := Document.commit_of_committed h.holds.committed
  have hboth : ∀ c ∈ e.doc.commit.changes ++ (payload lib w).changes, c ∈ changes := by
    intro c hc
    rw [hcommit] at hc
    exact (List.mem_append.mp hc).elim (h.covered c) (hcovered c)
  obtain ⟨merged, hmerge⟩ := merge_of_sharedHistory rfl (hshared.subset hboth)
  obtain ⟨⟨added, hadded, hsublist, -⟩, hcovers, hpending⟩ := merge_grows rfl hmerge
  rw [closing, if_pos h.holds.committed, List.append_nil] at hadded
  have hmem : ∀ c, c ∈ merged.changes ↔
      c ∈ e.doc.changes ∨ c ∈ payloadChanges lib.toEngineLibraries w.delta := by
    intro c
    rw [hadded, List.mem_append]
    refine ⟨fun hc => hc.imp_right fun hnew => hsublist.subset hnew, fun hc => ?_⟩
    rw [← List.mem_append, ← hadded]
    rcases hc with hc | hc
    · rw [hadded]
      exact List.mem_append_left _ hc
    · exact hcovers c hc
  have hops := Document.merge_ops hmerge
  have haccepts : e.Accepts lib.toEngineLibraries w.delta :=
    ⟨by rw [h.holds.notRevoked]; exact List.not_mem_nil, hw.signed.schemaHash ▸ h.holds.known,
      hw.signed.signed, hw.signed.verified⟩
  have hmergePayload : e.mergePayload lib.toEngineLibraries w.delta = some merged := by
    simp only [mergePayload, hload]
    exact mergeIncoming_of_listless hw.scalars.listInserts_eq_nil hmerge fun hlt =>
      hfree hlt _ hload merged hmerge
  have happly : ∀ now, e.apply lib.toEngineLibraries .native w.delta now none =
      (.ok (.merged (e.advanceLamport w.delta)),
        mergedEngine .native lib.toEngineLibraries e w.delta false merged) := by
    intro now
    rcases apply_of_pass (gate_of_accepts haccepts) hmergePayload .native now none with
      ⟨err, herr, -⟩ | happly
    · cases herr
    · exact happly
  have hcommon : UniqueIds (e.doc.ops ++ (payload lib w).ops) := by
    have hunique := (hshared.subset hboth).uniqueOps
    rw [hcommit] at hunique
    rwa [Document.ops_of_pending h.holds.committed, Document.ops_of_pending rfl,
      ← List.flatMap_append]
  have hactor := actor_merge hmerge
  refine ⟨merged, ⟨hmerge, hops, happly⟩, ?_, h.schema, h.signs, ?_, ?_, fun c hc => ?_,
    fun c hc hown => ?_, fun c hc hown => ?_⟩
  · refine ⟨hpending, fun c => ?_, h.holds.notRevoked, h.holds.known⟩
    change c ∈ merged.changes ↔ _
    rw [hmem, h.holds.changes c, List.map_append]
    simp only [List.mem_append, List.map_cons, List.map_nil, List.mem_singleton, or_and_right,
      exists_or, exists_eq_left]
  · exact hops.causallyClosed
      (h.valid.append hw.valid hcommon)
  · intro o ho
    rcases List.mem_append.mp ((hops o).mp ho) with ho | ho
    · exact h.scalars o ho
    · exact hw.scalars o ho
  · rcases (hmem c).mp hc with hc | hc
    · exact h.covered c hc
    · exact hcovered c hc
  · exact (hmem c).mpr (.inl (h.own c hc (hown.trans hactor)))
  · have hcount := h.counted c
      (h.own c (((hmem c).mp hc).elim (h.covered c) (hcovered c)) (hown.trans hactor))
      (hown.trans hactor)
    change c.seq ≤ (merged.changes.filter _).length
    rw [hadded, List.filter_append, List.length_append]
    omega

end History

theorem rows_receive {lib : CoreLibraries} {h : CoreHandle} {δ : Delta} {env : InboundEnvironment}
    {n : UInt64} {e : CrdtEngine} (happly : h.crdt.apply lib.toEngineLibraries .native δ env.now
      env.applyFault = (.ok (.merged n), e)) :
    (h.receiveInbound lib (.inboundDelta δ) env).2.crdt = e ∧
      (h.receiveInbound lib (.inboundDelta δ) env).2.capability = h.capability ∧
      (h.receiveInbound lib (.inboundDelta δ) env).2.store =
        match projection lib e.doc δ.automergeBytes with
        | some (table, key, value) =>
          (h.store.write lib.store env.storeFault table key value).2
        | none => h.store := by
  simp only [receiveInbound, receiveDelta, happly, issueDurabilityReceipt, projectMerged]
  cases projection lib e.doc δ.automergeBytes <;> exact ⟨rfl, rfl, rfl⟩

structure OneHistory {D : Type*} (lib : CoreLibraries) (schema : SchemaIdentifierHash)
    (m : Mesh D) : Prop where
  written : ∀ w ∈ m.written, WellWritten lib schema w
  shared : SharedHistory (history lib m.written)
  held : ∀ d, ∀ w ∈ m.held d, w ∈ m.written
  device : ∀ d, InHistory lib schema (history lib m.written) (m.held d) (m.device d).crdt
  apart : ∀ d d', (m.device d).crdt.doc.actor = (m.device d').crdt.doc.actor → d = d'
  trusted : ∀ d, (m.device d).capability.ensureLocalTrustAllowsIo = .ok ()

section Mesh
variable {D : Type*} [DecidableEq D] {lib : CoreLibraries} {schema : SchemaIdentifierHash}
  {m : Mesh D} {d : D}

theorem history_append (lib : CoreLibraries) (written new : List TableWrite) :
    history lib (written ++ new) = history lib written ++ history lib new := List.flatMap_append

/-- One device has moved on, and what it wrote has joined the history. -/
theorem OneHistory.advance (h : OneHistory lib schema m) {device : CoreHandle}
    {got new : List TableWrite} (hwritten : ∀ w ∈ new, WellWritten lib schema w)
    (hshared : SharedHistory (history lib (m.written ++ new)))
    (hgot : ∀ w ∈ got, w ∈ m.written ++ new)
    (hdevice : InHistory lib schema (history lib (m.written ++ new)) (m.held d ++ got) device.crdt)
    (hactor : device.crdt.doc.actor = (m.device d).crdt.doc.actor)
    (htrust : device.capability = (m.device d).capability)
    (hown : ∀ c ∈ history lib new,
      c ∈ history lib m.written ∨ c.actor = (m.device d).crdt.doc.actor) :
    OneHistory lib schema (m.advance d device got new) := by
  refine ⟨fun w hw => ?_, hshared, fun d' w hw => ?_, fun d' => ?_, fun d' d'' hsame => ?_,
    fun d' => ?_⟩
  · exact (List.mem_append.mp hw).elim (h.written w) (hwritten w)
  · by_cases hd : d' = d
    · subst hd
      rw [held_advance_self] at hw
      exact (List.mem_append.mp hw).elim
        (fun hw => List.mem_append_left _ (h.held d' w hw)) (hgot w)
    · rw [held_advance_other hd] at hw
      exact List.mem_append_left _ (h.held d' w hw)
  · by_cases hd : d' = d
    · subst hd
      rw [device_advance_self, held_advance_self]
      exact hdevice
    · rw [device_advance_other hd, held_advance_other hd, written_advance, history_append]
      refine (h.device d').join fun c hc => (hown c hc).imp_right fun hactor' hsame => ?_
      exact hd (h.apart d' d (hsame.symm.trans hactor'))
  · have hkept : ∀ x, ((m.advance d device got new).device x).crdt.doc.actor =
        (m.device x).crdt.doc.actor := by
      intro x
      by_cases hx : x = d
      · subst hx
        rw [device_advance_self]
        exact hactor
      · rw [device_advance_other hx]
    exact h.apart d' d'' ((hkept d').symm.trans (hsame.trans (hkept d'')))
  · by_cases hd : d' = d
    · subst hd
      rw [device_advance_self, htrust]
      exact h.trusted d'
    · rw [device_advance_other hd]
      exact h.trusted d'

theorem step_write_of_refused (h : OneHistory lib schema m) {table key : String}
    {value : JsonValue} {env : WriteEnvironment} (hquoted : quotable table = true)
    (henv : Refused env) :
    ∃ store, m.step lib (.write d table key value env) =
        m.advance d { m.device d with store := store } [] [] ∧
      (∀ table' key', text? store table' key' = text? (m.device d).store table' key') ∧
      OneHistory lib schema (m.step lib (.write d table key value env)) := by
  obtain ⟨store, hdevice, htexts, hmade⟩ :=
    write_of_refused lib key value (h.trusted d) hquoted henv
  have hstep : m.step lib (.write d table key value env) =
      m.advance d { m.device d with store := store } [] [] := by
    simp only [Mesh.step, hdevice, hmade]
  refine ⟨store, hstep, htexts, ?_⟩
  rw [hstep]
  refine h.advance (fun w hw => absurd hw List.not_mem_nil) ?_
    (fun w hw => absurd hw List.not_mem_nil) ?_ rfl rfl fun c hc => absurd hc List.not_mem_nil
  · rw [List.append_nil]
    exact h.shared
  · rw [List.append_nil, List.append_nil]
    exact h.device d

theorem step_write (h : OneHistory lib schema m) {table key : String} {value : JsonValue}
    {env : WriteEnvironment} (hquoted : quotable table = true)
    (htableName : key ≠ "_tirbase_table") (hkeyName : key ≠ "_tirbase_key")
    (henv : Undisturbed env) (hreads : SavesReadBack lib (m.device d) table key value) :
    ∃ δ, DeltaOver lib (m.device d).crdt
        (savedDocument lib.json (m.device d).crdt table key value) δ ∧
      m.step lib (.write d table key value env) =
        m.advance d ((m.device d).write lib table key value env).2 [⟨table, key, value, δ⟩]
          [⟨table, key, value, δ⟩] ∧
      OneHistory lib schema (m.step lib (.write d table key value env)) := by
  obtain ⟨δ, dag, hδ, hdelta, hcrdt⟩ :=
    write_of_undisturbed lib key value (h.trusted d) hquoted henv
  have hstep : m.step lib (.write d table key value env) =
      m.advance d ((m.device d).write lib table key value env).2 [⟨table, key, value, δ⟩]
        [⟨table, key, value, δ⟩] := by
    simp only [Mesh.step, made, hδ, Option.map_some, Option.toList_some]
  have hback := hreads.1
  have hwell := wellWritten_of_saved (h.device d) rfl hdelta hback htableName hkeyName
  have hkept := saved_savedDocument lib.json table key value (h.device d).valid
    (h.device d).scalars
  have hnew : history lib [⟨table, key, value, δ⟩] = payloadChanges lib.toEngineLibraries δ := by
    simp [history]
  refine ⟨δ, hdelta, hstep, ?_⟩
  rw [hstep]
  refine h.advance (fun w hw => ?_) ?_ (fun w hw => List.mem_append_right _ hw) ?_ ?_
    (rows_write (h.trusted d) hquoted henv hreads).1 fun c hc => ?_
  · rw [List.mem_singleton.mp hw]
    exact hwell
  · rw [history_append, hnew, payloadChanges_of_readsBack hdelta hback]
    exact sharedHistory_write h.shared (h.device d) hkept
  · rw [history_append, hnew, hcrdt]
    exact (h.device d).write rfl hdelta hback _ dag
  · rw [hcrdt]
    exact (Document.actor_commit _).trans hkept.actor
  · rw [hnew, payloadChanges_of_readsBack hdelta hback] at hc
    refine ((mem_savedChanges hkept).mp hc).imp ((h.device d).covered c) fun hc => ?_
    unfold closing at hc
    split_ifs at hc
    · cases hc
    · rw [List.mem_singleton.mp hc]
      exact hkept.actor

theorem step_deliver (h : OneHistory lib schema m) {w : TableWrite} (hw : w ∈ m.written)
    {env : InboundEnvironment} (hfault : env.applyFault = none)
    (hfree : OverrideFree lib.toEngineLibraries (m.device d).crdt w.delta) :
    ∃ merged, Merges lib (m.device d).crdt w merged ∧
      ((m.device d).receiveInbound lib (.inboundDelta w.delta) env).2.store =
        (match projection lib merged w.delta.automergeBytes with
        | some (table, key, value) =>
          ((m.device d).store.write lib.store env.storeFault table key value).2
        | none => (m.device d).store) ∧
      InHistory lib schema (history lib m.written) (m.held d ++ [w])
        (mergedEngine .native lib.toEngineLibraries (m.device d).crdt w.delta false merged) ∧
      OneHistory lib schema (m.step lib (.deliver d w env)) := by
  have hcovered : ∀ c ∈ payloadChanges lib.toEngineLibraries w.delta, c ∈ history lib m.written :=
    fun c hc => List.mem_flatMap.mpr ⟨w, hw, hc⟩
  obtain ⟨merged, hmerges, hdevice⟩ :=
    (h.device d).deliver h.shared (h.written w hw) hcovered hfree
  have happly := hmerges.apply env.now
  rw [← hfault] at happly
  obtain ⟨hcrdt, htrust, hstore⟩ := rows_receive happly
  refine ⟨merged, hmerges, hstore, hdevice, ?_⟩
  refine h.advance (fun w hw => absurd hw List.not_mem_nil) ?_ (fun w' hw' => ?_) ?_ ?_ htrust
    fun c hc => absurd hc List.not_mem_nil
  · rw [List.append_nil]
    exact h.shared
  · rw [List.append_nil, List.mem_singleton.mp hw']
    exact hw
  · rw [List.append_nil, hcrdt]
    exact hdevice
  · rw [hcrdt]
    exact actor_merge hmerges.merge

end Mesh

end TirBase.MeshRuns
