import TirBase.CoreHandle
import TirBase.DocumentGrowth
import TirBase.LamportClock

/-! # What a write does to the CRDT engine

A write that gets past the gate and the row puts its value into the document, saves the whole
document and signs a Delta over it. Whatever fails on the way, the history only grows. -/
namespace TirBase.WrittenDeltas
open Automerge CoreHandle CrdtEngine DocumentGrowth DocumentHistories ScalarProjection

variable (lib : CoreLibraries)

/-- The device when a write comes to its Delta, if it gets so far. -/
def producing (h : CoreHandle) (table key : String) (data : JsonValue) (env : WriteEnvironment) :
    Option CoreHandle :=
  if env.poisoned .capability then none
  else
    match h.capability.ensureLocalTrustAllowsIo with
    | .error _ => none
    | .ok () =>
      if env.poisoned .store then none
      else
        let stored := h.store.write lib.store env.storeFault table key data
        match stored.1 with
        | .error _ => none
        | .ok () => some { h with store := stored.2 }

def writtenDelta (h : CoreHandle) (table key : String) (data : JsonValue)
    (env : WriteEnvironment) : Option Delta :=
  (producing lib h table key data env).bind fun h' =>
    (h'.produceWrite lib table key data env).1.toOption.map Prod.fst

/-- The saved bytes load as the changes of the document. -/
def ReadsBack (lib : EngineLibraries) (d : Document) : Prop :=
  lib.save d ≠ [] ∧ lib.load (lib.save d) = some d.commit.changes

/-- The document that a write saves reads back, also when the compaction saves it once more. -/
def SavesReadBack (h : CoreHandle) (table key : String) (data : JsonValue) : Prop :=
  let saved := savedDocument lib.json h.crdt table key data
  ReadsBack lib.toEngineLibraries saved ∧ ReadsBack lib.toEngineLibraries saved.commit

/-- The Delta over a document, behind the tips. -/
def deltaOver (e : CrdtEngine) (d : Document) (tags : List DeltaTag) (env : ProduceEnvironment) :
    Delta :=
  signedDelta lib.toEngineLibraries { e with lamport := e.lamport + 1 } (lib.save d) .low
    (e.dagTips env.hash) tags env.now

def withProduced (e : CrdtEngine) (δ : Delta) : CrdtEngine :=
  { e with
    lamport := e.lamport + 1
    dag := e.dag.insert (dagNode lib.toEngineLibraries { e with lamport := e.lamport + 1 } δ) }

/-- The same device, with a history that may have grown. -/
structure Keeps (e e' : CrdtEngine) : Prop where
  authorDid : e'.authorDid = e.authorDid
  secretKey : e'.secretKey = e.secretKey
  knownSchemaHash : e'.knownSchemaHash = e.knownSchemaHash
  changes : e.doc.changes <+: e'.doc.changes
  written : Written e.doc → Written e'.doc
  graph : e'.dag.graph = e.dag.graph

theorem Keeps.refl (e : CrdtEngine) : Keeps e e := ⟨rfl, rfl, rfl, List.prefix_rfl, id, rfl⟩

theorem Keeps.trans {e e' e'' : CrdtEngine} (h : Keeps e e') (h' : Keeps e' e'') : Keeps e e'' :=
  ⟨h'.authorDid.trans h.authorDid, h'.secretKey.trans h.secretKey,
    h'.knownSchemaHash.trans h.knownSchemaHash, h.changes.trans h'.changes, h'.written ∘ h.written,
    h'.graph.trans h.graph⟩

variable {lib}

theorem changes_savedDocument (json : JsonText) (e : CrdtEngine) (table key : String)
    (data : JsonValue) : (savedDocument json e table key data).changes = e.doc.changes := by
  simp only [savedDocument, changes_put]

theorem keeps_doc (e : CrdtEngine) {d : Document} (hchanges : e.doc.changes <+: d.changes)
    (hwritten : Written e.doc → Written d) : Keeps e { e with doc := d } :=
  ⟨rfl, rfl, rfl, hchanges, hwritten, rfl⟩

theorem keeps_compactAfterWrite {e : CrdtEngine} (hpending : e.doc.pending = [])
    (hreads : lib.load (lib.save e.doc) = some e.doc.commit.changes) (table : String)
    (fault : Option CompactionFault) :
    Keeps e (e.compactAfterWrite lib.toEngineLibraries table fault).2 ∧
      (e.compactAfterWrite lib.toEngineLibraries table fault).2.doc.changes = e.doc.changes ∧
      (e.compactAfterWrite lib.toEngineLibraries table fault).2.doc.pending = [] := by
  unfold compactAfterWrite maybeCompact
  split_ifs
  · cases fault with
    | none =>
      refine ⟨⟨rfl, rfl, rfl, List.prefix_rfl, id, ?_⟩, rfl, hpending⟩
      simp only [compactTable, ChangesetDag.graph, ChangesetDag.ids, List.map_map]
      rfl
    | some fault =>
      cases fault with
      | markNodes => exact ⟨.refl e, rfl, hpending⟩
      | updateDocs restoredActor =>
        simp only [compactTable, hreads, Document.commit_of_committed hpending]
        refine ⟨keeps_doc e List.prefix_rfl fun hwritten => ?_, trivial, trivial⟩
        exact ⟨hwritten.numbered, hwritten.changes, fun _ hb => absurd hb List.not_mem_nil⟩
  · exact ⟨.refl e, rfl, hpending⟩

/-- How a production ends: with an error, or with a Delta over the saved document that is stored
behind the tips. -/
theorem produceWrite_cases {h : CoreHandle} {table key : String} {data : JsonValue}
    (hreads : SavesReadBack lib h table key data) (env : WriteEnvironment) :
    (∃ err e', h.produceWrite lib table key data env = (.error err, { h with crdt := e' }) ∧
        Keeps h.crdt e') ∨
      ∃ e' tags compacted, Keeps h.crdt e' ∧
        e'.doc.changes = (savedDocument lib.json h.crdt table key data).commit.changes ∧
        let δ := deltaOver lib e' (savedDocument lib.json h.crdt table key data) tags env.produce
        h.produceWrite lib table key data env =
          (.ok (δ, compacted), { h with crdt := withProduced lib e' δ }) := by
  by_cases hcrdt : env.poisoned .crdt = true
  · refine .inl ⟨poisonError "crdt", h.crdt, ?_, .refl _⟩
    simp only [produceWrite, hcrdt, if_true]
  rw [Bool.not_eq_true] at hcrdt
  have hproduce := produceWrite_eq lib h table key data hcrdt
  dsimp only at hproduce ⊢
  generalize hsaved : savedDocument lib.json h.crdt table key data = saved at hproduce ⊢
  have hput : Keeps h.crdt { h.crdt with doc := saved.commit } := by
    rw [← hsaved]
    refine keeps_doc h.crdt ?_ fun hwritten => (((hwritten.put _ _).put _ _).put _ _).commit
    rw [← changes_savedDocument lib.json h.crdt table key data]
    exact prefix_commit _
  obtain ⟨hcompact, hchanges, hpending⟩ := keeps_compactAfterWrite
    (e := { h.crdt with doc := saved.commit }) (Document.pending_commit saved)
    (hsaved ▸ hreads.2.2) table env.compaction
  rw [hproduce]
  generalize hout : ({ h.crdt with doc := saved.commit } : CrdtEngine).compactAfterWrite
    lib.toEngineLibraries table env.compaction = out at hcompact hchanges hpending ⊢
  obtain ⟨compacted, e'⟩ := out
  dsimp only at hcompact hchanges hpending ⊢
  by_cases hfault : env.produce.tipsFault = none ∧ env.produce.insertFault = none
  · rw [produceDeltaWithTags_of_no_fault e' _ _ _ hfault.1 hfault.2]
    exact .inr ⟨e', _, compacted, hput.trans hcompact, hchanges, rfl⟩
  · obtain ⟨err, hproduced⟩ := produceDeltaWithTags_of_fault lib.toEngineLibraries e'
      (lib.save saved) .low
      ((h.humanReactionIncident table key env).toList.map .contaminatedByHumanReaction) hfault
    have hclock : Keeps e' { e' with lamport := e'.lamport + 1 } :=
      ⟨rfl, rfl, rfl, List.prefix_rfl, id, rfl⟩
    refine .inl ⟨err, { e' with lamport := e'.lamport + 1 }, ?_,
      hput.trans (hcompact.trans hclock)⟩
    rw [hproduced]
    rfl

theorem crdt_commitWrite (h : CoreHandle) (table : String) (δ : Delta) (compacted : Bool)
    (env : WriteEnvironment) : (h.commitWrite lib table δ compacted env).2.crdt = h.crdt ∧
      (h.commitWrite lib table δ compacted env).2.migration.corruptedSchemaWindows =
        h.migration.corruptedSchemaWindows := by
  have hwindows : ∀ h' : CoreHandle, (h'.captureWrite lib table δ env).crdt = h'.crdt ∧
      (h'.captureWrite lib table δ env).migration.corruptedSchemaWindows =
        h'.migration.corruptedSchemaWindows := by
    intro h'
    unfold captureWrite SchemaMigrationEngine.recordCorruptedWindowWrite
    split_ifs
    · exact ⟨rfl, rfl⟩
    · refine ⟨rfl, ?_⟩
      dsimp only
      split
      · rfl
      · dsimp only
        split_ifs <;> rfl
  have hpublish : ∀ h' : CoreHandle, (h'.publishWrite lib δ env).2.crdt = h'.crdt ∧
      (h'.publishWrite lib δ env).2.migration = h'.migration := by
    intro h'
    unfold publishWrite
    split_ifs <;> exact ⟨rfl, rfl⟩
  have hregister : (h.registerWrite lib δ compacted env).2.crdt = h.crdt ∧
      (h.registerWrite lib δ compacted env).2.migration = h.migration := by
    unfold registerWrite
    by_cases hmutex : env.poisoned .durability = true
    · rw [if_pos hmutex]
      exact ⟨rfl, rfl⟩
    · rw [if_neg hmutex]
      dsimp only
      split <;> exact ⟨rfl, rfl⟩
  unfold commitWrite
  dsimp only
  split
  · exact ⟨hregister.1, by rw [hregister.2]⟩
  · obtain ⟨hcrdt, hmigration⟩ := hpublish
      ((h.registerWrite lib δ compacted env).2.captureWrite lib table δ env)
    obtain ⟨hcaptured, hkept⟩ := hwindows (h.registerWrite lib δ compacted env).2
    exact ⟨hcrdt.trans (hcaptured.trans hregister.1),
      by rw [hmigration, hkept, hregister.2]⟩

theorem keeps_tagReaction (h : CoreHandle) (env : TaintEnvironment) (incident : Option IncidentId)
    (root : DeltaId) : Keeps h.crdt (h.tagReaction env incident root).crdt ∧
      (h.tagReaction env incident root).migration.corruptedSchemaWindows =
        h.migration.corruptedSchemaWindows := by
  cases incident with
  | none => exact ⟨.refl _, rfl⟩
  | some id =>
    refine ⟨⟨rfl, rfl, rfl, List.prefix_rfl, fun hwritten => hwritten, ?_⟩, rfl⟩
    exact ContaminationEngine.graph_tagContaminationRoot env root (.humanReaction id) h.cce
      h.crdt.dag h.store

/-- A write comes to its Delta with the row stored, or it ends before and nothing but the store has
changed. -/
theorem producing_cases (lib : CoreLibraries) (h : CoreHandle) (table key : String)
    (data : JsonValue) (env : WriteEnvironment) :
    (producing lib h table key data env = none ∧
        ∃ err store, h.write lib table key data env = (.error err, { h with store := store })) ∨
      ∃ store, producing lib h table key data env = some { h with store := store } ∧
        h.write lib table key data env =
          ({ h with store := store } : CoreHandle).publishRow lib table key data env := by
  unfold producing CoreHandle.write
  by_cases hcapability : env.poisoned .capability = true
  · simp only [if_pos hcapability]
    exact .inl ⟨trivial, _, h.store, rfl⟩
  simp only [if_neg hcapability]
  cases htrust : h.capability.ensureLocalTrustAllowsIo with
  | error e => exact .inl ⟨rfl, _, h.store, rfl⟩
  | ok _ =>
    by_cases hstore : env.poisoned .store = true
    · simp only [if_pos hstore]
      exact .inl ⟨trivial, _, h.store, rfl⟩
    · simp only [if_neg hstore]
      cases hstored : (h.store.write lib.store env.storeFault table key data).1 with
      | error e => exact .inl ⟨rfl, _, _, rfl⟩
      | ok _ => exact .inr ⟨_, rfl, rfl⟩

/-- The engine after a write: the history has grown, and a Delta that was made covers all of it and
is stored behind the tips. -/
theorem write_cases {h : CoreHandle} {table key : String} {data : JsonValue}
    (hreads : SavesReadBack lib h table key data) (env : WriteEnvironment) :
    (h.write lib table key data env).2.migration.corruptedSchemaWindows =
        h.migration.corruptedSchemaWindows ∧
      ((writtenDelta lib h table key data env = none ∧
          Keeps h.crdt (h.write lib table key data env).2.crdt) ∨
        ∃ e' tags, Keeps h.crdt e' ∧
          e'.doc.changes = (savedDocument lib.json h.crdt table key data).commit.changes ∧
          let δ := deltaOver lib e' (savedDocument lib.json h.crdt table key data) tags env.produce
          writtenDelta lib h table key data env = some δ ∧
            Keeps (withProduced lib e' δ) (h.write lib table key data env).2.crdt) := by
  rcases producing_cases lib h table key data env with
    ⟨hproducing, out, store, hwrite⟩ | ⟨store, hproducing, hwrite⟩
  · rw [hwrite]
    exact ⟨rfl, .inl ⟨by simp [writtenDelta, hproducing], .refl _⟩⟩
  · rw [hwrite]
    rcases produceWrite_cases (h := { h with store := store }) hreads env with
      ⟨err, e', hproduce, hkeeps⟩ | ⟨e', tags, compacted, hkeeps, hchanges, hproduce⟩
    · rw [publishRow_of_error hproduce]
      refine ⟨rfl, .inl ⟨?_, hkeeps⟩⟩
      simp [writtenDelta, hproducing, hproduce, Except.toOption]
    · generalize hsaved : savedDocument lib.json h.crdt table key data = saved at hchanges hproduce ⊢
      rw [publishRow_of_ok hproduce]
      obtain ⟨htagged, hkept⟩ := keeps_tagReaction { h with
        store := store
        crdt := withProduced lib e' (deltaOver lib e' saved tags env.produce) } env.taint
        (({ h with store := store } : CoreHandle).humanReactionIncident table key env)
        (deltaOver lib e' saved tags env.produce).id
      obtain ⟨hcrdt, hwindows⟩ :=
        crdt_commitWrite _ table (deltaOver lib e' saved tags env.produce) compacted env
      rw [hcrdt, hwindows]
      refine ⟨hkept, .inr ⟨e', tags, hkeeps, hchanges, ?_, htagged⟩⟩
      simp [writtenDelta, hproducing, hproduce, Except.toOption]

section Write
variable {lib : CoreLibraries} {h : CoreHandle} {table key : String} {data : JsonValue}
  {env : WriteEnvironment}

/-- A write ends before its Delta, or its engine is the one that made the Delta but for tags. -/
theorem crdt_write (lib : CoreLibraries) (h : CoreHandle) (table key : String) (data : JsonValue)
    (env : WriteEnvironment) :
    (producing lib h table key data env = none ∧
        (h.write lib table key data env).2.crdt = h.crdt) ∨
      ∃ store, producing lib h table key data env = some { h with store := store } ∧
        (h.write lib table key data env).2.crdt.lamport =
          (({ h with store := store } : CoreHandle).produceWrite lib table key data
            env).2.crdt.lamport ∧
        (h.write lib table key data env).2.crdt.doc =
          (({ h with store := store } : CoreHandle).produceWrite lib table key data
            env).2.crdt.doc ∧
        (({ h with store := store } : CoreHandle).produceWrite lib table key data
          env).2.crdt.dag.Retags (h.write lib table key data env).2.crdt.dag := by
  rcases producing_cases lib h table key data env with
    ⟨hproducing, out, store, hwrite⟩ | ⟨store, hproducing, hwrite⟩
  · exact .inl ⟨hproducing, by rw [hwrite]⟩
  · refine .inr ⟨store, hproducing, ?_⟩
    rw [hwrite]
    cases hproduce : ({ h with store := store } : CoreHandle).produceWrite lib table key data env with
    | mk out h' =>
      cases out with
      | error err =>
        rw [publishRow_of_error hproduce]
        exact ⟨rfl, rfl, .refl _⟩
      | ok made =>
        obtain ⟨δ, compacted⟩ := made
        rw [publishRow_of_ok hproduce, (crdt_commitWrite _ table δ compacted env).1]
        refine ⟨lamport_tagReaction _ _ _ _, doc_tagReaction _ _ _ _, ?_⟩
        unfold tagReaction
        split
        · exact .refl _
        · exact retags_tagRoot _ _ _ _

/-- The engine of a write takes three of its operations. -/
theorem tracks_produceWrite {start : ChangesetDag} (htracks : LamportClock.Tracks start h.crdt)
    (hroom : env.poisoned .crdt = false → h.crdt.lamport.toNat < 2 ^ 64 - 1) :
    LamportClock.Tracks start (h.produceWrite lib table key data env).2.crdt := by
  by_cases hpoisoned : env.poisoned .crdt = true
  · simp only [produceWrite, hpoisoned, if_true]
    exact htracks
  rw [Bool.not_eq_true] at hpoisoned
  have hwritten : LamportClock.Tracks start
      (EngineRuns.step lib.toEngineLibraries .native h.crdt (.writeScalar table key data)) :=
    htracks.step trivial
  have hclock : (h.crdt.writeScalar lib.toEngineLibraries table key data).2.lamport =
      h.crdt.lamport := LamportClock.lamport_writeScalar h.crdt table key data
  generalize hout : h.crdt.writeScalar lib.toEngineLibraries table key data = written
    at hclock
  have hengine : EngineRuns.step lib.toEngineLibraries .native h.crdt
      (.writeScalar table key data) = written.2 := congrArg Prod.snd hout
  rw [hengine] at hwritten
  obtain ⟨out, e⟩ := written
  simp only [produceWrite, hpoisoned, Bool.false_eq_true, if_false, hout]
  cases out with
  | error err => exact hwritten
  | ok bytes =>
    have hcompacted : LamportClock.Tracks start
        (EngineRuns.step lib.toEngineLibraries .native e
          (.maybeCompact (e.compactionPolicyFor table) env.compaction)) := hwritten.step trivial
    have hlamport : (e.compactAfterWrite lib.toEngineLibraries table env.compaction).2.lamport =
        h.crdt.lamport := (lamport_compactAfterWrite e table env.compaction).trans hclock
    have hproduced : LamportClock.Tracks start (EngineRuns.step lib.toEngineLibraries .native
        (e.compactAfterWrite lib.toEngineLibraries table env.compaction).2
        (.produceDeltaWithTags bytes .low []
          ((h.humanReactionIncident table key env).toList.map .contaminatedByHumanReaction)
          env.produce)) := by
      refine hcompacted.step ?_
      change (e.compactAfterWrite lib.toEngineLibraries table env.compaction).2.lamport.toNat <
        2 ^ 64 - 1
      rw [hlamport]
      exact hroom hpoisoned
    exact hproduced

theorem tracks_write {start : ChangesetDag} (htracks : LamportClock.Tracks start h.crdt)
    (hroom : (producing lib h table key data env).isSome = true → env.poisoned .crdt = false →
      h.crdt.lamport.toNat < 2 ^ 64 - 1) :
    LamportClock.Tracks start (h.write lib table key data env).2.crdt := by
  rcases crdt_write lib h table key data env with
    ⟨-, hcrdt⟩ | ⟨store, hproducing, hlamport, -, hretags⟩
  · rw [hcrdt]
    exact htracks
  · have hproduced : LamportClock.Tracks start
        (({ h with store := store } : CoreHandle).produceWrite lib table key data env).2.crdt :=
      tracks_produceWrite htracks (hroom (by rw [hproducing]; rfl))
    exact hproduced.retags hlamport hretags

theorem lamport_writtenDelta {δ : Delta} (hδ : δ ∈ writtenDelta lib h table key data env) :
    δ.lamport = h.crdt.lamport + 1 := by
  rcases producing_cases lib h table key data env with
    ⟨hproducing, -⟩ | ⟨store, hproducing, -⟩
  · simp [writtenDelta, hproducing] at hδ
  simp only [writtenDelta, hproducing, Option.bind_some, Option.mem_def, Option.map_eq_some_iff]
    at hδ
  obtain ⟨made, hmade, rfl⟩ := hδ
  by_cases hpoisoned : env.poisoned .crdt = true
  · simp [produceWrite, hpoisoned, Except.toOption] at hmade
  rw [Bool.not_eq_true] at hpoisoned
  have hclock : (h.crdt.writeScalar lib.toEngineLibraries table key data).2.lamport =
      h.crdt.lamport := LamportClock.lamport_writeScalar h.crdt table key data
  generalize hout : h.crdt.writeScalar lib.toEngineLibraries table key data = written at hclock
  obtain ⟨out, e⟩ := written
  simp only [produceWrite, hpoisoned, Bool.false_eq_true, if_false, hout] at hmade
  cases out with
  | error err => cases hmade
  | ok bytes =>
    have hlamport : (e.compactAfterWrite lib.toEngineLibraries table env.compaction).2.lamport =
        h.crdt.lamport := (lamport_compactAfterWrite e table env.compaction).trans hclock
    rw [← hlamport]
    have hproduced : EngineRuns.admitted lib.toEngineLibraries .native
        (e.compactAfterWrite lib.toEngineLibraries table env.compaction).2
        (.produceDeltaWithTags bytes .low []
          ((({ h with store := store } : CoreHandle).humanReactionIncident table key
            env).toList.map .contaminatedByHumanReaction) env.produce) = some made.1 := by
      dsimp only at hmade
      simp only [EngineRuns.admitted]
      revert hmade
      generalize (produceDeltaWithTags lib.toEngineLibraries Build.native
        (e.compactAfterWrite lib.toEngineLibraries table env.compaction).2 bytes .low [] _
        env.produce).1 = produced
      cases produced with
      | error err =>
        intro hmade
        cases hmade
      | ok δ =>
        intro hmade
        cases hmade
        rfl
    exact LamportClock.lamport_of_produced hproduced

/-- Of the changes that a document holds, a write adds the one that its transaction makes. -/
theorem changes_produceWrite (hreads : SavesReadBack lib h table key data)
    (env : WriteEnvironment) :
    (h.produceWrite lib table key data env).2.crdt.doc.changes = h.crdt.doc.changes ++
      if env.poisoned .crdt then [] else closing (savedDocument lib.json h.crdt table key data) := by
  by_cases hcrdt : env.poisoned .crdt = true
  · simp only [produceWrite, hcrdt, if_true, List.append_nil]
  rw [if_neg hcrdt]
  rw [Bool.not_eq_true] at hcrdt
  obtain ⟨-, hchanges, -⟩ := keeps_compactAfterWrite
    (e := { h.crdt with doc := (savedDocument lib.json h.crdt table key data).commit })
    (Document.pending_commit _) hreads.2.2 table env.compaction
  rw [produceWrite_eq lib h table key data hcrdt]
  dsimp only
  rw [EngineRuns.doc_produceDeltaWithTags, hchanges]
  dsimp only
  rw [changes_commit, changes_savedDocument]

end Write

end TirBase.WrittenDeltas
