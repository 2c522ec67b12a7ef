import TirBase.LedgerSchemas
import TirBase.ReplicatedValues
import TirBase.RowContamination

/-! # A value written on one device and read on another

The author's write leaves a row, and a Delta over its whole document. A fresh device merges the
document and projects the row that it names. -/
namespace TirBase.ValueReplication
open Automerge CoreHandle CrdtEngine DeviceRuns DocumentGrowth LedgerSchemas MergeVerification
  ReplicatedValues ScalarProjection WrittenDeltas
open TagLogs (appendTag_clean)

section Author
variable {lib : CoreLibraries} {h h' : CoreHandle} {table key : String} {data : JsonValue}
  {env : WriteEnvironment}

/-- The text under a key, whatever the flag of its row. -/
def text? (s : LocalStore) (table key : String) : Option String :=
  (s.row? table key).map ProjectionRow.dataJson

theorem text?_mark (s : LocalStore) (table key table' key' : String) :
    text? (s.markRowContaminated table key) table' key' = text? s table' key' := by
  rw [text?, text?, RowContamination.setsFlag_mark]
  split_ifs
  · rw [Option.map_map]
    rfl
  · rfl

theorem text?_foldl_mark (rows : List AffectedRow) (s : LocalStore) (table key : String) :
    text? (rows.foldl (fun s row => s.markRowContaminated row.table row.rowKey) s) table key =
      text? s table key := by
  induction rows generalizing s with
  | nil => rfl
  | cons row rows ih => rw [List.foldl_cons, ih, text?_mark]

theorem text?_tagReaction (h : CoreHandle) (env : TaintEnvironment) (incident : Option IncidentId)
    (root : DeltaId) (table key : String) :
    text? (h.tagReaction env incident root).store table key = text? h.store table key := by
  cases incident with
  | none => rfl
  | some id =>
    change text? (ContaminationEngine.tagContaminationRoot .clean env root (.humanReaction id) h.cce
      h.crdt.dag h.store).2.2.2 table key = _
    unfold ContaminationEngine.tagContaminationRoot
    rw [appendTag_clean]
    split
    · rfl
    · split
      · rfl
      · exact text?_foldl_mark _ h.store table key

/-- Registering and publishing a Delta leaves the rows and the trust state alone. -/
theorem store_commitWrite (h : CoreHandle) (table : String) (δ : Delta) (compacted : Bool)
    (env : WriteEnvironment) : (h.commitWrite lib table δ compacted env).2.store = h.store ∧
      (h.commitWrite lib table δ compacted env).2.capability = h.capability := by
  have hregister : (h.registerWrite lib δ compacted env).2.store = h.store ∧
      (h.registerWrite lib δ compacted env).2.capability = h.capability := by
    unfold registerWrite
    by_cases hmutex : env.poisoned .durability = true
    · rw [if_pos hmutex]
      exact ⟨rfl, rfl⟩
    · rw [if_neg hmutex]
      dsimp only
      split <;> exact ⟨rfl, rfl⟩
  have hcapture : ∀ h' : CoreHandle, (h'.captureWrite lib table δ env).store = h'.store ∧
      (h'.captureWrite lib table δ env).capability = h'.capability := by
    intro h'
    unfold captureWrite
    split_ifs <;> exact ⟨rfl, rfl⟩
  have hpublish : ∀ h' : CoreHandle, (h'.publishWrite lib δ env).2.store = h'.store ∧
      (h'.publishWrite lib δ env).2.capability = h'.capability := by
    intro h'
    unfold publishWrite
    split_ifs <;> exact ⟨rfl, rfl⟩
  unfold commitWrite
  dsimp only
  split
  · exact hregister
  · obtain ⟨hstore, htrust⟩ := hpublish
      ((h.registerWrite lib δ compacted env).2.captureWrite lib table δ env)
    obtain ⟨hstore', htrust'⟩ := hcapture (h.registerWrite lib δ compacted env).2
    exact ⟨hstore.trans (hstore'.trans hregister.1), htrust.trans (htrust'.trans hregister.2)⟩

/-- After the row is stored a write leaves the texts and the trust state alone. -/
theorem text?_publishRow (hreads : SavesReadBack lib h table key data) (table' key' : String) :
    text? (h.publishRow lib table key data env).2.store table' key' = text? h.store table' key' ∧
      (h.publishRow lib table key data env).2.capability = h.capability := by
  rcases produceWrite_cases hreads env with
    ⟨err, e', hproduce, -⟩ | ⟨e', tags, compacted, -, -, hproduce⟩
  · rw [publishRow_of_error hproduce]
    exact ⟨rfl, rfl⟩
  · generalize savedDocument lib.json h.crdt table key data = saved at hproduce
    rw [publishRow_of_ok hproduce]
    obtain ⟨hstore, htrust⟩ := store_commitWrite (({ h with
      crdt := withProduced lib e' (deltaOver lib e' saved tags env.produce) } :
        CoreHandle).tagReaction env.taint (h.humanReactionIncident table key env)
        (deltaOver lib e' saved tags env.produce).id) table
      (deltaOver lib e' saved tags env.produce) compacted env
    rw [hstore, htrust, text?_tagReaction]
    refine ⟨rfl, ?_⟩
    cases h.humanReactionIncident table key env <;> rfl

theorem producing_eq_some (hproducing : producing lib h table key data env = some h') :
    h.capability.ensureLocalTrustAllowsIo = .ok () ∧
      (h.store.write lib.store env.storeFault table key data).1 = .ok () ∧
        h' = { h with store := (h.store.write lib.store env.storeFault table key data).2 } ∧
          h.write lib table key data env = h'.publishRow lib table key data env := by
  unfold producing at hproducing
  by_cases hcapability : env.poisoned .capability = true
  · simp [hcapability] at hproducing
  by_cases hstore : env.poisoned .store = true
  · cases htrust : h.capability.ensureLocalTrustAllowsIo <;>
      simp [hcapability, hstore, htrust] at hproducing
  cases htrust : h.capability.ensureLocalTrustAllowsIo with
  | error e => simp [hcapability, htrust] at hproducing
  | ok u =>
    cases hstored : (h.store.write lib.store env.storeFault table key data).1 with
    | error e => simp [hcapability, hstore, htrust, hstored] at hproducing
    | ok u =>
      simp only [hcapability, hstore, htrust, hstored, Bool.false_eq_true, if_false,
        Option.some.injEq] at hproducing
      refine ⟨rfl, rfl, hproducing.symm, ?_⟩
      rw [← hproducing, CoreHandle.write]
      simp only [hcapability, hstore, htrust, hstored, Bool.false_eq_true, if_false]

/-- SQLite refuses a write to a table whose name ends the quotes around it. -/
def RefusesUnquoted (lib : CoreLibraries) (table : String) : Prop :=
  quotable table = false → ∀ key dataJson s,
    ∃ e, (lib.unquotedWrite table key dataJson s).1 = .error e

/-- A row that is stored has a name within its quotes, and holds the text of the value. -/
theorem text?_write_self (hsql : RefusesUnquoted lib table) {s : LocalStore}
    {fault : Option StoreFault} (hstored : (s.write lib.store fault table key data).1 = .ok ()) :
    quotable table = true ∧
      text? (s.write lib.store fault table key data).2 table key =
        some (lib.json.toString data) := by
  have htable : quotable table = true := by
    by_contra hquoted
    rw [Bool.not_eq_true] at hquoted
    obtain ⟨e, he⟩ := hsql hquoted key (lib.json.toString data) s
    simp only [LocalStore.write, hquoted, Bool.false_eq_true, if_false] at hstored
    exact absurd (he.symm.trans hstored) (by simp)
  refine ⟨htable, ?_⟩
  cases fault with
  | none =>
    rw [text?, LocalStore.row?_write_self htable data]
    rfl
  | some f => cases f <;> simp [LocalStore.write, htable] at hstored

/-- What a device reads under a key is the text that is stored there. -/
theorem read_iff (htrust : h.capability.ensureLocalTrustAllowsIo = .ok ())
    (htable : quotable table = true) {text : String} (htext : text? h.store table key = some text)
    (v : JsonValue) :
    (∃ warning, h.read lib table key = .ok (v, warning)) ↔ lib.json.fromStr text = .ok v := by
  obtain ⟨row, hrow, rfl⟩ := Option.map_eq_some_iff.mp htext
  have hstore : h.store.read lib.store table key =
      (LocalStore.parseRow lib.store row.dataJson).map some := by
    simp only [LocalStore.read, htable, if_true, hrow]
  have hjson : lib.store.json = lib.json := rfl
  simp only [CoreHandle.read, htrust, hstore, LocalStore.parseRow, hjson]
  cases hread : lib.json.fromStr row.dataJson with
  | error e => simp [Except.map]
  | ok v' => simp [Except.map]

end Author

section Documents
variable {d d' : Document}

theorem rootScalar_put_other (hd : d.Valid) {key key' : String} (value : ScalarValue)
    (hkey : key' ≠ key) : (d.put key value).rootScalar key' = d.rootScalar key' := by
  have htarget : Target.root key' ≠ Target.root key := by
    intro heq
    cases heq
    exact hkey rfl
  rw [Document.rootScalar, Document.rootScalar, hd.winner_put_other key value htarget]

theorem rootScalar_congr (h : d'.ops = d.ops) (key : String) :
    d'.rootScalar key = d.rootScalar key := by
  rw [Document.rootScalar, Document.rootScalar, Document.winner, Document.winner, h]

/-- The document that a write saves names the row and shows the value under its key. -/
theorem rootScalar_savedDocument (json : JsonText) {e : CrdtEngine} (table : String) {key : String}
    (data : JsonValue) (hvalid : e.doc.Valid) (htable : key ≠ "_tirbase_table")
    (hkey : key ≠ "_tirbase_key") :
    (savedDocument json e table key data).rootScalar "_tirbase_table" = some (.str table) ∧
      (savedDocument json e table key data).rootScalar "_tirbase_key" = some (.str key) ∧
        (savedDocument json e table key data).rootScalar key = some (scalarOfJson json data) := by
  have hvalid₁ := hvalid.put "_tirbase_table" (.str table)
  have hvalid₂ := hvalid₁.put "_tirbase_key" (.str key)
  unfold savedDocument
  refine ⟨?_, ?_, hvalid₂.rootScalar_put_self _ _⟩
  · rw [rootScalar_put_other hvalid₂ _ htable.symm, rootScalar_put_other hvalid₁ _ (by decide)]
    exact hvalid.rootScalar_put_self _ _
  · rw [rootScalar_put_other hvalid₂ _ hkey.symm]
    exact hvalid₁.rootScalar_put_self _ _

theorem captureConflicts_empty (actor : ActorId) (incoming : Document) :
    captureConflicts (.empty actor) incoming = ⟨[], []⟩ := by
  have hlww : captureLww (.empty actor) incoming = [] := by
    apply List.filterMap_eq_nil_iff.mpr
    intro key _
    have hnone : rootScalarEntry (.empty actor) key = none := rfl
    rw [lwwConflictAt, hnone]
    cases rootScalarEntry incoming key <;> rfl
  rw [captureConflicts, hlww]
  rfl

theorem mergeIncoming_empty (actor : ActorId) (changes : List Change)
    (deltaLamport localLamport : UInt64) :
    mergeIncoming (.empty actor) ⟨[], changes, []⟩ deltaLamport localLamport =
      some ⟨actor, changes, []⟩ := by
  have hmerge : (Document.empty actor).merge ⟨[], changes, []⟩ = some ⟨actor, changes, []⟩ := by
    have hadded : changes.filter (fun c => !(Document.empty actor).commit.changes.contains c) =
        changes := by
      rw [List.filter_eq_self]
      intro c _
      rfl
    have hdistinct : (changes.any fun c => (Document.empty actor).commit.duplicateSeq c) =
        false := by
      rw [List.any_eq_false]
      intro c _ hdup
      cases hdup
    have hcommit : (⟨[], changes, []⟩ : Document).commit = ⟨[], changes, []⟩ :=
      Document.commit_of_committed rfl
    simp only [Document.merge, hcommit, hadded, hdistinct, Bool.false_eq_true, if_false]
    rfl
  simp only [mergeIncoming, captureConflicts_empty, hmerge, Option.map_some, ne_eq, not_true,
    or_self, if_false]

end Documents

section Receiver
variable {lib : CoreLibraries} {config : DeploymentConfig} {identity : Identity} {started : Bool}
  {h : CoreHandle}

theorem knownSchemas_registerDefinitions
    {definitions : List (SchemaIdentifierHash × Schema)} {e e' : CrdtEngine}
    (h : registerDefinitions lib e definitions = .ok e') :
    e'.knownSchemas = e.knownSchemas ∧ e'.knownSchemaHash = e.knownSchemaHash := by
  induction definitions generalizing e with
  | nil =>
    cases h
    exact ⟨rfl, rfl⟩
  | cons definition rest ih =>
    simp only [registerDefinitions, CrdtEngine.registerSchemaDefinition] at h
    split_ifs at h with hhash
    have hregistered : registerDefinitions lib { e with schemaDefinitions :=
        (definition.2.identifierHash lib.toIdentityLibraries, definition.2) ::
          e.schemaDefinitions } rest = .ok e' := h
    have hrest := ih hregistered
    exact hrest

theorem knows_current_of_init {storage : Storage}
    (hinit : init lib config identity storage started = .ok h) :
    h.crdt.knownSchemaHash ∈ h.crdt.knownSchemas := by
  unfold init at hinit
  simp only at hinit
  split at hinit
  · cases hinit
  · rename_i e hschemas
    cases hinit
    unfold initSchemas at hschemas
    split at hschemas
    · split_ifs at hschemas
      cases hschemas
      exact List.mem_singleton_self _
    · rename_i current rest hpath
      dsimp only at hschemas
      split_ifs at hschemas
      obtain ⟨hknown, hcurrent⟩ := knownSchemas_registerDefinitions hschemas
      change e.knownSchemaHash ∈ e.knownSchemas
      rw [hknown, hcurrent, setCurrentSchema, addKnownSchema]
      dsimp only
      split_ifs with hmem
      · exact hmem
      · exact List.mem_append_right _ (List.mem_singleton_self current)

theorem documentProjection_of_rootScalars {doc : Document} {table key : String} {data : JsonValue}
    (htable : doc.rootScalar "_tirbase_table" = some (.str table))
    (hkey : doc.rootScalar "_tirbase_key" = some (.str key))
    (hvalue : doc.rootScalar key = some (scalarOfJson lib.json data)) :
    documentProjection lib doc = some (table, key, projected lib.json data) := by
  obtain ⟨u, hu⟩ := Option.isSome_iff_exists.mp (jsonOfScalar_scalarOfJson lib.json data)
  have hread : ∀ k s, doc.rootScalar k = some (.str s) → readScalar doc k = some (.string s) := by
    intro k s hk
    rw [readScalar, hk]
    rfl
  have hreadValue : readScalar doc key = some u := by
    rw [readScalar, hvalue, Option.bind_some, hu]
  simp only [documentProjection, hread _ _ htable, hread _ _ hkey, Option.bind_some,
    JsonValue.asStr?, hreadValue, Option.map_some, projected_of_scalar hu]

/-- What a fresh device stores of a Delta over a document that names a row. -/
theorem receive_fresh (hinit : init lib config identity ⟨.empty, .empty, [], []⟩ started = .ok h)
    {δ : Delta} {changes : List Change} {table key : String} {data : JsonValue}
    {env : InboundEnvironment} (haccepts : h.crdt.Accepts lib.toEngineLibraries δ)
    (hloads : loadIncomingDoc lib.toEngineLibraries δ.automergeBytes = some ⟨[], changes, []⟩)
    (hbytes : δ.automergeBytes ≠ []) (hbinary : lib.parseJson δ.automergeBytes = none)
    (hfault : env.applyFault = none)
    (hprojection : documentProjection lib ⟨identity.publicKey.val, changes, []⟩ =
      some (table, key, data)) :
    (h.receiveInbound lib (.inboundDelta δ) env).2.store =
        (LocalStore.empty.write lib.store env.storeFault table key data).2 ∧
      (h.receiveInbound lib (.inboundDelta δ) env).2.capability = h.capability := by
  have hstart := started_of_init hinit
  have hstore : h.store = .empty := congrArg Storage.store hstart.storage
  have hmerge : h.crdt.mergePayload lib.toEngineLibraries δ =
      some ⟨identity.publicKey.val, changes, []⟩ := by
    simp only [mergePayload, hloads, hstart.engine.doc, mergeIncoming_empty]
  have happly : h.crdt.apply lib.toEngineLibraries .native δ env.now env.applyFault =
      (.ok (.merged (h.crdt.advanceLamport δ)), mergedEngine .native lib.toEngineLibraries h.crdt δ
        false ⟨identity.publicKey.val, changes, []⟩) := by
    rcases apply_of_pass (gate_of_accepts haccepts) hmerge .native env.now env.applyFault with
      ⟨err, herr, -⟩ | happly
    · rw [hfault] at herr
      cases herr
    · exact happly
  have hprojected : projection lib ⟨identity.publicKey.val, changes, []⟩ δ.automergeBytes =
      some (table, key, data) := by
    simp only [projection, if_neg hbytes, hbinary, hprojection]
  have hdoc : (mergedEngine .native lib.toEngineLibraries h.crdt δ false
      ⟨identity.publicKey.val, changes, []⟩).doc = ⟨identity.publicKey.val, changes, []⟩ := rfl
  simp only [receiveInbound, receiveDelta, happly, issueDurabilityReceipt, projectMerged, hdoc,
    hprojected, hstore]
  exact ⟨trivial, trivial⟩

end Receiver

/-- Both devices read the value. -/
structure Replicated (lib : CoreLibraries) (table key : String) (v : JsonValue)
    (author receiver : CoreHandle) : Prop where
  author : ∃ warning, author.read lib table key = .ok (v, warning)
  receiver : ∃ warning, receiver.read lib table key = .ok (v, warning)

/-- A device that signs with the key of its own DID, over a document as Automerge keeps them. -/
structure Author (lib : CoreLibraries) (h : CoreHandle) : Prop where
  authorDid : h.crdt.authorDid = h.identity.did
  secretKey : h.crdt.secretKey = h.identity.secretKey
  selfCertifying : SelfCertifying lib.toIdentityLibraries h.identity
  document : h.crdt.doc.Valid

/-- What is relied on of SQLite, of Automerge and of `serde_json` for a value. -/
structure LibrariesKeep (lib : CoreLibraries) (h : CoreHandle) (table key : String)
    (v : JsonValue) : Prop where
  refuses : RefusesUnquoted lib table
  saves : SavesReadBack lib h table key v
  binary : lib.parseJson (lib.save (savedDocument lib.json h.crdt table key v)) = none
  finite : FiniteDoubles v
  value : lib.json.Describes v
  projected : lib.json.Describes (projected lib.json v)
  quotes : ∀ s, lib.json.fromStr s ≠ .ok (.string s)

section Both
variable {lib : CoreLibraries} {config : DeploymentConfig} {identity : Identity} {started : Bool}
  {author receiver : CoreHandle} {table key : String} {v : JsonValue} {env : WriteEnvironment}
  {arrival : InboundEnvironment} {δ : Delta}

/-- The author stores the text of the value. -/
theorem author_reads_iff (hlib : LibrariesKeep lib author table key v)
    (hδ : writtenDelta lib author table key v env = some δ) :
    quotable table = true ∧
      ((∃ warning, (author.write lib table key v env).2.read lib table key = .ok (v, warning)) ↔
        lib.json.fromStr (lib.json.toString v) = .ok v) := by
  obtain ⟨h', hproducing, -⟩ := Option.bind_eq_some_iff.mp hδ
  obtain ⟨htrust, hstored, rfl, hwrite⟩ := producing_eq_some hproducing
  obtain ⟨htable, htext⟩ := text?_write_self hlib.refuses hstored
  refine ⟨htable, ?_⟩
  have hreads : SavesReadBack lib { author with
      store := (author.store.write lib.store env.storeFault table key v).2 } table key v :=
    hlib.saves
  obtain ⟨hkept, hcapability⟩ := text?_publishRow hreads table key
  rw [hwrite]
  apply read_iff _ htable (hkept.trans htext)
  rw [hcapability]
  exact htrust

theorem receiver_accepts (hauthor : Author lib author)
    (hinit : init lib config identity ⟨.empty, .empty, [], []⟩ started = .ok receiver)
    (hschema : receiver.crdt.knownSchemaHash = author.crdt.knownSchemaHash)
    {e' : CrdtEngine} (hkeeps : Keeps author.crdt e') (d : Document) (tags : List DeltaTag)
    (produce : ProduceEnvironment) :
    receiver.crdt.Accepts lib.toEngineLibraries (deltaOver lib e' d tags produce) := by
  have hdid : (deltaOver lib e' d tags produce).authorDid = author.identity.did :=
    hkeeps.authorDid.trans hauthor.authorDid
  have hsignature : (deltaOver lib e' d tags produce).signature =
      lib.sign author.identity.secretKey
        (lib.canonicalBytes (deltaOver lib e' d tags produce)) := by
    rw [← hauthor.secretKey, ← hkeeps.secretKey]
    rfl
  refine ⟨?_, ?_, ?_, author.identity.publicKey, ?_, ?_⟩
  · rw [(started_of_init hinit).engine.revokedDids]
    exact List.not_mem_nil
  · have hhash : (deltaOver lib e' d tags produce).schemaHash = receiver.crdt.knownSchemaHash :=
      hkeeps.knownSchemaHash.trans hschema.symm
    rw [hhash]
    exact knows_current_of_init hinit
  · rw [hsignature, IdentityLibraries.sign]
    intro hnil
    have hlength := (lib.ed25519Sign author.identity.secretKey
      (lib.canonicalBytes (deltaOver lib e' d tags produce))).property
    rw [hnil] at hlength
    cases hlength
  · rw [hdid]
    exact hauthor.selfCertifying.resolves
  · rw [hsignature]
    exact hauthor.selfCertifying.verifies _

/-- The receiver stores the text of what the document shows of the value. -/
theorem receiver_reads_iff (hauthor : Author lib author)
    (hinit : init lib config identity ⟨.empty, .empty, [], []⟩ started = .ok receiver)
    (hschema : receiver.crdt.knownSchemaHash = author.crdt.knownSchemaHash)
    (htableName : key ≠ "_tirbase_table") (hkeyName : key ≠ "_tirbase_key")
    (hlib : LibrariesKeep lib author table key v) (hquoted : quotable table = true)
    (hδ : writtenDelta lib author table key v env = some δ)
    (happly : arrival.applyFault = none) (hstore : arrival.storeFault = none) (v' : JsonValue) :
    (∃ warning, (receiver.receiveInbound lib (.inboundDelta δ) arrival).2.read lib table key =
        .ok (v', warning)) ↔
      lib.json.fromStr (lib.json.toString (projected lib.json v)) = .ok v' := by
  obtain ⟨-, ⟨hnone, -⟩ | ⟨e', tags, hkeeps, -, hwritten, -⟩⟩ := write_cases hlib.saves env
  · rw [hnone] at hδ
    cases hδ
  rw [hwritten, Option.some.injEq] at hδ
  subst hδ
  obtain ⟨hne, hload⟩ := hlib.saves.1
  have hbinary := hlib.binary
  obtain ⟨htable, hkey, hvalue⟩ :=
    rootScalar_savedDocument lib.json table v hauthor.document htableName hkeyName
  generalize savedDocument lib.json author.crdt table key v = d at *
  have hbytes : (deltaOver lib e' d tags env.produce).automergeBytes = lib.save d := rfl
  have hloads : loadIncomingDoc lib.toEngineLibraries
      (deltaOver lib e' d tags env.produce).automergeBytes = some ⟨[], d.commit.changes, []⟩ := by
    rw [hbytes, loadIncomingDoc, if_neg hne, hload]
    rfl
  have hops : (⟨identity.publicKey.val, d.commit.changes, []⟩ : Document).ops = d.ops := by
    have hcommitted := Document.ops_of_pending (Document.pending_commit d)
    rw [Document.ops_of_pending rfl, ← Document.ops_commit d, hcommitted]
  have hprojection : documentProjection lib ⟨identity.publicKey.val, d.commit.changes, []⟩ =
      some (table, key, projected lib.json v) :=
    documentProjection_of_rootScalars ((rootScalar_congr hops _).trans htable)
      ((rootScalar_congr hops _).trans hkey) ((rootScalar_congr hops _).trans hvalue)
  obtain ⟨hrows, hcapability⟩ := receive_fresh hinit
    (receiver_accepts hauthor hinit hschema hkeeps d tags env.produce) hloads (hbytes ▸ hne)
    (hbytes ▸ hbinary) happly hprojection
  have hok : (LocalStore.empty.write lib.store arrival.storeFault table key
      (projected lib.json v)).1 = .ok () := by
    simp [LocalStore.write, hquoted, hstore]
  obtain ⟨-, htext⟩ := text?_write_self hlib.refuses hok
  apply read_iff _ hquoted
  · rw [hrows]
    exact htext
  · rw [hcapability, Capability.CapabilityManager.ensureLocalTrustAllowsIo,
      (started_of_init hinit).trust]
    rfl

/-- A value that was written is read on both devices exactly when its JSON text keeps it and it
comes out of the document as it went in. -/
theorem replicated_iff (hauthor : Author lib author)
    (hinit : init lib config identity ⟨.empty, .empty, [], []⟩ started = .ok receiver)
    (hschema : receiver.crdt.knownSchemaHash = author.crdt.knownSchemaHash)
    (htableName : key ≠ "_tirbase_table") (hkeyName : key ≠ "_tirbase_key")
    (hlib : LibrariesKeep lib author table key v)
    (hδ : writtenDelta lib author table key v env = some δ)
    (happly : arrival.applyFault = none) (hstore : arrival.storeFault = none) :
    Replicated lib table key v (author.write lib table key v env).2
        (receiver.receiveInbound lib (.inboundDelta δ) arrival).2 ↔
      lib.json.Kept v ∧ Unaltered lib.json v := by
  obtain ⟨hquoted, hauthorReads⟩ := author_reads_iff hlib hδ
  have hreceiverReads := receiver_reads_iff hauthor hinit hschema htableName hkeyName hlib hquoted
    hδ happly hstore v
  rw [← reads_iff hlib.finite hlib.value hlib.projected hlib.quotes, ← hauthorReads,
    ← hreceiverReads]
  exact ⟨fun h => ⟨h.author, h.receiver⟩, fun h => ⟨h.1, h.2⟩⟩

end Both

def textChange (s : String) : Change :=
  ⟨List.replicate 32 1, 1, 1, [.set (.root "_tirbase_table") (.put (.str "t")) [],
    .set (.root "_tirbase_key") (.put (.str "k")) [], .set (.root "k") (.put (.str s)) []]⟩

def textLib : CoreLibraries :=
  sampleCoreLibraries [([7], [textChange "v"]), ([8], [textChange "true"])]

def firstDevice : CoreHandle :=
  ((init textLib sampleConfig sampleIdentity ⟨.empty, .empty, [], []⟩ true).toOption).get rfl

def secondIdentity : Identity := ⟨sampleKey 2, sampleKey 2, sampleDid₂⟩

def secondDevice : CoreHandle :=
  ((init textLib sampleConfig secondIdentity ⟨.empty, .empty, [], []⟩ true).toOption).get rfl

def textDelta (s : String) (h : (writtenDelta textLib firstDevice "t" "k" (.string s)
    (calmWrite 9)).isSome = true) : Delta :=
  (writtenDelta textLib firstDevice "t" "k" (.string s) (calmWrite 9)).get h

theorem savesReadBack_text {s : String} (hs : s = "v" ∨ s = "true") :
    SavesReadBack textLib firstDevice "t" "k" (.string s) := by
  rcases hs with rfl | rfl
  · have hsaved : savedDocument textLib.json firstDevice.crdt "t" "k" (.string "v") =
        ⟨List.replicate 32 1, [], (textChange "v").body⟩ := by decide +kernel
    rw [SavesReadBack, hsaved]
    exact ⟨⟨by decide +kernel, by decide +kernel⟩, by decide +kernel, by decide +kernel⟩
  · have hsaved : savedDocument textLib.json firstDevice.crdt "t" "k" (.string "true") =
        ⟨List.replicate 32 1, [], (textChange "true").body⟩ := by decide +kernel
    rw [SavesReadBack, hsaved]
    exact ⟨⟨by decide +kernel, by decide +kernel⟩, by decide +kernel, by decide +kernel⟩

/-- What is read within quotes is shorter than the text. -/
theorem quotes_sampleJson (s : String) : sampleJson.fromStr s ≠ .ok (.string s) := by
  intro hread
  simp only [sampleJson] at hread
  split_ifs at hread
  · cases hread
  · cases hread
  · cases hread
  · split at hread
    · rename_i rest hlist
      rw [Except.ok.injEq, JsonValue.string.injEq] at hread
      have hlength := congrArg (fun t : String => t.toList.length) hread
      simp only [String.toList_ofList, List.length_dropLast, hlist, List.length_cons] at hlength
      omega
    · cases hread

theorem replicated_iff_sample :
    Replicated textLib "t" "k" (.string "v")
      (firstDevice.write textLib "t" "k" (.string "v") (calmWrite 9)).2
      (secondDevice.receiveInbound textLib (.inboundDelta (textDelta "v" (by decide +kernel)))
        calmInbound).2 := by
  have hauthor : Author textLib firstDevice :=
    ⟨rfl, rfl, ⟨by decide +kernel, fun payload => rfl⟩, Document.valid_empty _⟩
  have hinit : init textLib sampleConfig secondIdentity ⟨.empty, .empty, [], []⟩ true =
      .ok secondDevice := rfl
  have hkept : textLib.json.Kept (.string "v") :=
    ⟨Nat.zero_lt_succ 127, fun _ hbits => absurd hbits List.not_mem_nil⟩
  have hread : textLib.json.fromStr (textLib.json.toString (.string "v")) = .ok (.string "v") := by
    simp [textLib, sampleCoreLibraries, sampleJson]
  have hdescribes : textLib.json.Describes (.string "v") := by
    refine ⟨⟨fun _ => hkept, fun _ => hread⟩, fun v' hv' => ?_⟩
    rw [hread, Except.ok.injEq] at hv'
    rw [← hv']
  have hrefused : textLib.json.fromStr "v" = .error "expected value at line 1 column 1" := by
    simp [textLib, sampleCoreLibraries, sampleJson]
  have hunread : ∀ w, textLib.json.fromStr "v" ≠ .ok w := by
    intro w hw
    rw [hrefused] at hw
    cases hw
  have hlib : LibrariesKeep textLib firstDevice "t" "k" (.string "v") := by
    refine ⟨fun _ _ _ _ => ⟨_, rfl⟩, savesReadBack_text (.inl rfl), rfl,
      fun _ hbits => absurd hbits List.not_mem_nil, hdescribes, ?_, quotes_sampleJson⟩
    rw [projected_string_of_error hunread]
    exact hdescribes
  exact (replicated_iff hauthor hinit rfl (by decide) (by decide) hlib (Option.some_get _).symm
    rfl rfl).mpr ⟨hkept, hunread⟩

/-- A text `true` comes to the second device as the boolean. -/
theorem boolean_text_altered :
    let written := firstDevice.write textLib "t" "k" (.string "true") (calmWrite 9)
    let received := secondDevice.receiveInbound textLib
      (.inboundDelta (textDelta "true" (by decide +kernel))) calmInbound
    (∃ warning, written.2.read textLib "t" "k" = .ok (.string "true", warning)) ∧
      (∃ warning, received.2.read textLib "t" "k" = .ok (.bool true, warning)) ∧
        ¬Replicated textLib "t" "k" (.string "true") written.2 received.2 := by
  intro written received
  have hwritten : text? written.2.store "t" "k" = some "\"true\"" := by decide +kernel
  have hreceived : text? received.2.store "t" "k" = some "true" := by decide +kernel
  have htrust : written.2.capability.ensureLocalTrustAllowsIo = .ok () ∧
      received.2.capability.ensureLocalTrustAllowsIo = .ok () := by decide +kernel
  have hquoted : quotable "t" = true := by decide +kernel
  have hreads : ∀ v, (∃ warning, received.2.read textLib "t" "k" = .ok (v, warning)) ↔
      textLib.json.fromStr "true" = .ok v := fun v => read_iff htrust.2 hquoted hreceived v
  have hboolean : textLib.json.fromStr "true" = .ok (.bool true) := by
    simp [textLib, sampleCoreLibraries, sampleJson]
  refine ⟨(read_iff htrust.1 hquoted hwritten _).mpr ?_, (hreads _).mpr hboolean, ?_⟩
  · simp [textLib, sampleCoreLibraries, sampleJson]
  · intro hreplicated
    have hback := (hreads _).mp hreplicated.receiver
    rw [hboolean] at hback
    cases hback

end TirBase.ValueReplication
