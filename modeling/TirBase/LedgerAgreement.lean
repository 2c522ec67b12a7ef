import TirBase.LedgerCalls

/-! # Replays and runs on the ledgers of both builds

A replay takes the entries of a migration in the order of their times on either build, and notes the
same status for each of them. So the ledgers stay the same through any run of harmless calls. -/
namespace TirBase.LedgerAgreement
open CrossBuildConvergence KeyedStores LedgerCalls SchemaMigrationEngine SideCarReplay TransitionRuns

variable {lib : MigrationLibraries} {s : Ledgers}

theorem updateEntryStatus_spec {m : SchemaMigrationEngine} {w : WasmSideCarLedger}
    (h : m.sidecarLedger.Perm w.rows) {id : DeltaId} (hid : id ∈ m.sidecarLedger.map SideCarEntry.id)
    (status : ReplayStatus) :
    ∃ w', w.updateEntryStatus id status = .ok w' ∧
      (m.updateEntryStatus id status).sidecarLedger.Perm w'.rows := by
  obtain ⟨row, hrow, rfl⟩ := List.mem_map.mp hid
  obtain ⟨w', hupdate, hperm⟩ := perm_update? h (List.mem_map_of_mem hrow)
    (fun e => { e with replayStatus := status }) fun _ => rfl
  simp only [SideCarEntry.key_inj] at hperm
  refine ⟨w', ?_, hperm⟩
  rw [WasmSideCarLedger.updateEntryStatus, show row.id.toNat = row.key from rfl, hupdate]

theorem map_id_updateEntryStatus (m : SchemaMigrationEngine) (id : DeltaId)
    (status : ReplayStatus) :
    (m.updateEntryStatus id status).sidecarLedger.map SideCarEntry.id =
      m.sidecarLedger.map SideCarEntry.id := by
  have hkept : (SideCarEntry.id ∘ fun e : SideCarEntry =>
      if e.id = id then { e with replayStatus := status } else e) = SideCarEntry.id := by
    funext e
    rw [Function.comp_apply]
    split <;> rfl
  rw [updateEntryStatus, List.map_map, hkept]

/-- An entry without an error gets the same status on both builds, and leaves engines that agree. -/
theorem replayEntry_agree {env : ReplayEnvironment} {engine engine' : CrdtEngine} (now : ℤ)
    (hagrees : EngineAgrees engine engine') {entry : SideCarEntry} {entries : List SideCarEntry}
    (hclean : ErrorFree lib env engine (entry :: entries)) :
    (replayEntry lib env engine entry).1 =
        (WasmSideCarLedger.replayEntry lib now engine' entry).1 ∧
      (replayEntry lib env engine entry).2.1 =
        (WasmSideCarLedger.replayEntry lib now engine' entry).2.1 ∧
      EngineAgrees (replayEntry lib env engine entry).2.2
        (WasmSideCarLedger.replayEntry lib now engine' entry).2.2 ∧
      ErrorFree lib env (replayEntry lib env engine entry).2.2 entries := by
  unfold ErrorFree at hclean
  unfold replayEntry WasmSideCarLedger.replayEntry
  cases hparse : lib.parseDelta entry.deltaBytes with
  | error e =>
    rw [hparse] at hclean
    exact ⟨rfl, rfl, hagrees, hclean⟩
  | ok δ =>
    rw [hparse] at hclean
    obtain ⟨hfault, hok, hrest⟩ := hclean
    obtain ⟨hsame, hnext⟩ : (engine.apply lib.toEngineLibraries .native δ env.now none).1 =
          (engine'.apply lib.toEngineLibraries .wasm δ now none).1 ∧
        EngineAgrees (engine.apply lib.toEngineLibraries .native δ env.now none).2
          (engine'.apply lib.toEngineLibraries .wasm δ now none).2 :=
      hagrees.apply δ env.now now
    dsimp only
    rw [hfault]
    cases hnative : engine.apply lib.toEngineLibraries .native δ env.now none with
    | mk outcome crdt =>
      rw [hnative] at hsame hnext hok hrest
      cases hwasm : engine'.apply lib.toEngineLibraries .wasm δ now none with
      | mk outcome' crdt' =>
        rw [hwasm] at hsame hnext
        obtain rfl : outcome = outcome' := hsame
        cases outcome with
        | error err => cases hok
        | ok merge =>
          cases merge with
          | merged n => exact ⟨rfl, rfl, hnext, hrest⟩
          | quarantined reason => exact ⟨rfl, rfl, hnext, hrest⟩
          | rejected reason => exact ⟨rfl, rfl, hnext, hrest⟩

theorem replayEntries_agree {env : ReplayEnvironment} (now : ℤ) (entries : List SideCarEntry)
    {m : SchemaMigrationEngine} {w : WasmSideCarLedger} (h : m.sidecarLedger.Perm w.rows)
    (hids : ∀ e ∈ entries, e.id ∈ m.sidecarLedger.map SideCarEntry.id)
    {engine engine' : CrdtEngine} (hagrees : EngineAgrees engine engine')
    (hclean : ErrorFree lib env engine entries) :
    ∃ w', WasmSideCarLedger.replayEntries lib now w engine' entries =
        (.ok (replayEntries lib env m engine entries).1, w') ∧
      (replayEntries lib env m engine entries).2.1.sidecarLedger.Perm w'.rows := by
  induction entries generalizing m w engine engine' with
  | nil => exact ⟨w, rfl, h⟩
  | cons entry entries ih =>
    obtain ⟨hstatus, hmerged, hnext, hrest⟩ := replayEntry_agree now hagrees hclean
    obtain ⟨w₁, hupdate, hperm⟩ := updateEntryStatus_spec h (hids entry List.mem_cons_self)
      (replayEntry lib env engine entry).1
    have hlater : ∀ e ∈ entries, e.id ∈ (m.updateEntryStatus entry.id
        (replayEntry lib env engine entry).1).sidecarLedger.map SideCarEntry.id := by
      intro e he
      rw [map_id_updateEntryStatus]
      exact hids e (List.mem_cons_of_mem entry he)
    obtain ⟨w₂, hreplay, hperm₂⟩ := ih hperm hlater hnext hrest
    refine ⟨w₂, ?_, hperm₂⟩
    rw [WasmSideCarLedger.replayEntries, ← hstatus, hupdate]
    dsimp only
    rw [hreplay, ← hmerged]
    rfl

theorem markComplete_spec (entries : List SideCarEntry) {rows : List SideCarEntry}
    {w : WasmSideCarLedger} (h : rows.Perm w.rows)
    (hids : ∀ e ∈ entries, e.id ∈ rows.map SideCarEntry.id) :
    ∃ w', ObjectStore.updateEach (fun (w : WasmSideCarLedger) (entry : SideCarEntry) =>
        w.updateEntryStatus entry.id .complete) w entries = (.ok (), w') ∧
      (rows.map fun e => if e.id ∈ entries.map SideCarEntry.id then
        { e with replayStatus := .complete } else e).Perm w'.rows := by
  have hkeys : ∀ e ∈ entries, e.id.toNat ∈ rows.map SideCarEntry.key := by
    intro e he
    obtain ⟨row, hrow, hid⟩ := List.mem_map.mp (hids e he)
    exact List.mem_map.mpr ⟨row, hrow, congrArg BitVec.toNat hid⟩
  obtain ⟨w', heach, hperm⟩ := perm_updateEach
    (fun (w : WasmSideCarLedger) (entry : SideCarEntry) => w.updateEntryStatus entry.id .complete)
    (f := fun e => { e with replayStatus := .complete }) (fun _ => rfl) (fun _ => rfl)
    (fun w entry w' hupdate => by
      simp only [WasmSideCarLedger.updateEntryStatus, hupdate]) entries h hkeys
  refine ⟨w', heach, ?_⟩
  have hmem : ∀ e : SideCarEntry, e.key ∈ entries.map (fun e => e.id.toNat) ↔
      e.id ∈ entries.map SideCarEntry.id := by
    intro e
    simp only [List.mem_map, SideCarEntry.key, BitVec.toNat_inj]
  simpa only [hmem] using hperm

theorem loadEntriesOrdered_agree (hs : SameContents s) {migrationId : MigrationId}
    (hties : (recorded s.native migrationId).Pairwise fun a b =>
      a.recordedTs = b.recordedTs → a.key < b.key) :
    s.native.loadEntriesOrdered migrationId =
      (s.sidecar.rows.filter fun e => e.migrationId = migrationId).insertionSort
        fun a b => a.recordedTs ≤ b.recordedTs :=
  insertionSort_filter_eq hs.sidecar _ hties

theorem settle_kept (applied : List Applied) (e : SideCarEntry) :
    (settle applied e).id = e.id ∧ (settle applied e).migrationId = e.migrationId ∧
      ∀ status, { settle applied e with replayStatus := status } =
        { e with replayStatus := status } := by
  unfold settle
  split <;> exact ⟨rfl, rfl, fun _ => rfl⟩

/-- What a native replay leaves, in terms of the entries that it lists. -/
theorem replaySidecar_cases (lib : MigrationLibraries) (env : ReplayEnvironment)
    (m : SchemaMigrationEngine) (engine : CrdtEngine) (migrationId : MigrationId)
    (hnodup : (m.sidecarLedger.map SideCarEntry.id).Nodup) :
    let entries := m.loadEntriesOrdered migrationId
    let out := replayEntries lib env m engine entries
    out.1.length ≤ entries.length ∧ out.2.1.quarantineLedger = m.quarantineLedger ∧
      out.2.1.sidecarLedger.map SideCarEntry.id = m.sidecarLedger.map SideCarEntry.id ∧
      SideCarKept m.sidecarLedger out.2.1.sidecarLedger ∧
      ∀ e ∈ out.2.1.sidecarLedger,
        e.id ∈ entries.map SideCarEntry.id ↔ e.migrationId = migrationId := by
  intro entries out
  have hids : (entries.map SideCarEntry.id).Nodup := by
    refine ((List.perm_insertionSort _ _).map SideCarEntry.id).nodup_iff.mpr ?_
    exact hnodup.sublist (List.filter_sublist.map _)
  obtain ⟨applied, crdt', happlies, hreplay⟩ := applies_replayEntries lib env entries m engine hids
  have hout : out = (applied.filterMap Applied.merged,
      { m with sidecarLedger := m.sidecarLedger.map (settle applied) }, crdt') := hreplay
  have hlength : applied.length = entries.length := by
    rw [← List.length_map (f := Applied.entry), happlies.entries, List.length_map]
  rw [hout]
  refine ⟨hlength ▸ List.length_filterMap_le _ _, rfl, ?_, fun e he => ?_, fun e he => ?_⟩
  · rw [List.map_map]
    exact List.map_congr_left fun e _ => (settle_kept applied e).1
  · refine ⟨settle applied e, List.mem_map_of_mem he, ?_⟩
    rw [(settle_kept applied e).2.2]
  · obtain ⟨row, hrow, rfl⟩ := List.mem_map.mp he
    obtain ⟨hid, hscope, -⟩ := settle_kept applied row
    rw [hid, hscope]
    constructor
    · intro hmem
      obtain ⟨listed, hlisted, hsame⟩ := List.mem_map.mp hmem
      obtain ⟨hstored, hkind⟩ := List.mem_filter.mp ((List.mem_insertionSort _).mp hlisted)
      rw [← List.inj_on_of_nodup_map hnodup hstored hrow hsame]
      exact of_decide_eq_true hkind
    · intro hkind
      exact List.mem_map_of_mem ((List.mem_insertionSort _).mpr
        (List.mem_filter.mpr ⟨hrow, decide_eq_true hkind⟩))

theorem replaySidecar_spec (hs : SameContents s) {migrationId : MigrationId}
    {engines : EnginePair} {env : ReplayEnvironment} {wasmNow : ℤ}
    (h : Harmless lib s (.replaySidecar migrationId engines env wasmNow)) :
    ∃ w', s.sidecar.replaySidecar lib wasmNow engines.wasm migrationId =
        (.ok (replaySummary lib env s.native engines.native migrationId), w') ∧
      (s.native.replaySidecar lib env engines.native migrationId).1.sidecarLedger.Perm w'.rows ∧
      (s.native.replaySidecar lib env engines.native migrationId).1.quarantineLedger =
        s.native.quarantineLedger ∧
      SideCarKept s.native.sidecarLedger
        (s.native.replaySidecar lib env engines.native migrationId).1.sidecarLedger := by
  obtain ⟨hsome, hties, hclean⟩ := h
  have hnodup : (s.native.sidecarLedger.map SideCarEntry.id).Nodup := by
    refine List.Nodup.map_on (fun a ha b hb hid => ?_) (nodup_of_perm hs.sidecar)
    exact eq_of_key_of_perm hs.sidecar ha hb (SideCarEntry.key_inj.mpr hid)
  obtain ⟨hlength, hquarantine, hids, hkept, hscope⟩ := replaySidecar_cases lib env s.native
    engines.native migrationId hnodup
  have hload := loadEntriesOrdered_eq hs hsome migrationId
  rw [← loadEntriesOrdered_agree hs hties] at hload
  have hlisted : ∀ e ∈ s.native.loadEntriesOrdered migrationId,
      e.id ∈ s.native.sidecarLedger.map SideCarEntry.id := fun e he =>
    List.mem_map_of_mem (List.mem_filter.mp ((List.mem_insertionSort _).mp he)).1
  unfold WasmSideCarLedger.replaySidecar SchemaMigrationEngine.replaySidecar replaySummary
  rw [hload]
  generalize s.native.loadEntriesOrdered migrationId = entries at *
  obtain ⟨w₁, hreplay, hperm⟩ :=
    replayEntries_agree wasmNow entries hs.sidecar hlisted engines.agrees hclean
  dsimp only
  rw [hreplay]
  dsimp only
  generalize replayEntries lib env s.native engines.native entries = out at *
  by_cases hall : entries ≠ [] ∧ out.1.length = entries.length
  · have hzero : entries.length - out.1.length = 0 ∧ 0 < entries.length := by
      rw [hall.2, Nat.sub_self]
      exact ⟨rfl, List.length_pos_iff.mpr hall.1⟩
    obtain ⟨w₂, hmark, hperm₂⟩ := markComplete_spec entries hperm fun e he => by
      rw [hids]
      exact hlisted e he
    rw [if_pos hall, decide_eq_true hzero, if_pos rfl, hmark]
    refine ⟨w₂, rfl, (List.Perm.of_eq (List.map_congr_left fun e he => ?_)).trans hperm₂,
      hquarantine, fun e he => ?_⟩
    · simp only [hscope e he]
    · obtain ⟨e', he', hsame⟩ := hkept e he
      refine ⟨_, List.mem_map_of_mem he', ?_⟩
      split_ifs
      · exact hsame
      · exact hsame
  · have hnot : ¬(entries.length - out.1.length = 0 ∧ 0 < entries.length) := by
      rintro ⟨hzero, hpos⟩
      exact hall ⟨List.length_pos_iff.mp hpos, by omega⟩
    rw [if_neg hall, decide_eq_false hnot, if_neg Bool.false_ne_true]
    exact ⟨w₁, rfl, hperm, hquarantine, hkept⟩

theorem agrees_replaySidecar (hs : SameContents s) {migrationId : MigrationId}
    {engines : EnginePair} {env : ReplayEnvironment} {wasmNow : ℤ}
    (h : Harmless lib s (.replaySidecar migrationId engines env wasmNow)) :
    Agrees lib s (.replaySidecar migrationId engines env wasmNow) := by
  obtain ⟨w', hreplay, hperm, hquarantine, hkept⟩ := replaySidecar_spec hs h
  refine agrees_of_kept hs ?_ ⟨?_, ?_⟩ ?_ hkept
  · simp only [nativeCall, wasmCall, hreplay]
    rfl
  · simp only [step, nativeCall, wasmCall, hquarantine]
    exact hs.quarantine
  · simp only [step, nativeCall, wasmCall, hreplay]
    exact hperm
  · simp only [step, nativeCall, hquarantine]
    exact quarantineKept_of_subset (List.Subset.refl _)

theorem agrees_of_harmless (hs : SameContents s) (op : LedgerOperation) (h : Harmless lib s op) :
    Agrees lib s op := by
  cases op with
  | quarantine senderDid rawBytes schemaHash reason receivedAt => exact agrees_quarantine hs h
  | getBySchemaHash hash => exact agrees_getBySchemaHash hs h
  | getAll => exact agrees_getAll hs h
  | releaseForMigration schemaHash migrationId => exact agrees_releaseForMigration hs h
  | record migrationId table deltaBytes recordedTs => exact agrees_record hs h
  | replaySidecar migrationId engines env wasmNow => exact agrees_replaySidecar hs h

theorem ne_nil_of_sameAnswer {quarantine : WasmQuarantineLedger} {rows : List QuarantineEntry}
    {f : List QuarantineEntry → List QuarantineEntry}
    (h : SameAnswer (.entries (.ok rows)) (.entries (quarantine.scan.map f))) :
    quarantine.rows ≠ [] := by
  intro hempty
  rw [WasmQuarantineLedger.scan, if_pos hempty] at h
  exact h

theorem harmless_of_agrees (hs : SameContents s) (op : LedgerOperation) (hop : ¬op.Replays)
    (h : Agrees lib s op) : Harmless lib s op := by
  have hsome : s.quarantine.rows ≠ [] → s.native.quarantineLedger ≠ [] := by
    rintro hrows hempty
    have hperm := hs.quarantine
    rw [hempty] at hperm
    exact hrows hperm.symm.eq_nil
  cases op with
  | quarantine senderDid rawBytes schemaHash reason receivedAt =>
    intro e he hid
    have hrows := h.contents.quarantine
    simp only [step, nativeCall, wasmCall, quarantineLedger_quarantineIncoming, insertOrIgnore]
      at hrows
    rw [if_pos (List.mem_map.mpr ⟨e, he, QuarantineEntry.key_inj.mpr hid⟩)] at hrows
    have hnew := hrows.mem_iff.mpr (ObjectStore.mem_put.mpr (.inl rfl))
    exact eq_of_key_of_perm hs.quarantine he hnew (QuarantineEntry.key_inj.mpr hid)
  | getBySchemaHash hash => exact hsome (ne_nil_of_sameAnswer h.answers)
  | getAll =>
    have hanswers : SameAnswer (.entries (.ok s.native.quarantineLedger))
        (.entries (s.quarantine.scan.map id)) := by
      rw [Except.map_id]
      exact h.answers
    exact hsome (ne_nil_of_sameAnswer hanswers)
  | releaseForMigration schemaHash migrationId =>
    have hrows : s.native.quarantineLedger ≠ [] := by
      refine hsome fun hempty => ?_
      have hanswers := h.answers
      simp only [nativeCall, wasmCall, WasmQuarantineLedger.releaseForMigration,
        WasmQuarantineLedger.getBySchemaHash, WasmQuarantineLedger.scan, if_pos hempty] at hanswers
      exact hanswers
    refine ⟨hrows, fun e he hschema => ?_⟩
    obtain ⟨q', hrelease, -⟩ := releaseForMigration_spec hs hrows schemaHash migrationId
    have hanswers := h.answers
    simp only [nativeCall, wasmCall, hrelease] at hanswers
    have hmarked : { e with migrationId := some migrationId } ∈
        (s.native.releaseForMigration schemaHash migrationId).getBySchemaHash schemaHash := by
      refine List.mem_filter.mpr ⟨List.mem_map.mpr ⟨e, he, if_pos hschema⟩, ?_⟩
      exact decide_eq_true hschema
    have hread := hs.quarantine.mem_iff.mpr
      (List.mem_filter.mp ((show List.Perm _ _ from hanswers).mem_iff.mp hmarked)).1
    rw [eq_of_key_of_perm hs.quarantine he hread rfl]
  | record migrationId table deltaBytes recordedTs =>
    have hrows : s.native.sidecarLedger ≠ [] := by
      intro hempty
      have hperm := hs.sidecar
      rw [hempty] at hperm
      have hanswers := h.answers
      simp only [nativeCall, wasmCall, WasmSideCarLedger.record,
        WasmSideCarLedger.loadEntriesOrdered, if_pos hperm.symm.eq_nil] at hanswers
      cases hanswers
    refine ⟨hrows, fun e he hid => ?_⟩
    have hstored := h.contents.sidecar
    simp only [step, nativeCall, wasmCall, WasmSideCarLedger.record, loadEntriesOrdered_eq hs hrows,
      (sidecarLedger_recordSidecar lib s.native migrationId table deltaBytes recordedTs).1,
      insertOrIgnore] at hstored
    rw [if_pos (List.mem_map.mpr ⟨e, he, SideCarEntry.key_inj.mpr hid⟩)] at hstored
    split_ifs at hstored with hlisted
    · obtain ⟨e', he', hid'⟩ := List.mem_map.mp hlisted
      obtain ⟨hrow, hscope⟩ := List.mem_filter.mp ((List.mem_insertionSort _).mp he')
      rw [eq_of_key_of_perm hs.sidecar he (hs.sidecar.mem_iff.mpr hrow)
        (SideCarEntry.key_inj.mpr (hid.trans hid'.symm))]
      exact of_decide_eq_true hscope
    · have hnew := hstored.mem_iff.mpr (ObjectStore.mem_put.mpr (.inl rfl))
      rw [eq_of_key_of_perm hs.sidecar he hnew (SideCarEntry.key_inj.mpr hid)]
  | replaySidecar migrationId engines env wasmNow => exact absurd trivial hop

/-- In a run of harmless calls, from ledgers with the same entries, the two builds answer every call
alike, and hold the same entries, none of them altered, after every call; without replays no other run
does. -/
theorem ledgers_agree_of_harmless (lib : MigrationLibraries) (s : Ledgers) (hs : SameContents s)
    (ops : List LedgerOperation) :
    (Guarded (step lib) (Harmless lib) s ops →
        Guarded (step lib) (Agrees lib) s ops ∧ SameContents (run (step lib) s ops)) ∧
      ((∀ op ∈ ops, ¬op.Replays) →
        (Guarded (step lib) (Agrees lib) s ops ↔ Guarded (step lib) (Harmless lib) s ops)) := by
  induction ops generalizing s with
  | nil => exact ⟨fun _ => ⟨trivial, hs⟩, fun _ => Iff.rfl⟩
  | cons op ops ih =>
    constructor
    · rintro ⟨hop, hops⟩
      have hagrees := agrees_of_harmless hs op hop
      obtain ⟨hrest, hend⟩ := (ih (step lib s op) hagrees.contents).1 hops
      exact ⟨⟨hagrees, hrest⟩, hend⟩
    · intro hnot
      rw [guarded_cons, guarded_cons]
      constructor
      · rintro ⟨hagrees, hrest⟩
        refine ⟨harmless_of_agrees hs op (hnot op List.mem_cons_self) hagrees, ?_⟩
        exact ((ih (step lib s op) hagrees.contents).2
          fun later hlater => hnot later (List.mem_cons_of_mem op hlater)).mp hrest
      · rintro ⟨hop, hops⟩
        have hagrees := agrees_of_harmless hs op hop
        exact ⟨hagrees, ((ih (step lib s op) hagrees.contents).1 hops).1⟩

def sampleEngines : EnginePair :=
  ⟨MigrationJobs.samplePathHandle.crdt.addKnownSchema 11,
    MigrationJobs.samplePathHandle.crdt.addKnownSchema 11, ⟨rfl, rfl, rfl, rfl, rfl, rfl⟩⟩

def sampleLedgers (entries : List SideCarEntry) : Ledgers :=
  ⟨.new (CrdtEngine.sampleKey 9) 10 [10, 11] 1 [] entries [], .empty,
    entries.foldl ObjectStore.put .empty⟩

/-- A text quarantined once, another write and a replay of both. -/
theorem ledgers_agree_of_harmless_sample :
    let lib := QuarantineRelease.sampleReading.toMigrationLibraries
    let ops : List LedgerOperation :=
      [.quarantine CrdtEngine.sampleDid₂ [8] (some 12) .unknownSchemaHash 5, .getAll,
        .releaseForMigration 13 1, .record 1 "items" [9] 6,
        .replaySidecar 1 sampleEngines MigrationJobs.sampleReplay 9]
    Guarded (step lib) (Agrees lib) (sampleLedgers [⟨1, 1, "items", [7], 5, .pending⟩]) ops := by
  intro lib ops
  have hcontents : SameContents (sampleLedgers [⟨1, 1, "items", [7], 5, .pending⟩]) :=
    ⟨.refl _, .refl _⟩
  have hloaded : (run (step lib) (sampleLedgers [⟨1, 1, "items", [7], 5, .pending⟩])
      (ops.take 4)).native.loadEntriesOrdered 1 = [⟨1, 1, "items", [7], 5, .pending⟩,
        ⟨lib.sha256 ([9] ++ timestampBytes 6), 1, "items", [9], 6, .pending⟩] := by
    decide +kernel
  refine ((ledgers_agree_of_harmless lib _ hcontents ops).1
    ⟨fun e he => absurd he List.not_mem_nil, ?_, ⟨by decide +kernel, by decide +kernel⟩,
      ⟨by decide +kernel, by decide +kernel⟩, ⟨by decide +kernel, by decide +kernel, ?_⟩, trivial⟩).1
  · unfold Harmless
    decide +kernel
  · change ErrorFree lib MigrationJobs.sampleReplay sampleEngines.native
      ((run (step lib) (sampleLedgers [⟨1, 1, "items", [7], 5, .pending⟩])
        (ops.take 4)).native.loadEntriesOrdered 1)
    rw [hloaded]
    exact ⟨rfl, by decide +kernel, trivial⟩

/-- A text quarantined again by another sender, a release, and a write recorded in an empty ledger. -/
theorem ledgers_part :
    let lib := QuarantineRelease.sampleReading.toMigrationLibraries
    let first : LedgerOperation :=
      .quarantine CrdtEngine.sampleDid₂ [8] (some 12) .unknownSchemaHash 5
    let again : LedgerOperation :=
      .quarantine CrdtEngine.sampleDid₃ [8] (some 12) .unknownSchemaHash 6
    let held := step lib (sampleLedgers []) first
    let twice := step lib held again
    twice.native.quarantineLedger.map QuarantineEntry.senderDid = [CrdtEngine.sampleDid₂] ∧
      twice.quarantine.rows.map QuarantineEntry.senderDid = [CrdtEngine.sampleDid₃] ∧
      ¬Agrees lib held again ∧ ¬Agrees lib held (.releaseForMigration 12 1) ∧
      ¬Agrees lib held (.record 1 "items" [7] 5) ∧ ¬Agrees lib (sampleLedgers []) .getAll := by
  intro lib first again held twice
  have hheld : SameContents held := by
    refine (agrees_of_harmless ⟨.refl _, .refl _⟩ first ?_).contents
    exact fun e he => absurd he List.not_mem_nil
  refine ⟨by decide +kernel, by decide +kernel, fun h => ?_, fun h => ?_, fun h => ?_, fun h => ?_⟩
  · have hsame := harmless_of_agrees hheld again (fun hop => hop) h
      ⟨lib.sha256 [8], CrdtEngine.sampleDid₂, [8], some 12, .unknownSchemaHash, 5, none⟩
      (by decide +kernel) rfl
    exact absurd (congrArg QuarantineEntry.senderDid hsame) (by decide +kernel)
  · have hmarked := (harmless_of_agrees hheld (.releaseForMigration 12 1) (fun hop => hop) h).2
      ⟨lib.sha256 [8], CrdtEngine.sampleDid₂, [8], some 12, .unknownSchemaHash, 5, none⟩
      (by decide +kernel) rfl
    cases hmarked
  · exact (harmless_of_agrees hheld (.record 1 "items" [7] 5) (fun hop => hop) h).1 rfl
  · exact harmless_of_agrees ⟨.refl _, .refl _⟩ .getAll (fun hop => hop) h rfl

end TirBase.LedgerAgreement
