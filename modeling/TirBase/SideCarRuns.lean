import TirBase.QuarantineRelease
import TirBase.RevokedTransforms
import TirBase.SideCarReplay

/-! # Runs of writes under a corruption window

Writes are recorded while a window stands on the current schema, and replayed when the device leaves
it, with migrations, revocations and whatever else happens to the CRDT engine in between. -/
namespace TirBase.SideCarRuns
open CrdtEngine SchemaMigrationEngine SchemaWalk SideCarReplay TransitionRuns

/-- A write with the migration under whose window it was made. -/
structure WindowWrite where
  migrationId : MigrationId
  tableName : String
  deltaBytes : Bytes
  recordedTs : ℤ
  deriving DecidableEq

def WindowWrite.ofEntry (e : SideCarEntry) : WindowWrite :=
  ⟨e.migrationId, e.tableName, e.deltaBytes, e.recordedTs⟩

structure SideCarRun where
  engine : SchemaMigrationEngine
  crdt : CrdtEngine
  writes : List WindowWrite

inductive SideCarOperation
  | prepare (δ : MigrationDelta) (senderDid : Did)
  | finish (migrationId : MigrationId) (target : SchemaIdentifierHash)
      (result : Except TirBaseError MigrationResult)
  | revoke (δ : MigrationRevocationDelta) (now : ℤ)
  | record (table : String) (deltaBytes : Bytes) (recordedTs : ℤ)
  | replay (env : ReplayEnvironment) (preMigrationSchema : SchemaIdentifierHash)
  | elsewhere (crdt : CrdtEngine)

def start (m : SchemaMigrationEngine) (crdt : CrdtEngine) : SideCarRun := ⟨m, crdt, []⟩

variable (lib : MigrationLibraries)

def step (s : SideCarRun) : SideCarOperation → SideCarRun
  | .prepare δ senderDid => { s with engine := (s.engine.prepareMigration lib δ senderDid).2 }
  | .finish migrationId target result =>
    { s with engine := (s.engine.finishMigration migrationId target result).2 }
  | .revoke δ now => { s with engine := (s.engine.receiveRevocationDelta lib δ now).2 }
  | .record table deltaBytes recordedTs =>
    { s with
      engine := (s.engine.recordCorruptedWindowWrite lib table deltaBytes recordedTs).2
      writes := match s.engine.activeCorruptionMigration with
        | none => s.writes
        | some id =>
          if ⟨id, table, deltaBytes, recordedTs⟩ ∈ s.writes then s.writes
          else s.writes ++ [⟨id, table, deltaBytes, recordedTs⟩] }
  | .replay env preMigrationSchema =>
    let out := replayCorruptedWindows lib env s.engine s.crdt preMigrationSchema
    { s with engine := out.1, crdt := out.2 }
  | .elsewhere crdt => { s with crdt := crdt }

/-- Each write of the window has one entry, with its bytes, in the order of the writes. -/
def StoredOnce (s : SideCarRun) : Prop :=
  s.engine.sidecarLedger.map WindowWrite.ofEntry = s.writes

/-- A window that a later pass replays names the migration. -/
def InWindow (m : SchemaMigrationEngine) (id : MigrationId) : Prop :=
  ∃ schema, id ∈ (m.corruptedSchemaWindows.lookup schema).getD []

def NotStranded (m : SchemaMigrationEngine) : Prop :=
  ∀ e ∈ m.sidecarLedger, e.replayStatus = .replayed ∨ e.replayStatus = .complete ∨
    InWindow m e.migrationId

def closeWindow (m : SchemaMigrationEngine) (schema : SchemaIdentifierHash) :
    SchemaMigrationEngine :=
  { m with corruptedSchemaWindows := m.corruptedSchemaWindows.erase schema }

/-- A replay closes the window and makes one pass for each of its migrations. -/
def ReplaysExactly (s : SideCarRun) : SideCarOperation → Prop
  | .replay env preMigrationSchema =>
    let ids := (s.engine.corruptedSchemaWindows.lookup preMigrationSchema).getD []
    ids.Nodup ∧ Passes lib env (closeWindow s.engine preMigrationSchema, s.crdt) ids
      ((step lib s (.replay env preMigrationSchema)).engine,
        (step lib s (.replay env preMigrationSchema)).crdt)
  | _ => True

/-- Every entry is read and merges, one after the other. -/
def Merging (env : ReplayEnvironment) : CrdtEngine → List SideCarEntry → Prop
  | _, [] => True
  | crdt, entry :: entries =>
    ∃ δ, lib.parseDelta entry.deltaBytes = .ok δ ∧
      (∃ n, (crdt.apply lib.toEngineLibraries .native δ env.now (env.fault entry.id)).1 =
        .ok (.merged n)) ∧
      Merging env (crdt.apply lib.toEngineLibraries .native δ env.now (env.fault entry.id)).2 entries

/-- Before each pass: the entries of its migration merge, or another window names the migration. -/
def MergingPasses (env : ReplayEnvironment) :
    SchemaMigrationEngine × CrdtEngine → List MigrationId → Prop
  | _, [] => True
  | s, id :: ids => (InWindow s.1 id ∨ Merging lib env s.2 (recorded s.1 id)) ∧
      MergingPasses env (replaySidecar lib env s.1 s.2 id) ids

/-- The identifier of a new write is not in the ledger; a window that is replayed names each migration
once, the times of its entries never step back, and what is in no other window merges. -/
def Careful (s : SideCarRun) : SideCarOperation → Prop
  | .record table deltaBytes recordedTs => ∀ id, s.engine.activeCorruptionMigration = some id →
      ⟨id, table, deltaBytes, recordedTs⟩ ∈ s.writes ∨
        lib.sha256 (deltaBytes ++ timestampBytes recordedTs) ∉
          s.engine.sidecarLedger.map SideCarEntry.id
  | .replay env preMigrationSchema =>
    let ids := (s.engine.corruptedSchemaWindows.lookup preMigrationSchema).getD []
    ids.Nodup ∧
      (∀ id ∈ ids, (recorded s.engine id).Pairwise fun a b => a.recordedTs ≤ b.recordedTs) ∧
      MergingPasses lib env (closeWindow s.engine preMigrationSchema, s.crdt) ids
  | _ => True

variable {lib} {env : ReplayEnvironment}

def bareLedger (m : SchemaMigrationEngine) : List SideCarEntry :=
  m.sidecarLedger.map fun e => { e with replayStatus := .pending }

theorem bareLedger_map (m : SchemaMigrationEngine) (f : SideCarEntry → SideCarEntry)
    (hf : ∀ e, { f e with replayStatus := .pending } = { e with replayStatus := .pending }) :
    bareLedger { m with sidecarLedger := m.sidecarLedger.map f } = bareLedger m := by
  simp only [bareLedger, List.map_map]
  exact List.map_congr_left fun e _ => hf e

theorem bare_settle (applied : List Applied) (e : SideCarEntry) :
    { settle applied e with replayStatus := .pending } = { e with replayStatus := .pending } := by
  unfold settle
  split <;> rfl

theorem bareLedger_pass {s s' : SchemaMigrationEngine × CrdtEngine} {id : MigrationId}
    {summary : ReplaySummary} (h : Pass lib env s id summary s') : bareLedger s'.1 = bareLedger s.1 := by
  cases h with
  | complete =>
    refine bareLedger_map s.1 _ fun e => ?_
    split_ifs <;> rfl
  | incomplete => exact bareLedger_map s.1 _ (bare_settle _)

section Bare
variable {m m' : SchemaMigrationEngine}

theorem map_eq_of_bareLedger {β : Type} (f : SideCarEntry → β)
    (hf : ∀ e, f { e with replayStatus := .pending } = f e) (h : bareLedger m' = bareLedger m) :
    m'.sidecarLedger.map f = m.sidecarLedger.map f := by
  have hmap := congrArg (List.map f) h
  simp only [bareLedger, List.map_map] at hmap
  have hcomp : (f ∘ fun e : SideCarEntry => { e with replayStatus := .pending }) = f := funext hf
  rwa [hcomp] at hmap

theorem ordered_of_bareLedger (h : bareLedger m' = bareLedger m) {id : MigrationId}
    (hordered : (recorded m id).Pairwise fun a b => a.recordedTs ≤ b.recordedTs) :
    (recorded m' id).Pairwise fun a b => a.recordedTs ≤ b.recordedTs := by
  have htimes : ∀ m : SchemaMigrationEngine, (recorded m id).map SideCarEntry.recordedTs =
      ((bareLedger m).filter fun e => e.migrationId = id).map SideCarEntry.recordedTs := by
    intro m
    rw [bareLedger, List.filter_map, List.map_map]
    rfl
  rw [← List.pairwise_map (R := fun a b : ℤ => a ≤ b)] at hordered ⊢
  rw [htimes, h, ← htimes]
  exact hordered

end Bare

/-- Where every entry merges, the pass is complete unless there is none. -/
theorem merged_of_merging {crdt crdt' : CrdtEngine} {entries : List SideCarEntry}
    {applied : List Applied} (h : Applies lib env crdt entries applied crdt')
    (hmerging : Merging lib env crdt entries) : ∀ a ∈ applied, a.merged ≠ none := by
  induction h with
  | nil crdt => exact fun a ha => absurd ha List.not_mem_nil
  | merged δ hparse hmerged rest ih =>
    obtain ⟨δ', hparse', -, hrest⟩ := hmerging
    cases hparse.symm.trans hparse'
    intro a ha
    rcases List.mem_cons.mp ha with rfl | ha
    · exact Option.some_ne_none _
    · exact ih hrest a ha
  | unread e info hparse rest ih =>
    obtain ⟨δ', hparse', -⟩ := hmerging
    cases hparse.symm.trans hparse'
  | refused δ info hparse hrefused rest ih =>
    obtain ⟨δ', hparse', ⟨n, hn⟩, -⟩ := hmerging
    cases hparse.symm.trans hparse'
    exact absurd hn (hrefused n)

/-- No entry is left behind by a pass whose entries merge, or whose migration another window names. -/
theorem notStranded_pass {s s' : SchemaMigrationEngine × CrdtEngine} {id : MigrationId}
    {ids : List MigrationId} (hnodup : (s.1.sidecarLedger.map SideCarEntry.id).Nodup)
    {summary : ReplaySummary} (hpass : Pass lib env s id summary s')
    (hmerging : InWindow s.1 id ∨ Merging lib env s.2 (recorded s.1 id))
    (hs : ∀ e ∈ s.1.sidecarLedger, e.replayStatus = .replayed ∨ e.replayStatus = .complete ∨
      InWindow s.1 e.migrationId ∨ e.migrationId ∈ id :: ids) :
    ∀ e ∈ s'.1.sidecarLedger, e.replayStatus = .replayed ∨ e.replayStatus = .complete ∨
      InWindow s'.1 e.migrationId ∨ e.migrationId ∈ ids := by
  have hother : ∀ e ∈ s.1.sidecarLedger, e.migrationId ≠ id → e.replayStatus = .replayed ∨
      e.replayStatus = .complete ∨ InWindow s.1 e.migrationId ∨ e.migrationId ∈ ids := by
    intro e he hne
    rcases hs e he with hreplayed | hcomplete | hwindow | hmem
    · exact .inl hreplayed
    · exact .inr (.inl hcomplete)
    · exact .inr (.inr (.inl hwindow))
    · exact .inr (.inr (.inr (List.mem_of_ne_of_mem hne hmem)))
  intro e' he'
  cases hpass with
  | complete happlies hentry hall hretags htagged =>
    obtain ⟨e, he, rfl⟩ := List.mem_map.mp he'
    by_cases hid : e.migrationId = id
    · rw [if_pos hid]
      exact .inr (.inl rfl)
    · rw [if_neg hid]
      exact hother e he hid
  | @incomplete applied crdt happlies hnot =>
    obtain ⟨e, he, rfl⟩ := List.mem_map.mp he'
    by_cases hid : e.migrationId = id
    · have hkept : (settle applied e).migrationId = e.migrationId := by
        unfold settle
        split <;> rfl
      rcases hmerging with hwindow | hmerging
      · rw [hkept, hid]
        exact .inr (.inr (.inl hwindow))
      · have hnone : applied = [] := by
          rcases hnot with hnone | ⟨a, ha, hconflict⟩
          · exact hnone
          · exact absurd hconflict (merged_of_merging happlies hmerging a ha)
        have hempty : e ∈ recorded s.1 id := List.mem_filter.mpr ⟨he, decide_eq_true hid⟩
        have hids := happlies.entries
        rw [hnone, List.map_nil, eq_comm, List.map_eq_nil_iff] at hids
        rw [hids] at hempty
        exact absurd hempty List.not_mem_nil
    · rw [settle_of_other hnodup happlies he hid]
      exact hother e he hid

theorem passes_foldl (lib : MigrationLibraries) (env : ReplayEnvironment) (ids : List MigrationId)
    (s : SchemaMigrationEngine × CrdtEngine)
    (hnodup : (s.1.sidecarLedger.map SideCarEntry.id).Nodup)
    (hordered : ∀ id ∈ ids, (recorded s.1 id).Pairwise fun a b => a.recordedTs ≤ b.recordedTs)
    (hmerging : MergingPasses lib env s ids)
    (hs : ∀ e ∈ s.1.sidecarLedger, e.replayStatus = .replayed ∨ e.replayStatus = .complete ∨
      InWindow s.1 e.migrationId ∨ e.migrationId ∈ ids) :
    let s' := ids.foldl (fun s id => replaySidecar lib env s.1 s.2 id) s
    Passes lib env s ids s' ∧ bareLedger s'.1 = bareLedger s.1 ∧ NotStranded s'.1 := by
  induction ids generalizing s with
  | nil =>
    refine ⟨.nil s, rfl, fun e he => ?_⟩
    rcases hs e he with hreplayed | hcomplete | hwindow | hmem
    · exact .inl hreplayed
    · exact .inr (.inl hcomplete)
    · exact .inr (.inr hwindow)
    · exact absurd hmem List.not_mem_nil
  | cons id ids ih =>
    have hpass : Pass lib env s id (replaySummary lib env s.1 s.2 id)
        (replaySidecar lib env s.1 s.2 id) :=
      pass_replaySidecar lib env s.1 s.2 id hnodup (hordered id List.mem_cons_self)
    have hbare := bareLedger_pass hpass
    have hids := map_eq_of_bareLedger SideCarEntry.id (fun _ => rfl) hbare
    obtain ⟨hpasses, hkept, hleft⟩ := ih (replaySidecar lib env s.1 s.2 id) (hids ▸ hnodup)
      (fun other hother => ordered_of_bareLedger hbare
        (hordered other (List.mem_cons_of_mem id hother)))
      hmerging.2 (notStranded_pass hnodup hpass hmerging.1 hs)
    exact ⟨.cons hpass hpasses, hkept.trans hbare, hleft⟩

/-- Every entry is identified by its bytes and its time, and the ledger holds what was written. -/
structure Kept (lib : MigrationLibraries) (s : SideCarRun) : Prop where
  nodup : (s.engine.sidecarLedger.map SideCarEntry.id).Nodup
  hashed : ∀ e ∈ s.engine.sidecarLedger,
    e.id = lib.sha256 (e.deltaBytes ++ timestampBytes e.recordedTs)
  stored : StoredOnce s
  notStranded : NotStranded s.engine

theorem kept_start {m : SchemaMigrationEngine} (hempty : m.sidecarLedger = []) (crdt : CrdtEngine) :
    Kept lib (start m crdt) where
  nodup := by simp [start, hempty]
  hashed e he := by
    rw [start, hempty] at he
    exact absurd he List.not_mem_nil
  stored := by simp [StoredOnce, start, hempty]
  notStranded e he := by
    rw [start, hempty] at he
    exact absurd he List.not_mem_nil

/-- What leaves the ledger alone and only adds to the windows keeps everything. -/
theorem kept_of_ledger_eq {s s' : SideCarRun} (hs : Kept lib s)
    (hledger : s'.engine.sidecarLedger = s.engine.sidecarLedger) (hwrites : s'.writes = s.writes)
    (hwindows : ∀ id, InWindow s.engine id → InWindow s'.engine id) : Kept lib s' where
  nodup := by
    rw [hledger]
    exact hs.nodup
  hashed := by
    rw [hledger]
    exact hs.hashed
  stored := by
    rw [StoredOnce, hledger, hwrites]
    exact hs.stored
  notStranded e he := by
    rw [hledger] at he
    rcases hs.notStranded e he with hreplayed | hcomplete | hwindow
    · exact .inl hreplayed
    · exact .inr (.inl hcomplete)
    · exact .inr (.inr (hwindows _ hwindow))

theorem sidecarLedger_prepareMigration (lib : MigrationLibraries) (m : SchemaMigrationEngine)
    (δ : MigrationDelta) (senderDid : Did) :
    (m.prepareMigration lib δ senderDid).2.sidecarLedger = m.sidecarLedger := by
  unfold prepareMigration
  dsimp only
  split_ifs
  · rfl
  · rfl
  · rfl
  · rfl
  · split <;> rfl
  · split <;> rfl

theorem sidecarLedger_finishMigration (m : SchemaMigrationEngine) (migrationId : MigrationId)
    (target : SchemaIdentifierHash) (result : Except TirBaseError MigrationResult) :
    (m.finishMigration migrationId target result).2.sidecarLedger = m.sidecarLedger := by
  unfold finishMigration
  dsimp only
  split_ifs
  · rfl
  · split <;> rfl

theorem kept_revoke {s : SideCarRun} (hs : Kept lib s) (δ : MigrationRevocationDelta) (now : ℤ) :
    Kept lib (step lib s (.revoke δ now)) := by
  by_cases hrevocable : Revocable lib s.engine δ
  · obtain ⟨halted, registry, -, -, hout⟩ := receiveRevocationDelta_of_revocable now hrevocable
    refine kept_of_ledger_eq hs ?_ rfl fun id hid => ?_
    · simp only [step, hout]
    · obtain ⟨schema, hmem⟩ := hid
      refine ⟨schema, ?_⟩
      simp only [step, hout]
      split_ifs
      · by_cases hschema : schema = s.engine.localSchemaHash
        · subst hschema
          rw [AList.lookup_insert]
          exact List.mem_append_left _ hmem
        · rw [AList.lookup_insert_ne hschema]
          exact hmem
      · exact hmem
  · obtain ⟨e, hout⟩ := receiveRevocationDelta_of_not_revocable now hrevocable
    refine kept_of_ledger_eq hs ?_ rfl fun id hid => ?_
    · simp only [step, hout]
    · simp only [step, hout]
      exact hid

/-- A new write is appended under its own identifier; one that was made before is found again. -/
theorem kept_record {s : SideCarRun} (hs : Kept lib s) (table : String) (deltaBytes : Bytes)
    (recordedTs : ℤ) (hcareful : Careful lib s (.record table deltaBytes recordedTs)) :
    Kept lib (step lib s (.record table deltaBytes recordedTs)) := by
  cases hactive : s.engine.activeCorruptionMigration with
  | none =>
    have hstep : step lib s (.record table deltaBytes recordedTs) = s := by
      simp only [step, recordCorruptedWindowWrite, hactive]
    rw [hstep]
    exact hs
  | some id =>
    by_cases hwritten : ⟨id, table, deltaBytes, recordedTs⟩ ∈ s.writes
    · have hid : lib.sha256 (deltaBytes ++ timestampBytes recordedTs) ∈
          s.engine.sidecarLedger.map SideCarEntry.id := by
        have hwrite := hwritten
        rw [← hs.stored] at hwrite
        obtain ⟨e, he, hentry⟩ := List.mem_map.mp hwrite
        cases hentry
        exact List.mem_map.mpr ⟨e, he, hs.hashed e he⟩
      have hstep : step lib s (.record table deltaBytes recordedTs) = s := by
        simp only [step, recordCorruptedWindowWrite, hactive, if_pos hid, if_pos hwritten]
      rw [hstep]
      exact hs
    · have hid := (hcareful id hactive).resolve_left hwritten
      have hledger : (step lib s (.record table deltaBytes recordedTs)).engine = { s.engine with
          sidecarLedger := s.engine.sidecarLedger ++
            [⟨lib.sha256 (deltaBytes ++ timestampBytes recordedTs), id, table, deltaBytes,
              recordedTs, .pending⟩] } := by
        simp only [step, recordCorruptedWindowWrite, hactive, if_neg hid]
      have hwrites : (step lib s (.record table deltaBytes recordedTs)).writes =
          s.writes ++ [⟨id, table, deltaBytes, recordedTs⟩] := by
        simp only [step, hactive, if_neg hwritten]
      refine ⟨?_, fun e he => ?_, ?_, fun e he => ?_⟩
      · rw [hledger, List.map_append, List.map_singleton]
        refine List.nodup_append.mpr ⟨hs.nodup, List.nodup_singleton _, ?_⟩
        rintro other hother new hnew rfl
        rw [List.mem_singleton] at hnew
        rw [hnew] at hother
        exact hid hother
      · rw [hledger] at he
        rcases List.mem_append.mp he with he | he
        · exact hs.hashed e he
        · rw [List.mem_singleton] at he
          rw [he]
      · rw [StoredOnce, hledger, hwrites, List.map_append, hs.stored]
        rfl
      · rw [hledger] at he ⊢
        rcases List.mem_append.mp he with he | he
        · exact hs.notStranded e he
        · rw [List.mem_singleton] at he
          rw [he]
          refine .inr (.inr ⟨s.engine.localSchemaHash, ?_⟩)
          rw [activeCorruptionMigration, Option.bind_eq_some_iff] at hactive
          obtain ⟨ids, hids, hhead⟩ := hactive
          rw [hids]
          exact List.mem_of_mem_head? hhead

theorem passes_replay {s : SideCarRun} (hs : Kept lib s) (preMigrationSchema : SchemaIdentifierHash)
    (hcareful : Careful lib s (.replay env preMigrationSchema)) :
    ReplaysExactly lib s (.replay env preMigrationSchema) ∧
      Kept lib (step lib s (.replay env preMigrationSchema)) := by
  obtain ⟨hids, hordered, hmerging⟩ := hcareful
  have hwaiting : ∀ e ∈ s.engine.sidecarLedger, e.replayStatus = .replayed ∨
      e.replayStatus = .complete ∨
      InWindow (closeWindow s.engine preMigrationSchema) e.migrationId ∨
      e.migrationId ∈ (s.engine.corruptedSchemaWindows.lookup preMigrationSchema).getD [] := by
    intro e he
    rcases hs.notStranded e he with hreplayed | hcomplete | ⟨schema, hmem⟩
    · exact .inl hreplayed
    · exact .inr (.inl hcomplete)
    · by_cases hschema : schema = preMigrationSchema
      · rw [hschema] at hmem
        exact .inr (.inr (.inr hmem))
      · refine .inr (.inr (.inl ⟨schema, ?_⟩))
        rw [closeWindow, AList.lookup_erase_ne hschema]
        exact hmem
  obtain ⟨hpasses, hbare, hleft⟩ := passes_foldl lib env _
    (closeWindow s.engine preMigrationSchema, s.crdt) hs.nodup hordered hmerging hwaiting
  have hkept : bareLedger (step lib s (.replay env preMigrationSchema)).engine =
      bareLedger s.engine := hbare
  refine ⟨⟨hids, hpasses⟩, ?_, ?_, ?_, hleft⟩
  · rw [map_eq_of_bareLedger SideCarEntry.id (fun _ => rfl) hkept]
    exact hs.nodup
  · intro e he
    have hmem : (e.id, e.deltaBytes, e.recordedTs) ∈
        (step lib s (.replay env preMigrationSchema)).engine.sidecarLedger.map
          fun e => (e.id, e.deltaBytes, e.recordedTs) := List.mem_map.mpr ⟨e, he, rfl⟩
    rw [map_eq_of_bareLedger (fun e => (e.id, e.deltaBytes, e.recordedTs)) (fun _ => rfl)
      hkept] at hmem
    obtain ⟨before, hbefore, heq⟩ := List.mem_map.mp hmem
    simp only [Prod.mk.injEq] at heq
    rw [← heq.1, ← heq.2.1, ← heq.2.2]
    exact hs.hashed before hbefore
  · rw [StoredOnce, map_eq_of_bareLedger WindowWrite.ofEntry (fun _ => rfl) hkept]
    exact hs.stored

theorem kept_step {s : SideCarRun} (hs : Kept lib s) (op : SideCarOperation)
    (hcareful : Careful lib s op) :
    ReplaysExactly lib s op ∧ Kept lib (step lib s op) := by
  cases op with
  | prepare δ senderDid =>
    refine ⟨trivial, kept_of_ledger_eq hs ?_ rfl fun id hid => ?_⟩
    · exact sidecarLedger_prepareMigration lib s.engine δ senderDid
    · unfold InWindow
      simp only [step, (prepareMigration_cases lib s.engine δ senderDid).2.2.1]
      exact hid
  | finish migrationId target result =>
    refine ⟨trivial, kept_of_ledger_eq hs ?_ rfl fun id hid => ?_⟩
    · exact sidecarLedger_finishMigration s.engine migrationId target result
    · unfold InWindow
      simp only [step, (finishMigration_cases s.engine migrationId target result).2.1]
      exact hid
  | revoke δ now => exact ⟨trivial, kept_revoke hs δ now⟩
  | record table deltaBytes recordedTs =>
    exact ⟨trivial, kept_record hs table deltaBytes recordedTs hcareful⟩
  | replay env preMigrationSchema => exact passes_replay hs preMigrationSchema hcareful
  | elsewhere crdt =>
    exact ⟨trivial, hs.nodup, hs.hashed, hs.stored, hs.notStranded⟩

theorem kept_run {s : SideCarRun} (hs : Kept lib s) {ops : List SideCarOperation}
    (hcareful : Guarded (step lib) (Careful lib) s ops) :
    Guarded (step lib) (ReplaysExactly lib) s ops ∧
      ∀ earlier, earlier <+: ops → Kept lib (run (step lib) s earlier) := by
  induction ops generalizing s with
  | nil =>
    refine ⟨trivial, fun earlier hearlier => ?_⟩
    rw [List.prefix_nil.mp hearlier]
    exact hs
  | cons op ops ih =>
    obtain ⟨hop, hops⟩ := hcareful
    obtain ⟨hexact, hnext⟩ := kept_step hs op hop
    obtain ⟨hlater, hall⟩ := ih hnext hops
    refine ⟨⟨hexact, hlater⟩, fun earlier hearlier => ?_⟩
    rcases List.prefix_cons_iff.mp hearlier with rfl | ⟨rest, rfl, hrest⟩
    · exact hs
    · exact hall rest hrest

/-- In a careful run from an engine with an empty ledger every write under a window is stored once with
its bytes, each replay makes one exact pass for each migration of the window it closes, and every entry
that is not merged is in a window that a later pass replays. -/
theorem sidecar_exact_of_careful (lib : MigrationLibraries) (caPublicKey : KeyBytes)
    (localSchemaHash : SchemaIdentifierHash) (versionPath : List SchemaIdentifierHash)
    (revocationThresholdM : ℕ) (quarantineLedger : List QuarantineEntry)
    (schemaDefinitions : List (SchemaIdentifierHash × Schema)) (crdt : CrdtEngine)
    (ops : List SideCarOperation)
    (hcareful : Guarded (step lib) (Careful lib) (start (.new caPublicKey localSchemaHash
      versionPath revocationThresholdM quarantineLedger [] schemaDefinitions) crdt) ops) :
    let s := start (.new caPublicKey localSchemaHash versionPath revocationThresholdM
      quarantineLedger [] schemaDefinitions) crdt
    Guarded (step lib) (ReplaysExactly lib) s ops ∧
      ∀ earlier, earlier <+: ops → StoredOnce (run (step lib) s earlier) ∧
        NotStranded (run (step lib) s earlier).engine := by
  intro s
  have hs : Kept lib s := kept_start rfl crdt
  obtain ⟨hexact, hall⟩ := kept_run hs hcareful
  exact ⟨hexact, fun earlier hearlier =>
    ⟨(hall earlier hearlier).stored, (hall earlier hearlier).notStranded⟩⟩

def windowOpened : List SideCarOperation :=
  [.prepare (RevokedTransforms.sampleTransform 1) sampleDid₂, .finish 1 11 (.ok .success),
    .revoke RevokedTransforms.sampleRevocation 5]

def sampleStart : SideCarRun :=
  start RevokedTransforms.sampleEngine (MigrationJobs.samplePathHandle.crdt.addKnownSchema 11)

/-- A write that merges is replayed to the end. -/
theorem sidecar_exact_of_careful_sample :
    let lib := QuarantineRelease.sampleReading.toMigrationLibraries
    let ops := windowOpened ++ [.record "items" [7] 5, .replay MigrationJobs.sampleReplay 11]
    Guarded (step lib) (ReplaysExactly lib) sampleStart ops ∧
      ∀ earlier, earlier <+: ops → StoredOnce (run (step lib) sampleStart earlier) ∧
        NotStranded (run (step lib) sampleStart earlier).engine := by
  intro lib ops
  refine sidecar_exact_of_careful lib (sampleKey 9) 10 [10, 11] 1 [] []
    (MigrationJobs.samplePathHandle.crdt.addKnownSchema 11) ops
    ⟨trivial, trivial, trivial, ?_, ⟨by decide +kernel, ?_, ?_, trivial⟩, trivial⟩
  · intro id hactive
    exact .inr (by decide +kernel)
  · intro id hid
    have hone : id = 1 := by
      have hids : ((run (step lib) sampleStart (ops.take 4)).engine.corruptedSchemaWindows.lookup
          11).getD [] = [1] := by decide +kernel
      have hmem : id ∈ [1] := hids ▸ hid
      exact List.mem_singleton.mp hmem
    subst hone
    decide +kernel
  · exact .inr ⟨QuarantineRelease.early, by decide +kernel, ⟨2, by decide +kernel⟩, trivial⟩

/-- A write whose Delta cannot be read is stranded by the replay that closes its window, and a clock
that steps back turns the order of two writes around. -/
theorem replay_strands_write :
    let lib := QuarantineRelease.sampleReading.toMigrationLibraries
    let stranded := run (step lib) sampleStart
      (windowOpened ++ [.record "items" [0] 5, .replay MigrationJobs.sampleReplay 11])
    let turned := run (step lib) sampleStart
      (windowOpened ++ [.record "items" [7] 9, .record "items" [0] 5])
    ¬NotStranded stranded.engine ∧
      turned.writes.map WindowWrite.deltaBytes = [[7], [0]] ∧
      (turned.engine.loadEntriesOrdered 1).map SideCarEntry.deltaBytes = [[0], [7]] := by
  intro lib stranded turned
  refine ⟨fun hkept => ?_, by decide +kernel, by decide +kernel⟩
  have hentries : stranded.engine.corruptedSchemaWindows.entries = [] := by decide +kernel
  have hwindows : stranded.engine.corruptedSchemaWindows = ∅ := AList.ext hentries
  have hledger : stranded.engine.sidecarLedger.map SideCarEntry.replayStatus =
      [.conflict "deserialise error: expected value at line 1 column 1"] := by decide +kernel
  obtain ⟨e, he, hstatus⟩ : ∃ e ∈ stranded.engine.sidecarLedger, e.replayStatus =
      .conflict "deserialise error: expected value at line 1 column 1" := by
    rw [← List.mem_map, hledger]
    exact List.mem_singleton_self _
  rcases hkept e he with hreplayed | hcomplete | ⟨schema, hmem⟩
  · rw [hstatus] at hreplayed
    cases hreplayed
  · rw [hstatus] at hcomplete
    cases hcomplete
  · rw [hwindows, AList.lookup_empty] at hmem
    exact absurd hmem List.not_mem_nil

end TirBase.SideCarRuns
