import TirBase.MigrationJobs
import TirBase.ReceiptSoundness

/-! # Quarantined Deltas after a migration

A Delta under an unknown or breaking schema waits in the Quarantine Ledger. No migration takes it
out again: `release_for_migration` has no caller. -/
namespace TirBase

/-- `release_for_migration`: every entry of the schema is marked with the migration. -/
def SchemaMigrationEngine.releaseForMigration (m : SchemaMigrationEngine)
    (schemaHash : SchemaIdentifierHash) (migrationId : MigrationId) : SchemaMigrationEngine :=
  { m with
    quarantineLedger := m.quarantineLedger.map fun e =>
      if e.schemaHash = some schemaHash then { e with migrationId := some migrationId } else e }

namespace QuarantineRelease
open CoreHandle TransitionRuns MigrationJobs ReceiptSoundness

variable (lib : CoreLibraries)

/-- The Delta of the text, if it is one and its signature verifies, was merged: the DAG holds the
text. -/
def Recovered (dag : ChangesetDag) (rawBytes : Bytes) : Prop :=
  ∀ δ, lib.parseDelta rawBytes = .ok δ → SignatureVerifies lib δ →
    ∃ row ∈ dag.nodes, row.deltaBytes = some rawBytes

/-- Once a migration has committed and its job has ended, the Deltas quarantined under its target
are merged or marked, and the new schema is quarantined through later arrivals only. -/
structure NothingLost (s : JobDevice) : Prop where
  recovered : ∀ commit, .ended (some commit) ∈ s.jobs →
    ∀ entry ∈ s.handle.migration.quarantineLedger, entry.schemaHash = some commit.target →
      Recovered lib s.handle.crdt.dag entry.rawBytes ∨
        entry.migrationId = some commit.migrationId
  cleared : ∀ commit, s.commits.getLast? = some commit → .ended (some commit) ∈ s.jobs →
    s.handle.migration.isSchemaQuarantined = true →
      ∃ entry ∈ s.handle.migration.quarantineLedger,
        entry.schemaHash = some s.handle.migration.localSchemaHash ∧
          entry.id ∈ s.quarantinedSince

/-- A migration commits when no entry waits for it, and a refused Delta that the ledger does not
hold yet is under no schema that was reached, or merged already. -/
def NothingWaits (s : JobDevice) : JobOperation → Prop
  | .finish index outcome => ∀ prepared, s.jobs[index]? = some (.running prepared) →
      outcome = .ok .success →
      prepared.migrationId ∉ s.handle.migration.revocationRegistry.revoked →
        ∀ entry ∈ s.handle.migration.quarantineLedger,
          entry.schemaHash = some prepared.targetSchemaHash →
            entry.migrationId = some prepared.migrationId ∨
              entry.migrationId ≠ none ∧ Recovered lib s.handle.crdt.dag entry.rawBytes
  | .quarantine index _ => ∀ δ reason, s.refused[index]? = some (δ, reason) →
      lib.sha256 (lib.serialiseDelta δ) ∉
          s.handle.migration.quarantineLedger.map QuarantineEntry.id →
        δ.schemaHash ∈ s.commits.map Commit.target →
          Recovered lib s.handle.crdt.dag (lib.serialiseDelta δ)
  | _ => True

variable {lib}

theorem Recovered.extends {dag dag' : ChangesetDag} {rawBytes : Bytes}
    (h : Recovered lib dag rawBytes) (hdag : dag.Extends dag') : Recovered lib dag' rawBytes := by
  intro δ hparse hverifies
  obtain ⟨row, hrow, hbytes⟩ := h δ hparse hverifies
  obtain ⟨row', hrow', hext⟩ := hdag row hrow
  exact ⟨row', hrow', hext.deltaBytes.trans hbytes⟩

theorem released_releaseForMigration {m : SchemaMigrationEngine}
    {schemaHash : SchemaIdentifierHash} {migrationId : MigrationId} {entry : QuarantineEntry}
    (hentry : entry ∈ (m.releaseForMigration schemaHash migrationId).quarantineLedger)
    (hhash : entry.schemaHash = some schemaHash) : entry.migrationId = some migrationId := by
  obtain ⟨before, -, rfl⟩ := List.mem_map.mp hentry
  by_cases hbefore : before.schemaHash = some schemaHash
  · rw [if_pos hbefore]
  · rw [if_neg hbefore] at hhash
    exact absurd hhash hbefore

def commitOf : Job → Option Commit
  | .committed commit _ => some commit
  | .holding commit _ _ _ => some commit
  | .ended commit => commit
  | _ => none

/-- The entries of reached schemas are accounted for. -/
structure Accounted (lib : CoreLibraries) (s : JobDevice) : Prop where
  jobs : ∀ job ∈ s.jobs, ∀ commit, commitOf job = some commit → commit ∈ s.commits
  entries : ∀ commit ∈ s.commits, ∀ entry ∈ s.handle.migration.quarantineLedger,
    entry.schemaHash = some commit.target →
      Recovered lib s.handle.crdt.dag entry.rawBytes ∨ entry.migrationId = some commit.migrationId
  since : s.commits ≠ [] → ∀ entry ∈ s.handle.migration.quarantineLedger,
    entry.schemaHash = some s.handle.migration.localSchemaHash → entry.migrationId = none →
      entry.id ∈ s.quarantinedSince

section Accounted
variable {s s' : JobDevice} {op : JobOperation}

/-- A step that commits and stores nothing. -/
theorem Accounted.of_same (h : Accounted lib s)
    (hjobs : ∀ job ∈ s'.jobs, ∀ commit, commitOf job = some commit →
      ∃ before ∈ s.jobs, commitOf before = some commit)
    (hlocal : s'.handle.migration.localSchemaHash = s.handle.migration.localSchemaHash)
    (hledger : s'.handle.migration.quarantineLedger = s.handle.migration.quarantineLedger)
    (hdag : s.handle.crdt.dag.Extends s'.handle.crdt.dag)
    (hcommits : s'.commits = s.commits) (hsince : s'.quarantinedSince = s.quarantinedSince) :
    Accounted lib s' where
  jobs job hjob commit hcommit := by
    rw [hcommits]
    obtain ⟨before, hmem, hsame⟩ := hjobs job hjob commit hcommit
    exact h.jobs before hmem commit hsame
  entries commit hcommit entry hentry hhash := by
    rw [hcommits] at hcommit
    rw [hledger] at hentry
    rcases h.entries commit hcommit entry hentry hhash with hrecovered | hreleased
    · exact .inl (hrecovered.extends hdag)
    · exact .inr hreleased
  since hne entry hentry hhash hnone := by
    rw [hcommits] at hne
    rw [hledger] at hentry
    rw [hlocal] at hhash
    rw [hsince]
    exact h.since hne entry hentry hhash hnone

theorem commitOf_of_set {jobs : List Job} {index : ℕ} {new : Job}
    (hnew : ∀ commit, commitOf new = some commit →
      ∃ before ∈ jobs, commitOf before = some commit) :
    ∀ job ∈ jobs.set index new, ∀ commit, commitOf job = some commit →
      ∃ before ∈ jobs, commitOf before = some commit := by
  intro job hjob commit hcommit
  rcases List.mem_or_eq_of_mem_set hjob with hjob | rfl
  · exact ⟨job, hjob, hcommit⟩
  · exact hnew commit hcommit

/-- The ledger after a refused Delta was stored: the entries it had, and perhaps a new one. -/
theorem mem_quarantineIncoming {m : SchemaMigrationEngine} {senderDid : Did} {rawBytes : Bytes}
    {schemaHash : Option SchemaIdentifierHash} {reason : QuarantineReason} {now : ℤ}
    {entry : QuarantineEntry}
    (h : entry ∈ (m.quarantineIncoming lib.toMigrationLibraries senderDid rawBytes schemaHash
      reason now).quarantineLedger) :
    entry ∈ m.quarantineLedger ∨
      (lib.sha256 rawBytes ∉ m.quarantineLedger.map QuarantineEntry.id ∧
        entry.id = lib.sha256 rawBytes ∧ entry.rawBytes = rawBytes ∧
        entry.schemaHash = schemaHash) := by
  unfold SchemaMigrationEngine.quarantineIncoming at h
  dsimp only at h
  split_ifs at h with hid
  · exact .inl h
  · rcases List.mem_append.mp h with h | h
    · exact .inl h
    · rw [List.mem_singleton.mp h]
      exact .inr ⟨hid, rfl, rfl, rfl⟩

theorem finish_succeeded {m : SchemaMigrationEngine} {migrationId : MigrationId}
    {target : SchemaIdentifierHash} {outcome : Except TirBaseError MigrationResult}
    (h : (m.finishMigration migrationId target outcome).1 = .ok .success) :
    outcome = .ok .success ∧ migrationId ∉ m.revocationRegistry.revoked := by
  unfold SchemaMigrationEngine.finishMigration at h
  dsimp only at h
  split_ifs at h with hrevoked
  · cases h
  · split at h
    · exact ⟨rfl, hrevoked⟩
    · exact ⟨h, hrevoked⟩

theorem Accounted.effect (h : Accounted lib s) (hguard : NothingWaits lib s op)
    (heffect : Effect lib s op s') : Accounted lib s' := by
  cases heffect with
  | other frame jobs commits calls since =>
    refine h.of_same ?_ frame.localSchemaHash frame.quarantineLedger frame.dag commits since
    intro job hjob commit hcommit
    obtain ⟨new, hjobs, hnew⟩ := jobs
    rw [hjobs] at hjob
    rcases List.mem_append.mp hjob with hjob | hjob
    · exact ⟨job, hjob, hcommit⟩
    · obtain ⟨δ, senderDid, rfl⟩ := hnew job hjob
      cases hcommit
  | stored index δ reason now operation refused migration crdt jobs commits calls since =>
    subst operation
    have hlocal : s'.handle.migration.localSchemaHash = s.handle.migration.localSchemaHash := by
      rw [migration]
      unfold SchemaMigrationEngine.quarantineIncoming
      dsimp only
      split_ifs <;> rfl
    constructor
    · rw [jobs, commits]
      exact h.jobs
    · intro commit hcommit entry hentry hhash
      rw [commits] at hcommit
      rw [migration] at hentry
      rw [crdt]
      rcases mem_quarantineIncoming hentry with hentry | ⟨hnew, -, hbytes, hstamp⟩
      · exact h.entries commit hcommit entry hentry hhash
      · rw [hstamp] at hhash
        have htarget : δ.schemaHash ∈ s.commits.map Commit.target := by
          rw [Option.some.inj hhash]
          exact List.mem_map_of_mem hcommit
        rw [hbytes]
        exact .inl (hguard δ reason refused hnew htarget)
    · intro hne entry hentry hhash hnone
      rw [commits] at hne
      rw [migration] at hentry
      rw [hlocal] at hhash
      rw [since]
      rcases mem_quarantineIncoming hentry with hentry | ⟨-, hid, -, -⟩
      · exact List.mem_append_left _ (h.since hne entry hentry hhash hnone)
      · rw [hid]
        exact List.mem_append_right _ (List.mem_singleton_self _)
  | dropped index δ senderDid job frame jobs commits calls since =>
    refine h.of_same ?_ frame.localSchemaHash frame.quarantineLedger frame.dag commits since
    rw [jobs]
    exact commitOf_of_set fun commit hcommit => by cases hcommit
  | started index δ senderDid prepared job idle next busy schema crdt jobs commits calls since =>
    refine h.of_same ?_ schema.localSchemaHash schema.quarantineLedger (by rw [crdt]; exact .refl _)
      commits since
    rw [jobs]
    exact commitOf_of_set fun commit hcommit => by cases hcommit
  | aborted index prepared job schema crdt jobs commits calls since =>
    refine h.of_same ?_ schema.localSchemaHash schema.quarantineLedger (by rw [crdt]; exact .refl _)
      commits since
    rw [jobs]
    exact commitOf_of_set fun commit hcommit => by cases hcommit
  | committed index prepared outcome operation succeeded job advanced versionPath ledger crdt jobs
      commits calls since =>
    subst operation
    obtain ⟨houtcome, hrevoked⟩ := finish_succeeded succeeded
    have hready := hguard prepared job houtcome hrevoked
    constructor
    · intro other hother commit hcommit
      rw [jobs] at hother
      rw [commits]
      rcases List.mem_or_eq_of_mem_set hother with hother | rfl
      · exact List.mem_append_left _ (h.jobs other hother commit hcommit)
      · cases hcommit
        exact List.mem_append_right _ (List.mem_singleton_self _)
    · intro commit hcommit entry hentry hhash
      rw [commits] at hcommit
      rw [ledger] at hentry
      rw [crdt]
      rcases List.mem_append.mp hcommit with hcommit | hcommit
      · exact h.entries commit hcommit entry hentry hhash
      · rw [List.mem_singleton.mp hcommit] at hhash ⊢
        rcases hready entry hentry hhash with hreleased | ⟨-, hrecovered⟩
        · exact .inr hreleased
        · exact .inl hrecovered
    · intro _ entry hentry hhash hnone
      rw [ledger] at hentry
      rw [advanced] at hhash
      rcases hready entry hentry hhash with hreleased | ⟨hmarked, -⟩
      · rw [hnone] at hreleased
        cases hreleased
      · exact absurd hnone hmarked
  | read index commit source job handle jobs commits calls since =>
    refine h.of_same ?_ (by rw [handle]) (by rw [handle]) (by rw [handle]; exact .refl _) commits
      since
    rw [jobs]
    exact commitOf_of_set fun commit' hcommit => ⟨_, List.mem_of_getElem? job, hcommit⟩
  | copied index commit source current version env operation job schema progress knownSchemaHash
      dag jobs commits calls since =>
    refine h.of_same ?_ schema.localSchemaHash schema.quarantineLedger dag commits since
    rw [jobs]
    exact commitOf_of_set fun commit' hcommit => ⟨_, List.mem_of_getElem? job, hcommit⟩

theorem Accounted.nothingLost (h : Accounted lib s) : NothingLost lib s where
  recovered commit hjob entry hentry hhash :=
    h.entries commit (h.jobs _ hjob commit rfl) entry hentry hhash
  cleared commit hlast hjob hquarantined := by
    have hne : s.commits ≠ [] := by
      intro hnil
      rw [hnil] at hlast
      cases hlast
    obtain ⟨entry, hentry, hboth⟩ := List.any_eq_true.mp hquarantined
    obtain ⟨hhash, hnone⟩ := Bool.and_eq_true_iff.mp hboth
    have hstamp := of_decide_eq_true hhash
    have hunmarked := Option.isNone_iff_eq_none.mp hnone
    exact ⟨entry, hentry, hstamp, h.since hne entry hentry hstamp hunmarked⟩

end Accounted

theorem nothingLost_of_nothingWaits (h : CoreHandle) (ops : List JobOperation)
    (hguard : Guarded (JobDevice.step lib) (NothingWaits lib) (.start h) ops) :
    ∀ earlier later, ops = earlier ++ later →
      NothingLost lib (run (JobDevice.step lib) (.start h) earlier) := by
  rintro earlier later rfl
  rw [guarded_append] at hguard
  have hstart : Accounted lib (.start h) :=
    ⟨fun job hjob => absurd hjob List.not_mem_nil,
      fun commit hcommit => absurd hcommit List.not_mem_nil, fun hne => absurd rfl hne⟩
  have hrun : Accounted lib (run (JobDevice.step lib) (.start h) earlier) :=
    guarded_run (fun s op hop hs => hs.effect hop (effect_step s op)) hguard.1 hstart
  exact hrun.nothingLost

def early : Delta := ⟨7, CrdtEngine.sampleDid₂, List.replicate 64 0, 11, [], .low, [], [], 1, 5⟩

def sampleReading : CoreLibraries :=
  { sampleCoreLibraries [] with
    serialiseDelta := fun _ => [7]
    parseDelta := fun bytes =>
      if bytes = [7] then .ok early else .error "expected value at line 1 column 1" }

def migrated : List JobOperation :=
  [.message (.inboundDelta early) calmInbound, .quarantine 0 9,
    .message (sampleMigration 21 10 11) calmInbound, .prepare 0, .finish 0 (.ok .success), .read 0,
    .copy 0 sampleReplay]

theorem migrated_loses_early :
    let after := run (JobDevice.step sampleReading) (.start samplePathHandle) migrated
    after.jobs = [.ended (some ⟨21, 11⟩)] ∧ after.handle.migration.localSchemaHash = 11 ∧
      after.handle.migration.quarantineLedger.map QuarantineEntry.rawBytes = [[7]] ∧
      after.handle.crdt.dag.nodes = [] ∧ after.quarantinedSince = [] ∧
      after.handle.migration.isSchemaQuarantined = true ∧ ¬NothingLost sampleReading after := by
  intro after
  have hjobs : after.jobs = [.ended (some ⟨21, 11⟩)] := by decide +kernel
  have hcommits : after.commits = [⟨21, 11⟩] := by decide +kernel
  have hsince : after.quarantinedSince = [] := by decide +kernel
  have hquarantined : after.handle.migration.isSchemaQuarantined = true := by decide +kernel
  refine ⟨hjobs, by decide +kernel, by decide +kernel, by decide +kernel, hsince, hquarantined, ?_⟩
  intro hlost
  have hended : .ended (some ⟨21, 11⟩) ∈ after.jobs := by
    rw [hjobs]
    exact List.mem_singleton_self _
  obtain ⟨entry, -, -, hmem⟩ := hlost.cleared ⟨21, 11⟩ (by rw [hcommits]; rfl) hended hquarantined
  rw [hsince] at hmem
  exact absurd hmem List.not_mem_nil

def stamped (id : ℕ) (schemaHash : SchemaIdentifierHash) : Delta :=
  ⟨BitVec.ofNat 256 id, CrdtEngine.sampleDid₂, List.replicate 64 0, schemaHash, [1], .low, [], [],
    1, 5⟩

def sampleStamped : CoreLibraries :=
  { sampleCoreLibraries [([1], [])] with
    serialiseDelta := fun δ => [Fin.ofNat 256 δ.id.toNat]
    parseDelta := fun bytes =>
      if bytes = [8] then .ok (stamped 8 12) else if bytes = [9] then .ok (stamped 9 11)
      else .error "expected value at line 1 column 1" }

/-- A Delta of a version that is not reached is quarantined before the migration. One of its target
is refused before it, merged when it arrives again after it, and stored only then. -/
def settled : List JobOperation :=
  [.message (.inboundDelta (stamped 8 12)) calmInbound, .quarantine 0 9,
    .message (.inboundDelta (stamped 9 11)) calmInbound,
    .message (sampleMigration 21 10 11) calmInbound, .prepare 0, .finish 0 (.ok .success),
    .read 0, .copy 0 sampleReplay, .message (.inboundDelta (stamped 9 11)) calmInbound,
    .quarantine 0 9]

def settledAfter (steps : ℕ) : JobDevice :=
  run (JobDevice.step sampleStamped) (.start samplePathHandle) (settled.take steps)

theorem nothingWaits_settled :
    Guarded (JobDevice.step sampleStamped) (NothingWaits sampleStamped) (.start samplePathHandle)
      settled := by
  refine ⟨trivial, ?_, trivial, trivial, trivial, ?_, trivial, trivial, trivial, ?_, trivial⟩
  · intro δ reason _ _ hreached
    have hcommits : (settledAfter 1).commits = [] := by decide +kernel
    change δ.schemaHash ∈ (settledAfter 1).commits.map Commit.target at hreached
    rw [hcommits] at hreached
    exact absurd hreached List.not_mem_nil
  · intro prepared hjob _ _ entry hentry hhash
    have htarget : (settledAfter 5).jobs[0]? =
        some (.running ⟨21, 11, [], 30⟩) := by decide +kernel
    have hledger : (settledAfter 5).handle.migration.quarantineLedger.map
        QuarantineEntry.schemaHash = [some 12] := by decide +kernel
    cases Option.some.inj (htarget.symm.trans hjob)
    have hwaiting : entry.schemaHash ∈ (settledAfter 5).handle.migration.quarantineLedger.map
        QuarantineEntry.schemaHash := List.mem_map_of_mem hentry
    rw [hledger, hhash] at hwaiting
    exact absurd hwaiting (by decide)
  · intro δ reason hrefused _ _ δ' hparse _
    have hfirst : ((settledAfter 9).refused[0]?).map Prod.fst = some (stamped 9 11) := by
      decide +kernel
    have hnodes : (settledAfter 9).handle.crdt.dag.nodes.map DagRow.deltaBytes = [some [9]] := by
      decide +kernel
    have hδ : δ = stamped 9 11 := by
      change (settledAfter 9).refused[0]? = some (δ, reason) at hrefused
      rw [hrefused] at hfirst
      exact Option.some.inj hfirst
    have hmem : some [9] ∈ (settledAfter 9).handle.crdt.dag.nodes.map DagRow.deltaBytes := by
      rw [hnodes]
      exact List.mem_singleton_self _
    obtain ⟨row, hrow, hbytes⟩ := List.mem_map.mp hmem
    subst hδ
    exact ⟨row, hrow, hbytes⟩

theorem nothingLost_settled :
    NothingLost sampleStamped
      (run (JobDevice.step sampleStamped) (.start samplePathHandle) settled) :=
  nothingLost_of_nothingWaits samplePathHandle settled nothingWaits_settled settled []
    (List.append_nil _).symm

end QuarantineRelease

end TirBase
