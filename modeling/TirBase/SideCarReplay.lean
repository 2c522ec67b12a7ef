import Mathlib
import TirBase.RevocationTaint
import TirBase.SchemaWalk

/-! # The Side-Car ledger and its replay

The writes made under a corruption window are kept in the ledger, and replayed once the device has left
the schema. A pass is described by what it applies: the entries of a migration in the order in which
they were recorded, each once. -/
namespace TirBase.SideCarReplay
open SchemaMigrationEngine SchemaWalk TransitionRuns

structure ReplaySummary where
  totalEntries : ℕ
  replayed : ℕ
  conflicts : ℕ
  complete : Bool
  deriving DecidableEq

/-- What `replay_sidecar` reports of a pass. -/
def replaySummary (lib : MigrationLibraries) (env : ReplayEnvironment) (m : SchemaMigrationEngine)
    (crdt : CrdtEngine) (migrationId : MigrationId) : ReplaySummary :=
  let entries := m.loadEntriesOrdered migrationId
  let replayed := (replayEntries lib env m crdt entries).1.length
  let conflicts := entries.length - replayed
  ⟨entries.length, replayed, conflicts, decide (conflicts = 0 ∧ 0 < entries.length)⟩

/-- What became of an entry: the status it gets, and the Delta that was merged. -/
structure Applied where
  entry : DeltaId
  status : ReplayStatus
  merged : Option DeltaId

variable (lib : MigrationLibraries) (env : ReplayEnvironment)

/-- The entries applied one after the other, each once; what does not merge is noted as a conflict and
the next one follows. -/
inductive Applies : CrdtEngine → List SideCarEntry → List Applied → CrdtEngine → Prop
  | nil (crdt : CrdtEngine) : Applies crdt [] [] crdt
  | merged {crdt : CrdtEngine} {entry : SideCarEntry} {entries : List SideCarEntry}
      {applied : List Applied} {crdt' : CrdtEngine} (δ : Delta)
      (hparse : lib.parseDelta entry.deltaBytes = .ok δ)
      (hmerged : ∃ n, (crdt.apply lib.toEngineLibraries .native δ env.now
        (env.fault entry.id)).1 = .ok (.merged n))
      (rest : Applies (crdt.apply lib.toEngineLibraries .native δ env.now (env.fault entry.id)).2
        entries applied crdt') :
      Applies crdt (entry :: entries) (⟨entry.id, .replayed, some δ.id⟩ :: applied) crdt'
  | unread {crdt : CrdtEngine} {entry : SideCarEntry} {entries : List SideCarEntry}
      {applied : List Applied} {crdt' : CrdtEngine} (e info : String)
      (hparse : lib.parseDelta entry.deltaBytes = .error e)
      (rest : Applies crdt entries applied crdt') :
      Applies crdt (entry :: entries) (⟨entry.id, .conflict info, none⟩ :: applied) crdt'
  | refused {crdt : CrdtEngine} {entry : SideCarEntry} {entries : List SideCarEntry}
      {applied : List Applied} {crdt' : CrdtEngine} (δ : Delta) (info : String)
      (hparse : lib.parseDelta entry.deltaBytes = .ok δ)
      (hrefused : ∀ n, (crdt.apply lib.toEngineLibraries .native δ env.now
        (env.fault entry.id)).1 ≠ .ok (.merged n))
      (rest : Applies (crdt.apply lib.toEngineLibraries .native δ env.now (env.fault entry.id)).2
        entries applied crdt') :
      Applies crdt (entry :: entries) (⟨entry.id, .conflict info, none⟩ :: applied) crdt'

def recorded (m : SchemaMigrationEngine) (migrationId : MigrationId) : List SideCarEntry :=
  m.sidecarLedger.filter fun e => e.migrationId = migrationId

def settle (applied : List Applied) (e : SideCarEntry) : SideCarEntry :=
  match applied.find? fun a => a.entry = e.id with
  | some a => { e with replayStatus := a.status }
  | none => e

/-- A pass over the entries of a migration. It is reported as complete when there is an entry and all of
them merged: then the entries are marked and every merged Delta carries the tag; otherwise each entry
has its own status and no tag is added. -/
inductive Pass (s : SchemaMigrationEngine × CrdtEngine) (migrationId : MigrationId) :
    ReplaySummary → SchemaMigrationEngine × CrdtEngine → Prop
  | complete {applied : List Applied} {crdt : CrdtEngine} {dag : ChangesetDag}
      (happlies : Applies lib env s.2 (recorded s.1 migrationId) applied crdt)
      (hentry : applied ≠ []) (hall : ∀ a ∈ applied, a.merged ≠ none)
      (hretags : crdt.dag.Retags dag)
      (htagged : ∀ a ∈ applied, ∀ id, a.merged = some id → id ∈ dag.ids ∧
        ∀ row ∈ dag.nodes, row.id = id → .replayComplete migrationId ∈ row.tagsJson) :
      Pass s migrationId ⟨applied.length, applied.length, 0, true⟩
        ({ s.1 with sidecarLedger := s.1.sidecarLedger.map fun e =>
            if e.migrationId = migrationId then { e with replayStatus := .complete } else e },
          { crdt with dag := dag })
  | incomplete {applied : List Applied} {crdt : CrdtEngine}
      (happlies : Applies lib env s.2 (recorded s.1 migrationId) applied crdt)
      (hnot : applied = [] ∨ ∃ a ∈ applied, a.merged = none) :
      Pass s migrationId ⟨applied.length, (applied.filterMap Applied.merged).length,
          applied.length - (applied.filterMap Applied.merged).length, false⟩
        ({ s.1 with sidecarLedger := s.1.sidecarLedger.map (settle applied) }, crdt)

/-- One pass for each migration of a window. -/
inductive Passes : SchemaMigrationEngine × CrdtEngine → List MigrationId →
    SchemaMigrationEngine × CrdtEngine → Prop
  | nil (s : SchemaMigrationEngine × CrdtEngine) : Passes s [] s
  | cons {s s' s'' : SchemaMigrationEngine × CrdtEngine} {id : MigrationId}
      {ids : List MigrationId}
      (hpass : Pass lib env s id (replaySummary lib env s.1 s.2 id) s') (hpasses : Passes s' ids s'') :
      Passes s (id :: ids) s''

variable {lib env}

theorem Applies.entries {crdt crdt' : CrdtEngine} {entries : List SideCarEntry}
    {applied : List Applied} (h : Applies lib env crdt entries applied crdt') :
    applied.map Applied.entry = entries.map SideCarEntry.id := by
  induction h with
  | nil crdt => rfl
  | merged δ hparse hmerged rest ih => rw [List.map_cons, List.map_cons, ih]
  | unread e info hparse rest ih => rw [List.map_cons, List.map_cons, ih]
  | refused δ info hparse hrefused rest ih => rw [List.map_cons, List.map_cons, ih]

theorem Applies.extends {crdt crdt' : CrdtEngine} {entries : List SideCarEntry}
    {applied : List Applied} (h : Applies lib env crdt entries applied crdt') :
    crdt.dag.Extends crdt'.dag := by
  induction h with
  | nil crdt => exact .refl _
  | merged δ hparse hmerged rest ih => exact (CrdtEngine.extends_apply .native _ _ _ _).trans ih
  | unread e info hparse rest ih => exact ih
  | refused δ info hparse hrefused rest ih => exact (CrdtEngine.extends_apply .native _ _ _ _).trans ih

theorem mem_ids_of_extends {dag dag' : ChangesetDag} (h : dag.Extends dag') {id : DeltaId}
    (hid : id ∈ dag.ids) : id ∈ dag'.ids := by
  obtain ⟨row, hrow, rfl⟩ := List.mem_map.mp hid
  obtain ⟨row', hrow', hext⟩ := h row hrow
  exact List.mem_map.mpr ⟨row', hrow', hext.id⟩

theorem mem_ids_of_merged {crdt : CrdtEngine} {δ : Delta} {now : ℤ} {fault : DagFault}
    (h : ∃ n, (crdt.apply lib.toEngineLibraries .native δ now fault).1 = .ok (.merged n)) :
    δ.id ∈ (crdt.apply lib.toEngineLibraries .native δ now fault).2.dag.ids := by
  obtain ⟨adopt, doc, -, -, happly⟩ := CrdtEngine.apply_eq_merged h
  rw [happly]
  exact ChangesetDag.mem_ids_insert.mpr (.inr rfl)

/-- What was merged has a row in the DAG. -/
theorem Applies.stored {crdt crdt' : CrdtEngine} {entries : List SideCarEntry}
    {applied : List Applied} (h : Applies lib env crdt entries applied crdt') :
    ∀ a ∈ applied, ∀ id, a.merged = some id → id ∈ crdt'.dag.ids := by
  induction h with
  | nil crdt => exact fun a ha => absurd ha List.not_mem_nil
  | merged δ hparse hmerged rest ih =>
    intro a ha id hid
    rcases List.mem_cons.mp ha with rfl | ha
    · cases hid
      exact mem_ids_of_extends rest.extends (mem_ids_of_merged hmerged)
    · exact ih a ha id hid
  | unread e info hparse rest ih =>
    intro a ha id hid
    rcases List.mem_cons.mp ha with rfl | ha
    · cases hid
    · exact ih a ha id hid
  | refused δ info hparse hrefused rest ih =>
    intro a ha id hid
    rcases List.mem_cons.mp ha with rfl | ha
    · cases hid
    · exact ih a ha id hid

theorem settle_of_not_mem {applied : List Applied} {e : SideCarEntry}
    (h : e.id ∉ applied.map Applied.entry) : settle applied e = e := by
  have hnone : applied.find? (fun a => a.entry = e.id) = none :=
    List.find?_eq_none.mpr fun a ha hentry =>
      h (List.mem_map.mpr ⟨a, ha, of_decide_eq_true hentry⟩)
  rw [settle, hnone]

theorem settle_of_other {m : SchemaMigrationEngine} {migrationId : MigrationId}
    {crdt crdt' : CrdtEngine} {applied : List Applied}
    (hnodup : (m.sidecarLedger.map SideCarEntry.id).Nodup)
    (happlies : Applies lib env crdt (recorded m migrationId) applied crdt') {e : SideCarEntry}
    (he : e ∈ m.sidecarLedger) (hother : e.migrationId ≠ migrationId) : settle applied e = e := by
  refine settle_of_not_mem fun hmem => hother ?_
  rw [happlies.entries] at hmem
  obtain ⟨r, hr, hsame⟩ := List.mem_map.mp hmem
  obtain ⟨hrmem, hrid⟩ := List.mem_filter.mp hr
  rw [← List.inj_on_of_nodup_map hnodup hrmem he hsame]
  exact of_decide_eq_true hrid

theorem map_settle_cons {a : Applied} {applied : List Applied} (m : SchemaMigrationEngine)
    (h : a.entry ∉ applied.map Applied.entry) :
    (m.updateEntryStatus a.entry a.status).sidecarLedger.map (settle applied) =
      m.sidecarLedger.map (settle (a :: applied)) := by
  simp only [updateEntryStatus, List.map_map]
  refine List.map_congr_left fun e _ => ?_
  rw [Function.comp_apply]
  by_cases hid : e.id = a.entry
  · rw [if_pos hid]
    have hrest : settle applied { e with replayStatus := a.status } =
        { e with replayStatus := a.status } := settle_of_not_mem (by rw [hid]; exact h)
    rw [hrest, settle, List.find?_cons_of_pos (by simpa using hid.symm)]
  · rw [if_neg hid, settle, settle, List.find?_cons_of_neg (by simpa using Ne.symm hid)]

/-- Replaying a list of entries with distinct identifiers applies each of them once, in that order. -/
theorem applies_replayEntries (lib : MigrationLibraries) (env : ReplayEnvironment)
    (entries : List SideCarEntry) (m : SchemaMigrationEngine) (crdt : CrdtEngine)
    (hnodup : (entries.map SideCarEntry.id).Nodup) :
    ∃ applied crdt', Applies lib env crdt entries applied crdt' ∧
      replayEntries lib env m crdt entries = (applied.filterMap Applied.merged,
        { m with sidecarLedger := m.sidecarLedger.map (settle applied) }, crdt') := by
  induction entries generalizing m crdt with
  | nil =>
    refine ⟨[], crdt, .nil crdt, ?_⟩
    have hsame : m.sidecarLedger.map (settle []) = m.sidecarLedger := by
      rw [show settle [] = id from rfl, List.map_id]
    rw [hsame]
    rfl
  | cons entry entries ih =>
    rw [List.map_cons, List.nodup_cons] at hnodup
    have hstep : ∀ a : Applied, ∀ crdt₁ crdt' applied,
        replayEntry lib env crdt entry = (a.status, a.merged, crdt₁) → a.entry = entry.id →
        Applies lib env crdt₁ entries applied crdt' →
        replayEntries lib env (m.updateEntryStatus entry.id a.status) crdt₁ entries =
          (applied.filterMap Applied.merged,
            { m.updateEntryStatus entry.id a.status with
              sidecarLedger := (m.updateEntryStatus entry.id a.status).sidecarLedger.map
                (settle applied) }, crdt') →
        replayEntries lib env m crdt (entry :: entries) =
          ((a :: applied).filterMap Applied.merged,
            { m with sidecarLedger := m.sidecarLedger.map (settle (a :: applied)) }, crdt') := by
      intro a crdt₁ crdt' applied hentry hid happlies hrest
      have hfresh : a.entry ∉ applied.map Applied.entry := by
        rw [happlies.entries, hid]
        exact hnodup.1
      rw [← hid] at hrest
      rw [map_settle_cons m hfresh] at hrest
      rw [replayEntries, hentry, ← hid]
      dsimp only
      rw [hrest]
      cases a with
      | mk entry status merged => cases merged <;> rfl
    cases hparse : lib.parseDelta entry.deltaBytes with
    | error e =>
      obtain ⟨applied, crdt', happlies, hrest⟩ :=
        ih (m.updateEntryStatus entry.id (.conflict s!"deserialise error: {e}")) crdt hnodup.2
      refine ⟨_, crdt', .unread e s!"deserialise error: {e}" hparse happlies,
        hstep ⟨entry.id, .conflict s!"deserialise error: {e}", none⟩ crdt crdt' applied ?_ rfl
          happlies hrest⟩
      rw [replayEntry, hparse]
    | ok δ =>
      obtain ⟨status, merged, hentry, hcase⟩ : ∃ status merged, replayEntry lib env crdt entry =
          (status, merged, (crdt.apply lib.toEngineLibraries .native δ env.now
            (env.fault entry.id)).2) ∧
          (status = .replayed ∧ merged = some δ.id ∧
              (∃ n, (crdt.apply lib.toEngineLibraries .native δ env.now
                (env.fault entry.id)).1 = .ok (.merged n)) ∨
            ∃ info, status = .conflict info ∧ merged = none ∧
              ∀ n, (crdt.apply lib.toEngineLibraries .native δ env.now
                (env.fault entry.id)).1 ≠ .ok (.merged n)) := by
        rw [replayEntry, hparse]
        dsimp only
        split
        · rename_i n crdt₁ happly
          rw [happly]
          exact ⟨_, _, rfl, .inl ⟨rfl, rfl, n, rfl⟩⟩
        all_goals
          rename_i happly
          rw [happly]
          exact ⟨_, _, rfl, .inr ⟨_, rfl, rfl, fun n h => by cases h⟩⟩
      obtain ⟨applied, crdt', happlies, hrest⟩ :=
        ih (m.updateEntryStatus entry.id status)
          (crdt.apply lib.toEngineLibraries .native δ env.now (env.fault entry.id)).2 hnodup.2
      have hreplay := hstep ⟨entry.id, status, merged⟩ _ crdt' applied hentry rfl happlies hrest
      rcases hcase with ⟨rfl, rfl, hmerged⟩ | ⟨info, rfl, rfl, hrefused⟩
      · exact ⟨_, crdt', .merged δ hparse hmerged happlies, hreplay⟩
      · exact ⟨_, crdt', .refused δ info hparse hrefused happlies, hreplay⟩

theorem loadEntriesOrdered_eq_recorded {m : SchemaMigrationEngine} {migrationId : MigrationId}
    (h : (recorded m migrationId).Pairwise fun a b => a.recordedTs ≤ b.recordedTs) :
    m.loadEntriesOrdered migrationId = recorded m migrationId :=
  h.insertionSort_eq

/-- With distinct identifiers in the ledger and times that never step back, the replay of a migration
is a pass over its entries. -/
theorem pass_replaySidecar (lib : MigrationLibraries) (env : ReplayEnvironment)
    (m : SchemaMigrationEngine) (crdt : CrdtEngine) (migrationId : MigrationId)
    (hnodup : (m.sidecarLedger.map SideCarEntry.id).Nodup)
    (hordered : (recorded m migrationId).Pairwise fun a b => a.recordedTs ≤ b.recordedTs) :
    Pass lib env (m, crdt) migrationId (replaySummary lib env m crdt migrationId)
      (replaySidecar lib env m crdt migrationId) := by
  have hids : ((recorded m migrationId).map SideCarEntry.id).Nodup :=
    hnodup.sublist (List.filter_sublist.map _)
  obtain ⟨applied, crdt', happlies, hreplay⟩ :=
    applies_replayEntries lib env (recorded m migrationId) m crdt hids
  have hlength : applied.length = (recorded m migrationId).length := by
    rw [← List.length_map (f := Applied.entry), happlies.entries, List.length_map]
  have hmerged : (applied.filterMap Applied.merged).length = (recorded m migrationId).length ↔
      ∀ a ∈ applied, a.merged ≠ none := by
    rw [← hlength, List.filterMap_length_eq_length]
    exact forall₂_congr fun a _ => Option.isSome_iff_ne_none
  have hsummary : replaySummary lib env m crdt migrationId =
      ⟨applied.length, (applied.filterMap Applied.merged).length,
        applied.length - (applied.filterMap Applied.merged).length,
        decide (applied.length - (applied.filterMap Applied.merged).length = 0 ∧
          0 < applied.length)⟩ := by
    rw [replaySummary, loadEntriesOrdered_eq_recorded hordered, hreplay, hlength]
  rw [hsummary]
  unfold replaySidecar
  dsimp only
  rw [loadEntriesOrdered_eq_recorded hordered, hreplay]
  dsimp only
  split_ifs with hcomplete
  · have hledger : (m.sidecarLedger.map (settle applied)).map (fun e =>
        if e.migrationId = migrationId then { e with replayStatus := .complete } else e) =
        m.sidecarLedger.map fun e =>
          if e.migrationId = migrationId then { e with replayStatus := .complete } else e := by
      rw [List.map_map]
      refine List.map_congr_left fun e he => ?_
      rw [Function.comp_apply]
      have hkept : (settle applied e).migrationId = e.migrationId ∧
          { settle applied e with replayStatus := .complete } =
            { e with replayStatus := .complete } := by
        unfold settle
        split <;> exact ⟨rfl, rfl⟩
      by_cases hid : e.migrationId = migrationId
      · rw [if_pos (hkept.1.trans hid), if_pos hid]
        exact hkept.2
      · rw [if_neg fun h => hid (hkept.1.symm.trans h), if_neg hid]
        exact settle_of_other hnodup happlies he hid
    have hne : applied ≠ [] := by
      rintro rfl
      exact hcomplete.1 (List.length_eq_zero_iff.mp hlength.symm)
    have hall : (applied.filterMap Applied.merged).length = applied.length :=
      hcomplete.2.trans hlength.symm
    rw [hledger, hall, Nat.sub_self, decide_eq_true ⟨rfl, List.length_pos_iff.mpr hne⟩]
    have hretags := ChangesetDag.retags_foldl_appendTag (.replayComplete migrationId)
      (applied.filterMap Applied.merged) crdt'.dag
    refine .complete happlies hne (hmerged.mp hcomplete.2) hretags fun a ha id hid => ⟨?_, ?_⟩
    · exact mem_ids_of_extends hretags.forth (happlies.stored a ha id hid)
    · intro row hrow hrowid
      refine RevocationTaint.tagged_foldl_appendTag _ hrow ?_
      rw [hrowid]
      exact List.mem_filterMap.mpr ⟨a, ha, hid⟩
  · have hnot : applied = [] ∨ ∃ a ∈ applied, a.merged = none := by
      by_cases hempty : applied = []
      · exact .inl hempty
      · refine .inr ?_
        by_contra hnone
        push Not at hnone
        refine hcomplete ⟨fun hnil => hempty ?_, hmerged.mpr hnone⟩
        rw [hnil] at hlength
        exact List.length_eq_zero_iff.mp hlength
    have hreported : ¬(applied.length - (applied.filterMap Applied.merged).length = 0 ∧
        0 < applied.length) := by
      rintro ⟨hzero, hpos⟩
      have hle := List.length_filterMap_le Applied.merged applied
      refine hcomplete ⟨fun hnil => ?_, by omega⟩
      rw [hnil, List.length_nil] at hlength
      omega
    rw [decide_eq_false hreported]
    exact .incomplete happlies hnot

end TirBase.SideCarReplay
