import TirBase.StoreMaps

/-! # Queries of the local store

A query goes through the rows of a table. It shows what reads of the keys show, as far as the filter lets
the values through. -/
namespace TirBase
open MapRuns ScalarProjection StoreMaps

/-- IEEE doubles are compared as numbers: the two zeros are the same. -/
def JsonNumber.same : JsonNumber → JsonNumber → Bool
  | .float a, .float b => decide (a = b) || (decide (a.val % 2 ^ 63 = 0) && decide (b.val % 2 ^ 63 = 0))
  | a, b => decide (a = b)

mutual

/-- `PartialEq` of JSON values. -/
def JsonValue.same : JsonValue → JsonValue → Bool
  | .null, .null => true
  | .bool a, .bool b => a == b
  | .number a, .number b => a.same b
  | .string a, .string b => a == b
  | .array items, .array items' => sameItems items items'
  | .object members, .object members' => sameMembers members members'
  | _, _ => false

def sameItems : List JsonValue → List JsonValue → Bool
  | [], [] => true
  | item :: items, item' :: items' => item.same item' && sameItems items items'
  | _, _ => false

def sameMembers : List (String × JsonValue) → List (String × JsonValue) → Bool
  | [], [] => true
  | (key, value) :: members, (key', value') :: members' =>
    key == key' && value.same value' && sameMembers members members'
  | _, _ => false

end

/-- All members of the filter are members of the value. Where one of the two is no object, the filter
lets the value through. -/
def passesFilter (filter : Option JsonValue) (value : JsonValue) : Bool :=
  match filter, value with
  | some (.object filterMap), .object _ => filterMap.all fun member =>
      match value.get? member.1 with
      | some found => found.same member.2
      | none => false
  | _, _ => true

structure QueryLibraries extends BuildLibraries where
  unquotedQuery : String → LocalStore → Except TirBaseError (List (String × String))

namespace LocalStore

/-- The loop over the rows: the first text that cannot be read fails the query. -/
def queryRows (lib : StoreLibraries) (filter : Option JsonValue) :
    List (String × String) → Except TirBaseError (List (String × JsonValue))
  | [] => .ok []
  | (key, dataJson) :: rows =>
    match parseRow lib dataJson with
    | .error e => .error e
    | .ok value =>
      match queryRows lib filter rows with
      | .error e => .error e
      | .ok results =>
        .ok (if passesFilter filter value then (key, value) :: results else results)

/-- `query`. The order of the rows is SQLite's. -/
def query (lib : QueryLibraries) (s : LocalStore) (table : String) (filter : Option JsonValue) :
    Except TirBaseError (List (String × JsonValue)) :=
  if quotable table then
    match s.tables.lookup (sqlName table) with
    | none => .ok []
    | some t => queryRows lib.toStoreLibraries filter
        (t.rows.entries.map fun row => (row.1, row.2.dataJson))
  else
    match lib.unquotedQuery table s with
    | .error e => .error e
    | .ok rows => queryRows lib.toStoreLibraries filter rows

end LocalStore

/-- `query`. The order of the rows is that of the hash map. -/
def WasmLocalStore.query (w : WasmLocalStore) (table : String) (filter : Option JsonValue) :
    Except TirBaseError (List (String × JsonValue)) :=
  match w.tables.lookup table with
  | none => .ok []
  | some rows => .ok ((rows.entries.map fun row => (row.1, row.2)).filter fun row =>
      passesFilter filter row.2)

namespace StoreQueries

/-- The rows show each key once, with the values of the map that the filter lets through. -/
structure Shows (rows : List (String × JsonValue)) (filter : Option JsonValue)
    (c : String → Option JsonValue) : Prop where
  once : (rows.map Prod.fst).Nodup
  row : ∀ key value, (key, value) ∈ rows ↔ c key = some value ∧ passesFilter filter value = true

variable {filter : Option JsonValue} {c : String → Option JsonValue}

/-- Two lists of rows that show the same map have the same rows. -/
theorem Shows.perm {rows rows' : List (String × JsonValue)} (h : Shows rows filter c)
    (h' : Shows rows' filter c) : rows.Perm rows' := by
  refine (List.perm_ext_iff_of_nodup h.once.of_map h'.once.of_map).mpr ?_
  rintro ⟨key, value⟩
  rw [h.row, h'.row]

theorem shows_filter {rows : AList fun _ : String => JsonValue} :
    Shows ((rows.entries.map fun row => (row.1, row.2)).filter fun row =>
      passesFilter filter row.2) filter rows.lookup := by
  have hmem : ∀ key value, (key, value) ∈ rows.entries.map (fun row => (row.1, row.2)) ↔
      rows.lookup key = some value := by
    intro key value
    have hentry : rows.lookup key = some value ↔
        (⟨key, value⟩ : Sigma fun _ : String => JsonValue) ∈ rows.entries := AList.mem_lookup_iff
    rw [hentry, List.mem_map]
    constructor
    · rintro ⟨⟨key', value'⟩, hrow, heq⟩
      cases heq
      exact hrow
    · exact fun hrow => ⟨⟨key, value⟩, hrow, rfl⟩
  constructor
  · have hkeys : (rows.entries.map fun row => (row.1, row.2)).map Prod.fst =
        rows.entries.keys := by
      rw [List.map_map]
      rfl
    have hnodup : ((rows.entries.map fun row => (row.1, row.2)).map Prod.fst).Nodup := by
      rw [hkeys]
      exact rows.nodupKeys
    exact hnodup.sublist (List.filter_sublist.map Prod.fst)
  · intro key value
    rw [List.mem_filter, hmem]

theorem queryRows_of_read {lib : StoreLibraries} {rows : List (String × String)}
    (h : ∀ row ∈ rows, ∃ value, LocalStore.parseRow lib row.2 = .ok value ∧ c row.1 = some value) :
    LocalStore.queryRows lib filter rows = .ok ((rows.map fun row =>
      (row.1, (c row.1).getD .null)).filter fun row => passesFilter filter row.2) := by
  induction rows with
  | nil => rfl
  | cons row rows ih =>
    obtain ⟨key, dataJson⟩ := row
    obtain ⟨value, hparse, hvalue⟩ := h _ List.mem_cons_self
    have hrest := ih fun row hrow => h row (List.mem_cons_of_mem _ hrow)
    dsimp only at hparse hvalue
    rw [LocalStore.queryRows, hparse, List.map_cons, List.filter_cons, hvalue]
    dsimp only
    rw [hrest]
    rfl

/-- A key that can be read has no row, or a row whose text gives the value. -/
theorem row_of_read {lib : StoreLibraries} {s : LocalStore} {table key : String}
    (hquoted : quotable table = true) {found : Option JsonValue}
    (hread : s.read lib table key = .ok found) :
    s.row? table key = none ∧ found = none ∨ ∃ row value, s.row? table key = some row ∧
      LocalStore.parseRow lib row.dataJson = .ok value ∧ found = some value := by
  rw [LocalStore.read, if_pos hquoted] at hread
  cases hrow : s.row? table key with
  | none =>
    rw [hrow] at hread
    exact .inl ⟨rfl, (Except.ok.inj hread).symm⟩
  | some row =>
    rw [hrow] at hread
    dsimp only at hread
    cases hparse : LocalStore.parseRow lib row.dataJson with
    | error e =>
      rw [hparse] at hread
      cases hread
    | ok value =>
      rw [hparse] at hread
      exact .inr ⟨row, value, rfl, hparse, (Except.ok.inj hread).symm⟩

theorem native_shows (lib : QueryLibraries) {s : LocalStore} {table : String}
    (hquoted : quotable table = true)
    (hread : ∀ key, s.read lib.toStoreLibraries table key = .ok (c key))
    (filter : Option JsonValue) :
    ∃ rows, s.query lib table filter = .ok rows ∧ Shows rows filter c := by
  unfold LocalStore.query
  rw [if_pos hquoted]
  cases htable : s.tables.lookup (sqlName table) with
  | none =>
    refine ⟨[], rfl, List.nodup_nil, fun key value => ?_⟩
    have hrow : s.row? table key = none := by
      rw [LocalStore.row?, htable]
      rfl
    rcases row_of_read hquoted (hread key) with ⟨-, hnone⟩ | ⟨row, _, hsome, -⟩
    · rw [hnone]
      exact iff_of_false List.not_mem_nil fun h => by cases h.1
    · rw [hrow] at hsome
      cases hsome
  | some t =>
    have hlookup : ∀ key, s.row? table key = t.rows.lookup key := by
      intro key
      rw [LocalStore.row?, htable]
      rfl
    have hentry : ∀ key row, t.rows.lookup key = some row ↔
        (⟨key, row⟩ : Sigma fun _ : String => ProjectionRow) ∈ t.rows.entries := fun key row =>
      AList.mem_lookup_iff
    have hstored : ∀ key row, (⟨key, row⟩ : Sigma fun _ : String => ProjectionRow) ∈ t.rows.entries →
        ∃ value, LocalStore.parseRow lib.toStoreLibraries row.dataJson = .ok value ∧
          c key = some value := by
      intro key row hmem
      have hrow : s.row? table key = some row := (hlookup key).trans ((hentry key row).mpr hmem)
      rcases row_of_read hquoted (hread key) with ⟨hnone, -⟩ | ⟨row', value, hsome, hparse, hvalue⟩
      · rw [hrow] at hnone
        cases hnone
      · obtain rfl : row = row' := Option.some.inj (hrow.symm.trans hsome)
        exact ⟨value, hparse, hvalue⟩
    have hparsed : ∀ row ∈ t.rows.entries.map fun row => (row.1, row.2.dataJson),
        ∃ value, LocalStore.parseRow lib.toStoreLibraries row.2 = .ok value ∧
          c row.1 = some value := by
      intro row hmem
      obtain ⟨⟨key, stored⟩, hentry, rfl⟩ := List.mem_map.mp hmem
      exact hstored key stored hentry
    refine ⟨_, queryRows_of_read hparsed, ?_, fun key value => ?_⟩
    · have hkeys : (((t.rows.entries.map fun row => (row.1, row.2.dataJson)).map fun row =>
          (row.1, (c row.1).getD .null))).map Prod.fst = t.rows.entries.keys := by
        rw [List.map_map, List.map_map]
        rfl
      refine List.Nodup.sublist (List.filter_sublist.map Prod.fst) ?_
      rw [hkeys]
      exact t.rows.nodupKeys
    · rw [List.mem_filter, List.map_map]
      refine and_congr_left fun _ => ?_
      rw [List.mem_map]
      constructor
      · rintro ⟨⟨key', stored⟩, hmem, heq⟩
        cases heq
        obtain ⟨value, -, hc⟩ := hstored key' stored hmem
        dsimp only at hc ⊢
        rw [hc]
        rfl
      · intro hc
        rcases row_of_read hquoted (hread key) with ⟨-, hnone⟩ | ⟨row, _, hsome, -⟩
        · exact absurd (hnone.symm.trans hc) (by simp)
        · rw [hlookup] at hsome
          refine ⟨⟨key, row⟩, (hentry key row).mp hsome, ?_⟩
          simp [hc]

theorem wasm_shows {w : WasmLocalStore} {table : String}
    (hread : ∀ key, w.tables.row? table key = c key) (filter : Option JsonValue) :
    ∃ rows, w.query table filter = .ok rows ∧ Shows rows filter c := by
  have hc : c = fun key => w.tables.row? table key := funext fun key => (hread key).symm
  subst hc
  unfold WasmLocalStore.query WasmTables.row?
  cases w.tables.lookup table with
  | none =>
    refine ⟨[], rfl, List.nodup_nil, fun key value => ?_⟩
    exact iff_of_false List.not_mem_nil fun h => by cases h.1
  | some rows => exact ⟨_, rfl, shows_filter⟩

section Both
variable {lib : QueryLibraries} {path : String} {persisted : IdbStore} {s : LocalStore}
  {names : Set String} {values : Set JsonValue}

structure QueriesAgree (lib : QueryLibraries) (s : LocalStore) (w : WasmLocalStore) (table : String)
    (filter : Option JsonValue) (c c' : String → Option JsonValue)
    (rows rows' : List (String × JsonValue)) : Prop where
  nativeRead : ∀ key, s.read lib.toStoreLibraries table key = .ok (c key)
  nativeRows : s.query lib table filter = .ok rows
  nativeShows : Shows rows filter c
  wasmRead : ∀ key, w.read table key = .ok (c' key)
  wasmRows : w.query table filter = .ok rows'
  wasmShows : Shows rows' filter c'

/-- After any calls a query shows on each build what the reads show, one row for a key and no other
key; where both builds refused the same writes, the two queries have the same rows. -/
theorem queries_show_reads (h : Distinguished lib.toBuildLibraries path persisted names values)
    (hjson : ∀ value ∈ values, lib.json.Documented value)
    (hstart : StartAlike lib.toBuildLibraries path persisted s names) :
    ∃ w, WasmLocalStore.openAt lib.toBuildLibraries.wasm path persisted = .ok w ∧
      ∀ calls : List StoreCall, (∀ call ∈ calls, call.Within (keysOf names) values) →
        ∀ table ∈ names, ∀ filter, ∃ c c' rows rows',
          QueriesAgree lib ((nativeOperations lib.toBuildLibraries).run s calls).2
            ((wasmOperations lib.toBuildLibraries).run w calls).2 table filter c c' rows rows' ∧
          ((∀ call ∈ calls, call.Alike nativeRefuses (wasmRefuses path)) → rows.Perm rows') := by
  have hkept : ∀ value ∈ values, lib.json.fromStr (lib.json.toString value) = .ok value :=
    fun value hvalue => (hjson value hvalue).mpr (h.kept value hvalue)
  obtain ⟨w, hopen⟩ := openAt_isOk_iff.mpr h.stored
  obtain ⟨hbacked, hdurable⟩ := durable_of_open hopen
  let start : String × String → Option JsonValue := fun key => w.tables.row? key.1 key.2
  have hnative : NativeShows lib.toBuildLibraries names s start := fun table htable key =>
    hstart w hopen table htable (h.quoted table htable) key
  have hwasm : WasmShows lib.toBuildLibraries path names w start :=
    ⟨fun _ _ _ => rfl, hbacked, hdurable⟩
  refine ⟨w, hopen, fun calls hcalls table htable filter => ?_⟩
  -- both stores stand for a map after the calls, and the two maps are one where the calls are alike
  have hlast := ((native_simulates h.quoted h.apart hkept).run calls hnative hcalls).2
  have hlast' := ((wasm_simulates path h.separated hkept).run calls hwasm hcalls).2
  have hread := hlast table htable
  have hread' := hlast'.shows table htable
  obtain ⟨rows, hrows, hshows⟩ := native_shows lib (h.quoted table htable) hread filter
  obtain ⟨rows', hrows', hshows'⟩ := wasm_shows hread' filter
  refine ⟨_, _, rows, rows', ⟨hread, hrows, hshows, ?_, hrows', hshows'⟩, fun halike => ?_⟩
  · intro key
    rw [WasmLocalStore.read, hread' key]
  · rw [run_ofMap_congr calls start halike] at hshows
    exact hshows.perm hshows'

end Both

/-- A filter on a member lets an object through that has the member, and a text. -/
example :
    let filter : Option JsonValue := some (.object [("open", .bool true)])
    passesFilter filter (.object [("open", .bool true), ("title", .string "a")]) = true ∧
      passesFilter filter (.object [("title", .string "a")]) = false ∧
      passesFilter filter (.string "a") = true := by decide

/-- The libraries of the store, with a database that refuses the other names. -/
def sampleQueries : QueryLibraries where
  toBuildLibraries := StoreMaps.sampleLibraries
  unquotedQuery := fun _ _ => .error (.localStoreWriteFailed "syntax error")

theorem queries_show_reads_sample :
    ∃ w, WasmLocalStore.openAt sampleQueries.toBuildLibraries.wasm "notes.db"
        StoreMaps.sampleRows = .ok w ∧
      ∀ calls : List StoreCall, (∀ call ∈ calls,
          call.Within (keysOf {"notes", "logs"}) {.bool true, .bool false}) →
        ∀ table ∈ ({"notes", "logs"} : Set String), ∀ filter, ∃ c c' rows rows',
          QueriesAgree sampleQueries
            ((nativeOperations sampleQueries.toBuildLibraries).run StoreMaps.sampleStore calls).2
            ((wasmOperations sampleQueries.toBuildLibraries).run w calls).2 table filter
            c c' rows rows' ∧
          ((∀ call ∈ calls, call.Alike nativeRefuses (wasmRefuses "notes.db")) →
            rows.Perm rows') :=
  @queries_show_reads sampleQueries _ _ _ _ _ distinguished_sample sampleTexts_documented
    sampleStore_startAlike

end StoreQueries

end TirBase
