import Mathlib
import TirBase.JsonTexts
import TirBase.MapRuns
import TirBase.WasmLocalStore

/-! # When the local store is a map

A row is found under the name of its SQL table on the one build and under a joined key on the
other. The two builds answer as one map where neither encoding confuses two tables. -/
namespace TirBase.StoreMaps
open MapRuns ScalarProjection

structure BuildLibraries extends StoreLibraries where
  debug : String → String

def BuildLibraries.wasm (lib : BuildLibraries) : WasmStoreLibraries := ⟨lib.json, lib.debug⟩

/-- The statement that fails natively, and the step of the transaction that fails in IndexedDB. -/
structure StorageFaults where
  native : Option StoreFault
  wasm : Option IdbFault

abbrev StoreCall := Call (String × String) JsonValue StorageFaults

def nativeOperations (lib : BuildLibraries) :
    Operations LocalStore (String × String) JsonValue StorageFaults where
  write s key value faults :=
    let out := s.write lib.toStoreLibraries faults.native key.1 key.2 value
    (out.1.toBool, out.2)
  read s key := (s.read lib.toStoreLibraries key.1 key.2).toOption

def wasmOperations (lib : BuildLibraries) :
    Operations WasmLocalStore (String × String) JsonValue StorageFaults where
  write s key value faults :=
    let out := s.write lib.wasm faults.wasm key.1 key.2 value
    (out.1.toBool, out.2)
  read s key := (s.read key.1 key.2).toOption

def nativeRefuses (faults : StorageFaults) : Bool := faults.native.isSome

/-- A store in memory refuses nothing. -/
def wasmRefuses (path : String) (faults : StorageFaults) : Bool :=
  path ≠ ":memory:" && faults.wasm.isSome

def keysOf (names : Set String) : Set (String × String) := { key | key.1 ∈ names }

/-- Along any calls on these tables with these values, the opened stores answer as one map, and an
open in any state of the WASM store shows what the store shows. -/
structure AnswersAsMap (lib : BuildLibraries) (path : String) (s : LocalStore) (w : WasmLocalStore)
    (names : Set String) (values : Set JsonValue) (c : String × String → Option JsonValue) :
    Prop where
  native : ∀ calls : List StoreCall, (∀ call ∈ calls, call.Within (keysOf names) values) →
    ((nativeOperations lib).run s calls).1 = ((Operations.ofMap nativeRefuses).run c calls).1
  wasm : ∀ calls : List StoreCall, (∀ call ∈ calls, call.Within (keysOf names) values) →
    ((wasmOperations lib).run w calls).1 = ((Operations.ofMap (wasmRefuses path)).run c calls).1
  same : ∀ calls : List StoreCall, (∀ call ∈ calls, call.Within (keysOf names) values) →
    (∀ call ∈ calls, call.Alike nativeRefuses (wasmRefuses path)) →
      ((nativeOperations lib).run s calls).1 = ((wasmOperations lib).run w calls).1
  reopened : ∀ calls : List StoreCall, (∀ call ∈ calls, call.Within (keysOf names) values) →
    ∀ db ∈ ((wasmOperations lib).run w calls).2.db,
      ∃ w', WasmLocalStore.openAt lib.wasm path db = .ok w' ∧
        ∀ table key, w'.read table key = ((wasmOperations lib).run w calls).2.read table key

/-- The WASM store opens at the path over the rows that are there, and the two stores are a map. -/
def IsMap (lib : BuildLibraries) (path : String) (persisted : IdbStore) (s : LocalStore)
    (names : Set String) (values : Set JsonValue) : Prop :=
  ∃ w, WasmLocalStore.openAt lib.wasm path persisted = .ok w ∧
    ∃ c, AnswersAsMap lib path s w names values c

/-- What the path, the names and the values must be like. -/
structure Distinguished (lib : BuildLibraries) (path : String) (persisted : IdbStore)
    (names : Set String) (values : Set JsonValue) : Prop where
  quoted : ∀ table ∈ names, quotable table = true
  apart : Set.InjOn sqlName names
  kept : ∀ value ∈ values, lib.json.Kept value
  stored : path ≠ ":memory:" → persisted.rows.entries ≠ [] ∧
    IdbStore.Loadable lib.wasm persisted.rows.entries
  separated : path ≠ ":memory:" → ∀ table ∈ names, keySep ∉ table.toList

/-- SQLite refuses a write to a table whose name ends the quotes around it. -/
def RefusesUnquoted (lib : BuildLibraries) (names : Set String) : Prop :=
  ∀ table ∈ names, quotable table = false → ∀ key dataJson s,
    (lib.unquotedWrite table key dataJson s).1.toBool = false

/-- As opened, the WASM store shows the rows of the native one. -/
def StartAlike (lib : BuildLibraries) (path : String) (persisted : IdbStore) (s : LocalStore)
    (names : Set String) : Prop :=
  ∀ w, WasmLocalStore.openAt lib.wasm path persisted = .ok w →
    ∀ table ∈ names, quotable table = true → ∀ key,
      s.read lib.toStoreLibraries table key = w.read table key

variable {lib : BuildLibraries} {path : String} {persisted : IdbStore} {s : LocalStore}
  {names : Set String} {values : Set JsonValue}

section Native
variable {table key : String} {value : JsonValue}

theorem read_congr (lib : BuildLibraries) (htable : quotable table = true) {s s' : LocalStore}
    (h : s'.row? table key = s.row? table key) :
    s'.read lib.toStoreLibraries table key = s.read lib.toStoreLibraries table key := by
  simp only [LocalStore.read, htable, if_true, h]

theorem toBool_write (lib : BuildLibraries) (htable : quotable table = true) (key : String)
    (value : JsonValue) (s : LocalStore) (fault : Option StoreFault) :
    (s.write lib.toStoreLibraries fault table key value).1.toBool = !fault.isSome := by
  simp only [LocalStore.write, htable, if_true]
  cases fault with
  | none => rfl
  | some f => cases f <;> rfl

theorem read_write_self (lib : BuildLibraries) (htable : quotable table = true) (key : String)
    (s : LocalStore) (hkept : lib.json.fromStr (lib.json.toString value) = .ok value) :
    (s.write lib.toStoreLibraries none table key value).2.read lib.toStoreLibraries table key =
      .ok (some value) := by
  rw [LocalStore.read, if_pos htable, LocalStore.row?_write_self htable value]
  simp only [LocalStore.parseRow, hkept]
  rfl

/-- The states of the native store stand for what they show of these tables. -/
def NativeShows (lib : BuildLibraries) (names : Set String) (s : LocalStore)
    (c : String × String → Option JsonValue) : Prop :=
  ∀ table ∈ names, ∀ key, s.read lib.toStoreLibraries table key = .ok (c (table, key))

theorem native_simulates (hquoted : ∀ table ∈ names, quotable table = true)
    (hapart : Set.InjOn sqlName names)
    (hkept : ∀ value ∈ values, lib.json.fromStr (lib.json.toString value) = .ok value) :
    Simulates (nativeOperations lib) nativeRefuses (keysOf names) values
      (NativeShows lib names) := by
  constructor
  · rintro s c hs ⟨table, key⟩ hkey
    simp only [nativeOperations, hs table hkey key]
    rfl
  · rintro s c hs ⟨table, key⟩ hkey value - faults hrefuses
    obtain ⟨fault, hfault⟩ := Option.isSome_iff_exists.mp hrefuses
    refine ⟨?_, ?_⟩
    · have hout := toBool_write lib (hquoted table hkey) key value s faults.native
      simpa [nativeOperations, hfault] using hout
    · intro table' htable' key'
      rw [← hs table' htable' key']
      apply read_congr lib (hquoted table' htable')
      simp only [nativeOperations, hfault]
      exact LocalStore.row?_write_fault (hquoted table hkey) fault key value table' key'
  · rintro s c hs ⟨table, key⟩ hkey value hvalue faults hrefuses
    have hfault : faults.native = none := by
      simpa [nativeRefuses] using hrefuses
    refine ⟨?_, ?_⟩
    · have hout := toBool_write lib (hquoted table hkey) key value s faults.native
      simpa [nativeOperations, hfault] using hout
    · intro table' htable' key'
      simp only [nativeOperations, hfault]
      by_cases hsame : (table', key') = (table, key)
      · obtain ⟨rfl, rfl⟩ := Prod.mk.inj hsame
        rw [Function.update_self]
        exact read_write_self lib (hquoted table' hkey) key' s (hkept value hvalue)
      · rw [Function.update_of_ne hsame, ← hs table' htable' key']
        apply read_congr lib (hquoted table' htable')
        apply LocalStore.row?_write_other (hquoted table hkey)
        intro heq
        obtain ⟨hname, hkey'⟩ := Prod.mk.inj heq
        exact hsame (Prod.ext (hapart htable' hkey hname) hkey')

end Native

section Wasm
variable {w : WasmLocalStore}

/-- The rows in memory are those that the database would show, and they can be loaded. -/
structure Durable (lib : BuildLibraries) (w : WasmLocalStore) (db : IdbStore) : Prop where
  rows : db.rows.entries ≠ []
  loadable : IdbStore.Loadable lib.wasm db.rows.entries
  shown : ∀ table key, w.tables.row? table key =
    IdbStore.shown lib.wasm db.rows.entries table key

/-- The store stands for what it shows of these tables. -/
structure WasmShows (lib : BuildLibraries) (path : String) (names : Set String)
    (w : WasmLocalStore) (c : String × String → Option JsonValue) : Prop where
  shows : ∀ table ∈ names, ∀ key, w.tables.row? table key = c (table, key)
  backed : w.db.isSome = true ↔ path ≠ ":memory:"
  durable : ∀ db ∈ w.db, Durable lib w db

theorem loadAll_isOk_iff {db : IdbStore} : (∃ tables, db.loadAll lib.wasm = .ok tables) ↔
    db.rows.entries ≠ [] ∧ IdbStore.Loadable lib.wasm db.rows.entries := by
  unfold IdbStore.loadAll
  by_cases hrows : db.rows.entries = []
  · simp [hrows]
  · rw [if_neg hrows, IdbStore.loadRows_isOk_iff]
    exact ⟨fun h => ⟨hrows, h⟩, fun h => h.2⟩

theorem row?_loadAll {db : IdbStore} {tables : WasmTables}
    (h : db.loadAll lib.wasm = .ok tables) (table key : String) :
    tables.row? table key = IdbStore.shown lib.wasm db.rows.entries table key := by
  unfold IdbStore.loadAll at h
  split_ifs at h
  rw [IdbStore.row?_loadRows db.rows.nodupKeys h, WasmTables.row?_empty, Option.or_none]

/-- The store opens in memory, or over rows that are there and can be loaded. -/
theorem openAt_isOk_iff : (∃ w, WasmLocalStore.openAt lib.wasm path persisted = .ok w) ↔
    (path ≠ ":memory:" → persisted.rows.entries ≠ [] ∧
      IdbStore.Loadable lib.wasm persisted.rows.entries) := by
  rw [← loadAll_isOk_iff, WasmLocalStore.openAt]
  by_cases hpath : path = ":memory:"
  · simp [hpath]
  · rw [if_neg hpath]
    cases persisted.loadAll lib.wasm with
    | error e => simp [hpath, Except.map]
    | ok tables => simp [Except.map]

theorem durable_of_open (h : WasmLocalStore.openAt lib.wasm path persisted = .ok w) :
    (w.db.isSome = true ↔ path ≠ ":memory:") ∧ ∀ db ∈ w.db, Durable lib w db := by
  unfold WasmLocalStore.openAt at h
  split_ifs at h with hpath
  · cases h
    exact ⟨by simp [hpath], fun db hdb => by cases hdb⟩
  · cases hload : persisted.loadAll lib.wasm with
    | error e => simp [hload, Except.map] at h
    | ok tables =>
      simp only [hload, Except.map, Except.ok.injEq] at h
      obtain ⟨hrows, hloadable⟩ := loadAll_isOk_iff.mp ⟨tables, hload⟩
      subst h
      refine ⟨by simp [hpath], ?_⟩
      intro db hdb
      cases hdb
      exact ⟨hrows, hloadable, row?_loadAll hload⟩

/-- An open over the rows of a store shows what the store shows. -/
theorem Durable.reopens {db : IdbStore} (h : Durable lib w db) (hpath : path ≠ ":memory:") :
    ∃ w', WasmLocalStore.openAt lib.wasm path db = .ok w' ∧
      ∀ table key, w'.read table key = w.read table key := by
  obtain ⟨tables, htables⟩ := loadAll_isOk_iff.mpr ⟨h.rows, h.loadable⟩
  refine ⟨⟨some db, tables⟩, ?_, ?_⟩
  · simp only [WasmLocalStore.openAt, if_neg hpath, htables]
    rfl
  · intro table key
    simp only [WasmLocalStore.read, row?_loadAll htables, h.shown]

theorem mem_entries_insert {db : IdbStore} {composite text : String}
    {row : Sigma fun _ : String => String}
    (h : row ∈ (db.rows.insert composite text).entries) :
    row = ⟨composite, text⟩ ∨ row ∈ db.rows.entries := by
  rw [AList.entries_insert] at h
  rcases List.mem_cons.mp h with hnew | hold
  · exact .inl hnew
  · exact .inr (List.kerase_sublist composite db.rows.entries |>.subset hold)

/-- A row that is stored under a table without a separator shows there, and nowhere else. -/
theorem Durable.insert {db : IdbStore} (h : Durable lib w db) {table : String}
    (htable : keySep ∉ table.toList) (key : String) {value : JsonValue}
    (hkept : lib.json.fromStr (lib.json.toString value) = .ok value) :
    Durable lib ⟨some ⟨db.rows.insert (compositeKey table key) (lib.json.toString value)⟩,
        w.tables.setRow table key value⟩
      ⟨db.rows.insert (compositeKey table key) (lib.json.toString value)⟩ := by
  constructor
  · rw [AList.entries_insert]
    exact List.cons_ne_nil _ _
  · intro row hrow
    rcases mem_entries_insert hrow with rfl | hold
    · exact ⟨⟨value, hkept⟩, table, key, rfl, htable⟩
    · exact h.loadable row hold
  · intro table' key'
    have hlookup : ∀ composite, (db.rows.insert (compositeKey table key)
        (lib.json.toString value)).entries.dlookup composite =
          if composite = compositeKey table key then some (lib.json.toString value)
          else db.rows.entries.dlookup composite := by
      intro composite
      change (db.rows.insert _ _).lookup composite = _
      split_ifs with hsame
      · rw [hsame, AList.lookup_insert]
      · exact AList.lookup_insert_ne hsame
    by_cases hsame : table' = table ∧ key' = key
    · obtain ⟨rfl, rfl⟩ := hsame
      have hread : lib.wasm.json.fromStr (lib.json.toString value) = .ok value := hkept
      simp only [WasmTables.row?_setRow_self, IdbStore.shown, if_neg htable, hlookup, if_true,
        Option.bind_some, hread]
      rfl
    · rw [WasmTables.row?_setRow_other hsame, h.shown, IdbStore.shown, IdbStore.shown]
      by_cases htable' : keySep ∈ table'.toList
      · rw [if_pos htable', if_pos htable']
      · have hne : compositeKey table' key' ≠ compositeKey table key :=
          fun heq => hsame ((compositeKey_inj htable' htable).mp heq)
        rw [if_neg htable', if_neg htable', hlookup, if_neg hne]

theorem wasm_simulates (path : String)
    (hseparated : path ≠ ":memory:" → ∀ table ∈ names, keySep ∉ table.toList)
    (hkept : ∀ value ∈ values, lib.json.fromStr (lib.json.toString value) = .ok value) :
    Simulates (wasmOperations lib) (wasmRefuses path) (keysOf names) values
      (WasmShows lib path names) := by
  constructor
  · rintro w c hw ⟨table, key⟩ hkey
    simp only [wasmOperations, WasmLocalStore.read, hw.shows table hkey key]
    rfl
  · rintro w c hw ⟨table, key⟩ hkey value - faults hrefuses
    obtain ⟨hpath, hfault⟩ := Bool.and_eq_true_iff.mp hrefuses
    obtain ⟨fault, hfault⟩ := Option.isSome_iff_exists.mp hfault
    obtain ⟨db, hdb⟩ := Option.isSome_iff_exists.mp (hw.backed.mpr (by simpa using hpath))
    have hwrite : w.write lib.wasm (some fault) table key value =
        (.error (IdbStore.faultError lib.wasm (compositeKey table key) fault), w) := by
      simp only [WasmLocalStore.write, hdb, IdbStore.write]
      rw [← hdb]
    simp only [wasmOperations, hfault, hwrite]
    exact ⟨rfl, hw⟩
  · rintro w c hw ⟨table, key⟩ hkey value hvalue faults hrefuses
    have hshows : ∀ db, ∀ table' ∈ names, ∀ key',
        (⟨db, w.tables.setRow table key value⟩ : WasmLocalStore).tables.row? table' key' =
          Function.update c (table, key) (some value) (table', key') := by
      intro db table' htable' key'
      by_cases hsame : table' = table ∧ key' = key
      · obtain ⟨rfl, rfl⟩ := hsame
        rw [Function.update_self]
        exact WasmTables.row?_setRow_self value
      · have hne : (table', key') ≠ (table, key) := fun heq => hsame (Prod.mk.inj heq)
        rw [Function.update_of_ne hne, ← hw.shows table' htable' key']
        exact WasmTables.row?_setRow_other hsame value
    cases hdb : w.db with
    | none =>
      have hwrite : w.write lib.wasm faults.wasm table key value =
          (.ok (), ⟨none, w.tables.setRow table key value⟩) := by
        simp only [WasmLocalStore.write, hdb]
      simp only [wasmOperations, hwrite]
      refine ⟨rfl, hshows none, ?_, fun db hmem => by cases hmem⟩
      rw [← hw.backed, hdb]
    | some db =>
      have hpath : path ≠ ":memory:" := hw.backed.mp (by rw [hdb]; rfl)
      have hfault : faults.wasm = none := by
        simpa [wasmRefuses, hpath] using hrefuses
      have hwrite : w.write lib.wasm faults.wasm table key value =
          (.ok (), ⟨some ⟨db.rows.insert (compositeKey table key) (lib.json.toString value)⟩,
            w.tables.setRow table key value⟩) := by
        simp only [WasmLocalStore.write, hdb, hfault, IdbStore.write]
        rfl
      simp only [wasmOperations, hwrite]
      refine ⟨rfl, hshows _, by simp [hpath], ?_⟩
      intro db' hmem
      cases hmem
      exact (hw.durable db hdb).insert (hseparated hpath table hkey) key (hkept value hvalue)

end Wasm

section Both

theorem isMap_of_distinguished (h : Distinguished lib path persisted names values)
    (hjson : ∀ value ∈ values, lib.json.Documented value)
    (hstart : StartAlike lib path persisted s names) : IsMap lib path persisted s names values := by
  have hkept : ∀ value ∈ values, lib.json.fromStr (lib.json.toString value) = .ok value :=
    fun value hvalue => (hjson value hvalue).mpr (h.kept value hvalue)
  obtain ⟨w, hopen⟩ := openAt_isOk_iff.mpr h.stored
  obtain ⟨hbacked, hdurable⟩ := durable_of_open hopen
  let c : String × String → Option JsonValue := fun key => w.tables.row? key.1 key.2
  have hnative : NativeShows lib names s c := fun table htable key =>
    hstart w hopen table htable (h.quoted table htable) key
  have hwasm : WasmShows lib path names w c := ⟨fun _ _ _ => rfl, hbacked, hdurable⟩
  have hnativeRuns := native_simulates h.quoted h.apart hkept
  have hwasmRuns := wasm_simulates path h.separated hkept
  refine ⟨w, hopen, c, ?_, ?_, ?_, ?_⟩
  · exact fun calls hcalls => (hnativeRuns.run calls hnative hcalls).1
  · exact fun calls hcalls => (hwasmRuns.run calls hwasm hcalls).1
  · intro calls hcalls halike
    rw [(hnativeRuns.run calls hnative hcalls).1, (hwasmRuns.run calls hwasm hcalls).1,
      run_ofMap_congr calls c halike]
  · intro calls hcalls db hdb
    have hlast := (hwasmRuns.run calls hwasm hcalls).2
    have hpath : path ≠ ":memory:" := hlast.backed.mp (Option.isSome_iff_exists.mpr ⟨db, hdb⟩)
    exact (hlast.durable db hdb).reopens hpath

def noFaults : StorageFaults := ⟨none, none⟩

theorem quoted_of_isMap (hvalues : values.Nonempty) (hsql : RefusesUnquoted lib names)
    (h : IsMap lib path persisted s names values) : ∀ table ∈ names, quotable table = true := by
  obtain ⟨w, -, c, hmap⟩ := h
  obtain ⟨value, hvalue⟩ := hvalues
  intro table htable
  by_contra hquoted
  rw [Bool.not_eq_true] at hquoted
  have hcalls : ∀ call ∈ [(.write (table, "") value noFaults : StoreCall)],
      call.Within (keysOf names) values := by
    intro call hcall
    rw [List.mem_singleton.mp hcall]
    exact ⟨htable, hvalue⟩
  have hanswers := hmap.native _ hcalls
  have hrefused : (s.write lib.toStoreLibraries none table "" value).1.toBool = false := by
    simp only [LocalStore.write, hquoted, Bool.false_eq_true, if_false]
    exact hsql table htable hquoted "" _ s
  simp [Operations.run, Operations.step, nativeOperations, Operations.ofMap, nativeRefuses,
    noFaults, hrefused] at hanswers

/-- What a read finds after the write of a value, and what a map would have there. -/
theorem native_read_of_isMap {table table' : String} {value : JsonValue} {w : WasmLocalStore}
    {c : String × String → Option JsonValue} (hmap : AnswersAsMap lib path s w names values c)
    (hquoted : quotable table = true) (htable : table ∈ names) (htable' : table' ∈ names)
    (hvalue : value ∈ values) (key key' : String) :
    (s.write lib.toStoreLibraries none table key value).2.read lib.toStoreLibraries table' key' =
      .ok (Function.update c (table, key) (some value) (table', key')) := by
  have hcalls : ∀ call ∈ [(.write (table, key) value noFaults : StoreCall), .read (table', key')],
      call.Within (keysOf names) values := by
    intro call hcall
    rcases List.mem_cons.mp hcall with rfl | hcall
    · exact ⟨htable, hvalue⟩
    · rw [List.mem_singleton.mp hcall]
      exact htable'
  have hanswers := hmap.native _ hcalls
  have hwritten := toBool_write lib hquoted key value s none
  cases hread : (s.write lib.toStoreLibraries none table key value).2.read lib.toStoreLibraries
      table' key' with
  | error e =>
    simp [Operations.run, Operations.step, nativeOperations, Operations.ofMap, nativeRefuses,
      noFaults, hread, Except.toOption] at hanswers
  | ok found =>
    simp [Operations.run, Operations.step, nativeOperations, Operations.ofMap, nativeRefuses,
      noFaults, hread, Except.toOption] at hanswers
    exact congrArg Except.ok hanswers.2

theorem exists_free_key (s : LocalStore) (table : String) : ∃ key, s.row? table key = none := by
  cases htable : s.tables.lookup (sqlName table) with
  | none => exact ⟨"", by simp [LocalStore.row?, htable]⟩
  | some t =>
    have hinj : Function.Injective fun n : ℕ => String.ofList (List.replicate n 'a') := by
      intro m n h
      have hlists : List.replicate m 'a' = List.replicate n 'a' := String.ofList_injective h
      simpa using congrArg List.length hlists
    have : Infinite String := Infinite.of_injective _ hinj
    obtain ⟨key, hkey⟩ := Infinite.exists_notMem_finset t.rows.keys.toFinset
    refine ⟨key, ?_⟩
    rw [List.mem_toFinset, ← AList.mem_keys] at hkey
    simp [LocalStore.row?, htable, AList.lookup_eq_none.mpr hkey]

theorem apart_of_isMap (hquoted : ∀ table ∈ names, quotable table = true)
    (hkept : ∀ value ∈ values, lib.json.fromStr (lib.json.toString value) = .ok value)
    (hvalues : values.Nonempty) (h : IsMap lib path persisted s names values) :
    Set.InjOn sqlName names := by
  obtain ⟨w, -, c, hmap⟩ := h
  obtain ⟨value, hvalue⟩ := hvalues
  intro table htable table' htable' hname
  by_contra hne
  obtain ⟨key, hfree⟩ := exists_free_key s table'
  have hbefore : c (table', key) = none := by
    have hcalls : ∀ call ∈ [(.read (table', key) : StoreCall)],
        call.Within (keysOf names) values := by
      intro call hcall
      rw [List.mem_singleton.mp hcall]
      exact htable'
    have hanswers := hmap.native _ hcalls
    have hread : s.read lib.toStoreLibraries table' key = .ok none := by
      simp only [LocalStore.read, hquoted table' htable', if_true, hfree]
    simp only [Operations.run, Operations.step, nativeOperations, Operations.ofMap, hread,
      Except.toOption, List.cons.injEq, Answer.found.injEq, and_true] at hanswers
    exact hanswers.symm
  have hafter := native_read_of_isMap hmap (hquoted table htable) htable htable' hvalue key key
  have hother : (table', key) ≠ (table, key) := fun heq => hne (Prod.mk.inj heq).1.symm
  rw [Function.update_of_ne hother, hbefore] at hafter
  have hshared : (s.write lib.toStoreLibraries none table key value).2.read lib.toStoreLibraries
      table' key = .ok (some value) := by
    have hself := read_write_self lib (hquoted table htable) key s (hkept value hvalue)
    have hrow := LocalStore.row?_congr (s.write lib.toStoreLibraries none table key value).2 hname
      key
    simp only [LocalStore.read, hquoted table htable, hquoted table' htable', if_true, hrow]
      at hself ⊢
    exact hself
  rw [hshared] at hafter
  cases hafter

theorem kept_of_isMap (hquoted : ∀ table ∈ names, quotable table = true) (hnames : names.Nonempty)
    (h : IsMap lib path persisted s names values) :
    ∀ value ∈ values, lib.json.fromStr (lib.json.toString value) = .ok value := by
  obtain ⟨w, -, c, hmap⟩ := h
  obtain ⟨table, htable⟩ := hnames
  intro value hvalue
  have hread := native_read_of_isMap hmap (hquoted table htable) htable htable hvalue "" ""
  rw [Function.update_self, LocalStore.read, if_pos (hquoted table htable),
    LocalStore.row?_write_self (hquoted table htable) value] at hread
  simp only [LocalStore.parseRow] at hread
  cases hparsed : lib.json.fromStr (lib.json.toString value) with
  | error e => simp [hparsed, Except.map] at hread
  | ok value' =>
    simp only [hparsed, Except.map, Except.ok.injEq, Option.some.injEq] at hread
    rw [hread]

theorem separated_of_isMap (hvalues : values.Nonempty)
    (h : IsMap lib path persisted s names values) (hpath : path ≠ ":memory:") :
    ∀ table ∈ names, keySep ∉ table.toList := by
  obtain ⟨w, hopen, c, hmap⟩ := h
  obtain ⟨value, hvalue⟩ := hvalues
  obtain ⟨hbacked, -⟩ := durable_of_open hopen
  obtain ⟨db, hdb⟩ := Option.isSome_iff_exists.mp (hbacked.mpr hpath)
  intro table htable hsep
  have hcalls : ∀ call ∈ [(.write (table, "") value noFaults : StoreCall)],
      call.Within (keysOf names) values := by
    intro call hcall
    rw [List.mem_singleton.mp hcall]
    exact ⟨htable, hvalue⟩
  have hwrite : w.write lib.wasm none table "" value =
      (.ok (), ⟨some ⟨db.rows.insert (compositeKey table "") (lib.json.toString value)⟩,
        w.tables.setRow table "" value⟩) := by
    simp only [WasmLocalStore.write, hdb, IdbStore.write]
    rfl
  have hlast : ((wasmOperations lib).run w [.write (table, "") value noFaults]).2 =
      (w.write lib.wasm none table "" value).2 := rfl
  have hreopened := hmap.reopened _ hcalls
  rw [hlast, hwrite] at hreopened
  obtain ⟨w', hopen', hread⟩ := hreopened _ rfl
  have hshown := hread table ""
  have hnone : w'.tables.row? table "" = none := by
    cases hload : (⟨db.rows.insert (compositeKey table "") (lib.json.toString value)⟩ :
        IdbStore).loadAll lib.wasm with
    | error e => simp [WasmLocalStore.openAt, hpath, hload, Except.map] at hopen'
    | ok tables =>
      simp only [WasmLocalStore.openAt, if_neg hpath, hload, Except.map, Except.ok.injEq] at hopen'
      rw [← hopen', row?_loadAll hload, IdbStore.shown, if_pos hsep]
  simp only [WasmLocalStore.read, hnone, WasmTables.row?_setRow_self] at hshown
  cases hshown

/-- The stores of both builds are one map on some tables and values exactly when the tables can be
told apart in SQL and in the joined keys, the values survive their text, and the WASM store is in
memory or opens over rows that are there. -/
theorem isMap_iff (hnames : names.Nonempty) (hvalues : values.Nonempty)
    (hsql : RefusesUnquoted lib names) (hjson : ∀ value ∈ values, lib.json.Documented value)
    (hstart : StartAlike lib path persisted s names) :
    IsMap lib path persisted s names values ↔
      Distinguished lib path persisted names values := by
  constructor
  · intro h
    have hquoted := quoted_of_isMap hvalues hsql h
    have hkept := kept_of_isMap hquoted hnames h
    refine ⟨hquoted, apart_of_isMap hquoted hkept hvalues h, ?_, ?_, separated_of_isMap hvalues h⟩
    · exact fun value hvalue => (hjson value hvalue).mp (hkept value hvalue)
    · obtain ⟨w, hopen, -⟩ := h
      exact openAt_isOk_iff.mp ⟨w, hopen⟩
  · exact fun h => isMap_of_distinguished h hjson hstart

end Both

def sampleTexts : JsonText where
  toString
    | .bool b => if b then "true" else "false"
    | _ => "null"
  fromStr text :=
    if text = "true" then .ok (.bool true)
    else if text = "false" then .ok (.bool false)
    else if text = "null" then .ok .null
    else .error "expected value at line 1 column 1"

def sampleLibraries : BuildLibraries where
  json := sampleTexts
  unquotedWrite := fun _ _ _ s => (.error (.localStoreWriteFailed "syntax error"), s)
  unquotedRead := fun _ _ _ => .error (.localStoreWriteFailed "syntax error")
  debug := fun text => "\"" ++ text ++ "\""

theorem sampleTexts_reads :
    sampleTexts.fromStr (sampleTexts.toString (.bool true)) = .ok (.bool true) := rfl

theorem sampleTexts_kept : sampleTexts.Kept (.bool true) :=
  ⟨by decide, fun bits hbits => absurd hbits List.not_mem_nil⟩

theorem sqlName_notes : sqlName "Notes" = sqlName "notes" := by
  rw [sqlName, sqlName, String.toLower, String.toLower, ← String.toList_inj, String.toList_map,
    String.toList_map]
  decide

/-- Written under `Notes`, a row is found under `notes` as well, on the native build alone. And an
empty database does not open. -/
theorem other_case_found :
    let lib := sampleLibraries
    let written := (LocalStore.empty.write lib.toStoreLibraries none "Notes" "k" (.bool true)).2
    LocalStore.empty.read lib.toStoreLibraries "notes" "k" = .ok none ∧
      written.read lib.toStoreLibraries "notes" "k" = .ok (some (.bool true)) ∧
      ((⟨none, ∅⟩ : WasmLocalStore).write lib.wasm none "Notes" "k" (.bool true)).2.read
        "notes" "k" = .ok none ∧
      WasmLocalStore.openAt lib.wasm "notes.db" ⟨∅⟩ =
        .error (.localStoreWriteFailed "cursor is null (store empty or error)") ∧
      ¬IsMap lib ":memory:" ⟨∅⟩ .empty {"Notes", "notes"} {.bool true} := by
  have hself := read_write_self sampleLibraries (by decide : quotable "Notes" = true) "k" .empty
    sampleTexts_reads
  have hrow := LocalStore.row?_congr (LocalStore.empty.write sampleLibraries.toStoreLibraries none
    "Notes" "k" (.bool true)).2 sqlName_notes "k"
  refine ⟨rfl, ?_, rfl, rfl, ?_⟩
  · simp only [LocalStore.read, hrow] at hself
    exact hself
  intro h
  have hquoted : ∀ table ∈ ({"Notes", "notes"} : Set String), quotable table = true := by
    rintro table (rfl | rfl) <;> decide
  have hkept : ∀ value ∈ ({.bool true} : Set JsonValue),
      sampleTexts.fromStr (sampleTexts.toString value) = .ok value := by
    rintro value rfl
    exact sampleTexts_reads
  have hvalues : ({.bool true} : Set JsonValue).Nonempty := ⟨.bool true, rfl⟩
  have hinj := apart_of_isMap hquoted hkept hvalues h
  exact absurd (hinj (.inl rfl) (.inr rfl) sqlName_notes) (by decide)

def sampleRows : IdbStore := ⟨AList.insert "notes\x1fk" "true" ∅⟩

def sampleStore : LocalStore :=
  (LocalStore.empty.write sampleLibraries.toStoreLibraries none "notes" "k" (.bool true)).2

theorem sqlName_logs : sqlName "logs" ≠ sqlName "notes" := by
  rw [sqlName, sqlName, String.toLower, String.toLower, ne_eq, ← String.toList_inj,
    String.toList_map, String.toList_map]
  decide

theorem sampleTexts_bool (b : Bool) :
    sampleTexts.fromStr (sampleTexts.toString (.bool b)) = .ok (.bool b) ∧
      sampleTexts.Kept (.bool b) := by
  cases b
  · exact ⟨rfl, by decide, fun bits hbits => absurd hbits List.not_mem_nil⟩
  · exact ⟨sampleTexts_reads, sampleTexts_kept⟩

theorem sampleStore_startAlike :
    StartAlike sampleLibraries "notes.db" sampleRows sampleStore {"notes", "logs"} := by
  intro w hopen table htable hquoted key
  obtain ⟨hbacked, hdurable⟩ := durable_of_open hopen
  obtain ⟨db, hdb⟩ := Option.isSome_iff_exists.mp (hbacked.mpr (by decide))
  have hrows : db = sampleRows := by
    simp only [WasmLocalStore.openAt] at hopen
    rw [if_neg (by decide)] at hopen
    cases hload : sampleRows.loadAll sampleLibraries.wasm with
    | error e => simp [hload, Except.map] at hopen
    | ok tables =>
      simp only [hload, Except.map, Except.ok.injEq] at hopen
      rw [← hopen] at hdb
      exact (Option.some.inj hdb).symm
  have hkeyed : keySep ∉ table.toList ∧ (sqlName table = sqlName "notes" → table = "notes") := by
    rcases htable with rfl | rfl
    · exact ⟨by decide, fun _ => rfl⟩
    · exact ⟨by decide, fun heq => absurd heq sqlName_logs⟩
  rw [WasmLocalStore.read, (hdurable db hdb).shown, hrows]
  by_cases hrow : table = "notes" ∧ key = "k"
  · rw [hrow.1, hrow.2]
    exact read_write_self sampleLibraries (by decide) "k" .empty sampleTexts_reads
  · have hother : sampleStore.row? table key = LocalStore.empty.row? table key :=
      LocalStore.row?_write_other (by decide) none (.bool true)
        fun heq => hrow ⟨hkeyed.2 (Prod.mk.inj heq).1, (Prod.mk.inj heq).2⟩
    have hne : compositeKey table key ≠ "notes\x1fk" := by
      intro heq
      exact hrow ((compositeKey_inj hkeyed.1 (by decide)).mp
        (heq.trans (by decide : "notes\x1fk" = compositeKey "notes" "k")))
    have hshown : IdbStore.shown sampleLibraries.wasm sampleRows.rows.entries table key = none := by
      rw [IdbStore.shown, if_neg hkeyed.1]
      have hnone : sampleRows.rows.entries.dlookup (compositeKey table key) = none :=
        List.dlookup_eq_none.mpr fun hmem => hne (List.mem_singleton.mp hmem)
      rw [hnone]
      rfl
    have hempty : LocalStore.empty.read sampleLibraries.toStoreLibraries table key = .ok none := by
      rcases htable with rfl | rfl
      · rfl
      · rfl
    rw [hshown]
    exact (read_congr sampleLibraries hquoted hother).trans hempty

theorem sampleTexts_documented :
    ∀ value ∈ ({.bool true, .bool false} : Set JsonValue), sampleTexts.Documented value := by
  rintro value (rfl | rfl)
  · exact iff_of_true (sampleTexts_bool true).1 (sampleTexts_bool true).2
  · exact iff_of_true (sampleTexts_bool false).1 (sampleTexts_bool false).2

/-- Two tables and both truth values over a database with one row. -/
theorem distinguished_sample :
    Distinguished sampleLibraries "notes.db" sampleRows {"notes", "logs"}
      {.bool true, .bool false} := by
  refine ⟨?_, ?_, ?_, ?_, ?_⟩
  · rintro table (rfl | rfl)
    · decide
    · decide
  · rintro table (rfl | rfl) table' (rfl | rfl) heq
    · rfl
    · exact absurd heq.symm sqlName_logs
    · exact absurd heq sqlName_logs
    · rfl
  · rintro value (rfl | rfl)
    · exact (sampleTexts_bool true).2
    · exact (sampleTexts_bool false).2
  · intro _
    refine ⟨by decide, ?_⟩
    intro row hrow
    rw [List.mem_singleton.mp (hrow : row ∈ [(⟨"notes\x1fk", "true"⟩ : Sigma _)])]
    exact ⟨⟨.bool true, rfl⟩, "notes", "k", by decide, by decide⟩
  · rintro - table (rfl | rfl)
    · decide
    · decide

theorem isMap_iff_flags :
    IsMap sampleLibraries "notes.db" sampleRows sampleStore {"notes", "logs"}
      {.bool true, .bool false} :=
  (isMap_iff ⟨"notes", .inl rfl⟩ ⟨.bool true, .inl rfl⟩ (fun _ _ _ _ _ _ => rfl)
    sampleTexts_documented sampleStore_startAlike).mpr distinguished_sample

end TirBase.StoreMaps
