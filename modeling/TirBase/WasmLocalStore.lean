import TirBase.LocalStore

/-! # The local store of the WASM build

The rows are kept in memory, and in one object store of IndexedDB under the table and the key joined
by a separator. An open loads them from there. -/
namespace TirBase
open ScalarProjection

/-- JSON text, and how `{:?}` shows a text. -/
structure WasmStoreLibraries where
  json : JsonText
  debug : String → String

/-- The step of a row's IndexedDB transaction that fails, with its text. -/
inductive IdbFault
  | transaction (e : String)
  | objectStore (e : String)
  | put (e : String)
  | putAwait (e : String)
  | commit (e : String)
  | commitAwait (e : String)
  deriving DecidableEq

/-- `KEY_SEP`. -/
def keySep : Char := '\x1f'

def compositeKey (table key : String) : String := table ++ String.singleton keySep ++ key

def jsError (reason : String) : TirBaseError := .localStoreWriteFailed reason

/-- `split_once`. -/
def splitOnce (sep : Char) : List Char → Option (List Char × List Char)
  | [] => none
  | c :: cs =>
    if c = sep then some ([], cs)
    else (splitOnce sep cs).map fun parts => (c :: parts.1, parts.2)

def splitCompositeKey (lib : WasmStoreLibraries) (composite : String) :
    Except TirBaseError (String × String) :=
  match splitOnce keySep composite.toList with
  | some (table, key) => .ok (String.ofList table, String.ofList key)
  | none =>
    let shown := lib.debug composite
    .error (jsError s!"corrupt IndexedDB key (no separator): {shown}")

/-- The rows in memory, by table and key. -/
abbrev WasmTables := AList fun _ : String => AList fun _ : String => JsonValue

namespace WasmTables

def row? (tables : WasmTables) (table key : String) : Option JsonValue :=
  (tables.lookup table).bind fun rows => rows.lookup key

/-- `entry(table).or_default().insert(key, value)`. -/
def setRow (tables : WasmTables) (table key : String) (value : JsonValue) : WasmTables :=
  tables.insert table (((tables.lookup table).getD ∅).insert key value)

end WasmTables

/-- The object store `kv`. -/
structure IdbStore where
  rows : AList fun _ : String => String
  deriving DecidableEq

structure WasmLocalStore where
  db : Option IdbStore
  tables : WasmTables

namespace IdbStore
variable (lib : WasmStoreLibraries)

def faultError (composite : String) : IdbFault → TirBaseError
  | .transaction e => jsError s!"IDB transaction (readwrite) failed: {e}"
  | .objectStore e => jsError s!"object_store(kv) failed: {e}"
  | .put e =>
    let shown := lib.debug composite
    jsError s!"put({shown}) failed: {e}"
  | .putAwait e =>
    let shown := lib.debug composite
    jsError s!"put({shown}) await failed: {e}"
  | .commit e => jsError s!"tx.commit() failed: {e}"
  | .commitAwait e => jsError s!"tx commit await failed: {e}"

/-- `write`: a transaction that fails leaves the rows as they were. -/
def write (fault : Option IdbFault) (db : IdbStore) (table key valueStr : String) :
    Except TirBaseError Unit × IdbStore :=
  let composite := compositeKey table key
  match fault with
  | some fault => (.error (faultError lib composite fault), db)
  | none => (.ok (), ⟨db.rows.insert composite valueStr⟩)

def loadRow (tables : WasmTables) (composite valueStr : String) :
    Except TirBaseError WasmTables :=
  match lib.json.fromStr valueStr with
  | .error e =>
    let shown := lib.debug composite
    .error (jsError s!"row {shown}: stored JSON is invalid: {e}")
  | .ok value =>
    match splitCompositeKey lib composite with
    | .error e => .error e
    | .ok (table, key) => .ok (tables.setRow table key value)

def loadRows (tables : WasmTables) :
    List (Sigma fun _ : String => String) → Except TirBaseError WasmTables
  | [] => .ok tables
  | ⟨composite, valueStr⟩ :: rows =>
    match loadRow lib tables composite valueStr with
    | .error e => .error e
    | .ok tables => loadRows tables rows

/-- `load_all`: an empty store opens no cursor. -/
def loadAll (db : IdbStore) : Except TirBaseError WasmTables :=
  if db.rows.entries = [] then .error (jsError "cursor is null (store empty or error)")
  else loadRows lib ∅ db.rows.entries

end IdbStore

namespace WasmLocalStore
variable (lib : WasmStoreLibraries)

/-- `open` at a path whose database holds these rows. -/
def openAt (path : String) (persisted : IdbStore) : Except TirBaseError WasmLocalStore :=
  if path = ":memory:" then .ok ⟨none, ∅⟩
  else (persisted.loadAll lib).map fun tables => ⟨some persisted, tables⟩

/-- `write`: the view follows once the row is durable. -/
def write (fault : Option IdbFault) (s : WasmLocalStore) (table key : String) (data : JsonValue) :
    Except TirBaseError Unit × WasmLocalStore :=
  let dataJson := lib.json.toString data
  match s.db with
  | none => (.ok (), { s with tables := s.tables.setRow table key data })
  | some db =>
    let stored := db.write lib fault table key dataJson
    match stored.1 with
    | .error e => (.error e, ⟨some stored.2, s.tables⟩)
    | .ok () => (.ok (), ⟨some stored.2, s.tables.setRow table key data⟩)

def read (s : WasmLocalStore) (table key : String) : Except TirBaseError (Option JsonValue) :=
  .ok (s.tables.row? table key)

end WasmLocalStore

section Keys
variable {sep : Char}

theorem splitOnce_append {table : List Char} (h : sep ∉ table) (key : List Char) :
    splitOnce sep (table ++ sep :: key) = some (table, key) := by
  induction table with
  | nil => simp [splitOnce]
  | cons c cs ih =>
    obtain ⟨hc, hcs⟩ := not_or.mp (List.mem_cons.not.mp h)
    simp [splitOnce, Ne.symm hc, ih hcs]

/-- A split takes the first separator. -/
theorem splitOnce_eq_some {composite table key : List Char} :
    splitOnce sep composite = some (table, key) ↔
      composite = table ++ sep :: key ∧ sep ∉ table := by
  constructor
  · induction composite generalizing table with
    | nil => simp [splitOnce]
    | cons c cs ih =>
      intro h
      by_cases hc : c = sep
      · simp only [splitOnce, hc, if_true, Option.some.injEq, Prod.mk.injEq] at h
        obtain ⟨rfl, rfl⟩ := h
        simp [hc]
      · simp only [splitOnce, if_neg hc, Option.map_eq_some_iff] at h
        obtain ⟨⟨table', key'⟩, hsplit, hparts⟩ := h
        cases hparts
        obtain ⟨hcs, hsep⟩ := ih hsplit
        refine ⟨by rw [hcs]; rfl, ?_⟩
        exact List.mem_cons.not.mpr (not_or.mpr ⟨fun h => hc h.symm, hsep⟩)
  · rintro ⟨rfl, hsep⟩
    exact splitOnce_append hsep key

theorem toList_compositeKey (table key : String) :
    (compositeKey table key).toList = table.toList ++ keySep :: key.toList := by
  simp [compositeKey]

/-- A joined key gives the table and the key back unless the table holds the separator. -/
theorem compositeKey_inj {table table' key key' : String} (h : keySep ∉ table.toList)
    (h' : keySep ∉ table'.toList) :
    compositeKey table key = compositeKey table' key' ↔ table = table' ∧ key = key' := by
  constructor
  · intro heq
    have hsplit := splitOnce_append h key.toList
    rw [← toList_compositeKey, heq, toList_compositeKey, splitOnce_append h'] at hsplit
    obtain ⟨htable, hkey⟩ := Prod.mk.inj (Option.some.inj hsplit)
    exact ⟨(String.toList_inj.mp htable).symm, (String.toList_inj.mp hkey).symm⟩
  · rintro ⟨rfl, rfl⟩
    rfl

theorem splitCompositeKey_eq_ok {lib : WasmStoreLibraries} {composite table key : String} :
    splitCompositeKey lib composite = .ok (table, key) ↔
      composite = compositeKey table key ∧ keySep ∉ table.toList := by
  rw [← String.toList_inj, toList_compositeKey, ← splitOnce_eq_some, splitCompositeKey]
  cases splitOnce keySep composite.toList with
  | none => simp
  | some parts =>
    simp only [Except.ok.injEq, Option.some.injEq, Prod.ext_iff, ← String.toList_inj,
      String.toList_ofList]

end Keys

namespace WasmTables
variable {tables : WasmTables} {table key table' key' : String}

@[simp] theorem row?_empty (table key : String) : row? ∅ table key = none := rfl

theorem row?_setRow_self (value : JsonValue) :
    (tables.setRow table key value).row? table key = some value := by
  simp [row?, setRow]

theorem row?_setRow_other (h : ¬(table' = table ∧ key' = key)) (value : JsonValue) :
    (tables.setRow table key value).row? table' key' = tables.row? table' key' := by
  unfold row? setRow
  by_cases htable : table' = table
  · subst htable
    have hkey : key' ≠ key := fun hkey => h ⟨rfl, hkey⟩
    rw [AList.lookup_insert, Option.bind_some, AList.lookup_insert_ne hkey]
    cases tables.lookup table' <;> rfl
  · rw [AList.lookup_insert_ne htable]

end WasmTables

namespace IdbStore
variable {lib : WasmStoreLibraries}

/-- What the rows show of a table and a key, once loaded. -/
def shown (lib : WasmStoreLibraries) (rows : List (Sigma fun _ : String => String))
    (table key : String) : Option JsonValue :=
  if keySep ∈ table.toList then none
  else (rows.dlookup (compositeKey table key)).bind fun text => (lib.json.fromStr text).toOption

/-- Each row can be loaded: its text is JSON and its key holds a separator. -/
def Loadable (lib : WasmStoreLibraries) (rows : List (Sigma fun _ : String => String)) : Prop :=
  ∀ row ∈ rows, (∃ value, lib.json.fromStr row.2 = .ok value) ∧
    ∃ table key, row.1 = compositeKey table key ∧ keySep ∉ table.toList

theorem loadRow_of_loadable {tables : WasmTables} {composite valueStr table key : String}
    {value : JsonValue} (hvalue : lib.json.fromStr valueStr = .ok value)
    (hkey : composite = compositeKey table key) (hsep : keySep ∉ table.toList) :
    loadRow lib tables composite valueStr = .ok (tables.setRow table key value) := by
  have hsplit : splitCompositeKey lib composite = .ok (table, key) :=
    splitCompositeKey_eq_ok.mpr ⟨hkey, hsep⟩
  simp only [loadRow, hvalue, hsplit]

theorem loadRow_eq_ok {tables tables' : WasmTables} {composite valueStr : String}
    (h : loadRow lib tables composite valueStr = .ok tables') :
    ∃ value table key, lib.json.fromStr valueStr = .ok value ∧
      composite = compositeKey table key ∧ keySep ∉ table.toList ∧
        tables' = tables.setRow table key value := by
  unfold loadRow at h
  cases hvalue : lib.json.fromStr valueStr with
  | error e => simp [hvalue] at h
  | ok value =>
    cases hsplit : splitCompositeKey lib composite with
    | error e => simp [hvalue, hsplit] at h
    | ok parts =>
      simp only [hvalue, hsplit, Except.ok.injEq] at h
      obtain ⟨hkey, hsep⟩ := splitCompositeKey_eq_ok.mp hsplit
      exact ⟨value, parts.1, parts.2, rfl, hkey, hsep, h.symm⟩

theorem loadRows_isOk_iff (tables : WasmTables) (rows : List (Sigma fun _ : String => String)) :
    (∃ tables', loadRows lib tables rows = .ok tables') ↔ Loadable lib rows := by
  induction rows generalizing tables with
  | nil => simp [loadRows, Loadable]
  | cons row rows ih =>
    obtain ⟨composite, valueStr⟩ := row
    constructor
    · rintro ⟨tables', h⟩
      cases hrow : loadRow lib tables composite valueStr with
      | error e => simp [loadRows, hrow] at h
      | ok after =>
        simp only [loadRows, hrow] at h
        obtain ⟨value, table, key, hvalue, hkey, hsep, -⟩ := loadRow_eq_ok hrow
        refine List.forall_mem_cons.mpr ⟨?_, (ih after).mp ⟨tables', h⟩⟩
        exact ⟨⟨value, hvalue⟩, table, key, hkey, hsep⟩
    · intro h
      obtain ⟨⟨⟨value, hvalue⟩, table, key, hkey, hsep⟩, hrest⟩ := List.forall_mem_cons.mp h
      simp only [loadRows, loadRow_of_loadable hvalue hkey hsep]
      exact (ih _).mpr hrest

theorem row?_loadRows {rows : List (Sigma fun _ : String => String)} (hnodup : rows.NodupKeys)
    {tables tables' : WasmTables} (h : loadRows lib tables rows = .ok tables') (table key : String) :
    tables'.row? table key = (shown lib rows table key).or (tables.row? table key) := by
  induction rows generalizing tables with
  | nil =>
    simp only [loadRows, Except.ok.injEq] at h
    simp [h, shown]
  | cons row rows ih =>
    obtain ⟨composite, valueStr⟩ := row
    obtain ⟨hfresh, hnodup⟩ := List.nodupKeys_cons.mp hnodup
    cases hrow : loadRow lib tables composite valueStr with
    | error e => simp [loadRows, hrow] at h
    | ok after =>
      simp only [loadRows, hrow] at h
      obtain ⟨value, table₀, key₀, hvalue, hkey, hsep, rfl⟩ := loadRow_eq_ok hrow
      rw [ih hnodup h]
      by_cases htable : keySep ∈ table.toList
      · have hother : ¬(table = table₀ ∧ key = key₀) := by
          rintro ⟨rfl, -⟩
          exact hsep htable
        simp only [shown, if_pos htable, Option.none_or,
          WasmTables.row?_setRow_other hother]
      · by_cases hsame : table = table₀ ∧ key = key₀
        · obtain ⟨rfl, rfl⟩ := hsame
          have hnone : rows.dlookup (compositeKey table key) = none :=
            List.dlookup_eq_none.mpr (hkey ▸ hfresh)
          subst hkey
          simp only [shown, if_neg htable, hnone, Option.bind_none, Option.none_or,
            WasmTables.row?_setRow_self, List.dlookup_cons_eq, Option.bind_some, hvalue]
          rfl
        · have hne : compositeKey table key ≠ composite := by
            rw [hkey]
            exact fun heq => hsame ((compositeKey_inj htable hsep).mp heq)
          simp only [shown, if_neg htable, WasmTables.row?_setRow_other hsame]
          rw [List.dlookup_cons_ne rows ⟨composite, valueStr⟩ hne]

end IdbStore

end TirBase
