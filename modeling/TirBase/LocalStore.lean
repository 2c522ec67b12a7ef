import Mathlib
import TirBase.ScalarProjection

/-! # The local store

The projection tables of the native build: a table of the application is the SQL table
`"proj_<table>"`, with a JSON text and a contamination flag for each key. -/
namespace TirBase
open ScalarProjection

structure ProjectionRow where
  dataJson : String
  contaminated : Bool
  deriving DecidableEq

structure ProjectionTable where
  name : String
  rows : AList fun _ : String => ProjectionRow
  deriving DecidableEq

/-- The projection tables by their SQL name. -/
structure LocalStore where
  tables : AList fun _ : String => ProjectionTable
  deriving DecidableEq

/-- The statement of a write that fails, with SQLite's text. -/
inductive StoreFault
  | createTable (e : String)
  | beginTransaction (e : String)
  | upsert (e : String)
  | commit (e : String)
  deriving DecidableEq

/-- JSON text, and what SQLite makes of the statements for a table name that ends the quoted
identifier it is pasted into. -/
structure StoreLibraries where
  json : JsonText
  unquotedWrite : String → String → String → LocalStore → Except TirBaseError Unit × LocalStore
  unquotedRead : String → String → LocalStore → Except TirBaseError (Option String)

def projectionName (table : String) : String := "proj_" ++ table

/-- SQL names differ by more than the case of ASCII letters. -/
def sqlName (table : String) : String := (projectionName table).toLower

/-- The name stays inside the quotes of `"proj_<table>"`. -/
def quotable (table : String) : Bool := table.toList.all fun c => c != '"' && c != '\x00'

namespace LocalStore

def empty : LocalStore := ⟨∅⟩

def row? (s : LocalStore) (table key : String) : Option ProjectionRow :=
  (s.tables.lookup (sqlName table)).bind fun t => t.rows.lookup key

/-- `CREATE TABLE IF NOT EXISTS`. -/
def createTable (s : LocalStore) (table : String) : LocalStore :=
  match s.tables.lookup (sqlName table) with
  | some _ => s
  | none => ⟨s.tables.insert (sqlName table) ⟨projectionName table, ∅⟩⟩

def setRow (s : LocalStore) (table key : String) (row : ProjectionRow) : LocalStore :=
  match s.tables.lookup (sqlName table) with
  | none => s
  | some t => ⟨s.tables.insert (sqlName table) { t with rows := t.rows.insert key row }⟩

/-- `INSERT .. ON CONFLICT(key) DO UPDATE SET data_json`: an existing row keeps its flag. -/
def upsert (s : LocalStore) (table key dataJson : String) : LocalStore :=
  s.setRow table key ⟨dataJson, ((s.row? table key).map ProjectionRow.contaminated).getD false⟩

/-- `write`: the table is created outside the transaction of the upsert. -/
def write (lib : StoreLibraries) (fault : Option StoreFault) (s : LocalStore)
    (table key : String) (data : JsonValue) : Except TirBaseError Unit × LocalStore :=
  let dataJson := lib.json.toString data
  let projTable := projectionName table
  if quotable table then
    match fault with
    | some (.createTable e) =>
      (.error (.localStoreWriteFailed s!"CREATE TABLE {projTable} failed: {e}"), s)
    | some (.beginTransaction e) =>
      (.error (.localStoreWriteFailed s!"BEGIN failed: {e}"), s.createTable table)
    | some (.upsert e) =>
      (.error (.localStoreWriteFailed s!"Upsert into {projTable} failed: {e}"),
        s.createTable table)
    | some (.commit e) =>
      (.error (.localStoreWriteFailed s!"COMMIT failed: {e}"), s.createTable table)
    | none => (.ok (), (s.createTable table).upsert table key dataJson)
  else lib.unquotedWrite table key dataJson s

def parseRow (lib : StoreLibraries) (dataJson : String) : Except TirBaseError JsonValue :=
  match lib.json.fromStr dataJson with
  | .ok value => .ok value
  | .error e => .error (.localStoreWriteFailed s!"JSON deserialisation failed: {e}")

/-- `read`: a missing row or table reads as nothing. -/
def read (lib : StoreLibraries) (s : LocalStore) (table key : String) :
    Except TirBaseError (Option JsonValue) :=
  if quotable table then
    match s.row? table key with
    | none => .ok none
    | some row => (parseRow lib row.dataJson).map some
  else
    match lib.unquotedRead table key s with
    | .error e => .error e
    | .ok none => .ok none
    | .ok (some dataJson) => (parseRow lib dataJson).map some

/-- `mark_row_contaminated`: an absent key is not an error. -/
def markRowContaminated (s : LocalStore) (table key : String) : LocalStore :=
  let s := s.createTable table
  match s.row? table key with
  | none => s
  | some row => s.setRow table key { row with contaminated := true }

/-- `clear_row_contamination`: neither is an absent key here. -/
def clearRowContamination (s : LocalStore) (table key : String) : LocalStore :=
  match s.row? table key with
  | none => s
  | some row => s.setRow table key { row with contaminated := false }

/-- The keys of every projection table, under the logical name of the table. -/
def projectedKeys (s : LocalStore) : List (String × String) :=
  s.tables.entries.flatMap fun t =>
    t.2.rows.keys.map fun key => (String.ofList (t.2.name.toList.drop "proj_".length), key)

@[simp] theorem row?_createTable (s : LocalStore) (table table' key : String) :
    (s.createTable table).row? table' key = s.row? table' key := by
  unfold createTable
  cases htable : s.tables.lookup (sqlName table) with
  | some t => rfl
  | none =>
    unfold row?
    generalize sqlName table' = name
    by_cases hname : name = sqlName table
    · subst hname
      simp [htable]
    · simp [AList.lookup_insert_ne hname]

theorem row?_congr (s : LocalStore) {table table' : String} (h : sqlName table = sqlName table')
    (key : String) : s.row? table key = s.row? table' key := by
  unfold row?
  generalize sqlName table = name at h
  subst h
  rfl

theorem isSome_lookup_createTable (s : LocalStore) (table : String) :
    ((s.createTable table).tables.lookup (sqlName table)).isSome = true := by
  unfold createTable
  cases htable : s.tables.lookup (sqlName table) with
  | some t => simp [htable]
  | none => simp

theorem row?_setRow_self {s : LocalStore} {table key : String}
    (h : (s.tables.lookup (sqlName table)).isSome = true) (row : ProjectionRow) :
    (s.setRow table key row).row? table key = some row := by
  obtain ⟨t, ht⟩ := Option.isSome_iff_exists.mp h
  simp [setRow, row?, ht]

theorem row?_setRow_other {s : LocalStore} {table table' key key' : String}
    (h : (sqlName table', key') ≠ (sqlName table, key)) (row : ProjectionRow) :
    (s.setRow table key row).row? table' key' = s.row? table' key' := by
  unfold setRow
  cases htable : s.tables.lookup (sqlName table) with
  | none => rfl
  | some t =>
    unfold row?
    generalize sqlName table' = name at h ⊢
    by_cases hname : name = sqlName table
    · subst hname
      have hkey : key' ≠ key := fun hk => h (by rw [hk])
      simp [htable, AList.lookup_insert_ne hkey]
    · simp [AList.lookup_insert_ne hname]

/-- After an upsert the key holds the text; the flag of its row stays. -/
theorem row?_upsert_self {s : LocalStore} {table key dataJson : String}
    (h : (s.tables.lookup (sqlName table)).isSome = true) :
    (s.upsert table key dataJson).row? table key =
      some ⟨dataJson, ((s.row? table key).map ProjectionRow.contaminated).getD false⟩ :=
  row?_setRow_self h _

theorem row?_write_self {lib : StoreLibraries} {s : LocalStore} {table key : String}
    (hname : quotable table = true) (data : JsonValue) :
    (s.write lib none table key data).2.row? table key =
      some ⟨lib.json.toString data,
        ((s.row? table key).map ProjectionRow.contaminated).getD false⟩ := by
  have htable := isSome_lookup_createTable s table
  simp [write, hname, row?_upsert_self htable]

theorem row?_write_other {lib : StoreLibraries} {s : LocalStore} {table table' key key' : String}
    (hname : quotable table = true) (fault : Option StoreFault) (data : JsonValue)
    (h : (sqlName table', key') ≠ (sqlName table, key)) :
    (s.write lib fault table key data).2.row? table' key' = s.row? table' key' := by
  simp only [write, hname, if_true]
  cases fault with
  | none => simp [upsert, row?_setRow_other h]
  | some f => cases f <;> simp

theorem row?_write_fault {lib : StoreLibraries} {s : LocalStore} {table : String}
    (hname : quotable table = true) (f : StoreFault) (key : String) (data : JsonValue)
    (table' key' : String) :
    (s.write lib (some f) table key data).2.row? table' key' = s.row? table' key' := by
  cases f <;> simp [write, hname]

end LocalStore

end TirBase
