import TirBase.ReadSchemas
import TirBase.SchemaExtension
import TirBase.SchemaMigration
import TirBase.StableSorts

/-! # What the identifier hash of a schema reads

The hashed bytes list the tables and their fields in the order of their names, repeated ones
included. Names hold none of the separators, so the bytes give the list back. -/
namespace TirBase.SchemaHashes
open SchemaText StableSorts

/-- The fields in order: what the hash reads of a table besides its name. -/
def columns (t : TableDef) : List (String × FieldType) :=
  (t.fields.insertionSort fun a b => a.name ≤ b.name).map fun f => (f.name, f.fieldType)

/-- The tables in order: what the hash reads of a schema. -/
def rows (s : Schema) : List (String × List (String × FieldType)) :=
  (s.tables.insertionSort fun a b => a.name ≤ b.name).map fun t => (t.name, columns t)

theorem columns_eq_iff {t u : TableDef} : columns t = columns u ↔
    ∀ f, (group FieldDef.name t.fields f).map FieldDef.fieldType =
      (group FieldDef.name u.fields f).map FieldDef.fieldType :=
  map_insertionSort_eq_iff _ (fun _ _ => Iff.rfl) FieldDef.fieldType

theorem rows_eq_iff {a b : Schema} : rows a = rows b ↔
    ∀ n, (group TableDef.name a.tables n).map columns =
      (group TableDef.name b.tables n).map columns :=
  map_insertionSort_eq_iff _ (fun _ _ => Iff.rfl) columns

def columnText (c : String × FieldType) : List Char :=
  c.1.toList ++ ':' :: (c.2.canonicalStr.toList ++ [';'])

def rowText (row : String × List (String × FieldType)) : List Char :=
  row.1.toList ++ '|' :: (row.2.flatMap columnText ++ ['|', '|'])

theorem utf8Bytes_flatMap {α : Type} (text : α → List Char) (xs : List α) :
    utf8Bytes (String.ofList (xs.flatMap text)) =
      xs.flatMap fun x => utf8Bytes (String.ofList (text x)) := by
  induction xs with
  | nil => rfl
  | cons x xs ih =>
    rw [List.flatMap_cons, List.flatMap_cons, String.ofList_append, utf8Bytes_append, ih]

theorem utf8Bytes_columnText (c : String × FieldType) :
    utf8Bytes (String.ofList (columnText c)) = utf8Bytes c.1 ++ utf8Bytes ":" ++
      utf8Bytes c.2.canonicalStr ++ utf8Bytes ";" := by
  have htext : String.ofList (columnText c) = c.1 ++ ":" ++ c.2.canonicalStr ++ ";" := by
    rw [← String.toList_inj]
    simp [columnText]
  rw [htext, utf8Bytes_append, utf8Bytes_append, utf8Bytes_append]

theorem utf8Bytes_rowText (row : String × List (String × FieldType)) :
    utf8Bytes (String.ofList (rowText row)) = utf8Bytes row.1 ++ utf8Bytes "|" ++
      (row.2.flatMap fun c => utf8Bytes c.1 ++ utf8Bytes ":" ++
        utf8Bytes c.2.canonicalStr ++ utf8Bytes ";") ++ utf8Bytes "||" := by
  have htext : String.ofList (rowText row) =
      row.1 ++ "|" ++ String.ofList (row.2.flatMap columnText) ++ "||" := by
    rw [← String.toList_inj]
    simp [rowText]
  rw [htext, utf8Bytes_append, utf8Bytes_append, utf8Bytes_append, utf8Bytes_flatMap]
  simp only [utf8Bytes_columnText]

theorem hashedBytes_eq (s : Schema) :
    s.hashedBytes = utf8Bytes (String.ofList ((rows s).flatMap rowText)) := by
  rw [utf8Bytes_flatMap, rows, Schema.hashedBytes, List.flatMap_map]
  simp only [utf8Bytes_rowText, columns, List.flatMap_map]

/-- Every table and every field is named by an identifier. -/
def Named (s : Schema) : Prop :=
  ∀ t ∈ s.tables, IsIdentifier t.name ∧ ∀ f ∈ t.fields, IsIdentifier f.name

theorem named_of_parse {lib : TextLibraries} {source : String} {s : Schema}
    (h : parse lib source = .ok s) : Named s := by
  have hw := writableSchema_of_parse lib h
  intro t ht
  exact ⟨(hw.tables t ht).name, fun f hf => ((hw.tables t ht).fields f hf).name⟩

theorem not_mem_identifier {s : String} (h : IsIdentifier s) {c : Char}
    (hc : isIdentPart c = false) : c ∉ s.toList := by
  intro hmem
  have hpart := IsIdent.part h c hmem
  rw [hc] at hpart
  exact absurd hpart (by decide)

/-- The first separator cuts a text in one way. -/
theorem separator_cancel {c : Char} {xs ys r r' : List Char} (hx : c ∉ xs) (hy : c ∉ ys)
    (h : xs ++ c :: r = ys ++ c :: r') : xs = ys ∧ r = r' := by
  induction xs generalizing ys with
  | nil =>
    cases ys with
    | nil => exact ⟨rfl, (List.cons.inj h).2⟩
    | cons y ys => exact absurd (List.cons.inj h).1 fun hc => hy (by simp [hc])
  | cons x xs ih =>
    cases ys with
    | nil => exact absurd (List.cons.inj h).1 fun hc => hx (by simp [hc])
    | cons y ys =>
      obtain ⟨rfl, htail⟩ := List.cons.inj h
      obtain ⟨rfl, hrest⟩ := ih (fun hmem => hx (by simp [hmem])) (fun hmem => hy (by simp [hmem]))
        htail
      exact ⟨rfl, hrest⟩

theorem identifier_ne_bar {s : String} (h : IsIdentifier s) (r r' : List Char) :
    s.toList ++ r ≠ '|' :: r' := by
  obtain ⟨c, cs, hcs, hc, -⟩ := h
  intro heq
  rw [hcs] at heq
  have hbar : c = '|' := (List.cons.inj heq).1
  rw [hbar] at hc
  exact absurd hc (by decide)

theorem columnText_cancel {c d : String × FieldType} (hc : IsIdentifier c.1)
    (hd : IsIdentifier d.1) {r r' : List Char} (h : columnText c ++ r = columnText d ++ r') :
    c = d ∧ r = r' := by
  have hcolon : c.1.toList ++ ':' :: (c.2.canonicalStr.toList ++ ';' :: r) =
      d.1.toList ++ ':' :: (d.2.canonicalStr.toList ++ ';' :: r') := by
    simpa [columnText] using h
  obtain ⟨hname, htype⟩ := separator_cancel (not_mem_identifier hc (by decide))
    (not_mem_identifier hd (by decide)) hcolon
  have hsemicolon : ∀ t : FieldType, ';' ∉ t.canonicalStr.toList := by
    intro t
    cases t <;> decide
  obtain ⟨htype, hrest⟩ := separator_cancel (hsemicolon c.2) (hsemicolon d.2) htype
  refine ⟨Prod.ext (String.toList_inj.mp hname) ?_, hrest⟩
  exact SchemaExtension.canonicalStr_injective (String.toList_inj.mp htype)

theorem columnTexts_cancel {cs ds : List (String × FieldType)}
    (hcs : ∀ c ∈ cs, IsIdentifier c.1) (hds : ∀ d ∈ ds, IsIdentifier d.1) {r r' : List Char}
    (h : cs.flatMap columnText ++ '|' :: r = ds.flatMap columnText ++ '|' :: r') :
    cs = ds ∧ r = r' := by
  induction cs generalizing ds with
  | nil =>
    cases ds with
    | nil => exact ⟨rfl, (List.cons.inj h).2⟩
    | cons d ds =>
      rw [List.flatMap_cons, columnText, List.append_assoc, List.append_assoc] at h
      exact absurd h.symm (identifier_ne_bar (hds d (by simp)) _ _)
  | cons c cs ih =>
    cases ds with
    | nil =>
      rw [List.flatMap_cons, columnText, List.append_assoc, List.append_assoc] at h
      exact absurd h (identifier_ne_bar (hcs c (by simp)) _ _)
    | cons d ds =>
      rw [List.flatMap_cons, List.flatMap_cons, List.append_assoc, List.append_assoc] at h
      obtain ⟨rfl, htail⟩ := columnText_cancel (hcs c (by simp)) (hds d (by simp)) h
      obtain ⟨rfl, hrest⟩ := ih (fun c hc => hcs c (by simp [hc]))
        (fun d hd => hds d (by simp [hd])) htail
      exact ⟨rfl, hrest⟩

def NamedRow (row : String × List (String × FieldType)) : Prop :=
  IsIdentifier row.1 ∧ ∀ c ∈ row.2, IsIdentifier c.1

theorem rowText_cancel {x y : String × List (String × FieldType)} (hx : NamedRow x)
    (hy : NamedRow y) {r r' : List Char} (h : rowText x ++ r = rowText y ++ r') :
    x = y ∧ r = r' := by
  have hbar : x.1.toList ++ '|' :: (x.2.flatMap columnText ++ '|' :: '|' :: r) =
      y.1.toList ++ '|' :: (y.2.flatMap columnText ++ '|' :: '|' :: r') := by
    simpa [rowText] using h
  obtain ⟨hname, hcolumns⟩ := separator_cancel (not_mem_identifier hx.1 (by decide))
    (not_mem_identifier hy.1 (by decide)) hbar
  obtain ⟨hcolumns, hrest⟩ := columnTexts_cancel hx.2 hy.2 hcolumns
  exact ⟨Prod.ext (String.toList_inj.mp hname) hcolumns, (List.cons.inj hrest).2⟩

theorem rowTexts_injective {xs ys : List (String × List (String × FieldType))}
    (hxs : ∀ x ∈ xs, NamedRow x) (hys : ∀ y ∈ ys, NamedRow y)
    (h : xs.flatMap rowText = ys.flatMap rowText) : xs = ys := by
  have hne : ∀ x : String × List (String × FieldType), rowText x ≠ [] := by
    intro x
    simp [rowText]
  induction xs generalizing ys with
  | nil =>
    cases ys with
    | nil => rfl
    | cons y ys =>
      rw [List.flatMap_cons] at h
      exact absurd (List.append_eq_nil_iff.mp h.symm).1 (hne y)
  | cons x xs ih =>
    cases ys with
    | nil =>
      rw [List.flatMap_cons] at h
      exact absurd (List.append_eq_nil_iff.mp h).1 (hne x)
    | cons y ys =>
      rw [List.flatMap_cons, List.flatMap_cons] at h
      obtain ⟨rfl, htail⟩ := rowText_cancel (hxs x (by simp)) (hys y (by simp)) h
      rw [ih (fun x hx => hxs x (by simp [hx])) (fun y hy => hys y (by simp [hy])) htail]

theorem namedRow_of_mem {s : Schema} (h : Named s) : ∀ row ∈ rows s, NamedRow row := by
  intro row hrow
  obtain ⟨t, ht, rfl⟩ := List.mem_map.mp hrow
  obtain ⟨hname, hfields⟩ := h t (List.mem_insertionSort _ |>.mp ht)
  refine ⟨hname, ?_⟩
  intro c hc
  obtain ⟨f, hf, rfl⟩ := List.mem_map.mp hc
  exact hfields f (List.mem_insertionSort _ |>.mp hf)

/-- The hashed bytes give the rows back. -/
theorem hashedBytes_eq_iff {a b : Schema} (ha : Named a) (hb : Named b) :
    a.hashedBytes = b.hashedBytes ↔ rows a = rows b := by
  constructor
  · intro h
    rw [hashedBytes_eq, hashedBytes_eq] at h
    have htext := String.ofList_injective (utf8Bytes_injective h)
    exact rowTexts_injective (namedRow_of_mem ha) (namedRow_of_mem hb) htext
  · intro h
    rw [hashedBytes_eq, hashedBytes_eq, h]

end TirBase.SchemaHashes
