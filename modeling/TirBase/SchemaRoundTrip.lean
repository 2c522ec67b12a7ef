import TirBase.PrintedTables

/-! # A printed schema reads back

The printer puts the fields of a table line by line, but to the grammar a line has no end: the
name on the next line may begin as a modifier that the field before it lacks. -/
namespace TirBase.SchemaText
open Peg

variable (lib : TextLibraries)

/-- Every field of the table reads back: its default has a literal, and no field takes the front
of the next one's name. -/
structure TableReadsBack (t : TableDef) : Prop where
  literal : ∀ f ∈ t.fields, ∀ d, f.default = some d → HasLiteral d
  apart : t.fields.IsChain fun f g => ¬ Absorbs f g

section Tables
variable {t : TableDef} {z r : List Char}

theorem allKept_iff_tableReadsBack (hw : WritableTable t) :
    AllKept lib (gap t.constraints (constraintLines ("  \x7d\n".toList ++ z) t.constraints))
      t.fields ↔ TableReadsBack t := by
  rw [allKept_iff lib hw.fields (quiet_constraints hw.constraints z)]
  exact ⟨fun h => ⟨h.1, h.2⟩, fun h => ⟨h.literal, h.apart⟩⟩

theorem skip_tableBody : skip ('\n' :: tableBody lib t z) = skip (fieldLines lib
    (gap t.constraints (constraintLines ("  \x7d\n".toList ++ z) t.constraints)) t.fields) := by
  rw [skip_newline, tableBody, skip_gap]

theorem tableEnd (z : List Char) :
    skip ("  \x7d\n".toList ++ z) = '}' :: '\n' :: z := by
  have htext : "  \x7d\n".toList ++ z = ' ' :: ' ' :: '}' :: '\n' :: z := by simp
  rw [htext, skip_space, skip_space, skip_of_start (by decide) (by decide)]

theorem tableItem_end (z : List Char) : tableItem (skip ("  \x7d\n".toList ++ z)) = none := by
  rw [tableEnd]
  rfl

/-- The loop over the items reads the constraints behind the fields and stops at the brace. -/
theorem many_behind_fields (hw : WritableTable t) (n : ℕ) :
    (many skip tableItem (t.constraints.length + n)
        (gap t.constraints (constraintLines ("  \x7d\n".toList ++ z) t.constraints))).1 =
        t.constraints.map constraintPair ∧
      skip (many skip tableItem (t.constraints.length + n)
        (gap t.constraints (constraintLines ("  \x7d\n".toList ++ z) t.constraints))).2 =
        '}' :: '\n' :: z := by
  obtain ⟨hitems, hrest⟩ := many_constraints (z := "  \x7d\n".toList ++ z) hw.constraints n
  obtain ⟨hitems', hrest'⟩ := many_congr (p := tableItem)
    (skip_gap t.constraints (constraintLines ("  \x7d\n".toList ++ z) t.constraints))
    (t.constraints.length + n)
  rw [many_of_none (tableItem_end z)] at hitems hrest
  refine ⟨?_, ?_⟩
  · rw [hitems', hitems, List.append_nil]
  · rw [hrest', hrest, tableEnd]

theorem items_le_length (t : TableDef) (z : List Char) : ∃ n,
    ('\n' :: tableBody lib t z).length = t.fields.length + (t.constraints.length + n) := by
  have hgap : ∀ (α : Type) (xs : List α) (cs : List Char), cs.length ≤ (gap xs cs).length := by
    intro α xs cs
    cases xs <;> simp [gap]
  have hconstraints := length_constraintLines ("  \x7d\n".toList ++ z) t.constraints
  have hbehind := hgap _ t.constraints (constraintLines ("  \x7d\n".toList ++ z) t.constraints)
  have hfields := length_fieldLines lib
    (gap t.constraints (constraintLines ("  \x7d\n".toList ++ z) t.constraints)) t.fields
  have hbody := hgap _ t.fields (fieldLines lib
    (gap t.constraints (constraintLines ("  \x7d\n".toList ++ z) t.constraints)) t.fields)
  refine ⟨('\n' :: tableBody lib t z).length - (t.fields.length + t.constraints.length), ?_⟩
  simp only [tableBody, List.length_cons] at hbody ⊢
  omega

theorem tableDef_kept (hlib : ReadsBack lib) (hw : WritableTable t) (hk : TableReadsBack t) :
    tableDef (skip ((printTable lib t).toList ++ z)) =
      some (tablePair lib t, '\n' :: z) := by
  obtain ⟨n, hn⟩ := items_le_length lib t z
  obtain ⟨hitems, hrest⟩ := many_fields lib hlib hw.fields
    ((allKept_iff_tableReadsBack lib (z := z) hw).mpr hk) (t.constraints.length + n)
  obtain ⟨hitems', hrest'⟩ := many_congr (p := tableItem) (skip_tableBody lib (t := t))
    (t.fields.length + (t.constraints.length + n))
  obtain ⟨hbehind, hend⟩ := many_behind_fields (z := z) hw n
  have hclose : keyword "\x7d" ('}' :: '\n' :: z) = some ('\n' :: z) := keyword_append "\x7d" _
  rw [toList_printTable, tableDef_lines hw.name, hn, hitems', hrest', hitems, hrest, hbehind, hend,
    hclose]
  rfl

/-- A table that reads back as it was printed kept its fields apart. -/
theorem tableReadsBack_of_tableDef (hlib : ReadsBack lib) (hw : WritableTable t) {p : TablePair}
    (hp : tableDef (skip ((printTable lib t).toList ++ z)) = some (p, r))
    (ht : parseTableDef lib p = t) : TableReadsBack t := by
  obtain ⟨n, hn⟩ := items_le_length lib t z
  rw [toList_printTable, tableDef_lines hw.name, hn] at hp
  obtain ⟨cs, -, hcs⟩ := Option.map_eq_some_iff.mp hp
  obtain ⟨rfl, -⟩ := Prod.mk.inj hcs
  have hfields := congrArg TableDef.fields ht
  have hcongr := (many_congr (p := tableItem) (skip_tableBody lib (t := t) (z := z))
    (t.fields.length + (t.constraints.length + n))).1
  apply (allKept_iff_tableReadsBack lib (z := z) hw).mp
  apply allKept_of_many lib hlib hw.fields (t.constraints.length + n) (m := [])
  rw [List.append_nil, ← hcongr]
  exact hfields

theorem parseFields_pairs (hlib : ReadsBack lib) {fs : List FieldDef}
    (hw : ∀ f ∈ fs, WritableField f)
    (hl : ∀ f ∈ fs, ∀ d, f.default = some d → HasLiteral d) (cs : List Constraint) :
    parseFields lib (fs.map (fun f => .field (fieldPair lib f)) ++ cs.map constraintPair) = fs := by
  induction fs with
  | nil =>
    rw [List.map_nil, List.nil_append, parseFields, List.filterMap_eq_nil_iff]
    intro item hitem
    obtain ⟨c, -, rfl⟩ := List.mem_map.mp hitem
    cases c <;> rfl
  | cons f fs ih =>
    have hrec := ih (fun f hf => hw f (by simp [hf])) fun f hf => hl f (by simp [hf])
    have hf := parseFieldDef_pair lib hlib (hw f (by simp)) (hl f (by simp))
    have hcons : parseFields lib ((f :: fs).map (fun f => .field (fieldPair lib f)) ++
        cs.map constraintPair) = parseFieldDef lib (fieldPair lib f) ::
          parseFields lib (fs.map (fun f => .field (fieldPair lib f)) ++
            cs.map constraintPair) := rfl
    rw [hcons, hf, hrec]

theorem parseConstraints_fields (fs : List FieldDef) (items : List ItemPair) :
    parseConstraints (fs.map (fun f => .field (fieldPair lib f)) ++ items) =
      parseConstraints items := by
  induction fs with
  | nil => rfl
  | cons f fs ih => exact ih

theorem parseConstraints_pairs {cs : List Constraint} (hw : ∀ c ∈ cs, WritableConstraint c) :
    parseConstraints (cs.map constraintPair) = cs := by
  induction cs with
  | nil => rfl
  | cons c cs ih =>
    have hrec := ih fun c hc => hw c (by simp [hc])
    have hnames : ∀ cols : List String, (cols.map String.toList).map String.ofList = cols := by
      intro cols
      simp [Function.comp_def]
    cases c with
    | primaryKey cols =>
      have hcons : parseConstraints ((Constraint.primaryKey cols :: cs).map constraintPair) =
          .primaryKey ((cols.map String.toList).map String.ofList) ::
            parseConstraints (cs.map constraintPair) := rfl
      rw [hcons, hrec, hnames]
    | unique cols =>
      have hcons : parseConstraints ((Constraint.unique cols :: cs).map constraintPair) =
          .unique ((cols.map String.toList).map String.ofList) ::
            parseConstraints (cs.map constraintPair) := rfl
      rw [hcons, hrec, hnames]
    | notNull col => exact absurd (hw (.notNull col) (by simp)) id

theorem parseTableDef_pair (hlib : ReadsBack lib) (hw : WritableTable t) (hk : TableReadsBack t) :
    parseTableDef lib (tablePair lib t) = t := by
  have hfields := parseFields_pairs lib hlib hw.fields hk.literal t.constraints
  have hconstraints : parseConstraints (tablePair lib t).items = t.constraints := by
    rw [tablePair, parseConstraints_fields, parseConstraints_pairs hw.constraints]
  have hpolicy := parseCompactionDirective_pair hw.policy
  obtain ⟨name, fields, policy, constraints⟩ := t
  simp only [parseTableDef, tablePair, String.ofList_toList]
  rw [hpolicy]
  exact congrArg₂ (fun fs cs => TableDef.mk name fs policy cs) hfields hconstraints

end Tables

structure WritableSchema (s : Schema) : Prop where
  version : '"' ∉ s.version.toList
  tables : ∀ t ∈ s.tables, WritableTable t

def tableTexts (z : List Char) : List TableDef → List Char
  | [] => z
  | t :: ts => '\n' :: ((printTable lib t).toList ++ tableTexts z ts)

theorem toList_tableTexts (z : List Char) (ts : List TableDef) :
    (String.join (ts.map fun t => "\n" ++ printTable lib t)).toList ++ z =
      tableTexts lib z ts := by
  induction ts with
  | nil => simp [tableTexts]
  | cons t ts ih => simpa [tableTexts, String.toList_join] using ih

theorem length_tableTexts (z : List Char) (ts : List TableDef) :
    ts.length ≤ (tableTexts lib z ts).length := by
  induction ts with
  | nil => exact Nat.zero_le _
  | cons t ts ih =>
    simp only [tableTexts, List.length_append, List.length_cons]
    omega

theorem toList_print (s : Schema) : (print lib s).toList =
    "schema \x7b\n  version = \"".toList ++ (s.version.toList ++
      '"' :: '\n' :: tableTexts lib "\x7d\n".toList s.tables) := by
  have hopen : "schema \x7b\n  version = \"".toList =
      "schema \x7b\n".toList ++ "  version = \"".toList := by simp
  have hline : '"' :: '\n' :: tableTexts lib "\x7d\n".toList s.tables =
      "\"\n".toList ++ tableTexts lib "\x7d\n".toList s.tables := by simp
  rw [hopen, hline, ← toList_tableTexts]
  delta print
  simp only [String.toList_append, List.append_assoc]

/-- A schema up to its tables, whatever their texts are. -/
theorem schema_lines {version : List Char} (hv : '"' ∉ version) (body : List Char) :
    schema ("schema \x7b\n  version = \"".toList ++ (version ++ '"' :: body)) =
      (keyword "\x7d" (skip (many skip tableDef body.length body).2)).bind fun cs =>
        if (skip cs).isEmpty then
          some ⟨'"' :: (version ++ ['"']), (many skip tableDef body.length body).1⟩
        else none := by
  have hschema : keyword "schema" (skip ("schema \x7b\n  version = \"".toList ++
      (version ++ '"' :: body))) =
      some (" \x7b\n  version = \"".toList ++ (version ++ '"' :: body)) := by
    have htext : "schema \x7b\n  version = \"".toList =
        "schema".toList ++ " \x7b\n  version = \"".toList := by simp
    have hskip : skip ("schema".toList ++ (" \x7b\n  version = \"".toList ++
        (version ++ '"' :: body))) =
        "schema".toList ++ (" \x7b\n  version = \"".toList ++ (version ++ '"' :: body)) :=
      skip_of_start (c := 's') (by decide) (by decide) _
    rw [htext, List.append_assoc, hskip, keyword_append]
  have hopen : keyword "\x7b" (skip (" \x7b\n  version = \"".toList ++ (version ++ '"' :: body))) =
      some ("\n  version = \"".toList ++ (version ++ '"' :: body)) := by
    have htext : " \x7b\n  version = \"".toList = ' ' :: '{' :: "\n  version = \"".toList := by
      simp
    rw [htext, List.cons_append, List.cons_append, skip_space,
      skip_of_start (by decide) (by decide)]
    exact keyword_append "\x7b" _
  have hversion : versionDirective (skip ("\n  version = \"".toList ++
      (version ++ '"' :: body))) = some ('"' :: (version ++ ['"']), body) := by
    have htext : "\n  version = \"".toList ++ (version ++ '"' :: body) =
        '\n' :: ' ' :: ' ' :: ("version".toList ++
          ' ' :: '=' :: ' ' :: '"' :: (version ++ '"' :: body)) := by simp
    have hskip : skip ("version".toList ++ ' ' :: '=' :: ' ' :: '"' :: (version ++ '"' :: body)) =
        "version".toList ++ ' ' :: '=' :: ' ' :: '"' :: (version ++ '"' :: body) :=
      skip_of_start (c := 'v') (by decide) (by decide) _
    have hequals : keyword "=" (skip (' ' :: '=' :: ' ' :: '"' :: (version ++ '"' :: body))) =
        some (' ' :: '"' :: (version ++ '"' :: body)) := by
      rw [skip_space, skip_of_start (by decide) (by decide)]
      exact keyword_append "=" _
    rw [htext, skip_newline, skip_space, skip_space, hskip, versionDirective, keyword_append]
    simp only [Option.bind_eq_bind, Option.bind_some]
    rw [hequals, Option.bind_some, skip_space, skip_of_start (by decide) (by decide)]
    exact stringLiteral_append hv
  simp only [schema, hschema, hopen, hversion, Option.bind_eq_bind, Option.bind_some]

section Schemas
variable {s : Schema} {ts : List TableDef} {z : List Char}

theorem skip_tableTexts (t : TableDef) (ts : List TableDef) (z : List Char) :
    skip (tableTexts lib z (t :: ts)) =
      skip ((printTable lib t).toList ++ tableTexts lib z ts) := by
  rw [tableTexts, skip_newline]

theorem many_tables (hlib : ReadsBack lib) (hw : ∀ t ∈ ts, WritableTable t)
    (hk : ∀ t ∈ ts, TableReadsBack t) (n : ℕ) :
    (many skip tableDef (ts.length + n) (tableTexts lib z ts)).1 =
        ts.map (tablePair lib) ++ (many skip tableDef n z).1 ∧
      skip (many skip tableDef (ts.length + n) (tableTexts lib z ts)).2 =
        skip (many skip tableDef n z).2 := by
  induction ts with
  | nil =>
    rw [List.length_nil, Nat.zero_add]
    exact ⟨rfl, rfl⟩
  | cons t ts ih =>
    have hfirst : tableDef (skip (tableTexts lib z (t :: ts))) =
        some (tablePair lib t, '\n' :: tableTexts lib z ts) := by
      rw [skip_tableTexts]
      exact tableDef_kept lib hlib (hw t (by simp)) (hk t (by simp))
    obtain ⟨hitems, hrest⟩ := ih (fun t ht => hw t (by simp [ht])) fun t ht => hk t (by simp [ht])
    obtain ⟨hitems', hrest'⟩ := many_congr (p := tableDef)
      (skip_newline (tableTexts lib z ts)) (ts.length + n)
    rw [List.length_cons, Nat.add_right_comm, many_of_some hfirst]
    exact ⟨by rw [hitems', hitems]; rfl, hrest'.trans hrest⟩

/-- When the loop reads the printed tables as they were, each of them kept its fields apart. -/
theorem tableReadsBack_of_many (hlib : ReadsBack lib) (hw : ∀ t ∈ ts, WritableTable t) (n : ℕ)
    (h : (many skip tableDef (ts.length + n) (tableTexts lib z ts)).1.map
      (parseTableDef lib) = ts) : ∀ t ∈ ts, TableReadsBack t := by
  induction ts with
  | nil => exact fun t ht => absurd ht (by simp)
  | cons t ts ih =>
    rw [List.length_cons, Nat.add_right_comm] at h
    cases hp : tableDef (skip (tableTexts lib z (t :: ts))) with
    | none =>
      rw [many_of_none hp] at h
      exact absurd h (by simp)
    | some x =>
      obtain ⟨p, r⟩ := x
      rw [many_of_some hp, List.map_cons] at h
      obtain ⟨hhead, htail⟩ := List.cons.inj h
      rw [skip_tableTexts] at hp
      have hk := tableReadsBack_of_tableDef lib hlib (hw t (by simp)) hp hhead
      have hread := tableDef_kept lib hlib (hw t (by simp)) hk (z := tableTexts lib z ts)
      have hr : r = '\n' :: tableTexts lib z ts :=
        (Prod.mk.inj (Option.some.inj (hp.symm.trans hread))).2
      rw [hr, (many_congr (p := tableDef) (skip_newline (tableTexts lib z ts)) _).1] at htail
      intro u hu
      rcases List.mem_cons.mp hu with rfl | hu
      · exact hk
      · exact ih (fun t ht => hw t (by simp [ht])) htail u hu

theorem tables_le_length (ts : List TableDef) (z : List Char) :
    ∃ n, ('\n' :: tableTexts lib z ts).length = ts.length + n := by
  have hlen := length_tableTexts lib z ts
  refine ⟨('\n' :: tableTexts lib z ts).length - ts.length, ?_⟩
  rw [List.length_cons]
  omega

theorem parse_print_of_kept (hlib : ReadsBack lib) (hw : WritableSchema s)
    (hk : ∀ t ∈ s.tables, TableReadsBack t) : parse lib (print lib s) = .ok s := by
  obtain ⟨n, hn⟩ := tables_le_length lib s.tables "\x7d\n".toList
  obtain ⟨hitems, hrest⟩ := many_tables lib (z := "\x7d\n".toList) hlib hw.tables hk n
  obtain ⟨hitems', hrest'⟩ := many_congr (p := tableDef)
    (skip_newline (tableTexts lib "\x7d\n".toList s.tables)) (s.tables.length + n)
  have hend : many skip tableDef n "\x7d\n".toList = ([], "\x7d\n".toList) := many_of_none rfl
  have hclose : keyword "\x7d" (skip "\x7d\n".toList) = some ['\n'] := rfl
  have hread : schema (print lib s).toList =
      some ⟨'"' :: (s.version.toList ++ ['"']), s.tables.map (tablePair lib)⟩ := by
    rw [toList_print, schema_lines hw.version, hn, hitems', hrest', hitems, hrest, hend, hclose,
      List.append_nil]
    rfl
  have htables : (s.tables.map (tablePair lib)).map (parseTableDef lib) = s.tables := by
    rw [List.map_map]
    conv_rhs => rw [← List.map_id s.tables]
    apply List.map_congr_left
    intro t ht
    exact parseTableDef_pair lib hlib (hw.tables t ht) (hk t ht)
  rw [parse, hread]
  simp only [htables, unquoted_quoted, String.ofList_toList]

theorem kept_of_parse_print (hlib : ReadsBack lib) (hw : WritableSchema s)
    (h : parse lib (print lib s) = .ok s) : ∀ t ∈ s.tables, TableReadsBack t := by
  obtain ⟨n, hn⟩ := tables_le_length lib s.tables "\x7d\n".toList
  rw [parse] at h
  cases hp : schema (print lib s).toList with
  | none =>
    rw [hp] at h
    exact absurd h (by simp)
  | some p =>
    rw [hp] at h
    have htables : p.tables.map (parseTableDef lib) = s.tables :=
      congrArg Schema.tables (Except.ok.inj h)
    rw [toList_print, schema_lines hw.version, hn] at hp
    obtain ⟨cs, -, hcs⟩ := Option.bind_eq_some_iff.mp hp
    split at hcs
    · obtain rfl := Option.some.inj hcs
      have hcongr := (many_congr (p := tableDef)
        (skip_newline (tableTexts lib "\x7d\n".toList s.tables)) (s.tables.length + n)).1
      apply tableReadsBack_of_many lib (z := "\x7d\n".toList) hlib hw.tables n
      rwa [← hcongr]
    · exact absurd hcs (by simp)

end Schemas
end TirBase.SchemaText
