import TirBase.PrintedFields

/-! # What the grammar reads from the printed lines of a table -/
namespace TirBase.SchemaText
open Peg

structure WritableField (f : FieldDef) : Prop where
  name : IsIdentifier f.name
  default : ∀ d, f.default = some d → Writable d

variable (lib : TextLibraries)

def printedModifiers (f : FieldDef) : List Char :=
  (if f.nullable then [] else " NOT NULL".toList) ++
    match f.default with
    | some d => " DEFAULT ".toList ++ (printDefaultValue lib d).toList
    | none => []

theorem toList_printField (f : FieldDef) : (printField lib f).toList =
    f.name.toList ++ ' ' :: (f.fieldType.canonicalStr.toList ++ printedModifiers lib f) := by
  rw [printField, String.toList_intercalate, printedModifiers]
  cases f.nullable with
  | true =>
    cases f.default with
    | none => simp [List.intercalate, List.intersperse]
    | some d => simp [List.intercalate, List.intersperse]
  | false =>
    cases f.default with
    | none => simp [List.intercalate, List.intersperse]
    | some d => simp [List.intercalate, List.intersperse]

def fieldPair (f : FieldDef) : FieldPair :=
  ⟨f.name.toList, f.fieldType.canonicalStr.toList, !f.nullable, f.default.map (defaultPair lib)⟩

theorem parseFieldDef_pair (hlib : ReadsBack lib) {f : FieldDef} (hw : WritableField f)
    (hl : ∀ d, f.default = some d → HasLiteral d) : parseFieldDef lib (fieldPair lib f) = f := by
  have hdefault : (f.default.map (defaultPair lib)).map (parseDefaultValue lib) = f.default := by
    cases hd : f.default with
    | none => rfl
    | some d =>
      exact congrArg some (parseDefaultValue_pair lib hlib (hw.default d hd) (hl d hd))
  obtain ⟨name, type, nullable, default⟩ := f
  simp only [fieldPair, parseFieldDef, String.ofList_toList, parseFieldType_canonicalStr,
    Bool.not_not]
  exact congrArg _ hdefault

theorem fieldType_canonicalStr (t : FieldType) (r : List Char) :
    fieldType (t.canonicalStr.toList ++ r) = some (t.canonicalStr.toList, r) := by
  cases t <;> rfl

def modifiers (cs : List Char) : (Bool × Option DefaultPair) × List Char :=
  let (notNull, cs) := attempt notNullModifier (skip cs)
  let (default, cs) := attempt defaultModifier (skip cs)
  ((notNull.isSome, default), cs)

theorem fieldDef_typed {n : List Char} (hn : IsIdent n) (t : FieldType) (r : List Char) :
    fieldDef (n ++ ' ' :: (t.canonicalStr.toList ++ r)) =
      some (⟨n, t.canonicalStr.toList, (modifiers r).1.1, (modifiers r).1.2⟩, (modifiers r).2) := by
  have hskip : skip (' ' :: (t.canonicalStr.toList ++ r)) = t.canonicalStr.toList ++ r := by
    rw [skip_space]
    exact (isTyped_append t r).skip
  simp only [fieldDef, ident_append hn (show isIdentPart ' ' = false by decide),
    Option.bind_eq_bind, Option.bind_some, hskip, fieldType_canonicalStr]
  rfl

/-- Nothing behind the line of a field is read as a part of it. -/
structure Kept (f : FieldDef) (rest : List Char) : Prop where
  literal : ∀ d, f.default = some d → HasLiteral d
  default : f.default = none → defaultModifier (skip rest) = none
  notNull : f.default = none → f.nullable = true → notNullModifier (skip rest) = none

theorem modifiers_notNull (r : List Char) : modifiers (" NOT NULL".toList ++ r) =
    ((true, (attempt defaultModifier (skip r)).1), (attempt defaultModifier (skip r)).2) := rfl

theorem modifiers_of_none {cs : List Char} (h : notNullModifier (skip cs) = none) :
    modifiers cs = ((false, (attempt defaultModifier (skip cs)).1),
      (attempt defaultModifier (skip cs)).2) := by
  simp only [modifiers, attempt_of_none h, skip_skip]
  rfl

theorem notNullModifier_default (r : List Char) :
    notNullModifier (skip (" DEFAULT ".toList ++ r)) = none := rfl

theorem defaultModifier_default (hlib : ReadsBack lib) (d : DefaultValue) (r : List Char) :
    defaultModifier (skip (" DEFAULT ".toList ++ ((printDefaultValue lib d).toList ++ r))) =
      defaultValue ((printDefaultValue lib d).toList ++ r) := by
  have hkey : defaultModifier
      (skip (" DEFAULT ".toList ++ ((printDefaultValue lib d).toList ++ r))) =
        defaultValue (skip ((printDefaultValue lib d).toList ++ r)) := rfl
  rw [hkey, skip_printDefaultValue lib hlib]

theorem attempt_default (hlib : ReadsBack lib) {d : DefaultValue} (hw : Writable d)
    (hl : HasLiteral d) (r : List Char) :
    attempt defaultModifier
        (skip (" DEFAULT ".toList ++ ((printDefaultValue lib d).toList ++ '\n' :: r))) =
      (some (defaultPair lib d), '\n' :: r) := by
  apply attempt_of_some
  rw [defaultModifier_default lib hlib]
  exact defaultValue_printed lib hlib hw hl r

theorem attempt_infinite (hlib : ReadsBack lib) {d : DefaultValue} (hl : ¬ HasLiteral d)
    (r : List Char) :
    (attempt defaultModifier
      (skip (" DEFAULT ".toList ++ ((printDefaultValue lib d).toList ++ r)))).1 = none := by
  cases d with
  | real f =>
    have hnone := defaultValue_infinite lib hlib hl r
    rw [attempt_of_none]
    rw [defaultModifier_default lib hlib]
    exact hnone
  | text s => exact absurd trivial hl
  | integer i => exact absurd trivial hl
  | boolean b => exact absurd trivial hl
  | null => exact absurd trivial hl

section Lines
variable {f : FieldDef} {rest r : List Char}

theorem modifiers_printed (hlib : ReadsBack lib) (hw : WritableField f) (hk : Kept f rest) :
    ∃ r, modifiers (printedModifiers lib f ++ '\n' :: rest) =
      ((!f.nullable, f.default.map (defaultPair lib)), r) ∧ skip r = skip rest := by
  cases hd : f.default with
  | none =>
    have hdefault : attempt defaultModifier (skip ('\n' :: rest)) = (none, skip rest) := by
      rw [skip_newline]
      exact attempt_of_none (hk.default hd)
    cases hn : f.nullable with
    | true =>
      have hnot : notNullModifier (skip ('\n' :: rest)) = none := by
        rw [skip_newline]
        exact hk.notNull hd hn
      refine ⟨skip rest, ?_, skip_skip rest⟩
      rw [printedModifiers, hd, hn]
      change modifiers ('\n' :: rest) = _
      rw [modifiers_of_none hnot, hdefault]
      rfl
    | false =>
      refine ⟨skip rest, ?_, skip_skip rest⟩
      rw [printedModifiers, hd, hn]
      change modifiers (" NOT NULL".toList ++ '\n' :: rest) = _
      rw [modifiers_notNull, hdefault]
      rfl
  | some d =>
    have hdefault := attempt_default lib hlib (hw.default d hd) (hk.literal d hd) rest
    refine ⟨'\n' :: rest, ?_, skip_newline rest⟩
    cases hn : f.nullable with
    | true =>
      rw [printedModifiers, hd, hn, if_pos rfl, List.nil_append, List.append_assoc,
        modifiers_of_none (notNullModifier_default _), hdefault]
      rfl
    | false =>
      rw [printedModifiers, hd, hn, if_neg (by simp), List.append_assoc, List.append_assoc,
        modifiers_notNull, hdefault]
      rfl

theorem fieldDef_kept (hlib : ReadsBack lib) (hw : WritableField f) (hk : Kept f rest) :
    ∃ r, fieldDef ((printField lib f).toList ++ '\n' :: rest) = some (fieldPair lib f, r) ∧
      skip r = skip rest := by
  obtain ⟨r, hr, hskip⟩ := modifiers_printed lib hlib hw hk
  refine ⟨r, ?_, hskip⟩
  rw [toList_printField, List.append_assoc, List.cons_append, List.append_assoc,
    fieldDef_typed hw.name, hr]
  rfl

theorem kept_of_modifiers_none (hd : f.default = none)
    (hnull : (!(modifiers (printedModifiers lib f ++ '\n' :: rest)).1.1) = f.nullable)
    (hdef : (modifiers (printedModifiers lib f ++ '\n' :: rest)).1.2 = none) : Kept f rest := by
  have hliteral : ∀ d, f.default = some d → HasLiteral d := fun d h => by simp [hd] at h
  cases hn : f.nullable with
  | true =>
    have htext : printedModifiers lib f ++ '\n' :: rest = '\n' :: rest := by
      rw [printedModifiers, hd, hn]
      rfl
    have hnot : notNullModifier (skip rest) = none := by
      have hflag : (attempt notNullModifier (skip rest)).1.isSome = false := by
        rw [htext, hn] at hnull
        exact (Bool.not_eq_true' _).mp hnull
      exact attempt_fst_eq_none_iff.mp (Option.not_isSome_iff_eq_none.mp (by simp [hflag]))
    have hskip : notNullModifier (skip ('\n' :: rest)) = none := by
      rwa [skip_newline]
    rw [htext, modifiers_of_none hskip, attempt_fst_eq_none_iff, skip_newline] at hdef
    exact ⟨hliteral, fun _ => hdef, fun _ _ => hnot⟩
  | false =>
    have htext : printedModifiers lib f ++ '\n' :: rest = " NOT NULL".toList ++ '\n' :: rest := by
      rw [printedModifiers, hd, hn]
      rfl
    rw [htext, modifiers_notNull, attempt_fst_eq_none_iff, skip_newline] at hdef
    exact ⟨hliteral, fun _ => hdef, fun _ h => absurd (hn ▸ h) (by decide)⟩

theorem hasLiteral_of_modifiers (hlib : ReadsBack lib) {d : DefaultValue}
    (hd : f.default = some d)
    (hdef : (modifiers (printedModifiers lib f ++ '\n' :: rest)).1.2 ≠ none) : HasLiteral d := by
  by_contra hl
  apply hdef
  have hnone := attempt_infinite lib hlib hl ('\n' :: rest)
  cases hn : f.nullable with
  | true =>
    rw [printedModifiers, hd, hn, if_pos rfl, List.nil_append, List.append_assoc,
      modifiers_of_none (notNullModifier_default _)]
    exact hnone
  | false =>
    rw [printedModifiers, hd, hn, if_neg (by simp), List.append_assoc, List.append_assoc,
      modifiers_notNull]
    exact hnone

/-- A field that reads back as it was printed took nothing from behind its line. -/
theorem kept_of_fieldDef (hlib : ReadsBack lib) (hw : WritableField f) {p : FieldPair}
    (hp : fieldDef ((printField lib f).toList ++ '\n' :: rest) = some (p, r))
    (hf : parseFieldDef lib p = f) : Kept f rest := by
  rw [toList_printField, List.append_assoc, List.cons_append, List.append_assoc,
    fieldDef_typed hw.name] at hp
  obtain ⟨rfl, -⟩ := Prod.mk.inj (Option.some.inj hp)
  have hnullable : (!(modifiers (printedModifiers lib f ++ '\n' :: rest)).1.1) = f.nullable :=
    congrArg FieldDef.nullable hf
  have hdefault : (modifiers (printedModifiers lib f ++ '\n' :: rest)).1.2.map
      (parseDefaultValue lib) = f.default := congrArg FieldDef.default hf
  cases hd : f.default with
  | none =>
    rw [hd, Option.map_eq_none_iff] at hdefault
    exact kept_of_modifiers_none lib hd hnullable hdefault
  | some d =>
    have hsome : (modifiers (printedModifiers lib f ++ '\n' :: rest)).1.2 ≠ none := by
      intro h
      rw [h, hd] at hdefault
      exact absurd hdefault (by simp)
    have hl := hasLiteral_of_modifiers lib hlib hd hsome
    refine ⟨?_, fun h => absurd (hd ▸ h) (by simp), fun h => absurd (hd ▸ h) (by simp)⟩
    intro d' hd'
    rw [hd] at hd'
    exact Option.some.inj hd' ▸ hl

end Lines

def WritableConstraint : Constraint → Prop
  | .primaryKey cols => cols ≠ [] ∧ ∀ c ∈ cols, IsIdentifier c
  | .unique cols => cols ≠ [] ∧ ∀ c ∈ cols, IsIdentifier c
  | .notNull _ => False

def constraintPair : Constraint → ItemPair
  | .primaryKey cols => .primaryKey (cols.map String.toList)
  | .unique cols => .unique (cols.map String.toList)
  | .notNull _ => .unique []

/-- The columns behind the first one, as the printer joins them. -/
def furtherColumns (cols : List String) : List Char :=
  cols.flatMap fun c => ',' :: ' ' :: c.toList

theorem toList_columns (c : String) (cols : List String) :
    (", ".intercalate (c :: cols)).toList = c.toList ++ furtherColumns cols := by
  induction cols generalizing c with
  | nil => simp [furtherColumns]
  | cons d cols ih =>
    have hstep : (", ".intercalate (c :: d :: cols)).toList =
        c.toList ++ (", ".toList ++ (", ".intercalate (d :: cols)).toList) := by
      rw [String.toList_intercalate, String.toList_intercalate]
      simp [List.intercalate]
    rw [hstep, ih]
    rfl

theorem nextColumn_column {c : String} (hc : IsIdentifier c) {d : Char}
    (hd : isIdentPart d = false) (r : List Char) :
    nextColumn (',' :: ' ' :: (c.toList ++ d :: r)) = some (c.toList, d :: r) := by
  have hkey : keyword "," (',' :: ' ' :: (c.toList ++ d :: r)) =
      some (' ' :: (c.toList ++ d :: r)) := keyword_append "," _
  rw [nextColumn, hkey]
  change ident (skip (' ' :: (c.toList ++ d :: r))) = _
  rw [skip_space, skip_ident hc, ident_append hc hd]

theorem furtherColumns_start (cols : List String) (r : List Char) :
    ∃ d r', furtherColumns cols ++ ')' :: r = d :: r' ∧ isIdentPart d = false := by
  cases cols with
  | nil => exact ⟨')', r, rfl, by decide⟩
  | cons c cols => exact ⟨',', _, rfl, by decide⟩

theorem many_furtherColumns {cols : List String} (h : ∀ c ∈ cols, IsIdentifier c)
    (r : List Char) {n : ℕ} (hn : cols.length ≤ n) :
    many skip nextColumn n (furtherColumns cols ++ ')' :: r) =
      (cols.map String.toList, ')' :: r) := by
  induction cols generalizing n with
  | nil => exact many_of_none rfl
  | cons c cols ih =>
    obtain ⟨m, rfl⟩ : ∃ m, n = m + 1 := ⟨n - 1, by simp only [List.length_cons] at hn; omega⟩
    obtain ⟨d, r', hstart, hd⟩ := furtherColumns_start cols r
    have htext : furtherColumns (c :: cols) ++ ')' :: r =
        ',' :: ' ' :: (c.toList ++ (furtherColumns cols ++ ')' :: r)) := by
      simp [furtherColumns]
    have hfirst : nextColumn (skip (furtherColumns (c :: cols) ++ ')' :: r)) =
        some (c.toList, furtherColumns cols ++ ')' :: r) := by
      rw [htext, skip_of_start (by decide) (by decide), hstart]
      exact nextColumn_column (h c (by simp)) hd r'
    rw [many_of_some hfirst, ih (fun c hc => h c (by simp [hc]))
      (by simp only [List.length_cons] at hn; omega)]
    rfl

theorem length_furtherColumns (cols : List String) :
    cols.length ≤ (furtherColumns cols).length := by
  induction cols with
  | nil => exact Nat.le_refl _
  | cons c cols ih =>
    have hlen : (furtherColumns (c :: cols)).length =
        c.toList.length + 2 + (furtherColumns cols).length := by
      simp only [furtherColumns, List.flatMap_cons, List.length_append, List.length_cons]
    rw [hlen, List.length_cons]
    omega

theorem columnList_printed {cols : List String} (hne : cols ≠ [])
    (h : ∀ c ∈ cols, IsIdentifier c) (r : List Char) :
    columnList ('(' :: ((", ".intercalate cols).toList ++ ')' :: r)) =
      some (cols.map String.toList, r) := by
  obtain ⟨c, cols, rfl⟩ := List.exists_cons_of_ne_nil hne
  have hopen : keyword "(" ('(' :: ((", ".intercalate (c :: cols)).toList ++ ')' :: r)) =
      some (c.toList ++ (furtherColumns cols ++ ')' :: r)) := by
    rw [toList_columns, List.append_assoc]
    exact keyword_append "(" _
  have hfirst : ident (skip (c.toList ++ (furtherColumns cols ++ ')' :: r))) =
      some (c.toList, furtherColumns cols ++ ')' :: r) := by
    obtain ⟨d, r', hstart, hd⟩ := furtherColumns_start cols r
    rw [skip_ident (h c (by simp)), hstart]
    exact ident_append (h c (by simp)) hd
  have hrest := many_furtherColumns (fun c hc => h c (List.mem_cons_of_mem _ hc)) r
    (n := (furtherColumns cols ++ ')' :: r).length) (by
      have hlen := length_furtherColumns cols
      rw [List.length_append]
      omega)
  have hclose : keyword ")" (skip (')' :: r)) = some r := keyword_append ")" r
  simp only [columnList, hopen, hfirst, hrest, hclose, Option.bind_eq_bind, Option.bind_some]
  rfl

theorem tableItem_constraint {c : Constraint} (hc : WritableConstraint c) (r : List Char) :
    tableItem ((printConstraint c).toList ++ r) = some (constraintPair c, r) := by
  cases c with
  | primaryKey cols =>
    have hcols := columnList_printed hc.1 hc.2 r
    have htext : (printConstraint (.primaryKey cols)).toList ++ r =
        "PRIMARY KEY ".toList ++ '(' :: ((", ".intercalate cols).toList ++ ')' :: r) := by
      simp [printConstraint]
    have hrule : primaryKeyConstraint ("PRIMARY KEY ".toList ++
        '(' :: ((", ".intercalate cols).toList ++ ')' :: r)) =
        (columnList ('(' :: ((", ".intercalate cols).toList ++ ')' :: r))).bind
          fun x => some (.primaryKey x.1, x.2) := rfl
    rw [htext, tableItem, hrule, hcols]
    rfl
  | unique cols =>
    have hcols := columnList_printed hc.1 hc.2 r
    have htext : (printConstraint (.unique cols)).toList ++ r =
        "UNIQUE ".toList ++ '(' :: ((", ".intercalate cols).toList ++ ')' :: r) := by
      simp [printConstraint]
    have hprimary : primaryKeyConstraint ("UNIQUE ".toList ++
        '(' :: ((", ".intercalate cols).toList ++ ')' :: r)) = none := rfl
    have hrule : uniqueConstraint ("UNIQUE ".toList ++
        '(' :: ((", ".intercalate cols).toList ++ ')' :: r)) =
        (columnList ('(' :: ((", ".intercalate cols).toList ++ ')' :: r))).bind
          fun x => some (.unique x.1, x.2) := rfl
    rw [htext, tableItem, hprimary, hrule, hcols]
    rfl
  | notNull col => exact absurd hc id

theorem columnList_word {m r : List Char} (hm : ∀ d ∈ m, isIdentPart d = true) (hr : IsTyped r) :
    columnList (skip (m ++ ' ' :: r)) = none := by
  have hopen : keyword "(" (skip (m ++ ' ' :: r)) = none := by
    rcases skip_rest hm hr with ⟨-, hskip⟩ | ⟨hne, hskip⟩
    · rw [hskip]
      exact hr.keyword rfl (by decide)
    · rw [hskip]
      obtain ⟨c, cs, rfl⟩ := List.exists_cons_of_ne_nil hne
      have hc : '(' ≠ c := by
        intro h
        exact absurd (h ▸ hm c (by simp)) (by decide)
      exact literal_cons_ne hc
  rw [columnList, hopen]
  rfl

theorem uniqueConstraint_word {n r : List Char} (hn : ∀ d ∈ n, isIdentPart d = true)
    (hr : IsTyped r) : uniqueConstraint (n ++ ' ' :: r) = none := by
  rcases keyword_word (s := "UNIQUE") (n := n) (r := r) (by decide) with
    ⟨hkey, -⟩ | ⟨m, rfl, hkey⟩
  · rw [uniqueConstraint, hkey]
    rfl
  · have hcols := columnList_word (m := m) (fun d hd => hn d (by simp [hd])) hr
    simp only [uniqueConstraint, hkey, Option.bind_eq_bind, Option.bind_some, hcols,
      Option.bind_none]

theorem primaryKeyConstraint_word {n r : List Char} (hn : ∀ d ∈ n, isIdentPart d = true)
    (hr : IsTyped r) : primaryKeyConstraint (n ++ ' ' :: r) = none := by
  rcases keyword_word (s := "PRIMARY") (n := n) (r := r) (by decide) with
    ⟨hkey, -⟩ | ⟨m, rfl, hkey⟩
  · rw [primaryKeyConstraint, hkey]
    rfl
  · have hm : ∀ d ∈ m, isIdentPart d = true := fun d hd => hn d (by simp [hd])
    simp only [primaryKeyConstraint, hkey, Option.bind_eq_bind, Option.bind_some]
    rcases skip_rest hm hr with ⟨-, hskip⟩ | ⟨-, hskip⟩
    · have hsecond : keyword "KEY" (skip (m ++ ' ' :: r)) = none := by
        rw [hskip]
        exact hr.keyword rfl (by decide)
      rw [hsecond, Option.bind_none]
    · rw [hskip]
      rcases keyword_word (s := "KEY") (n := m) (r := r) (by decide) with
        ⟨hsecond, -⟩ | ⟨m', rfl, hsecond⟩
      · rw [hsecond, Option.bind_none]
      · have hcols := columnList_word (m := m') (fun d hd => hm d (by simp [hd])) hr
        rw [hsecond, Option.bind_some, hcols, Option.bind_none]

theorem tableItem_field {f : FieldDef} (hf : IsIdentifier f.name) (r : List Char) :
    tableItem ((printField lib f).toList ++ r) =
      (fieldDef ((printField lib f).toList ++ r)).map fun x => (.field x.1, x.2) := by
  have htyped := isTyped_append f.fieldType (printedModifiers lib f ++ r)
  have htext : (printField lib f).toList ++ r = f.name.toList ++
      ' ' :: (f.fieldType.canonicalStr.toList ++ (printedModifiers lib f ++ r)) := by
    rw [toList_printField, List.append_assoc, List.cons_append, List.append_assoc]
  rw [htext, tableItem, primaryKeyConstraint_word hf.part htyped,
    uniqueConstraint_word hf.part htyped]
  rfl

end TirBase.SchemaText
