import TirBase.PrintedItems

/-! # What the grammar reads from a printed schema -/
namespace TirBase.SchemaText
open Peg

variable (lib : TextLibraries)

def fieldLines (z : List Char) : List FieldDef → List Char
  | [] => z
  | f :: fs => "    ".toList ++ ((printField lib f).toList ++ '\n' :: fieldLines z fs)

def constraintLines (z : List Char) : List Constraint → List Char
  | [] => z
  | c :: cs => "    ".toList ++ ((printConstraint c).toList ++ '\n' :: constraintLines z cs)

def AllKept (z : List Char) : List FieldDef → Prop
  | [] => True
  | f :: fs => Kept f (fieldLines lib z fs) ∧ AllKept z fs

section Loops
variable {z : List Char} {fs : List FieldDef} {cs : List Constraint}

theorem length_fieldLines (z : List Char) (fs : List FieldDef) :
    fs.length + z.length ≤ (fieldLines lib z fs).length := by
  induction fs with
  | nil => simp [fieldLines]
  | cons f fs ih =>
    simp only [fieldLines, List.length_append, List.length_cons]
    omega

theorem length_constraintLines (z : List Char) (cs : List Constraint) :
    cs.length ≤ (constraintLines z cs).length := by
  induction cs with
  | nil => exact Nat.zero_le _
  | cons c cs ih =>
    simp only [constraintLines, List.length_append, List.length_cons]
    omega

theorem skip_printField {f : FieldDef} (hf : IsIdentifier f.name) (r : List Char) :
    skip ("    ".toList ++ ((printField lib f).toList ++ r)) =
      (printField lib f).toList ++ r := by
  have hblank : skip ("    ".toList ++ ((printField lib f).toList ++ r)) =
      skip ((printField lib f).toList ++ r) := rfl
  rw [hblank, toList_printField, List.append_assoc]
  exact skip_ident hf _

theorem skip_printConstraint {c : Constraint} (hc : WritableConstraint c) (r : List Char) :
    skip ("    ".toList ++ ((printConstraint c).toList ++ r)) =
      (printConstraint c).toList ++ r := by
  have hblank : skip ("    ".toList ++ ((printConstraint c).toList ++ r)) =
      skip ((printConstraint c).toList ++ r) := rfl
  rw [hblank]
  cases c with
  | primaryKey cols =>
    rw [printConstraint, String.toList_append, String.toList_append]
    exact skip_of_start (c := 'P') (by decide) (by decide) _
  | unique cols =>
    rw [printConstraint, String.toList_append, String.toList_append]
    exact skip_of_start (c := 'U') (by decide) (by decide) _
  | notNull col => exact absurd hc id

/-- The loop over the items reads the printed constraints and goes on behind them. -/
theorem many_constraints (h : ∀ c ∈ cs, WritableConstraint c) (n : ℕ) :
    (many skip tableItem (cs.length + n) (constraintLines z cs)).1 =
        cs.map constraintPair ++ (many skip tableItem n z).1 ∧
      skip (many skip tableItem (cs.length + n) (constraintLines z cs)).2 =
        skip (many skip tableItem n z).2 := by
  induction cs with
  | nil =>
    rw [List.length_nil, Nat.zero_add]
    exact ⟨rfl, rfl⟩
  | cons c cs ih =>
    have hc := h c (by simp)
    have hfirst : tableItem (skip (constraintLines z (c :: cs))) =
        some (constraintPair c, '\n' :: constraintLines z cs) := by
      rw [constraintLines, skip_printConstraint hc]
      exact tableItem_constraint hc _
    obtain ⟨hitems, hrest⟩ := ih fun c hc => h c (by simp [hc])
    obtain ⟨hitems', hrest'⟩ := many_congr (p := tableItem)
      (skip_newline (constraintLines z cs)) (cs.length + n)
    rw [List.length_cons, Nat.add_right_comm, many_of_some hfirst]
    exact ⟨by rw [hitems', hitems]; rfl, hrest'.trans hrest⟩

theorem many_fields (hlib : ReadsBack lib) (hw : ∀ f ∈ fs, WritableField f)
    (hk : AllKept lib z fs) (n : ℕ) :
    (many skip tableItem (fs.length + n) (fieldLines lib z fs)).1 =
        fs.map (fun f => .field (fieldPair lib f)) ++ (many skip tableItem n z).1 ∧
      skip (many skip tableItem (fs.length + n) (fieldLines lib z fs)).2 =
        skip (many skip tableItem n z).2 := by
  induction fs with
  | nil =>
    rw [List.length_nil, Nat.zero_add]
    exact ⟨rfl, rfl⟩
  | cons f fs ih =>
    have hf := hw f (by simp)
    obtain ⟨r, hr, hskip⟩ := fieldDef_kept lib hlib hf hk.1
    have hfirst : tableItem (skip (fieldLines lib z (f :: fs))) =
        some (.field (fieldPair lib f), r) := by
      rw [fieldLines, skip_printField lib hf.name, tableItem_field lib hf.name, hr]
      rfl
    obtain ⟨hitems, hrest⟩ := ih (fun f hf => hw f (by simp [hf])) hk.2
    obtain ⟨hitems', hrest'⟩ := many_congr (p := tableItem) hskip (fs.length + n)
    rw [List.length_cons, Nat.add_right_comm, many_of_some hfirst]
    exact ⟨by rw [hitems', hitems]; rfl, hrest'.trans hrest⟩

/-- When the items hold the printed fields first, each field kept to its line. -/
theorem allKept_of_many (hlib : ReadsBack lib) (hw : ∀ f ∈ fs, WritableField f) (n : ℕ)
    {m : List FieldDef}
    (h : parseFields lib (many skip tableItem (fs.length + n) (fieldLines lib z fs)).1 =
      fs ++ m) : AllKept lib z fs := by
  induction fs with
  | nil => trivial
  | cons f fs ih =>
    have hf := hw f (by simp)
    obtain ⟨p, r, hp⟩ : ∃ p r, fieldDef ((printField lib f).toList ++
        '\n' :: fieldLines lib z fs) = some (p, r) := by
      rw [toList_printField, List.append_assoc, List.cons_append, List.append_assoc,
        fieldDef_typed hf.name]
      exact ⟨_, _, rfl⟩
    have hfirst : tableItem (skip (fieldLines lib z (f :: fs))) = some (.field p, r) := by
      rw [fieldLines, skip_printField lib hf.name, tableItem_field lib hf.name, hp]
      rfl
    rw [List.length_cons, Nat.add_right_comm, many_of_some hfirst] at h
    obtain ⟨hhead, htail⟩ := List.cons.inj h
    have hk := kept_of_fieldDef lib hlib hf hp hhead
    obtain ⟨r', hr', hskip⟩ := fieldDef_kept lib hlib hf hk
    have hsame : r = r' := (Prod.mk.inj (Option.some.inj (hp.symm.trans hr'))).2
    refine ⟨hk, ih (fun f hf => hw f (by simp [hf])) ?_⟩
    rwa [hsame, (many_congr (p := tableItem) hskip (fs.length + n)).1] at htail

end Loops

/-- The name of the second field begins as a modifier that the first one lacks. -/
def Absorbs (f g : FieldDef) : Prop :=
  f.default = none ∧ (f.nullable = true ∧ ReadsAsNotNull g.name ∨ ReadsAsDefault g.name)

theorem kept_field_iff {f g : FieldDef} (hg : IsIdentifier g.name) (z : List Char) :
    Kept f ("    ".toList ++ ((printField lib g).toList ++ z)) ↔
      (∀ d, f.default = some d → HasLiteral d) ∧ ¬ Absorbs f g := by
  have htyped := isTyped_append g.fieldType (printedModifiers lib g ++ z)
  have htext : skip ("    ".toList ++ ((printField lib g).toList ++ z)) = g.name.toList ++
      ' ' :: (g.fieldType.canonicalStr.toList ++ (printedModifiers lib g ++ z)) := by
    rw [skip_printField lib hg, toList_printField, List.append_assoc, List.cons_append,
      List.append_assoc]
  have hnot := notNullModifier_word hg.part htyped
  have hdef := defaultModifier_word hg.part htyped
  constructor
  · intro h
    refine ⟨h.literal, ?_⟩
    rintro ⟨hd, ⟨hn, hread⟩ | hread⟩
    · have hnone := h.notNull hd hn
      rw [htext] at hnone
      exact hnot.mp hnone hread
    · have hnone := h.default hd
      rw [htext] at hnone
      exact hdef.mp hnone hread
  · rintro ⟨hl, hno⟩
    refine ⟨hl, ?_, ?_⟩
    · intro hd
      rw [htext]
      exact hdef.mpr fun h => hno ⟨hd, Or.inr h⟩
    · intro hd hn
      rw [htext]
      exact hnot.mpr fun h => hno ⟨hd, Or.inl ⟨hn, h⟩⟩

/-- What follows the last field starts no modifier. -/
structure Quiet (z : List Char) : Prop where
  default : defaultModifier (skip z) = none
  notNull : notNullModifier (skip z) = none

theorem Quiet.kept_iff {z : List Char} (h : Quiet z) (f : FieldDef) :
    Kept f z ↔ ∀ d, f.default = some d → HasLiteral d :=
  ⟨fun hk => hk.literal, fun hl => ⟨hl, fun _ => h.default, fun _ _ => h.notNull⟩⟩

theorem allKept_iff {z : List Char} {fs : List FieldDef} (hw : ∀ f ∈ fs, WritableField f)
    (hq : Quiet z) : AllKept lib z fs ↔
      (∀ f ∈ fs, ∀ d, f.default = some d → HasLiteral d) ∧
        fs.IsChain fun f g => ¬ Absorbs f g := by
  induction fs with
  | nil => exact iff_of_true trivial ⟨fun f hf => absurd hf (by simp), List.IsChain.nil⟩
  | cons f fs ih =>
    have hrec := ih fun f hf => hw f (by simp [hf])
    cases fs with
    | nil =>
      have hk : AllKept lib z [f] ↔ Kept f z := and_iff_left trivial
      rw [hk, hq.kept_iff]
      simp
    | cons g fs =>
      have hg := (hw g (by simp)).name
      have hk : AllKept lib z (f :: g :: fs) ↔
          Kept f (fieldLines lib z (g :: fs)) ∧ AllKept lib z (g :: fs) := Iff.rfl
      rw [hk, hrec, fieldLines, kept_field_iff lib hg, List.isChain_cons_cons]
      simp only [List.mem_cons, forall_eq_or_imp]
      tauto

theorem quiet_constraint {c : Constraint} (hc : WritableConstraint c) (r : List Char) :
    Quiet ("    ".toList ++ ((printConstraint c).toList ++ r)) := by
  cases c with
  | primaryKey cols =>
    have htext : (printConstraint (.primaryKey cols)).toList ++ r =
        "PRIMARY KEY (".toList ++ ((", ".intercalate cols).toList ++ ')' :: r) := by
      simp [printConstraint]
    rw [htext]
    exact ⟨rfl, rfl⟩
  | unique cols =>
    have htext : (printConstraint (.unique cols)).toList ++ r =
        "UNIQUE (".toList ++ ((", ".intercalate cols).toList ++ ')' :: r) := by
      simp [printConstraint]
    rw [htext]
    exact ⟨rfl, rfl⟩
  | notNull col => exact absurd hc id

/-- A line feed before the constraints, if there are any. -/
def gap {α : Type} (xs : List α) (z : List Char) : List Char :=
  if xs.isEmpty then z else '\n' :: z

theorem skip_gap {α : Type} (xs : List α) (z : List Char) :
    skip (gap xs z) = skip z := by
  cases xs with
  | nil => rfl
  | cons x xs => exact skip_newline z

theorem quiet_constraints {cs : List Constraint} (hw : ∀ c ∈ cs, WritableConstraint c)
    (z : List Char) :
    Quiet (gap cs (constraintLines ("  \x7d\n".toList ++ z) cs)) := by
  have hquiet : Quiet (constraintLines ("  \x7d\n".toList ++ z) cs) := by
    cases cs with
    | nil => exact ⟨rfl, rfl⟩
    | cons c cs => exact quiet_constraint (hw c (by simp)) _
  exact ⟨(congrArg defaultModifier (skip_gap cs _)).trans hquiet.default,
    (congrArg notNullModifier (skip_gap cs _)).trans hquiet.notNull⟩

structure WritableTable (t : TableDef) : Prop where
  name : IsIdentifier t.name
  policy : ∀ n, t.compactionPolicy = .aggressive n → n < 2 ^ 64
  fields : ∀ f ∈ t.fields, WritableField f
  constraints : ∀ c ∈ t.constraints, WritableConstraint c

def policyPair : CompactionPolicy → Option (List Char)
  | .aggressive n => some (toString n).toList
  | .none => none

def tablePair (t : TableDef) : TablePair :=
  ⟨t.name.toList, policyPair t.compactionPolicy,
    t.fields.map (fun f => .field (fieldPair lib f)) ++ t.constraints.map constraintPair⟩

def tableBody (t : TableDef) (z : List Char) : List Char :=
  gap t.fields (fieldLines lib
    (gap t.constraints (constraintLines ("  \x7d\n".toList ++ z) t.constraints)) t.fields)

theorem toList_fieldLines (z : List Char) (fs : List FieldDef) :
    (String.join (fs.map fun f => "    " ++ printField lib f ++ "\n")).toList ++ z =
      fieldLines lib z fs := by
  induction fs with
  | nil => simp [fieldLines]
  | cons f fs ih => simpa [fieldLines, String.toList_join] using ih

theorem toList_constraintLines (z : List Char) (cs : List Constraint) :
    (String.join (cs.map fun c => "    " ++ printConstraint c ++ "\n")).toList ++ z =
      constraintLines z cs := by
  induction cs with
  | nil => simp [constraintLines]
  | cons c cs ih => simpa [constraintLines, String.toList_join] using ih

theorem toList_gap {α : Type} (xs : List α) (z : List Char) :
    (if xs.isEmpty then "" else "\n").toList ++ z = gap xs z := by
  cases xs with
  | nil => rfl
  | cons x xs => simp [gap]

theorem toList_printTable (t : TableDef) (z : List Char) :
    (printTable lib t).toList ++ z = "  table ".toList ++ (t.name.toList ++
      (" \x7b\n    compaction = ".toList ++ ((printCompaction t.compactionPolicy).toList ++
        '\n' :: tableBody lib t z))) := by
  have hend : '\n' :: tableBody lib t z = "\n".toList ++ tableBody lib t z := by simp
  have hopen : " \x7b\n    compaction = ".toList = " \x7b\n".toList ++ "    compaction = ".toList := by
    simp
  rw [hend, hopen, tableBody, ← toList_gap, ← toList_gap, ← toList_fieldLines,
    ← toList_constraintLines]
  delta printTable
  simp only [String.toList_append, List.append_assoc]

theorem parseCompactionDirective_pair {p : CompactionPolicy}
    (hp : ∀ n, p = .aggressive n → n < 2 ^ 64) : parseCompactionDirective (policyPair p) = p := by
  cases p with
  | aggressive n =>
    rw [policyPair, parseCompactionDirective, parseU64_toString (hp n rfl)]
  | none => rfl

theorem compactionDirective_equals (z : List Char) :
    compactionDirective ("compaction = ".toList ++ z) =
      (((compactionAggressive (skip z)).map fun x => (some x.1, x.2)) <|>
        (keyword "none" (skip z)).map fun cs => (none, cs)) := by
  have hfirst : keyword "compaction" ("compaction = ".toList ++ z) =
      some (' ' :: '=' :: ' ' :: z) := by
    have htext : "compaction = ".toList ++ z =
        "compaction".toList ++ ' ' :: '=' :: ' ' :: z := by simp
    rw [htext, keyword_append]
  have hequals : keyword "=" (skip (' ' :: '=' :: ' ' :: z)) = some (' ' :: z) := by
    rw [skip_space, skip_of_start (by decide) (by decide)]
    exact keyword_append "=" _
  simp only [compactionDirective, hfirst, Option.bind_eq_bind, Option.bind_some]
  rw [hequals, Option.bind_some, skip_space]

theorem compactionDirective_printed (p : CompactionPolicy) (z : List Char) :
    compactionDirective ("compaction = ".toList ++ ((printCompaction p).toList ++ '\n' :: z)) =
      some (policyPair p, '\n' :: z) := by
  cases p with
  | none =>
    have htext : (printCompaction .none).toList ++ '\n' :: z =
        "none".toList ++ '\n' :: z := by
      rw [printCompaction]
    have hskip : skip ("none".toList ++ '\n' :: z) = "none".toList ++ '\n' :: z :=
      skip_of_start (c := 'n') (by decide) (by decide) _
    have haggressive : compactionAggressive ("none".toList ++ '\n' :: z) = none := rfl
    rw [htext, compactionDirective_equals, hskip, haggressive, keyword_append]
    rfl
  | aggressive n =>
    have htext : (printCompaction (.aggressive n)).toList ++ '\n' :: z =
        "aggressive".toList ++ '(' :: ((toString n).toList ++ ')' :: '\n' :: z) := by
      simp [printCompaction]
    have hskip : skip ("aggressive".toList ++ '(' :: ((toString n).toList ++ ')' :: '\n' :: z)) =
        "aggressive".toList ++ '(' :: ((toString n).toList ++ ')' :: '\n' :: z) :=
      skip_of_start (c := 'a') (by decide) (by decide) _
    have hsigned : IsSigned (toString n).toList [] (Nat.toDigits 10 n) :=
      ⟨Nat.toList_repr, Or.inl rfl, Nat.toDigits_ne_nil,
        fun d hd => Nat.isDigit_of_mem_toDigits (by omega) (by omega) hd⟩
    have hopen : keyword "(" (skip ('(' :: ((toString n).toList ++ ')' :: '\n' :: z))) =
        some ((toString n).toList ++ ')' :: '\n' :: z) := by
      rw [skip_of_start (by decide) (by decide)]
      exact keyword_append "(" _
    have hnumber : integerLiteral (skip ((toString n).toList ++ ')' :: '\n' :: z)) =
        some ((toString n).toList, ')' :: '\n' :: z) := by
      rw [hsigned.skip]
      apply integerLiteral_append hsigned
      intro c hc
      obtain rfl : ')' = c := Option.some.inj hc
      decide
    have hclose : keyword ")" (skip (')' :: '\n' :: z)) = some ('\n' :: z) :=
      keyword_append ")" _
    have haggressive : compactionAggressive
        ("aggressive".toList ++ '(' :: ((toString n).toList ++ ')' :: '\n' :: z)) =
        some ((toString n).toList, '\n' :: z) := by
      simp only [compactionAggressive, keyword_append, hopen, hnumber, hclose,
        Option.bind_eq_bind, Option.bind_some]
      rfl
    rw [htext, compactionDirective_equals, hskip, haggressive]
    rfl

theorem tableDef_lines {n : List Char} (hn : IsIdent n) (p : CompactionPolicy)
    (body : List Char) :
    tableDef (skip ("  table ".toList ++ (n ++ (" \x7b\n    compaction = ".toList ++
      ((printCompaction p).toList ++ '\n' :: body))))) =
      (keyword "\x7d" (skip (many skip tableItem ('\n' :: body).length ('\n' :: body)).2)).map
        fun r => (⟨n, policyPair p,
          (many skip tableItem ('\n' :: body).length ('\n' :: body)).1⟩, r) := by
  have hname : ident (skip (' ' :: (n ++ (" \x7b\n    compaction = ".toList ++
      ((printCompaction p).toList ++ '\n' :: body))))) =
      some (n, " \x7b\n    compaction = ".toList ++ ((printCompaction p).toList ++ '\n' :: body)) := by
    rw [skip_space, skip_ident hn]
    exact ident_append (d := ' ') hn (by decide)
  have htable : keyword "table" (skip ("  table ".toList ++ (n ++ (" \x7b\n    compaction = ".toList ++
      ((printCompaction p).toList ++ '\n' :: body))))) = some (' ' :: (n ++
        (" \x7b\n    compaction = ".toList ++ ((printCompaction p).toList ++ '\n' :: body)))) := by
    have htext : "  table ".toList = ' ' :: ' ' :: ("table".toList ++ [' ']) := by simp
    rw [htext, List.cons_append, List.cons_append, skip_space, skip_space, List.append_assoc]
    rw [show "table".toList = 't' :: "able".toList by simp, List.cons_append,
      skip_of_start (by decide) (by decide), ← List.cons_append]
    exact keyword_append "table" _
  have hopen : keyword "\x7b" (skip (" \x7b\n    compaction = ".toList ++
      ((printCompaction p).toList ++ '\n' :: body))) =
      some ("\n    compaction = ".toList ++ ((printCompaction p).toList ++ '\n' :: body)) := by
    have htext : " \x7b\n    compaction = ".toList =
        ' ' :: '{' :: "\n    compaction = ".toList := by simp
    rw [htext, List.cons_append, List.cons_append, skip_space,
      skip_of_start (by decide) (by decide)]
    exact keyword_append "\x7b" _
  have hskip : skip ("\n    compaction = ".toList ++ ((printCompaction p).toList ++ '\n' :: body)) =
      "compaction = ".toList ++ ((printCompaction p).toList ++ '\n' :: body) := by
    have htext : "\n    compaction = ".toList =
        '\n' :: ' ' :: ' ' :: ' ' :: ' ' :: "compaction = ".toList := by simp
    rw [htext]
    simp only [List.cons_append, skip_newline, skip_space]
    exact skip_of_start (c := 'c') (by decide) (by decide) _
  simp only [tableDef, htable, hname, hopen, hskip, compactionDirective_printed,
    Option.bind_eq_bind, Option.bind_some]
  cases keyword "\x7d" (skip (many skip tableItem ('\n' :: body).length ('\n' :: body)).2) <;> rfl

end TirBase.SchemaText
