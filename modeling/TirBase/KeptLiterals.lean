import Mathlib
import TirBase.SpelledSchemas

/-! # What the parser makes of the literals

The schema that is returned is compared with the tokens of the text. -/
namespace TirBase.KeptLiterals
open Peg SchemaText

def decimalMagnitude (ds : List Char) : ℚ :=
  (Nat.ofDigitChars 10 (ds.filter Char.isDigit) 0 : ℚ) /
    10 ^ (ds.dropWhile (· != '.')).tail.length

def decimalValue : List Char → ℚ
  | '-' :: ds => -decimalMagnitude ds
  | ds => decimalMagnitude ds

def doubleValue (bits : Fin (2 ^ 64)) : ℚ :=
  let exponent := bits.val / 2 ^ 52 % 2 ^ 11
  let fraction : ℚ := (bits.val % 2 ^ 52 : ℕ)
  let magnitude : ℚ :=
    if exponent = 0 then fraction / 2 ^ 1074 else (2 ^ 52 + fraction) * 2 ^ exponent / 2 ^ 1075
  if bits.val < 2 ^ 63 then magnitude else -magnitude

/-- No finite double is nearer to the number. -/
def Nearest (q : ℚ) (bits : Fin (2 ^ 64)) : Prop :=
  IsFinite bits ∧ ∀ bits', IsFinite bits' → |q - doubleValue bits| ≤ |q - doubleValue bits'|

/-- From here on a number is rounded to infinity: half a step beyond the largest double. -/
def doubleBound : ℚ := 2 ^ 1024 - 2 ^ 970

/-- What is documented of `str::parse::<f64>`: the nearest double, or an infinite one. -/
def ReadsDecimal (lib : TextLibraries) (text : List Char) : Prop :=
  if |decimalValue text| < doubleBound then
    Nearest (decimalValue text) (lib.parseFloat (String.ofList text))
  else ¬IsFinite (lib.parseFloat (String.ofList text))

def DefaultKept : DefaultPair → DefaultValue → Prop
  | .real text, .real bits => Nearest (decimalValue text) bits
  | .integer text, .integer n => n = signedValue text ∧ -2 ^ 63 ≤ n ∧ n < 2 ^ 63
  | .string text, .text s => text = '"' :: (s.toList ++ ['"'])
  | .boolTrue, .boolean b => b = true
  | .boolFalse, .boolean b => b = false
  | .null, .null => True
  | _, _ => False

def PolicyKept : Option (List Char) → CompactionPolicy → Prop
  | none, policy => policy = .none
  | some text, policy =>
    ∃ n : ℕ, policy = .aggressive n ∧ (n : ℤ) = signedValue text ∧ n < 2 ^ 64

structure FieldKept (f : FieldPair) (d : FieldDef) : Prop where
  name : d.name.toList = f.ident
  fieldType : d.fieldType.canonicalStr.toList = f.fieldType
  nullable : d.nullable = !f.notNullModifier
  default : Option.Rel DefaultKept f.defaultModifier d.default

def ConstraintKept : ItemPair → Constraint → Prop
  | .primaryKey columns, .primaryKey names => names.map String.toList = columns
  | .unique columns, .unique names => names.map String.toList = columns
  | _, _ => False

def fieldOf : ItemPair → Option FieldPair
  | .field f => some f
  | _ => none

def isConstraint : ItemPair → Bool
  | .field _ => false
  | _ => true

def fieldsOf (t : TablePair) : List FieldPair := t.items.filterMap fieldOf

structure TableKept (t : TablePair) (d : TableDef) : Prop where
  name : d.name.toList = t.ident
  policy : PolicyKept t.compaction d.compactionPolicy
  fields : List.Forall₂ FieldKept (fieldsOf t) d.fields
  constraints : List.Forall₂ ConstraintKept (t.items.filter isConstraint) d.constraints

/-- The schema lists what the text declares, in the order and with the values of the text. -/
structure SchemaKept (source : String) (tree : SchemaPair) (s : Schema) : Prop where
  spelled : Spells skip tree.tokens source.toList []
  version : tree.version = '"' :: (s.version.toList ++ ['"'])
  tables : List.Forall₂ TableKept tree.tables s.tables

/-- The parser returns a schema only where it keeps everything that the text writes. -/
def ChangesNoLiteral (lib : TextLibraries) (source : String) : Prop :=
  ∀ tree s, schema source.toList = some tree → parse lib source = .ok s → SchemaKept source tree s

def DefaultFits : DefaultPair → Prop
  | .real text => |decimalValue text| < doubleBound
  | .integer text => -2 ^ 63 ≤ signedValue text ∧ signedValue text < 2 ^ 63
  | _ => True

/-- The threshold has no sign and is in the range of `u64`. -/
def ThresholdFits (text : List Char) : Prop := text.head? ≠ some '-' ∧ signedValue text < 2 ^ 64

structure Fits (tree : SchemaPair) : Prop where
  thresholds : ∀ t ∈ tree.tables, ∀ text, t.compaction = some text → ThresholdFits text
  defaults : ∀ t ∈ tree.tables, ∀ f ∈ fieldsOf t, ∀ d, f.defaultModifier = some d →
    DefaultFits d

/-- What is documented of the real defaults of a schema. -/
def DecimalsRead (lib : TextLibraries) (tree : SchemaPair) : Prop :=
  ∀ t ∈ tree.tables, ∀ f ∈ fieldsOf t, ∀ text, f.defaultModifier = some (.real text) →
    ReadsDecimal lib text

section Parts
variable {lib : TextLibraries}

theorem defaultKept_iff {d : DefaultPair} (hquoted : Quoted d)
    (hreal : ∀ text, d = .real text → ReadsDecimal lib text) :
    DefaultKept d (parseDefaultValue lib d) ↔ DefaultFits d := by
  cases d with
  | real text =>
    have hread := hreal text rfl
    change Nearest (decimalValue text) (lib.parseFloat (String.ofList text)) ↔
      |decimalValue text| < doubleBound
    unfold ReadsDecimal at hread
    by_cases hbound : |decimalValue text| < doubleBound
    · rw [if_pos hbound] at hread
      exact iff_of_true hread hbound
    · rw [if_neg hbound] at hread
      exact iff_of_false (fun h => hread h.1) hbound
  | integer text =>
    change (parseI64 text).getD 0 = signedValue text ∧ _ ↔ _
    unfold parseI64
    by_cases hfits : -2 ^ 63 ≤ signedValue text ∧ signedValue text < 2 ^ 63
    · rw [if_pos hfits]
      exact iff_of_true ⟨rfl, hfits⟩ hfits
    · rw [if_neg hfits]
      refine iff_of_false (fun h => hfits ?_) hfits
      rw [← h.1]
      exact h.2
  | string text =>
    obtain ⟨s, rfl, -⟩ := hquoted
    refine iff_of_true ?_ trivial
    change _ = '"' :: ((unquoted _).toList ++ ['"'])
    rw [unquoted_quoted, String.toList_ofList]
  | boolTrue => exact iff_of_true rfl trivial
  | boolFalse => exact iff_of_true rfl trivial
  | null => exact iff_of_true trivial trivial

theorem policyKept_iff (threshold : Option (List Char)) :
    PolicyKept threshold (parseCompactionDirective threshold) ↔
      ∀ text, threshold = some text → ThresholdFits text := by
  cases threshold with
  | none => exact iff_of_true rfl fun text h => (by cases h)
  | some text =>
    have hone : (∀ text', some text = some text' → ThresholdFits text') ↔ ThresholdFits text :=
      ⟨fun h => h text rfl, fun h text' heq => Option.some.inj heq ▸ h⟩
    rw [hone]
    change (∃ n : ℕ, parseCompactionDirective (some text) = .aggressive n ∧
      (n : ℤ) = signedValue text ∧ n < 2 ^ 64) ↔ _
    by_cases hsign : text.head? = some '-'
    · refine iff_of_false ?_ fun h => h.1 hsign
      obtain ⟨ds, rfl⟩ := List.head?_eq_some_iff.mp hsign
      rintro ⟨n, hpolicy, -⟩
      cases hpolicy
    · have hvalue : signedValue text = (Nat.ofDigitChars 10 text 0 : ℤ) := by
        unfold signedValue
        split
        · exact absurd rfl hsign
        · rfl
      have hparse : parseU64 text = if Nat.ofDigitChars 10 text 0 < 2 ^ 64 then
          some (Nat.ofDigitChars 10 text 0) else none := by
        unfold parseU64
        split
        · exact absurd rfl hsign
        · rfl
      rw [parseCompactionDirective, hparse, ThresholdFits, and_iff_right hsign, hvalue]
      by_cases hbound : Nat.ofDigitChars 10 text 0 < 2 ^ 64
      · rw [if_pos hbound]
        exact iff_of_true ⟨_, rfl, rfl, hbound⟩ (by exact_mod_cast hbound)
      · rw [if_neg hbound]
        refine iff_of_false ?_ fun h => hbound (by exact_mod_cast h)
        rintro ⟨n, hpolicy, -⟩
        cases hpolicy

end Parts

/-- The type is one of the five, and a string default is quoted. -/
structure WellRead (f : FieldPair) : Prop where
  fieldType : ∃ type : FieldType, f.fieldType = type.canonicalStr.toList
  default : ∀ d, f.defaultModifier = some d → Quoted d

section Grammar
variable {cs rest : List Char}

theorem wellRead_of_fieldDef {f : FieldPair} (h : fieldDef cs = some (f, rest)) : WellRead f := by
  refine ⟨?_, (readItem_field h).2⟩
  obtain ⟨⟨name, cs'⟩, -, h⟩ := Option.bind_eq_some_iff.mp h
  obtain ⟨⟨type, cs''⟩, htype, h⟩ := Option.bind_eq_some_iff.mp h
  obtain ⟨rfl, -⟩ := Prod.mk.inj (Option.some.inj h)
  obtain ⟨word, hword, htype⟩ := List.exists_of_findSome?_eq_some htype
  obtain ⟨cs3, -, heq⟩ := Option.map_eq_some_iff.mp htype
  obtain ⟨rfl, -⟩ := Prod.mk.inj heq
  simp only [List.mem_cons, List.not_mem_nil, or_false] at hword
  rcases hword with rfl | rfl | rfl | rfl | rfl
  · exact ⟨.text, rfl⟩
  · exact ⟨.integer, rfl⟩
  · exact ⟨.real, rfl⟩
  · exact ⟨.blob, rfl⟩
  · exact ⟨.boolean, rfl⟩

theorem wellRead_of_tableItem {item : ItemPair} (h : tableItem cs = some (item, rest)) :
    ∀ f, fieldOf item = some f → WellRead f := by
  rw [tableItem] at h
  rcases or_of_orElse h with h | h
  · obtain ⟨cs1, -, h⟩ := Option.bind_eq_some_iff.mp h
    obtain ⟨cs2, -, h⟩ := Option.bind_eq_some_iff.mp h
    obtain ⟨columns, -, h⟩ := Option.bind_eq_some_iff.mp h
    obtain ⟨rfl, -⟩ := Prod.mk.inj (Option.some.inj h)
    exact fun f hf => (by cases hf)
  rcases or_of_orElse h with h | h
  · obtain ⟨cs1, -, h⟩ := Option.bind_eq_some_iff.mp h
    obtain ⟨columns, -, h⟩ := Option.bind_eq_some_iff.mp h
    obtain ⟨rfl, -⟩ := Prod.mk.inj (Option.some.inj h)
    exact fun f hf => (by cases hf)
  · obtain ⟨⟨f, cs1⟩, hfield, h⟩ := Option.map_eq_some_iff.mp h
    obtain ⟨rfl, -⟩ := Prod.mk.inj h
    intro f' hf'
    obtain rfl := Option.some.inj hf'
    exact wellRead_of_fieldDef hfield

theorem wellRead_of_tableDef {t : TablePair} (h : tableDef cs = some (t, rest)) :
    ∀ f ∈ fieldsOf t, WellRead f := by
  obtain ⟨cs1, -, h⟩ := Option.bind_eq_some_iff.mp h
  obtain ⟨⟨name, cs2⟩, -, h⟩ := Option.bind_eq_some_iff.mp h
  obtain ⟨cs3, -, h⟩ := Option.bind_eq_some_iff.mp h
  obtain ⟨⟨policy, cs4⟩, -, h⟩ := Option.bind_eq_some_iff.mp h
  obtain ⟨cs5, -, h⟩ := Option.bind_eq_some_iff.mp h
  obtain ⟨rfl, -⟩ := Prod.mk.inj (Option.some.inj h)
  intro f hf
  obtain ⟨item, hitem, hfield⟩ := List.mem_filterMap.mp hf
  exact forall_mem_many wellRead_of_tableItem item hitem f hfield

/-- The version of an accepted text is quoted, and its fields are well read. -/
theorem wellRead_of_schema {tree : SchemaPair} (h : schema cs = some tree) :
    (∃ v, tree.version = '"' :: (v ++ ['"'])) ∧
      ∀ t ∈ tree.tables, ∀ f ∈ fieldsOf t, WellRead f := by
  obtain ⟨cs1, -, h⟩ := Option.bind_eq_some_iff.mp h
  obtain ⟨cs2, -, h⟩ := Option.bind_eq_some_iff.mp h
  obtain ⟨⟨version, cs3⟩, hversion, h⟩ := Option.bind_eq_some_iff.mp h
  obtain ⟨cs4, -, h⟩ := Option.bind_eq_some_iff.mp h
  split at h
  · obtain rfl := Option.some.inj h
    obtain ⟨cs5, -, hversion⟩ := Option.bind_eq_some_iff.mp hversion
    obtain ⟨cs6, -, hversion⟩ := Option.bind_eq_some_iff.mp hversion
    obtain ⟨v, hv, -⟩ := stringLiteral_shape hversion
    exact ⟨⟨v, hv⟩, forall_mem_many wellRead_of_tableDef⟩
  · exact absurd h (by simp)

end Grammar

section Declarations
variable {lib : TextLibraries}

theorem fieldKept_iff {f : FieldPair} (hread : WellRead f)
    (hreal : ∀ text, f.defaultModifier = some (.real text) → ReadsDecimal lib text) :
    FieldKept f (parseFieldDef lib f) ↔ ∀ d, f.defaultModifier = some d → DefaultFits d := by
  obtain ⟨type, htype⟩ := hread.fieldType
  have hdefault : Option.Rel DefaultKept f.defaultModifier
      (f.defaultModifier.map (parseDefaultValue lib)) ↔
        ∀ d, f.defaultModifier = some d → DefaultFits d := by
    cases hd : f.defaultModifier with
    | none => exact iff_of_true .none fun d h => (by cases h)
    | some d =>
      have hd' := defaultKept_iff (hread.default d hd) fun text heq => hreal text (heq ▸ hd)
      constructor
      · intro h d' heq
        cases h with
        | some hkept => exact Option.some.inj heq ▸ hd'.mp hkept
      · intro h
        exact .some (hd'.mpr (h d rfl))
  refine ⟨fun h => hdefault.mp h.default, fun h => ⟨?_, ?_, rfl, hdefault.mpr h⟩⟩
  · exact String.toList_ofList
  · change (parseFieldType f.fieldType).canonicalStr.toList = f.fieldType
    rw [htype, parseFieldType_canonicalStr]

theorem constraintsKept (items : List ItemPair) :
    List.Forall₂ ConstraintKept (items.filter isConstraint) (parseConstraints items) := by
  have hnames : ∀ columns : List (List Char),
      (columns.map String.ofList).map String.toList = columns := by
    intro columns
    rw [List.map_map]
    exact (List.map_congr_left fun c _ => String.toList_ofList).trans (List.map_id columns)
  induction items with
  | nil => exact .nil
  | cons item items ih =>
    cases item with
    | primaryKey columns => exact .cons (hnames columns) ih
    | unique columns => exact .cons (hnames columns) ih
    | field f => exact ih

theorem parseFields_eq (items : List ItemPair) :
    parseFields lib items = (items.filterMap fieldOf).map (parseFieldDef lib) := by
  rw [parseFields, List.map_filterMap]
  apply List.filterMap_congr
  intro item _
  cases item <;> rfl

theorem tableKept_iff {t : TablePair} (hread : ∀ f ∈ fieldsOf t, WellRead f)
    (hreal : ∀ f ∈ fieldsOf t, ∀ text, f.defaultModifier = some (.real text) →
      ReadsDecimal lib text) :
    TableKept t (parseTableDef lib t) ↔
      (∀ text, t.compaction = some text → ThresholdFits text) ∧
        ∀ f ∈ fieldsOf t, ∀ d, f.defaultModifier = some d → DefaultFits d := by
  have hfields : List.Forall₂ FieldKept (fieldsOf t) (parseFields lib t.items) ↔
      ∀ f ∈ fieldsOf t, ∀ d, f.defaultModifier = some d → DefaultFits d := by
    rw [parseFields_eq, List.forall₂_map_right_iff, ← fieldsOf, List.forall₂_same]
    exact forall₂_congr fun f hf => fieldKept_iff (hread f hf) (hreal f hf)
  rw [← policyKept_iff, ← hfields]
  constructor
  · intro h
    exact ⟨h.policy, h.fields⟩
  · rintro ⟨hpolicy, hfields⟩
    exact ⟨String.toList_ofList, hpolicy, hfields, constraintsKept t.items⟩

/-- The parser changes no literal of a text exactly when all literals that it accepts are in the
range of their types. -/
theorem changesNoLiteral_iff (lib : TextLibraries) (source : String)
    (hreal : ∀ tree, schema source.toList = some tree → DecimalsRead lib tree) :
    ChangesNoLiteral lib source ↔ ∀ tree, schema source.toList = some tree → Fits tree := by
  have htables : ∀ tree, schema source.toList = some tree →
      (List.Forall₂ TableKept tree.tables (tree.tables.map (parseTableDef lib)) ↔ Fits tree) := by
    intro tree htree
    have hread := (wellRead_of_schema htree).2
    rw [List.forall₂_map_right_iff, List.forall₂_same]
    constructor
    · intro h
      exact ⟨fun t ht => ((tableKept_iff (hread t ht) (hreal tree htree t ht)).mp (h t ht)).1,
        fun t ht => ((tableKept_iff (hread t ht) (hreal tree htree t ht)).mp (h t ht)).2⟩
    · intro h t ht
      exact (tableKept_iff (hread t ht) (hreal tree htree t ht)).mpr
        ⟨h.thresholds t ht, h.defaults t ht⟩
  have hparse : ∀ tree, schema source.toList = some tree →
      parse lib source = .ok ⟨tree.tables.map (parseTableDef lib), unquoted tree.version⟩ := by
    intro tree htree
    rw [parse, htree]
  constructor
  · intro h tree htree
    exact (htables tree htree).mp (h tree _ htree (hparse tree htree)).tables
  · intro h tree s htree hs
    obtain rfl := Except.ok.inj ((hparse tree htree).symm.trans hs)
    obtain ⟨v, hv⟩ := (wellRead_of_schema htree).1
    refine ⟨spells_schema htree, ?_, (htables tree htree).mpr (h tree htree)⟩
    change tree.version = '"' :: ((unquoted tree.version).toList ++ ['"'])
    rw [hv, unquoted_quoted, String.toList_ofList]

end Declarations

/-- Reads `0.5` as its double and nothing else. -/
def halfTexts : TextLibraries where
  displayFloat _ := "0.5"
  parseFloat s := if s = "0.5" then 4602678819172646912 else 0
  diagnose _ := ⟨1, 1, "expected schema"⟩

/-- A table `t` with this policy and these fields. -/
def tableSource (policy fields : String) : String :=
  "schema \x7b version = \"1\" table t \x7b compaction = " ++ policy ++ " " ++ fields ++
    " \x7d \x7d"

def tableTree (threshold : String) (fields : List FieldPair) : SchemaPair :=
  ⟨"\"1\"".toList, [⟨"t".toList, some threshold.toList, fields.map .field⟩]⟩

def fittingSource : String := tableSource "aggressive(7)" "x INTEGER DEFAULT -5 y REAL DEFAULT 0.5"

def fittingFields : List FieldPair :=
  [⟨"x".toList, "INTEGER".toList, false, some (.integer "-5".toList)⟩,
    ⟨"y".toList, "REAL".toList, false, some (.real "0.5".toList)⟩]

theorem decimalValue_half : decimalValue "0.5".toList = 1 / 2 := by decide +kernel

theorem half_lt_doubleBound : |decimalValue "0.5".toList| < doubleBound := by
  rw [decimalValue_half]
  decide +kernel

theorem readsDecimal_half : ReadsDecimal halfTexts "0.5".toList := by
  have hdouble : doubleValue 4602678819172646912 = 1 / 2 := by decide +kernel
  have hread : halfTexts.parseFloat (String.ofList "0.5".toList) = 4602678819172646912 := by
    decide +kernel
  rw [ReadsDecimal, if_pos half_lt_doubleBound, hread]
  refine ⟨by decide, fun bits' _ => ?_⟩
  rw [decimalValue_half, hdouble, sub_self, abs_zero]
  exact abs_nonneg _

theorem changesNoLiteral_iff_sample : ChangesNoLiteral halfTexts fittingSource := by
  have htree : schema fittingSource.toList = some (tableTree "7" fittingFields) := by
    decide +kernel
  have honly : ∀ tree, schema fittingSource.toList = some tree →
      tree = tableTree "7" fittingFields := by
    intro tree h
    exact Option.some.inj (h.symm.trans htree)
  refine (changesNoLiteral_iff halfTexts fittingSource fun tree h => ?_).mpr fun tree h => ?_
  · rw [honly tree h]
    intro t ht f hf text htext
    obtain rfl := List.mem_singleton.mp ht
    have hf' : f ∈ fittingFields := hf
    simp only [fittingFields, List.mem_cons, List.not_mem_nil, or_false] at hf'
    rcases hf' with rfl | rfl
    · cases htext
    · cases htext
      exact readsDecimal_half
  · rw [honly tree h]
    refine ⟨fun t ht text htext => ?_, fun t ht f hf d hd => ?_⟩
    · obtain rfl := List.mem_singleton.mp ht
      cases htext
      exact ⟨by decide, by decide⟩
    · obtain rfl := List.mem_singleton.mp ht
      have hf' : f ∈ fittingFields := hf
      simp only [fittingFields, List.mem_cons, List.not_mem_nil, or_false] at hf'
      rcases hf' with rfl | rfl
      · cases hd
        exact ⟨by decide, by decide⟩
      · cases hd
        exact half_lt_doubleBound

/-- A threshold of `-1` becomes another policy, a default of `2 ^ 63` becomes 0. -/
theorem literals_replaced :
    let source := tableSource "aggressive(-1)" "x INTEGER DEFAULT 9223372036854775808"
    parse halfTexts source =
        .ok ⟨[⟨"t", [⟨"x", .integer, true, some (.integer 0)⟩], .none, []⟩], "1"⟩ ∧
      ¬ChangesNoLiteral halfTexts source := by
  intro source
  have hparse : parse halfTexts source =
      .ok ⟨[⟨"t", [⟨"x", .integer, true, some (.integer 0)⟩], .none, []⟩], "1"⟩ := by
    decide +kernel
  have htree : schema source.toList = some (tableTree "-1"
      [⟨"x".toList, "INTEGER".toList, false, some (.integer "9223372036854775808".toList)⟩]) := by
    decide +kernel
  refine ⟨hparse, fun h => ?_⟩
  have htables := (h _ _ htree hparse).tables
  cases htables with
  | cons htable _ =>
    obtain ⟨n, hpolicy, -⟩ := htable.policy
    cases hpolicy

end TirBase.KeptLiterals
