import Mathlib
import TirBase.SchemaIdentity

/-! # Schemas in order

A schema is compared as a map from names to tables, a table as a map from names to types. In the
pointwise order of these maps additive is below, identical is equal and breaking is not below. -/
namespace TirBase.SchemaOrder
open SchemaExtension SchemaIdentity

instance : PartialOrder FieldType where
  le := Eq
  le_refl := fun _ => rfl
  le_trans := fun _ _ _ => Eq.trans
  le_antisymm := fun _ _ h _ => h

/-- The types under the field names, nothing under the others. -/
def fieldTypes (t : TableDef) (f : String) : WithBot FieldType :=
  (lastNamed FieldDef.name t.fields f).elim ⊥ fun field => (field.fieldType : WithBot FieldType)

/-- The tables under their names. -/
def shape (s : Schema) (n : String) : WithBot (String → WithBot FieldType) :=
  (lastNamed TableDef.name s.tables n).elim ⊥
    fun t => (fieldTypes t : WithBot (String → WithBot FieldType))

section Shapes
variable {a b c : Schema} {t u : TableDef}

theorem elim_le_elim_iff {α β : Type*} [Preorder β] (g : α → β) (x y : Option α) :
    (x.elim ⊥ fun v => (g v : WithBot β)) ≤ (y.elim ⊥ fun v => (g v : WithBot β)) ↔
      ∀ v, x = some v → ∃ w, y = some w ∧ g v ≤ g w := by
  cases x with
  | none => simp
  | some v =>
    cases y with
    | none => simp
    | some w => simp

theorem fieldTypes_le_iff : fieldTypes t ≤ fieldTypes u ↔
    ∀ f old, lastNamed FieldDef.name t.fields f = some old →
      ∃ new, lastNamed FieldDef.name u.fields f = some new ∧ new.fieldType = old.fieldType := by
  rw [Pi.le_def]
  apply forall_congr'
  intro f
  rw [fieldTypes, fieldTypes, elim_le_elim_iff]
  apply forall_congr'
  intro old
  apply imp_congr_right
  intro _
  apply exists_congr
  intro new
  exact and_congr_right fun _ => eq_comm

theorem shape_le_iff : shape a ≤ shape b ↔
    ∀ n t, lastNamed TableDef.name a.tables n = some t →
      ∃ u, lastNamed TableDef.name b.tables n = some u ∧ fieldTypes t ≤ fieldTypes u := by
  rw [Pi.le_def]
  apply forall_congr'
  intro n
  rw [shape, shape, elim_le_elim_iff]

/-- A change is breaking exactly when the base schema is not below the incoming one. -/
theorem isBreaking_iff : (diffSchemas a b).isBreaking = true ↔ ¬shape a ≤ shape b := by
  have hparts : ¬(diffSchemas a b).isBreaking = true ↔
      (diffSchemas a b).removedTables = [] ∧ (diffSchemas a b).removedFields = [] ∧
        (diffSchemas a b).retypedFields = [] := by
    simp only [SchemaDiff.isBreaking, Bool.or_eq_true, Bool.not_eq_true', not_or,
      Bool.not_eq_false, List.isEmpty_iff, and_assoc]
  rw [← not_iff_not, not_not, hparts, kept_iff, shape_le_iff]
  simp only [fieldTypes_le_iff]

/-- Two changes that remove nothing either way are the same. -/
theorem isIdentical_iff_shape : (diffSchemas a b).isIdentical = true ↔ shape a = shape b := by
  have htables : ∀ t u : TableDef, SameFields t u ↔ fieldTypes t = fieldTypes u := by
    intro t u
    rw [SameFields, funext_iff]
    apply forall_congr'
    intro f
    rw [fieldTypes, fieldTypes]
    cases lastNamed FieldDef.name t.fields f <;> cases lastNamed FieldDef.name u.fields f <;> simp
  rw [isIdentical_iff, SameEffect, funext_iff]
  apply forall_congr'
  intro n
  rw [shape, shape]
  cases lastNamed TableDef.name a.tables n <;> cases lastNamed TableDef.name b.tables n <;>
    simp [htables]

theorem isAdditive_eq (d : SchemaDiff) : d.isAdditive = (!d.isIdentical && !d.isBreaking) := by
  simp [SchemaDiff.isAdditive, SchemaDiff.isBreaking, Bool.and_assoc]

/-- A change is additive exactly when the base schema is strictly below the incoming one. -/
theorem isAdditive_iff_lt : (diffSchemas a b).isAdditive = true ↔ shape a < shape b := by
  rw [isAdditive_eq, Bool.and_eq_true, Bool.not_eq_true', Bool.not_eq_true', ← Bool.not_eq_true,
    ← Bool.not_eq_true, isIdentical_iff_shape, isBreaking_iff, not_not, lt_iff_le_and_ne, and_comm]

end Shapes

/-- Tables of one schema and fields of one table have different names. -/
structure UniqueNames (s : Schema) : Prop where
  tables : (s.tables.map TableDef.name).Nodup
  fields : ∀ t ∈ s.tables, (t.fields.map FieldDef.name).Nodup

/-- Every table and field of the first schema is in the second one, of the same type. -/
def Includes (a b : Schema) : Prop :=
  ∀ t ∈ a.tables, ∃ u ∈ b.tables, u.name = t.name ∧
    ∀ f ∈ t.fields, ∃ g ∈ u.fields, g.name = f.name ∧ g.fieldType = f.fieldType

/-- The second schema has a table that the first one has not, or a table of both has a field
more. -/
def HasMore (a b : Schema) : Prop :=
  (∃ u ∈ b.tables, ∀ t ∈ a.tables, t.name ≠ u.name) ∨
    ∃ t ∈ a.tables, ∃ u ∈ b.tables, u.name = t.name ∧
      ∃ g ∈ u.fields, ∀ f ∈ t.fields, f.name ≠ g.name

section Unique
variable {α : Type*} {name : α → String} {xs : List α}

theorem lastNamed_eq_some_iff (h : (xs.map name).Nodup) {n : String} {x : α} :
    lastNamed name xs n = some x ↔ x ∈ xs ∧ name x = n := by
  constructor
  · intro hx
    obtain ⟨hmem, hname⟩ := List.mem_filter.mp (List.mem_of_getLast? hx)
    exact ⟨hmem, by simpa using hname⟩
  · rintro ⟨hmem, rfl⟩
    have hfiltered : x ∈ xs.filter fun y => name y == name x :=
      List.mem_filter.mpr ⟨hmem, by simp⟩
    obtain ⟨y, hy⟩ : ∃ y, lastNamed name xs (name x) = some y :=
      ⟨_, List.getLast?_eq_getLast_of_ne_nil (List.ne_nil_of_mem hfiltered)⟩
    obtain ⟨hmem', hname⟩ := List.mem_filter.mp (List.mem_of_getLast? hy)
    rw [hy, List.inj_on_of_nodup_map h hmem' hmem (by simpa using hname)]

theorem lastNamed_eq_none_iff {n : String} :
    lastNamed name xs n = none ↔ ∀ x ∈ xs, name x ≠ n := by
  rw [lastNamed, List.getLast?_eq_none_iff, List.filter_eq_nil_iff]
  simp

end Unique

section Order
variable {a b c : Schema}

/-- With unique names an additive extension is what it says of the declarations themselves. -/
theorem additiveExtension_iff (ha : UniqueNames a) (hb : UniqueNames b) :
    AdditiveExtension a b ↔ Includes a b ∧ HasMore a b := by
  constructor
  · rintro ⟨hkeeps, hgrows⟩
    refine ⟨fun t ht => ?_, ?_⟩
    · obtain ⟨u, hu, hfields⟩ := hkeeps t.name t ((lastNamed_eq_some_iff ha.tables).mpr ⟨ht, rfl⟩)
      obtain ⟨humem, huname⟩ := (lastNamed_eq_some_iff hb.tables).mp hu
      refine ⟨u, humem, huname, fun f hf => ?_⟩
      obtain ⟨g, hg, htype⟩ :=
        hfields f.name f ((lastNamed_eq_some_iff (ha.fields t ht)).mpr ⟨hf, rfl⟩)
      obtain ⟨hgmem, hgname⟩ := (lastNamed_eq_some_iff (hb.fields u humem)).mp hg
      exact ⟨g, hgmem, hgname, htype⟩
    · rcases hgrows with ⟨n, u, hu, hnone⟩ | ⟨n, t, u, f, g, ht, hu, hg, hnone⟩
      · obtain ⟨humem, rfl⟩ := (lastNamed_eq_some_iff hb.tables).mp hu
        exact .inl ⟨u, humem, lastNamed_eq_none_iff.mp hnone⟩
      · obtain ⟨htmem, rfl⟩ := (lastNamed_eq_some_iff ha.tables).mp ht
        obtain ⟨humem, huname⟩ := (lastNamed_eq_some_iff hb.tables).mp hu
        obtain ⟨hgmem, rfl⟩ := (lastNamed_eq_some_iff (hb.fields u humem)).mp hg
        exact .inr ⟨t, htmem, u, humem, huname, g, hgmem, lastNamed_eq_none_iff.mp hnone⟩
  · rintro ⟨hincludes, hmore⟩
    refine ⟨fun n t ht => ?_, ?_⟩
    · obtain ⟨htmem, rfl⟩ := (lastNamed_eq_some_iff ha.tables).mp ht
      obtain ⟨u, humem, huname, hfields⟩ := hincludes t htmem
      refine ⟨u, (lastNamed_eq_some_iff hb.tables).mpr ⟨humem, huname⟩, fun n f hf => ?_⟩
      obtain ⟨hfmem, rfl⟩ := (lastNamed_eq_some_iff (ha.fields t htmem)).mp hf
      obtain ⟨g, hgmem, hgname, htype⟩ := hfields f hfmem
      exact ⟨g, (lastNamed_eq_some_iff (hb.fields u humem)).mpr ⟨hgmem, hgname⟩, htype⟩
    · rcases hmore with ⟨u, humem, hnew⟩ | ⟨t, htmem, u, humem, huname, g, hgmem, hnew⟩
      · exact .inl ⟨u.name, u, (lastNamed_eq_some_iff hb.tables).mpr ⟨humem, rfl⟩,
          lastNamed_eq_none_iff.mpr hnew⟩
      · exact .inr ⟨t.name, t, u, g.name, g,
          (lastNamed_eq_some_iff ha.tables).mpr ⟨htmem, rfl⟩,
          (lastNamed_eq_some_iff hb.tables).mpr ⟨humem, huname⟩,
          (lastNamed_eq_some_iff (hb.fields u humem)).mpr ⟨hgmem, rfl⟩,
          lastNamed_eq_none_iff.mpr hnew⟩

def ExactlyOne (p q r : Prop) : Prop :=
  p ∧ ¬q ∧ ¬r ∨ ¬p ∧ q ∧ ¬r ∨ ¬p ∧ ¬q ∧ r

/-- What the verdicts of the comparison promise of three schemas. -/
structure Compatibility (a b c : Schema) : Prop where
  exactlyOne : ExactlyOne ((diffSchemas a b).isIdentical = true)
    ((diffSchemas a b).isAdditive = true) ((diffSchemas a b).isBreaking = true)
  additive : (diffSchemas a b).isAdditive = true ↔ Includes a b ∧ HasMore a b
  trans : (diffSchemas a b).isAdditive = true → (diffSchemas b c).isAdditive = true →
    (diffSchemas a c).isAdditive = true
  asymm : (diffSchemas a b).isAdditive = true → (diffSchemas b a).isAdditive = false
  reversed : (diffSchemas a b).isAdditive = true → (diffSchemas b a).isBreaking = true

/-- The shapes are equal, strictly below or not below. -/
theorem exactlyOne_verdict (a b : Schema) :
    ExactlyOne ((diffSchemas a b).isIdentical = true) ((diffSchemas a b).isAdditive = true)
      ((diffSchemas a b).isBreaking = true) := by
  rw [isIdentical_iff_shape, isAdditive_iff_lt, isBreaking_iff]
  by_cases hle : shape a ≤ shape b
  · rcases hle.eq_or_lt with heq | hlt
    · exact .inl ⟨heq, heq.not_lt, not_not.mpr hle⟩
    · exact .inr (.inl ⟨hlt.ne, hlt, not_not.mpr hle⟩)
  · exact .inr (.inr ⟨fun heq => hle heq.le, fun hlt => hle hlt.le, hle⟩)

/-- Schema compatibility is a strict partial order. -/
theorem compatibility (ha : UniqueNames a) (hb : UniqueNames b) (c : Schema) :
    Compatibility a b c where
  exactlyOne := exactlyOne_verdict a b
  additive := isAdditive_iff.trans (additiveExtension_iff ha hb)
  trans := by
    rw [isAdditive_iff_lt, isAdditive_iff_lt, isAdditive_iff_lt]
    exact lt_trans
  asymm := by
    rw [isAdditive_iff_lt, ← Bool.not_eq_true, isAdditive_iff_lt]
    exact fun hlt => hlt.asymm
  reversed := by
    rw [isAdditive_iff_lt, isBreaking_iff]
    exact fun hlt => hlt.not_ge

theorem compatibility_sample : Compatibility singleSchema
    ⟨[⟨"t", [⟨"x", .text, true, none⟩, ⟨"y", .real, true, none⟩], .none, []⟩], "2"⟩
    retypedSchema := by
  apply compatibility
  · exact ⟨by decide, by decide⟩
  · exact ⟨by decide, by decide⟩

end Order

end TirBase.SchemaOrder
