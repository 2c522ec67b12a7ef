import Mathlib
import TirBase.SchemaDefinition

/-! # Additive schema extensions

What a field-level comparison without removals and retypings says about the two schemas. Of
several tables or fields of one name the last one counts. -/
namespace TirBase.SchemaExtension

/-- The incoming schema has every table and field of the base one, of the same type, and more. -/
structure AdditiveExtension (base incoming : Schema) : Prop where
  keeps : ∀ n b, lastNamed TableDef.name base.tables n = some b →
    ∃ i, lastNamed TableDef.name incoming.tables n = some i ∧
      ∀ f old, lastNamed FieldDef.name b.fields f = some old →
        ∃ new, lastNamed FieldDef.name i.fields f = some new ∧ new.fieldType = old.fieldType
  grows : (∃ n i, lastNamed TableDef.name incoming.tables n = some i ∧
      lastNamed TableDef.name base.tables n = none) ∨
    ∃ n b i f new, lastNamed TableDef.name base.tables n = some b ∧
      lastNamed TableDef.name incoming.tables n = some i ∧
        lastNamed FieldDef.name i.fields f = some new ∧ lastNamed FieldDef.name b.fields f = none

theorem canonicalStr_injective : Function.Injective FieldType.canonicalStr := by
  intro a b h
  cases a <;> cases b <;> first | rfl | (revert h; decide)

section Names
variable {α : Type*} {name : α → String} {xs : List α} {n : String}

theorem mem_sortedNames : n ∈ sortedNames name xs ↔ ∃ x, lastNamed name xs n = some x := by
  rw [sortedNames, (List.perm_insertionSort _ _).mem_iff, List.mem_dedup, List.mem_map, lastNamed]
  constructor
  · rintro ⟨x, hx, rfl⟩
    have hmem : x ∈ xs.filter fun y => name y == name x := List.mem_filter.mpr ⟨hx, by simp⟩
    exact ⟨_, List.getLast?_eq_getLast_of_ne_nil (List.ne_nil_of_mem hmem)⟩
  · rintro ⟨x, hx⟩
    obtain ⟨hmem, hname⟩ := List.mem_filter.mp (List.mem_of_getLast? hx)
    exact ⟨x, hmem, by simpa using hname⟩

theorem not_mem_sortedNames : n ∉ sortedNames name xs ↔ lastNamed name xs n = none := by
  rw [mem_sortedNames, not_exists, Option.eq_none_iff_forall_not_mem]
  exact Iff.rfl

end Names

section Diff
variable {base incoming : Schema} {name : String} {b i : TableDef}

def Common (base incoming : Schema) (n : String) (b i : TableDef) : Prop :=
  lastNamed TableDef.name base.tables n = some b ∧
    lastNamed TableDef.name incoming.tables n = some i

theorem removedTables_eq_nil : (diffSchemas base incoming).removedTables = [] ↔
    ∀ n b, lastNamed TableDef.name base.tables n = some b →
      ∃ i, lastNamed TableDef.name incoming.tables n = some i := by
  simp only [diffSchemas, List.filter_eq_nil_iff, decide_not, Bool.not_eq_true',
    decide_eq_false_iff_not, not_not, mem_sortedNames]
  exact ⟨fun h n b hb => h n ⟨b, hb⟩, fun h n ⟨b, hb⟩ => h n b hb⟩

theorem addedTables_ne_nil : (diffSchemas base incoming).addedTables ≠ [] ↔
    ∃ n i, lastNamed TableDef.name incoming.tables n = some i ∧
      lastNamed TableDef.name base.tables n = none := by
  rw [Ne, List.eq_nil_iff_forall_not_mem, not_forall]
  simp only [diffSchemas, not_not, List.mem_filter, mem_sortedNames, decide_eq_true_eq]
  constructor
  · rintro ⟨n, ⟨i, hi⟩, hnot⟩
    exact ⟨n, i, hi, not_mem_sortedNames.mp (by rwa [mem_sortedNames])⟩
  · rintro ⟨n, i, hi, hnone⟩
    exact ⟨n, ⟨i, hi⟩, by rw [hnone]; simp⟩

/-- What one field of the comparison collects over the tables that both schemas have. -/
theorem flatMap_common {α : Type*} (part : List FieldRef × List FieldRef × List RetypedField → List α) :
    (((sortedNames TableDef.name base.tables).filterMap fun n =>
      match lastNamed TableDef.name base.tables n, lastNamed TableDef.name incoming.tables n with
      | some b, some i => some (TableDef.diff n b i)
      | _, _ => none).flatMap part = []) ↔
      ∀ n b i, Common base incoming n b i → part (TableDef.diff n b i) = [] := by
  rw [List.flatMap_eq_nil_iff]
  constructor
  · intro h n b i hcommon
    refine h _ (List.mem_filterMap.mpr ⟨n, mem_sortedNames.mpr ⟨b, hcommon.1⟩, ?_⟩)
    rw [hcommon.1, hcommon.2]
  · intro h c hc
    obtain ⟨n, -, hn⟩ := List.mem_filterMap.mp hc
    split at hn
    · rename_i b i hb hi
      cases hn
      exact h n b i ⟨hb, hi⟩
    · cases hn

theorem removedFields_of_diff : (TableDef.diff name b i).2.1 = [] ↔
    ∀ f old, lastNamed FieldDef.name b.fields f = some old →
      ∃ new, lastNamed FieldDef.name i.fields f = some new := by
  simp only [TableDef.diff, List.filterMap_eq_nil_iff, mem_sortedNames]
  constructor
  · intro h f old hold
    have hf := h f ⟨old, hold⟩
    split_ifs at hf with hmem
    exact mem_sortedNames.mp hmem
  · rintro h f ⟨old, hold⟩
    rw [if_pos (mem_sortedNames.mpr (h f old hold))]

theorem addedFields_of_diff : (TableDef.diff name b i).1 ≠ [] ↔
    ∃ f new, lastNamed FieldDef.name i.fields f = some new ∧
      lastNamed FieldDef.name b.fields f = none := by
  rw [Ne, TableDef.diff, List.filterMap_eq_nil_iff, not_forall]
  constructor
  · rintro ⟨f, hf⟩
    rw [Classical.not_imp] at hf
    obtain ⟨hmem, hf⟩ := hf
    obtain ⟨new, hnew⟩ := mem_sortedNames.mp hmem
    refine ⟨f, new, hnew, not_mem_sortedNames.mp fun hold => hf ?_⟩
    rw [if_pos hold]
  · rintro ⟨f, new, hnew, hnone⟩
    refine ⟨f, fun h => ?_⟩
    have hf := h (mem_sortedNames.mpr ⟨new, hnew⟩)
    rw [if_neg (not_mem_sortedNames.mpr hnone)] at hf
    cases hf

theorem retyped_eq_nil (table field : String) (old new : FieldDef) :
    FieldDef.retyped table field old new = [] ↔ new.fieldType = old.fieldType := by
  unfold FieldDef.retyped
  dsimp only
  split_ifs with hne
  · exact iff_of_false (by simp) fun h => hne (by rw [h])
  · exact iff_of_true rfl (canonicalStr_injective (not_not.mp hne)).symm

theorem retypedFields_of_diff : (TableDef.diff name b i).2.2 = [] ↔
    ∀ f old new, lastNamed FieldDef.name b.fields f = some old →
      lastNamed FieldDef.name i.fields f = some new → new.fieldType = old.fieldType := by
  rw [TableDef.diff, List.flatMap_eq_nil_iff]
  constructor
  · intro h f old new hold hnew
    have hf := h f (mem_sortedNames.mpr ⟨old, hold⟩)
    rw [hold, hnew] at hf
    exact (retyped_eq_nil name f old new).mp hf
  · intro h f hf
    cases hold : lastNamed FieldDef.name b.fields f with
    | none => rfl
    | some old =>
      cases hnew : lastNamed FieldDef.name i.fields f with
      | none => rfl
      | some new => exact (retyped_eq_nil name f old new).mpr (h f old new hold hnew)

/-- Nothing is removed or retyped exactly when the incoming schema has every table and field of the
base one, of the same type. -/
theorem kept_iff : ((diffSchemas base incoming).removedTables = [] ∧
      (diffSchemas base incoming).removedFields = [] ∧
        (diffSchemas base incoming).retypedFields = []) ↔
    ∀ n b, lastNamed TableDef.name base.tables n = some b →
      ∃ i, lastNamed TableDef.name incoming.tables n = some i ∧
        ∀ f old, lastNamed FieldDef.name b.fields f = some old →
          ∃ new, lastNamed FieldDef.name i.fields f = some new ∧
            new.fieldType = old.fieldType := by
  have hfields : (diffSchemas base incoming).removedFields = [] ↔
      ∀ n b i, Common base incoming n b i → (TableDef.diff n b i).2.1 = [] :=
    flatMap_common fun c => c.2.1
  have hretyped : (diffSchemas base incoming).retypedFields = [] ↔
      ∀ n b i, Common base incoming n b i → (TableDef.diff n b i).2.2 = [] :=
    flatMap_common fun c => c.2.2
  rw [removedTables_eq_nil, hfields, hretyped]
  constructor
  · rintro ⟨htables, hremoved, htypes⟩ n b hb
    obtain ⟨i, hi⟩ := htables n b hb
    refine ⟨i, hi, fun f old hold => ?_⟩
    obtain ⟨new, hnew⟩ := removedFields_of_diff.mp (hremoved n b i ⟨hb, hi⟩) f old hold
    exact ⟨new, hnew, retypedFields_of_diff.mp (htypes n b i ⟨hb, hi⟩) f old new hold hnew⟩
  · intro hkeeps
    refine ⟨fun n b hb => ?_, fun n b i hcommon => ?_, fun n b i hcommon => ?_⟩
    · obtain ⟨i, hi, -⟩ := hkeeps n b hb
      exact ⟨i, hi⟩
    · obtain ⟨i', hi', hold⟩ := hkeeps n b hcommon.1
      cases hi'.symm.trans hcommon.2
      refine removedFields_of_diff.mpr fun f old hf => ?_
      obtain ⟨new, hnew, -⟩ := hold f old hf
      exact ⟨new, hnew⟩
    · obtain ⟨i', hi', hold⟩ := hkeeps n b hcommon.1
      cases hi'.symm.trans hcommon.2
      refine retypedFields_of_diff.mpr fun f old new hf hnew => ?_
      obtain ⟨new', hnew', htype⟩ := hold f old hf
      cases hnew'.symm.trans hnew
      exact htype

/-- The comparison calls a change additive exactly when the incoming schema extends the base one. -/
theorem isAdditive_iff : (diffSchemas base incoming).isAdditive = true ↔
    AdditiveExtension base incoming := by
  have hadded : (diffSchemas base incoming).addedFields = [] ↔
      ∀ n b i, Common base incoming n b i → (TableDef.diff n b i).1 = [] :=
    flatMap_common fun c => c.1
  have hdiff : (diffSchemas base incoming).isAdditive = true ↔
      ((diffSchemas base incoming).removedTables = [] ∧
        (diffSchemas base incoming).removedFields = [] ∧
          (diffSchemas base incoming).retypedFields = []) ∧
      ((diffSchemas base incoming).addedTables ≠ [] ∨
        (diffSchemas base incoming).addedFields ≠ []) := by
    simp only [SchemaDiff.isAdditive, SchemaDiff.isIdentical, Bool.and_eq_true, Bool.not_eq_true',
      Bool.and_eq_false_iff, List.isEmpty_iff, List.isEmpty_eq_false_iff]
    tauto
  rw [hdiff, kept_iff, addedTables_ne_nil, Ne, hadded]
  constructor
  · rintro ⟨hkeeps, hgrows⟩
    refine ⟨hkeeps, hgrows.imp id fun hnot => ?_⟩
    push Not at hnot
    obtain ⟨n, b, i, hcommon, hne⟩ := hnot
    obtain ⟨f, new, hnew, hnone⟩ := addedFields_of_diff.mp hne
    exact ⟨n, b, i, f, new, hcommon.1, hcommon.2, hnew, hnone⟩
  · rintro ⟨hkeeps, hgrows⟩
    refine ⟨hkeeps, hgrows.imp id fun hfield hall => ?_⟩
    obtain ⟨n, b, i, f, new, hb, hi, hnew, hnone⟩ := hfield
    exact addedFields_of_diff.mpr ⟨f, new, hnew, hnone⟩ (hall n b i ⟨hb, hi⟩)

end Diff

end TirBase.SchemaExtension
