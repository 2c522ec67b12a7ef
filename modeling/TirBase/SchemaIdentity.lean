import TirBase.PrinterIdentity
import TirBase.SchemaHashes

/-! # When the hash and the comparison of schemas agree

The hash reads every declaration, the comparison the last one of each name. So they agree unless
a name is declared more than once. -/
namespace TirBase.SchemaIdentity
open SchemaText SchemaExtension SchemaHashes StableSorts

/-- The last declarations of each field name have the same type. -/
def SameFields (t u : TableDef) : Prop :=
  ∀ f, (lastNamed FieldDef.name t.fields f).map FieldDef.fieldType =
    (lastNamed FieldDef.name u.fields f).map FieldDef.fieldType

/-- The last declarations of each table name have the same fields. -/
def SameEffect (a b : Schema) : Prop :=
  ∀ n, Option.Rel SameFields (lastNamed TableDef.name a.tables n)
    (lastNamed TableDef.name b.tables n)

theorem lastNamed_eq {α : Type} (name : α → String) (xs : List α) (n : String) :
    lastNamed name xs n = (group name xs n).getLast? := by
  rw [lastNamed, group]
  apply congrArg List.getLast?
  apply List.filter_congr
  intro x hx
  exact Bool.eq_iff_iff.mpr (by simp)

section Comparison
variable {a b : Schema}

theorem sameFields_iff (n : String) (t u : TableDef) : SameFields t u ↔
    (TableDef.diff n t u).1 = [] ∧ (TableDef.diff n t u).2.1 = [] ∧
      (TableDef.diff n t u).2.2 = [] := by
  rw [removedFields_of_diff, retypedFields_of_diff]
  have hadded : (TableDef.diff n t u).1 = [] ↔
      ∀ f new, lastNamed FieldDef.name u.fields f = some new →
        lastNamed FieldDef.name t.fields f ≠ none := by
    rw [← not_iff_not, ← Ne, addedFields_of_diff]
    push Not
    exact Iff.rfl
  rw [hadded]
  constructor
  · intro h
    refine ⟨?_, ?_, ?_⟩
    · intro f new hnew hnone
      have hf := h f
      rw [hnew, hnone] at hf
      exact absurd hf (by simp)
    · intro f old hold
      have hf := h f
      rw [hold] at hf
      obtain ⟨new, hnew, -⟩ := Option.map_eq_some_iff.mp hf.symm
      exact ⟨new, hnew⟩
    · intro f old new hold hnew
      have hf := h f
      rw [hold, hnew] at hf
      exact (Option.some.inj hf).symm
  · rintro ⟨hadded, hremoved, htypes⟩ f
    cases hold : lastNamed FieldDef.name t.fields f with
    | none =>
      cases hnew : lastNamed FieldDef.name u.fields f with
      | none => rfl
      | some new => exact absurd hold (hadded f new hnew)
    | some old =>
      obtain ⟨new, hnew⟩ := hremoved f old hold
      rw [hnew]
      exact congrArg some (htypes f old new hold hnew).symm

/-- The comparison finds nothing exactly when the last declarations have the same effect. -/
theorem isIdentical_iff : (diffSchemas a b).isIdentical = true ↔ SameEffect a b := by
  have hparts : (diffSchemas a b).isIdentical = true ↔
      (diffSchemas a b).addedTables = [] ∧ (diffSchemas a b).removedTables = [] ∧
        (diffSchemas a b).addedFields = [] ∧ (diffSchemas a b).removedFields = [] ∧
          (diffSchemas a b).retypedFields = [] := by
    simp only [SchemaDiff.isIdentical, Bool.and_eq_true, List.isEmpty_iff, and_assoc]
  have hadded : (diffSchemas a b).addedTables = [] ↔
      ∀ n u, lastNamed TableDef.name b.tables n = some u →
        lastNamed TableDef.name a.tables n ≠ none := by
    rw [← not_iff_not, ← Ne, addedTables_ne_nil]
    push Not
    exact Iff.rfl
  have haddedFields : (diffSchemas a b).addedFields = [] ↔
      ∀ n t u, Common a b n t u → (TableDef.diff n t u).1 = [] := flatMap_common fun c => c.1
  have hremovedFields : (diffSchemas a b).removedFields = [] ↔
      ∀ n t u, Common a b n t u → (TableDef.diff n t u).2.1 = [] := flatMap_common fun c => c.2.1
  have hretyped : (diffSchemas a b).retypedFields = [] ↔
      ∀ n t u, Common a b n t u → (TableDef.diff n t u).2.2 = [] := flatMap_common fun c => c.2.2
  rw [hparts, hadded, removedTables_eq_nil, haddedFields, hremovedFields, hretyped]
  constructor
  · rintro ⟨hnew, hold, hfields, hremoved, htypes⟩ n
    cases ht : lastNamed TableDef.name a.tables n with
    | none =>
      cases hu : lastNamed TableDef.name b.tables n with
      | none => exact .none
      | some u => exact absurd ht (hnew n u hu)
    | some t =>
      obtain ⟨u, hu⟩ := hold n t ht
      rw [hu]
      exact .some ((sameFields_iff n t u).mpr
        ⟨hfields n t u ⟨ht, hu⟩, hremoved n t u ⟨ht, hu⟩, htypes n t u ⟨ht, hu⟩⟩)
  · intro h
    have hcommon : ∀ n t u, Common a b n t u → SameFields t u := by
      rintro n t u ⟨ht, hu⟩
      have hn := h n
      rw [ht, hu] at hn
      cases hn with
      | some hfields => exact hfields
    refine ⟨?_, ?_, ?_, ?_, ?_⟩
    · intro n u hu ht
      have hn := h n
      rw [ht, hu] at hn
      cases hn
    · intro n t ht
      have hn := h n
      rw [ht] at hn
      cases hu : lastNamed TableDef.name b.tables n with
      | none =>
        rw [hu] at hn
        cases hn
      | some u => exact ⟨u, rfl⟩
    · exact fun n t u hc => ((sameFields_iff n t u).mp (hcommon n t u hc)).1
    · exact fun n t u hc => ((sameFields_iff n t u).mp (hcommon n t u hc)).2.1
    · exact fun n t u hc => ((sameFields_iff n t u).mp (hcommon n t u hc)).2.2

/-- What the hash reads decides what the comparison reads. -/
theorem sameEffect_of_rows (h : rows a = rows b) : SameEffect a b := by
  intro n
  have hgroup := congrArg List.getLast? (rows_eq_iff.mp h n)
  rw [List.getLast?_map, List.getLast?_map, ← lastNamed_eq, ← lastNamed_eq] at hgroup
  cases ht : lastNamed TableDef.name a.tables n with
  | none =>
    rw [ht] at hgroup
    rw [Option.map_eq_none_iff.mp hgroup.symm]
    exact .none
  | some t =>
    rw [ht] at hgroup
    obtain ⟨u, hu, hcolumns⟩ := Option.map_eq_some_iff.mp hgroup.symm
    rw [hu]
    refine .some ?_
    intro f
    have hf := congrArg List.getLast? (columns_eq_iff.mp hcolumns.symm f)
    rw [List.getLast?_map, List.getLast?_map, ← lastNamed_eq, ← lastNamed_eq] at hf
    exact hf

end Comparison

def column (f : FieldDef) : String × FieldType := (f.name, f.fieldType)

/-- Declarations of one name declare the same: fields of a table the same type, tables the same
fields. -/
structure Consistent (s : Schema) : Prop where
  tables : ∀ t ∈ s.tables, ∀ u ∈ s.tables, t.name = u.name →
    (t.fields.map column).Perm (u.fields.map column)
  fields : ∀ t ∈ s.tables, Uniform FieldDef.name FieldDef.fieldType t.fields

/-- Every table name, and every field name of a table, is declared equally often in both. -/
def SameCounts (a b : Schema) : Prop :=
  ∀ n, (group TableDef.name a.tables n).length = (group TableDef.name b.tables n).length ∧
    ∀ t ∈ group TableDef.name a.tables n, ∀ u ∈ group TableDef.name b.tables n, ∀ f,
      (group FieldDef.name t.fields f).length = (group FieldDef.name u.fields f).length

def SameTable (t u : TableDef) : Prop :=
  u = { t with fields := u.fields } ∧ t.fields.Perm u.fields

structure Reordered (a b : Schema) : Prop where
  version : b.version = a.version
  tables : ∃ ts, List.Forall₂ SameTable a.tables ts ∧ ts.Perm b.tables

theorem SameTable.refl (t : TableDef) : SameTable t t := ⟨rfl, .refl _⟩

theorem Reordered.refl (a : Schema) : Reordered a a :=
  ⟨rfl, a.tables, List.forall₂_same.mpr fun t _ => SameTable.refl t, .refl _⟩

section Tables
variable {a b s : Schema} {t u : TableDef}

theorem columns_perm (t : TableDef) : (columns t).Perm (t.fields.map column) :=
  (List.perm_insertionSort _ t.fields).map column

theorem group_column (fs : List FieldDef) (f : String) :
    (group FieldDef.name fs f).map FieldDef.fieldType =
      (group Prod.fst (fs.map column) f).map Prod.snd := by
  rw [group, group, List.filter_map, List.map_map]
  rfl

theorem columns_eq_of_perm (h : Uniform FieldDef.name FieldDef.fieldType t.fields)
    (hperm : (t.fields.map column).Perm (u.fields.map column)) : columns t = columns u := by
  have huniform : Uniform Prod.fst Prod.snd (t.fields.map column) := by
    intro x hx y hy hkey
    obtain ⟨f, hf, rfl⟩ := List.mem_map.mp hx
    obtain ⟨g, hg, rfl⟩ := List.mem_map.mp hy
    exact h f hf g hg hkey
  rw [columns_eq_iff]
  intro f
  rw [group_column, group_column]
  exact (huniform.map_group_perm hperm f).symm

theorem perm_of_columns (h : columns t = columns u) :
    (t.fields.map column).Perm (u.fields.map column) :=
  (columns_perm t).symm.trans (h ▸ columns_perm u)

theorem Consistent.uniform (h : Consistent s) : Uniform TableDef.name columns s.tables :=
  fun t ht u hu hname => columns_eq_of_perm (h.fields t ht) (h.tables t ht u hu hname)

theorem SameTable.columns_eq (h : SameTable t u)
    (ht : Uniform FieldDef.name FieldDef.fieldType t.fields) : columns u = columns t :=
  (columns_eq_of_perm ht (h.2.map column)).symm

theorem SameTable.name_eq (h : SameTable t u) : u.name = t.name := by
  rw [h.1]

theorem map_group_sameTables {ts us : List TableDef} (h : List.Forall₂ SameTable ts us)
    (hts : ∀ t ∈ ts, Uniform FieldDef.name FieldDef.fieldType t.fields) (n : String) :
    (group TableDef.name us n).map columns = (group TableDef.name ts n).map columns := by
  induction h with
  | nil => rfl
  | @cons t u ts us htu _ ih =>
    have hrest := ih fun t ht => hts t (by simp [ht])
    by_cases hn : t.name = n
    · rw [group_cons_of_eq (htu.name_eq.trans hn), group_cons_of_eq hn, List.map_cons,
        List.map_cons, hrest, htu.columns_eq (hts t (by simp))]
    · rw [group_cons_of_ne fun hu => hn (htu.name_eq.symm.trans hu), group_cons_of_ne hn, hrest]

theorem Consistent.uniform_sameTables (h : Consistent a) {ts : List TableDef}
    (hsame : List.Forall₂ SameTable a.tables ts) : Uniform TableDef.name columns ts := by
  have hback : ∀ u ∈ ts, ∃ t ∈ a.tables, SameTable t u := by
    intro u hu
    obtain ⟨i, hi, rfl⟩ := List.mem_iff_getElem.mp hu
    have hlen := hsame.length_eq
    exact ⟨a.tables[i], List.getElem_mem _, hsame.get (by omega) hi⟩
  intro u hu v hv hname
  obtain ⟨t, ht, htu⟩ := hback u hu
  obtain ⟨w, hw, hwv⟩ := hback v hv
  rw [htu.columns_eq (h.fields t ht), hwv.columns_eq (h.fields w hw)]
  exact h.uniform t ht w hw (htu.name_eq.symm.trans (hname.trans hwv.name_eq))

/-- The order of consistent declarations does not matter to the hash. -/
theorem Consistent.rows_eq (h : Consistent a) (hr : Reordered a s) : rows s = rows a := by
  obtain ⟨ts, hsame, hperm⟩ := hr.tables
  rw [rows_eq_iff]
  intro n
  rw [(h.uniform_sameTables hsame).map_group_perm hperm, map_group_sameTables hsame h.fields]

/-- Fields that the order of the declarations matters to can be found in one table. -/
theorem uniform_fields_of_rows (h : ∀ s, Reordered a s → rows s = rows a) (ht : t ∈ a.tables) :
    Uniform FieldDef.name FieldDef.fieldType t.fields := by
  apply uniform_of_map_group
  intro fs hperm f
  obtain ⟨before, after, htables⟩ := List.append_of_mem ht
  have hreordered : Reordered a ⟨before ++ { t with fields := fs } :: after, a.version⟩ := by
    refine ⟨rfl, before ++ { t with fields := fs } :: after, ?_, .refl _⟩
    rw [htables]
    apply List.rel_append (List.forall₂_same.mpr fun u _ => SameTable.refl u)
    exact .cons ⟨rfl, hperm⟩ (List.forall₂_same.mpr fun u _ => SameTable.refl u)
  have hrows := rows_eq_iff.mp (h _ hreordered) t.name
  rw [htables, group_append, group_append, group_cons_of_eq rfl, group_cons_of_eq rfl,
    List.map_append, List.map_append, List.append_cancel_left_eq, List.map_cons,
    List.map_cons] at hrows
  exact columns_eq_iff.mp (List.cons.inj hrows).1 f

theorem uniform_tables_of_rows (h : ∀ s, Reordered a s → rows s = rows a) :
    Uniform TableDef.name columns a.tables := by
  apply uniform_of_map_group
  intro ts hperm n
  have hreordered : Reordered a ⟨ts, a.version⟩ :=
    ⟨rfl, a.tables, List.forall₂_same.mpr fun t _ => SameTable.refl t, hperm⟩
  exact rows_eq_iff.mp (h _ hreordered) n

/-- The order of the declarations matters to the hash unless they are consistent. -/
theorem rows_reordered_iff : (∀ s, Reordered a s → rows s = rows a) ↔ Consistent a := by
  constructor
  · intro h
    refine ⟨?_, fun t ht => uniform_fields_of_rows h ht⟩
    intro t ht u hu hname
    exact perm_of_columns (uniform_tables_of_rows h t ht u hu hname)
  · exact fun h s hr => h.rows_eq hr

theorem columns_eq_of_counts (ht : Uniform FieldDef.name FieldDef.fieldType t.fields)
    (hu : Uniform FieldDef.name FieldDef.fieldType u.fields) (h : SameFields t u)
    (hcounts : ∀ f, (group FieldDef.name t.fields f).length =
      (group FieldDef.name u.fields f).length) : columns t = columns u := by
  rw [columns_eq_iff]
  intro f
  have hlast := h f
  rw [lastNamed_eq, lastNamed_eq] at hlast
  exact ht.map_group_eq hu (hcounts f) hlast

theorem rows_eq_of_counts (ha : Consistent a) (hb : Consistent b) (h : SameEffect a b)
    (hcounts : SameCounts a b) : rows a = rows b := by
  rw [rows_eq_iff]
  intro n
  obtain ⟨hlen, hfields⟩ := hcounts n
  apply ha.uniform.map_group_eq hb.uniform hlen
  have hn := h n
  rw [lastNamed_eq, lastNamed_eq] at hn
  cases hl : (group TableDef.name a.tables n).getLast? with
  | none =>
    rw [hl] at hn
    cases hl' : (group TableDef.name b.tables n).getLast? with
    | none => rfl
    | some u =>
      rw [hl'] at hn
      cases hn
  | some t =>
    rw [hl] at hn
    cases hl' : (group TableDef.name b.tables n).getLast? with
    | none =>
      rw [hl'] at hn
      cases hn
    | some u =>
      rw [hl'] at hn
      cases hn with
      | some hsame =>
        have ht := List.mem_of_getLast? hl
        have hu := List.mem_of_getLast? hl'
        exact congrArg some (columns_eq_of_counts (ha.fields t (mem_group.mp ht).1)
          (hb.fields u (mem_group.mp hu).1) hsame (hfields t ht u hu))

theorem counts_of_rows (ha : Consistent a) (h : rows a = rows b) : SameCounts a b := by
  intro n
  have hgroup := rows_eq_iff.mp h n
  refine ⟨by simpa using congrArg List.length hgroup, ?_⟩
  intro t ht u hu f
  have hmem : columns u ∈ (group TableDef.name a.tables n).map columns := by
    rw [hgroup]
    exact List.mem_map_of_mem hu
  obtain ⟨v, hv, hcolumns⟩ := List.mem_map.mp hmem
  obtain ⟨hta, htn⟩ := mem_group.mp ht
  obtain ⟨hva, hvn⟩ := mem_group.mp hv
  have hsame : columns t = columns u :=
    (ha.uniform t hta v hva (htn.trans hvn.symm)).trans hcolumns
  simpa using congrArg List.length (columns_eq_iff.mp hsame f)

end Tables

/-- No two of the texts hashed for the schemas, in any order of their declarations, collide. -/
def CollisionFree (lib : IdentityLibraries) (a b : Schema) : Prop :=
  Set.InjOn lib.sha256 { bytes | ∃ s, (Reordered a s ∨ Reordered b s) ∧ bytes = s.hashedBytes }

/-- The hash and the comparison decide the same identity, whatever the order of the declarations;
so the gate never finds two registered definitions of different hashes alike, nor one hash for
two definitions that differ. -/
structure SameIdentity (lib : IdentityLibraries) (a b : Schema) : Prop where
  decided : a.identifierHash lib = b.identifierHash lib ↔ (diffSchemas a b).isIdentical = true
  reordered : ∀ s, Reordered a s → s.identifierHash lib = a.identifierHash lib
  reordered' : ∀ s, Reordered b s → s.identifierHash lib = b.identifierHash lib
  classified : ∀ e : CrdtEngine, e.schemaDefinitions.lookup e.knownSchemaHash = some a →
    e.knownSchemaHash = a.identifierHash lib →
    e.schemaDefinitions.lookup (b.identifierHash lib) = some b →
    (b.identifierHash lib ∉ e.knownSchemas → e.knownSchemaHash ∈ e.knownSchemas →
      e.classifyIncomingSchema (b.identifierHash lib) ≠ .unknown) ∧
    (e.knownSchemaHash = b.identifierHash lib → (diffSchemas a b).isIdentical = true)

section Identity
variable {lib : IdentityLibraries} {a b s t : Schema}

theorem Named.reordered (ha : Named a) (h : Reordered a s) : Named s := by
  obtain ⟨ts, hsame, hperm⟩ := h.tables
  intro u hu
  obtain ⟨i, hi, rfl⟩ := List.mem_iff_getElem.mp (hperm.mem_iff.mpr hu)
  have hlen := hsame.length_eq
  have htu := hsame.get (i := i) (by omega) hi
  obtain ⟨hname, hfields⟩ := ha _ (List.getElem_mem (by omega : i < a.tables.length))
  exact ⟨htu.name_eq ▸ hname, fun f hf => hfields f (htu.2.mem_iff.mpr hf)⟩

/-- Without collisions the hash decides what it reads. -/
theorem hash_eq_iff (ha : Named a) (hb : Named b) (hsha : CollisionFree lib a b)
    (hs : Reordered a s ∨ Reordered b s) (ht : Reordered a t ∨ Reordered b t) :
    s.identifierHash lib = t.identifierHash lib ↔ rows s = rows t := by
  have hnamed : ∀ u, Reordered a u ∨ Reordered b u → Named u := by
    rintro u (hu | hu)
    · exact Named.reordered ha hu
    · exact Named.reordered hb hu
  rw [← hashedBytes_eq_iff (hnamed s hs) (hnamed t ht)]
  exact ⟨fun h => hsha ⟨s, hs, rfl⟩ ⟨t, ht, rfl⟩ h, fun h => congrArg lib.sha256 h⟩

/-- A comparison that finds something finds an addition, a removal or a retyping. -/
theorem isAdditive_or_isBreaking {d : SchemaDiff} (h : d.isIdentical ≠ true) :
    d.isAdditive = true ∨ d.isBreaking = true := by
  by_cases hb : d.isBreaking = true
  · exact Or.inr hb
  · refine Or.inl ?_
    simp only [SchemaDiff.isBreaking, Bool.or_eq_true, Bool.not_eq_true', not_or,
      Bool.not_eq_false] at hb
    simp only [SchemaDiff.isAdditive, Bool.and_eq_true, Bool.not_eq_true']
    exact ⟨⟨⟨Bool.eq_false_iff.mpr h, hb.1.1⟩, hb.1.2⟩, hb.2⟩

theorem classify_of_decided
    (h : a.identifierHash lib = b.identifierHash lib ↔ (diffSchemas a b).isIdentical = true)
    {e : CrdtEngine} (ha : e.schemaDefinitions.lookup e.knownSchemaHash = some a)
    (hhash : e.knownSchemaHash = a.identifierHash lib)
    (hb : e.schemaDefinitions.lookup (b.identifierHash lib) = some b)
    (hnew : b.identifierHash lib ∉ e.knownSchemas) (hknown : e.knownSchemaHash ∈ e.knownSchemas) :
    e.classifyIncomingSchema (b.identifierHash lib) ≠ .unknown := by
  have hne : (diffSchemas a b).isIdentical ≠ true := by
    intro hidentical
    apply hnew
    rw [← h.mpr hidentical, ← hhash]
    exact hknown
  rw [CrdtEngine.classifyIncomingSchema, if_neg hnew, ha, hb]
  dsimp only
  rcases isAdditive_or_isBreaking hne with hadditive | hbreaking
  · rw [if_pos hadditive]
    exact fun h => (by cases h)
  · split
    · exact fun h => (by cases h)
    · exact fun h => (by cases h)

/-- Hash and comparison agree exactly when repeated names are declared alike, and equally often in
schemas whose last declarations have the same effect. -/
theorem sameIdentity_iff {text : TextLibraries} (ha : ∃ source, parse text source = .ok a)
    (hb : ∃ source, parse text source = .ok b) (hsha : CollisionFree lib a b) :
    SameIdentity lib a b ↔
      Consistent a ∧ Consistent b ∧ (SameEffect a b → SameCounts a b) := by
  obtain ⟨sourceA, ha⟩ := ha
  obtain ⟨sourceB, hb⟩ := hb
  have hhash : ∀ s t, Reordered a s ∨ Reordered b s → Reordered a t ∨ Reordered b t →
      (s.identifierHash lib = t.identifierHash lib ↔ rows s = rows t) :=
    fun s t => hash_eq_iff (named_of_parse ha) (named_of_parse hb) hsha
  have hself : Reordered a a ∨ Reordered b a := Or.inl (.refl a)
  have hother : Reordered a b ∨ Reordered b b := Or.inr (.refl b)
  constructor
  · intro h
    have hca : Consistent a := rows_reordered_iff.mp fun s hs =>
      (hhash s a (Or.inl hs) hself).mp (h.reordered s hs)
    have hcb : Consistent b := rows_reordered_iff.mp fun s hs =>
      (hhash s b (Or.inr hs) hother).mp (h.reordered' s hs)
    refine ⟨hca, hcb, ?_⟩
    intro heffect
    exact counts_of_rows hca ((hhash a b hself hother).mp (h.decided.mpr
      (isIdentical_iff.mpr heffect)))
  · rintro ⟨hca, hcb, hcounts⟩
    have hdecided : a.identifierHash lib = b.identifierHash lib ↔
        (diffSchemas a b).isIdentical = true := by
      rw [hhash a b hself hother, isIdentical_iff]
      exact ⟨sameEffect_of_rows, fun h => rows_eq_of_counts hca hcb h (hcounts h)⟩
    refine ⟨hdecided, ?_, ?_, ?_⟩
    · intro s hs
      exact (hhash s a (Or.inl hs) hself).mpr (hca.rows_eq hs)
    · intro s hs
      exact (hhash s b (Or.inr hs) hother).mpr (hcb.rows_eq hs)
    · intro e hla hea hlb
      refine ⟨fun hnew hknown => classify_of_decided hdecided hla hea hlb hnew hknown, ?_⟩
      intro hsame
      exact hdecided.mp (hea.symm.trans hsame)

/-- Consistent schemas are hashed alike in every order. -/
theorem collisionFree_of_consistent (ha : Consistent a) (hb : Consistent b)
    (h : lib.sha256 a.hashedBytes = lib.sha256 b.hashedBytes → a.hashedBytes = b.hashedBytes) :
    CollisionFree lib a b := by
  have hbytes : ∀ s, Reordered a s ∨ Reordered b s →
      s.hashedBytes = a.hashedBytes ∨ s.hashedBytes = b.hashedBytes := by
    rintro s (hs | hs)
    · exact Or.inl (by rw [hashedBytes_eq, hashedBytes_eq, ha.rows_eq hs])
    · exact Or.inr (by rw [hashedBytes_eq, hashedBytes_eq, hb.rows_eq hs])
  rintro _ ⟨s, hs, rfl⟩ _ ⟨t, ht, rfl⟩ hsha
  rcases hbytes s hs with hs | hs <;> rcases hbytes t ht with ht | ht <;> rw [hs, ht] at hsha ⊢
  · exact h hsha
  · exact (h hsha.symm).symm

end Identity

def sampleLibraries : IdentityLibraries := (CrdtEngine.sampleLibraries []).toIdentityLibraries

def notesTable : TableDef := ⟨"t", [⟨"x", .text, true, none⟩], .none, []⟩

def singleSource : String :=
  "schema \x7b version = \"1\" table t \x7b compaction = none x TEXT \x7d \x7d"

def repeatedSource : String :=
  "schema \x7b version = \"1\" table t \x7b compaction = none x TEXT \x7d " ++
    "table t \x7b compaction = none x TEXT \x7d \x7d"

def singleSchema : Schema := ⟨[notesTable], "1"⟩

def repeatedSchema : Schema := ⟨[notesTable, notesTable], "1"⟩

theorem consistent_repeated : Consistent repeatedSchema :=
  ⟨by decide, by unfold Uniform; decide⟩

theorem consistent_single : Consistent singleSchema :=
  ⟨by decide, by unfold Uniform; decide⟩

/-- The grammar accepts a table twice; the comparison does not see it, the hash does. -/
theorem repeated_table_hashed :
    parse PrinterIdentity.sampleTexts singleSource = .ok singleSchema ∧
      parse PrinterIdentity.sampleTexts repeatedSource = .ok repeatedSchema ∧
      CollisionFree sampleLibraries singleSchema repeatedSchema ∧
      ¬ SameIdentity sampleLibraries singleSchema repeatedSchema := by
  have hne : singleSchema.identifierHash sampleLibraries ≠
      repeatedSchema.identifierHash sampleLibraries := by decide +kernel
  refine ⟨by decide +kernel, by decide +kernel, ?_, ?_⟩
  · exact collisionFree_of_consistent consistent_single consistent_repeated
      fun h => absurd h hne
  · intro h
    exact hne (h.decided.mpr (by decide +kernel))

def retypedSource : String :=
  "schema \x7b version = \"2\" table u \x7b compaction = none y INTEGER z TEXT \x7d " ++
    "table t \x7b compaction = none x BLOB \x7d \x7d"

def plainSource : String :=
  "schema \x7b version = \"1\" table t \x7b compaction = none x TEXT \x7d " ++
    "table u \x7b compaction = none z TEXT y INTEGER \x7d \x7d"

def retypedSchema : Schema :=
  ⟨[⟨"u", [⟨"y", .integer, true, none⟩, ⟨"z", .text, true, none⟩], .none, []⟩,
    ⟨"t", [⟨"x", .blob, true, none⟩], .none, []⟩], "2"⟩

def plainSchema : Schema :=
  ⟨[notesTable, ⟨"u", [⟨"z", .text, true, none⟩, ⟨"y", .integer, true, none⟩], .none, []⟩], "1"⟩

theorem retyped_sameIdentity : SameIdentity sampleLibraries plainSchema retypedSchema := by
  have hplain : Consistent plainSchema := ⟨by decide, by unfold Uniform; decide⟩
  have hretyped : Consistent retypedSchema := ⟨by decide, by unfold Uniform; decide⟩
  have hne : plainSchema.identifierHash sampleLibraries ≠
      retypedSchema.identifierHash sampleLibraries := by decide +kernel
  have hfree : CollisionFree sampleLibraries plainSchema retypedSchema :=
    collisionFree_of_consistent hplain hretyped fun h => absurd h hne
  have hfirst : parse PrinterIdentity.sampleTexts plainSource = .ok plainSchema := by
    decide +kernel
  have hsource : parse PrinterIdentity.sampleTexts retypedSource = .ok retypedSchema := by
    decide +kernel
  refine (sameIdentity_iff ⟨_, hfirst⟩ ⟨_, hsource⟩ hfree).mpr ⟨hplain, hretyped, ?_⟩
  intro heffect
  exact absurd (isIdentical_iff.mpr heffect) (by decide +kernel)

end TirBase.SchemaIdentity
