import Mathlib
import TirBase.Primitives

/-! # Schema definitions and their field-level comparison -/
namespace TirBase

inductive CompactionPolicy
  | aggressive (threshold : ℕ)
  | none
  deriving DecidableEq

inductive FieldType
  | text | integer | real | blob | boolean
  deriving DecidableEq

def FieldType.canonicalStr : FieldType → String
  | .text => "TEXT"
  | .integer => "INTEGER"
  | .real => "REAL"
  | .blob => "BLOB"
  | .boolean => "BOOLEAN"

/-- A default; a double is given by its bits. -/
inductive DefaultValue
  | text (s : String)
  | integer (n : ℤ)
  | real (bits : Fin (2 ^ 64))
  | boolean (b : Bool)
  | null
  deriving DecidableEq

inductive Constraint
  | primaryKey (columns : List String)
  | unique (columns : List String)
  | notNull (column : String)
  deriving DecidableEq

structure FieldDef where
  name : String
  fieldType : FieldType
  nullable : Bool
  default : Option DefaultValue
  deriving DecidableEq

structure TableDef where
  name : String
  fields : List FieldDef
  compactionPolicy : CompactionPolicy
  constraints : List Constraint
  deriving DecidableEq

structure Schema where
  tables : List TableDef
  version : String
  deriving DecidableEq

structure FieldRef where
  table : String
  field : String
  deriving DecidableEq

structure RetypedField where
  table : String
  field : String
  fromType : String
  toType : String
  deriving DecidableEq

structure SchemaDiff where
  addedTables : List String
  removedTables : List String
  addedFields : List FieldRef
  removedFields : List FieldRef
  retypedFields : List RetypedField
  deriving DecidableEq

namespace SchemaDiff

def isIdentical (d : SchemaDiff) : Bool :=
  d.addedTables.isEmpty && d.removedTables.isEmpty && d.addedFields.isEmpty &&
    d.removedFields.isEmpty && d.retypedFields.isEmpty

def isAdditive (d : SchemaDiff) : Bool :=
  !d.isIdentical && d.removedTables.isEmpty && d.removedFields.isEmpty && d.retypedFields.isEmpty

def isBreaking (d : SchemaDiff) : Bool :=
  !d.removedTables.isEmpty || !d.removedFields.isEmpty || !d.retypedFields.isEmpty

end SchemaDiff

/-- The entry that collecting pairs into a hash map keeps for a name: the last one. -/
def lastNamed {α : Type*} (name : α → String) (xs : List α) (n : String) : Option α :=
  (xs.filter fun x => name x == n).getLast?

/-- The distinct names in order. -/
def sortedNames {α : Type*} (name : α → String) (xs : List α) : List String :=
  (xs.map name).dedup.insertionSort (· ≤ ·)

def FieldDef.retyped (table field : String) (base incoming : FieldDef) : List RetypedField :=
  let baseType := base.fieldType.canonicalStr
  let incomingType := incoming.fieldType.canonicalStr
  if baseType ≠ incomingType then [⟨table, field, baseType, incomingType⟩] else []

def TableDef.diff (name : String) (base incoming : TableDef) :
    List FieldRef × List FieldRef × List RetypedField :=
  let baseNames := sortedNames FieldDef.name base.fields
  let incomingNames := sortedNames FieldDef.name incoming.fields
  (incomingNames.filterMap fun f => if f ∈ baseNames then none else some ⟨name, f⟩,
    baseNames.filterMap fun f => if f ∈ incomingNames then none else some ⟨name, f⟩,
    baseNames.flatMap fun f =>
      match lastNamed FieldDef.name base.fields f, lastNamed FieldDef.name incoming.fields f with
      | some b, some i => FieldDef.retyped name f b i
      | _, _ => [])

def diffSchemas (base incoming : Schema) : SchemaDiff :=
  let baseNames := sortedNames TableDef.name base.tables
  let incomingNames := sortedNames TableDef.name incoming.tables
  let common := baseNames.filterMap fun n =>
    match lastNamed TableDef.name base.tables n, lastNamed TableDef.name incoming.tables n with
    | some b, some i => some (TableDef.diff n b i)
    | _, _ => none
  { addedTables := incomingNames.filter fun n => n ∉ baseNames
    removedTables := baseNames.filter fun n => n ∉ incomingNames
    addedFields := common.flatMap fun c => c.1
    removedFields := common.flatMap fun c => c.2.1
    retypedFields := common.flatMap fun c => c.2.2 }

end TirBase
