import TirBase.PegRules
import TirBase.SchemaDefinition

/-! # The schema language: grammar, parser and printer -/
namespace TirBase.SchemaText
open Peg

/-- `TirBaseError::SchemaParseError`. -/
structure SchemaParseError where
  line : ℕ
  col : ℕ
  description : String
  deriving DecidableEq

/-- How doubles, given by their bits, are shown and read, and what the parser generator reports
about a text that its grammar refuses. -/
structure TextLibraries where
  displayFloat : Fin (2 ^ 64) → String
  parseFloat : String → Fin (2 ^ 64)
  diagnose : String → SchemaParseError

def isBlank (c : Char) : Bool := c == ' ' || c == '\t' || c == '\r' || c == '\n'

/-- Drops blanks and comments; the flag says that a comment is open. -/
def skipFrom : Bool → List Char → List Char
  | _, [] => []
  | true, c :: cs => skipFrom (c != '\n') cs
  | false, '/' :: '/' :: cs => skipFrom true cs
  | false, c :: cs => if isBlank c then skipFrom false cs else c :: cs

def skip : List Char → List Char := skipFrom false

def keyword (s : String) (cs : List Char) : Option (List Char) := literal s.toList cs

def isIdentStart (c : Char) : Bool := c.isAlpha || c == '_'

def isIdentPart (c : Char) : Bool := c.isAlphanum || c == '_'

def ident : Rule (List Char)
  | [] => none
  | c :: cs =>
    if isIdentStart c then some (c :: cs.takeWhile isIdentPart, cs.dropWhile isIdentPart)
    else none

def digits : Rule (List Char) := fun cs =>
  if (cs.takeWhile Char.isDigit).isEmpty then none
  else some (cs.takeWhile Char.isDigit, cs.dropWhile Char.isDigit)

def integerLiteral : Rule (List Char) := fun cs =>
  match keyword "-" cs with
  | some cs => (digits cs).map fun (ds, cs) => ('-' :: ds, cs)
  | none => digits cs

def realLiteral : Rule (List Char) := fun cs => do
  let (whole, cs) ← integerLiteral cs
  let cs ← keyword "." cs
  return (whole ++ '.' :: cs.takeWhile Char.isDigit, cs.dropWhile Char.isDigit)

def stringLiteral : Rule (List Char) := fun cs => do
  let cs ← keyword "\"" cs
  let rest ← keyword "\"" (cs.dropWhile (· != '"'))
  return ('"' :: cs.takeWhile (· != '"') ++ ['"'], rest)

inductive DefaultPair
  | real (text : List Char)
  | integer (text : List Char)
  | string (text : List Char)
  | boolTrue
  | boolFalse
  | null
  deriving DecidableEq

structure FieldPair where
  ident : List Char
  fieldType : List Char
  notNullModifier : Bool
  defaultModifier : Option DefaultPair
  deriving DecidableEq

inductive ItemPair
  | primaryKey (columns : List (List Char))
  | unique (columns : List (List Char))
  | field (f : FieldPair)
  deriving DecidableEq

/-- A table; its compaction directive holds the threshold when it is aggressive. -/
structure TablePair where
  ident : List Char
  compaction : Option (List Char)
  items : List ItemPair
  deriving DecidableEq

structure SchemaPair where
  version : List Char
  tables : List TablePair
  deriving DecidableEq

def defaultValue : Rule DefaultPair := fun cs =>
  ((realLiteral cs).map fun (t, cs) => (.real t, cs)) <|>
  ((integerLiteral cs).map fun (t, cs) => (.integer t, cs)) <|>
  ((stringLiteral cs).map fun (t, cs) => (.string t, cs)) <|>
  ((keyword "true" cs).map fun cs => (.boolTrue, cs)) <|>
  ((keyword "false" cs).map fun cs => (.boolFalse, cs)) <|>
  ((keyword "null" cs).map fun cs => (.null, cs))

def fieldType : Rule (List Char) := fun cs =>
  ["TEXT", "INTEGER", "REAL", "BLOB", "BOOLEAN"].findSome? fun s =>
    (keyword s cs).map fun cs => (s.toList, cs)

def compactionAggressive : Rule (List Char) := fun cs => do
  let cs ← keyword "aggressive" cs
  let cs ← keyword "(" (skip cs)
  let (threshold, cs) ← integerLiteral (skip cs)
  let cs ← keyword ")" (skip cs)
  return (threshold, cs)

def compactionDirective : Rule (Option (List Char)) := fun cs => do
  let cs ← keyword "compaction" cs
  let cs ← keyword "=" (skip cs)
  ((compactionAggressive (skip cs)).map fun (t, cs) => (some t, cs)) <|>
    (keyword "none" (skip cs)).map fun cs => (none, cs)

def notNullModifier : Rule Unit := fun cs => do
  let cs ← keyword "NOT" cs
  let cs ← keyword "NULL" (skip cs)
  return ((), cs)

def defaultModifier : Rule DefaultPair := fun cs => do
  let cs ← keyword "DEFAULT" cs
  defaultValue (skip cs)

def fieldDef : Rule FieldPair := fun cs => do
  let (name, cs) ← ident cs
  let (type, cs) ← fieldType (skip cs)
  let (notNull, cs) := attempt notNullModifier (skip cs)
  let (default, cs) := attempt defaultModifier (skip cs)
  return (⟨name, type, notNull.isSome, default⟩, cs)

def nextColumn : Rule (List Char) := fun cs => do
  let cs ← keyword "," cs
  ident (skip cs)

def columnList : Rule (List (List Char)) := fun cs => do
  let cs ← keyword "(" cs
  let (column, cs) ← ident (skip cs)
  let (columns, cs) := many skip nextColumn cs.length cs
  let cs ← keyword ")" (skip cs)
  return (column :: columns, cs)

def primaryKeyConstraint : Rule ItemPair := fun cs => do
  let cs ← keyword "PRIMARY" cs
  let cs ← keyword "KEY" (skip cs)
  let (columns, cs) ← columnList (skip cs)
  return (.primaryKey columns, cs)

def uniqueConstraint : Rule ItemPair := fun cs => do
  let cs ← keyword "UNIQUE" cs
  let (columns, cs) ← columnList (skip cs)
  return (.unique columns, cs)

def tableItem : Rule ItemPair := fun cs =>
  primaryKeyConstraint cs <|> uniqueConstraint cs <|>
    (fieldDef cs).map fun (f, cs) => (.field f, cs)

def tableDef : Rule TablePair := fun cs => do
  let cs ← keyword "table" cs
  let (name, cs) ← ident (skip cs)
  let cs ← keyword "\x7b" (skip cs)
  let (compaction, cs) ← compactionDirective (skip cs)
  let (items, cs) := many skip tableItem cs.length cs
  let cs ← keyword "\x7d" (skip cs)
  return (⟨name, compaction, items⟩, cs)

def versionDirective : Rule (List Char) := fun cs => do
  let cs ← keyword "version" cs
  let cs ← keyword "=" (skip cs)
  stringLiteral (skip cs)

def schema (cs : List Char) : Option SchemaPair := do
  let cs ← keyword "schema" (skip cs)
  let cs ← keyword "\x7b" (skip cs)
  let (version, cs) ← versionDirective (skip cs)
  let (tables, cs) := many skip tableDef cs.length cs
  let cs ← keyword "\x7d" (skip cs)
  if (skip cs).isEmpty then some ⟨version, tables⟩ else none

/-- `s[1..s.len() - 1]` of a string literal. -/
def unquoted (text : List Char) : String := String.ofList (text.drop 1).dropLast

def signedValue : List Char → ℤ
  | '-' :: ds => -(Nat.ofDigitChars 10 ds 0 : ℤ)
  | ds => Nat.ofDigitChars 10 ds 0

/-- `str::parse::<i64>` of an integer literal. -/
def parseI64 (text : List Char) : Option ℤ :=
  if -2 ^ 63 ≤ signedValue text ∧ signedValue text < 2 ^ 63 then some (signedValue text) else none

/-- `str::parse::<u64>` of an integer literal. -/
def parseU64 (text : List Char) : Option ℕ :=
  match text with
  | '-' :: _ => none
  | ds => if Nat.ofDigitChars 10 ds 0 < 2 ^ 64 then some (Nat.ofDigitChars 10 ds 0) else none

def parseCompactionDirective : Option (List Char) → CompactionPolicy
  | none => .none
  | some text =>
    match parseU64 text with
    | some threshold => .aggressive threshold
    | none => .none

def parseFieldType (text : List Char) : FieldType :=
  match String.ofList text with
  | "TEXT" => .text
  | "INTEGER" => .integer
  | "REAL" => .real
  | "BLOB" => .blob
  | "BOOLEAN" => .boolean
  | _ => .text

theorem parseFieldType_canonicalStr (t : FieldType) :
    parseFieldType t.canonicalStr.toList = t := by
  rw [parseFieldType, String.ofList_toList]
  cases t <;> rfl

def parseConstraint (f : List String → Constraint) (columns : List (List Char)) : Constraint :=
  f (columns.map String.ofList)

variable (lib : TextLibraries)

def parseDefaultValue : DefaultPair → DefaultValue
  | .real text => .real (lib.parseFloat (String.ofList text))
  | .integer text => .integer ((parseI64 text).getD 0)
  | .string text => .text (unquoted text)
  | .boolTrue => .boolean true
  | .boolFalse => .boolean false
  | .null => .null

def parseFieldDef (f : FieldPair) : FieldDef :=
  ⟨String.ofList f.ident, parseFieldType f.fieldType, !f.notNullModifier,
    f.defaultModifier.map (parseDefaultValue lib)⟩

/-- The fields of a table, whatever stands between them. -/
def parseFields (items : List ItemPair) : List FieldDef :=
  items.filterMap fun
    | .field f => some (parseFieldDef lib f)
    | _ => none

def parseConstraints (items : List ItemPair) : List Constraint :=
  items.filterMap fun
    | .primaryKey columns => some (parseConstraint .primaryKey columns)
    | .unique columns => some (parseConstraint .unique columns)
    | .field _ => none

def parseTableDef (t : TablePair) : TableDef :=
  ⟨String.ofList t.ident, parseFields lib t.items, parseCompactionDirective t.compaction,
    parseConstraints t.items⟩

def parse (source : String) : Except (List SchemaParseError) Schema :=
  match schema source.toList with
  | none => .error [lib.diagnose source]
  | some s => .ok ⟨s.tables.map (parseTableDef lib), unquoted s.version⟩

def printCompaction : CompactionPolicy → String
  | .aggressive threshold => "aggressive(" ++ toString threshold ++ ")"
  | .none => "none"

/-- A double that is shown without a point and an exponent gets a point. -/
def printReal (f : Fin (2 ^ 64)) : String :=
  let s := lib.displayFloat f
  if s.toList.any fun c => c == '.' || c == 'e' || c == 'E' then s else s ++ ".0"

def printDefaultValue : DefaultValue → String
  | .text s => "\"" ++ s ++ "\""
  | .integer i => toString i
  | .real f => printReal lib f
  | .boolean true => "true"
  | .boolean false => "false"
  | .null => "null"

def printField (f : FieldDef) : String :=
  " ".intercalate ([f.name, f.fieldType.canonicalStr] ++
    (if f.nullable then [] else ["NOT NULL"]) ++
    match f.default with
    | some d => ["DEFAULT " ++ printDefaultValue lib d]
    | none => [])

def printConstraint : Constraint → String
  | .primaryKey cols => "PRIMARY KEY (" ++ ", ".intercalate cols ++ ")"
  | .unique cols => "UNIQUE (" ++ ", ".intercalate cols ++ ")"
  | .notNull col => "// NOT NULL " ++ col

def printTable (t : TableDef) : String :=
  "  table " ++ t.name ++ " \x7b\n" ++
  "    compaction = " ++ printCompaction t.compactionPolicy ++ "\n" ++
  (if t.fields.isEmpty then "" else "\n") ++
  String.join (t.fields.map fun f => "    " ++ printField lib f ++ "\n") ++
  (if t.constraints.isEmpty then "" else "\n") ++
  String.join (t.constraints.map fun c => "    " ++ printConstraint c ++ "\n") ++
  "  \x7d\n"

def print (s : Schema) : String :=
  "schema \x7b\n" ++ "  version = \"" ++ s.version ++ "\"\n" ++
  String.join (s.tables.map fun t => "\n" ++ printTable lib t) ++ "\x7d\n"

end TirBase.SchemaText
