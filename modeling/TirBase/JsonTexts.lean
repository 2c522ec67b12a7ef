import TirBase.ScalarProjection

/-! # Values that survive their JSON text

The reader of `serde_json` gives up on values nested too deep, and reads some doubles back as a
neighbour. -/
namespace TirBase

namespace JsonValue

mutual

def depth : JsonValue → ℕ
  | .array items => depthOfItems items + 1
  | .object members => depthOfMembers members + 1
  | _ => 0

def depthOfItems : List JsonValue → ℕ
  | [] => 0
  | v :: vs => max v.depth (depthOfItems vs)

def depthOfMembers : List (String × JsonValue) → ℕ
  | [] => 0
  | (_, v) :: ms => max v.depth (depthOfMembers ms)

end

mutual

/-- The doubles of a value, by their bits. -/
def doubles : JsonValue → List (Fin (2 ^ 64))
  | .number (.float bits) => [bits]
  | .array items => doublesOfItems items
  | .object members => doublesOfMembers members
  | _ => []

def doublesOfItems : List JsonValue → List (Fin (2 ^ 64))
  | [] => []
  | v :: vs => v.doubles ++ doublesOfItems vs

def doublesOfMembers : List (String × JsonValue) → List (Fin (2 ^ 64))
  | [] => []
  | (_, v) :: ms => v.doubles ++ doublesOfMembers ms

end

inductive Kind
  | null | bool | integer | double | string | array | object
  deriving DecidableEq

def kind : JsonValue → Kind
  | .null => .null
  | .bool _ => .bool
  | .number (.float _) => .double
  | .number _ => .integer
  | .string _ => .string
  | .array _ => .array
  | .object _ => .object

end JsonValue

namespace ScalarProjection

def recursionLimit : ℕ := 128

def JsonText.ReadsDouble (json : JsonText) (bits : Fin (2 ^ 64)) : Prop :=
  json.fromStr (json.toString (.number (.float bits))) = .ok (.number (.float bits))

/-- The value nests less deep than the reader goes, and all its doubles are read back. -/
structure JsonText.Kept (json : JsonText) (v : JsonValue) : Prop where
  depth : v.depth < recursionLimit
  doubles : ∀ bits ∈ v.doubles, json.ReadsDouble bits

/-- What `serde_json` promises of a value: these are the ones that are read back. -/
def JsonText.Documented (json : JsonText) (v : JsonValue) : Prop :=
  json.fromStr (json.toString v) = .ok v ↔ json.Kept v

/-- And a text is read as a value of the kind it was written from. -/
structure JsonText.Describes (json : JsonText) (v : JsonValue) : Prop where
  documented : json.Documented v
  kind : ∀ v', json.fromStr (json.toString v) = .ok v' → v'.kind = v.kind

end ScalarProjection

end TirBase
