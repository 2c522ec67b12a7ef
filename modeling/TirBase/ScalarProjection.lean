import TirBase.AutomergeDocument

/-! # Scalars of the document and JSON values

How a JSON value is written under a `ROOT` key and how the scalar found there is read back. -/
namespace TirBase.ScalarProjection
open Automerge

/-- The JSON text functions of `serde_json`. -/
structure JsonText where
  toString : JsonValue → String
  fromStr : String → Except String JsonValue

/-- `u64 as f64` from `2 ^ 63` on: 52 bits of mantissa, ties to even. -/
def largeU64AsF64 (n : Fin (2 ^ 64)) : Fin (2 ^ 64) :=
  let offset := n.val - 2 ^ 63
  let quotient := offset / 2048
  let rest := offset % 2048
  let roundUp := rest > 1024 ∨ rest = 1024 ∧ quotient % 2 = 1
  Fin.ofNat (2 ^ 64) (1086 * 2 ^ 52 + quotient + if roundUp then 1 else 0)

/-- `as_i64` first, then `as_f64`; the `as_u64` case that follows in the source is not reached,
since every number converts to a double. -/
def scalarOfNumber : JsonNumber → ScalarValue
  | .posInt n => if n.val < 2 ^ 63 then .int n.val else .f64 (largeU64AsF64 n)
  | .negInt n => .int (-(n.val : ℤ) - 1)
  | .float bits => .f64 bits

/-- The scalar that `write_scalar` puts for a value. -/
def scalarOfJson (json : JsonText) : JsonValue → ScalarValue
  | .string s => .str s
  | .number n => scalarOfNumber n
  | .bool b => .boolean b
  | .null => .null
  | value => .str (json.toString value)

def jsonOfInt (n : ℤ) : JsonValue :=
  if 0 ≤ n then .number (.posInt (Fin.ofNat _ n.toNat))
  else .number (.negInt (Fin.ofNat _ (-n - 1).toNat))

def isFinite (bits : Fin (2 ^ 64)) : Bool := bits.val / 2 ^ 52 % 2048 != 2047

/-- `json!(f)`: a double that is not finite becomes `null`. -/
def jsonOfF64 (bits : Fin (2 ^ 64)) : JsonValue :=
  if isFinite bits then .number (.float bits) else .null

/-- What `read_scalar` returns for a scalar. -/
def jsonOfScalar : ScalarValue → Option JsonValue
  | .str s => some (.string s)
  | .int n => some (jsonOfInt n)
  | .uint n => some (.number (.posInt (Fin.ofNat _ n)))
  | .f64 bits => some (jsonOfF64 bits)
  | .boolean b => some (.bool b)
  | .null => some .null
  | _ => none

/-- `read_scalar`: an object or a missing key reads as nothing. -/
def readScalar (d : Document) (key : String) : Option JsonValue :=
  (d.rootScalar key).bind jsonOfScalar

/-- Every value written reads back as something. -/
theorem jsonOfScalar_scalarOfJson (json : JsonText) (value : JsonValue) :
    (jsonOfScalar (scalarOfJson json value)).isSome = true := by
  cases value with
  | null => rfl
  | bool b => rfl
  | string s => rfl
  | array items => rfl
  | object members => rfl
  | number n =>
    cases n with
    | posInt n =>
      simp only [scalarOfJson, scalarOfNumber]
      split_ifs <;> rfl
    | negInt n => rfl
    | float bits => rfl

end TirBase.ScalarProjection
