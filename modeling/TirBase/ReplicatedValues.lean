import TirBase.CoreHandle
import TirBase.JsonTexts

/-! # Values on their way through the document

A receiver stores the scalar that the author put into the document, read back, and read as JSON
once more where it is a text. -/
namespace TirBase.ReplicatedValues
open CoreHandle ScalarProjection

def projected (json : JsonText) (v : JsonValue) : JsonValue :=
  storedValue json ((jsonOfScalar (scalarOfJson json v)).getD .null)

/-- The value comes out of the document as it went in: it is no integer beyond 63 bits and no text
that reads as JSON. -/
def Unaltered (json : JsonText) : JsonValue → Prop
  | .number (.posInt n) => n.val < 2 ^ 63
  | .string s => ∀ w, json.fromStr s ≠ .ok w
  | _ => True

/-- A `serde_json` number is never infinite or NaN. -/
def FiniteDoubles (v : JsonValue) : Prop := ∀ bits ∈ v.doubles, isFinite bits = true

section Shapes
variable {json : JsonText}

theorem jsonOfInt_nonneg (n : Fin (2 ^ 64)) : jsonOfInt n.val = .number (.posInt n) := by
  have hn : (0 : ℤ) ≤ n.val := by omega
  rw [jsonOfInt, if_pos hn]
  congr 2
  apply Fin.ext
  simp

theorem jsonOfInt_neg (n : Fin (2 ^ 63)) :
    jsonOfInt (-(n.val : ℤ) - 1) = .number (.negInt n) := by
  have hn : ¬(0 : ℤ) ≤ -(n.val : ℤ) - 1 := by omega
  have hback : -(-(n.val : ℤ) - 1) - 1 = n.val := by omega
  rw [jsonOfInt, if_neg hn, hback]
  congr 2
  apply Fin.ext
  simp

theorem projected_of_scalar {v u : JsonValue} (h : jsonOfScalar (scalarOfJson json v) = some u) :
    projected json v = storedValue json u := by
  rw [projected, h, Option.getD_some]

theorem projected_of_number {v : JsonValue} {m : JsonNumber}
    (h : jsonOfScalar (scalarOfJson json v) = some (.number m)) : projected json v = .number m :=
  projected_of_scalar h

theorem projected_posInt_of_lt {n : Fin (2 ^ 64)} (hn : n.val < 2 ^ 63) :
    projected json (.number (.posInt n)) = .number (.posInt n) := by
  have hscalar : scalarOfNumber (.posInt n) = .int n.val := if_pos hn
  apply projected_of_number
  change jsonOfScalar (scalarOfNumber (.posInt n)) = _
  rw [hscalar]
  exact congrArg some (jsonOfInt_nonneg n)

/-- Beyond 63 bits an integer comes back as a double. -/
theorem projected_posInt_of_ge {n : Fin (2 ^ 64)} (hn : ¬n.val < 2 ^ 63) :
    projected json (.number (.posInt n)) = jsonOfF64 (largeU64AsF64 n) := by
  have hscalar : scalarOfNumber (.posInt n) = .f64 (largeU64AsF64 n) := if_neg hn
  have hu : jsonOfScalar (scalarOfJson json (.number (.posInt n))) =
      some (jsonOfF64 (largeU64AsF64 n)) := by
    change jsonOfScalar (scalarOfNumber (.posInt n)) = _
    rw [hscalar]
    rfl
  rw [projected_of_scalar hu, jsonOfF64]
  split_ifs <;> rfl

theorem projected_negInt (n : Fin (2 ^ 63)) :
    projected json (.number (.negInt n)) = .number (.negInt n) := by
  apply projected_of_number
  exact congrArg some (jsonOfInt_neg n)

theorem projected_float {bits : Fin (2 ^ 64)} (h : isFinite bits = true) :
    projected json (.number (.float bits)) = .number (.float bits) := by
  apply projected_of_number
  exact congrArg some (if_pos h)

theorem projected_string (s : String) :
    projected json (.string s) = storedValue json (.string s) := rfl

theorem projected_string_of_ok {s : String} {w : JsonValue} (h : json.fromStr s = .ok w) :
    projected json (.string s) = w := by
  rw [projected_string]
  simp only [storedValue, h]

theorem projected_string_of_error {s : String} (h : ∀ w, json.fromStr s ≠ .ok w) :
    projected json (.string s) = .string s := by
  rw [projected_string]
  cases hread : json.fromStr s with
  | error e => simp only [storedValue, hread]
  | ok w => exact absurd hread (h w)

theorem projected_composite {v : JsonValue} (hkind : v.kind = .array ∨ v.kind = .object)
    (hread : json.fromStr (json.toString v) = .ok v) : projected json v = v := by
  have hscalar : scalarOfJson json v = .str (json.toString v) := by
    cases v with
    | array items => rfl
    | object members => rfl
    | number n => cases n <;> simp [JsonValue.kind] at hkind
    | _ => simp [JsonValue.kind] at hkind
  have hu : jsonOfScalar (scalarOfJson json v) = some (.string (json.toString v)) := by
    rw [hscalar]
    rfl
  rw [projected_of_scalar hu]
  simp only [storedValue, hread]

/-- A double that stands for a large integer. -/
theorem kind_jsonOfF64 (bits : Fin (2 ^ 64)) : (jsonOfF64 bits).kind ≠ .integer := by
  rw [jsonOfF64]
  split_ifs <;> simp [JsonValue.kind]

theorem projected_eq_self {v : JsonValue} (hfinite : FiniteDoubles v)
    (hread : json.fromStr (json.toString v) = .ok v) (h : Unaltered json v) :
    projected json v = v := by
  cases v with
  | null => rfl
  | bool b => rfl
  | string s => exact projected_string_of_error h
  | array items => exact projected_composite (.inl rfl) hread
  | object members => exact projected_composite (.inr rfl) hread
  | number n =>
    cases n with
    | posInt n => exact projected_posInt_of_lt h
    | negInt n => exact projected_negInt n
    | float bits =>
      apply projected_float
      exact hfinite bits (List.mem_singleton_self bits)

/-- The text of a value and that of what the receiver stores both read as the value exactly when
the text keeps the value and the document does not alter it. -/
theorem reads_iff {v : JsonValue} (hfinite : FiniteDoubles v) (hv : json.Describes v)
    (hprojected : json.Describes (projected json v))
    (hquotes : ∀ s, json.fromStr s ≠ .ok (.string s)) :
    (json.fromStr (json.toString v) = .ok v ∧
      json.fromStr (json.toString (projected json v)) = .ok v) ↔
        json.Kept v ∧ Unaltered json v := by
  rw [← show json.fromStr (json.toString v) = .ok v ↔ json.Kept v from hv.documented]
  constructor
  · rintro ⟨hread, hback⟩
    refine ⟨hread, ?_⟩
    have hkind := hprojected.kind v hback
    cases v with
    | null => trivial
    | bool b => trivial
    | array items => trivial
    | object members => trivial
    | string s =>
      intro w hw
      rw [projected_string_of_ok hw] at hback hkind hprojected
      cases w with
      | string s' =>
        -- a text within the text: it is kept, so it is the text itself
        have hkept : json.Kept (.string s') :=
          ⟨Nat.zero_lt_succ 127, fun _ hbits => absurd hbits List.not_mem_nil⟩
        have hself : json.fromStr (json.toString (.string s')) = .ok (.string s') :=
          hprojected.documented.mpr hkept
        rw [hself] at hback
        cases hback
        exact hquotes s hw
      | number n => cases n <;> cases hkind
      | null => cases hkind
      | bool b => cases hkind
      | array items => cases hkind
      | object members => cases hkind
    | number n =>
      cases n with
      | negInt n => trivial
      | float bits => trivial
      | posInt n =>
        by_contra hlarge
        rw [projected_posInt_of_ge hlarge] at hkind
        exact kind_jsonOfF64 _ hkind.symm
  · rintro ⟨hread, hunaltered⟩
    rw [projected_eq_self hfinite hread hunaltered]
    exact ⟨hread, hread⟩

end Shapes

end TirBase.ReplicatedValues
