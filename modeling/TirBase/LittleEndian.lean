import TirBase.Primitives

/-! # Little-endian numbers

A number of a fixed width as bytes, the least significant first. -/
namespace TirBase.LittleEndian

/-- `to_le_bytes` at the given width. -/
def toBytes : ℕ → ℕ → Bytes
  | 0, _ => []
  | width + 1, n => Fin.ofNat 256 n :: toBytes width (n / 256)

/-- `from_le_bytes`. -/
def ofBytes : Bytes → ℕ
  | [] => 0
  | b :: rest => b.val + 256 * ofBytes rest

@[simp] theorem length_toBytes (width n : ℕ) : (toBytes width n).length = width := by
  induction width generalizing n with
  | zero => rfl
  | succ width ih => simp [toBytes, ih]

theorem ofBytes_toBytes (width n : ℕ) : ofBytes (toBytes width n) = n % 256 ^ width := by
  induction width generalizing n with
  | zero => simp [toBytes, ofBytes, Nat.mod_one]
  | succ width ih =>
    have hsplit := Nat.mod_mul (a := 256) (b := 256 ^ width) (x := n)
    simp only [toBytes, ofBytes, ih, Fin.ofNat]
    rw [Nat.pow_succ', hsplit]

theorem ofBytes_toBytes_of_lt {width n : ℕ} (h : n < 256 ^ width) :
    ofBytes (toBytes width n) = n := by
  rw [ofBytes_toBytes, Nat.mod_eq_of_lt h]

end TirBase.LittleEndian
