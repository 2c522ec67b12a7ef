import Mathlib

/-! # Numerals between two bases

A list of digits, the most significant first, is rewritten in another base: its leading zeros stay as
they are and the rest is converted as a number. Over an alphabet this spells digits as symbols, and every
text over the alphabet is the spelling of one list of digits. -/
namespace TirBase.PositionalCodes

def leadingZeros (ds : List ℕ) : ℕ := (ds.takeWhile fun d => d = 0).length

/-- The digits in the target base of the number that these are in the source base. -/
def convert (source target : ℕ) (ds : List ℕ) : List ℕ :=
  List.replicate (leadingZeros ds) 0 ++ (Nat.digits target (Nat.ofDigits source ds.reverse)).reverse

variable {source target : ℕ} {ds : List ℕ}

theorem takeWhile_zero (ds : List ℕ) :
    (ds.takeWhile fun d => d = 0) = List.replicate (leadingZeros ds) 0 := by
  apply List.eq_replicate_of_mem
  intro d hd
  simpa using List.mem_takeWhile_imp hd

/-- The leading zeros and the significant digits behind them. -/
theorem split (ds : List ℕ) :
    ds = List.replicate (leadingZeros ds) 0 ++ ds.dropWhile fun d => d = 0 := by
  rw [← takeWhile_zero, List.takeWhile_append_dropWhile]

theorem leadingZeros_append (zeros : ℕ) (h : ∀ d ∈ ds.head?, d ≠ 0) :
    leadingZeros (List.replicate zeros 0 ++ ds) = zeros := by
  induction zeros with
  | zero =>
    cases ds with
    | nil => rfl
    | cons d ds =>
      have hd : d ≠ 0 := h d rfl
      simp [leadingZeros, hd]
  | succ zeros ih =>
    rw [List.replicate_succ, List.cons_append, leadingZeros]
    simpa [leadingZeros] using ih

theorem ofDigits_zeros (base zeros : ℕ) (ds : List ℕ) :
    Nat.ofDigits base (List.replicate zeros 0 ++ ds).reverse = Nat.ofDigits base ds.reverse := by
  rw [List.reverse_append, List.reverse_replicate, Nat.ofDigits_append_replicate_zero]

/-- A numeral has no leading zero. -/
theorem head_digits_reverse (base n : ℕ) : ∀ d ∈ (Nat.digits base n).reverse.head?, d ≠ 0 := by
  intro d hd
  rw [List.head?_reverse] at hd
  by_cases hn : n = 0
  · rw [hn, Nat.digits_zero] at hd
    cases hd
  · have hne : Nat.digits base n ≠ [] := Nat.digits_ne_nil_iff_ne_zero.mpr hn
    rw [List.getLast?_eq_some_getLast hne] at hd
    cases hd
    exact Nat.getLast_digit_ne_zero base hn

theorem head_dropWhile (ds : List ℕ) : ∀ d ∈ (ds.dropWhile fun d => d = 0).head?, d ≠ 0 := by
  intro d hd
  cases hdrop : ds.dropWhile fun d => decide (d = 0) with
  | nil =>
    rw [hdrop] at hd
    cases hd
  | cons e rest =>
    have hhead := List.head?_dropWhile_not (fun d => decide (d = 0)) ds
    rw [hdrop] at hd hhead
    cases hd
    simpa using hhead

theorem convert_lt (htarget : 1 < target) : ∀ d ∈ convert source target ds, d < target := by
  intro d hd
  rcases List.mem_append.mp hd with hzero | hdigit
  · rw [List.eq_of_mem_replicate hzero]
    omega
  · exact Nat.digits_lt_base htarget (List.mem_reverse.mp hdigit)

/-- Converting back restores the digits, leading zeros included. -/
theorem convert_convert (hsource : 1 < source) (hds : ∀ d ∈ ds, d < source) :
    convert target source (convert source target ds) = ds := by
  have hzeros : leadingZeros (convert source target ds) = leadingZeros ds :=
    leadingZeros_append _ (head_digits_reverse target _)
  have hnumber : Nat.ofDigits target (convert source target ds).reverse =
      Nat.ofDigits source (ds.dropWhile fun d => d = 0).reverse := by
    rw [convert, ofDigits_zeros, List.reverse_reverse, Nat.ofDigits_digits]
    conv_lhs => rw [split ds]
    rw [ofDigits_zeros]
  have hdigits : Nat.digits source (Nat.ofDigits source (ds.dropWhile fun d => d = 0).reverse) =
      (ds.dropWhile fun d => d = 0).reverse := by
    apply Nat.digits_ofDigits source hsource
    · intro d hd
      exact hds d ((List.dropWhile_sublist _).mem (List.mem_reverse.mp hd))
    · intro hne
      rw [List.getLast_reverse]
      exact head_dropWhile ds _ (List.head?_eq_some_head _)
  rw [convert, hzeros, hnumber, hdigits, List.reverse_reverse]
  exact (split ds).symm

/-- So many different symbols, in the order of the digits they stand for. -/
structure Alphabet (base : ℕ) where
  symbols : List Char
  nodup : symbols.Nodup
  length_eq : symbols.length = base

namespace Alphabet
variable {base : ℕ} (a : Alphabet base)

def symbol (d : ℕ) : Char := a.symbols.getD d ' '

def digit? (c : Char) : Option ℕ :=
  if c ∈ a.symbols then some (a.symbols.idxOf c) else none

def spell (source : ℕ) (ds : List (Fin source)) : List Char :=
  (convert source base (ds.map Fin.val)).map a.symbol

/-- The digits that a text over the alphabet spells. -/
def read? (source : ℕ) [NeZero source] (text : List Char) : Option (List (Fin source)) :=
  (text.mapM a.digit?).map fun ds => (convert base source ds).map (Fin.ofNat source)

variable {a}

theorem digit?_symbol {d : ℕ} (h : d < base) : a.digit? (a.symbol d) = some d := by
  have hd : d < a.symbols.length := by rwa [a.length_eq]
  have hsymbol : a.symbol d = a.symbols[d] := List.getD_eq_getElem _ _ hd
  rw [digit?, hsymbol, if_pos (List.getElem_mem hd), a.nodup.idxOf_getElem d hd]

theorem symbol_of_digit? {c : Char} {d : ℕ} (h : a.digit? c = some d) :
    a.symbol d = c ∧ d < base := by
  unfold digit? at h
  split_ifs at h with hmem
  cases h
  have hlt := List.idxOf_lt_length_of_mem hmem
  refine ⟨?_, by rwa [a.length_eq] at hlt⟩
  rw [symbol, List.getD_eq_getElem _ _ hlt, List.getElem_idxOf]

theorem digits?_symbols {ds : List ℕ} (h : ∀ d ∈ ds, d < base) :
    (ds.map a.symbol).mapM a.digit? = some ds := by
  induction ds with
  | nil => rfl
  | cons d ds ih =>
    rw [List.map_cons, List.mapM_cons, digit?_symbol (h d List.mem_cons_self),
      ih fun e he => h e (List.mem_cons_of_mem d he)]
    rfl

theorem symbols_of_digits? {text : List Char} {ds : List ℕ}
    (h : text.mapM a.digit? = some ds) : ds.map a.symbol = text ∧ ∀ d ∈ ds, d < base := by
  induction text generalizing ds with
  | nil =>
    cases h
    exact ⟨rfl, fun d hd => by cases hd⟩
  | cons c text ih =>
    rw [List.mapM_cons] at h
    obtain ⟨d, hd, h⟩ := Option.bind_eq_some_iff.mp h
    obtain ⟨rest, hrest, h⟩ := Option.bind_eq_some_iff.mp h
    cases h
    obtain ⟨hsymbol, hlt⟩ := symbol_of_digit? hd
    obtain ⟨hsymbols, hall⟩ := ih hrest
    exact ⟨by rw [List.map_cons, hsymbol, hsymbols], List.forall_mem_cons.mpr ⟨hlt, hall⟩⟩

variable {source : ℕ} [NeZero source]

theorem read?_spell (hsource : 1 < source) (hbase : 1 < base) (ds : List (Fin source)) :
    a.read? source (a.spell source ds) = some ds := by
  have hvalues : ∀ d ∈ ds.map Fin.val, d < source := by
    intro d hd
    obtain ⟨e, -, rfl⟩ := List.mem_map.mp hd
    exact e.isLt
  rw [read?, spell, digits?_symbols (convert_lt hbase), Option.map_some,
    convert_convert hsource hvalues, List.map_map]
  congr 1
  convert List.map_id ds using 2
  funext d
  exact Fin.ofNat_val_eq_self d

theorem spell_of_read? (hsource : 1 < source) (hbase : 1 < base) {text : List Char}
    {ds : List (Fin source)} (h : a.read? source text = some ds) : a.spell source ds = text := by
  obtain ⟨digits, hdigits, rfl⟩ := Option.map_eq_some_iff.mp h
  obtain ⟨hsymbols, hlt⟩ := symbols_of_digits? hdigits
  have hvalues : ((convert base source digits).map (Fin.ofNat source)).map Fin.val =
      convert base source digits := by
    rw [List.map_map]
    refine (List.map_congr_left fun d hd => ?_).trans (List.map_id _)
    exact Nat.mod_eq_of_lt (convert_lt hsource d hd)
  rw [spell, hvalues, convert_convert hbase hlt, hsymbols]

end Alphabet

end TirBase.PositionalCodes
