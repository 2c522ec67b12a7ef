import Mathlib
import TirBase.SchemaText

/-! # What the rules of the schema language read from a printed text -/
namespace TirBase.SchemaText
open Peg

theorem skip_blank {c : Char} (h : isBlank c = true) (cs : List Char) :
    skip (c :: cs) = skip cs := by
  have hc : c ≠ '/' := by
    rintro rfl
    exact absurd h (by decide)
  unfold skip
  rw [skipFrom]
  · rw [if_pos h]
  · intro rest hr
    exact absurd hr hc

@[simp] theorem skip_space (cs : List Char) : skip (' ' :: cs) = skip cs :=
  skip_blank (by decide) cs

@[simp] theorem skip_newline (cs : List Char) : skip ('\n' :: cs) = skip cs :=
  skip_blank (by decide) cs

theorem skip_of_start {c : Char} (hb : isBlank c = false) (hs : c ≠ '/') (cs : List Char) :
    skip (c :: cs) = c :: cs := by
  unfold skip
  rw [skipFrom]
  · rw [hb]
    rfl
  · intro rest hr
    exact absurd hr hs

theorem length_skipFrom_le (open_ : Bool) (cs : List Char) :
    (skipFrom open_ cs).length ≤ cs.length := by
  fun_induction skipFrom open_ cs with
  | case1 => exact Nat.le_refl _
  | case2 c cs ih => exact ih.trans (Nat.le_succ _)
  | case3 cs ih =>
    simp only [List.length_cons]
    omega
  | case4 c cs _ _ ih => exact ih.trans (Nat.le_succ _)
  | case5 c cs => exact Nat.le_refl _

theorem length_skip_le (cs : List Char) : (skip cs).length ≤ cs.length :=
  length_skipFrom_le false cs

theorem skip_skipFrom (open_ : Bool) (cs : List Char) :
    skip (skipFrom open_ cs) = skipFrom open_ cs := by
  fun_induction skipFrom open_ cs with
  | case1 => rfl
  | case2 c cs ih => exact ih
  | case3 cs ih => exact ih
  | case4 c cs _ _ ih => exact ih
  | case5 c cs hs hb =>
    unfold skip
    rw [skipFrom, if_neg hb]
    exact hs

@[simp] theorem skip_skip (cs : List Char) : skip (skip cs) = skip cs := skip_skipFrom false cs

/-- A word of the rule `ident`. -/
def IsIdent (n : List Char) : Prop :=
  ∃ c cs, n = c :: cs ∧ isIdentStart c = true ∧ ∀ d ∈ cs, isIdentPart d = true

def IsIdentifier (s : String) : Prop := IsIdent s.toList

theorem isIdentPart_of_start {c : Char} (h : isIdentStart c = true) : isIdentPart c = true := by
  simp only [isIdentStart, Bool.or_eq_true] at h
  simp only [isIdentPart, Char.isAlphanum, Bool.or_eq_true]
  rcases h with h | h
  · exact Or.inl (Or.inl h)
  · exact Or.inr h

theorem ident_append {n r : List Char} {d : Char} (hn : IsIdent n) (hd : isIdentPart d = false) :
    ident (n ++ d :: r) = some (n, d :: r) := by
  obtain ⟨c, cs, rfl, hc, hcs⟩ := hn
  rw [List.cons_append, ident, if_pos hc, List.takeWhile_append_of_pos hcs,
    List.dropWhile_append_of_pos hcs]
  simp [hd]

theorem isBlank_of_part {c : Char} (h : isIdentPart c = true) : isBlank c = false := by
  cases hb : isBlank c with
  | false => rfl
  | true =>
    simp only [isBlank, Bool.or_eq_true, beq_iff_eq] at hb
    rcases hb with ((rfl | rfl) | rfl) | rfl <;> exact absurd h (by decide)

theorem ne_slash_of_part {c : Char} (h : isIdentPart c = true) : c ≠ '/' := by
  rintro rfl
  exact absurd h (by decide)

theorem skip_part {c : Char} (h : isIdentPart c = true) (cs : List Char) :
    skip (c :: cs) = c :: cs :=
  skip_of_start (isBlank_of_part h) (ne_slash_of_part h) cs

theorem skip_ident {n : List Char} (hn : IsIdent n) (r : List Char) : skip (n ++ r) = n ++ r := by
  obtain ⟨c, cs, rfl, hc, -⟩ := hn
  rw [List.cons_append, skip_part (isIdentPart_of_start hc)]

theorem IsIdent.part {n : List Char} (hn : IsIdent n) : ∀ d ∈ n, isIdentPart d = true := by
  obtain ⟨c, cs, rfl, hc, hcs⟩ := hn
  intro d hd
  rcases List.mem_cons.mp hd with rfl | hd
  · exact isIdentPart_of_start hc
  · exact hcs d hd

theorem isIdent_of_ident {cs n r : List Char} (h : ident cs = some (n, r)) : IsIdent n := by
  cases cs with
  | nil => exact absurd h (by simp [ident])
  | cons c cs =>
    rw [ident] at h
    split at h
    · next hc =>
      obtain ⟨rfl, rfl⟩ := Prod.mk.inj (Option.some.inj h)
      exact ⟨c, _, rfl, hc, fun d hd => List.mem_takeWhile_imp hd⟩
    · exact absurd h (by simp)

theorem keyword_append (s : String) (cs : List Char) : keyword s (s.toList ++ cs) = some cs :=
  literal_append

theorem keyword_word {s : String} {n r : List Char} (hs : ' ' ∉ s.toList) :
    keyword s (n ++ ' ' :: r) = none ∧ ¬ s.toList <+: n ∨
      ∃ m, n = s.toList ++ m ∧ keyword s (n ++ ' ' :: r) = some (m ++ ' ' :: r) := by
  by_cases h : s.toList <+: n
  · obtain ⟨m, rfl⟩ := h
    refine Or.inr ⟨m, rfl, ?_⟩
    rw [List.append_assoc]
    exact keyword_append s _
  · refine Or.inl ⟨?_, h⟩
    apply literal_eq_none_iff.mpr
    rwa [prefix_append_cons_iff hs]

theorem digits_append {ds r : List Char} (hne : ds ≠ []) (hds : ∀ d ∈ ds, d.isDigit = true)
    (hr : ∀ c ∈ r.head?, c.isDigit = false) : digits (ds ++ r) = some (ds, r) := by
  have htake : (ds ++ r).takeWhile Char.isDigit = ds := by
    rw [List.takeWhile_append_of_pos hds]
    cases r with
    | nil => simp
    | cons c r => simp [hr c rfl]
  have hdrop : (ds ++ r).dropWhile Char.isDigit = r := by
    rw [List.dropWhile_append_of_pos hds]
    cases r with
    | nil => rfl
    | cons c r => simp [hr c rfl]
  rw [digits, htake, hdrop, if_neg (by simpa using hne)]

theorem digits_eq_none {c : Char} (hc : c.isDigit = false) (cs : List Char) :
    digits (c :: cs) = none := by
  simp [digits, hc]

structure IsSigned (text : List Char) (sign ds : List Char) : Prop where
  shape : text = sign ++ ds
  sign : sign = [] ∨ sign = ['-']
  nonempty : ds ≠ []
  digits : ∀ d ∈ ds, d.isDigit = true

theorem integerLiteral_append {text sign ds r : List Char} (h : IsSigned text sign ds)
    (hr : ∀ c ∈ r.head?, c.isDigit = false) : integerLiteral (text ++ r) = some (text, r) := by
  rw [h.shape]
  rcases h.sign with rfl | rfl
  · have hkey : keyword "-" (ds ++ r) = none := by
      cases hd : ds with
      | nil => exact absurd hd h.nonempty
      | cons d ds' =>
        have hdig := h.digits d (by simp [hd])
        apply literal_cons_ne
        rintro rfl
        exact absurd hdig (by decide)
    rw [List.nil_append, integerLiteral, hkey]
    exact digits_append h.nonempty h.digits hr
  · have hkey : keyword "-" (['-'] ++ ds ++ r) = some (ds ++ r) := keyword_append "-" (ds ++ r)
    rw [integerLiteral, hkey]
    simp [digits_append h.nonempty h.digits hr]

theorem integerLiteral_eq_none {c : Char} (hs : c ≠ '-') (hc : c.isDigit = false)
    (cs : List Char) : integerLiteral (c :: cs) = none := by
  have hkey : keyword "-" (c :: cs) = none := literal_cons_ne (Ne.symm hs)
  rw [integerLiteral, hkey]
  exact digits_eq_none hc cs

theorem realLiteral_eq_none {c : Char} (hs : c ≠ '-') (hc : c.isDigit = false)
    (cs : List Char) : realLiteral (c :: cs) = none := by
  simp [realLiteral, integerLiteral_eq_none hs hc]

theorem stringLiteral_append {s r : List Char} (hs : '"' ∉ s) :
    stringLiteral ('"' :: (s ++ '"' :: r)) = some ('"' :: (s ++ ['"']), r) := by
  have hall : ∀ c ∈ s, (c != '"') = true := by
    intro c hc
    simpa using fun h : c = '"' => hs (h ▸ hc)
  have htake : (s ++ '"' :: r).takeWhile (· != '"') = s := by
    rw [List.takeWhile_append_of_pos hall]
    simp
  have hdrop : (s ++ '"' :: r).dropWhile (· != '"') = '"' :: r := by
    rw [List.dropWhile_append_of_pos hall]
    simp
  have hfirst : keyword "\"" ('"' :: (s ++ '"' :: r)) = some (s ++ '"' :: r) :=
    keyword_append "\"" _
  have hlast : keyword "\"" ('"' :: r) = some r := keyword_append "\"" r
  simp only [stringLiteral, hfirst, Option.bind_eq_bind, Option.bind_some, hdrop, hlast, htake]
  rfl

theorem stringLiteral_eq_none {c : Char} (hc : c ≠ '"') (cs : List Char) :
    stringLiteral (c :: cs) = none := by
  have hkey : keyword "\"" (c :: cs) = none := literal_cons_ne (Ne.symm hc)
  simp [stringLiteral, hkey]

theorem unquoted_quoted (s : List Char) : unquoted ('"' :: (s ++ ['"'])) = String.ofList s := by
  simp [unquoted]

end TirBase.SchemaText
