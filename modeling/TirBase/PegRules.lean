import Mathlib

/-! # Rules of a parsing expression grammar

A rule reads a text from the front and returns what it read with the text that is left. Choice is
ordered and a loop takes as much as it can; blanks between the parts of a rule are skipped by a
function that the grammar gives. -/
namespace TirBase.Peg

abbrev Rule (α : Type*) := List Char → Option (α × List Char)

def literal : List Char → List Char → Option (List Char)
  | [], cs => some cs
  | _ :: _, [] => none
  | c :: s, d :: cs => if c = d then literal s cs else none

/-- `p?`. -/
def attempt {α : Type*} (p : Rule α) (cs : List Char) : Option α × List Char :=
  match p cs with
  | some (a, cs) => (some a, cs)
  | none => (none, cs)

/-- `p*` between parts that blanks are skipped before; the number bounds the turns. -/
def many {α : Type*} (skip : List Char → List Char) (p : Rule α) :
    ℕ → List Char → List α × List Char
  | 0, cs => ([], cs)
  | n + 1, cs =>
    match p (skip cs) with
    | none => ([], cs)
    | some (a, rest) => (a :: (many skip p n rest).1, (many skip p n rest).2)

section Literals
variable {s n r cs : List Char} {c : Char}

@[simp] theorem literal_append : literal s (s ++ cs) = some cs := by
  induction s with
  | nil => rfl
  | cons c s ih => simp [literal, ih]

theorem literal_eq_some_iff : literal s cs = some r ↔ cs = s ++ r := by
  constructor
  · intro h
    induction s generalizing cs with
    | nil => simpa [literal] using h
    | cons c s ih =>
      cases cs with
      | nil => simp [literal] at h
      | cons d cs =>
        by_cases hcd : c = d
        · subst hcd
          rw [literal, if_pos rfl] at h
          rw [ih h, List.cons_append]
        · rw [literal, if_neg hcd] at h
          exact absurd h (by simp)
  · intro h
    rw [h, literal_append]

theorem literal_eq_none_iff : literal s cs = none ↔ ¬ s <+: cs := by
  constructor
  · intro h hp
    obtain ⟨r, rfl⟩ := hp
    simp at h
  · intro h
    cases hl : literal s cs with
    | none => rfl
    | some r => exact absurd ⟨r, (literal_eq_some_iff.mp hl).symm⟩ h

/-- A literal that does not hold the character after a word starts that word or nothing. -/
theorem prefix_append_cons_iff (hc : c ∉ s) : s <+: n ++ c :: r ↔ s <+: n := by
  constructor
  · intro h
    rcases Nat.lt_or_ge n.length s.length with hlt | hle
    · obtain ⟨t, ht⟩ := h
      have hget : (s ++ t)[n.length]? = some c := by rw [ht]; simp
      rw [List.getElem?_append_left hlt] at hget
      exact absurd (List.mem_of_getElem? hget) hc
    · exact List.prefix_of_prefix_length_le h (List.prefix_append n _) hle
  · intro h
    exact h.trans (List.prefix_append n _)

theorem literal_cons_ne {d : Char} (h : c ≠ d) : literal (c :: s) (d :: cs) = none := by
  rw [literal, if_neg h]

end Literals

section Loops
variable {α : Type*} {skip : List Char → List Char} {p : Rule α} {a : α} {cs rest : List Char}
  {n : ℕ}

theorem or_of_orElse {o o' : Option α} (h : (o <|> o') = some a) : o = some a ∨ o' = some a := by
  cases o with
  | none => exact Or.inr h
  | some b => exact Or.inl h

theorem attempt_of_some (h : p cs = some (a, rest)) : attempt p cs = (some a, rest) := by
  simp [attempt, h]

theorem attempt_of_none (h : p cs = none) : attempt p cs = (none, cs) := by
  simp [attempt, h]

theorem attempt_fst_eq_none_iff : (attempt p cs).1 = none ↔ p cs = none := by
  cases h : p cs with
  | none => simp [attempt, h]
  | some x => simp [attempt, h]

theorem exists_of_attempt (h : (attempt p cs).1 = some a) : ∃ rest, p cs = some (a, rest) := by
  cases hp : p cs with
  | none =>
    rw [attempt_of_none hp] at h
    exact absurd h (by simp)
  | some x =>
    have hx : p cs = some (x.1, x.2) := hp
    rw [attempt_of_some hx] at h
    exact ⟨x.2, by rw [← Option.some.inj h]⟩

theorem many_of_some (h : p (skip cs) = some (a, rest)) :
    many skip p (n + 1) cs = (a :: (many skip p n rest).1, (many skip p n rest).2) := by
  simp [many, h]

theorem many_of_none (h : p (skip cs) = none) : many skip p n cs = ([], cs) := by
  cases n with
  | zero => rfl
  | succ n => simp [many, h]

/-- A loop skips blanks first, so that those in front of it do not matter. -/
theorem many_congr {cs' : List Char} (h : skip cs = skip cs') (n : ℕ) :
    (many skip p n cs).1 = (many skip p n cs').1 ∧
      skip (many skip p n cs).2 = skip (many skip p n cs').2 := by
  cases n with
  | zero => exact ⟨rfl, h⟩
  | succ n =>
    cases hp : p (skip cs) with
    | none =>
      rw [many_of_none hp, many_of_none (h ▸ hp)]
      exact ⟨rfl, h⟩
    | some x =>
      rw [many_of_some hp, many_of_some (h ▸ hp)]
      exact ⟨rfl, rfl⟩

/-- The rule takes at least one character. -/
def Shrinks (p : Rule α) : Prop :=
  ∀ (cs : List Char) (a : α) (rest : List Char), p cs = some (a, rest) → rest.length < cs.length

theorem Shrinks.length_attempt_le (hp : Shrinks p) (cs : List Char) :
    (attempt p cs).2.length ≤ cs.length := by
  cases h : p cs with
  | none =>
    have hsame : (attempt p cs).2 = cs := congrArg Prod.snd (attempt_of_none h)
    exact Nat.le_of_eq (congrArg List.length hsame)
  | some x =>
    have hx : p cs = some (x.1, x.2) := h
    rw [attempt_of_some hx]
    exact Nat.le_of_lt (hp _ _ _ h)

theorem Shrinks.length_many_le (hp : Shrinks p) (hskip : ∀ cs, (skip cs).length ≤ cs.length)
    (n : ℕ) (cs : List Char) : (many skip p n cs).2.length ≤ cs.length := by
  induction n generalizing cs with
  | zero => exact Nat.le_refl _
  | succ n ih =>
    cases h : p (skip cs) with
    | none =>
      have hsame : (many skip p (n + 1) cs).2 = cs := congrArg Prod.snd (many_of_none h)
      exact Nat.le_of_eq (congrArg List.length hsame)
    | some x =>
      obtain ⟨a, rest⟩ := x
      have hlt := hp _ _ _ h
      have hle := hskip cs
      have hrest := ih rest
      rw [many_of_some h]
      simp only
      omega

/-- With as many turns as the text has characters the loop ends where its rule fails. -/
theorem many_ends (hskip : ∀ cs, (skip cs).length ≤ cs.length)
    (hp : Shrinks p) :
    ∀ {n : ℕ} {cs : List Char}, cs.length ≤ n → p (skip (many skip p n cs).2) = none := by
  intro n
  induction n with
  | zero =>
    intro cs hn
    cases h : p (skip cs) with
    | none => exact h
    | some x =>
      have hlt := hp _ x.1 x.2 h
      have hle := hskip cs
      omega
  | succ n ih =>
    intro cs hn
    cases h : p (skip cs) with
    | none => rwa [many_of_none h]
    | some x =>
      obtain ⟨a, rest⟩ := x
      have hlt := hp _ _ _ h
      have hle := hskip cs
      rw [many_of_some h]
      exact ih (by omega)

/-- What holds of all that the rule reads holds of all that the loop reads. -/
theorem forall_mem_many {P : α → Prop} (hp : ∀ {cs a rest}, p cs = some (a, rest) → P a) :
    ∀ {n : ℕ} {cs : List Char}, ∀ a ∈ (many skip p n cs).1, P a := by
  intro n
  induction n with
  | zero =>
    intro cs a ha
    exact absurd ha (by simp [many])
  | succ n ih =>
    intro cs a ha
    cases h : p (skip cs) with
    | none =>
      rw [many_of_none h] at ha
      exact absurd ha (by simp)
    | some x =>
      obtain ⟨b, rest⟩ := x
      rw [many_of_some h] at ha
      rcases List.mem_cons.mp ha with rfl | ha
      · exact hp h
      · exact ih a ha

end Loops
section Spelling
variable {α β : Type*} {skip : List Char → List Char} {p q : Rule α} {tokens : α → List (List Char)}
  {cs mid rest s : List Char} {ts us : List (List Char)}

/-- The text begins with these tokens, each after blanks; what is left then is the rest, up to
blanks. -/
def Spells (skip : List Char → List Char) : List (List Char) → List Char → List Char → Prop
  | [], cs, rest => skip cs = skip rest
  | t :: ts, cs, rest => ∃ cs', skip cs = t ++ cs' ∧ Spells skip ts cs' rest

def Reads (skip : List Char → List Char) (p : Rule α) (tokens : α → List (List Char)) : Prop :=
  ∀ cs a rest, p (skip cs) = some (a, rest) → Spells skip (tokens a) cs rest

theorem Spells.of_skip {cs' : List Char} (h : Spells skip ts cs rest) (hskip : skip cs' = skip cs) :
    Spells skip ts cs' rest := by
  cases ts with
  | nil => exact hskip.trans h
  | cons t ts =>
    obtain ⟨tail, htail, hrest⟩ := h
    exact ⟨tail, hskip.trans htail, hrest⟩

theorem Spells.append (h : Spells skip ts cs mid) (h' : Spells skip us mid rest) :
    Spells skip (ts ++ us) cs rest := by
  induction ts generalizing cs with
  | nil => exact h'.of_skip h
  | cons t ts ih =>
    obtain ⟨tail, htail, hmid⟩ := h
    exact ⟨tail, htail, ih hmid⟩

theorem spells_token {t : List Char} (h : skip cs = t ++ rest) : Spells skip [t] cs rest :=
  ⟨rest, h, rfl⟩

theorem spells_literal (h : literal s (skip cs) = some rest) : Spells skip [s] cs rest :=
  spells_token (literal_eq_some_iff.mp h)

theorem Reads.map {f : α → β} {tokens' : β → List (List Char)} (hp : Reads skip p tokens)
    (hf : ∀ a, tokens' (f a) = tokens a) :
    Reads skip (fun cs => (p cs).map fun x => (f x.1, x.2)) tokens' := by
  intro cs b rest h
  obtain ⟨x, hx, heq⟩ := Option.map_eq_some_iff.mp h
  obtain ⟨rfl, rfl⟩ := Prod.mk.inj heq
  rw [hf]
  exact hp _ _ _ hx

theorem Reads.orElse (hp : Reads skip p tokens) (hq : Reads skip q tokens) :
    Reads skip (fun cs => p cs <|> q cs) tokens := by
  intro cs a rest h
  rcases or_of_orElse h with h | h
  · exact hp _ _ _ h
  · exact hq _ _ _ h

/-- An optional part that is missing leaves the text, up to blanks. -/
theorem Reads.attempt (hskip : ∀ cs, skip (skip cs) = skip cs) (hp : Reads skip p tokens)
    (cs : List Char) :
    Spells skip ((attempt p (skip cs)).1.elim [] tokens) cs (attempt p (skip cs)).2 := by
  cases h : p (skip cs) with
  | none =>
    rw [attempt_of_none h]
    exact (hskip cs).symm
  | some x =>
    have hx : p (skip cs) = some (x.1, x.2) := h
    rw [attempt_of_some hx]
    exact hp _ _ _ hx

theorem Reads.many (hp : Reads skip p tokens) (n : ℕ) (cs : List Char) :
    Spells skip ((many skip p n cs).1.flatMap tokens) cs (many skip p n cs).2 := by
  induction n generalizing cs with
  | zero => rfl
  | succ n ih =>
    cases h : p (skip cs) with
    | none =>
      rw [many_of_none h]
      rfl
    | some x =>
      have hx : p (skip cs) = some (x.1, x.2) := h
      rw [many_of_some hx, List.flatMap_cons]
      exact (hp _ _ _ hx).append (ih x.2)

end Spelling

end TirBase.Peg
