import Mathlib

/-! # Groups of bounded weight

A list is cut into consecutive groups, none of them heavier than a bound. A queue that is served from
its front, each time at least as far as the bound allows, is through with such a list after as many
rounds as there are groups. -/
namespace TirBase.BoundedGroups

variable {α : Type*}

def weight (w : α → ℕ) (l : List α) : ℕ := (l.map w).sum

/-- The list falls into so many consecutive groups, none of them heavier than the bound. -/
def Cuts (w : α → ℕ) (bound : ℕ) : ℕ → List α → Prop
  | 0, l => l = []
  | n + 1, l => ∃ group rest, group ++ rest = l ∧ weight w group ≤ bound ∧ Cuts w bound n rest

/-- What is served from the front of a queue reaches as far as the bound allows. -/
def ReachesBound (w : α → ℕ) (bound : ℕ) (queue served : List α) : Prop :=
  ∀ group, group <+: queue → weight w group ≤ bound → group <+: served

variable {w : α → ℕ} {bound : ℕ}

@[simp] theorem weight_cons (a : α) (l : List α) : weight w (a :: l) = w a + weight w l := by
  simp [weight]

@[simp] theorem weight_append (l l' : List α) :
    weight w (l ++ l') = weight w l + weight w l' := by
  simp [weight]

theorem cuts_nil (n : ℕ) : Cuts w bound n [] := by
  induction n with
  | zero => rfl
  | succ n ih => exact ⟨[], [], rfl, Nat.zero_le bound, ih⟩

/-- Only the group in which the suffix begins is shortened. -/
theorem Cuts.suffix {n : ℕ} {l l' : List α} (h : Cuts w bound n l) (hl : l' <:+ l) :
    Cuts w bound n l' := by
  induction n generalizing l l' with
  | zero =>
    cases h
    exact List.suffix_nil.mp hl
  | succ n ih =>
    obtain ⟨group, rest, rfl, hgroup, hrest⟩ := h
    obtain ⟨dropped, hsplit⟩ := hl
    rcases List.append_eq_append_iff.mp hsplit with ⟨kept, rfl, rfl⟩ | ⟨gone, rfl, rfl⟩
    · refine ⟨kept, rest, rfl, ?_, hrest⟩
      rw [weight_append] at hgroup
      omega
    · exact ⟨[], l', rfl, Nat.zero_le bound, ih hrest (List.suffix_append gone l')⟩

/-- A round of service takes a group from what a queue held at the start, or is through with it. -/
theorem Cuts.serve {n : ℕ} {l later queue served rest : List α} (h : Cuts w bound (n + 1) l)
    (hqueue : queue <:+ l ++ later) (hserved : served ++ rest = queue)
    (hreaches : ReachesBound w bound queue served) :
    ∃ l', Cuts w bound n l' ∧ rest <:+ l' ++ later := by
  obtain ⟨dropped, hsplit⟩ := hqueue
  rcases List.append_eq_append_iff.mp hsplit with ⟨kept, hl, hkept⟩ | ⟨gone, rfl, hlater⟩
  · have hcuts : Cuts w bound (n + 1) kept := h.suffix ⟨dropped, hl.symm⟩
    obtain ⟨group, l', rfl, hgroup, hrest⟩ := hcuts
    refine ⟨l', hrest, ?_⟩
    obtain ⟨more, rfl⟩ := hreaches group (by rw [hkept, List.append_assoc]; simp) hgroup
    refine ⟨more, ?_⟩
    rw [hkept, List.append_assoc, List.append_assoc] at hserved
    exact List.append_cancel_left hserved
  · refine ⟨[], cuts_nil n, ?_⟩
    rw [List.nil_append, hlater, ← hserved]
    exact ⟨gone ++ served, by simp⟩

end TirBase.BoundedGroups
