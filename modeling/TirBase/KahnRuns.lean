import TirBase.FiniteRelations
import TirBase.KahnSort

/-! # Runs of Kahn's sort

The loop with the subtraction of machine integers, which fails below zero, and what it takes when
the graph has cycles. -/
namespace TirBase.KahnBatches
open FiniteRelations Relation

variable {V : Type*}

section Checked
variable [DecidableEq V]

/-- As `relax`; a degree that is zero cannot be lowered. -/
def relaxChecked (s : (V → ℕ) × List V) (child : V) : Option ((V → ℕ) × List V) :=
  if s.1 child = 0 then none else some (relax s child)

/-- As `drain`; it fails where a degree cannot be lowered, and when the turns do not suffice. -/
def drainChecked (edges : List (V × V)) (order : List V → List V) :
    ℕ → Progress V → Option (Progress V)
  | _, ⟨degree, [], sorted⟩ => some ⟨degree, [], sorted⟩
  | 0, ⟨_, _ :: _, _⟩ => none
  | fuel + 1, ⟨degree, v :: rest, sorted⟩ =>
    ((childrenOf edges v).foldlM relaxChecked (degree, [])).bind fun freed =>
      drainChecked edges order fuel ⟨freed.1, rest ++ order freed.2, sorted ++ [v]⟩

variable {nodes : List V} {edges : List (V × V)} {order : List V → List V}

theorem foldlM_relaxChecked {degree : V → ℕ} (children freed : List V)
    (hcount : ∀ v, children.count v ≤ degree v) :
    children.foldlM relaxChecked (degree, freed) = some (children.foldl relax (degree, freed)) := by
  induction children generalizing degree freed with
  | nil => rfl
  | cons c children ih =>
    have hc := hcount c
    rw [List.count_cons_self] at hc
    have hstep : relaxChecked (degree, freed) c = some (relax (degree, freed) c) :=
      if_neg (by change degree c ≠ 0; omega)
    rw [List.foldlM_cons, hstep]
    exact ih _ (count_le_update hcount)

/-- With a turn for each node the checked loop ends, and no degree falls below zero. -/
theorem drainChecked_eq (hperm : ∀ l, (order l).Perm l)
    (hedges : ∀ p c, (p, c) ∈ edges → c ∈ nodes) (fuel : ℕ) {s : Progress V}
    (h : DrainInvariant nodes edges s) (hfuel : nodes.length ≤ fuel + s.sorted.length) :
    drainChecked edges order fuel s = some (drain edges order fuel s) := by
  induction fuel generalizing s with
  | zero =>
    have hlength := length_sorted_le h
    rw [List.length_append] at hlength
    have hready : s.ready = [] := List.length_eq_zero_iff.mp (by omega)
    obtain ⟨degree, ready, sorted⟩ := s
    cases hready
    rfl
  | succ fuel ih =>
    obtain ⟨degree, ready, sorted⟩ := s
    cases ready with
    | nil => rfl
    | cons v rest =>
      have hfold := foldlM_relaxChecked (childrenOf edges v) [] fun c => h.count_le rfl c
      have hnext := ih (drainInvariant_take hperm hedges h rfl) (by
        simp only [take, List.length_append, List.length_singleton] at hfuel ⊢
        omega)
      simp only [drainChecked, hfold, Option.bind_some]
      exact hnext

/-- A loop that has ended stays as it is, however many turns are left. -/
theorem drainChecked_add (turns fuel : ℕ) {s s' : Progress V}
    (h : drainChecked edges order fuel s = some s') :
    drainChecked edges order (fuel + turns) s = some s' := by
  induction fuel generalizing s with
  | zero =>
    obtain ⟨degree, ready, sorted⟩ := s
    cases ready with
    | nil => simpa only [drainChecked] using h
    | cons v rest => simp [drainChecked] at h
  | succ fuel ih =>
    obtain ⟨degree, ready, sorted⟩ := s
    cases ready with
    | nil => simpa only [drainChecked] using h
    | cons v rest =>
      rw [Nat.succ_add]
      simp only [drainChecked] at h ⊢
      obtain ⟨freed, hfreed, hrest⟩ := Option.bind_eq_some_iff.mp h
      rw [hfreed, Option.bind_some]
      exact ih hrest

end Checked

section Order
variable {nodes : List V} {edges : List (V × V)}

theorem finite_edgeOf (edges : List (V × V)) : {a | ∃ b, EdgeOf edges a b}.Finite := by
  refine (List.finite_toSet (edges.map Prod.fst)).subset ?_
  rintro a ⟨b, hab⟩
  exact List.mem_map.mpr ⟨(a, b), hab, rfl⟩

/-- When the edges stay among the nodes, exactly those not behind a cycle are taken. -/
theorem Taken.mem_iff_not_behindCycle {sorted : List V} (h : Taken nodes edges sorted)
    (hedges : ∀ p c, (p, c) ∈ edges → p ∈ nodes) {v : V} :
    v ∈ sorted ↔ v ∈ nodes ∧ ¬BehindCycle (EdgeOf edges) v := by
  rw [← acc_iff_not_behindCycle (finite_edgeOf edges)]
  constructor
  · intro hv
    exact ⟨((h.mem_iff v).mp hv).1, h.acc hv⟩
  · rintro ⟨hv, hacc⟩
    induction hacc with
    | intro v _ ih => exact (h.mem_iff v).mpr ⟨hv, fun p hp => ih p hp (hedges p v hp)⟩

end Order

end TirBase.KahnBatches
