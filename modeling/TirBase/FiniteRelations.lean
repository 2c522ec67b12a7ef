import Mathlib

/-! # Cycles behind an element

Where only finitely many elements have a successor, an element is accessible unless it is on or
behind a cycle. -/
namespace TirBase.FiniteRelations
open Relation

variable {V : Type*} {r : V → V → Prop} {v c : V}

/-- The element is on a cycle, or a cycle leads to it. -/
def BehindCycle (r : V → V → Prop) (v : V) : Prop := ∃ c, TransGen r c c ∧ ReflTransGen r c v

theorem acc_of_reflTransGen (hv : Acc r v) (h : ReflTransGen r c v) : Acc r c := by
  induction h with
  | refl => exact hv
  | tail _ hstep ih => exact ih (hv.inv hstep)

theorem not_transGen_of_acc (hv : Acc r v) : ¬TransGen r v v := by
  intro hcycle
  induction hv.transGen with
  | intro v hbelow ih => exact ih v hcycle (acc_of_reflTransGen hv .refl) hcycle

theorem acc_of_not_behindCycle (hfinite : {a | ∃ b, r a b}.Finite) (h : ¬BehindCycle r v) :
    Acc r v := by
  let before : { a // ReflTransGen r a v } → { a // ReflTransGen r a v } → Prop :=
    fun a b => TransGen r a.1 b.1
  have htrans : IsTrans _ before := ⟨fun _ _ _ hab hbc => hab.trans hbc⟩
  have hirrefl : Std.Irrefl before := ⟨fun a ha => h ⟨a.1, ha, a.2⟩⟩
  have hancestors : Finite { a // ReflTransGen r a v } := by
    refine (hfinite.insert v).subset ?_
    intro a ha
    rcases ha.cases_head with rfl | ⟨b, hstep, -⟩
    · exact Set.mem_insert a _
    · exact Set.mem_insert_of_mem _ ⟨b, hstep⟩
  have hwf : WellFounded before := Finite.wellFounded_of_trans_of_irrefl before
  suffices hall : ∀ a : { a // ReflTransGen r a v }, Acc r a.1 from hall ⟨v, .refl⟩
  intro a
  induction a using hwf.induction with
  | _ a ih => exact .intro _ fun b hb => ih ⟨b, .head hb a.2⟩ (.single hb)

theorem acc_iff_not_behindCycle (hfinite : {a | ∃ b, r a b}.Finite) :
    Acc r v ↔ ¬BehindCycle r v := by
  constructor
  · rintro hv ⟨c, hcycle, hreach⟩
    exact not_transGen_of_acc (acc_of_reflTransGen hv hreach) hcycle
  · exact acc_of_not_behindCycle hfinite

end TirBase.FiniteRelations
