import Mathlib

/-! # Multi-value registers kept as sets of operations

Each operation names its register and the operations it overwrites. A register shows the
operation of greatest identifier among the live ones that nothing overwrites. -/
set_option linter.unusedSectionVars false

namespace TirBase.OperationRegisters

/-- The part of an operation that decides what a register shows. -/
class RegisterOp (O : Type*) (I K : outParam (Type*)) where
  opId : O → I
  register : O → K
  live : O → Bool
  overwrites : O → List I

open RegisterOp (opId register live overwrites)

variable {O I K : Type*} [LinearOrder I] [DecidableEq K] [RegisterOp O I K]

local instance lawfulBEq_ids {I : Type*} [LinearOrder I] : LawfulBEq I := inferInstance

def overwritten (ops : List O) (i : I) : Bool := ops.any fun o => decide (i ∈ overwrites o)

theorem overwritten_iff {ops : List O} {i : I} :
    overwritten ops i = true ↔ ∃ o ∈ ops, i ∈ overwrites o := by
  simp [overwritten]

/-- The live operations of a register that no operation overwrites. -/
def visibleAt (ops : List O) (k : K) : List O :=
  ops.filter fun o => decide (register o = k) && live o && !overwritten ops (opId o)

theorem mem_visibleAt {ops : List O} {k : K} {o : O} : o ∈ visibleAt ops k ↔
    o ∈ ops ∧ register o = k ∧ live o = true ∧ ∀ o' ∈ ops, opId o ∉ overwrites o' := by
  simp [visibleAt, overwritten, and_assoc]

/-- The operation that the register shows. -/
def winner (ops : List O) (k : K) : Option O := (visibleAt ops k).argmax opId

theorem winner_mem {ops : List O} {k : K} {o : O} (h : winner ops k = some o) :
    o ∈ visibleAt ops k := List.argmax_mem h

theorem le_winner {ops : List O} {k : K} {o o' : O} (h : winner ops k = some o)
    (ho' : o' ∈ visibleAt ops k) : opId o' ≤ opId o := List.le_of_mem_argmax ho' h

theorem winner_eq_none_iff {ops : List O} {k : K} :
    winner ops k = none ↔ visibleAt ops k = [] := List.argmax_eq_none

def SameOps (ops ops' : List O) : Prop := ∀ o, o ∈ ops ↔ o ∈ ops'

def UniqueIds (ops : List O) : Prop := ∀ o ∈ ops, ∀ o' ∈ ops, opId o = opId o' → o = o'

instance [DecidableEq O] (ops : List O) : Decidable (UniqueIds ops) := by
  unfold UniqueIds
  infer_instance

theorem UniqueIds.subset {ops ops' : List O} (h : UniqueIds ops') (hs : ∀ o ∈ ops, o ∈ ops') :
    UniqueIds ops := fun o ho o' ho' => h o (hs o ho) o' (hs o' ho')

theorem winner_eq_some_iff {ops : List O} (hu : UniqueIds ops) {k : K} {o : O} :
    winner ops k = some o ↔
      o ∈ visibleAt ops k ∧ ∀ o' ∈ visibleAt ops k, opId o' ≤ opId o := by
  constructor
  · exact fun h => ⟨winner_mem h, fun o' ho' => le_winner h ho'⟩
  · rintro ⟨ho, hmax⟩
    cases h : winner ops k with
    | none => rw [winner_eq_none_iff.mp h] at ho; simp at ho
    | some w =>
      have hw := winner_mem h
      have hid : opId w = opId o := le_antisymm (hmax w hw) (le_winner h ho)
      rw [hu w (mem_visibleAt.mp hw).1 o (mem_visibleAt.mp ho).1 hid]

theorem SameOps.mem_visibleAt_iff {ops ops' : List O} (h : SameOps ops ops') {k : K} {o : O} :
    o ∈ visibleAt ops k ↔ o ∈ visibleAt ops' k := by
  simp only [mem_visibleAt, h o, h _]

/-- What a register shows depends on the operations held, not on how they are arranged. -/
theorem SameOps.winner_eq {ops ops' : List O} (h : SameOps ops ops') (hu : UniqueIds ops)
    (k : K) : winner ops k = winner ops' k := by
  have hu' : UniqueIds ops' := hu.subset fun o ho => (h o).mpr ho
  refine Option.ext fun o => ?_
  rw [winner_eq_some_iff hu, winner_eq_some_iff hu']
  simp only [h.mem_visibleAt_iff]

/-- Every overwritten operation is held, at the same register, under a smaller identifier. -/
structure CausallyClosed (ops : List O) : Prop where
  unique : UniqueIds ops
  held : ∀ o ∈ ops, ∀ i ∈ overwrites o, ∃ o' ∈ ops, opId o' = i ∧ register o' = register o
  increasing : ∀ o ∈ ops, ∀ i ∈ overwrites o, i < opId o

instance [DecidableEq O] (ops : List O) : Decidable (CausallyClosed ops) :=
  decidable_of_iff (_ ∧ _ ∧ _)
    ⟨fun h => ⟨h.1, h.2.1, h.2.2⟩, fun h => ⟨h.unique, h.held, h.increasing⟩⟩

theorem causallyClosed_nil : CausallyClosed ([] : List O) := by
  constructor <;> simp [UniqueIds]

/-- A new operation: its identifier is above all others, and it overwrites operations held at
its own register. -/
structure Extends (ops : List O) (o : O) : Prop where
  above : ∀ o' ∈ ops, opId o' < opId o
  held : ∀ i ∈ overwrites o, ∃ o' ∈ ops, opId o' = i ∧ register o' = register o

theorem Extends.not_overwritten {ops : List O} (hc : CausallyClosed ops) {o : O}
    (h : Extends ops o) : ∀ o' ∈ ops ++ [o], opId o ∉ overwrites o' := by
  intro o' ho' hmem
  rcases List.mem_append.mp ho' with hold | hnew
  · exact absurd (hc.increasing o' hold _ hmem) (h.above o' hold).le.not_gt
  · rw [List.mem_singleton.mp hnew] at hmem
    obtain ⟨p, hp, hid, -⟩ := h.held _ hmem
    exact (h.above p hp).ne hid

theorem Extends.uniqueIds {ops : List O} (hu : UniqueIds ops) {o : O} (h : Extends ops o) :
    UniqueIds (ops ++ [o]) := by
  intro p hp q hq hid
  simp only [List.mem_append, List.mem_singleton] at hp hq
  rcases hp with hp | rfl <;> rcases hq with hq | rfl
  · exact hu p hp q hq hid
  · exact absurd hid (h.above p hp).ne
  · exact absurd hid.symm (h.above q hq).ne
  · rfl

theorem Extends.causallyClosed {ops : List O} (hc : CausallyClosed ops) {o : O}
    (h : Extends ops o) : CausallyClosed (ops ++ [o]) := by
  refine ⟨h.uniqueIds hc.unique, fun p hp i hi => ?_, fun p hp i hi => ?_⟩
  · rcases List.mem_append.mp hp with hp | hp
    · obtain ⟨q, hq, hid⟩ := hc.held p hp i hi
      exact ⟨q, by simp [hq], hid⟩
    · rw [List.mem_singleton.mp hp] at hi ⊢
      obtain ⟨q, hq, hid⟩ := h.held i hi
      exact ⟨q, by simp [hq], hid⟩
  · rcases List.mem_append.mp hp with hp | hp
    · exact hc.increasing p hp i hi
    · rw [List.mem_singleton.mp hp] at hi ⊢
      obtain ⟨q, hq, rfl, -⟩ := h.held i hi
      exact h.above q hq

theorem Extends.winner_other {ops : List O} (hu : UniqueIds ops) {o : O} (h : Extends ops o)
    {k : K} (hk : k ≠ register o) : winner (ops ++ [o]) k = winner ops k := by
  have hvisible : visibleAt (ops ++ [o]) k = visibleAt ops k := by
    have hfilter : ∀ p ∈ ops,
        (decide (register p = k) && live p && !overwritten (ops ++ [o]) (opId p)) =
          (decide (register p = k) && live p && !overwritten ops (opId p)) := by
      intro p hp
      by_cases hpk : register p = k
      · have : opId p ∉ overwrites o := by
          intro hmem
          obtain ⟨q, hq, hid, hreg⟩ := h.held _ hmem
          rw [hu q hq p hp hid] at hreg
          exact hk (hpk.symm.trans hreg)
        simp [overwritten, this]
      · simp [hpk]
    unfold visibleAt
    rw [List.filter_append, List.filter_congr hfilter]
    simp [Ne.symm hk]
  rw [winner, winner, hvisible]

/-- The operation acts on none of some registers, and overwrites operations held at its own. -/
structure Apart (registers : K → Prop) (ops : List O) (o : O) : Prop where
  elsewhere : ¬ registers (register o)
  held : ∀ i ∈ overwrites o, ∃ o' ∈ ops, opId o' = i ∧ register o' = register o

theorem Apart.mono {registers : K → Prop} {ops ops' : List O} {o : O}
    (h : Apart registers ops o) (hsub : ∀ o ∈ ops, o ∈ ops') : Apart registers ops' o := by
  refine ⟨h.elsewhere, fun i hi => ?_⟩
  obtain ⟨p, hp, hid⟩ := h.held i hi
  exact ⟨p, hsub p hp, hid⟩

theorem winner_eq_of_apart {registers : K → Prop} {ops ops' : List O} (hu : UniqueIds ops')
    (hsub : ∀ o ∈ ops, o ∈ ops') (happart : ∀ o ∈ ops', o ∉ ops → Apart registers ops' o) {k : K}
    (hk : registers k) : winner ops' k = winner ops k := by
  have hvisible : ∀ o, o ∈ visibleAt ops' k ↔ o ∈ visibleAt ops k := by
    intro o
    simp only [mem_visibleAt]
    constructor
    · rintro ⟨hmem, hreg, hlive, hnot⟩
      have hold : o ∈ ops := by
        by_contra hnew
        exact (happart o hmem hnew).elsewhere (hreg ▸ hk)
      exact ⟨hold, hreg, hlive, fun p hp => hnot p (hsub p hp)⟩
    · rintro ⟨hmem, hreg, hlive, hnot⟩
      refine ⟨hsub o hmem, hreg, hlive, fun p hp hover => ?_⟩
      have hnew : p ∉ ops := fun hold => hnot p hold hover
      obtain ⟨q, hq, hid, hsame⟩ := (happart p hp hnew).held _ hover
      rw [hu q hq o (hsub o hmem) hid, hreg] at hsame
      exact (happart p hp hnew).elsewhere (hsame ▸ hk)
  refine Option.ext fun o => ?_
  rw [winner_eq_some_iff hu, winner_eq_some_iff (hu.subset hsub)]
  simp only [hvisible]

/-- A new live operation is the newest one that its register shows. -/
theorem Extends.winner_newest {ops : List O} (hc : CausallyClosed ops) {o : O}
    (h : Extends ops o) (hlive : live o = true) : winner (ops ++ [o]) (register o) = some o := by
  refine (winner_eq_some_iff (h.uniqueIds hc.unique)).mpr ⟨?_, fun o' ho' => ?_⟩
  · exact mem_visibleAt.mpr ⟨by simp, rfl, hlive, h.not_overwritten hc⟩
  · rcases List.mem_append.mp (mem_visibleAt.mp ho').1 with hold | hnew
    · exact (h.above o' hold).le
    · rw [List.mem_singleton.mp hnew]

/-- A new dead operation that overwrites all that its register shows leaves nothing to show. -/
theorem winner_append_dead {ops : List O} {o : O} (hdead : live o = false)
    (hall : ∀ p ∈ visibleAt ops (register o), opId p ∈ overwrites o) :
    winner (ops ++ [o]) (register o) = none := by
  rw [winner_eq_none_iff, List.eq_nil_iff_forall_not_mem]
  intro o' ho'
  obtain ⟨hmem, hk, hl, hnot⟩ := mem_visibleAt.mp ho'
  rcases List.mem_append.mp hmem with hold | hnew
  · refine hnot o (by simp) (hall o' (mem_visibleAt.mpr ⟨hold, hk, hl, ?_⟩))
    exact fun p hp => hnot p (by simp [hp])
  · rw [List.mem_singleton.mp hnew, hdead] at hl
    cases hl

theorem CausallyClosed.append {ops ops' : List O} (hc : CausallyClosed ops)
    (hc' : CausallyClosed ops') (hshared : UniqueIds (ops ++ ops')) :
    CausallyClosed (ops ++ ops') := by
  refine ⟨hshared, fun o ho i hi => ?_, fun o ho i hi => ?_⟩
  · rcases List.mem_append.mp ho with ho | ho
    · obtain ⟨p, hp, hid⟩ := hc.held o ho i hi
      exact ⟨p, by simp [hp], hid⟩
    · obtain ⟨p, hp, hid⟩ := hc'.held o ho i hi
      exact ⟨p, by simp [hp], hid⟩
  · rcases List.mem_append.mp ho with ho | ho
    · exact hc.increasing o ho i hi
    · exact hc'.increasing o ho i hi

theorem SameOps.causallyClosed {ops ops' : List O} (h : SameOps ops ops')
    (hc : CausallyClosed ops') : CausallyClosed ops := by
  refine ⟨hc.unique.subset fun o ho => (h o).mp ho, fun o ho i hi => ?_, fun o ho i hi =>
    hc.increasing o ((h o).mp ho) i hi⟩
  obtain ⟨p, hp, hid⟩ := hc.held o ((h o).mp ho) i hi
  exact ⟨p, (h p).mpr hp, hid⟩

/-- Where none is dead a register shows the newest of its operations. -/
theorem CausallyClosed.le_winner_of_live {ops : List O} (hc : CausallyClosed ops) {k : K}
    (hlive : ∀ o ∈ ops, register o = k → live o = true) {shown : O}
    (hshown : winner ops k = some shown) {o : O} (ho : o ∈ ops) (hk : register o = k) :
    opId o ≤ opId shown := by
  have hmem : o ∈ ops.filter fun p => decide (register p = k) :=
    List.mem_filter.mpr ⟨ho, decide_eq_true hk⟩
  obtain ⟨newest, hnewest⟩ : ∃ newest,
      (ops.filter fun p => decide (register p = k)).argmax opId = some newest := by
    cases hmax : (ops.filter fun p => decide (register p = k)).argmax opId with
    | none =>
      rw [List.argmax_eq_none.mp hmax] at hmem
      exact absurd hmem List.not_mem_nil
    | some newest => exact ⟨newest, rfl⟩
  obtain ⟨hheld, hregister⟩ := List.mem_filter.mp (List.argmax_mem hnewest)
  have hregister := of_decide_eq_true hregister
  -- whatever overwrites an operation is newer and at the same register
  have hvisible : newest ∈ visibleAt ops k := by
    refine mem_visibleAt.mpr ⟨hheld, hregister, hlive newest hheld hregister, fun p hp hover => ?_⟩
    obtain ⟨q, hq, hid, hsame⟩ := hc.held p hp _ hover
    rw [hc.unique q hq newest hheld hid] at hsame
    have hp' : p ∈ ops.filter fun p => decide (register p = k) :=
      List.mem_filter.mpr ⟨hp, decide_eq_true (hsame.symm.trans hregister)⟩
    exact absurd (hc.increasing p hp _ hover) (List.le_of_mem_argmax hp' hnewest).not_gt
  exact (List.le_of_mem_argmax hmem hnewest).trans (le_winner hshown hvisible)

/-- The operation named `j` was made after the one named `i`. -/
def MadeAfter (ops : List O) (i j : I) : Prop :=
  Relation.TransGen (fun a b => ∃ o ∈ ops, opId o = b ∧ a ∈ overwrites o) i j

theorem CausallyClosed.madeAfter_lt {ops : List O} (h : CausallyClosed ops) {i j : I}
    (hij : MadeAfter ops i j) : i < j := by
  induction hij with
  | single hstep =>
    obtain ⟨o, ho, rfl, hi⟩ := hstep
    exact h.increasing o ho _ hi
  | tail _ hstep ih =>
    obtain ⟨o, ho, rfl, hi⟩ := hstep
    exact ih.trans (h.increasing o ho _ hi)

/-- Collections that hold the later operation hold the whole chain, so the earlier one is
overwritten there. -/
theorem overwritten_of_madeAfter {ops ops' : List O} (hc : CausallyClosed ops')
    (hshared : UniqueIds (ops ++ ops')) {i j : I} (hij : MadeAfter ops i j)
    (hj : ∃ o ∈ ops', opId o = j) : overwritten ops' i = true := by
  induction hij with
  | single hstep =>
    obtain ⟨o, ho, rfl, hi⟩ := hstep
    obtain ⟨p, hp, hid⟩ := hj
    have : p = o := hshared p (by simp [hp]) o (by simp [ho]) hid
    exact overwritten_iff.mpr ⟨p, hp, this ▸ hi⟩
  | tail _ hstep ih =>
    obtain ⟨o, ho, rfl, hi⟩ := hstep
    obtain ⟨p, hp, hid⟩ := hj
    have hpo : p = o := hshared p (by simp [hp]) o (by simp [ho]) hid
    obtain ⟨q, hq, hqid, -⟩ := hc.held p hp _ (hpo ▸ hi)
    exact ih ⟨q, hq, hqid⟩

/-- A register keeps its operation when the other side shows an earlier one. -/
theorem winner_append_of_madeAfter {ops ops' : List O} (hc : CausallyClosed ops)
    (hc' : CausallyClosed ops') (hshared : UniqueIds (ops ++ ops')) {k : K} {later earlier : O}
    (hlater : winner ops k = some later) (hearlier : winner ops' k = some earlier)
    (hafter : MadeAfter ops (opId earlier) (opId later)) :
    winner (ops ++ ops') k = some later := by
  have hnotHeld : ∀ o ∈ ops', opId o ≠ opId later := by
    intro o ho hid
    have := overwritten_of_madeAfter hc' hshared hafter ⟨o, ho, hid⟩
    obtain ⟨p, hp, hmem⟩ := overwritten_iff.mp this
    exact (mem_visibleAt.mp (winner_mem hearlier)).2.2.2 p hp hmem
  obtain ⟨hmem, hk, hlive, hnot⟩ := mem_visibleAt.mp (winner_mem hlater)
  refine (winner_eq_some_iff hshared).mpr ⟨mem_visibleAt.mpr ⟨by simp [hmem], hk, hlive, ?_⟩, ?_⟩
  · intro o ho hover
    rcases List.mem_append.mp ho with hl | hr
    · exact hnot o hl hover
    · obtain ⟨p, hp, hid, -⟩ := hc'.held o hr _ hover
      exact hnotHeld p hp hid
  · intro o ho
    obtain ⟨hom, hok, holive, honot⟩ := mem_visibleAt.mp ho
    rcases List.mem_append.mp hom with hl | hr
    · exact le_winner hlater
        (mem_visibleAt.mpr ⟨hl, hok, holive, fun p hp => honot p (by simp [hp])⟩)
    · have : opId o ≤ opId earlier := le_winner hearlier
        (mem_visibleAt.mpr ⟨hr, hok, holive, fun p hp => honot p (by simp [hp])⟩)
      exact this.trans (hc.madeAfter_lt hafter).le

end TirBase.OperationRegisters
