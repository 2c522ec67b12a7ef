import Mathlib
import TirBase.TransitionRuns

/-! # Assembling numbered parts

A whole is sent as parts numbered from zero. The receiver keeps a slot for every part, fills the
slot of each part that arrives, and hands all parts on in order when no slot is empty. -/
namespace TirBase.SlotAssembly
open TransitionRuns

variable {α : Type*} {index : α → ℕ}

abbrev Slots (α : Type*) := List (Option α)

def emptySlots (size : ℕ) : Slots α := List.replicate size none

/-- One part arrives; an assembly is under way when the state is not `none`. -/
def accept (index : α → ℕ) (size : ℕ) (s : Option (Slots α)) (a : α) :
    Option (Slots α) × List (List α) :=
  let slots := (s.getD (emptySlots size)).set (index a) (some a)
  if slots.all Option.isSome then (none, [slots.filterMap id]) else (some slots, [])

theorem length_accept {size : ℕ} {s : Option (Slots α)}
    (hs : ∀ slots, s = some slots → slots.length = size) (a : α) {slots : Slots α}
    (h : (accept index size s a).1 = some slots) : slots.length = size := by
  have hlength : (s.getD (emptySlots size)).length = size := by
    cases s with
    | none => simp [emptySlots]
    | some slots => exact hs slots rfl
  simp only [accept] at h
  split_ifs at h
  cases h
  simpa using hlength

/-- The parts of a whole, each with the number of its place. -/
def Numbered (index : α → ℕ) (parts : List α) : Prop := parts.map index = List.range parts.length

theorem Numbered.nodup {parts : List α} (h : Numbered index parts) : parts.Nodup := by
  apply List.Nodup.of_map index
  rw [show parts.map index = List.range parts.length from h]
  exact List.nodup_range

theorem Numbered.index_getElem {parts : List α} (h : Numbered index parts) {i : ℕ}
    (hi : i < parts.length) : index parts[i] = i := by
  have hget := congrArg (fun l => l[i]?) h
  simpa [hi] using hget

theorem Numbered.index_lt {parts : List α} (h : Numbered index parts) {a : α} (ha : a ∈ parts) :
    index a < parts.length := by
  have hmem : index a ∈ parts.map index := List.mem_map_of_mem ha
  rw [show parts.map index = List.range parts.length from h] at hmem
  exact List.mem_range.mp hmem

section Filled
variable [DecidableEq α]

/-- The slots once the parts of `done` have arrived. -/
def filled (parts done : List α) : Slots α :=
  parts.map fun a => if a ∈ done then some a else none

@[simp] theorem filled_nil (parts : List α) : filled parts [] = emptySlots parts.length := by
  simp [filled, emptySlots, List.map_const']

@[simp] theorem length_filled (parts done : List α) :
    (filled parts done).length = parts.length := by
  simp [filled]

theorem Numbered.set_filled {parts : List α} (h : Numbered index parts) {a : α} (ha : a ∈ parts)
    (done : List α) : (filled parts done).set (index a) (some a) = filled parts (a :: done) := by
  apply List.ext_getElem (by simp [filled])
  intro i hi _
  have hlt : i < parts.length := by simpa using hi
  have hindex := h.index_getElem hlt
  obtain ⟨j, hj, rfl⟩ := List.getElem_of_mem ha
  have hindexj := h.index_getElem hj
  rw [List.getElem_set]
  by_cases heq : index parts[j] = i
  · have hij : j = i := hindexj.symm.trans heq
    subst hij
    simp [filled, hindexj]
  · have hne : parts[i] ≠ parts[j] := by
      intro hparts
      rw [hparts] at hindex
      exact heq hindex
    simp [filled, heq, hne]

theorem all_filled {parts done : List α} :
    (filled parts done).all Option.isSome = true ↔ ∀ a ∈ parts, a ∈ done := by
  simp only [filled, List.all_map, List.all_eq_true, Function.comp_apply]
  constructor
  · intro h a ha
    by_contra hnot
    simpa [hnot] using h a ha
  · intro h a ha
    simp [h a ha]

theorem filterMap_filled {parts done : List α} (h : ∀ a ∈ parts, a ∈ done) :
    (filled parts done).filterMap id = parts := by
  have hall : filled parts done = parts.map some :=
    List.map_congr_left fun a ha => if_pos (h a ha)
  rw [hall, List.filterMap_map]
  simp

theorem Numbered.accept_filled {parts : List α} (h : Numbered index parts)
    {s : Option (Slots α)} {done : List α}
    (hs : s.getD (emptySlots parts.length) = filled parts done) {a : α} (ha : a ∈ parts) :
    accept index parts.length s a =
      if ∀ b ∈ parts, b ∈ a :: done then (none, [parts])
      else (some (filled parts (a :: done)), []) := by
  simp only [accept, hs, h.set_filled ha]
  by_cases hall : ∀ b ∈ parts, b ∈ a :: done
  · rw [if_pos hall, if_pos (all_filled.mpr hall), filterMap_filled hall]
  · rw [if_neg hall, if_neg (fun h => hall (all_filled.mp h))]

/-- From a partly filled state, the parts still missing complete the whole, once. -/
theorem Numbered.emitted_rest {parts : List α} (h : Numbered index parts) (rest done : List α)
    (hperm : (done ++ rest).Perm parts) (hrest : rest ≠ []) {s : Option (Slots α)}
    (hs : s.getD (emptySlots parts.length) = filled parts done) :
    emitted (accept index parts.length) s rest = [parts] := by
  induction rest generalizing done s with
  | nil => exact absurd rfl hrest
  | cons a rest ih =>
    have ha : a ∈ parts := hperm.subset (by simp)
    have hstep := h.accept_filled hs ha
    have hperm' : ((a :: done) ++ rest).Perm parts :=
      (List.perm_middle.symm.trans hperm : (a :: (done ++ rest)).Perm parts)
    rw [emitted_cons]
    cases rest with
    | nil =>
      have hall : ∀ b ∈ parts, b ∈ a :: done := fun b hb => by
        simpa using hperm'.symm.subset hb
      rw [hstep, if_pos hall]
      rfl
    | cons b rest =>
      have hnot : ¬∀ c ∈ parts, c ∈ a :: done := by
        intro hall
        have hb : b ∈ a :: done := hall b (hperm'.subset (by simp))
        have hnodup := hperm'.nodup_iff.mpr h.nodup
        exact List.disjoint_of_nodup_append hnodup hb List.mem_cons_self
      rw [hstep, if_neg hnot]
      simpa using ih (a :: done) hperm' (by simp) rfl

/-- Whatever the order in which the parts arrive, the whole is handed on exactly once. -/
theorem Numbered.emitted_perm {parts arrivals : List α} (h : Numbered index parts)
    (hne : parts ≠ []) (hperm : arrivals.Perm parts) :
    emitted (accept index parts.length) none arrivals = [parts] := by
  apply h.emitted_rest arrivals [] hperm
  · rintro rfl
    exact hne hperm.symm.eq_nil
  · simp

end Filled

end TirBase.SlotAssembly
