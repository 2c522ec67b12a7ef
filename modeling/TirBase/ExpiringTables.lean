import Mathlib
import TirBase.TransitionRuns

/-! # Tables whose entries expire

Entries are put, dropped by key, or dropped when they fail a test. What the table holds was put at some
moment and spared ever since. -/
namespace TirBase.ExpiringTables
open TransitionRuns

section Causes
variable {State Operation : Type*} {step : State → Operation → State} {invariant : State → Prop}
  {causes : State → Operation → Prop} {spares : Operation → Prop}

/-- What some operations bring about and others spare holds after a run exactly when an operation
brought it about and all later ones spared it. -/
theorem holds_run_iff (holds : State → Prop)
    (hinvariant : ∀ s op, invariant s → invariant (step s op))
    (hstep : ∀ s op, invariant s → (holds (step s op) ↔ causes s op ∨ holds s ∧ spares op))
    {s : State} (hs : invariant s) (hnot : ¬holds s) (ops : List Operation) :
    holds (run step s ops) ↔ ∃ earlier op rest, ops = earlier ++ op :: rest ∧
      causes (run step s earlier) op ∧ ∀ o ∈ rest, spares o := by
  induction ops using List.reverseRecOn with
  | nil =>
    constructor
    · exact fun h => absurd h hnot
    · rintro ⟨earlier, op, rest, hsplit, -⟩
      cases earlier <;> cases hsplit
  | append_singleton ops last ih =>
    rw [run_append, run_cons, run_nil, hstep _ _ (invariant_run hinvariant ops hs), ih]
    constructor
    · rintro (hlast | ⟨⟨earlier, op, rest, rfl, hop, hrest⟩, hspared⟩)
      · exact ⟨ops, last, [], rfl, hlast, fun o ho => by cases ho⟩
      · refine ⟨earlier, op, rest ++ [last], by simp, hop, fun o ho => ?_⟩
        rcases List.mem_append.mp ho with hold | hnew
        · exact hrest o hold
        · rw [List.mem_singleton.mp hnew]
          exact hspared
    · rintro ⟨earlier, op, rest, hsplit, hop, hrest⟩
      rcases List.eq_nil_or_concat rest with rfl | ⟨rest, o, rfl⟩
      · left
        obtain ⟨hops, hlast⟩ := List.append_inj' hsplit rfl
        rwa [hops, List.singleton_inj.mp hlast]
      · right
        rw [List.concat_eq_append, ← List.cons_append, ← List.append_assoc] at hsplit
        obtain ⟨hops, hlast⟩ := List.append_inj' hsplit rfl
        rw [List.concat_eq_append] at hrest
        refine ⟨⟨earlier, op, rest, hops, hop, fun o ho => ?_⟩, ?_⟩
        · exact hrest o (List.mem_append_left _ ho)
        · rw [List.singleton_inj.mp hlast]
          exact hrest o (List.mem_append_right _ (List.mem_singleton_self o))

end Causes

section Tables
variable {Key Value : Type*} [DecidableEq Key] {table : AList fun _ : Key => Value} {key : Key}

def retain (keep : Key → Value → Bool) (table : AList fun _ : Key => Value) :
    AList fun _ : Key => Value where
  entries := table.entries.filter fun e => keep e.1 e.2
  nodupKeys := table.nodupKeys.sublist List.filter_sublist

theorem lookup_retain (keep : Key → Value → Bool) {value : Value} :
    (retain keep table).lookup key = some value ↔
      table.lookup key = some value ∧ keep key value = true := by
  have hentry : ∀ t : AList fun _ : Key => Value,
      t.lookup key = some value ↔ (⟨key, value⟩ : Σ _ : Key, Value) ∈ t.entries := fun t =>
    AList.mem_lookup_iff
  rw [hentry, hentry]
  exact List.mem_filter

theorem lookup_insert_iff {other : Key} {new value : Value} :
    (table.insert other new).lookup key = some value ↔
      other = key ∧ new = value ∨ table.lookup key = some value ∧ other ≠ key := by
  by_cases hkey : other = key
  · subst hkey
    simp
  · rw [AList.lookup_insert_ne (Ne.symm hkey)]
    simp [hkey]

theorem lookup_erase_iff {other : Key} {value : Value} :
    (table.erase other).lookup key = some value ↔ table.lookup key = some value ∧ other ≠ key := by
  by_cases hkey : other = key
  · subst hkey
    simp
  · rw [AList.lookup_erase_ne (Ne.symm hkey)]
    simp [hkey]

end Tables

end TirBase.ExpiringTables
