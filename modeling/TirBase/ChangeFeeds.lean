import Mathlib
import TirBase.TransitionRuns

/-! # Feeds of changes

A table of values announces its changes, each with the value before and after. A listener that applies
them in order holds a copy of the table. -/
namespace TirBase.ChangeFeeds
open TransitionRuns

variable {Key Value : Type*} [DecidableEq Key]

structure Change (Key Value : Type*) where
  key : Key
  before : Value
  after : Value
  deriving DecidableEq

def hear (copy : Key → Value) (c : Change Key Value) : Key → Value :=
  Function.update copy c.key c.after

/-- Each change starts from the value that the copy has then. -/
def Unbroken (copy : Key → Value) (changes : List (Change Key Value)) : Prop :=
  Guarded hear (fun copy c => c.before = copy c.key) copy changes

variable {copy : Key → Value} {changes : List (Change Key Value)} {key : Key} {value : Value}

theorem hear_self (copy : Key → Value) (c : Change Key Value) : hear copy c c.key = c.after :=
  Function.update_self ..

theorem hear_of_ne (c : Change Key Value) (h : key ≠ c.key) : hear copy c key = copy key :=
  Function.update_of_ne h ..

variable [DecidableEq Value]

def leavings (key : Key) (value : Value) (changes : List (Change Key Value)) : ℕ :=
  changes.countP fun c => c.key = key ∧ c.before = value

/-- Where nothing comes back to a value, a key leaves it at most once, and not at all when it has
left it already. -/
theorem leavings_le (hunbroken : Unbroken copy changes) (hback : ∀ c ∈ changes, c.after ≠ value)
    (key : Key) : leavings key value changes ≤ if copy key = value then 1 else 0 := by
  induction changes generalizing copy with
  | nil => exact Nat.zero_le _
  | cons c changes ih =>
    obtain ⟨hbefore, hrest⟩ := hunbroken
    have hlater := ih hrest fun c' hc' => hback c' (List.mem_cons_of_mem c hc')
    have hafter := hback c List.mem_cons_self
    unfold leavings at hlater ⊢
    rw [List.countP_cons]
    by_cases hkey : c.key = key
    · subst hkey
      rw [hear_self, if_neg hafter] at hlater
      by_cases hvalue : c.before = value
      · have hcopy : copy c.key = value := hbefore.symm.trans hvalue
        simp only [hvalue, hcopy, true_and, decide_true, if_true]
        omega
      · simp only [hvalue, and_false, decide_false, Bool.false_eq_true, if_false]
        omega
    · rw [hear_of_ne c (Ne.symm hkey)] at hlater
      simp only [hkey, false_and, decide_false, Bool.false_eq_true, if_false]
      exact hlater

end TirBase.ChangeFeeds
