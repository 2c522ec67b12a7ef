import Mathlib

/-! # Programs that call their host

A guest program is the tree of the calls it may make: each call goes on with the answer it gets. A host
answers the calls from a state of its own, and may stop the program before any of them. -/
namespace TirBase.HostPrograms

inductive HostProgram (Call Answer Trap Value : Type) : Type
  | finished (a : Value)
  | trapped (trap : Trap)
  | call (c : Call) (next : Answer → HostProgram Call Answer Trap Value)

inductive RunEnd (Trap Value : Type) : Type
  | finished (a : Value)
  | trapped (trap : Trap)
  | interrupted
  deriving DecidableEq

structure GuestRun (State Trap Value : Type) where
  ending : RunEnd Trap Value
  state : State
  calls : ℕ

/-- The answer to a call, which is known by its number, and the state after it. -/
structure Host (State Call Answer : Type) where
  answer : ℕ → State → Call → Answer × State

def stopped (interruptAt : Option ℕ) (n : ℕ) : Bool :=
  match interruptAt with
  | none => false
  | some k => decide (k ≤ n)

@[simp] theorem stopped_none (n : ℕ) : stopped none n = false := rfl

variable {State State' Call Answer Trap Value : Type}

namespace Host

def run (host : Host State Call Answer) (interruptAt : Option ℕ) :
    HostProgram Call Answer Trap Value → ℕ → State → GuestRun State Trap Value
  | .finished a, n, s => ⟨if stopped interruptAt n then .interrupted else .finished a, s, n⟩
  | .trapped trap, n, s => ⟨if stopped interruptAt n then .interrupted else .trapped trap, s, n⟩
  | .call c next, n, s =>
    if stopped interruptAt n then ⟨.interrupted, s, n⟩
    else
      let out := host.answer n s c
      run host interruptAt (next out.1) (n + 1) out.2

def transcript (host : Host State Call Answer) (interruptAt : Option ℕ) :
    HostProgram Call Answer Trap Value → ℕ → State → List (ℕ × Call)
  | .finished _, _, _ => []
  | .trapped _, _, _ => []
  | .call c next, n, s =>
    if stopped interruptAt n then []
    else
      let out := host.answer n s c
      (n, c) :: transcript host interruptAt (next out.1) (n + 1) out.2

def after (host : Host State Call Answer) (s : State) (calls : List (ℕ × Call)) : State :=
  calls.foldl (fun s c => (host.answer c.1 s c.2).2) s

theorem after_append (host : Host State Call Answer) (s : State) (calls calls' : List (ℕ × Call)) :
    host.after s (calls ++ calls') = host.after (host.after s calls) calls' :=
  List.foldl_append

theorem run_state (host : Host State Call Answer) (interruptAt : Option ℕ)
    (p : HostProgram Call Answer Trap Value) (n : ℕ) (s : State) :
    (host.run interruptAt p n s).state = host.after s (host.transcript interruptAt p n s) := by
  induction p generalizing n s with
  | finished a => rfl
  | trapped trap => rfl
  | call c next ih =>
    unfold run transcript
    split_ifs
    · rfl
    · exact ih _ _ _

/-- A run that finishes was not stopped: without a limit it is the same run. -/
theorem run_of_finished (host : Host State Call Answer) {interruptAt : Option ℕ}
    {p : HostProgram Call Answer Trap Value} {n : ℕ} {s : State} {a : Value}
    (h : (host.run interruptAt p n s).ending = .finished a) :
    host.run none p n s = host.run interruptAt p n s ∧
      host.transcript none p n s = host.transcript interruptAt p n s := by
  induction p generalizing n s with
  | finished b =>
    cases hstop : stopped interruptAt n with
    | true => simp [run, hstop] at h
    | false => simp [run, transcript, hstop]
  | trapped trap =>
    cases hstop : stopped interruptAt n with
    | true => simp [run, hstop] at h
    | false => simp [run, hstop] at h
  | call c next ih =>
    cases hstop : stopped interruptAt n with
    | true => simp [run, hstop] at h
    | false =>
      simp only [run, hstop, Bool.false_eq_true, if_false] at h
      obtain ⟨hrun, htranscript⟩ := ih _ h
      simp only [run, transcript, hstop, stopped_none, Bool.false_eq_true, if_false, hrun, htranscript,
        and_self]

theorem ending_ne_interrupted (host : Host State Call Answer)
    (p : HostProgram Call Answer Trap Value) (n : ℕ) (s : State) :
    (host.run none p n s).ending ≠ .interrupted := by
  induction p generalizing n s with
  | finished a => simp [run]
  | trapped trap => simp [run]
  | call c next ih =>
    simp only [run, stopped_none, Bool.false_eq_true, if_false]
    exact ih _ _ _

def SameAnswers (host : Host State Call Answer) (host' : Host State' Call Answer) :
    HostProgram Call Answer Trap Value → ℕ → State → State' → Prop
  | .finished _, _, _, _ => True
  | .trapped _, _, _, _ => True
  | .call c next, n, s, s' =>
    (host.answer n s c).1 = (host'.answer n s' c).1 ∧
      SameAnswers host host' (next (host.answer n s c).1) (n + 1) (host.answer n s c).2
        (host'.answer n s' c).2

theorem run_of_sameAnswers {host : Host State Call Answer} {host' : Host State' Call Answer}
    {p : HostProgram Call Answer Trap Value} {n : ℕ} {s : State} {s' : State'}
    (h : SameAnswers host host' p n s s') :
    (host.run none p n s).ending = (host'.run none p n s').ending ∧
      (host.run none p n s).calls = (host'.run none p n s').calls ∧
      host.transcript none p n s = host'.transcript none p n s' := by
  induction p generalizing n s s' with
  | finished a => exact ⟨rfl, rfl, rfl⟩
  | trapped trap => exact ⟨rfl, rfl, rfl⟩
  | call c next ih =>
    obtain ⟨hanswer, hrest⟩ := h
    obtain ⟨hending, hcalls, htranscript⟩ := ih _ hrest
    simp only [run, transcript, stopped_none, Bool.false_eq_true, if_false, ← hanswer, hending, hcalls,
      htranscript, and_self]

end Host

end TirBase.HostPrograms
