import Mathlib

/-! # Stores that answer as a map

A store is written to and read under keys. Along any sequence of calls it answers as a map does, as
soon as its states stand for maps under a relation that each write keeps. -/
namespace TirBase.MapRuns

inductive Call (Key Value Env : Type*)
  | write (key : Key) (value : Value) (env : Env)
  | read (key : Key)

inductive Answer (Value : Type*)
  | written
  | refused
  | found (value : Option Value)
  | unreadable

structure Operations (State Key Value Env : Type*) where
  write : State → Key → Value → Env → Bool × State
  read : State → Key → Option (Option Value)

variable {State Key Value Env : Type*}

namespace Operations

def step (ops : Operations State Key Value Env) (s : State) :
    Call Key Value Env → Answer Value × State
  | .write key value env =>
    let out := ops.write s key value env
    (if out.1 then .written else .refused, out.2)
  | .read key =>
    match ops.read s key with
    | some value => (.found value, s)
    | none => (.unreadable, s)

def run (ops : Operations State Key Value Env) (s : State) :
    List (Call Key Value Env) → List (Answer Value) × State
  | [] => ([], s)
  | call :: calls =>
    let out := ops.step s call
    let rest := ops.run out.2 calls
    (out.1 :: rest.1, rest.2)

/-- The map: a write that the environment refuses changes nothing. -/
def ofMap [DecidableEq Key] (refuses : Env → Bool) :
    Operations (Key → Option Value) Key Value Env where
  write c key value env :=
    if refuses env then (false, c) else (true, Function.update c key (some value))
  read c key := some (c key)

end Operations

def Call.Within (keys : Set Key) (values : Set Value) : Call Key Value Env → Prop
  | .write key value _ => key ∈ keys ∧ value ∈ values
  | .read key => key ∈ keys

/-- The environment refuses the call in both ways or in neither. -/
def Call.Alike (refuses refuses' : Env → Bool) : Call Key Value Env → Prop
  | .write _ _ env => refuses env = refuses' env
  | .read _ => True

variable [DecidableEq Key]

/-- The states stand for maps: reads show the map, and a write that is not refused updates it. -/
structure Simulates (ops : Operations State Key Value Env) (refuses : Env → Bool)
    (keys : Set Key) (values : Set Value) (rel : State → (Key → Option Value) → Prop) : Prop where
  read : ∀ s c, rel s c → ∀ key ∈ keys, ops.read s key = some (c key)
  refused : ∀ s c, rel s c → ∀ key ∈ keys, ∀ value ∈ values, ∀ env, refuses env = true →
    (ops.write s key value env).1 = false ∧ rel (ops.write s key value env).2 c
  written : ∀ s c, rel s c → ∀ key ∈ keys, ∀ value ∈ values, ∀ env, refuses env = false →
    (ops.write s key value env).1 = true ∧
      rel (ops.write s key value env).2 (Function.update c key (some value))

section Runs
variable {ops : Operations State Key Value Env} {refuses refuses' : Env → Bool} {keys : Set Key}
  {values : Set Value} {rel : State → (Key → Option Value) → Prop}

theorem Simulates.step (h : Simulates ops refuses keys values rel) {s : State}
    {c : Key → Option Value} (hrel : rel s c) {call : Call Key Value Env}
    (hcall : call.Within keys values) :
    (ops.step s call).1 = ((Operations.ofMap refuses).step c call).1 ∧
      rel (ops.step s call).2 ((Operations.ofMap refuses).step c call).2 := by
  cases call with
  | read key =>
    have hread := h.read s c hrel key hcall
    simp only [Operations.step, Operations.ofMap, hread]
    exact ⟨trivial, hrel⟩
  | write key value env =>
    obtain ⟨hkey, hvalue⟩ := hcall
    cases hrefuses : refuses env with
    | true =>
      obtain ⟨hout, hafter⟩ := h.refused s c hrel key hkey value hvalue env hrefuses
      simp only [Operations.step, Operations.ofMap, hrefuses, hout, if_true]
      exact ⟨trivial, hafter⟩
    | false =>
      obtain ⟨hout, hafter⟩ := h.written s c hrel key hkey value hvalue env hrefuses
      simp only [Operations.step, Operations.ofMap, hrefuses, hout, Bool.false_eq_true, if_false]
      exact ⟨trivial, hafter⟩

/-- The answers along a run are those of the map, and the last states stand for one another. -/
theorem Simulates.run (h : Simulates ops refuses keys values rel)
    (calls : List (Call Key Value Env)) {s : State} {c : Key → Option Value} (hrel : rel s c)
    (hcalls : ∀ call ∈ calls, call.Within keys values) :
    (ops.run s calls).1 = ((Operations.ofMap refuses).run c calls).1 ∧
      rel (ops.run s calls).2 ((Operations.ofMap refuses).run c calls).2 := by
  induction calls generalizing s c with
  | nil => exact ⟨rfl, hrel⟩
  | cons call calls ih =>
    obtain ⟨hanswer, hafter⟩ := h.step hrel (hcalls call List.mem_cons_self)
    obtain ⟨hanswers, hlast⟩ := ih hafter fun call' hmem =>
      hcalls call' (List.mem_cons_of_mem call hmem)
    refine ⟨?_, hlast⟩
    simp only [Operations.run, hanswer, hanswers]

/-- The map asks the environment only whether it refuses. -/
theorem run_ofMap_congr (calls : List (Call Key Value Env)) (c : Key → Option Value)
    (h : ∀ call ∈ calls, call.Alike refuses refuses') :
    (Operations.ofMap refuses).run c calls = (Operations.ofMap refuses').run c calls := by
  induction calls generalizing c with
  | nil => rfl
  | cons call calls ih =>
    have hstep : (Operations.ofMap refuses).step c call =
        (Operations.ofMap refuses').step c call := by
      cases call with
      | read key => rfl
      | write key value env =>
        have henv : refuses env = refuses' env := h _ List.mem_cons_self
        have hwrite : (Operations.ofMap refuses).write c key value env =
            (Operations.ofMap refuses').write c key value env := by
          simp [Operations.ofMap, henv]
        simp only [Operations.step, hwrite]
    simp only [Operations.run, hstep,
      ih _ fun call' hmem => h call' (List.mem_cons_of_mem call hmem)]

end Runs

end TirBase.MapRuns
