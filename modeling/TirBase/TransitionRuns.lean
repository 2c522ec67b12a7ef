import Mathlib

/-! # Runs of a transition function

A machine is a transition function on states and operations. A run folds it over a list of
operations; a guarded run also asks that each operation meets a condition in the state before it. -/
namespace TirBase.TransitionRuns

variable {State Operation : Type*}

def run (step : State → Operation → State) (s : State) (ops : List Operation) : State :=
  ops.foldl step s

@[simp] theorem run_nil (step : State → Operation → State) (s : State) : run step s [] = s := rfl

@[simp] theorem run_cons (step : State → Operation → State) (s : State) (op : Operation)
    (ops : List Operation) : run step s (op :: ops) = run step (step s op) ops := rfl

theorem run_append (step : State → Operation → State) (s : State) (ops ops' : List Operation) :
    run step s (ops ++ ops') = run step (run step s ops) ops' := by
  simp [run, List.foldl_append]

/-- Every operation of the run meets the guard in the state in which it is taken. -/
def Guarded (step : State → Operation → State) (guard : State → Operation → Prop) :
    State → List Operation → Prop
  | _, [] => True
  | s, op :: ops => guard s op ∧ Guarded step guard (step s op) ops

@[simp] theorem guarded_nil (step : State → Operation → State) (guard : State → Operation → Prop)
    (s : State) : Guarded step guard s [] := trivial

@[simp] theorem guarded_cons (step : State → Operation → State)
    (guard : State → Operation → Prop) (s : State) (op : Operation) (ops : List Operation) :
    Guarded step guard s (op :: ops) ↔ guard s op ∧ Guarded step guard (step s op) ops := Iff.rfl

theorem guarded_append (step : State → Operation → State) (guard : State → Operation → Prop)
    (s : State) (ops ops' : List Operation) : Guarded step guard s (ops ++ ops') ↔
      Guarded step guard s ops ∧ Guarded step guard (run step s ops) ops' := by
  induction ops generalizing s with
  | nil => simp
  | cons op ops ih => simp [ih, and_assoc]

theorem guarded_and {step : State → Operation → State} {guard guard' : State → Operation → Prop}
    {s : State} {ops : List Operation} :
    Guarded step (fun s op => guard s op ∧ guard' s op) s ops ↔
      Guarded step guard s ops ∧ Guarded step guard' s ops := by
  induction ops generalizing s with
  | nil => simp
  | cons op ops ih =>
    rw [guarded_cons, guarded_cons, guarded_cons, ih]
    exact and_and_and_comm

/-- A run is guarded when each of its operations meets the guard after the ones before it. -/
theorem guarded_iff_splits {step : State → Operation → State}
    {guard : State → Operation → Prop} {s : State} {ops : List Operation} :
    Guarded step guard s ops ↔
      ∀ earlier op rest, ops = earlier ++ op :: rest → guard (run step s earlier) op := by
  induction ops generalizing s with
  | nil => simp
  | cons op ops ih =>
    rw [guarded_cons, ih]
    constructor
    · rintro ⟨hop, hops⟩ earlier op' rest hsplit
      cases earlier with
      | nil =>
        cases hsplit
        exact hop
      | cons first earlier =>
        simp only [List.cons_append, List.cons.injEq] at hsplit
        obtain ⟨rfl, hsplit⟩ := hsplit
        exact hops earlier op' rest hsplit
    · intro hall
      refine ⟨hall [] op ops rfl, fun earlier op' rest hsplit => ?_⟩
      have hlater := hall (op :: earlier) op' rest (by rw [hsplit, List.cons_append])
      rwa [run_cons] at hlater

instance guardedDecidable (step : State → Operation → State) (guard : State → Operation → Prop)
    [h : ∀ s op, Decidable (guard s op)] : ∀ s ops, Decidable (Guarded step guard s ops)
  | _, [] => isTrue trivial
  | s, op :: ops =>
    have := guardedDecidable step guard (step s op) ops
    inferInstanceAs (Decidable (guard s op ∧ Guarded step guard (step s op) ops))

/-- What every guarded step preserves, every guarded run preserves. -/
theorem guarded_run {step : State → Operation → State} {guard : State → Operation → Prop}
    {invariant : State → Prop}
    (hstep : ∀ s op, guard s op → invariant s → invariant (step s op)) {s : State}
    {ops : List Operation} (hguard : Guarded step guard s ops) (hs : invariant s) :
    invariant (run step s ops) := by
  induction ops generalizing s with
  | nil => exact hs
  | cons op ops ih => exact ih hguard.2 (hstep s op hguard.1 hs)

/-- A guard that implies another one wherever the invariant holds guards fewer runs. -/
theorem guarded_of_invariant {step : State → Operation → State}
    {guard guard' : State → Operation → Prop} {invariant : State → Prop}
    (himplies : ∀ s op, guard s op → invariant s → guard' s op)
    (hstep : ∀ s op, guard s op → invariant s → invariant (step s op)) {s : State}
    {ops : List Operation} (hguard : Guarded step guard s ops) (hs : invariant s) :
    Guarded step guard' s ops := by
  induction ops generalizing s with
  | nil => exact trivial
  | cons op ops ih =>
    exact ⟨himplies s op hguard.1 hs, ih hguard.2 (hstep s op hguard.1 hs)⟩

/-- Two guards that agree wherever the invariant holds guard the same runs, if the invariant is kept
by each step under one of them. -/
theorem guarded_congr {step : State → Operation → State} {guard guard' : State → Operation → Prop}
    {allowed : State → Operation → Prop} {invariant : State → Prop}
    (hiff : ∀ s op, allowed s op → invariant s → (guard s op ↔ guard' s op))
    (hstep : ∀ s op, allowed s op → guard' s op → invariant s → invariant (step s op))
    {s : State} {ops : List Operation} (hallowed : Guarded step allowed s ops)
    (hs : invariant s) : Guarded step guard s ops ↔ Guarded step guard' s ops := by
  induction ops generalizing s with
  | nil => exact Iff.rfl
  | cons op ops ih =>
    obtain ⟨hop, hops⟩ := hallowed
    rw [guarded_cons, guarded_cons, hiff s op hop hs]
    exact and_congr_right fun hguard => ih hops (hstep s op hop hguard hs)

/-- A property of states that a step from an invariant state keeps exactly under a guard holds
all along a run exactly when the run is guarded. -/
theorem forall_prefix_iff_guarded {step : State → Operation → State}
    {guard : State → Operation → Prop} {invariant property : State → Prop}
    (hstep : ∀ s op, invariant s → property s → (property (step s op) ↔ guard s op))
    (hinvariant : ∀ s op, invariant s → property s → guard s op → invariant (step s op))
    {s : State} {ops : List Operation} (hs : invariant s) (hproperty : property s) :
    (∀ earlier, earlier <+: ops → property (run step s earlier)) ↔ Guarded step guard s ops := by
  induction ops generalizing s with
  | nil => simp [hproperty]
  | cons op ops ih =>
    constructor
    · intro hall
      have hnext : property (step s op) := hall [op] (by simp)
      have hguard := (hstep s op hs hproperty).mp hnext
      refine ⟨hguard, (ih (hinvariant s op hs hproperty hguard) hnext).mp fun rest hrest => ?_⟩
      exact hall (op :: rest) (by simpa using hrest)
    · rintro ⟨hguard, hops⟩ earlier hearlier
      have hnext := (hstep s op hs hproperty).mpr hguard
      rcases List.prefix_cons_iff.mp hearlier with rfl | ⟨rest, rfl, hrest⟩
      · exact hproperty
      · exact (ih (hinvariant s op hs hproperty hguard) hnext).mpr hops rest hrest

/-- What every step preserves, every run preserves. -/
theorem invariant_run {step : State → Operation → State} {invariant : State → Prop}
    (hstep : ∀ s op, invariant s → invariant (step s op)) {s : State} (ops : List Operation)
    (hs : invariant s) : invariant (run step s ops) := by
  induction ops generalizing s with
  | nil => exact hs
  | cons op ops ih => exact ih (hstep s op hs)

/-- A relation between two machines that each operation keeps holds after every run. -/
theorem related_run {State' : Type*} {step : State → Operation → State}
    {step' : State' → Operation → State'} {related : State → State' → Prop}
    {allowed : Operation → Prop}
    (hstep : ∀ s s' op, allowed op → related s s' → related (step s op) (step' s' op))
    {ops : List Operation} (hops : ∀ op ∈ ops, allowed op) {s : State} {s' : State'}
    (hs : related s s') : related (run step s ops) (run step' s' ops) := by
  induction ops generalizing s s' with
  | nil => exact hs
  | cons op ops ih =>
    exact ih (fun o ho => hops o (List.mem_cons_of_mem op ho))
      (hstep s s' op (hops op List.mem_cons_self) hs)

section Outputs
variable {State' Operation' Output Output' : Type*}

def emitted (step : State → Operation → State × List Output) :
    State → List Operation → List Output
  | _, [] => []
  | s, op :: ops => (step s op).2 ++ emitted step (step s op).1 ops

@[simp] theorem emitted_nil (step : State → Operation → State × List Output) (s : State) :
    emitted step s [] = [] := rfl

@[simp] theorem emitted_cons (step : State → Operation → State × List Output) (s : State)
    (op : Operation) (ops : List Operation) :
    emitted step s (op :: ops) = (step s op).2 ++ emitted step (step s op).1 ops := rfl

theorem emitted_append (step : State → Operation → State × List Output) (s : State)
    (ops ops' : List Operation) : emitted step s (ops ++ ops') =
      emitted step s ops ++ emitted step (run (fun s op => (step s op).1) s ops) ops' := by
  induction ops generalizing s with
  | nil => rfl
  | cons op ops ih => rw [List.cons_append, emitted_cons, emitted_cons, ih, List.append_assoc,
      run_cons]

theorem emitted_eq_nil {step : State → Operation → State × List Output} {ops : List Operation}
    (h : ∀ s, ∀ op ∈ ops, (step s op).2 = []) (s : State) : emitted step s ops = [] := by
  induction ops generalizing s with
  | nil => rfl
  | cons op ops ih =>
    rw [emitted_cons, h s op List.mem_cons_self, List.nil_append]
    exact ih (fun s o ho => h s o (List.mem_cons_of_mem op ho)) _

theorem mem_emitted {step : State → Operation → State × List Output} {s : State}
    {ops : List Operation} {out : Output} (h : out ∈ emitted step s ops) :
    ∃ s', ∃ op ∈ ops, out ∈ (step s' op).2 := by
  induction ops generalizing s with
  | nil => cases h
  | cons op ops ih =>
    rcases List.mem_append.mp h with h | h
    · exact ⟨s, op, List.mem_cons_self, h⟩
    · obtain ⟨s', op', hop', hout⟩ := ih h
      exact ⟨s', op', List.mem_cons_of_mem op hop', hout⟩

/-- A machine whose states stand in a relation to those of another, kept step by step, emits
what the other emits. -/
theorem emitted_of_simulation {step : State → Operation → State × List Output}
    {step' : State' → Operation' → State' × List Output'} (related : State → State' → Prop)
    {allowed : Operation → Prop} {project : Operation → Operation'}
    {translate : Output' → List Output}
    (hstep : ∀ s s' op, allowed op → related s s' →
      (step s op).2 = (step' s' (project op)).2.flatMap translate ∧
        related (step s op).1 (step' s' (project op)).1)
    {ops : List Operation} (hops : ∀ op ∈ ops, allowed op) {s : State} {s' : State'}
    (hs : related s s') :
    emitted step s ops = (emitted step' s' (ops.map project)).flatMap translate := by
  induction ops generalizing s s' with
  | nil => rfl
  | cons op ops ih =>
    obtain ⟨hout, hnext⟩ := hstep s s' op (hops op List.mem_cons_self) hs
    have hrest := ih (fun o ho => hops o (List.mem_cons_of_mem op ho)) hnext
    simp only [emitted_cons, List.map_cons, List.flatMap_append, hout, hrest]

end Outputs

end TirBase.TransitionRuns
