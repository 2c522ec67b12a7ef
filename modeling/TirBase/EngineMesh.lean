import TirBase.CausalCompleteness
import TirBase.CausalHistories
import TirBase.CausalOrder
import TirBase.LamportClock

/-! # The causal order of a mesh of engines

Any number of devices produce Deltas and merge those of the others once their parents are stored. The
graph that the causal parents make is then the order in which the devices came to know the Deltas. -/
namespace TirBase.EngineMesh
open CausalCompleteness CrdtEngine EngineRuns LamportClock TransitionRuns

/-- The engines with the Deltas they admitted so far, and all Deltas produced with what their authors
held at that moment. -/
structure Mesh (D : Type*) where
  engine : D → CrdtEngine
  admitted : D → List Delta
  written : List (Delta × List Delta)

def Produces : EngineOperation → Prop
  | .produceDeltaWithTags .. => True
  | _ => False

instance (op : EngineOperation) : Decidable (Produces op) := by
  cases op <;> simp only [Produces] <;> infer_instance

variable {D : Type*} (lib : EngineLibraries)

def step [DecidableEq D] (m : Mesh D) (a : D × EngineOperation) : Mesh D :=
  let engine := Function.update m.engine a.1 (EngineRuns.step lib .native (m.engine a.1) a.2)
  match EngineRuns.admitted lib .native (m.engine a.1) a.2 with
  | none => { m with engine }
  | some δ =>
    { engine
      admitted := Function.update m.admitted a.1 (m.admitted a.1 ++ [δ])
      written := if Produces a.2 then m.written ++ [(δ, m.admitted a.1)] else m.written }

def start (engine : D → CrdtEngine) : Mesh D := ⟨engine, fun _ => [], []⟩

/-- The clock has room, the engine derives the parents of what it produces under a new id, and what it
merges was produced on some device and finds its parents stored. -/
structure Fair (m : Mesh D) (a : D × EngineOperation) : Prop where
  room : RoomFor lib (m.engine a.1) a.2
  derived : ∀ bytes priority parents tags env,
    a.2 = .produceDeltaWithTags bytes priority parents tags env → parents = []
  fresh : ∀ δ, EngineRuns.admitted lib .native (m.engine a.1) a.2 = some δ → Produces a.2 →
    ∀ w ∈ m.written, w.1.id ≠ δ.id
  delivered : ∀ δ now fault, a.2 = .apply δ now fault →
    EngineRuns.admitted lib .native (m.engine a.1) a.2 = some δ →
      δ ∈ m.written.map Prod.fst ∧ ∀ p ∈ δ.causalParents, p ∈ (m.engine a.1).dag.ids

variable {lib} {e : CrdtEngine} {op : EngineOperation} {δ : Delta} {deltas : List Delta}

def ParentsIn (deltas : List Delta) : Prop :=
  ∀ δ ∈ deltas, ∀ p ∈ δ.causalParents, ∃ x ∈ deltas, x.id = p

theorem ParentsIn.concat (h : ParentsIn deltas) (hδ : ∀ p ∈ δ.causalParents, ∃ x ∈ deltas, x.id = p) :
    ParentsIn (deltas ++ [δ]) := by
  intro x hx p hp
  have hparent : ∃ y ∈ deltas, y.id = p := by
    rcases List.mem_append.mp hx with hold | hnew
    · exact h x hold p hp
    · rw [List.mem_singleton.mp hnew] at hp
      exact hδ p hp
  obtain ⟨y, hy, hid⟩ := hparent
  exact ⟨y, List.mem_append_left _ hy, hid⟩

theorem records_admitted (h : Records e.dag deltas)
    (hδ : EngineRuns.admitted lib .native e op = some δ) :
    Records (EngineRuns.step lib .native e op).dag (deltas ++ [δ]) := by
  obtain ⟨node, hnode, hdag⟩ := dag_step_of_admitted hδ
  rw [hdag]
  exact h.insert hnode.id hnode.parents

theorem records_same (h : Records e.dag deltas)
    (hnone : EngineRuns.admitted lib .native e op = none) :
    Records (EngineRuns.step lib .native e op).dag deltas := by
  have hgraph := (dag_step_of_not_stored (.inr hnone)).2
  refine ⟨h.wellFormed.of_graph hgraph, fun id => ?_, fun p c => ?_⟩
  · rw [ChangesetDag.ids_of_graph hgraph, h.ids]
  · rw [ChangesetDag.edges_of_graph hgraph, h.edges]

/-- What an engine produces without explicit parents is a child of its tips, one clock value on. -/
theorem produced_tips {bytes : Bytes} {priority : PriorityClass} {tags : List DeltaTag}
    {env : ProduceEnvironment} (h : EngineRuns.admitted lib .native e
      (.produceDeltaWithTags bytes priority [] tags env) = some δ) :
    δ.causalParents = e.dagTips env.hash := by
  simp only [EngineRuns.admitted, produceDeltaWithTags, resolveCausalParents, ne_eq,
    not_true_eq_false, if_false] at h
  cases htips : env.tipsFault with
  | some err =>
    rw [htips] at h
    cases h
  | none =>
    cases hinsert : env.insertFault with
    | some err =>
      rw [htips, hinsert] at h
      cases h
    | none =>
      rw [htips, hinsert] at h
      cases h
      rfl

/-- What an author held is closed under parents, is behind the clock of the Delta, holds its parents
and leads to them. -/
structure Authored (δ : Delta) (known : List Delta) : Prop where
  closed : ParentsIn known
  behind : ∀ x ∈ known, x.lamport.toNat < δ.lamport.toNat
  named : ∀ p ∈ δ.causalParents, ∃ x ∈ known, x.id = p
  covered : ∀ x ∈ known, ∃ p ∈ δ.causalParents, x.id = p ∨ Ancestor known x.id p

/-- A device stores what it admitted, closed under parents and behind its clock. -/
structure Device (e : CrdtEngine) (admitted : List Delta) : Prop where
  records : Records e.dag admitted
  closed : ParentsIn admitted
  behind : ∀ δ ∈ admitted, δ.lamport.toNat ≤ e.lamport.toNat

structure Causal (m : Mesh D) : Prop where
  device : ∀ d, Device (m.engine d) (m.admitted d)
  produced : ∀ d, ∀ δ ∈ m.admitted d, δ ∈ m.written.map Prod.fst
  unique : ∀ w ∈ m.written, ∀ w' ∈ m.written, w.1.id = w'.1.id → w = w'
  authored : ∀ w ∈ m.written, Authored w.1 w.2 ∧ ∀ x ∈ w.2, x ∈ m.written.map Prod.fst

variable {m : Mesh D} {a : D × EngineOperation} {d : D} {known : List Delta}

theorem causal_start {engine : D → CrdtEngine} (hempty : ∀ d, (engine d).dag = .empty) :
    Causal (start engine) := by
  refine ⟨fun d => ⟨?_, ?_, ?_⟩, ?_, ?_, ?_⟩
  · change Records (engine d).dag []
    rw [hempty d]
    exact records_empty
  · exact fun δ hδ => by cases hδ
  · exact fun δ hδ => by cases hδ
  · exact fun d δ hδ => by cases hδ
  · exact fun w hw => by cases hw
  · exact fun w hw => by cases hw

/-- Parents are behind their children on the clock, so that every stored Delta is reached from the
roots. -/
theorem Causal.grounded (h : Causal m) (d : D) : ∀ id ∈ (m.engine d).dag.ids,
    (m.engine d).dag.Grounded id := by
  have hrecords := (h.device d).records
  -- By induction on the clock value: the parents of a Delta have smaller ones.
  have hclock : ∀ n, ∀ δ ∈ m.admitted d, δ.lamport.toNat < n → (m.engine d).dag.Grounded δ.id := by
    intro n
    induction n with
    | zero => exact fun δ hδ hlt => absurd hlt (by omega)
    | succ n ih =>
      intro δ hδ hlt
      have hstored : δ.id ∈ (m.engine d).dag.ids := (hrecords.ids _).mpr ⟨δ, hδ, rfl⟩
      refine .intro (hrecords.wellFormed.mem_keys.mpr hstored) fun p hp => ?_
      obtain ⟨δ', hδ', hid, hparent⟩ := (hrecords.edges _ _).mp hp
      obtain ⟨w, hw, rfl⟩ := List.mem_map.mp (h.produced d δ hδ)
      obtain ⟨w', hw', rfl⟩ := List.mem_map.mp (h.produced d δ' hδ')
      obtain rfl := h.unique w' hw' w hw hid
      obtain ⟨x, hx, rfl⟩ := (h.device d).closed _ hδ' p hparent
      obtain ⟨y, hy, hxy⟩ := (h.authored w' hw').1.named _ hparent
      have hlast : x = y := by
        obtain ⟨v, hv, rfl⟩ := List.mem_map.mp (h.produced d x hx)
        obtain ⟨v', hv', rfl⟩ := List.mem_map.mp ((h.authored w' hw').2 y hy)
        rw [h.unique v hv v' hv' hxy.symm]
      have hbehind := (h.authored w' hw').1.behind y hy
      exact ih x hx (by rw [hlast]; omega)
  intro id hid
  obtain ⟨δ, hδ, rfl⟩ := (hrecords.ids id).mp hid
  exact hclock _ δ hδ (Nat.lt_succ_self _)

theorem Device.admitted (h : Device e deltas) (hroom : RoomFor lib e op)
    (hδ : EngineRuns.admitted lib .native e op = some δ)
    (hparents : ∀ p ∈ δ.causalParents, p ∈ e.dag.ids) :
    Device (EngineRuns.step lib .native e op) (deltas ++ [δ]) := by
  have hclock : e.lamport.toNat ≤ (EngineRuns.step lib .native e op).lamport.toNat ∧
      ∀ δ, EngineRuns.admitted lib .native e op = some δ →
        e.lamport.toNat < (EngineRuns.step lib .native e op).lamport.toNat ∧
          δ.lamport.toNat ≤ (EngineRuns.step lib .native e op).lamport.toNat := clock_step hroom
  refine ⟨records_admitted h.records hδ, h.closed.concat fun p hp => ?_, fun x hx => ?_⟩
  · exact (h.records.ids p).mp (hparents p hp)
  · rcases List.mem_append.mp hx with hold | hnew
    · exact (h.behind x hold).trans hclock.1
    · rw [List.mem_singleton.mp hnew]
      exact (hclock.2 δ hδ).2

theorem Device.same (h : Device e deltas) (hroom : RoomFor lib e op)
    (hnone : EngineRuns.admitted lib .native e op = none) :
    Device (EngineRuns.step lib .native e op) deltas :=
  ⟨records_same h.records hnone, h.closed, fun x hx => (h.behind x hx).trans (clock_step hroom).1⟩

theorem Causal.author (h : Causal m) {bytes : Bytes} {priority : PriorityClass}
    {tags : List DeltaTag} {env : ProduceEnvironment} (hroom : (m.engine d).lamport.toNat < 2 ^ 64 - 1)
    (hδ : EngineRuns.admitted lib .native (m.engine d)
      (.produceDeltaWithTags bytes priority [] tags env) = some δ) :
    Authored δ (m.admitted d) := by
  have hdevice := h.device d
  have htips := produced_tips hδ
  refine ⟨hdevice.closed, fun x hx => ?_, fun p hp => ?_, fun x hx => ?_⟩
  · have hbehind := hdevice.behind x hx
    rw [lamport_of_produced hδ, toNat_succ hroom]
    omega
  · rw [htips] at hp
    have hreached := List.mem_of_mem_filter hp
    have hstored := CausalOrder.mem_ids_of_grounded hdevice.records.wellFormed
      ((ChangesetDag.mem_topologicalSort env.hash).mp hreached)
    exact (hdevice.records.ids p).mp hstored
  · rw [htips]
    obtain ⟨t, ht, hxt⟩ := hdevice.records.exists_tip (h.grounded d) env.hash hx
    exact ⟨t, ht, hxt.imp_left Eq.symm⟩

/-- What an operation admits was produced now, or before on some device, and its parents are stored. -/
theorem Causal.admits (h : Causal m) (hfair : Fair lib m a)
    (hδ : EngineRuns.admitted lib .native (m.engine a.1) a.2 = some δ) :
    (∀ p ∈ δ.causalParents, p ∈ (m.engine a.1).dag.ids) ∧
      (Produces a.2 ∧ Authored δ (m.admitted a.1) ∨
        ¬Produces a.2 ∧ δ ∈ m.written.map Prod.fst) := by
  obtain ⟨d, op⟩ := a
  cases op with
  | produceDeltaWithTags bytes priority parents tags env =>
    obtain rfl := hfair.derived bytes priority parents tags env rfl
    have hauthored := h.author hfair.room hδ
    refine ⟨fun p hp => ?_, .inl ⟨trivial, hauthored⟩⟩
    exact ((h.device d).records.ids p).mpr (hauthored.named p hp)
  | apply δ' now fault =>
    obtain ⟨-, rfl⟩ := merging_of_admitted hδ
    obtain ⟨hwritten, hparents⟩ := hfair.delivered δ now fault rfl hδ
    exact ⟨hparents, .inr ⟨fun h => h, hwritten⟩⟩
  | _ => cases hδ

section Steps
variable [DecidableEq D]

theorem step_of_none (hnone : EngineRuns.admitted lib .native (m.engine a.1) a.2 = none) :
    step lib m a = { m with
      engine := Function.update m.engine a.1 (EngineRuns.step lib .native (m.engine a.1) a.2) } := by
  simp only [step, hnone]

theorem step_of_some (hδ : EngineRuns.admitted lib .native (m.engine a.1) a.2 = some δ) :
    step lib m a =
      { engine := Function.update m.engine a.1 (EngineRuns.step lib .native (m.engine a.1) a.2)
        admitted := Function.update m.admitted a.1 (m.admitted a.1 ++ [δ])
        written := if Produces a.2 then m.written ++ [(δ, m.admitted a.1)] else m.written } := by
  simp only [step, hδ]

theorem unique_concat {written : List (Delta × List Delta)} {new : Delta × List Delta}
    (h : ∀ w ∈ written, ∀ w' ∈ written, w.1.id = w'.1.id → w = w')
    (hnew : ∀ w ∈ written, w.1.id ≠ new.1.id) :
    ∀ w ∈ written ++ [new], ∀ w' ∈ written ++ [new], w.1.id = w'.1.id → w = w' := by
  intro w hw w' hw' hid
  rcases List.mem_append.mp hw with hold | hlast
  · rcases List.mem_append.mp hw' with hold' | hlast'
    · exact h w hold w' hold' hid
    · rw [List.mem_singleton.mp hlast'] at hid
      exact absurd hid (hnew w hold)
  · rw [List.mem_singleton.mp hlast] at hid ⊢
    rcases List.mem_append.mp hw' with hold' | hlast'
    · exact absurd hid.symm (hnew w' hold')
    · exact (List.mem_singleton.mp hlast').symm

theorem causal_step (h : Causal m) (hfair : Fair lib m a) : Causal (step lib m a) := by
  cases hadmitted : EngineRuns.admitted lib .native (m.engine a.1) a.2 with
  | none =>
    rw [step_of_none hadmitted]
    refine ⟨fun d => ?_, h.produced, h.unique, h.authored⟩
    by_cases hd : d = a.1
    · subst hd
      simpa using (h.device _).same hfair.room hadmitted
    · simpa [hd] using h.device d
  | some δ =>
    obtain ⟨hparents, hsource⟩ := h.admits hfair hadmitted
    rw [step_of_some hadmitted]
    have hmore : ∀ x ∈ m.written.map Prod.fst,
        x ∈ (if Produces a.2 then m.written ++ [(δ, m.admitted a.1)] else m.written).map Prod.fst := by
      intro x hx
      split_ifs
      · rw [List.map_append]
        exact List.mem_append_left _ hx
      · exact hx
    have hnew : δ ∈
        (if Produces a.2 then m.written ++ [(δ, m.admitted a.1)] else m.written).map Prod.fst := by
      rcases hsource with ⟨hproduces, -⟩ | ⟨hnot, hwritten⟩
      · simp [hproduces]
      · rwa [if_neg hnot]
    refine ⟨fun d => ?_, fun d x hx => ?_, ?_, ?_⟩
    · by_cases hd : d = a.1
      · subst hd
        simpa using (h.device _).admitted hfair.room hadmitted hparents
      · simpa [hd] using h.device d
    · by_cases hd : d = a.1
      · subst hd
        simp only [Function.update_self] at hx
        rcases List.mem_append.mp hx with hold | hlast
        · exact hmore x (h.produced _ x hold)
        · rw [List.mem_singleton.mp hlast]
          exact hnew
      · simp only [Function.update_of_ne hd] at hx
        exact hmore x (h.produced d x hx)
    · rcases hsource with ⟨hproduces, -⟩ | ⟨hnot, -⟩
      · rw [if_pos hproduces]
        exact unique_concat h.unique (hfair.fresh δ hadmitted hproduces)
      · rw [if_neg hnot]
        exact h.unique
    · rcases hsource with ⟨hproduces, hauthored⟩ | ⟨hnot, -⟩
      · intro w hw
        simp only [if_pos hproduces] at hw hmore ⊢
        rcases List.mem_append.mp hw with hold | hlast
        · exact ⟨(h.authored w hold).1, fun x hx => hmore x ((h.authored w hold).2 x hx)⟩
        · rw [List.mem_singleton.mp hlast]
          exact ⟨hauthored, fun x hx => hmore x (h.produced _ x hx)⟩
      · rw [if_neg hnot]
        exact h.authored

theorem causal_run {ops : List (D × EngineOperation)} (h : Causal m)
    (hfair : Guarded (step lib) (Fair lib) m ops) : Causal (run (step lib) m ops) :=
  guarded_run (fun _ _ hfair h => causal_step h hfair) hfair h

end Steps

def events (m : Mesh D) : List (CausalHistories.Event DeltaId) :=
  m.written.map fun w => ⟨w.1.id, w.1.causalParents, w.2.map Delta.id⟩

theorem precedes_events {b c : DeltaId} :
    CausalHistories.Precedes (events m) b c ↔ Ancestor (m.written.map Prod.fst) b c := by
  have hcause : (fun b c => ∃ e ∈ events m, e.id = c ∧ b ∈ e.causes) =
      fun p c => ∃ δ ∈ m.written.map Prod.fst, δ.id = c ∧ p ∈ δ.causalParents := by
    funext b c
    simp only [events, List.mem_map, exists_exists_and_eq_and]
  rw [CausalHistories.Precedes, hcause, Ancestor]

theorem Causal.eq_of_id (h : Causal m) {x y : Delta} (hx : x ∈ m.written.map Prod.fst)
    (hy : y ∈ m.written.map Prod.fst) (hid : x.id = y.id) : x = y := by
  obtain ⟨w, hw, rfl⟩ := List.mem_map.mp hx
  obtain ⟨w', hw', rfl⟩ := List.mem_map.mp hy
  rw [h.unique w hw w' hw' hid]

theorem Causal.mem_known_iff (h : Causal m) {w : Delta × List Delta} (hw : w ∈ m.written) {x : Delta}
    (hx : x ∈ m.written.map Prod.fst) : x.id ∈ w.2.map Delta.id ↔ x ∈ w.2 := by
  constructor
  · intro hid
    obtain ⟨y, hy, hyx⟩ := List.mem_map.mp hid
    rwa [h.eq_of_id hx ((h.authored w hw).2 y hy) hyx.symm]
  · exact List.mem_map_of_mem

theorem Causal.complete (h : Causal m) : CausalHistories.Complete (events m) := by
  refine ⟨fun e he e' he' hid => ?_, fun e he p hp => ?_, fun e he e' he' hknown p hp => ?_,
    fun e he k hk => ?_⟩
  · obtain ⟨w, hw, rfl⟩ := List.mem_map.mp he
    obtain ⟨w', hw', rfl⟩ := List.mem_map.mp he'
    rw [h.unique w hw w' hw' hid]
  · obtain ⟨w, hw, rfl⟩ := List.mem_map.mp he
    obtain ⟨x, hx, rfl⟩ := (h.authored w hw).1.named p hp
    exact List.mem_map_of_mem hx
  · obtain ⟨w, hw, rfl⟩ := List.mem_map.mp he
    obtain ⟨w', hw', rfl⟩ := List.mem_map.mp he'
    have hmem := (h.mem_known_iff hw (List.mem_map_of_mem hw')).mp hknown
    obtain ⟨x, hx, rfl⟩ := (h.authored w hw).1.closed w'.1 hmem p hp
    exact List.mem_map_of_mem hx
  · obtain ⟨w, hw, rfl⟩ := List.mem_map.mp he
    obtain ⟨x, hx, rfl⟩ := List.mem_map.mp hk
    obtain ⟨p, hp, hxp⟩ := (h.authored w hw).1.covered x hx
    refine ⟨p, hp, hxp.imp_right fun hancestor => ?_⟩
    exact precedes_events.mpr (hancestor.mono (h.authored w hw).2)

theorem Causal.ancestor_iff (h : Causal m) {w : Delta × List Delta} (hw : w ∈ m.written) {x : Delta}
    (hx : x ∈ m.written.map Prod.fst) :
    Ancestor (m.written.map Prod.fst) x.id w.1.id ↔ x ∈ w.2 := by
  rw [← precedes_events, ← h.mem_known_iff hw hx]
  exact h.complete.precedes_iff (e := ⟨w.1.id, w.1.causalParents, w.2.map Delta.id⟩)
    (List.mem_map_of_mem hw)

theorem Causal.ancestor_admitted (h : Causal m) {x : Delta} (hx : x ∈ m.admitted d) {b : DeltaId}
    (hb : Ancestor (m.written.map Prod.fst) b x.id) : Ancestor (m.admitted d) b x.id := by
  have hboth : Ancestor (m.admitted d) b x.id ∧ ∃ y ∈ m.admitted d, y.id = b := by
    induction hb using Relation.TransGen.head_induction_on with
    | single hcause =>
      obtain ⟨δ, hδ, hid, hp⟩ := hcause
      obtain rfl := h.eq_of_id hδ (h.produced d x hx) hid
      exact ⟨.single ⟨δ, hx, rfl, hp⟩, (h.device d).closed δ hx _ hp⟩
    | head hcause _ ih =>
      obtain ⟨δ, hδ, hid, hp⟩ := hcause
      obtain ⟨hancestor, y, hy, rfl⟩ := ih
      obtain rfl := h.eq_of_id hδ (h.produced d y hy) hid
      exact ⟨.head ⟨δ, hy, rfl, hp⟩ hancestor, (h.device d).closed δ hy _ hp⟩
  exact hboth.1

theorem Causal.ancestor_admitted_iff (h : Causal m) {w : Delta × List Delta} (hw : w ∈ m.written)
    (hadmitted : w.1 ∈ m.admitted d) {x : Delta} (hx : x ∈ m.written.map Prod.fst) :
    Ancestor (m.admitted d) x.id w.1.id ↔ x ∈ w.2 := by
  rw [← h.ancestor_iff hw hx]
  constructor
  · exact fun hancestor => hancestor.mono (h.produced d)
  · exact h.ancestor_admitted hadmitted

theorem Causal.transGen_edges (h : Causal m) (d : D) (b c : DeltaId) :
    Relation.TransGen (fun p c => (p, c) ∈ (m.engine d).dag.edges) b c ↔
      Ancestor (m.admitted d) b c := by
  have hedges : (fun p c => (p, c) ∈ (m.engine d).dag.edges) =
      fun p c => ∃ δ ∈ m.admitted d, δ.id = c ∧ p ∈ δ.causalParents := by
    funext p c
    exact propext ((h.device d).records.edges p c)
  rw [hedges, Ancestor]

def sampleEngine : Bool → CrdtEngine
  | false => CrdtEngine.new (sampleKey 1) (sampleKey 1) sampleDid₁ 0 .empty
  | true => CrdtEngine.new (sampleKey 2) (sampleKey 2) sampleDid₂ 0 .empty

theorem sampleEngine_dag (d : Bool) : (sampleEngine d).dag = .empty := by cases d <;> rfl

def replyDelta : Delta := ⟨3, sampleDid₂, List.replicate 64 0, 0, [], .low, [1], [], 3, 0⟩

def sampleProduce (d : Bool) : Bool × EngineOperation :=
  (d, .produceDeltaWithTags [] .low [] [] plainEnvironment)

def sampleOps : List (Bool × EngineOperation) :=
  [sampleProduce false, (true, .apply (producedDelta 1) 0 none), sampleProduce true]

theorem fair_sampleProduce {m : Mesh Bool} {d : Bool}
    (hroom : (m.engine d).lamport.toNat < 2 ^ 64 - 1)
    (hfresh : (EngineRuns.admitted lib .native (m.engine d) (sampleProduce d).2).all
      (fun δ => m.written.all fun w => w.1.id ≠ δ.id) = true) :
    Fair lib m (sampleProduce d) := by
  refine ⟨hroom, fun bytes priority parents tags env heq => ?_, fun δ hδ _ w hw => ?_,
    fun δ now fault heq => ?_⟩
  · cases heq
    rfl
  · have hadmitted : EngineRuns.admitted lib .native (m.engine d) (sampleProduce d).2 = some δ := hδ
    rw [hadmitted, Option.all_some, List.all_eq_true] at hfresh
    exact of_decide_eq_true (hfresh w hw)
  · cases heq

theorem fair_sampleOps :
    Guarded (step (sampleLibraries [])) (Fair (sampleLibraries [])) (start sampleEngine) sampleOps := by
  refine ⟨fair_sampleProduce (by decide +kernel) (by decide +kernel), ⟨fun _ => ⟨?_, ?_⟩, ?_, ?_, ?_⟩,
    fair_sampleProduce (by decide +kernel) (by decide +kernel), trivial⟩
  · decide +kernel
  · decide +kernel
  · intro bytes priority parents tags env heq
    cases heq
  · intro δ _ hproduces
    exact absurd hproduces (fun h => h)
  · intro δ now fault heq _
    cases heq
    refine ⟨by decide +kernel, fun p hp => ?_⟩
    cases hp

theorem sampleOps_written :
    (run (step (sampleLibraries [])) (start sampleEngine) sampleOps).written =
      [(producedDelta 1, []), (replyDelta, [producedDelta 1])] := by
  decide +kernel

/-- The ancestors of a Delta are exactly the Deltas that its author held when producing it, on whatever
device, and they are behind it on the clock. -/
theorem ancestor_iff_known [DecidableEq D] (lib : EngineLibraries) (engine : D → CrdtEngine)
    (hempty : ∀ d, (engine d).dag = .empty) (ops : List (D × EngineOperation))
    (hfair : Guarded (step lib) (Fair lib) (start engine) ops) (δ x : Delta) (known known' : List Delta)
    (hδ : (δ, known) ∈ (run (step lib) (start engine) ops).written)
    (hx : (x, known') ∈ (run (step lib) (start engine) ops).written) :
    (Ancestor ((run (step lib) (start engine) ops).written.map Prod.fst) x.id δ.id ↔ x ∈ known) ∧
      (x ∈ known → x.lamport < δ.lamport) := by
  have hcausal := causal_run (causal_start hempty) hfair
  refine ⟨hcausal.ancestor_iff hδ (List.mem_map_of_mem hx), fun hmem => ?_⟩
  exact UInt64.lt_iff_toNat_lt.mpr ((hcausal.authored _ hδ).1.behind x hmem)

theorem ancestor_iff_known_sample :
    (Ancestor ((run (step (sampleLibraries [])) (start sampleEngine) sampleOps).written.map Prod.fst)
      (producedDelta 1).id replyDelta.id ↔ producedDelta 1 ∈ [producedDelta 1]) ∧
      (producedDelta 1 ∈ [producedDelta 1] → (producedDelta 1).lamport < replyDelta.lamport) :=
  ancestor_iff_known (sampleLibraries []) sampleEngine sampleEngine_dag sampleOps fair_sampleOps replyDelta
    (producedDelta 1) [producedDelta 1] [] (by rw [sampleOps_written]; decide)
    (by rw [sampleOps_written]; decide)

/-- On every device the walk from a Delta lists it with the stored Deltas whose authors knew it, and the
tips are the stored Deltas that no author of a stored Delta knew. -/
theorem device_views [DecidableEq D] (lib : EngineLibraries) (engine : D → CrdtEngine)
    (hempty : ∀ d, (engine d).dag = .empty) (ops : List (D × EngineOperation))
    (hfair : Guarded (step lib) (Fair lib) (start engine) ops) (d : D) (root : Delta)
    (hroot : root ∈ (run (step lib) (start engine) ops).admitted d) (hash : HashOrder) (id : DeltaId) :
    let m := run (step lib) (start engine) ops
    (id ∈ (m.engine d).dag.bfsDescendants root.id ↔
      ∃ w ∈ m.written, w.1 ∈ m.admitted d ∧ w.1.id = id ∧ (w.1 = root ∨ root ∈ w.2)) ∧
    (id ∈ (m.engine d).dagTips hash ↔
      ∃ x ∈ m.admitted d, x.id = id ∧ ∀ w ∈ m.written, w.1 ∈ m.admitted d → x ∉ w.2) := by
  intro m
  have hcausal : Causal m := causal_run (causal_start hempty) hfair
  have hrecords := (hcausal.device d).records
  constructor
  · have hrel : (fun p c => c ∈ (m.engine d).dag.children p) =
        fun p c => (p, c) ∈ (m.engine d).dag.edges := by
      funext p c
      exact propext ChangesetDag.mem_children
    rw [ChangesetDag.mem_bfsDescendants_iff, BreadthFirst.Reaches, hrel,
      Relation.reflTransGen_iff_eq_or_transGen, hcausal.transGen_edges]
    constructor
    · rintro (rfl | hancestor)
      · obtain ⟨w, hw, hwroot⟩ := List.mem_map.mp (hcausal.produced d root hroot)
        exact ⟨w, hw, by rwa [hwroot], by rw [hwroot], .inl hwroot⟩
      · obtain ⟨-, -, x, hx, rfl, -⟩ := Relation.TransGen.tail'_iff.mp hancestor
        obtain ⟨w, hw, rfl⟩ := List.mem_map.mp (hcausal.produced d x hx)
        refine ⟨w, hw, hx, rfl, .inr ?_⟩
        exact (hcausal.ancestor_admitted_iff hw hx (hcausal.produced d root hroot)).mp hancestor
    · rintro ⟨w, hw, hadmitted, rfl, rfl | hknown⟩
      · exact .inl rfl
      · right
        exact (hcausal.ancestor_admitted_iff hw hadmitted (hcausal.produced d root hroot)).mpr hknown
  · rw [mem_dagTips, ChangesetDag.Tip, List.eq_nil_iff_forall_not_mem]
    constructor
    · rintro ⟨hgrounded, hchildless⟩
      have hstored := CausalOrder.mem_ids_of_grounded hrecords.wellFormed hgrounded
      obtain ⟨x, hx, rfl⟩ := (hrecords.ids id).mp hstored
      refine ⟨x, hx, rfl, fun w hw hadmitted hknown => ?_⟩
      have hancestor := (hcausal.ancestor_admitted_iff hw hadmitted (hcausal.produced d x hx)).mpr hknown
      obtain ⟨c, hedge, -⟩ := Relation.TransGen.head'_iff.mp hancestor
      exact hchildless c (ChangesetDag.mem_children.mpr ((hrecords.edges _ _).mpr hedge))
    · rintro ⟨x, hx, rfl, hunknown⟩
      refine ⟨hcausal.grounded d _ ((hrecords.ids _).mpr ⟨x, hx, rfl⟩), fun c hc => ?_⟩
      obtain ⟨δ, hδ, rfl, hp⟩ := (hrecords.edges _ _).mp (ChangesetDag.mem_children.mp hc)
      obtain ⟨w, hw, rfl⟩ := List.mem_map.mp (hcausal.produced d δ hδ)
      apply hunknown w hw hδ
      obtain ⟨y, hy, hyx⟩ := (hcausal.authored w hw).1.named _ hp
      rwa [hcausal.eq_of_id (hcausal.produced d x hx) ((hcausal.authored w hw).2 y hy) hyx.symm]

theorem device_views_sample :
    let m := run (step (sampleLibraries [])) (start sampleEngine) sampleOps
    (replyDelta.id ∈ (m.engine true).dag.bfsDescendants (producedDelta 1).id ↔
      ∃ w ∈ m.written, w.1 ∈ m.admitted true ∧ w.1.id = replyDelta.id ∧
        (w.1 = producedDelta 1 ∨ producedDelta 1 ∈ w.2)) ∧
    (replyDelta.id ∈ (m.engine true).dagTips plainEnvironment.hash ↔
      ∃ x ∈ m.admitted true, x.id = replyDelta.id ∧
        ∀ w ∈ m.written, w.1 ∈ m.admitted true → x ∉ w.2) :=
  device_views (sampleLibraries []) sampleEngine sampleEngine_dag sampleOps fair_sampleOps true
    (producedDelta 1) (by decide +kernel) plainEnvironment.hash replyDelta.id

end TirBase.EngineMesh
