import TirBase.EngineRuns

/-! # The Lamport clock

Merging moves the clock behind the value of the Delta and producing one counts it up, on words of
64 bits. -/
namespace TirBase.LamportClock
open CrdtEngine EngineRuns TransitionRuns

variable (lib : EngineLibraries) (build : Build)

structure Merging (e : CrdtEngine) (δ : Delta) : Prop where
  passes : ∃ adopt, e.gate lib δ = .pass adopt
  merges : ∃ doc, e.mergePayload lib δ = some doc

def Overflows (e : CrdtEngine) : EngineOperation → Prop
  | .apply δ _ _ => Merging lib e δ ∧ 2 ^ 64 ≤ max e.lamport.toNat δ.lamport.toNat + 1
  | .produceDeltaWithTags .. => 2 ^ 64 ≤ e.lamport.toNat + 1
  | _ => False

/-- The clock moves on with what is merged or produced, nothing overflows, and what is produced is
ahead of all that the DAG holds. -/
structure Advances (e : CrdtEngine) (op : EngineOperation) : Prop where
  clock : (admitted lib build e op).isSome = true → e.lamport < (step lib build e op).lamport
  exact_ : ¬Overflows lib e op
  ahead : ∀ automergeBytes priority causalParents tags env,
    op = .produceDeltaWithTags automergeBytes priority causalParents tags env →
      ∀ δ, admitted lib build e op = some δ → ∀ row ∈ e.dag.nodes, row.lamport < δ.lamport

def RoomFor (e : CrdtEngine) : EngineOperation → Prop
  | .apply δ _ _ => Merging lib e δ → e.lamport.toNat < 2 ^ 64 - 1 ∧ δ.lamport.toNat < 2 ^ 64 - 1
  | .produceDeltaWithTags .. => e.lamport.toNat < 2 ^ 64 - 1
  | _ => True

def BehindClock (start : ChangesetDag) (e : CrdtEngine) (op : EngineOperation) : Prop :=
  ∀ automergeBytes priority causalParents tags env,
    op = .produceDeltaWithTags automergeBytes priority causalParents tags env →
      (admitted lib build e op).isSome = true → ∀ row ∈ start.nodes, row.lamport ≤ e.lamport

variable {lib build} {e : CrdtEngine} {op : EngineOperation}

theorem not_overflows_iff : ¬Overflows lib e op ↔ RoomFor lib e op := by
  cases op with
  | apply δ now fault =>
    have hlocal := e.lamport.toNat_lt
    have hincoming := δ.lamport.toNat_lt
    simp only [Overflows, RoomFor, not_and, not_le]
    refine forall_congr' fun _ => ?_
    omega
  | produceDeltaWithTags bytes priority causalParents tags env =>
    have hlocal := e.lamport.toNat_lt
    simp only [Overflows, RoomFor, not_le]
    omega
  | _ => exact iff_of_true (fun h => h) trivial

theorem lamport_apply_of_merging {δ : Delta} (h : Merging lib e δ) (now : ℤ) (fault : DagFault) :
    (e.apply lib build δ now fault).2.lamport = e.advanceLamport δ := by
  obtain ⟨⟨adopt, hgate⟩, doc, hmerge⟩ := h
  rcases apply_of_pass hgate hmerge build now fault with ⟨err, -, -, happly⟩ | happly
  · rw [happly]
    cases adopt <;> rfl
  · rw [happly]
    cases adopt <;> rfl

theorem lamport_apply_of_not_merging {δ : Delta} (h : ¬Merging lib e δ) (now : ℤ)
    (fault : DagFault) : (e.apply lib build δ now fault).2.lamport = e.lamport := by
  cases hgate : e.gate lib δ with
  | reject code reason => simp [CrdtEngine.apply, hgate]
  | quarantine reason => simp [CrdtEngine.apply, hgate]
  | pass adopt =>
    cases hmerge : e.mergePayload lib δ with
    | some doc => exact absurd ⟨⟨adopt, hgate⟩, doc, hmerge⟩ h
    | none =>
      have hsame : (if adopt then e.addKnownSchema δ.schemaHash else e).mergePayload lib δ =
          none := by
        cases adopt <;> exact hmerge
      simp only [CrdtEngine.apply, hgate, hsame]
      cases adopt <;> rfl

theorem merging_of_admitted {δ δ' : Delta} {now : ℤ} {fault : DagFault}
    (h : admitted lib build e (.apply δ now fault) = some δ') : Merging lib e δ ∧ δ' = δ := by
  simp only [admitted] at h
  split at h
  · rename_i n hmerged
    cases h
    obtain ⟨adopt, doc, hgate, hmerge, -⟩ := apply_eq_merged ⟨n, hmerged⟩
    exact ⟨⟨⟨adopt, hgate⟩, doc, hmerge⟩, rfl⟩
  · cases h

theorem lamport_writeScalar (e : CrdtEngine) (table key : String) (value : JsonValue) :
    (e.writeScalar lib table key value).2.lamport = e.lamport := by
  obtain ⟨doc, hwrite⟩ := writeScalar_engine lib e table key value
  rw [hwrite]

theorem lamport_maybeCompact (e : CrdtEngine) (policy : CompactionPolicy)
    (fault : Option CompactionFault) : (e.maybeCompact lib policy fault).2.lamport = e.lamport := by
  obtain ⟨doc, dag, hcompact⟩ := maybeCompact_engine lib e policy fault
  rw [hcompact]

theorem lamport_produce (bytes : Bytes) (priority : PriorityClass) (causalParents : List DeltaId)
    (tags : List DeltaTag) (env : ProduceEnvironment) :
    (e.produceDeltaWithTags lib build bytes priority causalParents tags env).2.lamport =
      e.lamport + 1 := by
  rcases produceDeltaWithTags_cases build e bytes priority causalParents tags env with
    ⟨err, hproduce⟩ | ⟨parents, hproduce⟩
  · rw [hproduce]
  · rw [hproduce]
    cases build <;> rfl

theorem lamport_of_produced {bytes : Bytes} {priority : PriorityClass}
    {causalParents : List DeltaId} {tags : List DeltaTag} {env : ProduceEnvironment} {δ : Delta}
    (h : admitted lib build e (.produceDeltaWithTags bytes priority causalParents tags env) =
      some δ) : δ.lamport = e.lamport + 1 := by
  rcases produceDeltaWithTags_cases build e bytes priority causalParents tags env with
    ⟨err, hproduce⟩ | ⟨parents, hproduce⟩
  · rw [admitted, hproduce] at h
    cases h
  · rw [admitted, hproduce] at h
    cases h
    rfl

theorem toNat_succ (h : e.lamport.toNat < 2 ^ 64 - 1) :
    (e.lamport + 1).toNat = e.lamport.toNat + 1 := by
  rw [UInt64.toNat_add, UInt64.toNat_one]
  omega

/-- With room for it the clock never goes back, and it moves on with what is admitted. -/
theorem clock_step (h : RoomFor lib e op) :
    e.lamport.toNat ≤ (step lib build e op).lamport.toNat ∧
      ∀ δ, admitted lib build e op = some δ → e.lamport.toNat < (step lib build e op).lamport.toNat ∧
        δ.lamport.toNat ≤ (step lib build e op).lamport.toNat := by
  have hsame : (step lib build e op).lamport = e.lamport → admitted lib build e op = none →
      e.lamport.toNat ≤ (step lib build e op).lamport.toNat ∧
        ∀ δ, admitted lib build e op = some δ →
          e.lamport.toNat < (step lib build e op).lamport.toNat ∧
            δ.lamport.toNat ≤ (step lib build e op).lamport.toNat := by
    intro hlamport hnone
    rw [hlamport, hnone]
    exact ⟨le_rfl, fun δ hδ => by cases hδ⟩
  cases op with
  | apply δ now fault =>
    by_cases hmerging : Merging lib e δ
    · obtain ⟨hlocal, hincoming⟩ := h hmerging
      rw [step, lamport_apply_of_merging hmerging now fault, toNat_advanceLamport]
      refine ⟨by omega, fun δ' hδ' => ?_⟩
      obtain ⟨-, rfl⟩ := merging_of_admitted hδ'
      omega
    · refine hsame (lamport_apply_of_not_merging hmerging now fault) ?_
      rw [Option.eq_none_iff_forall_ne_some]
      exact fun δ' hδ' => hmerging (merging_of_admitted hδ').1
  | produceDeltaWithTags bytes priority causalParents tags env =>
    have hclock : (EngineRuns.step lib build e (.produceDeltaWithTags bytes priority causalParents tags
        env)).lamport = e.lamport + 1 := lamport_produce bytes priority causalParents tags env
    rw [hclock, toNat_succ h]
    refine ⟨by omega, fun δ hδ => ⟨by omega, ?_⟩⟩
    rw [lamport_of_produced hδ, toNat_succ h]
  | writeScalar table key value => exact hsame (lamport_writeScalar e table key value) rfl
  | markDidRevoked did => exact hsame rfl rfl
  | addKnownSchema hash => exact hsame rfl rfl
  | setCurrentSchema hash => exact hsame rfl rfl
  | registerSchemaDefinition expectedHash computed schema =>
    refine hsame ?_ rfl
    simp only [step, registerSchemaDefinition]
    split_ifs <;> rfl
  | maybeCompact policy fault => exact hsame (lamport_maybeCompact e policy fault) rfl

/-- Every row after an operation was there before it, or holds the admitted Delta. -/
theorem rows_step (op : EngineOperation) {row : DagRow}
    (h : row ∈ (EngineRuns.step lib build e op).dag.nodes) :
    (∃ old ∈ e.dag.nodes, row.lamport = old.lamport) ∨
      ∃ δ, admitted lib build e op = some δ ∧ row.lamport = δ.lamport := by
  by_cases hstored : build = .wasm ∨ admitted lib build e op = none
  · obtain ⟨old, hold, hext⟩ := (dag_step_of_not_stored hstored).1.back row h
    exact .inl ⟨old, hold, hext.lamport⟩
  · rw [not_or] at hstored
    obtain ⟨δ, hδ⟩ := Option.ne_none_iff_exists'.mp hstored.2
    cases build with
    | wasm => exact absurd rfl hstored.1
    | native =>
      obtain ⟨node, hnode, hdag⟩ := dag_step_of_admitted hδ
      rw [hdag, ChangesetDag.mem_nodes_insert] at h
      rcases h with hold | ⟨-, rfl⟩
      · exact .inl ⟨row, hold, rfl⟩
      · exact .inr ⟨δ, hδ, hnode.lamport⟩

theorem rows_kept (op : EngineOperation) {old : DagRow} (h : old ∈ e.dag.nodes) :
    ∃ row ∈ (EngineRuns.step lib build e op).dag.nodes, row.lamport = old.lamport := by
  by_cases hstored : build = .wasm ∨ admitted lib build e op = none
  · obtain ⟨row, hrow, hext⟩ := (dag_step_of_not_stored hstored).1.forth old h
    exact ⟨row, hrow, hext.lamport⟩
  · rw [not_or] at hstored
    obtain ⟨δ, hδ⟩ := Option.ne_none_iff_exists'.mp hstored.2
    cases build with
    | wasm => exact absurd rfl hstored.1
    | native =>
      obtain ⟨node, -, hdag⟩ := dag_step_of_admitted hδ
      rw [hdag]
      exact ⟨old, ChangesetDag.mem_nodes_insert.mpr (.inl h), rfl⟩

/-- The rows of the start are still there, and every row of which the clock is behind comes from
one of them. -/
structure Tracks (start : ChangesetDag) (e : CrdtEngine) : Prop where
  kept : ∀ old ∈ start.nodes, ∃ row ∈ e.dag.nodes, row.lamport = old.lamport
  behind : ∀ row ∈ e.dag.nodes, row.lamport ≤ e.lamport ∨
    ∃ old ∈ start.nodes, row.lamport = old.lamport

theorem tracks_start (e : CrdtEngine) : Tracks e.dag e :=
  ⟨fun old hold => ⟨old, hold, rfl⟩, fun row hrow => .inr ⟨row, hrow, rfl⟩⟩

theorem Tracks.step {start : ChangesetDag} (h : Tracks start e) (hroom : RoomFor lib e op) :
    Tracks start (EngineRuns.step lib build e op) := by
  have hclock : e.lamport.toNat ≤ (EngineRuns.step lib build e op).lamport.toNat ∧
      ∀ δ, admitted lib build e op = some δ →
        e.lamport.toNat < (EngineRuns.step lib build e op).lamport.toNat ∧
          δ.lamport.toNat ≤ (EngineRuns.step lib build e op).lamport.toNat := clock_step hroom
  obtain ⟨hmono, hadmitted⟩ := hclock
  refine ⟨fun old hold => ?_, fun row hrow => ?_⟩
  · obtain ⟨row, hrow, hlamport⟩ := h.kept old hold
    obtain ⟨row', hrow', hlamport'⟩ := rows_kept op hrow
    exact ⟨row', hrow', hlamport'.trans hlamport⟩
  · rcases rows_step op hrow with ⟨old, hold, hlamport⟩ | ⟨δ, hδ, hlamport⟩
    · rw [hlamport]
      rcases h.behind old hold with hle | hstart
      · exact .inl (UInt64.le_iff_toNat_le.mpr ((UInt64.le_iff_toNat_le.mp hle).trans hmono))
      · exact .inr hstart
    · rw [hlamport]
      exact .inl (UInt64.le_iff_toNat_le.mpr (hadmitted δ hδ).2)

/-- Tags leave the clock values of the rows alone. -/
theorem Tracks.retags {start : ChangesetDag} {e e' : CrdtEngine} (h : Tracks start e)
    (hlamport : e'.lamport = e.lamport) (hretags : e.dag.Retags e'.dag) : Tracks start e' := by
  refine ⟨fun old hold => ?_, fun row hrow => ?_⟩
  · obtain ⟨row, hrow, hsame⟩ := h.kept old hold
    obtain ⟨row', hrow', hext⟩ := hretags.forth row hrow
    exact ⟨row', hrow', hext.lamport.trans hsame⟩
  · obtain ⟨row', hrow', hext⟩ := hretags.back row hrow
    rw [hext.lamport, hlamport]
    exact h.behind row' hrow'

/-- Under the invariant an operation keeps the law exactly when there is room for it and the clock is
not behind a row of the start. -/
theorem advances_iff {start : ChangesetDag} (h : Tracks start e) :
    Advances lib build e op ↔ RoomFor lib e op ∧ BehindClock lib build start e op := by
  constructor
  · intro hadvances
    have hroom : RoomFor lib e op := not_overflows_iff.mp hadvances.exact_
    refine ⟨hroom, ?_⟩
    rintro bytes priority causalParents tags env rfl hsome row hrow
    obtain ⟨δ, hδ⟩ := Option.isSome_iff_exists.mp hsome
    obtain ⟨row', hrow', hlamport⟩ := h.kept row hrow
    have hahead := UInt64.lt_iff_toNat_lt.mp
      (hadvances.ahead bytes priority causalParents tags env rfl δ hδ row' hrow')
    rw [lamport_of_produced hδ, toNat_succ hroom, hlamport] at hahead
    exact UInt64.le_iff_toNat_le.mpr (Nat.lt_succ_iff.mp hahead)
  · rintro ⟨hroom, hbehind⟩
    refine ⟨fun hsome => ?_, not_overflows_iff.mpr hroom, ?_⟩
    · obtain ⟨δ, hδ⟩ := Option.isSome_iff_exists.mp hsome
      exact UInt64.lt_iff_toNat_lt.mpr ((clock_step hroom).2 δ hδ).1
    · rintro bytes priority causalParents tags env rfl δ hδ row hrow
      have hle : row.lamport.toNat ≤ e.lamport.toNat := by
        rcases h.behind row hrow with hle | ⟨old, hold, hlamport⟩
        · exact UInt64.le_iff_toNat_le.mp hle
        · rw [hlamport]
          exact UInt64.le_iff_toNat_le.mp (hbehind bytes priority causalParents tags env rfl
            (Option.isSome_iff_exists.mpr ⟨δ, hδ⟩) old hold)
      rw [lamport_of_produced hδ, UInt64.lt_iff_toNat_lt, toNat_succ hroom]
      omega

/-- Along every run the clock moves on with what is merged or produced, nothing overflows and what
is produced is ahead of the DAG, exactly when all values stay below the greatest one and the clock
starts out ahead of the stored rows. -/
theorem advances_iff_room (lib : EngineLibraries) (build : Build) (e : CrdtEngine)
    (ops : List EngineOperation) :
    Guarded (step lib build) (Advances lib build) e ops ↔
      Guarded (step lib build) (fun s op => RoomFor lib s op ∧ BehindClock lib build e.dag s op)
        e ops := by
  have hiff : ∀ (s : CrdtEngine) (op : EngineOperation), True → Tracks e.dag s →
      (Advances lib build s op ↔ RoomFor lib s op ∧ BehindClock lib build e.dag s op) :=
    fun s op _ hs => advances_iff hs
  have hstep : ∀ (s : CrdtEngine) (op : EngineOperation), True →
      RoomFor lib s op ∧ BehindClock lib build e.dag s op → Tracks e.dag s →
        Tracks e.dag (step lib build s op) := fun s op _ hguard hs => hs.step hguard.1
  have hallowed : Guarded (step lib build) (fun _ _ => True) e ops :=
    guarded_iff_splits.mpr fun _ _ _ _ => trivial
  exact guarded_congr hiff hstep hallowed (tracks_start e)

/-- A Delta with the greatest clock value sends the clock of a new engine back to 0. -/
theorem greatest_lamport_resets_clock :
    let e := CrdtEngine.new (sampleKey 1) (sampleKey 1) sampleDid₁ 0 .empty
    let δ : Delta :=
      ⟨7, sampleDid₂, List.replicate 64 0, 0, [], .low, [], [], 18446744073709551615, 0⟩
    (admitted (sampleLibraries []) .native e (.apply δ 0 none)) = some δ ∧
      (step (sampleLibraries []) .native e (.apply δ 0 none)).lamport = 0 ∧
      ¬Guarded (step (sampleLibraries []) .native) (Advances (sampleLibraries []) .native) e
        [.apply δ 0 none] := by
  intro e δ
  have hadmitted : admitted (sampleLibraries []) .native e (.apply δ 0 none) = some δ := by
    decide +kernel
  have hlamport : (step (sampleLibraries []) .native e (.apply δ 0 none)).lamport = 0 := by
    decide +kernel
  refine ⟨hadmitted, hlamport, fun hguarded => ?_⟩
  have hadvances := (hguarded.1).clock (Option.isSome_iff_exists.mpr ⟨δ, hadmitted⟩)
  rw [hlamport] at hadvances
  exact absurd hadvances (UInt64.not_lt.mpr (UInt64.le_iff_toNat_le.mpr (Nat.zero_le _)))

end TirBase.LamportClock
