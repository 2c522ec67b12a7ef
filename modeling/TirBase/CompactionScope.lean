import TirBase.CoreHandle
import TirBase.DagAgreement
import TirBase.EngineRuns

/-! # What a compaction marks

The changes of one document are counted for all tables together, and the statement that marks the
nodes names no table. A run of writes and merges keeps, beside the engine, the Deltas that are
stored with the table that each writes. -/
namespace TirBase.CompactionScope
open CrdtEngine TransitionRuns

/-- The engine with the stored Deltas, each with its table, and how many each table has had. -/
structure Progress where
  engine : CrdtEngine
  deltas : List (Delta × String)
  counts : String → ℕ

inductive Operation
  | write (table key : String) (value : JsonValue) (compaction : Option CompactionFault)
      (tags : List DeltaTag) (env : ProduceEnvironment)
  | merge (δ : Delta) (table : String) (now : ℤ) (fault : DagFault)

variable (lib : EngineLibraries)

/-- What a write does to the engine: the value is put, the document perhaps compacted, and a Delta
produced. -/
def writeEngine (e : CrdtEngine) (table key : String) (value : JsonValue)
    (compaction : Option CompactionFault) (tags : List DeltaTag) (env : ProduceEnvironment) :
    Except TirBaseError Delta × CrdtEngine :=
  let written := e.writeScalar lib table key value
  match written.1 with
  | .error err => (.error err, written.2)
  | .ok automergeBytes =>
    (written.2.compactAfterWrite lib table compaction).2.produceDeltaWithTags lib .native
      automergeBytes .low [] tags env

namespace Progress

def start (e : CrdtEngine) : Progress := ⟨{ e with dag := .empty }, [], fun _ => 0⟩

def count (s : Progress) (table : String) : Progress :=
  { s with counts := Function.update s.counts table (s.counts table + 1) }

def store (s : Progress) (known : List DeltaId) (δ : Delta) (table : String) : Progress :=
  { s with deltas := if δ.id ∈ known then s.deltas else s.deltas ++ [(δ, table)] }

end Progress

def step (s : Progress) : Operation → Progress
  | .write table key value compaction tags env =>
    let out := writeEngine lib s.engine table key value compaction tags env
    match out.1 with
    | .ok δ => ({ s with engine := out.2 }.store s.engine.dag.ids δ table).count table
    | .error _ => { s with engine := out.2 }
  | .merge δ table now fault =>
    let out := s.engine.apply lib .native δ now fault
    match out.1 with
    | .ok (.merged _) =>
      if δ.id ∈ s.engine.dag.ids then { s with engine := out.2 }
      else ({ s with engine := out.2 }.store s.engine.dag.ids δ table).count table
    | _ => { s with engine := out.2 }

/-- `refetch_delta_bytes`. -/
def refetchDeltaBytes (e : CrdtEngine) (id : DeltaId) : Option Bytes :=
  (e.dag.get id).bind DagRow.deltaBytes

def storedAs (s : Progress) (id : DeltaId) : Option (Delta × String) :=
  s.deltas.find? fun p => p.1.id = id

/-- A marked node is that of a Delta whose table is compacted and has had more Deltas than its
threshold, and the bytes of the Delta are still there. -/
def RespectsPolicies (s : Progress) : Prop :=
  ∀ r ∈ s.engine.dag.nodes, r.compacted = true → ∃ δ table threshold,
    storedAs s r.id = some (δ, table) ∧
      s.engine.compactionPolicyFor table = .aggressive threshold ∧ threshold < s.counts table ∧
      refetchDeltaBytes s.engine r.id = some (lib.serialiseDelta δ)

/-- The write takes the changes of the document beyond the threshold of its table. -/
def marks (e : CrdtEngine) : Operation → Bool
  | .write table key value none _ _ => shouldCompact (e.compactionPolicyFor table)
      (e.writeScalar lib table key value).2.doc.commit.changes.length
  | _ => false

/-- The Delta of the write itself, unless storing it fails. -/
def ownDelta : Operation → String → ℕ
  | .write table _ _ _ _ env, t =>
    if t = table ∧ env.tipsFault = none ∧ env.insertFault = none then 1 else 0
  | .merge _ _ _ _, _ => 0

def MarksWhatIsDue (s : Progress) (op : Operation) : Prop :=
  marks lib s.engine op = true → ∀ r ∈ s.engine.dag.nodes, r.compacted = false →
    ∃ δ table threshold, storedAs s r.id = some (δ, table) ∧
      s.engine.compactionPolicyFor table = .aggressive threshold ∧
      threshold < s.counts table + ownDelta op table

def markRows (marked : Bool) (rows : List DagRow) : List DagRow :=
  if marked then rows.map fun r => { r with compacted := true } else rows

/-- The rows are marked or not, and a new Delta may come with a row of its own. -/
structure StepEffect (s : Progress) (op : Operation) : Prop where
  policies : ∀ table, (step lib s op).engine.compactionPolicyFor table =
    s.engine.compactionPolicyFor table
  grows : ∀ table, s.counts table ≤ (step lib s op).counts table
  counted : marks lib s.engine op = true → ∀ table,
    (step lib s op).counts table = s.counts table + ownDelta op table
  rows : ((step lib s op).deltas = s.deltas ∧ (step lib s op).engine.dag.nodes =
      markRows (marks lib s.engine op) s.engine.dag.nodes) ∨
    ∃ δ table row, row.id = δ.id ∧ row.deltaBytes = some (lib.serialiseDelta δ) ∧
      row.compacted = false ∧ δ.id ∉ s.engine.dag.ids ∧
      (step lib s op).deltas = s.deltas ++ [(δ, table)] ∧ (step lib s op).engine.dag.nodes =
        markRows (marks lib s.engine op) s.engine.dag.nodes ++ [row]

variable {lib}

theorem ids_markRows (marked : Bool) (rows : List DagRow) :
    (markRows marked rows).map DagRow.id = rows.map DagRow.id := by
  cases marked with
  | false => rfl
  | true =>
    simp only [markRows, if_true, List.map_map]
    rfl

theorem nodes_insert (dag : ChangesetDag) (node : DagNode) : (dag.insert node).nodes =
    if node.deltaId ∈ dag.ids then dag.nodes else dag.nodes ++ [node.row] := rfl

/-- A compaction that is due marks every row, unless one of its statements fails. -/
theorem nodes_compactAfterWrite (e : CrdtEngine) (table : String)
    (compaction : Option CompactionFault) :
    (e.compactAfterWrite lib table compaction).2.dag.nodes =
      markRows (decide (compaction = none) &&
        shouldCompact (e.compactionPolicyFor table) e.doc.commit.changes.length) e.dag.nodes := by
  unfold compactAfterWrite maybeCompact
  cases hdue : shouldCompact (e.compactionPolicyFor table) e.doc.commit.changes.length with
  | false => simp [markRows]
  | true =>
    cases compaction with
    | none => simp [markRows, compactTable]
    | some fault =>
      cases fault with
      | markNodes => simp [markRows, compactTable]
      | updateDocs actor =>
        simp only [if_true, compactTable, markRows]
        split <;> simp

theorem policies_compactAfterWrite (e : CrdtEngine) (table : String)
    (compaction : Option CompactionFault) (t : String) :
    (e.compactAfterWrite lib table compaction).2.compactionPolicyFor t =
      e.compactionPolicyFor t := by
  obtain ⟨doc, dag, hcompact⟩ :=
    maybeCompact_engine lib e (e.compactionPolicyFor table) compaction
  rw [compactAfterWrite, hcompact]
  rfl

theorem stepEffect_write (s : Progress) (table key : String) (value : JsonValue)
    (compaction : Option CompactionFault) (tags : List DeltaTag) (env : ProduceEnvironment) :
    StepEffect lib s (.write table key value compaction tags env) := by
  let saved := savedDocument lib.json s.engine table key value
  let written : CrdtEngine := { s.engine with doc := saved.commit }
  let compacted := (written.compactAfterWrite lib table compaction).2
  have hmarks : marks lib s.engine (.write table key value compaction tags env) =
      (decide (compaction = none) &&
        shouldCompact (written.compactionPolicyFor table) written.doc.commit.changes.length) := by
    cases compaction with
    | some fault => simp [marks]
    | none => rfl
  have hnodes : compacted.dag.nodes = markRows
      (marks lib s.engine (.write table key value compaction tags env)) s.engine.dag.nodes := by
    rw [hmarks]
    exact nodes_compactAfterWrite written table compaction
  have hids : compacted.dag.ids = s.engine.dag.ids := by
    rw [ChangesetDag.ids, hnodes, ids_markRows]
    rfl
  have hpolicies : ∀ t, compacted.compactionPolicyFor t = s.engine.compactionPolicyFor t :=
    fun t => policies_compactAfterWrite written table compaction t
  have hengine : writeEngine lib s.engine table key value compaction tags env =
      compacted.produceDeltaWithTags lib .native (lib.save saved) .low [] tags env := rfl
  by_cases hfaults : env.tipsFault = none ∧ env.insertFault = none
  · obtain ⟨δ, hproduce⟩ : ∃ δ,
        compacted.produceDeltaWithTags lib .native (lib.save saved) .low [] tags env = (.ok δ,
          { compacted with
            lamport := compacted.lamport + 1
            dag := compacted.dag.insert
              (dagNode lib { compacted with lamport := compacted.lamport + 1 } δ) }) :=
      ⟨_, produceDeltaWithTags_of_no_fault compacted _ .low tags hfaults.1 hfaults.2⟩
    have hstep : step lib s (.write table key value compaction tags env) =
        ({ s with engine := { compacted with
            lamport := compacted.lamport + 1
            dag := compacted.dag.insert
              (dagNode lib { compacted with lamport := compacted.lamport + 1 } δ) } }.store
          s.engine.dag.ids δ table).count table := by
      simp only [step, hengine, hproduce]
    have hcounts : ∀ t, (step lib s (.write table key value compaction tags env)).counts t =
        s.counts t + ownDelta (.write table key value compaction tags env) t := by
      intro t
      rw [hstep]
      by_cases ht : t = table
      · simp [Progress.count, Progress.store, ownDelta, ht, hfaults]
      · simp [Progress.count, Progress.store, ownDelta, ht]
    refine ⟨fun t => ?_, fun t => ?_, fun _ => hcounts, ?_⟩
    · rw [hstep]
      exact hpolicies t
    · rw [hcounts]
      exact Nat.le_add_right _ _
    · have hrows : (step lib s (.write table key value compaction tags env)).engine.dag.nodes =
          if δ.id ∈ s.engine.dag.ids then compacted.dag.nodes else compacted.dag.nodes ++
            [(dagNode lib { compacted with lamport := compacted.lamport + 1 } δ).row] := by
        rw [hstep, ← hids]
        exact nodes_insert _ _
      have hdeltas : (step lib s (.write table key value compaction tags env)).deltas =
          if δ.id ∈ s.engine.dag.ids then s.deltas else s.deltas ++ [(δ, table)] := by
        rw [hstep]
        rfl
      rw [hrows, hdeltas, hnodes]
      by_cases hknown : δ.id ∈ s.engine.dag.ids
      · rw [if_pos hknown, if_pos hknown]
        exact .inl ⟨rfl, rfl⟩
      · rw [if_neg hknown, if_neg hknown]
        exact .inr ⟨δ, table, _, rfl, rfl, rfl, hknown, rfl, rfl⟩
  · obtain ⟨err, hproduce⟩ := produceDeltaWithTags_of_fault lib compacted (lib.save saved) .low tags
      hfaults
    have hstep : step lib s (.write table key value compaction tags env) =
        { s with engine := { compacted with lamport := compacted.lamport + 1 } } := by
      simp only [step, hengine, hproduce]
    have hown : ∀ t, ownDelta (.write table key value compaction tags env) t = 0 :=
      fun t => if_neg fun h => hfaults h.2
    refine ⟨fun t => ?_, fun t => by rw [hstep], fun _ t => by rw [hstep, hown]; rfl, .inl ?_⟩
    · rw [hstep]
      exact hpolicies t
    · rw [hstep]
      exact ⟨rfl, hnodes⟩

theorem stepEffect_merge (s : Progress) (δ : Delta) (table : String) (now : ℤ) (fault : DagFault) :
    StepEffect lib s (.merge δ table now fault) := by
  have hpolicies : ∀ t, (s.engine.apply lib .native δ now fault).2.compactionPolicyFor t =
      s.engine.compactionPolicyFor t := by
    intro t
    obtain ⟨doc, lamport, known, records, dag, happly⟩ :=
      apply_engine lib .native s.engine δ now fault
    rw [happly]
    rfl
  by_cases hmerged : ∃ n, (s.engine.apply lib .native δ now fault).1 = .ok (.merged n)
  · obtain ⟨adopt, doc, -, -, happly⟩ := apply_eq_merged hmerged
    obtain ⟨n, hresult⟩ := hmerged
    obtain ⟨e', hdag⟩ : ∃ e', (s.engine.apply lib .native δ now fault).2.dag =
        s.engine.dag.insert (dagNode lib e' δ) := by
      rw [happly]
      cases adopt <;> exact ⟨_, rfl⟩
    have hid : (dagNode lib e' δ).deltaId = δ.id := rfl
    by_cases hknown : δ.id ∈ s.engine.dag.ids
    · have hstep : step lib s (.merge δ table now fault) =
          { s with engine := (s.engine.apply lib .native δ now fault).2 } := by
        simp only [step, hresult, if_pos hknown]
      refine ⟨fun t => by rw [hstep]; exact hpolicies t, fun t => by rw [hstep],
        fun hm => (by cases hm), .inl ?_⟩
      rw [hstep, hdag, nodes_insert, hid, if_pos hknown]
      exact ⟨rfl, rfl⟩
    · have hstep : step lib s (.merge δ table now fault) =
          ({ s with engine := (s.engine.apply lib .native δ now fault).2 }.store
            s.engine.dag.ids δ table).count table := by
        simp only [step, hresult, if_neg hknown]
      refine ⟨fun t => by rw [hstep]; exact hpolicies t, fun t => ?_, fun hm => (by cases hm),
        .inr ⟨δ, table, (dagNode lib e' δ).row, rfl, rfl, rfl, hknown, ?_, ?_⟩⟩
      · rw [hstep]
        by_cases ht : t = table
        · simp [Progress.count, Progress.store, ht]
        · simp [Progress.count, Progress.store, ht]
      · rw [hstep]
        exact if_neg hknown
      · rw [hstep]
        change (s.engine.apply lib .native δ now fault).2.dag.nodes = _
        rw [hdag, nodes_insert, hid, if_neg hknown]
        rfl
  · have hstep : step lib s (.merge δ table now fault) =
        { s with engine := (s.engine.apply lib .native δ now fault).2 } := by
      simp only [step]
      split
      · rename_i n hn
        exact absurd ⟨n, hn⟩ hmerged
      · rfl
    push Not at hmerged
    refine ⟨fun t => by rw [hstep]; exact hpolicies t, fun t => by rw [hstep],
      fun hm => (by cases hm), .inl ?_⟩
    rw [hstep, dag_apply_of_not_merged hmerged]
    exact ⟨rfl, rfl⟩

theorem stepEffect (lib : EngineLibraries) (s : Progress) (op : Operation) :
    StepEffect lib s op := by
  cases op with
  | write table key value compaction tags env =>
    exact stepEffect_write s table key value compaction tags env
  | merge δ table now fault => exact stepEffect_merge s δ table now fault

/-- Each row is that of a stored Delta and holds its bytes. -/
structure Kept (lib : EngineLibraries) (s : Progress) : Prop where
  nodup : s.engine.dag.ids.Nodup
  rows : ∀ r ∈ s.engine.dag.nodes, ∃ δ table, storedAs s r.id = some (δ, table) ∧
    r.deltaBytes = some (lib.serialiseDelta δ)
  stored : ∀ p ∈ s.deltas, p.1.id ∈ s.engine.dag.ids

section Run
variable {s : Progress} {op : Operation}

theorem mem_markRows {marked : Bool} {rows : List DagRow} {r' : DagRow} :
    r' ∈ markRows marked rows ↔
      ∃ r ∈ rows, r' = { r with compacted := marked || r.compacted } := by
  cases marked with
  | false =>
    simp only [markRows, Bool.false_eq_true, if_false, Bool.false_or]
    exact ⟨fun h => ⟨r', h, rfl⟩, fun ⟨r, hr, h⟩ => h ▸ hr⟩
  | true =>
    simp only [markRows, if_true, List.mem_map, Bool.true_or]
    exact ⟨fun ⟨r, hr, h⟩ => ⟨r, hr, h.symm⟩, fun ⟨r, hr, h⟩ => ⟨r, hr, h.symm⟩⟩

theorem ids_of_marked {dag dag' : ChangesetDag} {marked : Bool} {new : List DagRow}
    (h : dag'.nodes = markRows marked dag.nodes ++ new) :
    dag'.ids = dag.ids ++ new.map DagRow.id := by
  rw [ChangesetDag.ids, h, List.map_append, ids_markRows]
  rfl

theorem storedAs_new {s s' : Progress} {δ : Delta} {table : String} {id : DeltaId}
    (h : s'.deltas = s.deltas ++ [(δ, table)]) (hid : id ≠ δ.id) :
    storedAs s' id = storedAs s id := by
  have hne : ¬δ.id = id := fun heq => hid heq.symm
  rw [storedAs, h, List.find?_append, storedAs]
  simp [hne]

theorem Kept.storedAs_none (hkept : Kept lib s) {id : DeltaId} (h : id ∉ s.engine.dag.ids) :
    storedAs s id = none := by
  refine List.find?_eq_none.mpr fun p hp hid => h ?_
  rw [← of_decide_eq_true hid]
  exact hkept.stored p hp

theorem StepEffect.storedAs_old (h : StepEffect lib s op) {id : DeltaId}
    (hid : id ∈ s.engine.dag.ids) : storedAs (step lib s op) id = storedAs s id := by
  rcases h.rows with ⟨hdeltas, -⟩ | ⟨δ, table, row, -, -, -, hnew, hdeltas, -⟩
  · rw [storedAs, hdeltas, storedAs]
  · exact storedAs_new hdeltas fun heq => hnew (heq ▸ hid)

theorem Kept.step (hkept : Kept lib s) (op : Operation) :
    Kept lib (step lib s op) := by
  have heffect := stepEffect lib s op
  rcases heffect.rows with ⟨hdeltas, hnodes⟩ | ⟨δ, table, row, hid, hbytes, -, hnew, hdeltas, hnodes⟩
  · have hids : (CompactionScope.step lib s op).engine.dag.ids = s.engine.dag.ids := by
      rw [ids_of_marked (hnodes.trans (List.append_nil _).symm), List.map_nil, List.append_nil]
    refine ⟨hids ▸ hkept.nodup, fun r' hr' => ?_, fun p hp => ?_⟩
    · rw [hnodes] at hr'
      obtain ⟨r, hr, rfl⟩ := mem_markRows.mp hr'
      rw [heffect.storedAs_old (List.mem_map_of_mem hr)]
      exact hkept.rows r hr
    · rw [hids]
      exact hkept.stored p (hdeltas ▸ hp)
  · have hids := ids_of_marked hnodes
    simp only [List.map_cons, List.map_nil, hid] at hids
    refine ⟨?_, fun r' hr' => ?_, fun p hp => ?_⟩
    · rw [hids]
      exact hkept.nodup.append (List.nodup_singleton _) (List.disjoint_singleton.mpr hnew)
    · rw [hnodes] at hr'
      rcases List.mem_append.mp hr' with hr' | hr'
      · obtain ⟨r, hr, rfl⟩ := mem_markRows.mp hr'
        rw [heffect.storedAs_old (List.mem_map_of_mem hr)]
        exact hkept.rows r hr
      · rw [List.mem_singleton.mp hr', hid]
        refine ⟨δ, table, ?_, hbytes⟩
        have hnone := hkept.storedAs_none hnew
        rw [storedAs] at hnone
        rw [storedAs, hdeltas, List.find?_append, hnone]
        simp
    · rw [hids]
      rw [hdeltas] at hp
      rcases List.mem_append.mp hp with hp | hp
      · exact List.mem_append_left _ (hkept.stored p hp)
      · rw [List.mem_singleton.mp hp]
        exact List.mem_append_right _ (List.mem_singleton_self _)

theorem Kept.refetch (hkept : Kept lib s) {r : DagRow} (hr : r ∈ s.engine.dag.nodes) :
    refetchDeltaBytes s.engine r.id = r.deltaBytes := by
  have hget : s.engine.dag.get r.id = some r :=
    (ChangesetDag.get_eq_some hkept.nodup).mpr ⟨hr, rfl⟩
  rw [refetchDeltaBytes, hget]
  rfl

/-- A step from a state that respects the policies leads to one exactly when it marks what is due. -/
theorem respects_step_iff (hkept : Kept lib s) (hs : RespectsPolicies lib s) :
    RespectsPolicies lib (step lib s op) ↔ MarksWhatIsDue lib s op := by
  have heffect := stepEffect lib s op
  have hkept' := hkept.step op
  have hold : ∀ r ∈ s.engine.dag.nodes,
      ({ r with compacted := marks lib s.engine op || r.compacted } : DagRow) ∈
        (step lib s op).engine.dag.nodes := by
    intro r hr
    rcases heffect.rows with ⟨-, hnodes⟩ | ⟨δ, table, row, -, -, -, -, -, hnodes⟩
    · rw [hnodes]
      exact mem_markRows.mpr ⟨r, hr, rfl⟩
    · rw [hnodes]
      exact List.mem_append_left _ (mem_markRows.mpr ⟨r, hr, rfl⟩)
  constructor
  · intro h hmarks r hr hunmarked
    obtain ⟨δ, table, threshold, hstored, hpolicy, hcount, -⟩ :=
      h _ (hold r hr) (by simp [hmarks])
    rw [heffect.storedAs_old (List.mem_map_of_mem hr)] at hstored
    rw [heffect.policies] at hpolicy
    rw [heffect.counted hmarks] at hcount
    exact ⟨δ, table, threshold, hstored, hpolicy, hcount⟩
  · intro hdue r' hr' hmarked
    obtain ⟨r, hr, hid, hbefore⟩ : ∃ r ∈ s.engine.dag.nodes, r'.id = r.id ∧
        (r.compacted = true ∨ marks lib s.engine op = true ∧ r.compacted = false) := by
      have hwas : ∀ r ∈ s.engine.dag.nodes,
          r' = { r with compacted := marks lib s.engine op || r.compacted } →
            r'.id = r.id ∧
              (r.compacted = true ∨ marks lib s.engine op = true ∧ r.compacted = false) := by
        rintro r - rfl
        refine ⟨rfl, ?_⟩
        cases hc : r.compacted with
        | true => exact .inl rfl
        | false =>
          rw [hc] at hmarked
          exact .inr ⟨by simpa using hmarked, rfl⟩
      rcases heffect.rows with ⟨-, hnodes⟩ | ⟨δ, table, row, -, -, hunmarked, -, -, hnodes⟩
      · rw [hnodes] at hr'
        obtain ⟨r, hr, heq⟩ := mem_markRows.mp hr'
        exact ⟨r, hr, hwas r hr heq⟩
      · rw [hnodes] at hr'
        rcases List.mem_append.mp hr' with hr' | hr'
        · obtain ⟨r, hr, heq⟩ := mem_markRows.mp hr'
          exact ⟨r, hr, hwas r hr heq⟩
        · rw [List.mem_singleton.mp hr', hunmarked] at hmarked
          cases hmarked
    obtain ⟨δ, table, threshold, hstored, hpolicy, hcount⟩ : ∃ δ table threshold,
        storedAs s r.id = some (δ, table) ∧
          s.engine.compactionPolicyFor table = .aggressive threshold ∧
          threshold < (step lib s op).counts table := by
      rcases hbefore with hc | ⟨hmarks, hc⟩
      · obtain ⟨δ, table, threshold, hstored, hpolicy, hcount, -⟩ := hs r hr hc
        exact ⟨δ, table, threshold, hstored, hpolicy, hcount.trans_le (heffect.grows table)⟩
      · obtain ⟨δ, table, threshold, hstored, hpolicy, hcount⟩ := hdue hmarks r hr hc
        rw [← heffect.counted hmarks] at hcount
        exact ⟨δ, table, threshold, hstored, hpolicy, hcount⟩
    have hstored' : storedAs (step lib s op) r'.id = some (δ, table) := by
      rw [hid, heffect.storedAs_old (List.mem_map_of_mem hr), hstored]
    obtain ⟨δ', table', hrow, hbytes⟩ := hkept'.rows r' hr'
    rw [hstored'] at hrow
    cases hrow
    refine ⟨δ, table, threshold, hstored', ?_, hcount, ?_⟩
    · rw [heffect.policies, hpolicy]
    · rw [hkept'.refetch hr', hbytes]

end Run

/-- Every state of a run respects the policies exactly when each compaction of the run finds only
nodes of tables that are due. -/
theorem respects_along_run_iff (lib : EngineLibraries) (e : CrdtEngine) (ops : List Operation) :
    (∀ earlier, earlier <+: ops → RespectsPolicies lib (run (step lib) (.start e) earlier)) ↔
      Guarded (step lib) (MarksWhatIsDue lib) (.start e) ops := by
  have hstep : ∀ s op, Kept lib s → RespectsPolicies lib s →
      (RespectsPolicies lib (step lib s op) ↔ MarksWhatIsDue lib s op) :=
    fun s op hkept hs => respects_step_iff hkept hs
  exact forall_prefix_iff_guarded hstep (fun s op hkept _ _ => hkept.step op)
    ⟨List.nodup_nil, fun r hr => absurd hr List.not_mem_nil, fun p hp => absurd hp List.not_mem_nil⟩
    fun r hr => absurd hr List.not_mem_nil

/-- The engine's part of the device's write is the write of these runs. -/
theorem crdt_produceWrite (lib : CoreLibraries) (h : CoreHandle) (table key : String)
    (data : JsonValue) {env : CoreHandle.WriteEnvironment} (hcrdt : env.poisoned .crdt = false) :
    (h.produceWrite lib table key data env).2.crdt =
      (writeEngine lib.toEngineLibraries h.crdt table key data env.compaction
        ((h.humanReactionIncident table key env).toList.map .contaminatedByHumanReaction)
        env.produce).2 := by
  simp only [CoreHandle.produceWrite, hcrdt, Bool.false_eq_true, if_false, writeEngine]
  cases (h.crdt.writeScalar lib.toEngineLibraries table key data).1 <;> rfl

def notes : TableDef := ⟨"notes", [], .none, []⟩
def logs : TableDef := ⟨"logs", [], .aggressive 1, []⟩

def twoTables : CrdtEngine :=
  { CrdtEngine.new (sampleKey 1) (sampleKey 1) sampleDid₁ 0 .empty with
    schemaDefinitions := [(0, ⟨[notes, logs], "1"⟩)] }

def moment (now : ℤ) : ProduceEnvironment := ⟨⟨fun l => l, fun l => .refl l⟩, now, none, none⟩

def writeToBoth : List Operation :=
  [.write "notes" "a" (.bool true) none [] (moment 1),
    .write "logs" "b" (.bool true) none [] (moment 2)]

/-- The second change of the document is beyond the threshold of `logs`, and the node of `notes` is
marked. -/
theorem uncompacted_table_marked :
    let s := run (step (sampleLibraries [])) (.start twoTables) writeToBoth
    s.engine.dag.nodes.map (fun r => (r.compacted, (storedAs s r.id).map Prod.snd)) =
        [(true, some "notes"), (false, some "logs")] ∧
      s.engine.compactionPolicyFor "notes" = .none ∧
      ¬RespectsPolicies (sampleLibraries []) s := by
  intro s
  have hrows : s.engine.dag.nodes.map (fun r => (r.compacted, (storedAs s r.id).map Prod.snd)) =
      [(true, some "notes"), (false, some "logs")] := by decide +kernel
  have hpolicy : s.engine.compactionPolicyFor "notes" = .none := by decide +kernel
  refine ⟨hrows, hpolicy, fun h => ?_⟩
  obtain ⟨r, hr, hrow⟩ : ∃ r ∈ s.engine.dag.nodes,
      (r.compacted, (storedAs s r.id).map Prod.snd) = (true, some "notes") :=
    List.mem_map.mp (hrows ▸ List.mem_cons_self)
  obtain ⟨hmarked, htable⟩ := Prod.mk.inj hrow
  obtain ⟨δ, table, threshold, hstored, hthreshold, -⟩ := h r hr hmarked
  rw [hstored, Option.map_some] at htable
  cases htable
  rw [hpolicy] at hthreshold
  cases hthreshold

end TirBase.CompactionScope
