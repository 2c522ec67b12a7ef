import TirBase.DecisionRestart
import TirBase.DeviceLogs

/-! # The tag of a human reaction

A write on a contaminated row signs the tag of the incident into its Delta. The tag stays there: the
log that the DAG keeps for the Delta starts empty on every device, and no operation adds it. -/
namespace TirBase.ReactionTags
open CoreHandle CrdtEngine DeviceLogs DeviceRuns EngineRuns IncidentRuns TagLogs TransitionRuns

/-- No log holds the tag of a human reaction. -/
def Unlogged (dag : ChangesetDag) : Prop :=
  ∀ id l, tagsOf dag id = some l → ∀ incidentId, .contaminatedByHumanReaction incidentId ∉ l

theorem Unlogged.growth {dag dag' : ChangesetDag} (hdag : Unlogged dag)
    (hgrowth : TracedGrowth dag dag') : Unlogged dag' := by
  intro id l hl incidentId hin
  rcases hgrowth.grows.mem hl hin with hnew | ⟨l', hl', hold⟩
  · exact hnew
  · exact hdag id l' hl' incidentId hold

section Runs
variable (lib : CoreLibraries) (biscuit : Capability.BiscuitLibrary) (config : DeploymentConfig)

theorem unlogged_run {h : CoreHandle} (hkeyed : Keyed h.cce) (hdag : Unlogged h.crdt.dag)
    (ops : List TaintOperation) :
    Unlogged (run (taintStep lib biscuit config) h ops).crdt.dag := by
  have hstep : ∀ (h : CoreHandle) op, Keyed h.cce ∧ Unlogged h.crdt.dag →
      Keyed (taintStep lib biscuit config h op).cce ∧
        Unlogged (taintStep lib biscuit config h op).crdt.dag := by
    rintro h op ⟨hkeyed, hdag⟩
    have htraces : Traces h (taintStep lib biscuit config h op) :=
      traces_taintStep lib biscuit config hkeyed op
    exact ⟨htraces.keyed, hdag.growth htraces.growth⟩
  exact (invariant_run hstep ops ⟨hkeyed, hdag⟩).2

end Runs

section Write
variable {lib : CoreLibraries} {h : CoreHandle} {table key : String} {data : JsonValue}
  {env : WriteEnvironment}

/-- The node of a Delta holds its signed bytes, under an empty log of its own. -/
def HoldsBytes (lib : CoreLibraries) (dag : ChangesetDag) (δ : Delta) : Prop :=
  ∃ r ∈ dag.nodes, r.id = δ.id ∧ r.deltaBytes = some (lib.serialiseDelta δ)

theorem holdsBytes_insert {dag : ChangesetDag} {δ : Delta} {node : DagNode}
    (hnode : NodeOf lib.toEngineLibraries δ node) (hnew : δ.id ∉ dag.ids) :
    HoldsBytes lib (dag.insert node) δ := by
  refine ⟨node.row, ChangesetDag.mem_nodes_insert.mpr (.inr ⟨?_, rfl⟩), hnode.id, hnode.text⟩
  rw [hnode.id]
  exact hnew

theorem HoldsBytes.retags {dag dag' : ChangesetDag} {δ : Delta} (hdag : HoldsBytes lib dag δ)
    (hretags : dag.Retags dag') : HoldsBytes lib dag' δ := by
  obtain ⟨r, hr, hid, hbytes⟩ := hdag
  obtain ⟨r', hr', hext⟩ := hretags.forth r hr
  exact ⟨r', hr', hext.id.trans hid, hext.deltaBytes.trans hbytes⟩

/-- The tag of a write names the active incident of its row, also while its schema is quarantined:
a quarantine alone has no incident to name. -/
theorem humanReactionIncident_eq (hcce : env.poisoned .cce = false) :
    h.humanReactionIncident table key env = h.cce.activeIncidentForRow table key := by
  unfold humanReactionIncident
  rw [if_neg (by rw [hcce]; exact Bool.false_ne_true)]
  split_ifs with hreacts
  · rfl
  · rw [Bool.or_eq_true, not_or] at hreacts
    exact (Option.not_isSome_iff_eq_none.mp hreacts.1).symm

theorem deltaId_of_commitWrite {δ : Delta} {compacted : Bool} {result : WriteResult}
    (hcommit : (h.commitWrite lib table δ compacted env).1 = .ok result) :
    result.deltaId = δ.id := by
  unfold commitWrite at hcommit
  dsimp only at hcommit
  split at hcommit
  · cases hcommit
  · unfold publishWrite at hcommit
    split_ifs at hcommit
    · cases hcommit
    · cases hcommit
      rfl

/-- A write that succeeds has signed a Delta with the tag that it decided on, and stored it. -/
theorem write_signs {result : WriteResult}
    (hwrite : (h.write lib table key data env).1 = .ok result) :
    ∃ δ, WrittenDeltas.writtenDelta lib h table key data env = some δ ∧ result.deltaId = δ.id ∧
      SignedWith lib.toIdentityLibraries h
        ((h.humanReactionIncident table key env).toList.map .contaminatedByHumanReaction) δ ∧
      (δ.id ∉ h.crdt.dag.ids → HoldsBytes lib (h.write lib table key data env).2.crdt.dag δ) := by
  unfold WrittenDeltas.writtenDelta
  rcases WrittenDeltas.producing_cases lib h table key data env with
    ⟨hproducing, err, store, hfails⟩ | ⟨store, hproducing, hpublish⟩
  · rw [hfails] at hwrite
    cases hwrite
  · obtain ⟨e', hengine, hproduced⟩ :=
      produceWrite_logs lib { h with store := store } table key data env
    rw [hpublish] at hwrite ⊢
    rw [hproducing]
    dsimp only [Option.bind_some]
    generalize hout : ({ h with store := store } : CoreHandle).produceWrite lib table key data env =
      out at hengine hproduced ⊢
    obtain ⟨out, h'⟩ := out
    dsimp only at hengine hproduced
    rcases hproduced with ⟨err, rfl, -⟩ | ⟨δ, compacted, dag₁, node, rfl, hlogs, hnode, hdag, hsigned⟩
    · rw [publishRow_of_error hout] at hwrite
      cases hwrite
    · rw [publishRow_of_ok hout] at hwrite ⊢
      refine ⟨δ, rfl, deltaId_of_commitWrite hwrite,
        ⟨hsigned.tags, hsigned.id, hsigned.signature⟩, fun hnew => ?_⟩
      rw [(WrittenDeltas.crdt_commitWrite _ table δ compacted env).1]
      have hstored : HoldsBytes lib h'.crdt.dag δ := by
        rw [hengine, hdag]
        refine holdsBytes_insert hnode ?_
        rw [ChangesetDag.ids_of_graph hlogs.graph]
        exact hnew
      unfold tagReaction
      split
      · exact hstored
      · exact hstored.retags (retags_tagRoot _ _ _ _)

/-- A device that merges a Delta keeps its signed bytes with the node, which has an empty log. -/
theorem merged_holdsBytes {e : CrdtEngine} {δ : Delta} {now : ℤ} {fault : DagFault}
    (hmerged : ∃ n, (e.apply lib.toEngineLibraries .native δ now fault).1 = .ok (.merged n))
    (hnew : δ.id ∉ e.dag.ids) :
    HoldsBytes lib (e.apply lib.toEngineLibraries .native δ now fault).2.dag δ ∧
      tagsOf (e.apply lib.toEngineLibraries .native δ now fault).2.dag δ.id = some [] := by
  have hadmitted : admitted lib.toEngineLibraries .native e (.apply δ now fault) = some δ := by
    obtain ⟨n, hn⟩ := hmerged
    simp only [admitted, hn]
  obtain ⟨node, hnode, hdag⟩ := dag_step_of_admitted hadmitted
  change (e.apply lib.toEngineLibraries .native δ now fault).2.dag = e.dag.insert node at hdag
  rw [hdag]
  refine ⟨holdsBytes_insert hnode hnew, ?_⟩
  rw [tagsOf_insert, if_pos]
  rw [hnode.id]
  exact ⟨hnew, rfl⟩

end Write

/-- What is asked of a write on a tainted row: the tag is signed, the Delta joins the incident or
a composite of it, and the log of its node holds the tag. -/
structure Contained (lib : CoreLibraries) (h after : CoreHandle) (δ : Delta)
    (incidentId : IncidentId) : Prop where
  signed : .contaminatedByHumanReaction incidentId ∈ δ.tags
  joined : ∃ k v, view after.cce k = some v ∧ δ.id ∈ v.deltas ∧
    (k = .inl incidentId ∨ ∃ id, k = .inr id ∧ ∃ ids, absorbed after.cce id = some ids ∧
      incidentId ∈ ids)
  logged : ∃ l, tagsOf after.crdt.dag δ.id = some l ∧
    .contaminatedByHumanReaction incidentId ∈ l

/-- A write that succeeds on a contaminated row, or under a quarantined schema, is contained. -/
def ReactionContained (lib : CoreLibraries) (h : CoreHandle) (table key : String)
    (data : JsonValue) (env : WriteEnvironment) : Prop :=
  ∀ result, (h.write lib table key data env).1 = .ok result →
    h.cce.isRowContaminated table key = true ∨ h.migration.isSchemaQuarantined = true →
    ∃ δ incidentId, WrittenDeltas.writtenDelta lib h table key data env = some δ ∧
      Contained lib h (h.write lib table key data env).2 δ incidentId

def writeThenTag : List TaintOperation :=
  [.device (.write "items" "a" (.string "1") (calmWrite 1)),
    .tagRoot (calmTaint 11 12) 257 (.deviceRevocation 257)]

/-- The next write on the row succeeds, and the log of its Delta's node stays without the tag. -/
theorem reaction_not_contained :
    let h := run sampleTaintStep (sampleHandle ⟨.empty, .empty, [], []⟩) writeThenTag
    h.cce.isRowContaminated "items" "a" = true ∧
      ¬ReactionContained (sampleCoreLibraries []) h "items" "a" (.string "2") (calmWrite 2) := by
  intro h
  have hrow : h.cce.isRowContaminated "items" "a" = true := by decide +kernel
  have hwritten : (h.write (sampleCoreLibraries []) "items" "a" (.string "2") (calmWrite 2)).1 =
      .ok ⟨514, .uncommitted, none⟩ := by decide +kernel
  refine ⟨hrow, fun hcontained => ?_⟩
  obtain ⟨δ, incidentId, -, hreaction⟩ := hcontained _ hwritten (.inl hrow)
  have hempty : Unlogged (sampleHandle ⟨.empty, .empty, [], []⟩).crdt.dag :=
    fun id l hl => by cases hl
  have hkeyed : Keyed (sampleHandle ⟨.empty, .empty, [], []⟩).cce := keyed_new
  have hafter : Unlogged (h.write (sampleCoreLibraries []) "items" "a" (.string "2")
      (calmWrite 2)).2.crdt.dag :=
    unlogged_run (sampleCoreLibraries []) Capability.sampleBiscuits sampleConfig hkeyed hempty
      (writeThenTag ++ [(.device (.write "items" "a" (.string "2") (calmWrite 2)) : TaintOperation)])
  obtain ⟨l, hl, hin⟩ := hreaction.logged
  exact hafter _ l hl _ hin

section Signed
variable (lib : CoreLibraries) (biscuit : Capability.BiscuitLibrary) (config : DeploymentConfig)

/-- On every device in every run: the logs of the DAG hold no tag of a human reaction, and a write
signs the tag of its row's active incident into its Delta, and no other tag. The row has one exactly
while it is contaminated. The bytes stay with the node here and wherever the Delta is merged. -/
theorem reaction_tag_signed {identity : Identity} {storage : Storage} {started : Bool}
    {start : CoreHandle} (hinit : init lib config identity storage started = .ok start)
    (hstorage : Unlogged storage.dag) (ops : List TaintOperation) :
    let h := run (taintStep lib biscuit config) start ops
    Unlogged h.crdt.dag ∧
      ∀ table key data env result, (h.write lib table key data env).1 = .ok result →
        env.poisoned .cce = false →
        ∃ δ, result.deltaId = δ.id ∧
          (h.cce.isRowContaminated table key = true ↔
            ∃ incidentId, h.cce.activeIncidentForRow table key = some incidentId) ∧
          SignedWith lib.toIdentityLibraries h
            ((h.cce.activeIncidentForRow table key).toList.map .contaminatedByHumanReaction) δ ∧
          (δ.id ∉ h.crdt.dag.ids → HoldsBytes lib (h.write lib table key data env).2.crdt.dag δ) ∧
          ∀ (peer : CrdtEngine) now fault, δ.id ∉ peer.dag.ids →
            (∃ n, (peer.apply lib.toEngineLibraries .native δ now fault).1 = .ok (.merged n)) →
            HoldsBytes lib (peer.apply lib.toEngineLibraries .native δ now fault).2.dag δ ∧
              tagsOf (peer.apply lib.toEngineLibraries .native δ now fault).2.dag δ.id =
                some [] := by
  intro h
  have hstarted := started_of_init hinit
  have hkeyed : Keyed start.cce := by
    rw [hstarted.contamination]
    exact keyed_new
  have hunlogged : Unlogged start.crdt.dag := by
    rw [hstarted.engine.dag]
    exact hstorage
  refine ⟨unlogged_run lib biscuit config hkeyed hunlogged ops,
    fun table key data env result hwrite hcce => ?_⟩
  obtain ⟨δ, -, hid, hsigned, hheld⟩ := write_signs hwrite
  rw [humanReactionIncident_eq hcce] at hsigned
  exact ⟨δ, hid, Option.isSome_iff_exists, hsigned, hheld,
    fun peer now fault hnew hmerged => merged_holdsBytes hmerged hnew⟩

end Signed

theorem reaction_tag_signed_sample :
    let h := run sampleTaintStep (sampleHandle ⟨.empty, .empty, [], []⟩) writeThenTag
    h.cce.activeIncidentForRow "items" "a" = some 11 ∧
      ∃ δ, δ.id = 514 ∧ SignedWith (sampleCoreLibraries []).toIdentityLibraries h
        [.contaminatedByHumanReaction 11] δ := by
  intro h
  have hlogs : Unlogged ChangesetDag.empty := fun id l hl => by cases hl
  have hwritten : (h.write (sampleCoreLibraries []) "items" "a" (.string "2") (calmWrite 2)).1 =
      .ok ⟨514, .uncommitted, none⟩ := by decide +kernel
  have hactive : h.cce.activeIncidentForRow "items" "a" = some 11 := by decide +kernel
  obtain ⟨δ, hid, -, hsigned, -⟩ :=
    (reaction_tag_signed (sampleCoreLibraries []) Capability.sampleBiscuits sampleConfig
      DecisionRestart.init_sample hlogs writeThenTag).2 "items" "a" (.string "2") (calmWrite 2)
      _ hwritten rfl
  change SignedWith _ h ((h.cce.activeIncidentForRow "items" "a").toList.map _) δ at hsigned
  rw [hactive] at hsigned
  exact ⟨hactive, δ, hid.symm, hsigned⟩

end TirBase.ReactionTags
