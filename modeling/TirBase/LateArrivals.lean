import TirBase.DecisionRestart
import TirBase.DeviceLogs

/-! # Deltas that arrive after their root was tagged

A Delta is stored without asking whether it descends from a contamination root. It is tagged when
the root is tagged again, or when another root of its composite is certified: both walk the DAG as
it is then. -/
namespace TirBase.LateArrivals
open CoreHandle CrdtEngine DeviceLogs DeviceRuns EngineRuns IncidentRuns TagLogs TransitionRuns

/-- The logs of a device after a root was tagged: untouched, or one tag for each descendant. -/
theorem dag_tagRoot (h : CoreHandle) (env : TaintEnvironment) (root : DeltaId)
    (source : TaintSource) : (h.tagRoot env root source).crdt.dag =
      if env.walkFault = none then storeEach .clean h.crdt.dag
        (fun id => decide (id ∈ h.crdt.dag.bfsDescendants root ∧ env.tagFault id = false))
        (.contaminated root env.icoId)
      else h.crdt.dag := by
  rw [← dag_tagContaminationRoot .clean h.cce h.crdt.dag env root source h.store]
  rfl

section Storing
variable {lib : CoreLibraries} {h : CoreHandle}

end Storing

/-- What is asked of a descendant of a root: its log holds the tag of the root, and it belongs to
an open incident, or composite, of the root. -/
structure Tainted (h : CoreHandle) (root id : DeltaId) : Prop where
  tagged : ∃ l, tagsOf h.crdt.dag id = some l ∧ ∃ incidentId, .contaminated root incidentId ∈ l
  joined : ∃ k v, view h.cce k = some v ∧ v.state = .open_ ∧ root ∈ v.roots ∧ id ∈ v.deltas

section Certifying
variable {env : ResolutionEnvironment}

variable (env) in
theorem appends_lateArrivals (resolved : Bool) (id : IncidentId) (roots : List DeltaId)
    (known : Finset DeltaId) (dag : ChangesetDag) : Grows (fun _ _ => True) dag
      (Resolution.lateArrivals .clean env resolved id roots known dag).2.2 := by
  induction roots generalizing known dag with
  | nil => exact .refl _ dag
  | cons root roots ih =>
    by_cases hturn : dag.hasResolvedTag root = resolved
    · cases hwalk : env.walkFault root with
      | some e =>
        simp only [Resolution.lateArrivals, readsResolved_clean, if_pos hturn, hwalk]
        exact .refl _ dag
      | none =>
        simp only [Resolution.lateArrivals, readsResolved_clean, tagEach_clean, if_pos hturn, hwalk]
        refine .trans ?_ (ih _ _)
        rw [← tagEach_clean]
        exact grows_storeEach (fun _ _ => rfl) fun _ _ => trivial
    · simp only [Resolution.lateArrivals, readsResolved_clean, if_neg hturn]
      exact ih known dag

end Certifying

section Runs
variable (lib : CoreLibraries) (biscuit : Capability.BiscuitLibrary) (config : DeploymentConfig)

end Runs

def writeA : TaintOperation := .device (.write "items" "a" (.string "1") (calmWrite 1))

def writeB : TaintOperation := .device (.write "items" "b" (.string "2") (calmWrite 2))

end TirBase.LateArrivals
