import TirBase.MeshTransport
import TirBase.SaturateMode

/-! # The transport and its Saturate Mode machine

The scheduler mirrors the state of the machine: every lease event that succeeds and every epoch set its
mode anew. -/
namespace TirBase

structure SaturatingTransport extends MeshTransport where
  saturate : SaturateModeStateMachine
  deriving DecidableEq

namespace SaturatingTransport

/-- The scheduler mirrors the state of the machine. -/
def reconcileSchedulerSaturateMode (t : SaturatingTransport) : SaturatingTransport :=
  { t with scheduler := t.scheduler.setSaturateMode (decide (t.saturate.state = .saturate)) }

/-- The scheduler is reconciled whether or not a lease ran out. -/
def tickSaturate (t : SaturatingTransport) (nowSecs : ℤ) : SaturatingTransport :=
  { t with saturate := t.saturate.tick nowSecs }.reconcileSchedulerSaturateMode

/-- A lease event: the scheduler is reconciled when it succeeds. -/
def onLeaseEvent (t : SaturatingTransport)
    (out : Except TirBaseError Unit × SaturateModeStateMachine) :
    Except TirBaseError Unit × SaturatingTransport :=
  let t := { t with saturate := out.2 }
  match out.1 with
  | .ok () => (.ok (), t.reconcileSchedulerSaturateMode)
  | .error e => (.error e, t)

section Transport
variable (saturateLib : SaturateLibraries) (wire : WireLibraries)

def activateSaturateMode (t : SaturatingTransport) (managerDid : Did) (biscuitToken : Bytes)
    (nowSecs : ℤ) : Except TirBaseError Unit × SaturatingTransport :=
  t.onLeaseEvent (t.saturate.activate saturateLib managerDid biscuitToken nowSecs)

def renewSaturateMode (t : SaturatingTransport) (biscuitToken : Bytes) (nowSecs : ℤ) :
    Except TirBaseError Unit × SaturatingTransport :=
  t.onLeaseEvent (t.saturate.renew saturateLib biscuitToken nowSecs)

def terminateSaturateMode (t : SaturatingTransport) (signatures : List (Did × Bytes))
    (message : Bytes) : Except TirBaseError Unit × SaturatingTransport :=
  t.onLeaseEvent (t.saturate.terminate saturateLib signatures message)

def tickScheduler (t : SaturatingTransport) (linkCapacityBytes : ℕ) :
    Except TirBaseError ℕ × SaturatingTransport :=
  let out := t.toMeshTransport.tickScheduler wire linkCapacityBytes
  (out.1, { t with toMeshTransport := out.2 })

end Transport

theorem backlog_tickSaturate (t : SaturatingTransport) (nowSecs : ℤ) :
    (t.tickSaturate nowSecs).scheduler.backlog = t.scheduler.backlog := by
  change (t.scheduler.setSaturateMode _).backlog = _
  unfold DrrScheduler.setSaturateMode
  split <;> rfl

end SaturatingTransport

end TirBase
