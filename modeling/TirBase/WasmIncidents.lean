import Mathlib
import TirBase.IncidentResolution
import TirBase.WasmCoreHandle

/-! # Resolving incidents in the WASM build

Tags are kept in memory, also for Deltas that are not stored. A certificate decomposes nothing, and
the index of the rows asks whether an incident is open, not whether it is resolved. -/
namespace TirBase

namespace ContaminationEngine

/-- An indexed row stays while an incident or a composite is open under its identifier. -/
def keepsOpenRow (cce : ContaminationEngine) (incidentId : IncidentId) : Bool :=
  ((cce.incidents.lookup incidentId).map fun ico => decide (ico.state = .open_)).getD false ||
    ((cce.compositeIncidents.lookup incidentId).map fun comp =>
      decide (comp.state = .open_)).getD false

def pruneClosedRows (cce : ContaminationEngine) : ContaminationEngine :=
  let stale := cce.contaminatedRows.entries.filter fun e => !cce.keepsOpenRow e.2
  { cce with
    contaminatedRows := stale.foldl (fun index e => index.erase e.1) cce.contaminatedRows }

end ContaminationEngine

namespace WasmCoreHandle

/-- `read_tags_from_mem`. -/
def readTags (h : WasmCoreHandle) (deltaId : DeltaId) : List DeltaTag :=
  (h.tagStore.filter fun e => e.1 = deltaId).map Prod.snd

def hasResolvedTag (h : WasmCoreHandle) (deltaId : DeltaId) : Bool :=
  (h.readTags deltaId).any DeltaTag.isResolved

/-- An incident of the certified root notes it, and is decontaminated with its last root. -/
def certify (now : ℤ) (rootDeltaId : DeltaId) (managerDid : Did) (h : WasmCoreHandle)
    (icoId : IncidentId) : WasmCoreHandle :=
  match h.cce.incidents.lookup icoId with
  | none => h
  | some ico =>
    let ico := { ico with
      auditLog := ico.auditLog ++ [⟨.verifyData, managerDid, now, [rootDeltaId]⟩]
      updatedAt := now }
    let h := { h with cce := { h.cce with incidents := h.cce.incidents.insert icoId ico } }
    if ico.contaminationRoots.all h.hasResolvedTag then
      -- the order of a hash set does not show: each Delta has a log of its own
      { h with tagStore := h.tagStore ++
          ico.contaminatedDeltas.sort.map fun id => (id, .decontaminated icoId now) }
    else h

/-- `verify_data` of the WASM build. -/
def verifyData (lib : IdentityLibraries) (now : ℤ) (rootDeltaId : DeltaId) (managerDid : Did)
    (managerSig : Bytes) (managerTokenExpiry nowSecs : ℤ) (h : WasmCoreHandle) :
    Except TirBaseError Unit × WasmCoreHandle :=
  match verifyManagerAuth lib managerDid managerSig (digestBytes rootDeltaId) managerTokenExpiry
    nowSecs with
  | .error e => (.error e, h)
  | .ok () =>
    let h := { h with tagStore := h.tagStore ++ [(rootDeltaId, DeltaTag.resolved managerDid now)] }
    let h := (h.cce.incidentsOf rootDeltaId).foldl (certify now rootDeltaId managerDid) h
    (.ok (), { h with cce := h.cce.pruneClosedRows })

/-- `admin_close` is the native one. -/
def adminClose (lib : IdentityLibraries) (now : ℤ) (incidentId : IncidentId) (managerDid : Did)
    (managerSig : Bytes) (managerTokenExpiry nowSecs : ℤ) (h : WasmCoreHandle) :
    Except TirBaseError Unit × WasmCoreHandle :=
  let out := ContaminationEngine.adminClose lib now incidentId managerDid managerSig
    managerTokenExpiry nowSecs h.cce
  (out.1, { h with cce := out.2 })

end WasmCoreHandle

end TirBase
