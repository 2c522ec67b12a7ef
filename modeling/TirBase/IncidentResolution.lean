import TirBase.ContaminationEngine

/-! # Resolving incidents

A manager certifies a contamination root, or closes an incident without certifying anything. Once
every root of an incident is certified its Deltas are decontaminated; a composite that lost a root
falls apart into one incident for each root that is left. -/
namespace TirBase

def hyphenated (id : Uuid) : String :=
  let digits := id.toHex.toList
  let part := fun start count => String.ofList ((digits.drop start).take count)
  "-".intercalate [part 0 8, part 8 4, part 12 4, part 16 4, part 20 12]

/-- `{:?}` of an incident state. -/
def IncidentState.debug : IncidentState → String
  | .open_ => "Open"
  | .closed => "Closed"
  | .supersededBy id => let shown := hyphenated id; s!"SupersededBy({shown})"
  | .decomposed => "Decomposed"

/-- A product of 64-bit words. -/
def wrapI64 (n : ℤ) : ℤ := n.bmod (2 ^ 64)

/-- The last check of a manager: the expiry of the token, and a signature over the payload. -/
def verifyManagerAuth (lib : IdentityLibraries) (managerDid : Did) (sig payload : Bytes)
    (tokenExpiry nowSecs : ℤ) : Except TirBaseError Unit :=
  let nowMicros := wrapI64 (nowSecs * 1000000)
  if tokenExpiry ≤ nowMicros then
    .error (.authorisationFailed
      s!"manager token expired (expiry={tokenExpiry}, now_micros={nowMicros})")
  else
    match lib.resolveDid managerDid with
    | .error e =>
      let shown := e.message
      .error (.authorisationFailed s!"DID resolution failed for {managerDid}: {shown}")
    | .ok publicKey =>
      match lib.verify publicKey payload sig with
      | .error e =>
        let shown := e.message
        .error (.authorisationFailed s!"manager signature invalid: {shown}")
      | .ok () => .ok ()

/-- Take the items in turn until one fails; what happened before stays. -/
def foldUntilError {S A : Type} (f : S → A → Except TirBaseError Unit × S) :
    S → List A → Except TirBaseError Unit × S
  | s, [] => (.ok (), s)
  | s, a :: rest =>
    match f s a with
    | (.error e, s) => (.error e, s)
    | (.ok (), s) => foldUntilError f s rest

/-- The times, the identifiers drawn for a composite and a root, and the errors that the
statements meet. -/
structure ResolutionEnvironment where
  now : ℤ
  lateNow : ℤ
  newId : IncidentId → DeltaId → IncidentId
  rootFault : Option TirBaseError
  tagFault : DeltaId → Bool
  walkFault : DeltaId → Option TirBaseError
  descendantsFault : DeltaId → Bool
  rowsFault : DeltaId → Option TirBaseError

structure Resolution where
  cce : ContaminationEngine
  dag : ChangesetDag
  store : LocalStore
  newIcos : List (IncidentId × List AffectedRow)
  deriving DecidableEq

namespace Resolution
open TagLogs

variable (log : LogEnvironment) (env : ResolutionEnvironment)

/-- An incident of the certified root notes it, and is decontaminated with its last root. -/
def certify (rootDeltaId : DeltaId) (managerDid : Did) (s : Resolution) (icoId : IncidentId) :
    Resolution :=
  match s.cce.incidents.lookup icoId with
  | none => s
  | some ico =>
    let ico := { ico with
      auditLog := ico.auditLog ++ [⟨.verifyData, managerDid, env.now, [rootDeltaId]⟩]
      updatedAt := env.now }
    let s := { s with cce := { s.cce with incidents := s.cce.incidents.insert icoId ico } }
    if ico.contaminationRoots.all (readsResolved log s.dag) then
      { s with
        dag := tagEach log s.dag ico.contaminatedDeltas env.tagFault
          (.decontaminated ico.id env.now)
        store := ico.affectedRows.foldl
          (fun store row => store.clearRowContamination row.table row.rowKey) s.store }
    else s

/-- `walk_late_arrival_descendants` for the roots of an incident that are resolved, or for those
that are not: the Deltas that its snapshot lacks are tagged and join it. -/
def lateArrivals (resolved : Bool) (incidentId : IncidentId) :
    List DeltaId → Finset DeltaId → ChangesetDag →
      Except TirBaseError Unit × Finset DeltaId × ChangesetDag
  | [], known, dag => (.ok (), known, dag)
  | rootId :: roots, known, dag =>
    if readsResolved log dag rootId = resolved then
      match env.walkFault rootId with
      | some e => (.error e, known, dag)
      | none =>
        let late := ((dag.bfsDescendants rootId).filter fun id => id ∉ known).toFinset
        let tag := if resolved then .decontaminated incidentId env.lateNow
          else .contaminated rootId incidentId
        lateArrivals resolved incidentId roots (known ∪ late)
          (tagEach log dag late env.tagFault tag)
    else lateArrivals resolved incidentId roots known dag

def walkIncident (s : Resolution) (icoId : IncidentId) : Except TirBaseError Unit × Resolution :=
  match s.cce.incidents.lookup icoId with
  | none => (.ok (), s)
  | some ico =>
    let out := lateArrivals log env (ico.contaminationRoots.all (readsResolved log s.dag)) icoId
      ico.contaminationRoots ico.contaminatedDeltas s.dag
    (out.1, { s with
      dag := out.2.2
      cce := { s.cce with
        incidents := s.cce.incidents.insert icoId { ico with contaminatedDeltas := out.2.1 } } })

def walkComposite (s : Resolution) (compId : IncidentId) :
    Except TirBaseError Unit × Resolution :=
  match s.cce.compositeIncidents.lookup compId with
  | none => (.ok (), s)
  | some comp =>
    let out := lateArrivals log env (comp.contaminationRoots.all (readsResolved log s.dag)) compId
      comp.contaminationRoots comp.contaminatedDeltas s.dag
    (out.1, { s with
      dag := out.2.2
      cce := { s.cce with
        compositeIncidents :=
          s.cce.compositeIncidents.insert compId { comp with contaminatedDeltas := out.2.1 } } })

/-- A root that is not resolved gets an incident of its own; a failing walk finds the root. -/
def reopen (compositeId : IncidentId) (s : Resolution) (rootId : DeltaId) :
    Except TirBaseError Unit × Resolution :=
  let descendants := if env.descendantsFault rootId then [rootId] else s.dag.bfsDescendants rootId
  match env.rowsFault rootId with
  | some e => (.error e, s)
  | none =>
    let rows : List AffectedRow := s.store.projectedKeys.map fun row => ⟨row.1, row.2, rootId⟩
    let newId := env.newId compositeId rootId
    let ico : IncidentContextObject := ⟨newId, .open_, .deviceRevocation rootId, [rootId],
      descendants.toFinset, rows, none, env.now, env.now, []⟩
    (.ok (), { s with
      store := rows.foldl
        (fun store (row : AffectedRow) => store.markRowContaminated row.table row.rowKey) s.store
      cce := { s.cce with incidents := s.cce.incidents.insert newId ico }
      newIcos := s.newIcos ++ [(newId, rows)] })

def decompose (s : Resolution) (compositeId : IncidentId) :
    Except TirBaseError Unit × Resolution :=
  match s.cce.compositeIncidents.lookup compositeId with
  | none => (.ok (), s)
  | some composite =>
    let unresolved := composite.contaminationRoots.filter fun r => !readsResolved log s.dag r
    let s := { s with cce := { s.cce with
      compositeIncidents :=
        s.cce.compositeIncidents.insert compositeId { composite with state := .decomposed } } }
    foldUntilError (reopen env compositeId) s unresolved

end Resolution

namespace ContaminationEngine
open TagLogs

def incidentsOf (cce : ContaminationEngine) (rootDeltaId : DeltaId) : List IncidentId :=
  ((cce.incidents.entries.map Sigma.snd).filter fun ico =>
    rootDeltaId ∈ ico.contaminationRoots).map IncidentContextObject.id

/-- The composites of a root, of any state or open. -/
def compositesOf (cce : ContaminationEngine) (rootDeltaId : DeltaId) (openOnly : Bool) :
    List IncidentId :=
  ((cce.compositeIncidents.entries.map Sigma.snd).filter fun comp =>
    rootDeltaId ∈ comp.contaminationRoots ∧ (openOnly = true → comp.state = .open_)).map
      CompositeIncidentInstance.id

/-- An indexed row stays while its incident is open with a root that is not resolved. -/
def keepsRow (log : LogEnvironment) (cce : ContaminationEngine) (dag : ChangesetDag)
    (incidentId : IncidentId) : Bool :=
  match cce.incidents.lookup incidentId with
  | some ico => decide (ico.state = .open_) &&
      ico.contaminationRoots.any fun rootId => !readsResolved log dag rootId
  | none =>
    match cce.compositeIncidents.lookup incidentId with
    | some comp => decide (comp.state = .open_) &&
        comp.contaminationRoots.any fun rootId => !readsResolved log dag rootId
    | none => false

def pruneRows (log : LogEnvironment) (cce : ContaminationEngine) (dag : ChangesetDag) :
    ContaminationEngine :=
  let stale := cce.contaminatedRows.entries.filter fun e => !cce.keepsRow log dag e.2
  { cce with
    contaminatedRows := stale.foldl (fun index e => index.erase e.1) cce.contaminatedRows }

/-- `verify_data` behind the check of the manager. -/
def resolveRoot (log : LogEnvironment) (env : ResolutionEnvironment) (rootDeltaId : DeltaId)
    (managerDid : Did) (s : Resolution) : Except TirBaseError Unit × Resolution :=
  match env.rootFault with
  | some e => (.error e, s)
  | none =>
    let s := { s with dag := appendTag log s.dag rootDeltaId (.resolved managerDid env.now) }
    let icoIds := s.cce.incidentsOf rootDeltaId
    let s := icoIds.foldl (Resolution.certify log env rootDeltaId managerDid) s
    let compositeIds := s.cce.compositesOf rootDeltaId true
    match foldUntilError (Resolution.walkIncident log env) s icoIds with
    | (.error e, s) => (.error e, s)
    | (.ok (), s) =>
      match foldUntilError (Resolution.walkComposite log env) s compositeIds with
      | (.error e, s) => (.error e, s)
      | (.ok (), s) =>
        foldUntilError (Resolution.decompose log env) s (s.cce.compositesOf rootDeltaId false)

/-- `verify_data`: the rows of the incidents that were opened are indexed, the others pruned. -/
def verifyData (log : LogEnvironment) (lib : IdentityLibraries) (env : ResolutionEnvironment)
    (rootDeltaId : DeltaId) (managerDid : Did) (managerSig : Bytes)
    (managerTokenExpiry nowSecs : ℤ) (cce : ContaminationEngine) (dag : ChangesetDag)
    (store : LocalStore) :
    Except TirBaseError Unit × ContaminationEngine × ChangesetDag × LocalStore :=
  match verifyManagerAuth lib managerDid managerSig (digestBytes rootDeltaId) managerTokenExpiry
    nowSecs with
  | .error e => (.error e, cce, dag, store)
  | .ok () =>
    match resolveRoot log env rootDeltaId managerDid ⟨cce, dag, store, []⟩ with
    | (.error e, s) => (.error e, s.cce, s.dag, s.store)
    | (.ok (), s) =>
      let indexed := s.newIcos.foldl (fun cce new => cce.indexRows new.2 new.1) s.cce
      (.ok (), indexed.pruneRows log s.dag, s.dag, s.store)

/-- `admin_close`. -/
def adminClose (lib : IdentityLibraries) (now : ℤ) (incidentId : IncidentId) (managerDid : Did)
    (managerSig : Bytes) (managerTokenExpiry nowSecs : ℤ) (cce : ContaminationEngine) :
    Except TirBaseError Unit × ContaminationEngine :=
  match verifyManagerAuth lib managerDid managerSig (uuidBytes incidentId) managerTokenExpiry
    nowSecs with
  | .error e => (.error e, cce)
  | .ok () =>
    match cce.incidents.lookup incidentId with
    | none =>
      let shown := hyphenated incidentId
      (.error (.localStoreWriteFailed s!"incident {shown} not found"), cce)
    | some ico =>
      if ico.state ≠ .open_ then (.error (.invalidIncidentState ico.state.debug), cce)
      else
        (.ok (), { cce with incidents := cce.incidents.insert incidentId { ico with
          state := .closed
          updatedAt := now
          auditLog := ico.auditLog ++ [⟨.adminClose, managerDid, now, []⟩] } })

end ContaminationEngine

end TirBase
