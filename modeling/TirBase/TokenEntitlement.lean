import TirBase.CoreHandle
import TirBase.IncidentResolution

/-! # What a capability token entitles to

A token names a device and a role. The operations that take a token verify it and read its expiry;
none compares the two names with the device that presents it. -/
namespace TirBase

namespace CoreHandle

/-- A token of a manager is verified under the first root CA key. -/
def managerClaims (biscuit : Capability.BiscuitLibrary) (h : CoreHandle) (managerToken : Bytes)
    (nowSecs : ℤ) : Except TirBaseError Capability.BiscuitClaims :=
  if managerToken = [] then
    .error (.authorisationFailed "manager_token must not be blank")
  else
    match h.capability.rootCaKeys.head? with
    | none => .error (.authorisationFailed
        "no root CA public key registered; cannot verify manager token")
    | some key =>
      match biscuit.verifyToken managerToken key nowSecs with
      | .error e =>
        let shown := e.message
        .error (.authorisationFailed s!"manager token verification failed: {shown}")
      | .ok claims => .ok claims

def verifyContamination (lib : CoreLibraries) (biscuit : Capability.BiscuitLibrary)
    (h : CoreHandle) (rootDeltaId : DeltaId) (managerToken : Bytes) (nowSecs : ℤ)
    (env : ResolutionEnvironment) : Except TirBaseError Unit × CoreHandle :=
  match h.managerClaims biscuit managerToken nowSecs with
  | .error e => (.error e, h)
  | .ok claims =>
    let managerSig := lib.sign h.identity.secretKey (digestBytes rootDeltaId)
    let out := ContaminationEngine.verifyData .clean lib.toIdentityLibraries env rootDeltaId
      h.identity.did managerSig (wrapI64 (claims.expiresAt * 1000000)) nowSecs h.cce h.crdt.dag
      h.store
    (out.1, { h with
      cce := out.2.1
      crdt := { h.crdt with dag := out.2.2.1 }
      store := out.2.2.2 })

def adminCloseIco (lib : CoreLibraries) (biscuit : Capability.BiscuitLibrary) (h : CoreHandle)
    (icoId : IncidentId) (managerToken : Bytes) (nowSecs : ℤ) (env : ResolutionEnvironment) :
    Except TirBaseError Unit × CoreHandle :=
  match h.managerClaims biscuit managerToken nowSecs with
  | .error e => (.error e, h)
  | .ok claims =>
    let managerSig := lib.sign h.identity.secretKey (uuidBytes icoId)
    let out := ContaminationEngine.adminClose lib.toIdentityLibraries env.now icoId
      h.identity.did managerSig (wrapI64 (claims.expiresAt * 1000000)) nowSecs h.cce
    (out.1, { h with cce := out.2 })

end CoreHandle

namespace TokenEntitlement
open CoreHandle Capability
open TagLogs (appendTag_clean)

inductive TokenOperation
  | verifyContamination (rootDeltaId : DeltaId) (managerToken : Bytes) (nowSecs : ℤ)
  | adminCloseIco (icoId : IncidentId) (managerToken : Bytes) (nowSecs : ℤ)
  | presentToken (tokenBytes : Bytes) (nowSecs : ℤ)
  | verifyToken (tokenBytes : Bytes) (nowSecs : ℤ)

def TokenOperation.resolves : TokenOperation → Prop
  | .verifyContamination .. => True
  | .adminCloseIco .. => True
  | _ => False

variable (lib : CoreLibraries) (biscuit : BiscuitLibrary) (isManager : String → Prop)

def tokenStep (h : CoreHandle) (op : TokenOperation) (env : ResolutionEnvironment) : CoreHandle :=
  match op with
  | .verifyContamination rootDeltaId managerToken nowSecs =>
    (h.verifyContamination lib biscuit rootDeltaId managerToken nowSecs env).2
  | .adminCloseIco icoId managerToken nowSecs =>
    (h.adminCloseIco lib biscuit icoId managerToken nowSecs env).2
  | .presentToken tokenBytes nowSecs =>
    { h with capability := (h.capability.presentToken biscuit tokenBytes nowSecs env.now).2 }
  | .verifyToken tokenBytes nowSecs =>
    { h with capability := (h.capability.verifyToken biscuit tokenBytes nowSecs).2 }

/-- The contamination state changes, or the device is raised to Verified. -/
def TakesEffect (h h' : CoreHandle) (op : TokenOperation) : Prop :=
  match op with
  | .verifyContamination .. | .adminCloseIco .. =>
    h'.cce ≠ h.cce ∨ h'.crdt.dag ≠ h.crdt.dag ∨ h'.store ≠ h.store
  | .presentToken .. | .verifyToken .. =>
    h.capability.trustLevel ≠ .verified ∧ h'.capability.trustLevel = .verified

def firstAccepted (tokenBytes : Bytes) (nowSecs : ℤ) : List KeyBytes → Option BiscuitClaims
  | [] => none
  | key :: keys =>
    match biscuit.verifyToken tokenBytes key nowSecs with
    | .ok claims => some claims
    | .error _ => firstAccepted tokenBytes nowSecs keys

def acceptedClaims (h : CoreHandle) : TokenOperation → Option BiscuitClaims
  | .verifyContamination _ managerToken nowSecs =>
    (h.managerClaims biscuit managerToken nowSecs).toOption
  | .adminCloseIco _ managerToken nowSecs =>
    (h.managerClaims biscuit managerToken nowSecs).toOption
  | .presentToken tokenBytes nowSecs =>
    (CapabilityManager.firstVerdict biscuit tokenBytes nowSecs h.capability.rootCaKeys).join
  | .verifyToken tokenBytes nowSecs =>
    firstAccepted biscuit tokenBytes nowSecs h.capability.rootCaKeys

/-- The token was made for this device and, where an incident is resolved, for a manager. -/
def Entitles (h : CoreHandle) (op : TokenOperation) (claims : BiscuitClaims) : Prop :=
  claims.did = h.identity.did ∧ (op.resolves → isManager claims.role)

/-- The operation takes effect only with a token that entitles the device to it. -/
def OnlyEntitled (h : CoreHandle) (op : TokenOperation) : Prop :=
  ∀ env, TakesEffect h (tokenStep lib biscuit h op env) op →
    ∃ claims, acceptedClaims biscuit h op = some claims ∧ Entitles isManager h op claims

/-- The second check of an incident operation: expiry and the signature of this device. -/
def PassesManagerAuth (h : CoreHandle) (claims : BiscuitClaims) : TokenOperation → Prop
  | .verifyContamination rootDeltaId _ nowSecs =>
    verifyManagerAuth lib.toIdentityLibraries h.identity.did
      (lib.sign h.identity.secretKey (digestBytes rootDeltaId)) (digestBytes rootDeltaId)
      (wrapI64 (claims.expiresAt * 1000000)) nowSecs = .ok ()
  | .adminCloseIco icoId _ nowSecs =>
    verifyManagerAuth lib.toIdentityLibraries h.identity.did
      (lib.sign h.identity.secretKey (uuidBytes icoId)) (uuidBytes icoId)
      (wrapI64 (claims.expiresAt * 1000000)) nowSecs = .ok ()
  | _ => True

/-- The token is refused, or it names this device and, for an incident, a manager. -/
def RefusedOrEntitles (h : CoreHandle) (op : TokenOperation) : Prop :=
  ∀ claims, acceptedClaims biscuit h op = some claims → PassesManagerAuth lib h claims op →
    Entitles isManager h op claims

/-- One device in two states: the identity and the root CA keys are the same. -/
structure SameDevice (h h' : CoreHandle) : Prop where
  identity : h'.identity = h.identity
  rootCaKeys : h'.capability.rootCaKeys = h.capability.rootCaKeys

section Accepted
variable {lib biscuit isManager} {h : CoreHandle} {op : TokenOperation} {env : ResolutionEnvironment}

theorem tryKeys_eq (tokenBytes : Bytes) (nowSecs : ℤ) (m : CapabilityManager)
    (keys : List KeyBytes) (lastErr : Option TirBaseError) :
    (CapabilityManager.tryKeys biscuit tokenBytes nowSecs m keys lastErr).2 =
      match firstAccepted biscuit tokenBytes nowSecs keys with
      | some _ => { m with trustState := m.trustState.onValidToken }
      | none => m := by
  induction keys generalizing lastErr with
  | nil => rfl
  | cons key keys ih =>
    simp only [CapabilityManager.tryKeys, firstAccepted]
    cases biscuit.verifyToken tokenBytes key nowSecs with
    | ok claims => rfl
    | error e => exact ih (some e)

theorem verifyData_refused {identity : IdentityLibraries} {rootDeltaId : DeltaId}
    {managerDid : Did} {sig : Bytes} {expiry nowSecs : ℤ} {e : TirBaseError}
    (hauth : verifyManagerAuth identity managerDid sig (digestBytes rootDeltaId) expiry nowSecs =
      .error e) (cce : ContaminationEngine) (dag : ChangesetDag) (store : LocalStore) :
    ContaminationEngine.verifyData .clean identity env rootDeltaId managerDid sig expiry nowSecs cce dag
      store = (.error e, cce, dag, store) := by
  unfold ContaminationEngine.verifyData
  rw [hauth]

theorem accepted_of_takesEffect (heffect : TakesEffect h (tokenStep lib biscuit h op env) op) :
    ∃ claims, acceptedClaims biscuit h op = some claims ∧ PassesManagerAuth lib h claims op := by
  cases op with
  | verifyContamination rootDeltaId managerToken nowSecs =>
    simp only [TakesEffect, tokenStep, CoreHandle.verifyContamination] at heffect
    cases hclaims : h.managerClaims biscuit managerToken nowSecs with
    | error e =>
      rw [hclaims] at heffect
      simp at heffect
    | ok claims =>
      refine ⟨claims, by simp [acceptedClaims, hclaims, Except.toOption], ?_⟩
      rw [hclaims] at heffect
      simp only [PassesManagerAuth]
      cases hauth : verifyManagerAuth lib.toIdentityLibraries h.identity.did
          (lib.sign h.identity.secretKey (digestBytes rootDeltaId)) (digestBytes rootDeltaId)
          (wrapI64 (claims.expiresAt * 1000000)) nowSecs with
      | error e =>
        simp [verifyData_refused hauth] at heffect
      | ok _ => rfl
  | adminCloseIco icoId managerToken nowSecs =>
    simp only [TakesEffect, tokenStep, CoreHandle.adminCloseIco] at heffect
    cases hclaims : h.managerClaims biscuit managerToken nowSecs with
    | error e =>
      rw [hclaims] at heffect
      simp at heffect
    | ok claims =>
      refine ⟨claims, by simp [acceptedClaims, hclaims, Except.toOption], ?_⟩
      rw [hclaims] at heffect
      simp only [PassesManagerAuth]
      cases hauth : verifyManagerAuth lib.toIdentityLibraries h.identity.did
          (lib.sign h.identity.secretKey (uuidBytes icoId)) (uuidBytes icoId)
          (wrapI64 (claims.expiresAt * 1000000)) nowSecs with
      | error e =>
        simp [ContaminationEngine.adminClose, hauth] at heffect
      | ok _ => rfl
  | presentToken tokenBytes nowSecs =>
    obtain ⟨hbefore, hafter⟩ := heffect
    simp only [tokenStep, CapabilityManager.presentToken] at hafter
    by_cases hkeys : h.capability.rootCaKeys = []
    · rw [if_pos hkeys] at hafter
      exact absurd hafter hbefore
    · rw [if_neg hkeys] at hafter
      cases hverdict : CapabilityManager.firstVerdict biscuit tokenBytes nowSecs
          h.capability.rootCaKeys with
      | none =>
        rw [hverdict] at hafter
        exact absurd hafter hbefore
      | some verdict =>
        cases verdict with
        | some claims => exact ⟨claims, by simp [acceptedClaims, hverdict], trivial⟩
        | none =>
          rw [hverdict] at hafter
          have hlevel : h.capability.trustState.level ≠ .verified := hbefore
          simp only [CapabilityManager.onTokenExpired, TrustLevelStateMachine.onTokenExpired,
            CapabilityManager.trustLevel] at hafter
          split_ifs at hafter
          · exact absurd hafter hlevel
  | verifyToken tokenBytes nowSecs =>
    obtain ⟨hbefore, hafter⟩ := heffect
    simp only [tokenStep, CapabilityManager.verifyToken] at hafter
    split_ifs at hafter with hrevoked
    · exact absurd hafter hbefore
    · rw [tryKeys_eq] at hafter
      cases haccepted : firstAccepted biscuit tokenBytes nowSecs h.capability.rootCaKeys with
      | some claims => exact ⟨claims, haccepted, trivial⟩
      | none =>
        rw [haccepted] at hafter
        exact absurd hafter hbefore

theorem SameDevice.acceptedClaims {h' : CoreHandle} (hsame : SameDevice h h')
    (op : TokenOperation) : acceptedClaims biscuit h' op = acceptedClaims biscuit h op := by
  cases op <;> simp only [TokenEntitlement.acceptedClaims, managerClaims, hsame.rootCaKeys]

theorem SameDevice.passesManagerAuth {h' : CoreHandle} (hsame : SameDevice h h')
    (claims : BiscuitClaims) (op : TokenOperation) :
    PassesManagerAuth lib h' claims op ↔ PassesManagerAuth lib h claims op := by
  cases op <;> simp only [PassesManagerAuth, hsame.identity]

theorem SameDevice.entitles {h' : CoreHandle} (hsame : SameDevice h h') (op : TokenOperation)
    (claims : BiscuitClaims) : Entitles isManager h' op claims ↔ Entitles isManager h op claims := by
  simp only [Entitles, hsame.identity]

end Accepted

section Effective
variable {lib biscuit isManager} {h : CoreHandle} {claims : BiscuitClaims}

def calmResolution : ResolutionEnvironment :=
  ⟨9, 9, fun _ rootId => BitVec.ofNat 128 rootId.toNat, none, fun _ => false, fun _ => none,
    fun _ => false, fun _ => none⟩

def withDelta (h : CoreHandle) (deltaId : DeltaId) : CoreHandle :=
  { h with
    cce := .new
    crdt := { h.crdt with dag := ⟨[⟨deltaId, [], none, 0, 0, false, "", []⟩], []⟩ } }

def withIncident (h : CoreHandle) (icoId : IncidentId) : CoreHandle :=
  { h with cce := { ContaminationEngine.new with
      incidents := ContaminationEngine.new.incidents.insert icoId
        ⟨icoId, .open_, .deviceRevocation 0, [], ∅, [], none, 0, 0, []⟩ } }

def withoutToken (h : CoreHandle) : CoreHandle :=
  { h with capability := { h.capability with trustState := .new .unverified } }

theorem managerClaims_of_toOption {managerToken : Bytes} {nowSecs : ℤ}
    (hclaims : (h.managerClaims biscuit managerToken nowSecs).toOption = some claims) :
    h.managerClaims biscuit managerToken nowSecs = .ok claims := by
  cases hmanager : h.managerClaims biscuit managerToken nowSecs with
  | error e =>
    rw [hmanager] at hclaims
    cases hclaims
  | ok found =>
    rw [hmanager] at hclaims
    cases hclaims
    rfl

theorem takesEffect_verifyContamination {rootDeltaId : DeltaId} {managerToken : Bytes}
    {nowSecs : ℤ}
    (hclaims : acceptedClaims biscuit h (.verifyContamination rootDeltaId managerToken nowSecs) =
      some claims)
    (hauth : PassesManagerAuth lib h claims
      (.verifyContamination rootDeltaId managerToken nowSecs)) :
    TakesEffect (withDelta h rootDeltaId) (tokenStep lib biscuit (withDelta h rootDeltaId)
        (.verifyContamination rootDeltaId managerToken nowSecs) calmResolution)
      (.verifyContamination rootDeltaId managerToken nowSecs) := by
  have hok : (withDelta h rootDeltaId).managerClaims biscuit managerToken nowSecs = .ok claims :=
    managerClaims_of_toOption hclaims
  refine .inr (.inl ?_)
  simp only [tokenStep, CoreHandle.verifyContamination, hok]
  simp only [PassesManagerAuth] at hauth
  simp [ContaminationEngine.verifyData, withDelta, hauth, ContaminationEngine.resolveRoot,
    calmResolution, ContaminationEngine.incidentsOf, ContaminationEngine.compositesOf,
    ContaminationEngine.new, foldUntilError, appendTag_clean, ChangesetDag.appendTag]

theorem takesEffect_adminCloseIco {icoId : IncidentId} {managerToken : Bytes} {nowSecs : ℤ}
    (hclaims : acceptedClaims biscuit h (.adminCloseIco icoId managerToken nowSecs) = some claims)
    (hauth : PassesManagerAuth lib h claims (.adminCloseIco icoId managerToken nowSecs)) :
    TakesEffect (withIncident h icoId) (tokenStep lib biscuit (withIncident h icoId)
        (.adminCloseIco icoId managerToken nowSecs) calmResolution)
      (.adminCloseIco icoId managerToken nowSecs) := by
  have hok : (withIncident h icoId).managerClaims biscuit managerToken nowSecs = .ok claims :=
    managerClaims_of_toOption hclaims
  refine .inl fun hsame => ?_
  simp only [tokenStep, CoreHandle.adminCloseIco, hok] at hsame
  simp only [PassesManagerAuth] at hauth
  have hlookup := congrArg (fun cce => (cce.incidents.lookup icoId).map
    IncidentContextObject.state) hsame
  simp [ContaminationEngine.adminClose, withIncident, hauth] at hlookup

theorem takesEffect_presentToken {tokenBytes : Bytes} {nowSecs : ℤ}
    (hclaims : acceptedClaims biscuit h (.presentToken tokenBytes nowSecs) = some claims) :
    TakesEffect (withoutToken h) (tokenStep lib biscuit (withoutToken h)
      (.presentToken tokenBytes nowSecs) calmResolution) (.presentToken tokenBytes nowSecs) := by
  have hverdict : CapabilityManager.firstVerdict biscuit tokenBytes nowSecs
      h.capability.rootCaKeys = some (some claims) := Option.join_eq_some_iff.mp hclaims
  have hkeys : h.capability.rootCaKeys ≠ [] := by
    intro hnil
    rw [hnil] at hverdict
    cases hverdict
  refine ⟨by simp [withoutToken, CapabilityManager.trustLevel, TrustLevelStateMachine.new], ?_⟩
  simp [tokenStep, CapabilityManager.presentToken, withoutToken, hkeys, hverdict,
    CapabilityManager.trustLevel, TrustLevelStateMachine.onValidToken]

theorem takesEffect_verifyToken {tokenBytes : Bytes} {nowSecs : ℤ}
    (hclaims : acceptedClaims biscuit h (.verifyToken tokenBytes nowSecs) = some claims) :
    TakesEffect (withoutToken h) (tokenStep lib biscuit (withoutToken h)
      (.verifyToken tokenBytes nowSecs) calmResolution) (.verifyToken tokenBytes nowSecs) := by
  have haccepted : firstAccepted biscuit tokenBytes nowSecs h.capability.rootCaKeys =
      some claims := hclaims
  refine ⟨by simp [withoutToken, CapabilityManager.trustLevel, TrustLevelStateMachine.new], ?_⟩
  simp [tokenStep, CapabilityManager.verifyToken, withoutToken, tryKeys_eq, haccepted,
    CapabilityManager.trustLevel, TrustLevelStateMachine.new, TrustLevelStateMachine.onValidToken]

theorem takesEffect_somewhere {op : TokenOperation}
    (hclaims : acceptedClaims biscuit h op = some claims)
    (hauth : PassesManagerAuth lib h claims op) : ∃ h' env, SameDevice h h' ∧
      TakesEffect h' (tokenStep lib biscuit h' op env) op := by
  cases op with
  | verifyContamination rootDeltaId managerToken nowSecs =>
    exact ⟨withDelta h rootDeltaId, calmResolution, ⟨rfl, rfl⟩,
      takesEffect_verifyContamination hclaims hauth⟩
  | adminCloseIco icoId managerToken nowSecs =>
    exact ⟨withIncident h icoId, calmResolution, ⟨rfl, rfl⟩,
      takesEffect_adminCloseIco hclaims hauth⟩
  | presentToken tokenBytes nowSecs =>
    exact ⟨withoutToken h, calmResolution, ⟨rfl, rfl⟩, takesEffect_presentToken hclaims⟩
  | verifyToken tokenBytes nowSecs =>
    exact ⟨withoutToken h, calmResolution, ⟨rfl, rfl⟩, takesEffect_verifyToken hclaims⟩

end Effective

theorem onlyEntitled_iff (h : CoreHandle) (op : TokenOperation) :
    (∀ h', SameDevice h h' → OnlyEntitled lib biscuit isManager h' op) ↔
      RefusedOrEntitles lib biscuit isManager h op := by
  constructor
  · intro honly claims hclaims hauth
    obtain ⟨h', env, hsame, heffect⟩ := takesEffect_somewhere hclaims hauth
    obtain ⟨found, hfound, hentitles⟩ := honly h' hsame env heffect
    rw [hsame.acceptedClaims, hclaims] at hfound
    cases hfound
    exact (hsame.entitles op claims).mp hentitles
  · intro hrefused h' hsame env heffect
    obtain ⟨claims, hclaims, hauth⟩ := accepted_of_takesEffect heffect
    refine ⟨claims, hclaims, (hsame.entitles op claims).mpr (hrefused claims ?_ ?_)⟩
    · rw [← hsame.acceptedClaims, hclaims]
    · exact (hsame.passesManagerAuth claims op).mp hauth

def sampleDevice : CoreHandle :=
  withDelta ({ sampleHandle ⟨.empty, .empty, [], []⟩ with
    capability := CapabilityManager.new [CrdtEngine.sampleKey 9] 1 1 false }) 5

theorem foreign_token_takesEffect :
    let op : TokenOperation := .verifyContamination 5 [1] 10
    let present : TokenOperation := .presentToken [1] 10
    (acceptedClaims sampleBiscuits sampleDevice op).map (fun c => (c.did, c.role)) =
        some ("did:key:z6Mk", "field") ∧
      sampleDevice.identity.did = CrdtEngine.sampleDid₁ ∧
      (tokenStep (sampleCoreLibraries []) sampleBiscuits sampleDevice op
        calmResolution).crdt.dag.nodes.map DagRow.tagsJson =
          [[.resolved CrdtEngine.sampleDid₁ 9]] ∧
      (tokenStep (sampleCoreLibraries []) sampleBiscuits sampleDevice present
        calmResolution).capability.trustLevel = .verified ∧
      ¬OnlyEntitled (sampleCoreLibraries []) sampleBiscuits (· = "manager") sampleDevice op ∧
      ¬OnlyEntitled (sampleCoreLibraries []) sampleBiscuits (· = "manager") sampleDevice
        present := by
  intro op present
  have hclaims : (acceptedClaims sampleBiscuits sampleDevice op).map (fun c => (c.did, c.role)) =
      some ("did:key:z6Mk", "field") := by decide +kernel
  have hpresent : (acceptedClaims sampleBiscuits sampleDevice present).map
      (fun c => (c.did, c.role)) = some ("did:key:z6Mk", "field") := by decide +kernel
  have hdid : sampleDevice.identity.did = CrdtEngine.sampleDid₁ := rfl
  have htags : (tokenStep (sampleCoreLibraries []) sampleBiscuits sampleDevice op
      calmResolution).crdt.dag.nodes.map DagRow.tagsJson =
        [[.resolved CrdtEngine.sampleDid₁ 9]] := by decide +kernel
  have hverified : (tokenStep (sampleCoreLibraries []) sampleBiscuits sampleDevice present
      calmResolution).capability.trustLevel = .verified := by decide +kernel
  refine ⟨hclaims, hdid, htags, hverified, fun honly => ?_, fun honly => ?_⟩
  · have heffect : TakesEffect sampleDevice (tokenStep (sampleCoreLibraries []) sampleBiscuits
        sampleDevice op calmResolution) op := by
      refine .inr (.inl fun hsame => ?_)
      rw [hsame] at htags
      revert htags
      decide +kernel
    obtain ⟨claims, hfound, hforeign, -⟩ := honly calmResolution heffect
    rw [hfound] at hclaims
    have hnamed : claims.did = "did:key:z6Mk" := (Prod.mk.inj (Option.some.inj hclaims)).1
    rw [hnamed, hdid] at hforeign
    exact absurd hforeign (by decide +kernel)
  · have hbefore : sampleDevice.capability.trustLevel ≠ .verified := by decide +kernel
    obtain ⟨claims, hfound, hforeign, -⟩ := honly calmResolution ⟨hbefore, hverified⟩
    rw [hfound] at hpresent
    have hnamed : claims.did = "did:key:z6Mk" := (Prod.mk.inj (Option.some.inj hpresent)).1
    rw [hnamed, hdid] at hforeign
    exact absurd hforeign (by decide +kernel)

end TokenEntitlement

end TirBase
