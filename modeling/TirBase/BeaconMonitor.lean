import TirBase.DeviceIdentity
import TirBase.DurabilityRuns

/-! # The beacon monitor

A verified token shows that its beacon is there. The monitor asks at every tick for the beacons that were
silent for too long; with the first of them the device gives the beacons up for good. -/
namespace TirBase
open TransitionRuns

/-- `i64::saturating_sub`. -/
def saturatingSub (a b : ℤ) : ℤ := max (-2 ^ 63) (min (a - b) (2 ^ 63 - 1))

namespace AnchorAttestedLocation

def fromBeaconPublicKeys (lib : KeyLibraries) (beaconPublicKeys : List KeyBytes)
    (initialEpoch : UInt64) : AnchorAttestedLocation :=
  new (beaconPublicKeys.map fun publicKey => ⟨lib.deriveDid publicKey, publicKey⟩) initialEpoch

/-- The threshold is read as an `i64`. A beacon that was never seen counts as seen at `i64::MIN`. -/
def TooLong (thresholdSecs : UInt64) (nowSecs : ℤ) (lastSeen : Option ℤ) : Prop :=
  thresholdSecs.toBitVec.toInt < saturatingSub nowSecs (lastSeen.getD (-2 ^ 63))

instance (thresholdSecs : UInt64) (nowSecs : ℤ) (lastSeen : Option ℤ) :
    Decidable (TooLong thresholdSecs nowSecs lastSeen) := inferInstanceAs (Decidable (_ < _))

def checkSignalLoss (a : AnchorAttestedLocation) (nowSecs : ℤ) (thresholdSecs : UInt64) :
    List KeyBytes :=
  if a.mode = .squadTagFallback then []
  else
    (a.beaconRegistry.filter fun e =>
      TooLong thresholdSecs nowSecs (a.beaconLastSeen.lookup e.publicKey)).map
        BeaconRegistryEntry.publicKey

def beaconDidForKey (a : AnchorAttestedLocation) (publicKey : KeyBytes) : Option Did :=
  (a.beaconRegistry.find? fun e => e.publicKey = publicKey).map BeaconRegistryEntry.beaconDid

/-- One turn of `spawn_beacon_monitor_loop`. -/
def monitor (a : AnchorAttestedLocation) (nowSecs : ℤ) (thresholdSecs : UInt64) :
    AnchorAttestedLocation :=
  let lostBeacons := a.checkSignalLoss nowSecs thresholdSecs
  if lostBeacons = [] then a
  else a.onBeaconSignalLost nowSecs (lostBeacons.filterMap a.beaconDidForKey)

end AnchorAttestedLocation

namespace Quorum.BeaconMonitor
open AnchorAttestedLocation

abbrev Sighting := KeyBytes × ℤ

inductive Operation (Γ : Type*)
  | tick (nowSecs : ℤ)
  | durability (op : DurabilityOp Γ)

variable {Γ : Type*} (lib : KeyLibraries)

/-- A receipt that is counted while beacons attest locations shows the beacon of its token. -/
def sighted (d : DurabilitySubsystem) : DurabilityOp Γ → List Sighting
  | .receiveReceipt receipt deltaId nowSecs =>
    match d.anchor, receipt.beaconToken with
    | some a, some token =>
      if a.mode = .beaconAttested ∧ (d.states.lookup deltaId).isSome ∧
          (d.receiveReceipt lib.toIdentityLibraries receipt deltaId nowSecs).1.isOk then
        (a.findBeaconKey token.beaconDid).toList.map fun publicKey => (publicKey, nowSecs)
      else []
    | _, _ => []
  | _ => []

/-- The beacons that an operation shows come with the state after it. -/
def step (thresholdSecs : UInt64) (d : DurabilitySubsystem) :
    Operation Γ → DurabilitySubsystem × List Sighting
  | .tick nowSecs => ({ d with anchor := d.anchor.map (·.monitor nowSecs thresholdSecs) }, [])
  | .durability op => (d.step lib.toIdentityLibraries op, sighted lib d op)

/-- Only the monitor declares a loss. -/
def Outside : Operation Γ → Prop
  | .durability (.onBeaconSignalLost ..) => False
  | _ => True

def start (c : QuorumConfig) (keys : List KeyBytes) (epoch : UInt64) : DurabilitySubsystem :=
  DurabilitySubsystem.withAnchor c (some (fromBeaconPublicKeys lib keys epoch))

def after (thresholdSecs : UInt64) (d : DurabilitySubsystem) (ops : List (Operation Γ)) :
    DurabilitySubsystem := run (fun d op => (step lib thresholdSecs d op).1) d ops

def lastSighting (sightings : List Sighting) (key : KeyBytes) : Option ℤ :=
  (sightings.reverse.find? fun s => s.1 = key).map Prod.snd

def silent (thresholdSecs : UInt64) (keys : List KeyBytes) (nowSecs : ℤ)
    (sightings : List Sighting) : List KeyBytes :=
  keys.filter fun key => TooLong thresholdSecs nowSecs (lastSighting sightings key)

/-- At every tick of the run all beacons were seen not too long ago. -/
def AllHeard (thresholdSecs : UInt64) (keys : List KeyBytes) (d : DurabilitySubsystem)
    (ops : List (Operation Γ)) : Prop :=
  ∀ earlier nowSecs rest, ops = earlier ++ .tick nowSecs :: rest →
    silent thresholdSecs keys nowSecs (emitted (step lib thresholdSecs) d earlier) = []

variable {lib}

theorem lastSighting_append (sightings new : List Sighting) (key : KeyBytes) :
    lastSighting (sightings ++ new) key = (lastSighting new key).or (lastSighting sightings key) := by
  rw [lastSighting, lastSighting, lastSighting, List.reverse_append, List.find?_append]
  cases List.find? (fun s : Sighting => decide (s.1 = key)) new.reverse <;> rfl

/-- An anchor with the same mode and log that saw some beacons. -/
structure Sees (a : AnchorAttestedLocation) (sightings : List Sighting)
    (a' : AnchorAttestedLocation) : Prop where
  registry : a'.beaconRegistry = a.beaconRegistry
  mode : a'.mode = a.mode
  log : a'.degradationLog = a.degradationLog
  lastSeen : ∀ key, a'.beaconLastSeen.lookup key =
    (lastSighting sightings key).or (a.beaconLastSeen.lookup key)

variable {a a' : AnchorAttestedLocation} {d : DurabilitySubsystem} {op : DurabilityOp Γ}

theorem Sees.refl (a : AnchorAttestedLocation) : Sees a [] a :=
  ⟨rfl, rfl, rfl, fun _ => rfl⟩

theorem sees_advanceEpoch (a : AnchorAttestedLocation) (newEpoch : UInt64) :
    Sees a [] (a.advanceEpoch newEpoch) := by
  rw [advanceEpoch]
  split_ifs
  · exact ⟨rfl, rfl, rfl, fun _ => rfl⟩
  · exact .refl a

theorem sees_insert (a : AnchorAttestedLocation) (key : KeyBytes) (nowSecs : ℤ) :
    Sees a [(key, nowSecs)] { a with beaconLastSeen := a.beaconLastSeen.insert key nowSecs } := by
  refine ⟨rfl, rfl, rfl, fun other => ?_⟩
  by_cases hkey : other = key
  · subst hkey
    rw [AList.lookup_insert]
    simp [lastSighting]
  · rw [AList.lookup_insert_ne hkey]
    simp [lastSighting, Ne.symm hkey]

/-- The token of a receipt shows its beacon exactly when the receipt passes. -/
theorem sees_diversityTag (lib : KeyLibraries) (ha : a.mode = .beaconAttested)
    (receipt : DurabilityReceipt) (deltaId : DeltaId) (nowSecs : ℤ) :
    (∃ e, diversityTag lib.toIdentityLibraries (some a) receipt deltaId nowSecs =
      (.error e, some a)) ∨
    ∃ token key a', receipt.beaconToken = some token ∧ a.findBeaconKey token.beaconDid = some key ∧
      diversityTag lib.toIdentityLibraries (some a) receipt deltaId nowSecs =
        (.ok (some token.locationClaim), some a') ∧ Sees a [(key, nowSecs)] a' := by
  unfold diversityTag
  simp only [ha]
  cases htoken : receipt.beaconToken with
  | none => exact .inl ⟨_, rfl⟩
  | some token =>
    unfold verifyBeaconToken
    cases hkey : a.findBeaconKey token.beaconDid with
    | none =>
      simp only [hkey]
      exact .inl ⟨_, rfl⟩
    | some key =>
      by_cases hstale : token.epoch < a.currentEpoch
      · simp only [hkey, hstale, if_true]
        exact .inl ⟨_, rfl⟩
      · simp only [hkey, hstale, if_false]
        cases lib.verify key (beaconTokenSigningPayload token.epoch token.locationClaim)
            token.beaconSignature with
        | error e => exact .inl ⟨_, rfl⟩
        | ok u => exact .inr ⟨token, key, _, rfl, hkey, rfl, sees_insert a key nowSecs⟩

theorem sighted_of_refused {receipt : DurabilityReceipt} {deltaId : DeltaId} {nowSecs : ℤ}
    (h : (d.states.lookup deltaId).isSome = true →
      ∃ e, (d.receiveReceipt lib.toIdentityLibraries receipt deltaId nowSecs).1 = .error e) :
    sighted lib d (.receiveReceipt receipt deltaId nowSecs : DurabilityOp Γ) = [] := by
  simp only [sighted]
  split
  · apply if_neg
    rintro ⟨-, hknown, hok⟩
    obtain ⟨e, he⟩ := h hknown
    rw [he] at hok
    cases hok
  · rfl

theorem sees_receiveReceipt (ha : d.anchor = some a) (receipt : DurabilityReceipt)
    (deltaId : DeltaId) (nowSecs : ℤ) :
    ∃ a', (d.receiveReceipt lib.toIdentityLibraries receipt deltaId nowSecs).2.anchor = some a' ∧
      Sees a (sighted lib d (.receiveReceipt receipt deltaId nowSecs : DurabilityOp Γ)) a' := by
  cases hlookup : d.states.lookup deltaId with
  | none =>
    rw [sighted_of_refused (by rw [hlookup]; exact fun h => by cases h)]
    exact ⟨a, by simp only [DurabilitySubsystem.receiveReceipt, hlookup, ha], .refl a⟩
  | some state =>
    cases hkey : state.peerPublicKeys.lookup receipt.issuerDid with
    | none =>
      have hreceive : ∃ e, d.receiveReceipt lib.toIdentityLibraries receipt deltaId nowSecs =
          (.error e, d) := by
        simp only [DurabilitySubsystem.receiveReceipt, hlookup, hkey]
        exact ⟨_, rfl⟩
      obtain ⟨e, hreceive⟩ := hreceive
      rw [sighted_of_refused fun _ => ⟨e, by rw [hreceive]⟩, hreceive]
      exact ⟨a, ha, .refl a⟩
    | some publicKey =>
      cases hverify : verifyReceipt lib.toIdentityLibraries receipt publicKey state.stateHash with
      | error e =>
        have hreceive : d.receiveReceipt lib.toIdentityLibraries receipt deltaId nowSecs =
            (.error e, d) := by
          simp only [DurabilitySubsystem.receiveReceipt, hlookup, hkey, hverify]
        rw [sighted_of_refused fun _ => ⟨e, by rw [hreceive]⟩, hreceive]
        exact ⟨a, ha, .refl a⟩
      | ok u =>
        cases hmode : a.mode with
        | squadTagFallback =>
          have htag : diversityTag lib.toIdentityLibraries (some a) receipt deltaId nowSecs =
              (.ok none, some a) := by
            simp only [diversityTag, hmode]
          have hsighted :
              sighted lib d (.receiveReceipt receipt deltaId nowSecs : DurabilityOp Γ) = [] := by
            simp only [sighted, ha]
            split
            · rename_i heq _
              cases heq
              exact if_neg fun hall => by rw [hmode] at hall; cases hall.1
            · rfl
          obtain ⟨state', hstate', -⟩ := DurabilitySubsystem.countReceipt_cases
            { d with anchor := some a } deltaId state receipt none
          rw [hsighted]
          refine ⟨a, ?_, .refl a⟩
          simp only [DurabilitySubsystem.receiveReceipt, hlookup, hkey, hverify, ha, htag]
          rw [hstate']
        | beaconAttested =>
          rcases sees_diversityTag lib hmode receipt deltaId nowSecs with
            ⟨e, htag⟩ | ⟨token, key, a', htoken, hfound, htag, hsees⟩
          · have hreceive : d.receiveReceipt lib.toIdentityLibraries receipt deltaId nowSecs =
                (.error e, { d with anchor := some a }) := by
              simp only [DurabilitySubsystem.receiveReceipt, hlookup, hkey, hverify, ha, htag]
            rw [sighted_of_refused fun _ => ⟨e, by rw [hreceive]⟩, hreceive]
            exact ⟨a, rfl, .refl a⟩
          · obtain ⟨state', hstate', -⟩ := DurabilitySubsystem.countReceipt_cases
              { d with anchor := some a' } deltaId state receipt (some token.locationClaim)
            have hreceive : d.receiveReceipt lib.toIdentityLibraries receipt deltaId nowSecs =
                (.ok ({ d with anchor := some a' }.countReceipt deltaId state receipt
                    (some token.locationClaim)).1,
                  ({ d with anchor := some a' }.countReceipt deltaId state receipt
                    (some token.locationClaim)).2) := by
              simp only [DurabilitySubsystem.receiveReceipt, hlookup, hkey, hverify, ha, htag]
            have hsighted :
                sighted lib d (.receiveReceipt receipt deltaId nowSecs : DurabilityOp Γ) =
                  [(key, nowSecs)] := by
              simp only [sighted, ha, htoken, hmode, hlookup, hreceive, hfound]
              rfl
            rw [hsighted, hreceive]
            exact ⟨a', by rw [hstate'], hsees⟩

/-- What the subsystem does besides the monitor leaves the mode and the log alone. -/
theorem sees_step (lib : KeyLibraries) (ha : d.anchor = some a) (hop : Outside (.durability op)) :
    ∃ a', (d.step lib.toIdentityLibraries op).anchor = some a' ∧ Sees a (sighted lib d op) a' := by
  cases op with
  | registerDelta deltaId stateHash bytes parents keys =>
    obtain ⟨queue, hregistered⟩ :=
      DurabilitySubsystem.exists_registerDelta d deltaId stateHash bytes parents keys
    refine ⟨a, ?_, .refl a⟩
    dsimp only [DurabilitySubsystem.step]
    rw [hregistered]
    exact ha
  | registerPeerKey deltaId peerDid publicKey =>
    refine ⟨a, ?_, .refl a⟩
    dsimp only [DurabilitySubsystem.step, DurabilitySubsystem.registerPeerKey]
    split <;> exact ha
  | receiveReceipt receipt deltaId nowSecs => exact sees_receiveReceipt ha receipt deltaId nowSecs
  | onCloudAck deltaId => exact ⟨a, ha, .refl a⟩
  | runCloudSyncCycle sendDelta refetch conn =>
    refine ⟨a, ?_, .refl a⟩
    dsimp only [DurabilitySubsystem.step, DurabilitySubsystem.runCloudSyncCycle]
    split_ifs
    · exact ha
    · rw [(DurabilitySubsystem.fields_acknowledgeAll _ _).2]
      exact ha
  | markCompacted deltaId => exact ⟨a, ha, .refl a⟩
  | advanceEpoch newEpoch =>
    refine ⟨a.advanceEpoch newEpoch, ?_, sees_advanceEpoch a newEpoch⟩
    dsimp only [DurabilitySubsystem.step]
    rw [ha, Option.map_some]
  | onBeaconSignalLost timestamp peers => exact hop.elim

variable {thresholdSecs : UInt64} {keys : List KeyBytes} {start : DurabilitySubsystem}
  {ops : List (Operation Γ)}

theorem after_concat (ops : List (Operation Γ)) (op : Operation Γ) :
    after lib thresholdSecs start (ops ++ [op]) =
      (step lib thresholdSecs (after lib thresholdSecs start ops) op).1 := by
  rw [after, run_append]
  rfl

theorem emitted_concat (ops : List (Operation Γ)) (op : Operation Γ) :
    emitted (step lib thresholdSecs) start (ops ++ [op]) = emitted (step lib thresholdSecs) start ops ++
      (step lib thresholdSecs (after lib thresholdSecs start ops) op).2 := by
  rw [emitted_append, emitted_cons, emitted_nil, List.append_nil]
  rfl

theorem allHeard_concat (ops : List (Operation Γ)) (op : Operation Γ) :
    AllHeard lib thresholdSecs keys start (ops ++ [op]) ↔ AllHeard lib thresholdSecs keys start ops ∧
      ∀ nowSecs, op = .tick nowSecs →
        silent thresholdSecs keys nowSecs (emitted (step lib thresholdSecs) start ops) = [] := by
  constructor
  · intro h
    refine ⟨fun earlier nowSecs rest hsplit => ?_, fun nowSecs htick => ?_⟩
    · exact h earlier nowSecs (rest ++ [op]) (by rw [hsplit, List.append_assoc, List.cons_append])
    · exact h ops nowSecs [] (by rw [htick])
  · rintro ⟨hbefore, hlast⟩ earlier nowSecs rest hsplit
    rcases List.eq_nil_or_concat rest with rfl | ⟨rest, last, rfl⟩
    · obtain ⟨rfl, hop⟩ := List.append_inj' hsplit rfl
      exact hlast nowSecs (List.singleton_inj.mp hop)
    · rw [List.concat_eq_append, ← List.cons_append, ← List.append_assoc] at hsplit
      exact hbefore earlier nowSecs rest (List.append_inj' hsplit rfl).1

/-- The first tick at which beacons were silent, and the event that the log holds for it. -/
structure Lost (lib : KeyLibraries) (thresholdSecs : UInt64) (keys : List KeyBytes)
    (start : DurabilitySubsystem) (ops : List (Operation Γ)) (log : List TransportDegradationEvent)
    (earlier : List (Operation Γ)) (nowSecs : ℤ) (rest : List (Operation Γ)) : Prop where
  split : ops = earlier ++ .tick nowSecs :: rest
  heard : AllHeard lib thresholdSecs keys start earlier
  silent : silent thresholdSecs keys nowSecs (emitted (step lib thresholdSecs) start earlier) ≠ []
  logged : ∃ event, log = [event] ∧ event.timestamp = nowSecs ∧ event.affectedPeerDids =
    (BeaconMonitor.silent thresholdSecs keys nowSecs
      (emitted (step lib thresholdSecs) start earlier)).map lib.deriveDid

/-- The anchor knows when its beacons were seen, and it attests until some of them were lost. -/
structure Watches (lib : KeyLibraries) (thresholdSecs : UInt64) (keys : List KeyBytes)
    (start : DurabilitySubsystem) (ops : List (Operation Γ)) (a : AnchorAttestedLocation) : Prop where
  registry : a.beaconRegistry = keys.map fun key => ⟨lib.deriveDid key, key⟩
  lastSeen : ∀ key, a.beaconLastSeen.lookup key =
    lastSighting (emitted (step lib thresholdSecs) start ops) key
  verdict : a.mode = .beaconAttested ∧ a.degradationLog = [] ∧
      AllHeard lib thresholdSecs keys start ops ∨
    a.mode = .squadTagFallback ∧
      ∃ earlier nowSecs rest,
        Lost lib thresholdSecs keys start ops a.degradationLog earlier nowSecs rest

theorem checkSignalLoss_eq (h : Watches lib thresholdSecs keys start ops a)
    (hmode : a.mode = .beaconAttested) (nowSecs : ℤ) : a.checkSignalLoss nowSecs thresholdSecs =
      silent thresholdSecs keys nowSecs (emitted (step lib thresholdSecs) start ops) := by
  rw [checkSignalLoss, hmode, if_neg (by decide), h.registry, List.filter_map, List.map_map]
  have hid : (BeaconRegistryEntry.publicKey ∘ fun key => (⟨lib.deriveDid key, key⟩ :
      BeaconRegistryEntry)) = id := rfl
  rw [hid, List.map_id, silent]
  congr 1
  funext key
  simp only [Function.comp_apply, h.lastSeen]

theorem beaconDidForKey_eq (hregistry : a.beaconRegistry = keys.map fun key => ⟨lib.deriveDid key, key⟩)
    {key : KeyBytes} (hkey : key ∈ keys) : a.beaconDidForKey key = some (lib.deriveDid key) := by
  rw [beaconDidForKey, hregistry]
  have hfind : (keys.map fun key => (⟨lib.deriveDid key, key⟩ : BeaconRegistryEntry)).find?
      (fun e => e.publicKey = key) = some ⟨lib.deriveDid key, key⟩ := by
    clear hregistry
    induction keys with
    | nil => cases hkey
    | cons first keys ih =>
      by_cases hfirst : first = key
      · simp [hfirst]
      · rw [List.map_cons, List.find?_cons_of_neg (by simpa using hfirst)]
        exact ih (List.mem_of_ne_of_mem (Ne.symm hfirst) hkey)
  rw [hfind]
  rfl

theorem affectedDids_eq (hregistry : a.beaconRegistry = keys.map fun key => ⟨lib.deriveDid key, key⟩)
    (lost : List KeyBytes) (hlost : ∀ key ∈ lost, key ∈ keys) :
    lost.filterMap a.beaconDidForKey = lost.map lib.deriveDid := by
  rw [← List.filterMap_eq_map]
  apply List.filterMap_congr
  intro key hkey
  exact beaconDidForKey_eq hregistry (hlost key hkey)

theorem logged_onBeaconSignalLost (a : AnchorAttestedLocation) (nowSecs : ℤ) (dids : List Did) :
    ∃ event, (a.onBeaconSignalLost nowSecs dids).degradationLog = a.degradationLog ++ [event] ∧
      event.timestamp = nowSecs ∧ event.affectedPeerDids = dids :=
  ⟨_, rfl, rfl, rfl⟩

/-- A tick asks for the silent beacons, and the first ones end the attestation. -/
theorem Watches.tick (h : Watches lib thresholdSecs keys start ops a)
    (ha : (after lib thresholdSecs start ops).anchor = some a) (nowSecs : ℤ) :
    ∃ a', (after lib thresholdSecs start (ops ++ [.tick nowSecs])).anchor = some a' ∧
      Watches lib thresholdSecs keys start (ops ++ [.tick nowSecs]) a' := by
  have hsame : emitted (step lib thresholdSecs) start (ops ++ [.tick nowSecs]) =
      emitted (step lib thresholdSecs) start ops := by
    rw [emitted_concat]
    exact List.append_nil _
  refine ⟨a.monitor nowSecs thresholdSecs, ?_, ?_⟩
  · rw [after_concat]
    change Option.map _ _ = _
    rw [ha, Option.map_some]
  · rcases h.verdict with ⟨hmode, hlog, hheard⟩ | ⟨hmode, earlier, now, rest, hlost⟩
    · by_cases hsilent : silent thresholdSecs keys nowSecs
          (emitted (step lib thresholdSecs) start ops) = []
      · have hnone : a.monitor nowSecs thresholdSecs = a :=
          if_pos ((checkSignalLoss_eq h hmode nowSecs).trans hsilent)
        rw [hnone]
        refine ⟨h.registry, by rw [hsame]; exact h.lastSeen, .inl ⟨hmode, hlog, ?_⟩⟩
        refine (allHeard_concat ops _).mpr ⟨hheard, fun now htick => ?_⟩
        cases htick
        exact hsilent
      · have hsome : a.monitor nowSecs thresholdSecs = a.onBeaconSignalLost nowSecs
            ((silent thresholdSecs keys nowSecs
              (emitted (step lib thresholdSecs) start ops)).map lib.deriveDid) := by
          have hdids := affectedDids_eq h.registry
            (silent thresholdSecs keys nowSecs (emitted (step lib thresholdSecs) start ops))
            fun key hkey => List.mem_of_mem_filter hkey
          rw [← hdids, ← checkSignalLoss_eq h hmode nowSecs]
          exact if_neg fun hnone => hsilent ((checkSignalLoss_eq h hmode nowSecs).symm.trans hnone)
        rw [hsome]
        refine ⟨h.registry, by rw [hsame]; exact h.lastSeen, .inr ⟨rfl, ops, nowSecs, [], ?_⟩⟩
        obtain ⟨event, hevent, htimestamp, hdids⟩ := logged_onBeaconSignalLost a nowSecs
          ((silent thresholdSecs keys nowSecs
            (emitted (step lib thresholdSecs) start ops)).map lib.deriveDid)
        exact ⟨rfl, hheard, hsilent, event, by rw [hevent, hlog, List.nil_append], htimestamp, hdids⟩
    · have hnone : a.monitor nowSecs thresholdSecs = a := by
        apply if_pos
        rw [checkSignalLoss, if_pos hmode]
      rw [hnone]
      refine ⟨h.registry, by rw [hsame]; exact h.lastSeen,
        .inr ⟨hmode, earlier, now, rest ++ [.tick nowSecs], ?_⟩⟩
      exact ⟨by rw [hlost.split, List.append_assoc, List.cons_append], hlost.heard, hlost.silent,
        hlost.logged⟩

theorem Watches.durability (h : Watches lib thresholdSecs keys start ops a)
    (ha : (after lib thresholdSecs start ops).anchor = some a) (hop : Outside (.durability op)) :
    ∃ a', (after lib thresholdSecs start (ops ++ [.durability op])).anchor = some a' ∧
      Watches lib thresholdSecs keys start (ops ++ [.durability op]) a' := by
  obtain ⟨a', hanchor, hsees⟩ := sees_step lib ha hop
  refine ⟨a', by rw [after_concat]; exact hanchor, hsees.registry.trans h.registry, fun key => ?_, ?_⟩
  · rw [hsees.lastSeen, h.lastSeen, emitted_concat, lastSighting_append]
    rfl
  · rw [hsees.mode, hsees.log]
    rcases h.verdict with ⟨hmode, hlog, hheard⟩ | ⟨hmode, earlier, now, rest, hlost⟩
    · refine .inl ⟨hmode, hlog, (allHeard_concat ops _).mpr ⟨hheard, fun now htick => ?_⟩⟩
      cases htick
    · refine .inr ⟨hmode, earlier, now, rest ++ [.durability op], ?_⟩
      exact ⟨by rw [hlost.split, List.append_assoc, List.cons_append], hlost.heard, hlost.silent,
        hlost.logged⟩

theorem watches_run (lib : KeyLibraries) (thresholdSecs : UInt64) (c : QuorumConfig)
    (keys : List KeyBytes) (epoch : UInt64) (hops : ∀ op ∈ ops, Outside op) :
    ∃ a, (after lib thresholdSecs (BeaconMonitor.start lib c keys epoch) ops).anchor = some a ∧
      Watches lib thresholdSecs keys (BeaconMonitor.start lib c keys epoch) ops a := by
  induction ops using List.reverseRecOn with
  | nil =>
    refine ⟨_, rfl, rfl, fun key => rfl, .inl ⟨rfl, rfl, ?_⟩⟩
    intro earlier nowSecs rest hsplit
    cases earlier <;> cases hsplit
  | append_singleton ops op ih =>
    obtain ⟨a, ha, hwatches⟩ := ih fun o ho => hops o (List.mem_append_left _ ho)
    have hop : Outside op := hops op (List.mem_append_right _ (List.mem_singleton_self op))
    cases op with
    | tick nowSecs => exact hwatches.tick ha nowSecs
    | durability op => exact hwatches.durability ha hop

/-- Beacons attest locations exactly as long as at every tick of the monitor each of them was seen not
too long ago. The first tick that misses some is logged with their DIDs, and nothing else is. -/
theorem attests_until_silence (lib : KeyLibraries) (thresholdSecs : UInt64) (c : QuorumConfig)
    (keys : List KeyBytes) (epoch : UInt64) (ops : List (Operation Γ))
    (hops : ∀ op ∈ ops, Outside op) :
    ∃ a, (after lib thresholdSecs (BeaconMonitor.start lib c keys epoch) ops).anchor = some a ∧
      (a.mode = .beaconAttested ↔
        AllHeard lib thresholdSecs keys (BeaconMonitor.start lib c keys epoch) ops) ∧
      (a.mode = .beaconAttested → a.degradationLog = []) ∧
      (a.mode = .squadTagFallback → ∃ earlier nowSecs rest,
        Lost lib thresholdSecs keys (BeaconMonitor.start lib c keys epoch) ops a.degradationLog
          earlier nowSecs rest) := by
  obtain ⟨a, ha, hwatches⟩ := watches_run lib thresholdSecs c keys epoch hops
  refine ⟨a, ha, ?_⟩
  rcases hwatches.verdict with ⟨hmode, hlog, hheard⟩ | ⟨hmode, earlier, now, rest, hlost⟩
  · refine ⟨iff_of_true hmode hheard, fun _ => hlog, fun hfallback => ?_⟩
    rw [hmode] at hfallback
    cases hfallback
  · have hnot : a.mode ≠ .beaconAttested := by
      rw [hmode]
      decide
    refine ⟨iff_of_false hnot fun hheard => ?_, fun hattested => absurd hattested hnot,
      fun _ => ⟨earlier, now, rest, hlost⟩⟩
    exact hlost.silent (hheard earlier now rest hlost.split)

/-- A receipt at 100 shows the beacon, the tick at 200 is content and the one at 500 is not. -/
def sampleOps : List (Operation Unit) :=
  let token : BeaconToken := ⟨CrdtEngine.sampleDid₁, List.replicate 64 0, 0, "north", 0⟩
  let receipt : DurabilityReceipt := ⟨0, 7, "x", List.replicate 64 0, some "squad", some token, 0⟩
  [.durability (.registerDelta 7 7 [1] [] (AList.insert "x" (CrdtEngine.sampleKey 2) ∅)),
    .durability (.receiveReceipt receipt 7 100), .tick 200, .tick 500]

theorem attests_until_silence_sample :
    ∃ a, (after IdentityManager.sampleLibraries 300
        (BeaconMonitor.start IdentityManager.sampleLibraries ⟨2, 3, 2, 1 / 2⟩
          [CrdtEngine.sampleKey 1] 0) sampleOps).anchor = some a ∧
      (a.mode = .beaconAttested ↔
        AllHeard IdentityManager.sampleLibraries 300 [CrdtEngine.sampleKey 1]
          (BeaconMonitor.start IdentityManager.sampleLibraries ⟨2, 3, 2, 1 / 2⟩
            [CrdtEngine.sampleKey 1] 0) sampleOps) ∧
      (a.mode = .beaconAttested → a.degradationLog = []) ∧
      (a.mode = .squadTagFallback → ∃ earlier nowSecs rest,
        Lost IdentityManager.sampleLibraries 300 [CrdtEngine.sampleKey 1]
          (BeaconMonitor.start IdentityManager.sampleLibraries ⟨2, 3, 2, 1 / 2⟩
            [CrdtEngine.sampleKey 1] 0) sampleOps a.degradationLog earlier nowSecs rest) :=
  attests_until_silence IdentityManager.sampleLibraries 300 ⟨2, 3, 2, 1 / 2⟩ [CrdtEngine.sampleKey 1] 0
    sampleOps (by simp [sampleOps, Outside])

/-- The tick at 200 finds the beacon heard, the one at 500 ends the attestation. -/
example :
    let start := BeaconMonitor.start IdentityManager.sampleLibraries ⟨2, 3, 2, 1 / 2⟩
      [CrdtEngine.sampleKey 1] 0
    ((after IdentityManager.sampleLibraries 300 start (sampleOps.take 3)).anchor.map (·.mode),
      (after IdentityManager.sampleLibraries 300 start sampleOps).anchor.map (·.mode)) =
      (some .beaconAttested, some .squadTagFallback) := by
  decide +kernel

end Quorum.BeaconMonitor

end TirBase
