import TirBase.DurabilityRuns

/-! # What a Tier-1 Delta rests on

In every run the tracker of a Delta holds the receipts that were accepted since the Delta was
registered. When the Delta becomes Tier-1, these receipts are the evidence. -/
namespace TirBase.Quorum
open TransitionRuns Tier1QuorumTracker

namespace DurabilitySubsystem
variable {Γ : Type*} (lib : IdentityLibraries)

/-- How an operation leaves the entry of a Delta: just registered, with the tracker it had, or with
one more receipt. -/
inductive EntryStep (d : DurabilitySubsystem) (op : DurabilityOp Γ) (id : DeltaId)
    (state' : DeltaDurabilityState) : Prop
  | registered (stateHash : BitVec 256) (keys : AList fun _ : Did => KeyBytes)
      (fresh : state' = d.freshState stateHash keys)
  | kept (state : DeltaDurabilityState) (before : d.states.lookup id = some state)
      (stateHash : state'.stateHash = state.stateHash) (quorum : state'.quorum = state.quorum)
      (tier : state'.tier = state.tier ∨ state'.tier = .tier2)
  | counted (receipt : DurabilityReceipt) (nowSecs : ℤ) (state : DeltaDurabilityState)
      (tag : Option String) (received : op = .receiveReceipt receipt id nowSecs)
      (admitted : Admitted lib d receipt id state tag)
      (stateHash : state'.stateHash = state.stateHash)
      (quorum : state'.quorum = (state.quorum.addReceiptWithTag receipt tag).2)
      (tier : state'.tier = state.tier ∧
          ¬((state.quorum.addReceiptWithTag receipt tag).1 = true ∧ state.tier = .uncommitted) ∨
        state'.tier = .tier1 ∧ (state.quorum.addReceiptWithTag receipt tag).1 = true ∧
          state.tier = .uncommitted)

variable {d : DurabilitySubsystem} {op : DurabilityOp Γ} {id deltaId : DeltaId}
  {state state' : DeltaDurabilityState}

theorem EntryStep.unchanged (h : d.states.lookup id = some state') :
    EntryStep lib d op id state' := .kept state' h rfl rfl (.inl rfl)

/-- Where one entry is replaced, the others are kept. -/
theorem EntryStep.insert
    (hother : (d.states.insert deltaId state).lookup id = some state')
    (h : id = deltaId → EntryStep lib d op id state) : EntryStep lib d op id state' := by
  by_cases hid : id = deltaId
  · subst hid
    rw [AList.lookup_insert, Option.some.injEq] at hother
    subst hother
    exact h rfl
  · rw [AList.lookup_insert_ne hid] at hother
    exact .unchanged lib hother

theorem lookup_onCloudAck (h : (d.onCloudAck deltaId).states.lookup id = some state') :
    ∃ state, d.states.lookup id = some state ∧ state'.stateHash = state.stateHash ∧
      state'.quorum = state.quorum ∧ (state'.tier = state.tier ∨ state'.tier = .tier2) := by
  unfold onCloudAck at h
  cases hlookup : d.states.lookup deltaId with
  | none =>
    simp only [hlookup] at h
    exact ⟨state', h, rfl, rfl, .inl rfl⟩
  | some state =>
    simp only [hlookup] at h
    by_cases hid : id = deltaId
    · subst hid
      rw [AList.lookup_insert, Option.some.injEq] at h
      subst h
      exact ⟨state, hlookup, rfl, rfl, .inr rfl⟩
    · rw [AList.lookup_insert_ne hid] at h
      exact ⟨state', h, rfl, rfl, .inl rfl⟩

theorem lookup_acknowledgeAll {ids : List DeltaId}
    (h : (ids.foldl onCloudAck d).states.lookup id = some state') :
    ∃ state, d.states.lookup id = some state ∧ state'.stateHash = state.stateHash ∧
      state'.quorum = state.quorum ∧ (state'.tier = state.tier ∨ state'.tier = .tier2) := by
  induction ids generalizing d with
  | nil => exact ⟨state', h, rfl, rfl, .inl rfl⟩
  | cons first ids ih =>
    obtain ⟨next, hnext, hhash, hquorum, htier⟩ := ih h
    obtain ⟨state, hstate, hhash', hquorum', htier'⟩ := lookup_onCloudAck hnext
    refine ⟨state, hstate, hhash.trans hhash', hquorum.trans hquorum', ?_⟩
    rcases htier with htier | htier
    · rw [htier]
      exact htier'
    · exact .inr htier

theorem entryStep (d : DurabilitySubsystem) (op : DurabilityOp Γ)
    (h : (d.step lib op).states.lookup id = some state') : EntryStep lib d op id state' := by
  cases op with
  | registerDelta deltaId stateHash bytes parents keys =>
    obtain ⟨queue, hregistered⟩ := exists_registerDelta d deltaId stateHash bytes parents keys
    dsimp only [step] at h
    rw [hregistered] at h
    exact .insert lib h fun _ => .registered stateHash keys rfl
  | registerPeerKey deltaId peerDid publicKey =>
    dsimp only [step, registerPeerKey] at h
    cases hlookup : d.states.lookup deltaId with
    | none =>
      rw [hlookup] at h
      exact .unchanged lib h
    | some state =>
      rw [hlookup] at h
      refine .insert lib h fun hid => ?_
      exact .kept state (hid ▸ hlookup) rfl rfl (.inl rfl)
  | receiveReceipt receipt deltaId nowSecs =>
    dsimp only [step] at h
    rcases snd_receiveReceipt_cases lib d receipt deltaId nowSecs with
      hsame | ⟨state, tag, anchor, next, hadmitted, -, hcounted, hhash, hquorum, htier⟩
    · rw [hsame] at h
      exact .unchanged lib h
    · rw [hcounted] at h
      refine .insert lib h fun hid => ?_
      subst hid
      exact .counted receipt nowSecs state tag rfl hadmitted hhash hquorum htier
  | onCloudAck deltaId =>
    obtain ⟨state, hstate, hhash, hquorum, htier⟩ := lookup_onCloudAck h
    exact .kept state hstate hhash hquorum htier
  | runCloudSyncCycle sendDelta refetch conn =>
    dsimp only [step, runCloudSyncCycle] at h
    split_ifs at h with hempty
    · exact .unchanged lib h
    · obtain ⟨state, hstate, hhash, hquorum, htier⟩ := lookup_acknowledgeAll h
      exact .kept state hstate hhash hquorum htier
  | markCompacted deltaId => exact .unchanged lib h
  | advanceEpoch newEpoch => exact .unchanged lib h
  | onBeaconSignalLost timestamp peers => exact .unchanged lib h

theorem quorumConfig_step (d : DurabilitySubsystem) (op : DurabilityOp Γ) :
    (d.step lib op).quorumConfig = d.quorumConfig := by
  cases op with
  | registerDelta deltaId stateHash bytes parents keys =>
    obtain ⟨queue, hregistered⟩ := exists_registerDelta d deltaId stateHash bytes parents keys
    dsimp only [step]
    rw [hregistered]
  | registerPeerKey deltaId peerDid publicKey =>
    dsimp only [step, registerPeerKey]
    split <;> rfl
  | receiveReceipt receipt deltaId nowSecs =>
    dsimp only [step]
    rcases snd_receiveReceipt_cases lib d receipt deltaId nowSecs with
      hsame | ⟨state, tag, anchor, next, -, -, hcounted, -⟩
    · rw [hsame]
    · rw [hcounted]
  | runCloudSyncCycle sendDelta refetch conn =>
    dsimp only [step, runCloudSyncCycle]
    split_ifs
    · rfl
    · exact (fields_acknowledgeAll _ _).1
  | _ => rfl

def Attested (anchor : Option AnchorAttestedLocation) : Prop :=
  ∃ a, anchor = some a ∧ a.mode = .beaconAttested

theorem attested_map {anchor : Option AnchorAttestedLocation}
    {change : AnchorAttestedLocation → AnchorAttestedLocation}
    (hchange : ∀ a, (change a).mode = .beaconAttested → a.mode = .beaconAttested)
    (h : Attested (anchor.map change)) : Attested anchor := by
  obtain ⟨a', hanchor, hmode⟩ := h
  obtain ⟨a, rfl, rfl⟩ := Option.map_eq_some_iff.mp hanchor
  exact ⟨a, rfl, hchange a hmode⟩

theorem attested_of_same {anchor anchor' : Option AnchorAttestedLocation}
    (hsame : SameAnchor anchor anchor') (h : Attested anchor') : Attested anchor := by
  obtain ⟨lastSeen, rfl⟩ := hsame
  have hmap : ∀ a : AnchorAttestedLocation, { a with beaconLastSeen := lastSeen a }.mode =
      .beaconAttested → a.mode = .beaconAttested := fun a hmode => hmode
  exact attested_map hmap h

/-- There is no way back to beacons. -/
theorem attested_of_step (op : DurabilityOp Γ) (h : Attested (d.step lib op).anchor) :
    Attested d.anchor := by
  cases op with
  | registerDelta deltaId stateHash bytes parents keys =>
    obtain ⟨queue, hregistered⟩ := exists_registerDelta d deltaId stateHash bytes parents keys
    dsimp only [step] at h
    rwa [hregistered] at h
  | registerPeerKey deltaId peerDid publicKey =>
    dsimp only [step, registerPeerKey] at h
    split at h <;> exact h
  | receiveReceipt receipt deltaId nowSecs =>
    dsimp only [step] at h
    rcases snd_receiveReceipt_cases lib d receipt deltaId nowSecs with
      hsame | ⟨state, tag, anchor, next, -, hanchor, hcounted, -⟩
    · rwa [hsame] at h
    · rw [hcounted] at h
      exact attested_of_same hanchor h
  | onCloudAck deltaId => exact h
  | runCloudSyncCycle sendDelta refetch conn =>
    dsimp only [step, runCloudSyncCycle] at h
    split_ifs at h
    · exact h
    · have hanchor := (fields_acknowledgeAll
        { d with cloudQueue := (cloudSyncLoop sendDelta refetch d.cloudQueue conn).queue }
        (cloudSyncLoop sendDelta refetch d.cloudQueue conn).result.acknowledgedIds).2
      exact hanchor ▸ h
  | markCompacted deltaId => exact h
  | advanceEpoch newEpoch =>
    refine attested_map (fun a hmode => ?_) h
    unfold AnchorAttestedLocation.advanceEpoch at hmode
    split_ifs at hmode <;> exact hmode
  | onBeaconSignalLost timestamp peers =>
    refine attested_map (fun a hmode => ?_) h
    cases hmode

theorem attested_of_run (ops : List (DurabilityOp Γ))
    (h : Attested (run (step lib) d ops).anchor) : Attested d.anchor := by
  induction ops generalizing d with
  | nil => exact h
  | cons op ops ih => exact attested_of_step lib op (ih h)

theorem achieved_addReceiptWithTag {t : Tier1QuorumTracker} {receipt : DurabilityReceipt}
    {tag : Option String} (h : (t.addReceiptWithTag receipt tag).2.tier1Achieved = true) :
    t.tier1Achieved = true ∨ (t.addReceiptWithTag receipt tag).1 = true := by
  unfold addReceiptWithTag at h ⊢
  dsimp only at h ⊢
  split_ifs at h ⊢
  · exact .inl h
  · exact .inr rfl
  · exact .inl h
  · exact .inl h

/-- The subsystem accepts the receipt: it is for the state hash, with a signature that holds under
the key of its issuer, and while beacons attest locations, with a token that they signed. -/
structure Accepted (d : DurabilitySubsystem) (id : DeltaId) (stateHash : BitVec 256)
    (r : CountedReceipt) : Prop where
  expected : r.1.stateHash = stateHash
  signed : ∃ state publicKey, d.states.lookup id = some state ∧
    state.peerPublicKeys.lookup r.1.issuerDid = some publicKey ∧
      lib.verify publicKey (receiptSigningPayload stateHash r.1.id) r.1.issuerSignature = .ok ()
  attested : ∀ a, d.anchor = some a → a.mode = .beaconAttested → ∃ token,
    r.1.beaconToken = some token ∧ BeaconVerified lib a token ∧ r.2 = some token.locationClaim

theorem accepted_of_admitted {receipt : DurabilityReceipt} {tag : Option String}
    (h : Admitted lib d receipt id state tag) :
    Accepted lib d id state.stateHash (receipt, tag.or receipt.spatialTag) := by
  obtain ⟨hlookup, ⟨publicKey, hkey, hhash, hverify⟩, hanchored⟩ := h
  refine ⟨hhash, ⟨state, publicKey, hlookup, hkey, hverify⟩, fun a ha hmode => ?_⟩
  rw [ha] at hanchored
  cases hanchored with
  | fallback hfallback =>
    rw [hmode] at hfallback
    cases hfallback
  | @attested a token hmode hcarried hverified => exact ⟨token, hcarried, hverified, rfl⟩

/-- The receipts that the tracker of a Delta counts, each accepted at some moment of the run. -/
structure Holds (c : QuorumConfig) (start : DurabilitySubsystem) (ops : List (DurabilityOp Γ))
    (id : DeltaId) (state : DeltaDurabilityState) (counted : List CountedReceipt) : Prop where
  tracks : state.quorum.Tracks c counted
  accepted : ∀ r ∈ counted, ∃ earlier nowSecs rest,
    ops = earlier ++ .receiveReceipt r.1 id nowSecs :: rest ∧
      Accepted lib (run (step lib) start earlier) id state.stateHash r
  achieved : state.quorum.tier1Achieved = true → state.tier ≠ .uncommitted

variable {c : QuorumConfig} {start : DurabilitySubsystem} {ops : List (DurabilityOp Γ)}

theorem holds_freshState (hconfig : d.quorumConfig = c) (stateHash : BitVec 256)
    (keys : AList fun _ : Did => KeyBytes) :
    Holds lib c start ops id (d.freshState stateHash keys) [] := by
  refine ⟨?_, fun r hr => absurd hr List.not_mem_nil, fun h => by cases h⟩
  dsimp only [freshState]
  rw [hconfig]
  exact tracks_new c

variable {counted : List CountedReceipt}

theorem Holds.kept (h : Holds lib c start ops id state counted) (op : DurabilityOp Γ)
    (hhash : state'.stateHash = state.stateHash) (hquorum : state'.quorum = state.quorum)
    (htier : state'.tier = state.tier ∨ state'.tier ≠ .uncommitted) :
    Holds lib c start (ops ++ [op]) id state' counted := by
  refine ⟨hquorum ▸ h.tracks, fun r hr => ?_, fun hachieved => ?_⟩
  · obtain ⟨earlier, nowSecs, rest, rfl, haccepted⟩ := h.accepted r hr
    exact ⟨earlier, nowSecs, rest ++ [op], by simp, hhash ▸ haccepted⟩
  · rcases htier with htier | htier
    · rw [htier]
      exact h.achieved (hquorum ▸ hachieved)
    · exact htier

theorem Holds.repeated (h : Holds lib c start ops id state counted) {receipt : DurabilityReceipt}
    (hseen : receipt.issuerDid ∈ state.quorum.seenIssuers) (tag : Option String) :
    (state.quorum.addReceiptWithTag receipt tag).2 = state.quorum ∧
      ¬((state.quorum.addReceiptWithTag receipt tag).1 = true ∧ state.tier = .uncommitted) := by
  rw [addReceiptWithTag_of_seen hseen]
  exact ⟨rfl, fun hboth => h.achieved hboth.1 hboth.2⟩

/-- The receipt of a new issuer joins those that the tracker counts. -/
theorem Holds.receive {receipt : DurabilityReceipt} {nowSecs : ℤ} {tag : Option String}
    (h : Holds lib c start ops id state counted)
    (hadmitted : Admitted lib (run (step lib) start ops) receipt id state tag)
    (hfresh : receipt.issuerDid ∉ state.quorum.seenIssuers)
    (hhash : state'.stateHash = state.stateHash)
    (hquorum : state'.quorum = (state.quorum.addReceiptWithTag receipt tag).2)
    (hachieved : state'.quorum.tier1Achieved = true → state'.tier ≠ .uncommitted) :
    Holds lib c start (ops ++ [.receiveReceipt receipt id nowSecs]) id state'
      (counted ++ [(receipt, tag.or receipt.spatialTag)]) := by
  refine ⟨hquorum ▸ (h.tracks.addReceiptWithTag hfresh tag).1, fun r hr => ?_, hachieved⟩
  rw [hhash]
  rcases List.mem_append.mp hr with hr | hr
  · obtain ⟨earlier, nowSecs', rest, rfl, haccepted⟩ := h.accepted r hr
    exact ⟨earlier, nowSecs', rest ++ [.receiveReceipt receipt id nowSecs], by simp, haccepted⟩
  · rw [List.mem_singleton.mp hr]
    exact ⟨ops, nowSecs, [], rfl, accepted_of_admitted lib hadmitted⟩

/-- What one more operation makes of the entry of a Delta; it is Tier-1 now if the tags of the
receipts suffice. -/
theorem holds_step (hconfig : (run (step lib) start ops).quorumConfig = c)
    (hbefore : ∀ state, (run (step lib) start ops).states.lookup id = some state →
      ∃ counted, Holds lib c start ops id state counted) (op : DurabilityOp Γ)
    (hafter : (run (step lib) start (ops ++ [op])).states.lookup id = some state') :
    ∃ counted, Holds lib c start (ops ++ [op]) id state' counted ∧
      (state'.tier = .tier1 → (run (step lib) start ops).durabilityTier id ≠ .tier1 →
        c.Suffices (counted.map Prod.snd)) := by
  have hstep : ((run (step lib) start ops).step lib op).states.lookup id = some state' := by
    rw [run_append] at hafter
    exact hafter
  cases entryStep lib _ op hstep with
  | registered stateHash keys hfresh =>
    rw [hfresh]
    exact ⟨[], holds_freshState lib hconfig stateHash keys, fun htier => by cases htier⟩
  | kept state hlookup hhash hquorum htier =>
    obtain ⟨counted, hholds⟩ := hbefore state hlookup
    refine ⟨counted, hholds.kept lib op hhash hquorum (htier.imp_right fun h => by simp [h]), ?_⟩
    intro hnow hnot
    rw [durabilityTier_of_lookup hlookup] at hnot
    rcases htier with htier | htier
    · exact absurd (htier.symm.trans hnow) hnot
    · rw [htier] at hnow
      cases hnow
  | counted receipt nowSecs state tag hreceived hadmitted hhash hquorum htier =>
    obtain ⟨counted, hholds⟩ := hbefore state hadmitted.registered
    by_cases hseen : receipt.issuerDid ∈ state.quorum.seenIssuers
    · obtain ⟨hsame, hnone⟩ := hholds.repeated lib hseen tag
      rcases htier with ⟨htier, -⟩ | ⟨-, hnow⟩
      · refine ⟨counted, hholds.kept lib op hhash (hquorum.trans hsame) (.inl htier), ?_⟩
        intro hnow hnot
        rw [durabilityTier_of_lookup hadmitted.registered] at hnot
        exact absurd (htier.symm.trans hnow) hnot
      · exact absurd hnow hnone
    · obtain ⟨htracks, hreached⟩ := hholds.tracks.addReceiptWithTag hseen tag
      subst hreceived
      refine ⟨_, hholds.receive lib hadmitted hseen hhash hquorum fun hachieved => ?_, ?_⟩
      · rcases htier with ⟨htier, hnot⟩ | ⟨htier, -⟩
        · rw [htier]
          intro huncommitted
          rw [hquorum] at hachieved
          rcases achieved_addReceiptWithTag hachieved with hbefore | hadded
          · exact hholds.achieved hbefore huncommitted
          · exact hnot ⟨hadded, huncommitted⟩
        · rw [htier]
          decide
      · intro hnow hnot
        rw [durabilityTier_of_lookup hadmitted.registered] at hnot
        rcases htier with ⟨htier, -⟩ | ⟨-, hadded, -⟩
        · exact absurd (htier.symm.trans hnow) hnot
        · exact (hreached.mp hadded).2

/-- Where the tracker and the tier stay, so does the tier table. -/
theorem lookup_receiveReceipt_of_seen {receipt : DurabilityReceipt}
    (hlookup : d.states.lookup id = some state)
    (hrepeated : ∀ tag, (state.quorum.addReceiptWithTag receipt tag).2 = state.quorum ∧
      ¬((state.quorum.addReceiptWithTag receipt tag).1 = true ∧ state.tier = .uncommitted))
    (nowSecs : ℤ) (id' : DeltaId) :
    (d.receiveReceipt lib receipt id nowSecs).2.states.lookup id' = d.states.lookup id' := by
  rcases receiveReceipt_cases lib d receipt id nowSecs with
    ⟨hsame, -⟩ | ⟨state', tag, anchor, hadmitted, -, hcounted⟩
  · rw [hsame]
  · obtain rfl : state' = state :=
      Option.some.inj (hadmitted.registered.symm.trans hlookup)
    obtain ⟨hquorum, hnot⟩ := hrepeated tag
    rw [hcounted]
    simp only [countReceipt, hquorum, if_neg hnot]
    by_cases hid : id' = id
    · rw [hid, AList.lookup_insert, hlookup]
    · exact AList.lookup_insert_ne hid

theorem quorumConfig_run (ops : List (DurabilityOp Γ)) :
    (run (step lib) d ops).quorumConfig = d.quorumConfig := by
  have hstep : ∀ (s : DurabilitySubsystem) (op : DurabilityOp Γ),
      s.quorumConfig = d.quorumConfig → (s.step lib op).quorumConfig = d.quorumConfig :=
    fun s op hs => (quorumConfig_step lib s op).trans hs
  exact invariant_run hstep ops rfl

/-- Every registered Delta holds the receipts accepted since, in every run. -/
theorem holds_run (c : QuorumConfig) (anchor : Option AnchorAttestedLocation)
    (ops : List (DurabilityOp Γ)) (id : DeltaId) (state : DeltaDurabilityState)
    (h : (run (step lib) (withAnchor c anchor) ops).states.lookup id = some state) :
    ∃ counted, Holds lib c (withAnchor c anchor) ops id state counted := by
  induction ops using List.reverseRecOn generalizing state with
  | nil => simp [withAnchor] at h
  | append_singleton ops op ih =>
    obtain ⟨counted, hholds, -⟩ := holds_step lib (quorumConfig_run lib ops) ih op h
    exact ⟨counted, hholds⟩

/-- The receipts that a Tier-1 Delta rests on. -/
structure Evidence (c : QuorumConfig) (start : DurabilitySubsystem) (ops : List (DurabilityOp Γ))
    (id : DeltaId) (state : DeltaDurabilityState) (counted : List CountedReceipt) : Prop where
  receipts : state.quorum.receipts = counted.map Prod.fst
  enough : c.k ≤ counted.length
  issuers : (counted.map fun r => r.1.issuerDid).Nodup
  accepted : ∀ r ∈ counted, ∃ earlier nowSecs rest,
    ops = earlier ++ .receiveReceipt r.1 id nowSecs :: rest ∧
      Accepted lib (run (step lib) start earlier) id state.stateHash r
  diverse : (namedTags (counted.map Prod.snd)).card < c.spatialDiversityMin ∨
    c.requiredTags (counted.map Prod.snd) ≤ (namedTags (counted.map Prod.snd)).card ∧
      ∀ tag ∈ namedTags (counted.map Prod.snd),
        ((counted.map Prod.snd).count (some tag) : ℚ) / counted.length ≤ c.maxSingleSectorFraction
  attested : Attested (run (step lib) start ops).anchor → ∀ earlier rest, ops = earlier ++ rest →
    Attested (run (step lib) start earlier).anchor

/-- A Delta becomes Tier-1 on evidence only, and a receipt of an issuer that was counted before
changes no entry of the tier table. -/
theorem tier1_on_evidence (c : QuorumConfig) (anchor : Option AnchorAttestedLocation)
    (ops : List (DurabilityOp Γ)) (id : DeltaId) :
    (∀ op, (run (step lib) (withAnchor c anchor) ops).durabilityTier id ≠ .tier1 →
      (run (step lib) (withAnchor c anchor) (ops ++ [op])).durabilityTier id = .tier1 →
      ∃ state counted,
        (run (step lib) (withAnchor c anchor) (ops ++ [op])).states.lookup id = some state ∧
        Evidence lib c (withAnchor c anchor) (ops ++ [op]) id state counted) ∧
    ∀ receipt nowSecs state,
      (run (step lib) (withAnchor c anchor) ops).states.lookup id = some state →
      receipt.issuerDid ∈ state.quorum.receipts.map DurabilityReceipt.issuerDid →
      ∀ id', (run (step lib) (withAnchor c anchor)
          (ops ++ [.receiveReceipt receipt id nowSecs])).states.lookup id' =
        (run (step lib) (withAnchor c anchor) ops).states.lookup id' := by
  constructor
  · intro op hbefore hafter
    cases hlookup : (run (step lib) (withAnchor c anchor) (ops ++ [op])).states.lookup id with
    | none => simp [durabilityTier, hlookup] at hafter
    | some state =>
      rw [durabilityTier_of_lookup hlookup] at hafter
      obtain ⟨counted, hholds, hsuffices⟩ := holds_step lib (quorumConfig_run lib ops)
        (holds_run lib c anchor ops id) op hlookup
      obtain ⟨-, henough, hdiverse⟩ := hsuffices hafter hbefore
      have hlength : (counted.map Prod.snd).length = counted.length := List.length_map _
      rw [hlength] at henough
      refine ⟨state, counted, rfl, hholds.tracks.receipts, henough, hholds.tracks.nodup,
        hholds.accepted, ?_, fun hattested earlier rest hsplit => ?_⟩
      · rw [QuorumConfig.Diverse, QuorumConfig.card_lt_requiredTags_iff, hlength] at hdiverse
        exact hdiverse
      · rw [hsplit, run_append] at hattested
        exact attested_of_run lib rest hattested
  · intro receipt nowSecs state hlookup hseen id'
    obtain ⟨counted, hholds⟩ := holds_run lib c anchor ops id state hlookup
    have hissuer : receipt.issuerDid ∈ state.quorum.seenIssuers := by
      rw [hholds.tracks.receipts, List.map_map] at hseen
      rw [hholds.tracks.issuers]
      exact hseen
    rw [run_append, run_cons, run_nil]
    exact lookup_receiveReceipt_of_seen lib hlookup (hholds.repeated lib hissuer) nowSecs id'

section Sample

def sampleToken (location : String) : BeaconToken :=
  ⟨"beacon", List.replicate 64 0, 3, location, 0⟩

def sampleReceipt (issuer location : String) : DurabilityReceipt :=
  ⟨0, 7, issuer, List.replicate 64 0, some "squad", some (sampleToken location), 0⟩

def sampleAnchor : AnchorAttestedLocation := .new [⟨"beacon", CrdtEngine.sampleKey 1⟩] 3

def samplePeers : AList fun _ : Did => KeyBytes :=
  (AList.insert "x" ⟨List.replicate 32 2, by simp⟩ ∅).insert "y" ⟨List.replicate 32 3, by simp⟩

/-- Two receipts from two places suffice. -/
theorem tier1_on_evidence_sample :
    let lib := (CrdtEngine.sampleLibraries []).toIdentityLibraries
    let c : QuorumConfig := ⟨2, 3, 2, 1 / 2⟩
    let ops : List (DurabilityOp Unit) :=
      [.registerDelta 7 7 [1] [] samplePeers, .receiveReceipt (sampleReceipt "x" "north") 7 0]
    let op : DurabilityOp Unit := .receiveReceipt (sampleReceipt "y" "south") 7 0
    ∃ state counted,
      (run (step lib) (withAnchor c sampleAnchor) (ops ++ [op])).states.lookup 7 = some state ∧
      Evidence lib c (withAnchor c sampleAnchor) (ops ++ [op]) 7 state counted :=
  (tier1_on_evidence (CrdtEngine.sampleLibraries []).toIdentityLibraries ⟨2, 3, 2, 1 / 2⟩
    (some sampleAnchor) [.registerDelta 7 7 [1] [] samplePeers,
      .receiveReceipt (sampleReceipt "x" "north") 7 0] 7).1
    (.receiveReceipt (sampleReceipt "y" "south") 7 0) (by decide +kernel) (by decide +kernel)

end Sample

end DurabilitySubsystem
end TirBase.Quorum
