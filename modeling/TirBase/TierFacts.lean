import TirBase.Tier1Soundness

/-! # What the tier table says

The tier of a Delta is told by what was learned of the Delta alone: that it was registered, which
receipts were accepted for it, and that the ledger acknowledged it. What came before its last
registration does not count. -/
namespace TirBase.Quorum
open TransitionRuns Tier1QuorumTracker

inductive TierFact
  | registered
  | received (receipt : CountedReceipt)
  | acknowledged
  deriving DecidableEq

structure TierRecord where
  counted : List CountedReceipt
  acknowledged : Bool

def countFirst (counted : List CountedReceipt) (receipt : CountedReceipt) : List CountedReceipt :=
  if receipt.1.issuerDid ∈ counted.map fun r => r.1.issuerDid then counted else counted ++ [receipt]

def Sufficed (c : QuorumConfig) (counted : List CountedReceipt) : Prop :=
  ∃ earlier, earlier <+: counted.map Prod.snd ∧ c.Suffices earlier

namespace TierRecord

def learn : Option TierRecord → TierFact → Option TierRecord
  | _, .registered => some ⟨[], false⟩
  | r, .received receipt => r.map fun r => { r with counted := countFirst r.counted receipt }
  | r, .acknowledged => r.map fun r => { r with acknowledged := true }

inductive Shows (c : QuorumConfig) (r : TierRecord) : DurabilityTier → Prop
  | tier2 (acknowledged : r.acknowledged = true) : Shows c r .tier2
  | tier1 (pending : r.acknowledged = false) (sufficed : Sufficed c r.counted) : Shows c r .tier1
  | uncommitted (pending : r.acknowledged = false) (few : ¬Sufficed c r.counted) :
    Shows c r .uncommitted

variable {c : QuorumConfig} {r : TierRecord} {tier : DurabilityTier}

theorem Shows.tier2_iff (h : r.Shows c tier) : tier = .tier2 ↔ r.acknowledged = true := by
  cases h <;> simp_all

theorem Shows.tier1_iff (h : r.Shows c tier) :
    tier = .tier1 ↔ r.acknowledged = false ∧ Sufficed c r.counted := by
  cases h <;> simp_all

end TierRecord

section Facts

def receipts : List TierFact → List CountedReceipt
  | [] => []
  | .received receipt :: facts => receipt :: receipts facts
  | _ :: facts => receipts facts

/-- The receipts that count: the first one of every issuer. -/
def firstReceipts (facts : List TierFact) : List CountedReceipt :=
  (receipts facts).foldl countFirst []

/-- The facts that were learned from the last registration on. -/
def Since (facts since : List TierFact) : Prop :=
  (∃ before, facts = before ++ .registered :: since) ∧ .registered ∉ since

variable {facts since : List TierFact}

theorem receipts_append (facts facts' : List TierFact) :
    receipts (facts ++ facts') = receipts facts ++ receipts facts' := by
  induction facts with
  | nil => rfl
  | cons fact facts ih => cases fact <;> simp [receipts, ih]

theorem since_concat_registered : Since (facts ++ [.registered]) since ↔ since = [] := by
  constructor
  · rintro ⟨⟨before, hsplit⟩, hnone⟩
    induction since using List.reverseRecOn with
    | nil => rfl
    | append_singleton since last ih =>
      have hlast : last = .registered := by
        have hends := congrArg List.getLast? hsplit
        simpa [List.getLast?_append, List.getLast?_cons] using hends.symm
      exact absurd (by simp [hlast]) hnone
  · rintro rfl
    exact ⟨⟨facts, rfl⟩, List.not_mem_nil⟩

/-- Another fact than a registration comes after the last registration, if there is one. -/
theorem since_concat (fact : TierFact) (hfact : fact ≠ .registered) :
    Since (facts ++ [fact]) since ↔ ∃ earlier, Since facts earlier ∧ since = earlier ++ [fact] := by
  constructor
  · rintro ⟨⟨before, hsplit⟩, hnone⟩
    induction since using List.reverseRecOn with
    | nil =>
      have hends := (List.append_inj' hsplit rfl).2
      exact absurd (List.singleton_inj.mp hends) hfact
    | append_singleton earlier last ih =>
      rw [← List.cons_append, ← List.append_assoc] at hsplit
      obtain ⟨hfacts, hends⟩ := List.append_inj' hsplit rfl
      refine ⟨earlier, ⟨⟨before, hfacts⟩, fun h => hnone (List.mem_append_left _ h)⟩, ?_⟩
      rw [hends]
  · rintro ⟨earlier, ⟨⟨before, rfl⟩, hnone⟩, rfl⟩
    refine ⟨⟨before, by simp⟩, fun h => ?_⟩
    rcases List.mem_append.mp h with h | h
    · exact hnone h
    · exact hfact (List.mem_singleton.mp h).symm

/-- The record of what was learned holds the receipts and the acknowledgement since the last
registration. -/
theorem foldl_learn_iff (facts : List TierFact) (r : TierRecord) :
    facts.foldl TierRecord.learn none = some r ↔ ∃ since, Since facts since ∧
      r = ⟨firstReceipts since, decide (.acknowledged ∈ since)⟩ := by
  induction facts using List.reverseRecOn generalizing r with
  | nil =>
    constructor
    · intro h
      cases h
    · rintro ⟨since, ⟨⟨before, hsplit⟩, -⟩, -⟩
      simp at hsplit
  | append_singleton facts fact ih =>
    rw [List.foldl_append, List.foldl_cons, List.foldl_nil]
    cases fact with
    | registered =>
      simp only [TierRecord.learn, Option.some.injEq, since_concat_registered, exists_eq_left]
      exact eq_comm
    | received receipt =>
      simp only [TierRecord.learn, Option.map_eq_some_iff, ih,
        since_concat (.received receipt) (by simp)]
      constructor
      · rintro ⟨_, ⟨since, hsince, rfl⟩, rfl⟩
        refine ⟨since ++ [.received receipt], ⟨since, hsince, rfl⟩, ?_⟩
        simp [firstReceipts, receipts_append, receipts]
      · rintro ⟨_, ⟨since, hsince, rfl⟩, rfl⟩
        refine ⟨_, ⟨since, hsince, rfl⟩, ?_⟩
        simp [firstReceipts, receipts_append, receipts]
    | acknowledged =>
      simp only [TierRecord.learn, Option.map_eq_some_iff, ih,
        since_concat .acknowledged (by simp)]
      constructor
      · rintro ⟨_, ⟨since, hsince, rfl⟩, rfl⟩
        refine ⟨since ++ [.acknowledged], ⟨since, hsince, rfl⟩, ?_⟩
        simp [firstReceipts, receipts_append, receipts]
      · rintro ⟨_, ⟨since, hsince, rfl⟩, rfl⟩
        refine ⟨_, ⟨since, hsince, rfl⟩, ?_⟩
        simp [firstReceipts, receipts_append, receipts]

end Facts

namespace DurabilitySubsystem
variable {Γ : Type*} (lib : IdentityLibraries)

/-- The receipt as it is counted for the Delta, if all checks let it through. -/
def acceptedReceipt (d : DurabilitySubsystem) (receipt : DurabilityReceipt) (deltaId : DeltaId)
    (nowSecs : ℤ) : Option CountedReceipt :=
  match d.states.lookup deltaId with
  | none => none
  | some state =>
    match state.peerPublicKeys.lookup receipt.issuerDid with
    | none => none
    | some publicKey =>
      match verifyReceipt lib receipt publicKey state.stateHash with
      | .error _ => none
      | .ok () =>
        match (diversityTag lib d.anchor receipt deltaId nowSecs).1 with
        | .error _ => none
        | .ok tag => some (receipt, tag.or receipt.spatialTag)

def factsOf (id : DeltaId) (d : DurabilitySubsystem) : DurabilityOp Γ → List TierFact
  | .registerDelta deltaId _ _ _ _ => if deltaId = id then [.registered] else []
  | .receiveReceipt receipt deltaId nowSecs =>
    if deltaId = id then
      ((d.acceptedReceipt lib receipt deltaId nowSecs).map TierFact.received).toList
    else []
  | .onCloudAck deltaId => if deltaId = id then [.acknowledged] else []
  | .runCloudSyncCycle sendDelta refetch conn =>
    if d.cloudQueue.depth ≠ 0 ∧
        id ∈ (cloudSyncLoop sendDelta refetch d.cloudQueue conn).result.acknowledgedIds then
      [.acknowledged]
    else []
  | _ => []

def learned (id : DeltaId) (d : DurabilitySubsystem) (ops : List (DurabilityOp Γ)) :
    List TierFact :=
  emitted (fun d op => (d.step lib op, d.factsOf lib id op)) d ops

/-- The entry of a Delta is the one that its record stands for. -/
inductive Stands (c : QuorumConfig) : Option TierRecord → Option DeltaDurabilityState → Prop
  | unknown : Stands c none none
  | known {r : TierRecord} {state : DeltaDurabilityState}
      (tracks : state.quorum.Tracks c r.counted) (shows : r.Shows c state.tier) :
      Stands c (some r) (some state)

variable {c : QuorumConfig} {d : DurabilitySubsystem} {id deltaId : DeltaId}
  {record : Option TierRecord} {receipt : DurabilityReceipt} {nowSecs : ℤ}

theorem receiveReceipt_of_accepted {counted : CountedReceipt}
    (h : d.acceptedReceipt lib receipt deltaId nowSecs = some counted) :
    ∃ state tag anchor, d.states.lookup deltaId = some state ∧
      counted = (receipt, tag.or receipt.spatialTag) ∧
        d.receiveReceipt lib receipt deltaId nowSecs =
          (.ok ({ d with anchor := anchor }.countReceipt deltaId state receipt tag).1,
            ({ d with anchor := anchor }.countReceipt deltaId state receipt tag).2) := by
  unfold acceptedReceipt at h
  unfold receiveReceipt
  cases hlookup : d.states.lookup deltaId with
  | none => simp [hlookup] at h
  | some state =>
    simp only [hlookup] at h ⊢
    cases hkey : state.peerPublicKeys.lookup receipt.issuerDid with
    | none => simp [hkey] at h
    | some publicKey =>
      simp only [hkey] at h ⊢
      cases hverify : verifyReceipt lib receipt publicKey state.stateHash with
      | error e => simp [hverify] at h
      | ok u =>
        simp only [hverify] at h ⊢
        cases htag : diversityTag lib d.anchor receipt deltaId nowSecs with
        | mk answer anchor =>
          cases answer with
          | error e => simp [htag] at h
          | ok tag =>
            simp only [htag, Option.some.injEq] at h ⊢
            exact ⟨state, tag, anchor, rfl, h.symm, rfl⟩

/-- A receipt that is not let through changes no entry. -/
theorem states_receiveReceipt_of_refused
    (h : d.acceptedReceipt lib receipt deltaId nowSecs = none) :
    (d.receiveReceipt lib receipt deltaId nowSecs).2.states = d.states := by
  unfold acceptedReceipt at h
  unfold receiveReceipt
  cases hlookup : d.states.lookup deltaId with
  | none => rfl
  | some state =>
    simp only [hlookup] at h ⊢
    cases hkey : state.peerPublicKeys.lookup receipt.issuerDid with
    | none => rfl
    | some publicKey =>
      simp only [hkey] at h ⊢
      cases hverify : verifyReceipt lib receipt publicKey state.stateHash with
      | error e => rfl
      | ok u =>
        simp only [hverify] at h ⊢
        cases htag : diversityTag lib d.anchor receipt deltaId nowSecs with
        | mk answer anchor =>
          cases answer with
          | error e => rfl
          | ok tag => simp [htag] at h

theorem lookup_countReceipt_of_ne (hid : id ≠ deltaId) (state : DeltaDurabilityState)
    (tag : Option String) :
    (d.countReceipt deltaId state receipt tag).2.states.lookup id = d.states.lookup id := by
  unfold countReceipt
  dsimp only
  split_ifs <;> exact AList.lookup_insert_ne hid

/-- The first quorum makes an uncommitted Delta Tier-1. -/
theorem lookup_countReceipt (deltaId : DeltaId) (state : DeltaDurabilityState)
    (tag : Option String) :
    ∃ state', (d.countReceipt deltaId state receipt tag).2.states.lookup deltaId = some state' ∧
      state'.quorum = (state.quorum.addReceiptWithTag receipt tag).2 ∧
      state'.tier = if (state.quorum.addReceiptWithTag receipt tag).1 = true ∧
        state.tier = .uncommitted then .tier1 else state.tier := by
  unfold countReceipt
  dsimp only
  split_ifs
  · exact ⟨_, AList.lookup_insert _, rfl, rfl⟩
  · exact ⟨_, AList.lookup_insert _, rfl, rfl⟩

theorem sufficed_concat {counted : List CountedReceipt} {receipt : CountedReceipt} :
    Sufficed c (counted ++ [receipt]) ↔
      Sufficed c counted ∨ c.Suffices ((counted ++ [receipt]).map Prod.snd) := by
  rw [Sufficed, Sufficed, List.map_append, List.map_singleton]
  constructor
  · rintro ⟨earlier, hearlier, hsuffices⟩
    rcases List.prefix_concat_iff.mp hearlier with rfl | hearlier
    · exact .inr hsuffices
    · exact .inl ⟨earlier, hearlier, hsuffices⟩
  · rintro (⟨earlier, hearlier, hsuffices⟩ | hsuffices)
    · exact ⟨earlier, hearlier.trans (List.prefix_append _ _), hsuffices⟩
    · exact ⟨_, List.prefix_refl _, hsuffices⟩

/-- The tracker and the tier follow the record when a receipt is counted. -/
theorem Stands.count {r : TierRecord} {state state' : DeltaDurabilityState} {tag : Option String}
    (htracks : state.quorum.Tracks c r.counted) (hshows : r.Shows c state.tier)
    (hquorum : state'.quorum = (state.quorum.addReceiptWithTag receipt tag).2)
    (htier : state'.tier = if (state.quorum.addReceiptWithTag receipt tag).1 = true ∧
      state.tier = .uncommitted then .tier1 else state.tier) :
    Stands c (some { r with counted := countFirst r.counted (receipt, tag.or receipt.spatialTag) })
      (some state') := by
  by_cases hseen : receipt.issuerDid ∈ state.quorum.seenIssuers
  · have hmem : receipt.issuerDid ∈ r.counted.map fun r => r.1.issuerDid := by
      rwa [htracks.issuers] at hseen
    rw [addReceiptWithTag_of_seen hseen] at hquorum htier
    have hsame : state'.tier = state.tier := by
      rw [htier, if_neg]
      rintro ⟨hachieved, huncommitted⟩
      rw [huncommitted] at hshows
      cases hshows with
      | uncommitted hpending hfew => exact hfew (htracks.achieved.mp hachieved)
    rw [countFirst, if_pos hmem]
    exact .known (hquorum ▸ htracks) (hsame ▸ hshows)
  · have hmem : receipt.issuerDid ∉ r.counted.map fun r => r.1.issuerDid := by
      rwa [htracks.issuers] at hseen
    obtain ⟨htracks', hadded⟩ := htracks.addReceiptWithTag hseen tag
    rw [countFirst, if_neg hmem]
    refine .known (hquorum ▸ htracks') ?_
    rw [htier]
    generalize state.tier = before at hshows
    cases hshows with
    | tier2 hacknowledged =>
      rw [if_neg (by simp)]
      exact .tier2 hacknowledged
    | tier1 hpending hsufficed =>
      rw [if_neg (by simp)]
      exact .tier1 hpending (sufficed_concat.mpr (.inl hsufficed))
    | uncommitted hpending hfew =>
      have hnot : state.quorum.tier1Achieved = false :=
        Bool.eq_false_iff.mpr fun hachieved => hfew (htracks.achieved.mp hachieved)
      by_cases hnow : c.Suffices
          ((r.counted ++ [(receipt, tag.or receipt.spatialTag)]).map Prod.snd)
      · rw [if_pos ⟨hadded.mpr ⟨hnot, hnow⟩, rfl⟩]
        exact .tier1 hpending (sufficed_concat.mpr (.inr hnow))
      · rw [if_neg fun h => hnow (hadded.mp h.1).2]
        exact .uncommitted hpending fun h => (sufficed_concat.mp h).elim hfew hnow

theorem lookup_onCloudAck_of_ne (hid : id ≠ deltaId) :
    (d.onCloudAck deltaId).states.lookup id = d.states.lookup id := by
  unfold onCloudAck
  cases d.states.lookup deltaId with
  | none => rfl
  | some state => exact AList.lookup_insert_ne hid

theorem Stands.acknowledge (h : Stands c record (d.states.lookup id)) :
    Stands c (TierRecord.learn record .acknowledged) ((d.onCloudAck id).states.lookup id) := by
  unfold onCloudAck
  cases hlookup : d.states.lookup id with
  | none =>
    rw [hlookup] at h
    cases h
    rw [hlookup]
    exact .unknown
  | some state =>
    rw [hlookup] at h
    cases h with
    | known htracks hshows =>
      dsimp only
      rw [AList.lookup_insert]
      exact .known htracks (.tier2 rfl)

theorem TierRecord.learn_acknowledged_twice (record : Option TierRecord) :
    TierRecord.learn (TierRecord.learn record .acknowledged) .acknowledged =
      TierRecord.learn record .acknowledged := by
  cases record <;> rfl

theorem Stands.acknowledgeAll (ids : List DeltaId) (h : Stands c record (d.states.lookup id)) :
    Stands c (if id ∈ ids then TierRecord.learn record .acknowledged else record)
      ((ids.foldl onCloudAck d).states.lookup id) := by
  induction ids generalizing d record with
  | nil => exact h
  | cons first ids ih =>
    by_cases hfirst : id = first
    · subst hfirst
      have hlater := ih h.acknowledge
      rw [TierRecord.learn_acknowledged_twice, ite_self] at hlater
      rwa [if_pos List.mem_cons_self]
    · rw [← lookup_onCloudAck_of_ne hfirst] at h
      have hlater := ih h
      simpa [hfirst] using hlater

/-- The entry of a Delta follows what the operation tells of the Delta. -/
theorem stands_step (op : DurabilityOp Γ) (hconfig : d.quorumConfig = c)
    (h : Stands c record (d.states.lookup id)) :
    Stands c ((d.factsOf lib id op).foldl TierRecord.learn record)
      ((d.step lib op).states.lookup id) := by
  cases op with
  | registerDelta deltaId stateHash bytes parents keys =>
    obtain ⟨queue, hregistered⟩ := exists_registerDelta d deltaId stateHash bytes parents keys
    dsimp only [step, factsOf]
    rw [hregistered]
    by_cases hid : deltaId = id
    · subst hid
      rw [if_pos rfl, AList.lookup_insert]
      refine .known ?_ (.uncommitted rfl fun ⟨earlier, hearlier, hsuffices⟩ => ?_)
      · dsimp only [freshState]
        rw [hconfig]
        exact tracks_new c
      · exact hsuffices.1 (List.prefix_nil.mp hearlier)
    · rw [if_neg hid, AList.lookup_insert_ne (Ne.symm hid)]
      exact h
  | registerPeerKey deltaId peerDid publicKey =>
    dsimp only [step, factsOf, registerPeerKey]
    cases hlookup : d.states.lookup deltaId with
    | none => exact h
    | some state =>
      by_cases hid : id = deltaId
      · subst hid
        rw [hlookup] at h
        dsimp only
        rw [AList.lookup_insert]
        cases h with
        | known htracks hshows => exact .known htracks hshows
      · dsimp only
        rw [AList.lookup_insert_ne hid]
        exact h
  | receiveReceipt receipt deltaId nowSecs =>
    dsimp only [step, factsOf]
    cases haccepted : d.acceptedReceipt lib receipt deltaId nowSecs with
    | none =>
      rw [states_receiveReceipt_of_refused lib haccepted]
      simpa using h
    | some counted =>
      obtain ⟨state, tag, anchor, hlookup, rfl, hreceive⟩ := receiveReceipt_of_accepted lib haccepted
      rw [hreceive]
      by_cases hid : deltaId = id
      · subst hid
        rw [if_pos rfl]
        rw [hlookup] at h
        obtain ⟨state', hlookup', hquorum, htier⟩ :=
          lookup_countReceipt (d := { d with anchor := anchor }) deltaId state tag
        rw [hlookup']
        cases h with
        | known htracks hshows => exact Stands.count htracks hshows hquorum htier
      · rw [if_neg hid, lookup_countReceipt_of_ne (Ne.symm hid)]
        exact h
  | onCloudAck deltaId =>
    dsimp only [step, factsOf]
    by_cases hid : deltaId = id
    · subst hid
      rw [if_pos rfl]
      exact h.acknowledge
    · rw [if_neg hid, lookup_onCloudAck_of_ne (Ne.symm hid)]
      exact h
  | runCloudSyncCycle sendDelta refetch conn =>
    dsimp only [step, factsOf, runCloudSyncCycle]
    by_cases hempty : d.cloudQueue.depth = 0
    · rw [if_pos hempty, if_neg fun h => h.1 hempty]
      exact h
    · have hall := Stands.acknowledgeAll
        (d := { d with cloudQueue := (cloudSyncLoop sendDelta refetch d.cloudQueue conn).queue })
        (cloudSyncLoop sendDelta refetch d.cloudQueue conn).result.acknowledgedIds h
      rw [if_neg hempty]
      by_cases hmem : id ∈
          (cloudSyncLoop sendDelta refetch d.cloudQueue conn).result.acknowledgedIds
      · rw [if_pos hmem] at hall
        rw [if_pos ⟨hempty, hmem⟩]
        exact hall
      · rw [if_neg hmem] at hall
        rw [if_neg fun h => hmem h.2]
        exact hall
  | markCompacted deltaId => exact h
  | advanceEpoch newEpoch => exact h
  | onBeaconSignalLost timestamp peers => exact h

theorem stands_run (ops : List (DurabilityOp Γ)) (hconfig : d.quorumConfig = c)
    (h : Stands c record (d.states.lookup id)) :
    Stands c ((d.learned lib id ops).foldl TierRecord.learn record)
      ((run (step lib) d ops).states.lookup id) := by
  induction ops generalizing d record with
  | nil => exact h
  | cons op ops ih =>
    rw [learned, emitted_cons, List.foldl_append]
    exact ih ((quorumConfig_step lib d op).trans hconfig) (stands_step lib op hconfig h)

theorem durabilityTier_of_unknown (h : Stands c none (d.states.lookup id)) :
    d.durabilityTier id = .uncommitted := by
  rw [durabilityTier]
  cases hlookup : d.states.lookup id with
  | none => rfl
  | some state =>
    rw [hlookup] at h
    cases h

theorem shows_durabilityTier {r : TierRecord} (h : Stands c (some r) (d.states.lookup id)) :
    r.Shows c (d.durabilityTier id) := by
  cases hlookup : d.states.lookup id with
  | none =>
    rw [hlookup] at h
    cases h
  | some state =>
    rw [hlookup] at h
    rw [durabilityTier_of_lookup hlookup]
    cases h with
    | known htracks hshows => exact hshows

/-- In every run a Delta is Tier-2 exactly when the ledger acknowledged it since its last
registration. It is Tier-1 exactly when the ledger did not, and the first receipts that were accepted
of each issuer since then sufficed at some moment. -/
theorem durabilityTier_run_iff (c : QuorumConfig) (anchor : Option AnchorAttestedLocation)
    (ops : List (DurabilityOp Γ)) (id : DeltaId) :
    let facts := learned lib id (withAnchor c anchor) ops
    let tier := (run (step lib) (withAnchor c anchor) ops).durabilityTier id
    (tier = .tier2 ↔ ∃ since, Since facts since ∧ .acknowledged ∈ since) ∧
      (tier = .tier1 ↔ ∃ since, Since facts since ∧ .acknowledged ∉ since ∧
        Sufficed c (firstReceipts since)) := by
  intro facts tier
  have hstands : Stands c (facts.foldl TierRecord.learn none)
      ((run (step lib) (withAnchor c anchor) ops).states.lookup id) :=
    stands_run lib ops rfl .unknown
  have hknown : ∀ {since}, Since facts since → facts.foldl TierRecord.learn none =
      some ⟨firstReceipts since, decide (.acknowledged ∈ since)⟩ := fun {since} hsince =>
    (foldl_learn_iff facts _).mpr ⟨since, hsince, rfl⟩
  cases hrecord : facts.foldl TierRecord.learn none with
  | none =>
    rw [hrecord] at hstands hknown
    have htier : tier = .uncommitted := durabilityTier_of_unknown hstands
    rw [htier]
    constructor
    · exact iff_of_false (by simp) fun ⟨since, hsince, _⟩ => by cases hknown hsince
    · exact iff_of_false (by simp) fun ⟨since, hsince, _⟩ => by cases hknown hsince
  | some r =>
    obtain ⟨since, hsince, rfl⟩ := (foldl_learn_iff facts r).mp hrecord
    rw [hrecord] at hstands
    have hshows := shows_durabilityTier hstands
    have hsame : ∀ {since'}, Since facts since' →
        firstReceipts since' = firstReceipts since ∧
          (.acknowledged ∈ since' ↔ .acknowledged ∈ since) := by
      intro since' hsince'
      have heq := (hknown hsince').symm.trans hrecord
      simpa using heq
    constructor
    · rw [hshows.tier2_iff, decide_eq_true_iff]
      constructor
      · exact fun hacknowledged => ⟨since, hsince, hacknowledged⟩
      · rintro ⟨since', hsince', hacknowledged⟩
        exact (hsame hsince').2.mp hacknowledged
    · rw [hshows.tier1_iff, decide_eq_false_iff_not]
      constructor
      · rintro ⟨hpending, hsufficed⟩
        exact ⟨since, hsince, hpending, hsufficed⟩
      · rintro ⟨since', hsince', hpending, hsufficed⟩
        rw [(hsame hsince').1, (hsame hsince').2] at *
        exact ⟨hpending, hsufficed⟩

end DurabilitySubsystem
end TirBase.Quorum
