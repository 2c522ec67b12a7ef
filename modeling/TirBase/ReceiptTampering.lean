import TirBase.Tier1Soundness

/-! # Altered receipts

The signature of a receipt covers the state hash and the identifier. A relay can put another tag or
another token on it, and the receipt counts under these. -/
namespace TirBase

namespace SpatialDiversityTracker
variable {t : SpatialDiversityTracker} {tag tag' : Option String}

theorem lookup_add_ne (t : SpatialDiversityTracker) {name : String} (h : tag ≠ some name) :
    (t.add tag).tagCounts.lookup name = t.tagCounts.lookup name := by
  cases tag with
  | none => rfl
  | some new =>
    have hne : name ≠ new := fun hsame => h (congrArg some hsame.symm)
    exact AList.lookup_insert_ne hne

theorem lookup_add_self (t : SpatialDiversityTracker) (name : String) :
    (t.add (some name)).tagCounts.lookup name ≠ t.tagCounts.lookup name := by
  intro h
  unfold add at h
  dsimp only at h
  rw [AList.lookup_insert] at h
  rw [← h] at h
  simp at h

/-- A receipt counts under one tag only. -/
theorem add_injective (h : t.add tag = t.add tag') : tag = tag' := by
  cases tag with
  | some name =>
    by_contra hne
    have hself := lookup_add_self t name
    rw [h] at hself
    exact hself (lookup_add_ne t fun hsame => hne hsame.symm)
  | none =>
    cases tag' with
    | none => rfl
    | some name =>
      have hself := lookup_add_self t name
      rw [← h] at hself
      exact absurd (lookup_add_ne t (by simp)) hself

end SpatialDiversityTracker

namespace Tier1QuorumTracker
variable {t : Tier1QuorumTracker} {receipt receipt' : DurabilityReceipt} {tag tag' : Option String}

theorem spatial_addReceiptWithTag (h : receipt.issuerDid ∉ t.seenIssuers) (tag : Option String) :
    (t.addReceiptWithTag receipt tag).2.spatial = t.spatial.add (tag.or receipt.spatialTag) := by
  unfold addReceiptWithTag
  rw [if_neg h]
  dsimp only
  split_ifs <;> rfl

theorem addReceiptWithTag_congr (hissuer : receipt'.issuerDid = receipt.issuerDid)
    (htag : tag.or receipt.spatialTag = tag'.or receipt'.spatialTag) :
    (t.addReceiptWithTag receipt tag).1 = (t.addReceiptWithTag receipt' tag').1 ∧
      (t.addReceiptWithTag receipt tag).2.spatial =
        (t.addReceiptWithTag receipt' tag').2.spatial := by
  unfold addReceiptWithTag
  dsimp only [effectiveMinDistinct]
  rw [hissuer, htag]
  simp only [List.length_append, List.length_singleton]
  split_ifs <;> exact ⟨rfl, rfl⟩

end Tier1QuorumTracker

namespace Quorum

/-- The receipts agree on all that is signed, and on the signature. -/
structure AlteredCopy (receipt receipt' : DurabilityReceipt) : Prop where
  issuerDid : receipt'.issuerDid = receipt.issuerDid
  stateHash : receipt'.stateHash = receipt.stateHash
  id : receipt'.id = receipt.id
  issuerSignature : receipt'.issuerSignature = receipt.issuerSignature

/-- The tag that a receipt counts under: while beacons attest locations that of its token. -/
def countedUnder (anchor : Option AnchorAttestedLocation) (receipt : DurabilityReceipt) :
    Option String :=
  match anchor with
  | none => receipt.spatialTag
  | some a =>
    match a.mode with
    | .squadTagFallback => receipt.spatialTag
    | .beaconAttested => receipt.beaconToken.map BeaconToken.locationClaim

namespace DurabilitySubsystem

/-- The tier of a Delta and the tags counted for it. -/
def durabilityView (d : DurabilitySubsystem) (id : DeltaId) :
    Option (DurabilityTier × SpatialDiversityTracker) :=
  (d.states.lookup id).map fun state => (state.tier, state.quorum.spatial)

variable {lib : IdentityLibraries} {d : DurabilitySubsystem} {receipt receipt' : DurabilityReceipt}
  {deltaId : DeltaId} {state : DeltaDurabilityState} {tag tag' : Option String}

theorem Anchored.countedUnder {anchor : Option AnchorAttestedLocation}
    (h : Anchored lib receipt anchor tag) :
    tag.or receipt.spatialTag = countedUnder anchor receipt := by
  cases h with
  | disabled => rfl
  | fallback mode => simp [Quorum.countedUnder, mode]
  | attested mode carried verified => simp [Quorum.countedUnder, mode, carried]

/-- After a receipt that passes for a registered Delta, only the entry of the Delta may look
different. -/
theorem durabilityView_receiveReceipt {nowSecs : ℤ} {b : Bool}
    (hok : (d.receiveReceipt lib receipt deltaId nowSecs).1 = .ok b)
    (hlookup : d.states.lookup deltaId = some state) :
    ∃ tag, Anchored lib receipt d.anchor tag ∧ ∀ id,
      (d.receiveReceipt lib receipt deltaId nowSecs).2.durabilityView id =
        if id = deltaId then
          some (if (state.quorum.addReceiptWithTag receipt tag).1 = true ∧
              state.tier = .uncommitted then .tier1 else state.tier,
            (state.quorum.addReceiptWithTag receipt tag).2.spatial)
        else d.durabilityView id := by
  rcases receiveReceipt_cases lib d receipt deltaId nowSecs with
    ⟨-, hrefused⟩ | ⟨state', tag, anchor, hadmitted, -, hcounted⟩
  · rw [(hrefused b hok).1] at hlookup
    cases hlookup
  · obtain rfl : state' = state := Option.some.inj (hadmitted.registered.symm.trans hlookup)
    refine ⟨tag, hadmitted.anchored, fun id => ?_⟩
    rw [hcounted]
    unfold countReceipt durabilityView
    by_cases hid : id = deltaId
    · rw [if_pos hid, hid]
      dsimp only
      split_ifs <;> rw [AList.lookup_insert] <;> rfl
    · rw [if_neg hid]
      dsimp only
      split_ifs <;> rw [AList.lookup_insert_ne hid]

/-- Two receipts that pass and agree on what is signed have the same effect exactly when the Delta
is unknown, the issuer was counted before, or both count under the same tag. -/
theorem altered_receipt_iff (lib : IdentityLibraries) (d : DurabilitySubsystem)
    {receipt receipt' : DurabilityReceipt} (hcopy : AlteredCopy receipt receipt')
    (deltaId : DeltaId) {nowSecs nowSecs' : ℤ} {b b' : Bool}
    (hok : (d.receiveReceipt lib receipt deltaId nowSecs).1 = .ok b)
    (hok' : (d.receiveReceipt lib receipt' deltaId nowSecs').1 = .ok b') :
    (∀ id, (d.receiveReceipt lib receipt deltaId nowSecs).2.durabilityView id =
        (d.receiveReceipt lib receipt' deltaId nowSecs').2.durabilityView id) ↔
      ∀ state, d.states.lookup deltaId = some state →
        receipt.issuerDid ∈ state.quorum.seenIssuers ∨
          countedUnder d.anchor receipt = countedUnder d.anchor receipt' := by
  cases hlookup : d.states.lookup deltaId with
  | none =>
    simp [receiveReceipt, hlookup]
  | some state =>
    obtain ⟨tag, hanchored, hview⟩ := durabilityView_receiveReceipt hok hlookup
    obtain ⟨tag', hanchored', hview'⟩ := durabilityView_receiveReceipt hok' hlookup
    constructor
    · intro hsame state' hstate'
      cases hstate'
      by_cases hseen : receipt.issuerDid ∈ state.quorum.seenIssuers
      · exact .inl hseen
      · have hentry := hsame deltaId
        rw [hview, hview', if_pos rfl, if_pos rfl, Option.some.injEq, Prod.mk.injEq] at hentry
        have hspatial := hentry.2
        rw [Tier1QuorumTracker.spatial_addReceiptWithTag hseen,
          Tier1QuorumTracker.spatial_addReceiptWithTag (hcopy.issuerDid ▸ hseen)] at hspatial
        have htag := SpatialDiversityTracker.add_injective hspatial
        rw [Anchored.countedUnder hanchored, Anchored.countedUnder hanchored'] at htag
        exact .inr htag
    · intro hcondition id
      have heffect : (state.quorum.addReceiptWithTag receipt tag).1 =
            (state.quorum.addReceiptWithTag receipt' tag').1 ∧
          (state.quorum.addReceiptWithTag receipt tag).2.spatial =
            (state.quorum.addReceiptWithTag receipt' tag').2.spatial := by
        rcases hcondition state rfl with hseen | htag
        · rw [Tier1QuorumTracker.addReceiptWithTag_of_seen hseen,
            Tier1QuorumTracker.addReceiptWithTag_of_seen (hcopy.issuerDid ▸ hseen)]
          exact ⟨rfl, rfl⟩
        · rw [← Anchored.countedUnder hanchored, ← Anchored.countedUnder hanchored'] at htag
          exact Tier1QuorumTracker.addReceiptWithTag_congr hcopy.issuerDid htag
      rw [hview, hview', heffect.1, heffect.2]

section Sample

def sampleOneReceipt : DurabilitySubsystem :=
  let lib := (CrdtEngine.sampleLibraries []).toIdentityLibraries
  let d := ((withAnchor ⟨2, 3, 1, 1 / 2⟩ none).registerDelta 7 7 [1] [] samplePeers).2
  (d.receiveReceipt lib ⟨0, 7, "x", List.replicate 64 0, some "a", none, 0⟩ 7 0).2

def sampleSecond (squad : String) : DurabilityReceipt :=
  ⟨1, 7, "y", List.replicate 64 0, some squad, none, 0⟩

theorem sampleCopy : AlteredCopy (sampleSecond "a") (sampleSecond "b") := ⟨rfl, rfl, rfl, rfl⟩

theorem sampleSecond_first : (sampleOneReceipt.receiveReceipt
    (CrdtEngine.sampleLibraries []).toIdentityLibraries (sampleSecond "a") 7 0).1 = .ok false := by
  decide +kernel

theorem sampleSecond_second : (sampleOneReceipt.receiveReceipt
    (CrdtEngine.sampleLibraries []).toIdentityLibraries (sampleSecond "b") 7 0).1 = .ok true := by
  decide +kernel

/-- With another squad on it, the second receipt does not make the Delta Tier-1. -/
theorem altered_tag_decides : ¬∀ (lib : IdentityLibraries) (d : DurabilitySubsystem)
    (receipt receipt' : DurabilityReceipt), AlteredCopy receipt receipt' →
      ∀ (deltaId : DeltaId) (nowSecs : ℤ) (b b' : Bool),
        (d.receiveReceipt lib receipt deltaId nowSecs).1 = .ok b →
        (d.receiveReceipt lib receipt' deltaId nowSecs).1 = .ok b' →
        ∀ id, (d.receiveReceipt lib receipt deltaId nowSecs).2.durabilityView id =
          (d.receiveReceipt lib receipt' deltaId nowSecs).2.durabilityView id := by
  intro hall
  have hsame := hall (CrdtEngine.sampleLibraries []).toIdentityLibraries sampleOneReceipt
    (sampleSecond "a") (sampleSecond "b") sampleCopy 7 0 false true sampleSecond_first
    sampleSecond_second 7
  exact absurd (congrArg (Option.map Prod.fst) hsame) (by decide +kernel)

theorem altered_receipt_iff_sample :
    let lib := (CrdtEngine.sampleLibraries []).toIdentityLibraries
    (∀ id, (sampleOneReceipt.receiveReceipt lib (sampleSecond "a") 7 0).2.durabilityView id =
        (sampleOneReceipt.receiveReceipt lib (sampleSecond "b") 7 0).2.durabilityView id) ↔
      ∀ state, sampleOneReceipt.states.lookup 7 = some state →
        (sampleSecond "a").issuerDid ∈ state.quorum.seenIssuers ∨
          countedUnder sampleOneReceipt.anchor (sampleSecond "a") =
            countedUnder sampleOneReceipt.anchor (sampleSecond "b") :=
  altered_receipt_iff (CrdtEngine.sampleLibraries []).toIdentityLibraries sampleOneReceipt
    sampleCopy 7 sampleSecond_first sampleSecond_second

end Sample

end DurabilitySubsystem
end Quorum
end TirBase
