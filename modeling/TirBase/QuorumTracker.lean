import Mathlib
import TirBase.WireMessages
import TirBase.TransitionRuns

/-! # The Tier-1 quorum

Receipts are counted once an issuer, with the spatial tag they are counted under. Tier-1 is reached
when enough receipts are there and no tag has more than its share of them; it is never lost again. -/
namespace TirBase

/-- `spatialDiversityMin = 0` is the mark for a minimum that is not configured. -/
structure QuorumConfig where
  k : ℕ
  n : ℕ
  spatialDiversityMin : ℕ
  maxSingleSectorFraction : ℚ
  deriving DecidableEq

structure SpatialDiversityTracker where
  tagCounts : AList fun _ : String => ℕ
  untagged : ℕ
  deriving DecidableEq

namespace SpatialDiversityTracker

def new : SpatialDiversityTracker := ⟨∅, 0⟩

def add (t : SpatialDiversityTracker) : Option String → SpatialDiversityTracker
  | some tag => { t with tagCounts := t.tagCounts.insert tag ((t.tagCounts.lookup tag).getD 0 + 1) }
  | none => { t with untagged := t.untagged + 1 }

def distinctTagCount (t : SpatialDiversityTracker) : ℕ := t.tagCounts.keys.length

/-- With too few distinct tags the receipts are accepted as they are. -/
def satisfiesDiversity (t : SpatialDiversityTracker) (minTags : ℕ)
    (maxSingleSectorFraction : ℚ) (totalReceipts : ℕ) : Bool :=
  if t.distinctTagCount < minTags then true
  else if totalReceipts = 0 then false
  else t.tagCounts.entries.all fun e => !decide (maxSingleSectorFraction < e.2 / totalReceipts)

end SpatialDiversityTracker

structure Tier1QuorumTracker where
  config : QuorumConfig
  receipts : List DurabilityReceipt
  seenIssuers : List Did
  spatial : SpatialDiversityTracker
  tier1Achieved : Bool
  deriving DecidableEq

namespace Tier1QuorumTracker

def new (config : QuorumConfig) : Tier1QuorumTracker := ⟨config, [], [], .new, false⟩

def effectiveMinDistinct (t : Tier1QuorumTracker) : ℕ :=
  if t.config.spatialDiversityMin = 0 then min t.config.k t.spatial.distinctTagCount
  else t.config.spatialDiversityMin

/-- A second receipt of an issuer is ignored. -/
def addReceiptWithTag (t : Tier1QuorumTracker) (receipt : DurabilityReceipt)
    (diversityTag : Option String) : Bool × Tier1QuorumTracker :=
  if receipt.issuerDid ∈ t.seenIssuers then (t.tier1Achieved, t)
  else
    let t := { t with
      spatial := t.spatial.add (diversityTag.or receipt.spatialTag)
      seenIssuers := t.seenIssuers ++ [receipt.issuerDid]
      receipts := t.receipts ++ [receipt] }
    if t.tier1Achieved = false ∧ t.config.k ≤ t.receipts.length then
      if t.spatial.satisfiesDiversity t.effectiveMinDistinct t.config.maxSingleSectorFraction
          t.receipts.length then (true, { t with tier1Achieved := true })
      else (false, t)
    else (false, t)

def isTier1 (t : Tier1QuorumTracker) : Bool := t.tier1Achieved

end Tier1QuorumTracker

def namedTags (tags : List (Option String)) : Finset String := tags.reduceOption.toFinset

@[simp] theorem mem_namedTags {tags : List (Option String)} {tag : String} :
    tag ∈ namedTags tags ↔ some tag ∈ tags := by
  simp [namedTags, List.reduceOption_mem_iff]

namespace QuorumConfig

/-- The number of distinct tags that the receipts need. -/
def requiredTags (c : QuorumConfig) (tags : List (Option String)) : ℕ :=
  if c.spatialDiversityMin = 0 then min c.k (namedTags tags).card else c.spatialDiversityMin

/-- Fewer tags than configured, or every tag covers no more than its share of the receipts. -/
def Diverse (c : QuorumConfig) (tags : List (Option String)) : Prop :=
  (namedTags tags).card < c.requiredTags tags ∨
    c.requiredTags tags ≤ (namedTags tags).card ∧
      ∀ tag ∈ namedTags tags, (tags.count (some tag) : ℚ) / tags.length ≤ c.maxSingleSectorFraction

def Suffices (c : QuorumConfig) (tags : List (Option String)) : Prop :=
  tags ≠ [] ∧ c.k ≤ tags.length ∧ c.Diverse tags

instance (c : QuorumConfig) (tags : List (Option String)) : Decidable (c.Suffices tags) :=
  inferInstanceAs (Decidable (_ ∧ _ ∧ (_ ∨ _ ∧ _)))

/-- Fewer tags than required are fewer than configured. -/
theorem card_lt_requiredTags_iff {c : QuorumConfig} {tags : List (Option String)} :
    (namedTags tags).card < c.requiredTags tags ↔
      (namedTags tags).card < c.spatialDiversityMin := by
  unfold requiredTags
  split_ifs with hzero <;> omega

/-- Only the number of receipts under each tag matters. -/
theorem suffices_of_perm {c : QuorumConfig} {tags tags' : List (Option String)}
    (h : tags.Perm tags') : c.Suffices tags ↔ c.Suffices tags' := by
  have hnamed : namedTags tags = namedTags tags' := by
    ext tag
    rw [mem_namedTags, mem_namedTags, h.mem_iff]
  have hrequired : c.requiredTags tags = c.requiredTags tags' := by
    simp only [requiredTags, hnamed]
  have hnil : tags ≠ [] ↔ tags' ≠ [] := by
    rw [← List.length_pos_iff, ← List.length_pos_iff, h.length_eq]
  simp only [Suffices, Diverse, hnamed, hrequired, hnil, h.length_eq, h.count_eq]

end QuorumConfig

structure SpatialDiversityTracker.Counts (t : SpatialDiversityTracker)
    (tags : List (Option String)) : Prop where
  tagged : ∀ tag, t.tagCounts.lookup tag =
    if some tag ∈ tags then some (tags.count (some tag)) else none
  untagged : t.untagged = tags.count none

namespace SpatialDiversityTracker
variable {t : SpatialDiversityTracker} {tags : List (Option String)}

theorem counts_new : new.Counts [] := ⟨fun tag => by simp [new], rfl⟩

theorem Counts.add (h : t.Counts tags) (tag : Option String) :
    (t.add tag).Counts (tags ++ [tag]) := by
  cases tag with
  | none =>
    refine ⟨fun tag => ?_, ?_⟩
    · simpa [SpatialDiversityTracker.add] using h.tagged tag
    · simp [SpatialDiversityTracker.add, h.untagged]
  | some new =>
    refine ⟨fun tag => ?_, ?_⟩
    · by_cases hsame : tag = new
      · subst hsame
        have hcount : (t.tagCounts.lookup tag).getD 0 = tags.count (some tag) := by
          rw [h.tagged]
          split_ifs with hmem
          · rfl
          · exact (List.count_eq_zero.mpr hmem).symm
        simp [SpatialDiversityTracker.add, hcount]
      · rw [SpatialDiversityTracker.add, AList.lookup_insert_ne hsame, h.tagged]
        have hne : ¬some new = some tag := fun hsome => hsame (Option.some.inj hsome).symm
        simp [hsame, hne]
    · simp [SpatialDiversityTracker.add, h.untagged]

theorem Counts.mem_keys (h : t.Counts tags) {tag : String} :
    tag ∈ t.tagCounts.keys ↔ some tag ∈ tags := by
  rw [← AList.mem_keys, ← AList.lookup_isSome, h.tagged]
  split_ifs with hmem <;> simp [hmem]

theorem Counts.distinctTagCount (h : t.Counts tags) :
    t.distinctTagCount = (namedTags tags).card := by
  have hkeys : t.tagCounts.keys.toFinset = namedTags tags := by
    ext tag
    rw [List.mem_toFinset, h.mem_keys, mem_namedTags]
  rw [SpatialDiversityTracker.distinctTagCount, ← hkeys,
    List.toFinset_card_of_nodup t.tagCounts.keys_nodup]

theorem Counts.satisfiesDiversity_iff (h : t.Counts tags) (minTags total : ℕ) (share : ℚ) :
    t.satisfiesDiversity minTags share total = true ↔ (namedTags tags).card < minTags ∨
      minTags ≤ (namedTags tags).card ∧ total ≠ 0 ∧
        ∀ tag ∈ namedTags tags, (tags.count (some tag) : ℚ) / total ≤ share := by
  rw [satisfiesDiversity, h.distinctTagCount]
  split_ifs with hfew htotal
  · simp [hfew]
  · simp [hfew, htotal]
  · simp only [List.all_eq_true, Bool.not_eq_true', decide_eq_false_iff_not, not_lt, hfew, false_or,
      Nat.not_lt.mp hfew, true_and, htotal, ne_eq, not_false_eq_true]
    constructor
    · intro hall tag htag
      have hmem := mem_namedTags.mp htag
      have hlookup := h.tagged tag
      rw [if_pos hmem] at hlookup
      exact hall ⟨tag, tags.count (some tag)⟩ (AList.mem_lookup_iff.mp hlookup)
    · rintro hall ⟨tag, count⟩ hentry
      have hlookup := AList.mem_lookup_iff.mpr hentry
      rw [h.tagged, Option.mem_def] at hlookup
      split_ifs at hlookup with hmem
      cases hlookup
      exact hall tag (mem_namedTags.mpr hmem)

end SpatialDiversityTracker

abbrev CountedReceipt := DurabilityReceipt × Option String

structure Tier1QuorumTracker.Tracks (t : Tier1QuorumTracker) (c : QuorumConfig)
    (counted : List CountedReceipt) : Prop where
  config : t.config = c
  receipts : t.receipts = counted.map Prod.fst
  issuers : t.seenIssuers = counted.map fun r => r.1.issuerDid
  nodup : (counted.map fun r => r.1.issuerDid).Nodup
  spatial : t.spatial.Counts (counted.map Prod.snd)
  achieved : t.tier1Achieved = true ↔ ∃ earlier, earlier <+: counted.map Prod.snd ∧
    c.Suffices earlier

namespace Tier1QuorumTracker
variable {t : Tier1QuorumTracker} {c : QuorumConfig} {counted : List CountedReceipt}
  {receipt : DurabilityReceipt}

theorem tracks_new (c : QuorumConfig) : (new c).Tracks c [] := by
  refine ⟨rfl, rfl, rfl, List.nodup_nil, SpatialDiversityTracker.counts_new, ?_⟩
  constructor
  · intro h
    cases h
  · rintro ⟨earlier, hearlier, hnonempty, -⟩
    exact absurd (List.prefix_nil.mp hearlier) hnonempty

theorem addReceiptWithTag_of_seen (hseen : receipt.issuerDid ∈ t.seenIssuers)
    (diversityTag : Option String) :
    t.addReceiptWithTag receipt diversityTag = (t.tier1Achieved, t) := if_pos hseen

theorem satisfiesDiversity_iff_suffices {tags : List (Option String)} (hconfig : t.config = c)
    (hspatial : t.spatial.Counts tags) (hlength : t.receipts.length = tags.length)
    (hne : tags ≠ []) (hk : c.k ≤ tags.length) :
    t.spatial.satisfiesDiversity t.effectiveMinDistinct t.config.maxSingleSectorFraction
      t.receipts.length = true ↔ c.Suffices tags := by
  have hrequired : t.effectiveMinDistinct = c.requiredTags tags := by
    rw [effectiveMinDistinct, hspatial.distinctTagCount, hconfig, QuorumConfig.requiredTags]
  have hpos : tags.length ≠ 0 := fun hzero => hne (List.length_eq_zero_iff.mp hzero)
  rw [hspatial.satisfiesDiversity_iff, hrequired, hlength, hconfig]
  simp only [QuorumConfig.Suffices, QuorumConfig.Diverse, hne, hk, hpos, ne_eq, not_false_eq_true,
    true_and]

/-- The receipt of a new issuer is counted; it reaches Tier-1 when the receipts suffice with it. -/
theorem Tracks.addReceiptWithTag (h : t.Tracks c counted)
    (hfresh : receipt.issuerDid ∉ t.seenIssuers) (diversityTag : Option String) :
    let counted' := counted ++ [(receipt, diversityTag.or receipt.spatialTag)]
    (t.addReceiptWithTag receipt diversityTag).2.Tracks c counted' ∧
      ((t.addReceiptWithTag receipt diversityTag).1 = true ↔
        t.tier1Achieved = false ∧ c.Suffices (counted'.map Prod.snd)) := by
  intro counted'
  let t' : Tier1QuorumTracker := { t with
    spatial := t.spatial.add (diversityTag.or receipt.spatialTag)
    seenIssuers := t.seenIssuers ++ [receipt.issuerDid]
    receipts := t.receipts ++ [receipt] }
  have htags : counted'.map Prod.snd =
      counted.map Prod.snd ++ [diversityTag.or receipt.spatialTag] := by simp [counted']
  have hspatial : t'.spatial.Counts (counted'.map Prod.snd) := by
    rw [htags]
    exact h.spatial.add _
  have hlength : t'.receipts.length = (counted'.map Prod.snd).length := by
    simp [t', counted', h.receipts]
  have hnodup : (counted'.map fun r => r.1.issuerDid).Nodup := by
    have hissuers : counted'.map (fun r => r.1.issuerDid) =
        counted.map (fun r => r.1.issuerDid) ++ [receipt.issuerDid] := by simp [counted']
    rw [h.issuers] at hfresh
    rw [hissuers]
    exact h.nodup.append (List.nodup_singleton _) (List.disjoint_singleton.mpr hfresh)
  have hsplit : (∃ earlier, earlier <+: counted'.map Prod.snd ∧ c.Suffices earlier) ↔
      t.tier1Achieved = true ∨ c.Suffices (counted'.map Prod.snd) := by
    rw [h.achieved, htags]
    constructor
    · rintro ⟨earlier, hearlier, hsuffices⟩
      rcases List.prefix_concat_iff.mp hearlier with rfl | hearlier
      · exact .inr hsuffices
      · exact .inl ⟨earlier, hearlier, hsuffices⟩
    · rintro (⟨earlier, hearlier, hsuffices⟩ | hsuffices)
      · exact ⟨earlier, hearlier.trans (List.prefix_append _ _), hsuffices⟩
      · exact ⟨_, List.prefix_refl _, hsuffices⟩
  have htracks : ∀ achieved, (achieved = true ↔ t.tier1Achieved = true ∨
      c.Suffices (counted'.map Prod.snd)) →
        ({ t' with tier1Achieved := achieved } : Tier1QuorumTracker).Tracks c counted' := by
    intro achieved hachieved
    refine ⟨h.config, ?_, ?_, hnodup, hspatial, hachieved.trans hsplit.symm⟩
    · simp [t', counted', h.receipts]
    · simp [t', counted', h.issuers]
  have hunfold : t.addReceiptWithTag receipt diversityTag =
      if t'.tier1Achieved = false ∧ t'.config.k ≤ t'.receipts.length then
        if t'.spatial.satisfiesDiversity t'.effectiveMinDistinct t'.config.maxSingleSectorFraction
            t'.receipts.length then (true, { t' with tier1Achieved := true })
        else (false, t')
      else (false, t') := if_neg hfresh
  have hachieved' : t'.tier1Achieved = t.tier1Achieved := rfl
  rw [hunfold]
  by_cases htest : t'.tier1Achieved = false ∧ t'.config.k ≤ t'.receipts.length
  · obtain ⟨hnot, hk⟩ := htest
    have hdiverse := satisfiesDiversity_iff_suffices (t := t') (c := c) h.config hspatial hlength
      (by simp [counted']) (by rw [← hlength, ← h.config]; exact hk)
    rw [if_pos ⟨hnot, hk⟩]
    by_cases hsuffices : c.Suffices (counted'.map Prod.snd)
    · rw [if_pos (hdiverse.mpr hsuffices)]
      exact ⟨htracks true (by simp [hsuffices]), by simp [hsuffices, ← hachieved', hnot]⟩
    · rw [if_neg fun hholds => hsuffices (hdiverse.mp hholds)]
      refine ⟨htracks t'.tier1Achieved (by simp [hsuffices, hachieved']), by simp [hsuffices]⟩
  · rw [if_neg htest]
    have hfew : t.tier1Achieved = false → ¬c.Suffices (counted'.map Prod.snd) := by
      intro hnot hsuffices
      refine htest ⟨hnot, ?_⟩
      rw [hlength]
      exact h.config ▸ hsuffices.2.1
    refine ⟨htracks t'.tier1Achieved ?_, ?_⟩
    · rw [hachieved']
      refine ⟨.inl, fun hor => hor.elim id fun hsuffices => ?_⟩
      by_contra hnot
      exact hfew (Bool.eq_false_iff.mpr hnot) hsuffices
    · simpa using hfew

/-- Add receipts, each with the diversity tag that the anchor supplies, if it does. -/
def addAll (t : Tier1QuorumTracker) (receipts : List (DurabilityReceipt × Option String)) :
    Tier1QuorumTracker :=
  receipts.foldl (fun t r => (t.addReceiptWithTag r.1 r.2).2) t

def countedTag (r : DurabilityReceipt × Option String) : Option String := r.2.or r.1.spatialTag

theorem Tracks.addAll (h : t.Tracks c counted)
    {receipts : List (DurabilityReceipt × Option String)}
    (hdistinct : (counted.map (fun r => r.1.issuerDid) ++
      receipts.map fun r => r.1.issuerDid).Nodup) :
    (t.addAll receipts).Tracks c (counted ++ receipts.map fun r => (r.1, countedTag r)) := by
  induction receipts generalizing t counted with
  | nil => simpa [Tier1QuorumTracker.addAll] using h
  | cons r receipts ih =>
    have hfresh : r.1.issuerDid ∉ t.seenIssuers := by
      rw [h.issuers]
      exact fun hmem => List.disjoint_of_nodup_append hdistinct hmem List.mem_cons_self
    have hrest := ih (h.addReceiptWithTag hfresh r.2).1 (by simpa using hdistinct)
    simpa [Tier1QuorumTracker.addAll, countedTag] using hrest

theorem isTier1_addAll (c : QuorumConfig)
    {receipts : List (DurabilityReceipt × Option String)}
    (hdistinct : (receipts.map fun r => r.1.issuerDid).Nodup) :
    ((new c).addAll receipts).isTier1 = true ↔
      ∃ earlier, earlier <+: receipts.map countedTag ∧ c.Suffices earlier := by
  have htracks : ((new c).addAll receipts).Tracks c
      ([] ++ receipts.map fun r => (r.1, countedTag r)) :=
    (tracks_new c).addAll (by simpa using hdistinct)
  rw [isTier1, htracks.achieved]
  simp only [List.nil_append, List.map_map]
  rfl

/-- Tier-1 is reached in an order of the receipts when those that came first suffice at some moment.
So two orders agree when from the K-th receipt on the tags that have come are the same. -/
theorem isTier1_order (c : QuorumConfig) {receipts : List (DurabilityReceipt × Option String)}
    (hdistinct : (receipts.map fun r => r.1.issuerDid).Nodup) :
    (((new c).addAll receipts).isTier1 = true ↔
      ∃ earlier, earlier <+: receipts.map countedTag ∧ c.Suffices earlier) ∧
    ∀ receipts', receipts'.Perm receipts →
      (∀ n, c.k ≤ n → n < receipts.length →
        ((receipts'.take n).map countedTag).Perm ((receipts.take n).map countedTag)) →
      ((new c).addAll receipts').isTier1 = ((new c).addAll receipts).isTier1 := by
  refine ⟨isTier1_addAll c hdistinct, fun receipts' hperm hlate => ?_⟩
  have hdistinct' : (receipts'.map fun r => r.1.issuerDid).Nodup :=
    (hperm.map _).nodup_iff.mpr hdistinct
  have hsame : ∀ n, c.k ≤ n →
      ((receipts'.take n).map countedTag).Perm ((receipts.take n).map countedTag) := by
    intro n hn
    by_cases hlt : n < receipts.length
    · exact hlate n hn hlt
    · rw [List.take_of_length_le (Nat.not_lt.mp hlt),
        List.take_of_length_le (hperm.length_eq ▸ Nat.not_lt.mp hlt)]
      exact hperm.map _
  have hiff : ∀ l l' : List (DurabilityReceipt × Option String),
      (∀ n, c.k ≤ n → ((l.take n).map countedTag).Perm ((l'.take n).map countedTag)) →
      (∃ earlier, earlier <+: l.map countedTag ∧ c.Suffices earlier) →
        ∃ earlier, earlier <+: l'.map countedTag ∧ c.Suffices earlier := by
    rintro l l' hl ⟨earlier, hearlier, hsuffices⟩
    have htake := List.prefix_iff_eq_take.mp hearlier
    rw [← List.map_take] at htake
    have hk : c.k ≤ earlier.length := hsuffices.2.1
    refine ⟨(l'.take earlier.length).map countedTag, ?_, ?_⟩
    · rw [List.map_take]
      exact List.take_prefix _ _
    · rw [htake] at hsuffices
      exact (QuorumConfig.suffices_of_perm (hl _ hk)).mp hsuffices
  rw [Bool.eq_iff_iff, isTier1_addAll c hdistinct, isTier1_addAll c hdistinct']
  exact ⟨hiff _ _ hsame, hiff _ _ fun n hn => (hsame n hn).symm⟩

section Sample

def sampleTagged (issuer tag : String) : DurabilityReceipt × Option String :=
  (⟨0, 0, issuer, [], some tag, none, 0⟩, none)

def sampleHalves : QuorumConfig := ⟨2, 3, 0, 1 / 2⟩

/-- With the third receipt before the second the two squads are never even. -/
theorem order_decides :
    [sampleTagged "x" "a", sampleTagged "z" "a", sampleTagged "y" "b"].Perm
      [sampleTagged "x" "a", sampleTagged "y" "b", sampleTagged "z" "a"] ∧
    ((new sampleHalves).addAll
      [sampleTagged "x" "a", sampleTagged "y" "b", sampleTagged "z" "a"]).isTier1 = true ∧
    ((new sampleHalves).addAll
      [sampleTagged "x" "a", sampleTagged "z" "a", sampleTagged "y" "b"]).isTier1 = false := by
  decide +kernel

def sampleArrivals : List (DurabilityReceipt × Option String) :=
  [sampleTagged "x" "a", sampleTagged "y" "b", sampleTagged "z" "a", sampleTagged "v" "b",
    sampleTagged "w" "a"]

def sampleReordered : List (DurabilityReceipt × Option String) :=
  [sampleTagged "v" "b", sampleTagged "w" "a", sampleTagged "x" "a", sampleTagged "y" "b",
    sampleTagged "z" "a"]

theorem isTier1_order_reordered :
    ((new sampleHalves).addAll sampleReordered).isTier1 =
      ((new sampleHalves).addAll sampleArrivals).isTier1 := by
  refine (isTier1_order sampleHalves (by decide)).2 sampleReordered (by decide) fun n hn hlate => ?_
  have hfew : n < 5 := hlate
  change 2 ≤ n at hn
  interval_cases n
  · decide
  · decide
  · decide

end Sample

end Tier1QuorumTracker

end TirBase
