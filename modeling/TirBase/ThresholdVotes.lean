import Mathlib
import TirBase.TransitionRuns

/-! # Threshold votes among equals

Members vote on members. One with enough votes falls; the votes of the fallen are not counted any
more, while those counted before stay. -/
namespace TirBase.ThresholdVotes
open TransitionRuns

variable {Member : Type*} [DecidableEq Member]

structure Ballot (Member : Type*) where
  target : Member
  voters : Finset Member

structure Count (Member : Type*) where
  votes : Member → Finset Member
  fallen : Finset Member

def Count.start : Count Member := ⟨fun _ => ∅, ∅⟩

def receive (m : ℕ) (c : Count Member) (b : Ballot Member) : Count Member :=
  let counted := c.votes b.target ∪ (b.voters \ c.fallen)
  { votes := Function.update c.votes b.target counted
    fallen := if m ≤ counted.card then insert b.target c.fallen else c.fallen }

def supporters : List (Ballot Member) → Member → Finset Member
  | [], _ => ∅
  | b :: bs, t => if b.target = t then b.voters ∪ supporters bs t else supporters bs t

def CanFall (m : ℕ) (bs : List (Ballot Member)) (t : Member) : Prop := m ≤ (supporters bs t).card

instance (m : ℕ) (bs : List (Ballot Member)) (t : Member) : Decidable (CanFall m bs t) :=
  inferInstanceAs (Decidable (_ ≤ _))

/-- The supporters that cannot fall themselves, the member included. -/
def steadfast (m : ℕ) (bs : List (Ballot Member)) (t : Member) : Finset Member :=
  (supporters bs t).filter fun v => v = t ∨ ¬CanFall m bs v

def Settled (m : ℕ) (c : Count Member) : Prop := ∀ t, t ∈ c.fallen ↔ m ≤ (c.votes t).card

variable {m : ℕ} {c : Count Member} {b : Ballot Member} {bs : List (Ballot Member)} {t v : Member}

omit [DecidableEq Member] in
theorem settled_start (hm : 1 ≤ m) : Settled m (Count.start : Count Member) := by
  intro t
  refine iff_of_false (Finset.notMem_empty t) ?_
  simp only [Count.start, Finset.card_empty]
  omega

theorem mem_supporters : v ∈ supporters bs t ↔ ∃ b ∈ bs, b.target = t ∧ v ∈ b.voters := by
  induction bs with
  | nil => simp [supporters]
  | cons b bs ih =>
    rw [supporters]
    split_ifs with h
    · simp [ih, h]
    · simp [ih, h]

theorem supporters_perm {bs' : List (Ballot Member)} (h : bs.Perm bs') :
    supporters bs = supporters bs' := by
  funext t
  ext v
  simp only [mem_supporters, h.mem_iff]

theorem canFall_perm {bs' : List (Ballot Member)} (h : bs.Perm bs') :
    CanFall m bs t ↔ CanFall m bs' t := by
  rw [CanFall, CanFall, supporters_perm h]

theorem steadfast_perm {bs' : List (Ballot Member)} (h : bs.Perm bs') :
    steadfast m bs t = steadfast m bs' t := by
  ext v
  rw [steadfast, steadfast, Finset.mem_filter, Finset.mem_filter, canFall_perm h,
    supporters_perm h]

theorem votes_receive (m : ℕ) (c : Count Member) (b : Ballot Member) (t : Member) :
    (receive m c b).votes t =
      if b.target = t then c.votes t ∪ (b.voters \ c.fallen) else c.votes t := by
  by_cases h : b.target = t
  · subst h
    simp [receive]
  · rw [if_neg h]
    exact Function.update_of_ne (Ne.symm h) _ _

theorem votes_subset_receive (m : ℕ) (c : Count Member) (b : Ballot Member) (t : Member) :
    c.votes t ⊆ (receive m c b).votes t := by
  rw [votes_receive]
  split_ifs
  · exact Finset.subset_union_left
  · exact Finset.Subset.refl _

theorem Settled.receive (h : Settled m c) (b : Ballot Member) : Settled m (receive m c b) := by
  intro t
  rw [votes_receive]
  simp only [ThresholdVotes.receive]
  by_cases htarget : b.target = t
  · subst htarget
    rw [if_pos rfl]
    split_ifs with hm
    · exact iff_of_true (Finset.mem_insert_self _ _) hm
    · refine iff_of_false (fun hfallen => hm ?_) hm
      exact ((h _).mp hfallen).trans (Finset.card_le_card Finset.subset_union_left)
  · rw [if_neg htarget, ← h]
    split_ifs
    · rw [Finset.mem_insert]
      exact ⟨fun hmem => hmem.resolve_left (Ne.symm htarget), .inr⟩
    · exact Iff.rfl

theorem fallen_subset_receive (m : ℕ) (c : Count Member) (b : Ballot Member) :
    c.fallen ⊆ (receive m c b).fallen := by
  unfold receive
  dsimp only
  split_ifs
  · exact Finset.subset_insert _ _
  · exact Finset.Subset.refl _

theorem fallen_receive_of_ne (h : b.target ≠ t) :
    t ∈ (receive m c b).fallen ↔ t ∈ c.fallen := by
  unfold receive
  dsimp only
  split_ifs
  · rw [Finset.mem_insert]
    exact ⟨fun hmem => hmem.resolve_left (Ne.symm h), .inr⟩
  · exact Iff.rfl

theorem receive_of_no_voters (h : Settled m c) (hb : b.voters = ∅) : receive m c b = c := by
  unfold receive
  rw [hb, Finset.empty_sdiff, Finset.union_empty]
  dsimp only
  rw [Function.update_eq_self]
  split_ifs with hm
  · rw [Finset.insert_eq_of_mem ((h _).mpr hm)]
  · rfl

theorem Settled.run (h : Settled m c) (bs : List (Ballot Member)) :
    Settled m (run (ThresholdVotes.receive m) c bs) := by
  have hstep : ∀ (c : Count Member) (b : Ballot Member), Settled m c →
      Settled m (ThresholdVotes.receive m c b) := fun c b hc => hc.receive b
  exact invariant_run hstep bs h

theorem fallen_subset_run (m : ℕ) (c : Count Member) (bs : List (Ballot Member)) :
    c.fallen ⊆ (run (receive m) c bs).fallen := by
  have hstep : ∀ (c' : Count Member) (b : Ballot Member), c.fallen ⊆ c'.fallen →
      c.fallen ⊆ (receive m c' b).fallen := fun c' b hc => hc.trans (fallen_subset_receive m c' b)
  exact invariant_run hstep bs (Finset.Subset.refl _)

/-- What is counted comes from the supporters that have not fallen before. -/
theorem votes_run_subset (m : ℕ) (c : Count Member) (bs : List (Ballot Member)) (t : Member) :
    (run (receive m) c bs).votes t ⊆ c.votes t ∪ (supporters bs t \ c.fallen) := by
  induction bs generalizing c with
  | nil => exact Finset.subset_union_left
  | cons b bs ih =>
    intro v hv
    have hfallen := fallen_subset_receive m c b
    have hrest := ih (receive m c b) hv
    rw [votes_receive, supporters] at *
    simp only [Finset.mem_union, Finset.mem_sdiff] at hrest ⊢
    rcases hrest with hvotes | ⟨hsupport, hnew⟩
    · split_ifs at hvotes ⊢ with htarget
      · rw [Finset.mem_union, Finset.mem_sdiff] at hvotes
        rcases hvotes with hold | ⟨hvoter, hnew⟩
        · exact .inl hold
        · exact .inr ⟨Finset.mem_union_left _ hvoter, hnew⟩
      · exact .inl hvotes
    · have hnew' : v ∉ c.fallen := fun hmem => hnew (hfallen hmem)
      split_ifs
      · exact .inr ⟨Finset.mem_union_right _ hsupport, hnew'⟩
      · exact .inr ⟨hsupport, hnew'⟩

theorem votes_subset_run (m : ℕ) (c : Count Member) (bs : List (Ballot Member)) (t : Member) :
    c.votes t ⊆ (run (receive m) c bs).votes t := by
  have hstep : ∀ (c' : Count Member) (b : Ballot Member), c.votes t ⊆ c'.votes t →
      c.votes t ⊆ (receive m c' b).votes t := fun c' b hc => hc.trans (votes_subset_receive m c' b t)
  exact invariant_run hstep bs (Finset.Subset.refl _)

theorem mem_votes_run (hv : v ∈ supporters bs t) (hend : v ∉ (run (receive m) c bs).fallen) :
    v ∈ (run (receive m) c bs).votes t := by
  induction bs generalizing c with
  | nil => cases hv
  | cons b bs ih =>
    rw [run_cons] at hend ⊢
    rw [supporters] at hv
    have hnow : b.target = t → v ∈ b.voters → v ∈ (receive m c b).votes t := by
      intro htarget hvoter
      have hfree : v ∉ c.fallen := fun hmem =>
        hend (fallen_subset_run m _ bs (fallen_subset_receive m c b hmem))
      rw [votes_receive, if_pos htarget]
      exact Finset.mem_union_right _ (Finset.mem_sdiff.mpr ⟨hvoter, hfree⟩)
    split_ifs at hv with htarget
    · rcases Finset.mem_union.mp hv with hvoter | hrest
      · exact votes_subset_run m _ bs t (hnow htarget hvoter)
      · exact ih hrest hend
    · exact ih hv hend

theorem fallen_run_of_not_target (h : ∀ b ∈ bs, b.target ≠ t) :
    t ∈ (run (receive m) c bs).fallen ↔ t ∈ c.fallen := by
  induction bs generalizing c with
  | nil => exact Iff.rfl
  | cons b bs ih =>
    rw [run_cons, ih fun b' hb' => h b' (List.mem_cons_of_mem b hb'),
      fallen_receive_of_ne (h b List.mem_cons_self)]

theorem supporters_of_not_target (h : ∀ b ∈ bs, b.target ≠ t) : supporters bs t = ∅ := by
  rw [Finset.eq_empty_iff_forall_notMem]
  intro v hv
  obtain ⟨b, hb, htarget, -⟩ := mem_supporters.mp hv
  exact h b hb htarget

theorem canFall_of_fallen (hm : 1 ≤ m) (h : t ∈ (run (receive m) .start bs).fallen) :
    CanFall m bs t := by
  have henough := ((settled_start hm).run bs t).mp h
  have hsubset := votes_run_subset m Count.start bs t
  simp only [Count.start, Finset.sdiff_empty, Finset.empty_union] at hsubset
  exact henough.trans (Finset.card_le_card hsubset)

def targetFirst (bs : List (Ballot Member)) (t : Member) : List (Ballot Member) :=
  (bs.filter fun b => b.target = t) ++ bs.filter fun b => ¬b.target = t

def targetLast (bs : List (Ballot Member)) (t : Member) : List (Ballot Member) :=
  (bs.filter fun b => ¬b.target = t) ++ bs.filter fun b => b.target = t

theorem supporters_filter (bs : List (Ballot Member)) (t : Member) :
    supporters (bs.filter fun b => b.target = t) t = supporters bs t := by
  ext v
  simp only [mem_supporters, List.mem_filter, decide_eq_true_eq]
  constructor
  · rintro ⟨b, ⟨hb, -⟩, htarget, hv⟩
    exact ⟨b, hb, htarget, hv⟩
  · rintro ⟨b, hb, htarget, hv⟩
    exact ⟨b, ⟨hb, htarget⟩, htarget, hv⟩

theorem target_ne_of_mem_filter (hvt : v ≠ t) :
    ∀ b ∈ bs.filter fun b => b.target = t, b.target ≠ v := by
  intro b hb htarget
  have hbt : b.target = t := by simpa using (List.mem_filter.mp hb).2
  exact hvt (htarget.symm.trans hbt)

theorem fallen_targetFirst (hm : 1 ≤ m) (h : CanFall m bs t) :
    t ∈ (run (receive m) .start (targetFirst bs t)).fallen := by
  rw [targetFirst, run_append]
  refine fallen_subset_run m _ _ ?_
  by_contra hfree
  have hnobody : ∀ v, v ∉ (run (receive m) .start
      (bs.filter fun b => b.target = t)).fallen := by
    intro v hv
    by_cases hvt : v = t
    · exact hfree (hvt ▸ hv)
    · rw [fallen_run_of_not_target (target_ne_of_mem_filter hvt)] at hv
      exact Finset.notMem_empty v hv
  have hall : supporters bs t ⊆ (run (receive m) .start
      (bs.filter fun b => b.target = t)).votes t := by
    intro v hv
    rw [← supporters_filter] at hv
    exact mem_votes_run hv (hnobody v)
  exact hfree (((settled_start hm).run _ t).mpr (h.trans (Finset.card_le_card hall)))

/-- One whose ballots come last, with all others fallen that can fall, falls only by steadfast
supporters. -/
theorem steadfast_of_targetLast (hm : 1 ≤ m)
    (hothers : ∀ v, v ≠ t → CanFall m bs v → v ∈ (run (receive m) .start (targetLast bs t)).fallen)
    (ht : t ∈ (run (receive m) .start (targetLast bs t)).fallen) :
    m ≤ (steadfast m bs t).card := by
  have henough := ((settled_start hm).run _ t).mp ht
  rw [targetLast, run_append] at henough hothers
  generalize hbefore : run (receive m) Count.start (bs.filter fun b => ¬b.target = t) = before
    at henough hothers
  have hnotTarget : ∀ b ∈ bs.filter fun b => ¬b.target = t, b.target ≠ t := by
    intro b hb
    simpa using (List.mem_filter.mp hb).2
  have hempty : before.votes t = ∅ := by
    have hsubset := votes_run_subset m Count.start (bs.filter fun b => ¬b.target = t) t
    rw [supporters_of_not_target hnotTarget, hbefore] at hsubset
    exact Finset.subset_empty.mp hsubset
  refine henough.trans (Finset.card_le_card fun v hv => ?_)
  have hcounted := votes_run_subset m before _ t hv
  rw [hempty, Finset.empty_union, supporters_filter, Finset.mem_sdiff] at hcounted
  refine Finset.mem_filter.mpr ⟨hcounted.1, ?_⟩
  by_cases hvt : v = t
  · exact .inl hvt
  · refine .inr fun hcan => hcounted.2 ?_
    exact (fallen_run_of_not_target (target_ne_of_mem_filter hvt)).mp (hothers v hvt hcan)

/-- With enough steadfast supporters a member falls in every order. -/
theorem fallen_of_steadfast (hm : 1 ≤ m) (h : m ≤ (steadfast m bs t).card) :
    t ∈ (run (receive m) .start bs).fallen := by
  by_contra hfree
  have hall : steadfast m bs t ⊆ (run (receive m) .start bs).votes t := by
    intro v hv
    obtain ⟨hsupport, hsteady⟩ := Finset.mem_filter.mp hv
    refine mem_votes_run hsupport fun hfallen => ?_
    rcases hsteady with rfl | hcannot
    · exact hfree hfallen
    · exact hcannot (canFall_of_fallen hm hfallen)
  exact hfree (((settled_start hm).run bs t).mpr (h.trans (Finset.card_le_card hall)))

theorem map_targetFirst {Message : Type*} (ballotOf : Message → Ballot Member)
    (msgs : List Message) (t : Member) :
    ((msgs.filter fun x => (ballotOf x).target = t) ++
      msgs.filter fun x => ¬(ballotOf x).target = t).map ballotOf =
        targetFirst (msgs.map ballotOf) t := by
  rw [targetFirst, List.map_append, List.filter_map, List.filter_map]
  rfl

theorem map_targetLast {Message : Type*} (ballotOf : Message → Ballot Member)
    (msgs : List Message) (t : Member) :
    ((msgs.filter fun x => ¬(ballotOf x).target = t) ++
      msgs.filter fun x => (ballotOf x).target = t).map ballotOf =
        targetLast (msgs.map ballotOf) t := by
  rw [targetLast, List.map_append, List.filter_map, List.filter_map]
  rfl

/-- Every order of the messages ends with the same fallen members exactly when everybody who can
fall has enough steadfast supporters. -/
theorem orders_agree_iff {Message : Type*} (hm : 1 ≤ m) (ballotOf : Message → Ballot Member)
    (msgs : List Message) :
    (∀ msgs₁ msgs₂ : List Message, msgs₁.Perm msgs → msgs₂.Perm msgs → ∀ t,
      t ∈ (run (receive m) .start (msgs₁.map ballotOf)).fallen ↔
        t ∈ (run (receive m) .start (msgs₂.map ballotOf)).fallen) ↔
    ∀ t, CanFall m (msgs.map ballotOf) t → m ≤ (steadfast m (msgs.map ballotOf) t).card := by
  constructor
  · intro hagree t hcan
    have hperm : ∀ v, ((msgs.filter fun x => (ballotOf x).target = v) ++
        msgs.filter fun x => ¬(ballotOf x).target = v).Perm msgs := by
      intro v
      simpa using List.filter_append_perm (fun x => decide ((ballotOf x).target = v)) msgs
    have hfalls : ∀ v, CanFall m (msgs.map ballotOf) v →
        v ∈ (run (receive m) .start (targetLast (msgs.map ballotOf) t)).fallen := by
      intro v hv
      rw [← map_targetLast]
      refine (hagree _ _ (hperm v) (List.perm_append_comm.trans (hperm t)) v).mp ?_
      rw [map_targetFirst]
      exact fallen_targetFirst hm hv
    exact steadfast_of_targetLast hm (fun v _ hv => hfalls v hv) (hfalls t hcan)
  · intro hsteady
    have hsame : ∀ msgs' : List Message, msgs'.Perm msgs → ∀ t,
        t ∈ (run (receive m) .start (msgs'.map ballotOf)).fallen ↔
          CanFall m (msgs.map ballotOf) t := by
      intro msgs' hperm t
      have hballots := hperm.map ballotOf
      refine ⟨fun h => (canFall_perm hballots).mp (canFall_of_fallen hm h), fun h => ?_⟩
      refine fallen_of_steadfast hm ?_
      rw [steadfast_perm hballots]
      exact hsteady t h
    intro msgs₁ msgs₂ h₁ h₂ t
    rw [hsame msgs₁ h₁ t, hsame msgs₂ h₂ t]

/-- One ballot a member, with `m` voters each. -/
structure JustEnough (m : ℕ) (bs : List (Ballot Member)) : Prop where
  targets : (bs.map Ballot.target).Nodup
  voters : ∀ b ∈ bs, b.voters.card = m

omit [DecidableEq Member] in
theorem JustEnough.init (h : JustEnough m (bs ++ [b])) : JustEnough m bs := by
  refine ⟨?_, fun b' hb' => h.voters b' (List.mem_append_left _ hb')⟩
  have hnodup := h.targets
  rw [List.map_append] at hnodup
  exact hnodup.of_append_left

omit [DecidableEq Member] in
theorem JustEnough.last_new (h : JustEnough m (bs ++ [b])) : b.target ∉ bs.map Ballot.target := by
  have hnodup := h.targets
  rw [List.map_append, List.nodup_append] at hnodup
  intro hmem
  exact hnodup.2.2 _ hmem _ (List.mem_singleton.mpr rfl) rfl

theorem fallen_run_subset_targets (bs : List (Ballot Member)) :
    ∀ t ∈ (run (receive m) .start bs).fallen, t ∈ bs.map Ballot.target := by
  intro t ht
  by_contra hno
  have hnot : ∀ b ∈ bs, b.target ≠ t := by
    intro b hb heq
    exact hno (List.mem_map.mpr ⟨b, hb, heq⟩)
  rw [fallen_run_of_not_target hnot] at ht
  exact Finset.notMem_empty t ht

/-- The last of the ballots fells its target exactly when none of its voters has fallen. -/
theorem fallen_last_iff (hm : 1 ≤ m) (h : JustEnough m (bs ++ [b])) :
    b.target ∈ (run (receive m) .start (bs ++ [b])).fallen ↔
      Disjoint b.voters (run (receive m) .start bs).fallen := by
  have hnot : ∀ b' ∈ bs, b'.target ≠ b.target := by
    intro b' hb' heq
    exact h.last_new (List.mem_map.mpr ⟨b', hb', heq⟩)
  have hempty : (run (receive m) .start bs).votes b.target = ∅ := by
    have hsubset := votes_run_subset m Count.start bs b.target
    rw [supporters_of_not_target hnot] at hsubset
    exact Finset.subset_empty.mp hsubset
  have hcard : b.voters.card = m := h.voters b (by simp)
  rw [(settled_start hm).run (bs ++ [b]) b.target, run_append, run_cons, run_nil, votes_receive,
    if_pos rfl, hempty, Finset.empty_union]
  constructor
  · intro henough
    rw [← Finset.sdiff_eq_self_iff_disjoint]
    exact Finset.eq_of_subset_of_card_le Finset.sdiff_subset (by omega)
  · intro hdisjoint
    rw [Finset.sdiff_eq_self_of_disjoint hdisjoint, hcard]

/-- All targets fall exactly when nobody votes after the ballot on them. -/
theorem all_fallen_iff (hm : 1 ≤ m) (h : JustEnough m bs) :
    (∀ t, t ∈ (run (receive m) .start bs).fallen ↔ t ∈ bs.map Ballot.target) ↔
      bs.Pairwise fun earlier later => earlier.target ∉ later.voters := by
  induction bs using List.reverseRecOn with
  | nil => exact iff_of_true (fun t => by simp [Count.start]) List.Pairwise.nil
  | append_singleton bs b ih =>
    have hlast := fallen_last_iff hm h
    have hothers : ∀ t, t ≠ b.target → (t ∈ (run (receive m) .start (bs ++ [b])).fallen ↔
        t ∈ (run (receive m) .start bs).fallen) := by
      intro t ht
      rw [run_append]
      exact fallen_receive_of_ne (Ne.symm ht)
    have hmem : ∀ t, t ∈ (bs ++ [b]).map Ballot.target ↔
        t ∈ bs.map Ballot.target ∨ t = b.target := by
      intro t
      rw [List.map_append, List.mem_append, List.map_singleton, List.mem_singleton]
    have hnew := h.last_new
    rw [List.pairwise_append, ← ih h.init]
    constructor
    · intro hall
      have hbefore : ∀ t, t ∈ (run (receive m) .start bs).fallen ↔ t ∈ bs.map Ballot.target := by
        intro t
        refine ⟨fallen_run_subset_targets bs t, fun ht => ?_⟩
        have hne : t ≠ b.target := fun heq => hnew (heq ▸ ht)
        exact (hothers t hne).mp ((hall t).mpr ((hmem t).mpr (.inl ht)))
      refine ⟨hbefore, List.pairwise_singleton _ _, fun b' hb' b'' hb'' hvote => ?_⟩
      rw [List.mem_singleton.mp hb''] at hvote
      have hdisjoint := hlast.mp ((hall b.target).mpr ((hmem _).mpr (.inr rfl)))
      have hfallen := (hbefore b'.target).mpr (List.mem_map.mpr ⟨b', hb', rfl⟩)
      exact Finset.disjoint_left.mp hdisjoint hvote hfallen
    · rintro ⟨hbefore, -, hlater⟩ t
      rw [hmem]
      by_cases ht : t = b.target
      · subst ht
        refine iff_of_true (hlast.mpr ?_) (.inr rfl)
        rw [Finset.disjoint_left]
        intro v hv hfallen
        obtain ⟨b', hb', rfl⟩ := List.mem_map.mp ((hbefore v).mp hfallen)
        exact hlater b' hb' b (List.mem_singleton.mpr rfl) hv
      · rw [hothers t ht, hbefore]
        exact ⟨.inl, fun hmem => hmem.resolve_right ht⟩

section FirstPapers
variable {Paper : Type*} {voter : Paper → Member} {good : Paper → Bool} {paper : Paper}
  {papers : List Paper} {seen : Finset Member}

def firstGood (voter : Paper → Member) (good : Paper → Bool) (papers : List Paper) :
    Finset Member :=
  (papers.map voter).toFinset.filter fun v =>
    (papers.find? fun paper => voter paper = v).any good = true

theorem mem_firstGood : v ∈ firstGood voter good papers ↔
    ∃ paper, papers.find? (fun paper => voter paper = v) = some paper ∧ good paper = true := by
  rw [firstGood, Finset.mem_filter, Option.any_eq_true, and_iff_right_iff_imp]
  rintro ⟨paper, hfind, -⟩
  have hvoter : voter paper = v := by simpa using List.find?_some hfind
  exact List.mem_toFinset.mpr (List.mem_map.mpr ⟨paper, List.mem_of_find?_eq_some hfind, hvoter⟩)

theorem mem_firstGood_cons :
    v ∈ firstGood voter good (paper :: papers) ↔
      if voter paper = v then good paper = true else v ∈ firstGood voter good papers := by
  rw [mem_firstGood, List.find?_cons]
  by_cases h : voter paper = v
  · simp [h]
  · simp [h, mem_firstGood]

theorem firstGood_cons_of_mem (h : voter paper ∈ seen) :
    firstGood voter good (paper :: papers) \ seen = firstGood voter good papers \ seen := by
  ext v
  rw [Finset.mem_sdiff, Finset.mem_sdiff, mem_firstGood_cons]
  refine and_congr_left fun hv => ?_
  have hne : voter paper ≠ v := by
    intro heq
    exact hv (heq ▸ h)
  rw [if_neg hne]

theorem card_firstGood_cons (h : voter paper ∉ seen) :
    (firstGood voter good (paper :: papers) \ seen).card =
      (firstGood voter good papers \ insert (voter paper) seen).card +
        if good paper = true then 1 else 0 := by
  have hrest : voter paper ∉ firstGood voter good papers \ insert (voter paper) seen := by
    rw [Finset.mem_sdiff, not_and_not_right]
    exact fun _ => Finset.mem_insert_self _ _
  have hsplit : firstGood voter good (paper :: papers) \ seen =
      (if good paper = true then {voter paper} else ∅) ∪
        (firstGood voter good papers \ insert (voter paper) seen) := by
    ext v
    rw [Finset.mem_union, Finset.mem_sdiff, Finset.mem_sdiff, mem_firstGood_cons,
      Finset.mem_insert, not_or]
    by_cases hv : voter paper = v
    · subst hv
      by_cases hgood : good paper = true
      · simp [hgood, h]
      · simp [hgood]
    · by_cases hgood : good paper = true
      · simp [hgood, hv, Ne.symm hv]
      · simp [hgood, hv, Ne.symm hv]
  rw [hsplit]
  split_ifs
  · rw [Finset.card_union_of_disjoint (Finset.disjoint_singleton_left.mpr hrest),
      Finset.card_singleton, Nat.add_comm]
  · rw [Finset.empty_union, Nat.add_zero]

theorem firstGood_subset :
    firstGood voter good papers ⊆ ((papers.filter good).map voter).toFinset := by
  intro v hv
  obtain ⟨paper, hfind, hgood⟩ := mem_firstGood.mp hv
  have hvoter : voter paper = v := by simpa using List.find?_some hfind
  refine List.mem_toFinset.mpr (List.mem_map.mpr ⟨paper, ?_, hvoter⟩)
  exact List.mem_filter.mpr ⟨List.mem_of_find?_eq_some hfind, hgood⟩

end FirstPapers

end TirBase.ThresholdVotes
