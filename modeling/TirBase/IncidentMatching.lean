import TirBase.IncidentEndings

/-! # The same incidents under other identifiers

Each device draws the identifiers of its incidents itself. Two contamination engines agree when their
incidents can be matched one to one, so that matched incidents show the same and the tag logs differ
in matched identifiers and in times only. -/
namespace TirBase.IncidentMatching
open ContaminationEngine IncidentRuns
open IncidentEndings (keyId)

/-- Which incidents, and which composites, of two engines are taken for the same. -/
structure Matching where
  pairs : List (IncidentKey × IncidentKey)
  first : (pairs.map Prod.fst).Nodup
  second : (pairs.map Prod.snd).Nodup
  kinds : ∀ p ∈ pairs, p.1.isLeft = p.2.isLeft

namespace Matching

def empty : Matching := ⟨[], List.nodup_nil, List.nodup_nil, by simp⟩

def Names (m : Matching) (id id' : IncidentId) : Prop :=
  ∃ p ∈ m.pairs, keyId p.1 = id ∧ keyId p.2 = id'

def SameState (m : Matching) : IncidentState → IncidentState → Prop
  | .supersededBy id, .supersededBy id' => m.Names id id'
  | state, state' => state = state'

/-- The same tag, but for the identifiers and the times. -/
def SameTag (m : Matching) : DeltaTag → DeltaTag → Prop
  | .contaminated rootId id, .contaminated rootId' id' => rootId = rootId' ∧ m.Names id id'
  | .decontaminated id _, .decontaminated id' _ => m.Names id id'
  | .resolved did _, .resolved did' _ => did = did'
  | .contaminatedByHumanReaction id, .contaminatedByHumanReaction id' => m.Names id id'
  | tag, tag' => tag = tag'

structure SameIncident (m : Matching) (v v' : IncidentView) : Prop where
  roots : v.roots = v'.roots
  deltas : v.deltas = v'.deltas
  state : m.SameState v.state v'.state

structure Agree (m : Matching) (cce cce' : ContaminationEngine)
    (logs logs' : DeltaId → List DeltaTag) : Prop where
  first : ∀ k, (view cce k).isSome ↔ k ∈ m.pairs.map Prod.fst
  second : ∀ k, (view cce' k).isSome ↔ k ∈ m.pairs.map Prod.snd
  shown : ∀ p ∈ m.pairs, ∀ v v', view cce p.1 = some v → view cce' p.2 = some v' →
    m.SameIncident v v'
  logs : ∀ id, List.Forall₂ m.SameTag (logs id) (logs' id)

section Growing
variable {m m' : Matching}

theorem Names.mono (hle : m.pairs ⊆ m'.pairs) {id id' : IncidentId} (h : m.Names id id') :
    m'.Names id id' := by
  obtain ⟨p, hp, hid, hid'⟩ := h
  exact ⟨p, hle hp, hid, hid'⟩

theorem SameState.mono (hle : m.pairs ⊆ m'.pairs) {state state' : IncidentState}
    (h : m.SameState state state') : m'.SameState state state' := by
  cases state with
  | supersededBy id =>
    cases state' with
    | supersededBy id' => exact Names.mono hle h
    | _ => exact h
  | _ => exact h

theorem SameState.open_iff {state state' : IncidentState} (h : m.SameState state state') :
    state = .open_ ↔ state' = .open_ := by
  cases state with
  | supersededBy id =>
    cases state' with
    | supersededBy id' => simp
    | _ => cases h
  | _ =>
    change _ = state' at h
    subst h
    exact Iff.rfl

theorem SameTag.mono (hle : m.pairs ⊆ m'.pairs) {tag tag' : DeltaTag} (h : m.SameTag tag tag') :
    m'.SameTag tag tag' := by
  cases tag with
  | contaminated rootId id =>
    cases tag' with
    | contaminated rootId' id' => exact ⟨h.1, h.2.mono hle⟩
    | _ => exact h
  | decontaminated id resolvedAt =>
    cases tag' with
    | decontaminated id' resolvedAt' => exact Names.mono hle h
    | _ => exact h
  | contaminatedByHumanReaction id =>
    cases tag' with
    | contaminatedByHumanReaction id' => exact Names.mono hle h
    | _ => exact h
  | resolved did at_ =>
    cases tag' with
    | resolved did' at_' => exact h
    | _ => exact h
  | _ => exact h

def insert (m : Matching) (id id' : IncidentId) (hfirst : .inl id ∉ m.pairs.map Prod.fst)
    (hsecond : .inl id' ∉ m.pairs.map Prod.snd) : Matching where
  pairs := (.inl id, .inl id') :: m.pairs
  first := List.nodup_cons.mpr ⟨hfirst, m.first⟩
  second := List.nodup_cons.mpr ⟨hsecond, m.second⟩
  kinds := by
    intro p hp
    rcases List.mem_cons.mp hp with rfl | hp
    · rfl
    · exact m.kinds p hp

end Growing

section Steps
variable {m : Matching} {cce cce' cce₁ cce₁' : ContaminationEngine}
  {logs logs' logs₁ logs₁' : DeltaId → List DeltaTag}

theorem agree_new (hlogs : ∀ id, logs id = []) (hlogs' : ∀ id, logs' id = []) :
    empty.Agree .new .new logs logs' := by
  refine ⟨fun k => ?_, fun k => ?_, by simp [empty], fun id => ?_⟩
  · cases k <;> simp [view, ContaminationEngine.new, empty]
  · cases k <;> simp [view, ContaminationEngine.new, empty]
  · rw [hlogs, hlogs']
    exact .nil

/-- Matched tags are appended and the incidents stay as they show. -/
theorem Agree.extend (h : m.Agree cce cce' logs logs') (hview : ∀ k, view cce₁ k = view cce k)
    (hview' : ∀ k, view cce₁' k = view cce' k) {new new' : DeltaId → List DeltaTag}
    (hlogs : ∀ id, logs₁ id = logs id ++ new id) (hlogs' : ∀ id, logs₁' id = logs' id ++ new' id)
    (hnew : ∀ id, List.Forall₂ m.SameTag (new id) (new' id)) :
    m.Agree cce₁ cce₁' logs₁ logs₁' := by
  refine ⟨fun k => ?_, fun k => ?_, fun p hp v v' hv hv' => ?_, fun id => ?_⟩
  · rw [hview]
    exact h.first k
  · rw [hview']
    exact h.second k
  · rw [hview] at hv
    rw [hview'] at hv'
    exact h.shown p hp v v' hv hv'
  · rw [hlogs, hlogs']
    exact List.rel_append (h.logs id) (hnew id)

theorem Agree.same (h : m.Agree cce cce' logs logs') (hview : ∀ k, view cce₁ k = view cce k)
    (hview' : ∀ k, view cce₁' k = view cce' k) (hlogs : ∀ id, logs₁ id = logs id)
    (hlogs' : ∀ id, logs₁' id = logs' id) : m.Agree cce₁ cce₁' logs₁ logs₁' :=
  have hnil : ∀ id, logs₁ id = logs id ++ [] := fun id => by rw [hlogs, List.append_nil]
  have hnil' : ∀ id, logs₁' id = logs' id ++ [] := fun id => by rw [hlogs', List.append_nil]
  h.extend hview hview' hnil hnil' fun _ => .nil

theorem Agree.enter (h : m.Agree cce cce' logs logs') {v v' : IncidentView} {id id' : IncidentId}
    (hfresh : view cce (.inl id) = none) (hfresh' : view cce' (.inl id') = none)
    (hview : ∀ k, view cce₁ k = if k = .inl id then some v else view cce k)
    (hview' : ∀ k, view cce₁' k = if k = .inl id' then some v' else view cce' k)
    (hroots : v.roots = v'.roots) (hdeltas : v.deltas = v'.deltas) (hstate : v.state = .open_)
    (hstate' : v'.state = .open_) {root : DeltaId}
    (hlogs : ∀ δ, logs₁ δ = logs δ ++ if δ = root then [.contaminated root id] else [])
    (hlogs' : ∀ δ, logs₁' δ = logs' δ ++ if δ = root then [.contaminated root id'] else []) :
    ∃ m₁ : Matching, m₁.Agree cce₁ cce₁' logs₁ logs₁' := by
  have hfirst : .inl id ∉ m.pairs.map Prod.fst := by
    rw [← h.first, hfresh]
    exact Bool.false_ne_true
  have hsecond : .inl id' ∉ m.pairs.map Prod.snd := by
    rw [← h.second, hfresh']
    exact Bool.false_ne_true
  have hle : m.pairs ⊆ (m.insert id id' hfirst hsecond).pairs := List.subset_cons_self _ _
  have hnames : (m.insert id id' hfirst hsecond).Names id id' :=
    ⟨(.inl id, .inl id'), List.mem_cons_self, rfl, rfl⟩
  refine ⟨m.insert id id' hfirst hsecond, fun k => ?_, fun k => ?_, fun p hp u u' hu hu' => ?_,
    fun δ => ?_⟩
  · rw [hview]
    change _ ↔ k ∈ .inl id :: m.pairs.map Prod.fst
    rw [List.mem_cons, ← h.first]
    by_cases hk : k = .inl id
    · rw [if_pos hk]
      exact iff_of_true rfl (.inl hk)
    · rw [if_neg hk]
      exact (or_iff_right hk).symm
  · rw [hview']
    change _ ↔ k ∈ .inl id' :: m.pairs.map Prod.snd
    rw [List.mem_cons, ← h.second]
    by_cases hk : k = .inl id'
    · rw [if_pos hk]
      exact iff_of_true rfl (.inl hk)
    · rw [if_neg hk]
      exact (or_iff_right hk).symm
  · rcases List.mem_cons.mp hp with rfl | hp
    · rw [hview, if_pos rfl] at hu
      rw [hview', if_pos rfl] at hu'
      cases hu
      cases hu'
      refine ⟨hroots, hdeltas, ?_⟩
      rw [hstate, hstate']
      exact (rfl : IncidentState.open_ = .open_)
    · have hne : p.1 ≠ .inl id := fun heq => hfirst (heq ▸ List.mem_map_of_mem hp)
      have hne' : p.2 ≠ .inl id' := fun heq => hsecond (heq ▸ List.mem_map_of_mem hp)
      rw [hview, if_neg hne] at hu
      rw [hview', if_neg hne'] at hu'
      obtain ⟨hsame, hsame', hstates⟩ := h.shown p hp u u' hu hu'
      exact ⟨hsame, hsame', hstates.mono hle⟩
  · rw [hlogs, hlogs']
    refine List.rel_append ((h.logs δ).imp fun _ _ ht => ht.mono hle) ?_
    split_ifs
    · exact .cons ⟨rfl, hnames⟩ .nil
    · exact .nil

theorem Agree.close (h : m.Agree cce cce' logs logs') {id id' : IncidentId}
    (hpair : (.inl id, .inl id') ∈ m.pairs) {v v' : IncidentView}
    (hv : view cce (.inl id) = some v) (hv' : view cce' (.inl id') = some v')
    (hview : ∀ k, view cce₁ k =
      if k = .inl id then some { v with state := .closed } else view cce k)
    (hview' : ∀ k, view cce₁' k =
      if k = .inl id' then some { v' with state := .closed } else view cce' k) :
    m.Agree cce₁ cce₁' logs logs' := by
  refine ⟨fun k => ?_, fun k => ?_, fun p hp u u' hu hu' => ?_, h.logs⟩
  · rw [hview, ← h.first]
    split_ifs with hk
    · rw [hk, hv]
      exact Iff.rfl
    · exact Iff.rfl
  · rw [hview', ← h.second]
    split_ifs with hk
    · rw [hk, hv']
      exact Iff.rfl
    · exact Iff.rfl
  · by_cases hk : p = (.inl id, .inl id')
    · subst hk
      rw [hview, if_pos rfl] at hu
      rw [hview', if_pos rfl] at hu'
      cases hu
      cases hu'
      obtain ⟨hroots, hdeltas, -⟩ := h.shown _ hpair v v' hv hv'
      exact ⟨hroots, hdeltas, (rfl : IncidentState.closed = .closed)⟩
    · have hne : p.1 ≠ .inl id := fun heq => hk (List.inj_on_of_nodup_map m.first hp hpair heq)
      have hne' : p.2 ≠ .inl id' := fun heq => hk (List.inj_on_of_nodup_map m.second hp hpair heq)
      rw [hview, if_neg hne] at hu
      rw [hview', if_neg hne'] at hu'
      exact h.shown p hp u u' hu hu'

theorem Agree.resolved (h : m.Agree cce cce' logs logs') (id : DeltaId) :
    (logs id).any DeltaTag.isResolved = (logs' id).any DeltaTag.isResolved := by
  have htag : ∀ tag tag', m.SameTag tag tag' → tag.isResolved = tag'.isResolved := by
    intro tag tag' hsame
    cases tag <;> cases tag' <;> first | rfl | cases hsame
  have hlogs : ∀ l l', List.Forall₂ m.SameTag l l' →
      l.any DeltaTag.isResolved = l'.any DeltaTag.isResolved := by
    intro l l' hl
    induction hl with
    | nil => rfl
    | cons hhead htail ih => rw [List.any_cons, List.any_cons, ih, htag _ _ hhead]
  exact hlogs _ _ (h.logs id)

theorem Agree.matched (h : m.Agree cce cce' logs logs') {k : IncidentKey} {v : IncidentView}
    (hv : view cce k = some v) : ∃ k' v', (k, k') ∈ m.pairs ∧ view cce' k' = some v' ∧
      m.SameIncident v v' := by
  obtain ⟨p, hp, rfl⟩ := List.mem_map.mp ((h.first k).mp (hv ▸ rfl))
  obtain ⟨v', hv'⟩ := Option.isSome_iff_exists.mp ((h.second p.2).mpr (List.mem_map_of_mem hp))
  exact ⟨p.2, v', hp, hv', h.shown p hp v v' hv hv'⟩

theorem Agree.matched_second (h : m.Agree cce cce' logs logs') {k' : IncidentKey}
    {v' : IncidentView} (hv' : view cce' k' = some v') : ∃ k v, (k, k') ∈ m.pairs ∧
      view cce k = some v ∧ m.SameIncident v v' := by
  obtain ⟨p, hp, rfl⟩ := List.mem_map.mp ((h.second k').mp (hv' ▸ rfl))
  obtain ⟨v, hv⟩ := Option.isSome_iff_exists.mp ((h.first p.1).mpr (List.mem_map_of_mem hp))
  exact ⟨p.1, v, hp, hv, h.shown p hp v v' hv hv'⟩

end Steps

end Matching

/-- Each incident is about its root alone, and each root has one incident. -/
structure Single (cce : ContaminationEngine) : Prop where
  keyed : Keyed cce
  alone : ∀ id, view cce (.inr id) = none
  single : ∀ id v, view cce (.inl id) = some v → ∃ r, v.roots = [r] ∧ v.deltas = {r}
  distinct : ∀ id id' v v', view cce (.inl id) = some v → view cce (.inl id') = some v' →
    v.roots = v'.roots → id = id'

/-- No incident has the root yet. -/
def Rootless (cce : ContaminationEngine) (root : DeltaId) : Prop :=
  ∀ id v, view cce (.inl id) = some v → root ∉ v.roots

theorem single_new : Single .new :=
  ⟨TagLogs.keyed_new, fun _ => rfl, fun _ _ hv => (by cases hv), fun _ _ _ _ hv => (by cases hv)⟩

section Singles
variable {cce cce' : ContaminationEngine}

theorem Single.of_views (h : Single cce) (hkeyed : Keyed cce')
    (hview : ∀ k, view cce' k = view cce k) : Single cce' := by
  refine ⟨hkeyed, fun id => ?_, fun id v hv => ?_, fun id id' v v' hv hv' => ?_⟩
  · rw [hview]
    exact h.alone id
  · rw [hview] at hv
    exact h.single id v hv
  · rw [hview] at hv hv'
    exact h.distinct id id' v v' hv hv'

theorem Single.register (h : Single cce) {v : IncidentView} {compositeId : IncidentId}
    {root : DeltaId} (heffect : RegisterEffect v compositeId cce cce') (hroots : v.roots = [root])
    (hdeltas : v.deltas = {root}) (hnew : Rootless cce root) :
    (∀ k, view cce' k = if k = .inl v.id then some v else view cce k) ∧ Single cce' := by
  have hkeyed := keyed_register h.keyed heffect
  cases heffect with
  | merged id u w hu hopen hmeet hmerge hid hview habsorbed hindex =>
    obtain ⟨r, hr, hdelta⟩ := h.single id u hu
    rw [hdelta, hdeltas, Finset.disjoint_singleton, not_not] at hmeet
    exact absurd (hr ▸ hmeet ▸ List.mem_singleton_self r) (hnew id u hu)
  | alone hdisjoint hview habsorbed hindex =>
    have hother : ∀ id u, view cce' (.inl id) = some u →
        id = v.id ∧ u = v ∨ view cce (.inl id) = some u := by
      intro id u hu
      rw [hview] at hu
      split_ifs at hu with hk
      · cases hu
        exact .inl ⟨Sum.inl.inj hk, rfl⟩
      · exact .inr hu
    refine ⟨hview, hkeyed, fun id => ?_, fun id u hu => ?_, fun id id' u u' hu hu' hsame => ?_⟩
    · rw [hview, if_neg (by simp)]
      exact h.alone id
    · rcases hother id u hu with ⟨-, rfl⟩ | hold
      · exact ⟨root, hroots, hdeltas⟩
      · exact h.single id u hold
    · rcases hother id u hu with ⟨rfl, rfl⟩ | hold
      · rcases hother id' u' hu' with ⟨rfl, -⟩ | hold'
        · rfl
        · refine absurd ?_ (hnew id' u' hold')
          rw [← hsame, hroots]
          exact List.mem_singleton_self root
      · rcases hother id' u' hu' with ⟨rfl, rfl⟩ | hold'
        · refine absurd ?_ (hnew id u hold)
          rw [hsame, hroots]
          exact List.mem_singleton_self root
        · exact h.distinct id id' u u' hold hold' hsame

theorem Single.close (h : Single cce) {id : IncidentId} {v : IncidentView}
    (hv : view cce (.inl id) = some v) {state : IncidentState}
    (hview : ∀ k, view cce' k =
      if k = .inl id then some { v with state := state } else view cce k) : Single cce' := by
  have hother : ∀ k u, view cce' k = some u → ∃ old, view cce k = some old ∧ u.id = old.id ∧
      u.roots = old.roots ∧ u.deltas = old.deltas := by
    intro k u hu
    rw [hview] at hu
    split_ifs at hu with hk
    · cases hu
      exact ⟨v, hk ▸ hv, rfl, rfl, rfl⟩
    · exact ⟨u, hu, rfl, rfl, rfl⟩
  refine ⟨⟨fun other u hu => ?_, fun other u hu => ?_⟩, fun other => ?_, fun other u hu => ?_,
    fun first second u u' hu hu' hroots => ?_⟩
  · obtain ⟨old, hold, hid, -⟩ := hother _ u hu
    exact hid.trans (h.keyed.1 other old hold)
  · obtain ⟨old, hold, hid, -⟩ := hother _ u hu
    exact hid.trans (h.keyed.2 other old hold)
  · rw [hview, if_neg (by simp)]
    exact h.alone other
  · obtain ⟨old, hold, -, hroots, hdeltas⟩ := hother _ u hu
    rw [hroots, hdeltas]
    exact h.single other old hold
  · obtain ⟨old, hold, -, hfirst, -⟩ := hother _ u hu
    obtain ⟨old', hold', -, hsecond, -⟩ := hother _ u' hu'
    exact h.distinct first second old old' hold hold' (by rw [← hfirst, ← hsecond, hroots])

theorem Single.incidentsOf (h : Single cce) {id : IncidentId} {v : IncidentView} {root : DeltaId}
    (hv : view cce (.inl id) = some v) (hroot : root ∈ v.roots) : cce.incidentsOf root = [id] := by
  have honly : ∀ other ∈ cce.incidentsOf root, other = id := by
    intro other hother
    obtain ⟨u, hu, hmem⟩ := (mem_incidentsOf h.keyed).mp hother
    obtain ⟨r, hr, -⟩ := h.single other u hu
    obtain ⟨r', hr', -⟩ := h.single id v hv
    rw [hr, List.mem_singleton] at hmem
    rw [hr', List.mem_singleton] at hroot
    exact h.distinct other id u v hu hv (by rw [hr, hr', ← hmem, ← hroot])
  have hnodup : (cce.incidentsOf root).Nodup := by
    have hkeys : ((cce.incidents.entries.map Sigma.snd).map IncidentContextObject.id) =
        cce.incidents.entries.map Sigma.fst := by
      rw [List.map_map]
      refine List.map_congr_left fun e he => ?_
      exact h.keyed.1 e.1 _ (view_incident (AList.mem_lookup_iff.mpr he))
    have hall : ((cce.incidents.entries.map Sigma.snd).map IncidentContextObject.id).Nodup :=
      hkeys ▸ cce.incidents.nodupKeys
    exact hall.sublist (List.filter_sublist.map _)
  refine List.perm_singleton.mp ((List.perm_ext_iff_of_nodup hnodup (List.nodup_singleton id)).mpr
    fun other => ?_)
  rw [List.mem_singleton]
  exact ⟨honly other, fun hid => hid ▸ (mem_incidentsOf h.keyed).mpr ⟨v, hv, hroot⟩⟩

theorem Single.incidentsOf_rootless (h : Single cce) {root : DeltaId} (hroot : Rootless cce root) :
    cce.incidentsOf root = [] := by
  rw [List.eq_nil_iff_forall_not_mem]
  intro id hid
  obtain ⟨v, hv, hmem⟩ := (mem_incidentsOf h.keyed).mp hid
  exact hroot id v hv hmem

theorem Single.compositesOf (h : Single cce) (root : DeltaId) (openOnly : Bool) :
    cce.compositesOf root openOnly = [] := by
  rw [List.eq_nil_iff_forall_not_mem]
  intro id hid
  obtain ⟨v, hv, -⟩ := (mem_compositesOf h.keyed).mp hid
  rw [h.alone id] at hv
  cases hv

theorem rootless_or (cce : ContaminationEngine) (root : DeltaId) :
    Rootless cce root ∨ ∃ id v, view cce (.inl id) = some v ∧ root ∈ v.roots := by
  by_cases h : ∃ id v, view cce (.inl id) = some v ∧ root ∈ v.roots
  · exact .inr h
  · exact .inl fun id v hv hmem => h ⟨id, v, hv, hmem⟩

section Matched
variable {m : Matching} {logs logs' : DeltaId → List DeltaTag}

theorem Single.matched (h : Single cce) (hagree : m.Agree cce cce' logs logs')
    (hkeyed : Keyed cce') : Single cce' := by
  have hincident : ∀ {id' : IncidentId} {v' : IncidentView}, view cce' (.inl id') = some v' →
      ∃ id v, (.inl id, .inl id') ∈ m.pairs ∧ view cce (.inl id) = some v ∧
        m.SameIncident v v' := by
    intro id' v' hv'
    obtain ⟨k, v, hp, hv, hsame⟩ := hagree.matched_second hv'
    cases k with
    | inl id => exact ⟨id, v, hp, hv, hsame⟩
    | inr id => cases m.kinds _ hp
  refine ⟨hkeyed, fun id' => ?_, fun id' v' hv' => ?_, fun id' id'' v' v'' hv' hv'' hroots => ?_⟩
  · rw [← Option.not_isSome_iff_eq_none]
    intro hsome
    obtain ⟨v', hv'⟩ := Option.isSome_iff_exists.mp hsome
    obtain ⟨k, v, hp, hv, -⟩ := hagree.matched_second hv'
    cases k with
    | inl id => cases m.kinds _ hp
    | inr id =>
      rw [h.alone id] at hv
      cases hv
  · obtain ⟨id, v, -, hv, hsame⟩ := hincident hv'
    obtain ⟨r, hr, hdelta⟩ := h.single id v hv
    exact ⟨r, hsame.roots ▸ hr, hsame.deltas ▸ hdelta⟩
  · obtain ⟨id, v, hp, hv, hsame⟩ := hincident hv'
    obtain ⟨id₂, v₂, hp₂, hv₂, hsame₂⟩ := hincident hv''
    obtain rfl := h.distinct id id₂ v v₂ hv hv₂ (by rw [hsame.roots, hsame₂.roots, hroots])
    exact Sum.inl.inj (congrArg Prod.snd (List.inj_on_of_nodup_map m.first hp hp₂ rfl))

theorem Rootless.matched {root : DeltaId} (h : Rootless cce root)
    (hagree : m.Agree cce cce' logs logs') : Rootless cce' root := by
  intro id' v' hv' hroot
  obtain ⟨k, v, hp, hv, hsame⟩ := hagree.matched_second hv'
  cases k with
  | inl id => exact h id v hv (hsame.roots ▸ hroot)
  | inr id => cases m.kinds _ hp

end Matched

end Singles

end TirBase.IncidentMatching
