import TirBase.IncidentRuns

/-! # What is added to a tag log

Tags are only added where every log is read before a tag is appended to it. -/
namespace TirBase.TagLogs
open IncidentRuns ContaminationEngine

def tagsOf (dag : ChangesetDag) (id : DeltaId) : Option (List DeltaTag) :=
  (dag.get id).map DagRow.tagsJson

/-- Every log is kept, and whatever is new in a log is allowed there. -/
structure Grows (allowed : DeltaId → DeltaTag → Prop) (dag dag' : ChangesetDag) : Prop where
  kept : ∀ id l, tagsOf dag id = some l →
    ∃ new, tagsOf dag' id = some (l ++ new) ∧ ∀ t ∈ new, allowed id t
  fresh : ∀ id l, tagsOf dag id = none → tagsOf dag' id = some l → ∀ t ∈ l, allowed id t

section Grows
variable {allowed allowed' : DeltaId → DeltaTag → Prop} {dag dag' dag'' : ChangesetDag}

theorem Grows.refl (allowed : DeltaId → DeltaTag → Prop) (dag : ChangesetDag) :
    Grows allowed dag dag :=
  ⟨fun id l hl => ⟨[], by simpa using hl, by simp⟩, fun id l hnone hl => by
    rw [hnone] at hl
    cases hl⟩

theorem Grows.trans (h : Grows allowed dag dag') (h' : Grows allowed dag' dag'') :
    Grows allowed dag dag'' := by
  constructor
  · intro id l hl
    obtain ⟨new, hnew, hallowed⟩ := h.kept id l hl
    obtain ⟨new', hnew', hallowed'⟩ := h'.kept id _ hnew
    refine ⟨new ++ new', by rw [hnew', List.append_assoc], fun t ht => ?_⟩
    rcases List.mem_append.mp ht with ht | ht
    · exact hallowed t ht
    · exact hallowed' t ht
  · intro id l hnone hl t ht
    cases hmiddle : tagsOf dag' id with
    | none => exact h'.fresh id l hmiddle hl t ht
    | some l' =>
      obtain ⟨new, hnew, hallowed⟩ := h'.kept id l' hmiddle
      rw [hl] at hnew
      cases hnew
      rcases List.mem_append.mp ht with ht | ht
      · exact h.fresh id l' hnone hmiddle t ht
      · exact hallowed t ht

theorem Grows.mono (h : Grows allowed dag dag') (hle : ∀ id t, allowed id t → allowed' id t) :
    Grows allowed' dag dag' := by
  refine ⟨fun id l hl => ?_, fun id l hnone hl t ht => hle id t (h.fresh id l hnone hl t ht)⟩
  obtain ⟨new, hnew, hallowed⟩ := h.kept id l hl
  exact ⟨new, hnew, fun t ht => hle id t (hallowed t ht)⟩

theorem Grows.mem (h : Grows allowed dag dag') {id : DeltaId} {l : List DeltaTag} {t : DeltaTag}
    (hl : tagsOf dag' id = some l) (ht : t ∈ l) :
    allowed id t ∨ ∃ l', tagsOf dag id = some l' ∧ t ∈ l' := by
  cases hbefore : tagsOf dag id with
  | none => exact .inl (h.fresh id l hbefore hl t ht)
  | some l' =>
    obtain ⟨new, hnew, hallowed⟩ := h.kept id l' hbefore
    rw [hl] at hnew
    cases hnew
    rcases List.mem_append.mp ht with ht | ht
    · exact .inr ⟨l', rfl, ht⟩
    · exact .inl (hallowed t ht)

theorem Grows.hasResolvedTag (h : Grows allowed dag dag') {id : DeltaId}
    (hid : dag.hasResolvedTag id = true) : dag'.hasResolvedTag id = true := by
  change ((tagsOf dag id).getD []).any DeltaTag.isResolved = true at hid
  change ((tagsOf dag' id).getD []).any DeltaTag.isResolved = true
  cases hl : tagsOf dag id with
  | none =>
    rw [hl] at hid
    cases hid
  | some l =>
    obtain ⟨new, hnew, -⟩ := h.kept id l hl
    rw [hl] at hid
    rw [hnew]
    simp only [Option.getD_some] at hid ⊢
    rw [List.any_append, hid, Bool.true_or]

theorem tagsOf_storeEach (log : LogEnvironment) (dag : ChangesetDag) (stored : DeltaId → Bool)
    (tag : DeltaTag) (id : DeltaId) : tagsOf (storeEach log dag stored tag) id =
      (tagsOf dag id).map fun l =>
        if stored id then (if log.unread id tag then [] else l) ++ [tag] else l := by
  have hid : ∀ r : DagRow, (if stored r.id then storeTag log tag r else r).id = r.id := by
    intro r
    split_ifs <;> rfl
  rw [tagsOf, storeEach, get_map hid, tagsOf, Option.map_map, Option.map_map]
  cases hget : dag.get id with
  | none => rfl
  | some r =>
    have hsame : r.id = id := by simpa using List.find?_some hget
    simp only [Option.map_some, Function.comp_apply, hsame]
    split_ifs <;> simp_all [storeTag]

@[simp] theorem graph_storeEach (log : LogEnvironment) (dag : ChangesetDag)
    (stored : DeltaId → Bool) (tag : DeltaTag) : (storeEach log dag stored tag).graph = dag.graph := by
  simp only [ChangesetDag.graph, ChangesetDag.ids, storeEach, List.map_map]
  congr 1
  refine List.map_congr_left fun r _ => ?_
  simp only [Function.comp_apply]
  split_ifs <;> rfl

/-- Where no log is lost, an append is all that happens. -/
theorem grows_storeEach {log : LogEnvironment} {stored : DeltaId → Bool} {tag : DeltaTag}
    (hread : ∀ id ∈ dag.ids, log.unread id tag = false)
    (hallowed : ∀ id, stored id = true → allowed id tag) :
    Grows allowed dag (storeEach log dag stored tag) := by
  constructor
  · intro id l hl
    have hstored : id ∈ dag.ids := by
      obtain ⟨r, hr, -⟩ := Option.map_eq_some_iff.mp hl
      have hsame : r.id = id := by simpa using List.find?_some hr
      exact List.mem_map.mpr ⟨r, List.mem_of_find?_eq_some hr, hsame⟩
    rw [tagsOf_storeEach, hl, Option.map_some, hread id hstored]
    by_cases hid : stored id = true
    · refine ⟨[tag], by simp [hid], fun t ht => ?_⟩
      rw [List.mem_singleton.mp ht]
      exact hallowed id hid
    · exact ⟨[], by simp [hid], by simp⟩
  · intro id l hnone hl
    rw [tagsOf_storeEach, hnone] at hl
    cases hl

theorem tagsOf_insert (dag : ChangesetDag) (node : DagNode) (id : DeltaId) :
    tagsOf (dag.insert node) id =
      if node.deltaId ∉ dag.ids ∧ id = node.deltaId then some [] else tagsOf dag id := by
  have hid : node.row.id = node.deltaId := rfl
  by_cases hstored : node.deltaId ∈ dag.ids
  · have hmem : node.row.id ∈ dag.nodes.map DagRow.id := hstored
    simp [tagsOf, ChangesetDag.get, ChangesetDag.insert, ChangesetDag.insertRow, hmem, hstored]
  · have hmem : node.row.id ∉ dag.nodes.map DagRow.id := hstored
    simp only [tagsOf, ChangesetDag.get, ChangesetDag.insert, ChangesetDag.insertRow, hmem,
      if_false, List.find?_append, hstored, not_false_eq_true, true_and]
    by_cases hnew : id = node.deltaId
    · subst hnew
      have habsent : dag.nodes.find? (fun r => r.id = node.deltaId) = none := by
        refine List.find?_eq_none.mpr fun r hr => ?_
        simpa using fun hsame : r.id = node.deltaId => hstored (List.mem_map.mpr ⟨r, hr, hsame⟩)
      simp [habsent, DagNode.row]
    · have hother : ¬node.deltaId = id := fun h => hnew h.symm
      cases hfound : dag.nodes.find? (fun r => r.id = id) with
      | none => simp [hid, hother, hnew]
      | some r => simp [hnew]

theorem grows_insert (allowed : DeltaId → DeltaTag → Prop) (dag : ChangesetDag) (node : DagNode) :
    Grows allowed dag (dag.insert node) := by
  constructor
  · intro id l hl
    refine ⟨[], ?_, by simp⟩
    rw [tagsOf_insert, if_neg, hl, List.append_nil]
    rintro ⟨habsent, rfl⟩
    obtain ⟨r, hr, -⟩ := Option.map_eq_some_iff.mp hl
    have hsame : r.id = node.deltaId := by simpa using List.find?_some hr
    exact habsent (List.mem_map.mpr ⟨r, List.mem_of_find?_eq_some hr, hsame⟩)
  · intro id l hnone hl t ht
    rw [tagsOf_insert] at hl
    split_ifs at hl
    · cases hl
      cases ht
    · rw [hnone] at hl
      cases hl

end Grows

end TirBase.TagLogs
