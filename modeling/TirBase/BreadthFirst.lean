import Mathlib

/-! # Breadth-first walks

A walk over a graph that is given by the successors of each vertex. The queue may hold a vertex
several times; the vertices already visited are skipped. -/
namespace TirBase.BreadthFirst

variable {Vertex : Type*} [DecidableEq Vertex]

def walk (successors : Vertex → List Vertex) : ℕ → List Vertex → List Vertex → List Vertex
  | 0, visited, _ => visited
  | _, visited, [] => visited
  | fuel + 1, visited, current :: queue =>
    if current ∈ visited then walk successors fuel visited queue
    else
      walk successors fuel (visited ++ [current])
        (queue ++ (successors current).filter fun v => v ∉ visited ++ [current])

def Reaches (successors : Vertex → List Vertex) : Vertex → Vertex → Prop :=
  Relation.ReflTransGen fun v w => w ∈ successors v

def remaining (successors : Vertex → List Vertex) (keys : Finset Vertex) (visited : List Vertex) :
    ℕ := ∑ v ∈ keys \ visited.toFinset, (successors v).length

variable {successors : Vertex → List Vertex} {keys : Finset Vertex} {visited queue : List Vertex}
  {current root v w : Vertex}

theorem subset_walk (fuel : ℕ) (h : v ∈ visited) : v ∈ walk successors fuel visited queue := by
  induction fuel generalizing visited queue with
  | zero => exact h
  | succ fuel ih =>
    cases queue with
    | nil => exact h
    | cons current queue =>
      simp only [walk]
      split_ifs
      · exact ih h
      · exact ih (List.mem_append_left _ h)

theorem nodup_walk (fuel : ℕ) (h : visited.Nodup) :
    (walk successors fuel visited queue).Nodup := by
  induction fuel generalizing visited queue with
  | zero => exact h
  | succ fuel ih =>
    cases queue with
    | nil => exact h
    | cons current queue =>
      simp only [walk]
      split_ifs with hcurrent
      · exact ih h
      · refine ih (List.nodup_append.mpr ⟨h, List.nodup_singleton _, ?_⟩)
        intro a ha b hb hab
        rw [List.mem_singleton] at hb
        rw [hab, hb] at ha
        exact hcurrent ha

theorem reaches_of_mem_walk (fuel : ℕ) (h : w ∈ walk successors fuel visited queue) :
    w ∈ visited ∨ ∃ v ∈ queue, Reaches successors v w := by
  induction fuel generalizing visited queue with
  | zero => exact .inl h
  | succ fuel ih =>
    cases queue with
    | nil => exact .inl h
    | cons current queue =>
      simp only [walk] at h
      split_ifs at h with hcurrent
      · rcases ih h with hvisited | ⟨v, hv, hreach⟩
        · exact .inl hvisited
        · exact .inr ⟨v, List.mem_cons_of_mem _ hv, hreach⟩
      · rcases ih h with hvisited | ⟨v, hv, hreach⟩
        · rcases List.mem_append.mp hvisited with hvisited | hlast
          · exact .inl hvisited
          · rw [List.mem_singleton] at hlast
            rw [hlast]
            exact .inr ⟨current, List.mem_cons_self, .refl⟩
        · rcases List.mem_append.mp hv with hv | hv
          · exact .inr ⟨v, List.mem_cons_of_mem _ hv, hreach⟩
          · have hstep : v ∈ successors current := List.mem_of_mem_filter hv
            exact .inr ⟨current, List.mem_cons_self, .head hstep hreach⟩

theorem remaining_visit (hkeys : ∀ v, successors v ≠ [] → v ∈ keys) (hnew : current ∉ visited) :
    remaining successors keys (visited ++ [current]) + (successors current).length =
      remaining successors keys visited := by
  have hset : keys \ (visited ++ [current]).toFinset = (keys \ visited.toFinset).erase current := by
    ext v
    simp only [Finset.mem_sdiff, List.mem_toFinset, List.mem_append, List.mem_singleton,
      Finset.mem_erase]
    tauto
  rw [remaining, hset]
  by_cases hempty : successors current = []
  · rw [hempty, List.length_nil, Nat.add_zero, remaining]
    exact Finset.sum_erase _ (by rw [hempty, List.length_nil])
  · have hmem : current ∈ keys \ visited.toFinset :=
      Finset.mem_sdiff.mpr ⟨hkeys current hempty, by rwa [List.mem_toFinset]⟩
    exact Finset.sum_erase_add _ _ hmem

/-- With fuel for the queue and all that can still enter it, a walk visits the whole queue and ends
with a closed set. -/
theorem closed_walk (hkeys : ∀ v, successors v ≠ [] → v ∈ keys) (fuel : ℕ)
    (hfuel : queue.length + remaining successors keys visited ≤ fuel)
    (hclosed : ∀ v ∈ visited, ∀ w ∈ successors v, w ∈ visited ∨ w ∈ queue) :
    (∀ v ∈ queue, v ∈ walk successors fuel visited queue) ∧
      ∀ v ∈ walk successors fuel visited queue, ∀ w ∈ successors v,
        w ∈ walk successors fuel visited queue := by
  have hdone : ∀ visited : List Vertex,
      (∀ v ∈ visited, ∀ w ∈ successors v, w ∈ visited ∨ w ∈ ([] : List Vertex)) →
        (∀ v ∈ ([] : List Vertex), v ∈ visited) ∧ ∀ v ∈ visited, ∀ w ∈ successors v, w ∈ visited := by
    intro visited hclosed
    exact ⟨fun v hv => absurd hv List.not_mem_nil,
      fun v hv w hw => (hclosed v hv w hw).resolve_right List.not_mem_nil⟩
  induction fuel generalizing visited queue with
  | zero =>
    have hempty : queue = [] := List.eq_nil_of_length_eq_zero (by omega)
    subst hempty
    exact hdone visited hclosed
  | succ fuel ih =>
    cases queue with
    | nil => exact hdone visited hclosed
    | cons current queue =>
      rw [List.length_cons] at hfuel
      simp only [walk]
      split_ifs with hcurrent
      · have hclosed' : ∀ v ∈ visited, ∀ w ∈ successors v, w ∈ visited ∨ w ∈ queue := by
          intro v hv w hw
          rcases hclosed v hv w hw with hvisited | hqueue
          · exact .inl hvisited
          · rcases List.mem_cons.mp hqueue with rfl | hqueue
            · exact .inl hcurrent
            · exact .inr hqueue
        obtain ⟨hqueue, hsuccessors⟩ := ih (by omega) hclosed'
        refine ⟨fun v hv => ?_, hsuccessors⟩
        rcases List.mem_cons.mp hv with rfl | hv
        · exact subset_walk fuel hcurrent
        · exact hqueue v hv
      · have hvisit := remaining_visit hkeys hcurrent
        have hfilter := List.length_filter_le (fun v => decide (v ∉ visited ++ [current]))
          (successors current)
        have hclosed' : ∀ v ∈ visited ++ [current], ∀ w ∈ successors v, w ∈ visited ++ [current] ∨
            w ∈ queue ++ (successors current).filter fun v => v ∉ visited ++ [current] := by
          intro v hv w hw
          by_cases hw' : w ∈ visited ++ [current]
          · exact .inl hw'
          · refine .inr (List.mem_append.mpr ?_)
            rcases List.mem_append.mp hv with hv | hv
            · rcases hclosed v hv w hw with hvisited | hqueue
              · exact absurd (List.mem_append_left _ hvisited) hw'
              · rcases List.mem_cons.mp hqueue with rfl | hqueue
                · exact absurd (List.mem_append_right _ (List.mem_singleton_self w)) hw'
                · exact .inl hqueue
            · rw [List.mem_singleton.mp hv] at hw
              exact .inr (List.mem_filter.mpr ⟨hw, by simpa using hw'⟩)
        have hfuel' : (queue ++ (successors current).filter
            fun v => v ∉ visited ++ [current]).length +
              remaining successors keys (visited ++ [current]) ≤ fuel := by
          rw [List.length_append]
          omega
        obtain ⟨hqueue, hsuccessors⟩ := ih hfuel' hclosed'
        refine ⟨fun v hv => ?_, hsuccessors⟩
        rcases List.mem_cons.mp hv with rfl | hv
        · exact subset_walk fuel (List.mem_append_right _ (List.mem_singleton_self v))
        · exact hqueue v (List.mem_append_left _ hv)

theorem remaining_nil (successors : Vertex → List Vertex) (keys : Finset Vertex) :
    remaining successors keys [] = ∑ v ∈ keys, (successors v).length := by
  rw [remaining, List.toFinset_nil, Finset.sdiff_empty]

/-- With enough fuel a walk visits exactly what can be reached from its root. -/
theorem mem_walk_iff (hkeys : ∀ v, successors v ≠ [] → v ∈ keys) {fuel : ℕ}
    (hfuel : ∑ v ∈ keys, (successors v).length < fuel) :
    w ∈ walk successors fuel [] [root] ↔ Reaches successors root w := by
  have hfuel' : [root].length + remaining successors keys [] ≤ fuel := by
    rw [remaining_nil, List.length_singleton]
    omega
  obtain ⟨hroot, hclosed⟩ := closed_walk hkeys fuel hfuel' fun v hv => absurd hv List.not_mem_nil
  constructor
  · intro h
    rcases reaches_of_mem_walk fuel h with hvisited | ⟨v, hv, hreach⟩
    · exact absurd hvisited List.not_mem_nil
    · rw [List.mem_singleton.mp hv] at hreach
      exact hreach
  · intro h
    induction h with
    | refl => exact hroot root (List.mem_singleton_self root)
    | tail _ hstep ih => exact hclosed _ ih _ hstep

/-- As `walk`; no result when the queue is not empty after so many turns. -/
def walkChecked (successors : Vertex → List Vertex) :
    ℕ → List Vertex → List Vertex → Option (List Vertex)
  | _, visited, [] => some visited
  | 0, _, _ :: _ => none
  | fuel + 1, visited, current :: queue =>
    if current ∈ visited then walkChecked successors fuel visited queue
    else
      walkChecked successors fuel (visited ++ [current])
        (queue ++ (successors current).filter fun v => v ∉ visited ++ [current])

theorem walkChecked_eq (hkeys : ∀ v, successors v ≠ [] → v ∈ keys) (fuel : ℕ)
    (hfuel : queue.length + remaining successors keys visited ≤ fuel) :
    walkChecked successors fuel visited queue = some (walk successors fuel visited queue) := by
  induction fuel generalizing visited queue with
  | zero =>
    have hempty : queue = [] := List.eq_nil_of_length_eq_zero (by omega)
    rw [hempty]
    rfl
  | succ fuel ih =>
    cases queue with
    | nil => rfl
    | cons current queue =>
      rw [List.length_cons] at hfuel
      simp only [walkChecked, walk]
      split_ifs with hcurrent
      · exact ih (by omega)
      · have hvisit := remaining_visit hkeys hcurrent
        have hfilter := List.length_filter_le (fun v => decide (v ∉ visited ++ [current]))
          (successors current)
        refine ih ?_
        rw [List.length_append]
        omega

theorem walkChecked_add (more fuel : ℕ) {result : List Vertex}
    (h : walkChecked successors fuel visited queue = some result) :
    walkChecked successors (fuel + more) visited queue = some result := by
  induction fuel generalizing visited queue with
  | zero =>
    cases queue with
    | nil => simpa only [walkChecked] using h
    | cons current queue => simp [walkChecked] at h
  | succ fuel ih =>
    cases queue with
    | nil => simpa only [walkChecked] using h
    | cons current queue =>
      rw [Nat.succ_add]
      simp only [walkChecked] at h ⊢
      split_ifs at h ⊢
      · exact ih h
      · exact ih h

theorem prefix_walk (fuel : ℕ) : visited <+: walk successors fuel visited queue := by
  induction fuel generalizing visited queue with
  | zero => exact List.prefix_rfl
  | succ fuel ih =>
    cases queue with
    | nil => exact List.prefix_rfl
    | cons current queue =>
      simp only [walk]
      split_ifs
      · exact ih
      · exact (List.prefix_append visited [current]).trans ih

theorem head_walk (fuel : ℕ) : (walk successors (fuel + 1) [] [root]).head? = some root := by
  simp only [walk, List.not_mem_nil, if_false, List.nil_append]
  have hprefix : [root] <+: walk successors fuel [root]
      ((successors root).filter fun v => v ∉ [root]) := prefix_walk fuel
  obtain ⟨rest, hrest⟩ := hprefix
  rw [← hrest]
  rfl

end TirBase.BreadthFirst
