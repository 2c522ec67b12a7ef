import Mathlib

/-! # Kahn's sort in batches

Edges may come more than once; each counts. The nodes that a taken node sets free are put in order
before they are queued. Without cycles every node is taken, and its predecessors are taken before
it. -/
namespace TirBase.KahnBatches

structure Progress (V : Type*) where
  degree : V → ℕ
  ready : List V
  sorted : List V

variable {V : Type*} [DecidableEq V]

def inDegree (edges : List (V × V)) (v : V) : ℕ := edges.countP fun e => e.2 = v

def childrenOf (edges : List (V × V)) (v : V) : List V :=
  (edges.filter fun e => e.1 = v).map Prod.snd

/-- Lower a child's degree; it is free when nothing holds it back any more. -/
def relax (s : (V → ℕ) × List V) (child : V) : (V → ℕ) × List V :=
  let degree := s.1 child - 1
  (Function.update s.1 child degree, if degree = 0 then s.2 ++ [child] else s.2)

def take (edges : List (V × V)) (order : List V → List V) (s : Progress V) (v : V)
    (rest : List V) : Progress V :=
  let freed := (childrenOf edges v).foldl relax (s.degree, [])
  ⟨freed.1, rest ++ order freed.2, s.sorted ++ [v]⟩

def drain (edges : List (V × V)) (order : List V → List V) : ℕ → Progress V → Progress V
  | 0, s => s
  | fuel + 1, s =>
    match s.ready with
    | [] => s
    | v :: rest => drain edges order fuel (take edges order s v rest)

def start (nodes : List V) (edges : List (V × V)) (order : List V → List V) : Progress V :=
  ⟨inDegree edges, order (nodes.filter fun v => inDegree edges v = 0), []⟩

def sort (nodes : List V) (edges : List (V × V)) (order : List V → List V) : List V :=
  (drain edges order nodes.length (start nodes edges order)).sorted

theorem count_le_update {degree : V → ℕ} {c : V} {children : List V}
    (hcount : ∀ v, (c :: children).count v ≤ degree v) (v : V) :
    children.count v ≤ Function.update degree c (degree c - 1) v := by
  have hv := hcount v
  by_cases hvc : v = c
  · subst hvc
    rw [List.count_cons_self] at hv
    rw [Function.update_self]
    omega
  · rw [List.count_cons_of_ne (Ne.symm hvc)] at hv
    rwa [Function.update_of_ne hvc]

/-- What later edges leave of a degree is what all of them leave of the degree before. -/
theorem update_sub_count (degree : V → ℕ) (c : V) (children : List V) (v : V) :
    Function.update degree c (degree c - 1) v - children.count v =
      degree v - (c :: children).count v := by
  by_cases hvc : v = c
  · subst hvc
    rw [Function.update_self, List.count_cons_self]
    omega
  · rw [Function.update_of_ne hvc, List.count_cons_of_ne (Ne.symm hvc)]

/-- A child is set free by the last of the edges that hold it back. -/
theorem foldl_relax {degree : V → ℕ} (children freed : List V)
    (hcount : ∀ v, children.count v ≤ degree v)
    (hfreed : ∀ v ∈ freed, v ∉ children) (hnodup : freed.Nodup) :
    let out := children.foldl relax (degree, freed)
    (∀ v, out.1 v = degree v - children.count v) ∧ out.2.Nodup ∧
      ∀ v, v ∈ out.2 ↔ v ∈ freed ∨ v ∈ children ∧ degree v = children.count v := by
  induction children generalizing degree freed with
  | nil => simpa using hnodup
  | cons c children ih =>
    have hc := hcount c
    rw [List.count_cons_self] at hc
    have hcount' := count_le_update hcount
    have hleft := update_sub_count degree c children
    have hnew : ∀ v, degree v = (c :: children).count v ↔
        Function.update degree c (degree c - 1) v = children.count v := by
      intro v
      have hbefore := hcount v
      have hafter := hcount' v
      have hv := hleft v
      omega
    by_cases hzero : degree c - 1 = 0
    · have hlast : c ∉ children := by
        intro hmem
        have hpos := List.count_pos_iff.mpr hmem
        omega
      have hfree : c ∉ freed := fun hmem => hfreed c hmem List.mem_cons_self
      obtain ⟨hdegree, hnodup', hmem⟩ := ih (freed ++ [c]) hcount'
        (fun v hv => by
          rcases List.mem_append.mp hv with hv | hv
          · exact fun hchild => hfreed v hv (List.mem_cons_of_mem c hchild)
          · rw [List.mem_singleton.mp hv]
            exact hlast)
        (hnodup.append (List.nodup_singleton c) (List.disjoint_singleton.mpr hfree))
      simp only [List.foldl_cons, relax, hzero, if_true] at hdegree hnodup' hmem ⊢
      refine ⟨fun v => ?_, hnodup', fun v => ?_⟩
      · rw [hdegree, ← hzero]
        exact hleft v
      · rw [hmem, hnew v, hzero]
        by_cases hvc : v = c
        · subst hvc
          simp [hlast, List.count_eq_zero.mpr hlast]
        · simp [hvc]
    · obtain ⟨hdegree, hnodup', hmem⟩ := ih freed hcount'
        (fun v hv hchild => hfreed v hv (List.mem_cons_of_mem c hchild)) hnodup
      simp only [List.foldl_cons, relax, hzero, if_false] at hdegree hnodup' hmem ⊢
      refine ⟨fun v => ?_, hnodup', fun v => ?_⟩
      · rw [hdegree]
        exact hleft v
      · rw [hmem, hnew v]
        by_cases hvc : v = c
        · subst hvc
          have hlater : Function.update degree v (degree v - 1) v = children.count v →
              v ∈ children := by
            intro heq
            rw [Function.update_self] at heq
            exact List.count_pos_iff.mp (by omega)
          constructor
          · rintro (h | ⟨-, h⟩)
            · exact .inl h
            · exact .inr ⟨List.mem_cons_self, h⟩
          · rintro (h | ⟨-, h⟩)
            · exact .inl h
            · exact .inr ⟨hlater h, h⟩
        · simp [hvc]

def openDegree (edges : List (V × V)) (sorted : List V) (v : V) : ℕ :=
  edges.countP fun e => decide (e.2 = v) && decide (e.1 ∉ sorted)

structure DrainInvariant (nodes : List V) (edges : List (V × V)) (s : Progress V) : Prop where
  degree : ∀ v, s.degree v = openDegree edges s.sorted v
  nodup : (s.ready ++ s.sorted).Nodup
  ready : ∀ v, v ∈ s.ready ++ s.sorted ↔ v ∈ nodes ∧ openDegree edges s.sorted v = 0
  before : ∀ earlier v later, s.sorted = earlier ++ v :: later → ∀ p, (p, v) ∈ edges → p ∈ earlier

section Order
variable {nodes : List V} {edges : List (V × V)} {order : List V → List V}

theorem openDegree_eq_zero {sorted : List V} {v : V} :
    openDegree edges sorted v = 0 ↔ ∀ p, (p, v) ∈ edges → p ∈ sorted := by
  simp only [openDegree, List.countP_eq_zero, Bool.and_eq_true, decide_eq_true_eq, not_and, not_not]
  exact ⟨fun h p hp => h (p, v) hp rfl, fun h e he hv => h e.1 (by rw [← hv]; exact he)⟩

theorem openDegree_sorted {sorted : List V} {v : V} (hv : v ∉ sorted) (c : V) :
    openDegree edges (sorted ++ [v]) c + (childrenOf edges v).count c =
      openDegree edges sorted c := by
  induction edges with
  | nil => rfl
  | cons e edges ih =>
    simp only [openDegree, childrenOf, List.countP_cons, List.filter_cons] at ih ⊢
    by_cases hev : e.1 = v
    · by_cases hc : e.2 = c
      · simp [hev, hc, hv] at ih ⊢
        omega
      · simp [hev, hc, hv] at ih ⊢
        omega
    · by_cases hmem : e.1 ∈ sorted
      · simp [hev, hmem] at ih ⊢
        omega
      · simp [hev, hmem] at ih ⊢
        omega

theorem drainInvariant_start (hnodes : nodes.Nodup) (hperm : ∀ l, (order l).Perm l) :
    DrainInvariant nodes edges (start nodes edges order) := by
  have hdegree : ∀ v, inDegree edges v = openDegree edges [] v := by
    intro v
    simp [inDegree, openDegree]
  refine ⟨hdegree, ?_, fun v => ?_, fun earlier v later h => ?_⟩
  · simp only [start, List.append_nil]
    exact (hperm _).nodup_iff.mpr (hnodes.filter _)
  · simp [start, (hperm _).mem_iff, hdegree]
  · simp [start] at h

/-- Where the invariant holds, an edge to a child is one of those that hold it back. -/
theorem DrainInvariant.count_le {s : Progress V} {v : V} {rest : List V}
    (h : DrainInvariant nodes edges s) (hready : s.ready = v :: rest) (c : V) :
    (childrenOf edges v).count c ≤ s.degree c := by
  have hnodup := h.nodup
  rw [hready, List.cons_append, List.nodup_cons] at hnodup
  have hfresh : v ∉ s.sorted := fun hmem => hnodup.1 (List.mem_append_right _ hmem)
  have hopen : openDegree edges (s.sorted ++ [v]) c + (childrenOf edges v).count c =
      openDegree edges s.sorted c := openDegree_sorted hfresh c
  rw [h.degree]
  omega

theorem drainInvariant_take {s : Progress V} {v : V} {rest : List V}
    (hperm : ∀ l, (order l).Perm l) (hedges : ∀ p c, (p, c) ∈ edges → c ∈ nodes)
    (h : DrainInvariant nodes edges s) (hready : s.ready = v :: rest) :
    DrainInvariant nodes edges (take edges order s v rest) := by
  have hnodup := h.nodup
  rw [hready, List.cons_append, List.nodup_cons] at hnodup
  obtain ⟨hvfresh, hnodup⟩ := hnodup
  have hvsorted : v ∉ s.sorted := fun hmem => hvfresh (List.mem_append_right _ hmem)
  have hopen : ∀ c, openDegree edges (s.sorted ++ [v]) c + (childrenOf edges v).count c =
      openDegree edges s.sorted c := openDegree_sorted hvsorted
  have hparents : ∀ p, (p, v) ∈ edges → p ∈ s.sorted :=
    openDegree_eq_zero.mp ((h.ready v).mp (by simp [hready])).2
  obtain ⟨hdegree, hfreednodup, hfreed⟩ := foldl_relax (childrenOf edges v) []
    (h.count_le hready)
    (fun c hc => absurd hc List.not_mem_nil) List.nodup_nil
  simp only [List.not_mem_nil, false_or] at hfreed
  have hchild : ∀ c, c ∈ childrenOf edges v → c ∈ nodes := by
    intro c hc
    obtain ⟨e, he, rfl⟩ := List.mem_map.mp hc
    exact hedges e.1 e.2 (List.mem_filter.mp he).1
  -- a freed node was held back until now, so it is not among the others
  have hnew : ∀ c, c ∈ childrenOf edges v → c ∉ rest ++ s.sorted ∧ c ≠ v := by
    intro c hc
    have hpos := List.count_pos_iff.mpr hc
    have hheld := hopen c
    have hnotready : c ∉ s.ready ++ s.sorted := fun hmem => by
      have hzero := ((h.ready c).mp hmem).2
      omega
    rw [hready, List.cons_append, List.mem_cons, not_or] at hnotready
    exact ⟨hnotready.2, hnotready.1⟩
  refine ⟨fun c => ?_, ?_, fun c => ?_, fun earlier w later hsplit p hp => ?_⟩
  · have hc := hopen c
    simp only [take]
    rw [hdegree, h.degree]
    omega
  · have hdisjoint : List.Disjoint ((childrenOf edges v).foldl relax (s.degree, [])).2
        (v :: (rest ++ s.sorted)) := by
      intro c hc hmem
      have hfree := hnew c ((hfreed c).mp hc).1
      rcases List.mem_cons.mp hmem with hcv | hmem
      · exact hfree.2 hcv
      · exact hfree.1 hmem
    have hall : (((childrenOf edges v).foldl relax (s.degree, [])).2 ++
        v :: (rest ++ s.sorted)).Nodup :=
      hfreednodup.append (List.nodup_cons.mpr ⟨hvfresh, hnodup⟩) hdisjoint
    refine (List.Perm.nodup_iff ?_).mpr hall
    simp only [take]
    have hsplit : (rest ++ order ((childrenOf edges v).foldl relax (s.degree, [])).2 ++
        (s.sorted ++ [v])).Perm (rest ++ ((childrenOf edges v).foldl relax (s.degree, [])).2 ++
        (s.sorted ++ [v])) := ((hperm _).append_left _).append_right _
    refine hsplit.trans ?_
    rw [List.perm_iff_count]
    intro c
    simp only [List.count_append, List.count_cons, List.count_nil]
    omega
  · have hc := hopen c
    have hold := h.ready c
    rw [hready, List.cons_append, List.mem_cons, List.mem_append] at hold
    simp only [take, List.mem_append, (hperm _).mem_iff, hfreed, h.degree, List.mem_singleton]
    by_cases hmem : c ∈ childrenOf edges v
    · have hpos := List.count_pos_iff.mpr hmem
      have hfree := hnew c hmem
      rw [List.mem_append, not_or] at hfree
      simp only [hfree.1.1, hfree.1.2, hfree.2, hmem, hchild c hmem, false_or, or_false, true_and]
      omega
    · rw [List.count_eq_zero.mpr hmem, Nat.add_zero] at hc
      simp only [hmem, false_and, or_false]
      rw [hc, ← hold]
      tauto
  · simp only [take] at hsplit
    rcases List.eq_nil_or_concat later with rfl | ⟨later', w', rfl⟩
    · obtain ⟨rfl, hw⟩ := List.append_inj' hsplit rfl
      cases hw
      exact hparents p hp
    · rw [List.concat_eq_append, ← List.cons_append, ← List.append_assoc] at hsplit
      obtain ⟨hsorted, -⟩ := List.append_inj' hsplit rfl
      exact h.before earlier w later' hsorted p hp

theorem length_sorted_le {s : Progress V} (h : DrainInvariant nodes edges s) :
    (s.ready ++ s.sorted).length ≤ nodes.length :=
  (List.subperm_of_subset h.nodup fun v hv => ((h.ready v).mp hv).1).length_le

theorem drain_spec (hperm : ∀ l, (order l).Perm l) (hedges : ∀ p c, (p, c) ∈ edges → c ∈ nodes)
    (fuel : ℕ) {s : Progress V} (h : DrainInvariant nodes edges s)
    (hfuel : nodes.length ≤ fuel + s.sorted.length) :
    DrainInvariant nodes edges (drain edges order fuel s) ∧
      (drain edges order fuel s).ready = [] := by
  induction fuel generalizing s with
  | zero =>
    have hlength := length_sorted_le h
    rw [List.length_append] at hlength
    exact ⟨h, List.length_eq_zero_iff.mp (by simp only [drain]; omega)⟩
  | succ fuel ih =>
    cases hready : s.ready with
    | nil => simpa [drain, hready] using h
    | cons v rest =>
      have hnext := ih (drainInvariant_take hperm hedges h hready) (by simp [take]; omega)
      simpa [drain, hready] using hnext

def EdgeOf (edges : List (V × V)) (p c : V) : Prop := (p, c) ∈ edges

/-- Whatever the edges, a node is taken once at most, when all its predecessors have been. -/
structure Taken (nodes : List V) (edges : List (V × V)) (sorted : List V) : Prop where
  nodup : sorted.Nodup
  mem_iff : ∀ v, v ∈ sorted ↔ v ∈ nodes ∧ ∀ p, (p, v) ∈ edges → p ∈ sorted
  before : ∀ earlier v later, sorted = earlier ++ v :: later → ∀ p, (p, v) ∈ edges → p ∈ earlier

theorem drain_taken {first order : List V → List V} (hnodes : nodes.Nodup)
    (hfirst : ∀ l, (first l).Perm l) (hperm : ∀ l, (order l).Perm l)
    (hedges : ∀ p c, (p, c) ∈ edges → c ∈ nodes) :
    Taken nodes edges
      (drain edges order nodes.length (start nodes edges first)).sorted := by
  obtain ⟨h, hready⟩ := drain_spec hperm hedges nodes.length
    (drainInvariant_start hnodes hfirst) (Nat.le_add_right _ _)
  have hsorted := h.ready
  have hnodup := h.nodup
  rw [hready, List.nil_append] at hnodup
  simp only [hready, List.nil_append, openDegree_eq_zero] at hsorted
  exact ⟨hnodup, hsorted, h.before⟩

omit [DecidableEq V] in
theorem Taken.acc {sorted : List V} (h : Taken nodes edges sorted) {v : V} (hv : v ∈ sorted) :
    Acc (EdgeOf edges) v := by
  have hall : ∀ n earlier v later, earlier.length = n → sorted = earlier ++ v :: later →
      Acc (EdgeOf edges) v := by
    intro n
    induction n using Nat.strong_induction_on with
    | _ n ih =>
      intro earlier v later hn hsplit
      refine .intro _ fun p hp => ?_
      obtain ⟨first, second, hearlier⟩ := List.append_of_mem (h.before earlier v later hsplit p hp)
      have hlength : first.length < n := by
        rw [← hn, hearlier, List.length_append, List.length_cons]
        omega
      refine ih first.length hlength first p (second ++ v :: later) rfl ?_
      rw [hsplit, hearlier, List.append_assoc, List.cons_append]
  obtain ⟨earlier, later, hsplit⟩ := List.append_of_mem hv
  exact hall _ earlier v later rfl hsplit

/-- Along a rank that every edge raises, the sort lists each node once and behind its
predecessors. -/
theorem sort_spec (hnodes : nodes.Nodup) (hperm : ∀ l, (order l).Perm l)
    (hedges : ∀ p c, (p, c) ∈ edges → p ∈ nodes ∧ c ∈ nodes) (rank : V → ℕ)
    (hrank : ∀ p c, (p, c) ∈ edges → rank p < rank c) :
    (sort nodes edges order).Nodup ∧ (∀ v, v ∈ sort nodes edges order ↔ v ∈ nodes) ∧
      ∀ earlier v later, sort nodes edges order = earlier ++ v :: later →
        ∀ p, (p, v) ∈ edges → p ∈ earlier := by
  have h : Taken nodes edges (sort nodes edges order) :=
    drain_taken hnodes hperm hperm fun p c hpc => (hedges p c hpc).2
  have hall : ∀ n v, rank v < n → v ∈ nodes → v ∈ sort nodes edges order := by
    intro n
    induction n with
    | zero => exact fun v hv => absurd hv (Nat.not_lt_zero _)
    | succ n ih =>
      intro v hv hmem
      refine (h.mem_iff v).mpr ⟨hmem, fun p hp => ?_⟩
      have hless := hrank p v hp
      exact ih p (by omega) (hedges p v hp).1
  exact ⟨h.nodup, fun v => ⟨fun hv => ((h.mem_iff v).mp hv).1, hall _ v (Nat.lt_succ_self _)⟩,
    h.before⟩

end Order

end TirBase.KahnBatches
