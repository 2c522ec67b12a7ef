import Mathlib
import TirBase.KahnBatches

/-! # Kahn's topological sort

Nodes are taken when no edge from an untaken node leads to them. An edge may start at a node
that is not listed; such a node is never taken, and neither is anything behind it. -/
namespace TirBase.KahnSort

structure Graph (V : Type*) where
  nodes : List V
  edges : List (V × V)

structure Progress (V : Type*) where
  degree : V → ℕ
  queue : List V
  sorted : List V

variable {V : Type*} [DecidableEq V]

namespace Graph
variable (g : Graph V)

/-- The nodes with an in-degree entry: those listed and those an edge leads to. -/
def keys : List V := (g.nodes ++ g.edges.map Prod.snd).dedup

def inDegree (v : V) : ℕ := (g.edges.filter fun e => e.2 = v).length

def childrenOf (v : V) : List V := (g.edges.filter fun e => e.1 = v).map Prod.snd

end Graph

def relax (s : Progress V) (child : V) : Progress V :=
  let degree := s.degree child - 1
  { s with
    degree := Function.update s.degree child degree
    queue := if degree = 0 then s.queue ++ [child] else s.queue }

def drain (g : Graph V) : ℕ → Progress V → Progress V
  | 0, s => s
  | fuel + 1, s =>
    match s.queue with
    | [] => s
    | v :: rest =>
      drain g fuel
        ((g.childrenOf v).foldl relax { s with queue := rest, sorted := s.sorted ++ [v] })

def start (g : Graph V) (order : List V → List V) : Progress V :=
  ⟨g.inDegree, order (g.keys.filter fun v => g.inDegree v = 0), []⟩

/-- Kahn's sort; `order` is the order in which the initial entries are queued. -/
def sort (g : Graph V) (order : List V → List V) : List V :=
  (drain g g.keys.length (start g order)).sorted

/-- A node with an entry all of whose predecessors are grounded. -/
inductive Grounded (g : Graph V) : V → Prop
  | intro {v : V} (entry : v ∈ g.keys) (parents : ∀ p, (p, v) ∈ g.edges → Grounded g p) :
      Grounded g v

def Progress.batched (s : Progress V) : KahnBatches.Progress V := ⟨s.degree, s.queue, s.sorted⟩

theorem foldl_relax_batched (children : List V) (s : Progress V) {f : List V} (queue : List V)
    (h : s.queue = queue ++ f) :
    let out := children.foldl KahnBatches.relax (s.degree, f)
    children.foldl relax s = ⟨out.1, queue ++ out.2, s.sorted⟩ := by
  induction children generalizing s f with
  | nil =>
    simp only [List.foldl_nil, ← h]
  | cons c children ih =>
    by_cases hzero : s.degree c - 1 = 0
    · have hnext := ih (f := f ++ [c]) (relax s c) (by
        simp only [relax, hzero, if_true, h, List.append_assoc])
      simpa only [List.foldl_cons, relax, KahnBatches.relax, hzero, if_true] using hnext
    · have hnext := ih (f := f) (relax s c) (by
        simp only [relax, hzero, if_false, h])
      simpa only [List.foldl_cons, relax, KahnBatches.relax, hzero, if_false] using hnext

theorem drain_batched (g : Graph V) (fuel : ℕ) (s : Progress V) :
    (drain g fuel s).batched = KahnBatches.drain g.edges id fuel s.batched := by
  induction fuel generalizing s with
  | zero => rfl
  | succ fuel ih =>
    obtain ⟨degree, queue, sorted⟩ := s
    cases queue with
    | nil => rfl
    | cons v rest =>
      have hchildren : g.childrenOf v = KahnBatches.childrenOf g.edges v := rfl
      have hfold := foldl_relax_batched (g.childrenOf v) ⟨degree, rest, sorted ++ [v]⟩ rest
        (f := []) (List.append_nil rest).symm
      simp only [drain, KahnBatches.drain, Progress.batched] at ih ⊢
      rw [ih, hfold, hchildren]
      rfl

theorem start_batched (g : Graph V) (order : List V → List V) :
    (start g order).batched = KahnBatches.start g.keys g.edges order := by
  have hdegree : g.inDegree = KahnBatches.inDegree g.edges := by
    funext v
    exact List.countP_eq_length_filter.symm
  simp only [start, Progress.batched, KahnBatches.start, hdegree]

variable {g : Graph V} {order : List V → List V}

/-- The sort takes exactly the grounded nodes. -/
theorem mem_sort_iff (hperm : ∀ l, (order l).Perm l) {v : V} :
    v ∈ sort g order ↔ Grounded g v := by
  have hentry : ∀ p c, (p, c) ∈ g.edges → c ∈ g.keys := fun p c hpc =>
    List.mem_dedup.mpr (List.mem_append_right _ (List.mem_map_of_mem hpc))
  have hdrain := drain_batched g g.keys.length (start g order)
  rw [start_batched] at hdrain
  have h : KahnBatches.Taken g.keys g.edges (sort g order) := by
    have hnodup : g.keys.Nodup := List.nodup_dedup _
    have htaken := KahnBatches.drain_taken hnodup hperm (fun l => List.Perm.refl (id l)) hentry
    rwa [← hdrain] at htaken
  constructor
  · intro hv
    induction h.acc hv with
    | intro v _ ih =>
      obtain ⟨hkey, hparents⟩ := (h.mem_iff v).mp hv
      exact .intro hkey fun p hp => ih p hp (hparents p hp)
  · intro hv
    induction hv with
    | intro entry _ ih => exact (h.mem_iff _).mpr ⟨entry, ih⟩

def EdgeOf (g : Graph V) (p c : V) : Prop := (p, c) ∈ g.edges

theorem Grounded.acc {v : V} (h : Grounded g v) : Acc (EdgeOf g) v := by
  induction h with
  | intro _ _ ih => exact .intro _ ih

theorem Grounded.not_transGen_self {v : V} (h : Grounded g v) :
    ¬ Relation.TransGen (EdgeOf g) v v := by
  intro hcycle
  induction h.acc.transGen with
  | intro v _ ih => exact ih v hcycle h hcycle

/-- In a finite graph without cycles every node leads to one without children. -/
theorem exists_sink (hg : ∀ v ∈ g.keys, Grounded g v)
    (hchild : ∀ p c, (p, c) ∈ g.edges → c ∈ g.keys) {v : V} (hv : v ∈ g.keys) :
    ∃ t ∈ g.keys, Relation.ReflTransGen (EdgeOf g) v t ∧ ∀ c, (t, c) ∉ g.edges := by
  let below : { v // v ∈ g.keys } → { v // v ∈ g.keys } → Prop :=
    fun a b => Relation.TransGen (EdgeOf g) b.1 a.1
  have : IsTrans _ below := ⟨fun _ _ _ hab hbc => hbc.trans hab⟩
  have : Std.Irrefl below := ⟨fun a => (hg a.1 a.2).not_transGen_self⟩
  have : Finite { v // v ∈ g.keys } := List.finite_toSet g.keys
  have hwf : WellFounded below := Finite.wellFounded_of_trans_of_irrefl below
  suffices h : ∀ a : { v // v ∈ g.keys }, ∃ t ∈ g.keys,
      Relation.ReflTransGen (EdgeOf g) a.1 t ∧ ∀ c, (t, c) ∉ g.edges from h ⟨v, hv⟩
  intro a
  induction a using hwf.induction with
  | _ a ih =>
    by_cases hsink : ∀ c, (a.1, c) ∉ g.edges
    · exact ⟨a.1, a.2, .refl, hsink⟩
    · obtain ⟨c, hc⟩ := not_forall_not.mp hsink
      obtain ⟨t, ht, hct, htsink⟩ := ih ⟨c, hchild a.1 c hc⟩ (.single hc)
      exact ⟨t, ht, .head hc hct, htsink⟩

end TirBase.KahnSort
