import Mathlib

/-! # Lists sorted by a key that may repeat

A stable sort keeps the elements of one key in their order. So two lists are sorted alike exactly
when they agree key by key, and the order of a list does not matter exactly when the elements of
one key are worth the same. -/
namespace TirBase.StableSorts

variable {α β κ : Type*} [DecidableEq κ]

def group (key : α → κ) (xs : List α) (k : κ) : List α := xs.filter fun x => key x = k

section Groups
variable {key : α → κ} {xs ys : List α} {k : κ} {x : α}

theorem mem_group : x ∈ group key xs k ↔ x ∈ xs ∧ key x = k := by
  simp [group]

theorem group_cons_of_eq (h : key x = k) : group key (x :: xs) k = x :: group key xs k := by
  simp [group, h]

theorem group_cons_of_ne (h : key x ≠ k) : group key (x :: xs) k = group key xs k := by
  simp [group, h]

theorem group_append : group key (xs ++ ys) k = group key xs k ++ group key ys k :=
  List.filter_append ..

theorem perm_group (h : xs.Perm ys) : (group key xs k).Perm (group key ys k) := h.filter _

end Groups

section Sorts
variable [LE κ] [Std.IsLinearOrder κ] (r : α → α → Prop) [DecidableRel r] {key : α → κ}

theorem group_orderedInsert (hr : ∀ a b, r a b ↔ key a ≤ key b) (x : α) (xs : List α) (k : κ) :
    group key (xs.orderedInsert r x) k = group key (x :: xs) k := by
  induction xs with
  | nil => rfl
  | cons y xs ih =>
    rw [List.orderedInsert]
    split
    · rfl
    · next hxy =>
      have hyx : key y ≠ key x := fun h => hxy ((hr x y).mpr (h ▸ Std.le_refl _))
      by_cases hk : key y = k
      · have hne : key x ≠ k := fun h => hyx (hk.trans h.symm)
        rw [group_cons_of_eq hk, ih, group_cons_of_ne hne, group_cons_of_ne hne,
          group_cons_of_eq hk]
      · rw [group_cons_of_ne hk, ih]
        by_cases hx : key x = k
        · rw [group_cons_of_eq hx, group_cons_of_eq hx, group_cons_of_ne hk]
        · rw [group_cons_of_ne hx, group_cons_of_ne hx, group_cons_of_ne hk]

theorem group_insertionSort (hr : ∀ a b, r a b ↔ key a ≤ key b) (xs : List α) (k : κ) :
    group key (xs.insertionSort r) k = group key xs k := by
  induction xs with
  | nil => rfl
  | cons x xs ih =>
    rw [List.insertionSort_cons, group_orderedInsert r hr]
    by_cases hx : key x = k
    · rw [group_cons_of_eq hx, group_cons_of_eq hx, ih]
    · rw [group_cons_of_ne hx, group_cons_of_ne hx, ih]

end Sorts

section Sorted
variable [LE κ] [Std.IsLinearOrder κ] {key : α → κ}

theorem le_of_head {x y : α} {xs ys : List α}
    (hys : (y :: ys).Pairwise fun a b => key a ≤ key b)
    (h : group key (x :: xs) (key x) = group key (y :: ys) (key x)) : key y ≤ key x := by
  have hmem : x ∈ group key (y :: ys) (key x) := by
    rw [← h, group_cons_of_eq rfl]
    exact List.mem_cons_self
  obtain ⟨hx, -⟩ := mem_group.mp hmem
  rcases List.mem_cons.mp hx with rfl | hx
  · exact Std.le_refl _
  · exact (List.pairwise_cons.mp hys).1 x hx

theorem eq_of_groups {xs ys : List α} (hxs : xs.Pairwise fun a b => key a ≤ key b)
    (hys : ys.Pairwise fun a b => key a ≤ key b)
    (h : ∀ k, group key xs k = group key ys k) : xs = ys := by
  induction xs generalizing ys with
  | nil =>
    cases ys with
    | nil => rfl
    | cons y ys =>
      have hy := h (key y)
      rw [group_cons_of_eq rfl] at hy
      exact absurd hy (by simp [group])
  | cons x xs ih =>
    cases ys with
    | nil =>
      have hx := h (key x)
      rw [group_cons_of_eq rfl] at hx
      exact absurd hx (by simp [group])
    | cons y ys =>
      have hkey : key x = key y :=
        Std.le_antisymm (le_of_head hxs (h (key y)).symm) (le_of_head hys (h (key x)))
      have hhead := h (key x)
      rw [group_cons_of_eq rfl, group_cons_of_eq hkey.symm] at hhead
      obtain ⟨rfl, -⟩ := List.cons.inj hhead
      have htail : ∀ k, group key xs k = group key ys k := by
        intro k
        have hk := h k
        by_cases hx : key x = k
        · rw [group_cons_of_eq hx, group_cons_of_eq hx] at hk
          exact (List.cons.inj hk).2
        · rwa [group_cons_of_ne hx, group_cons_of_ne hx] at hk
      rw [ih (List.pairwise_cons.mp hxs).2 (List.pairwise_cons.mp hys).2 htail]

variable (r : α → α → Prop) [DecidableRel r]

theorem insertionSort_eq_iff (hr : ∀ a b, r a b ↔ key a ≤ key b) {xs ys : List α} :
    xs.insertionSort r = ys.insertionSort r ↔ ∀ k, group key xs k = group key ys k := by
  have : Std.Total r := ⟨fun a b => by
    rw [hr, hr]
    exact Std.le_total⟩
  have : IsTrans α r := ⟨fun a b c hab hbc => by
    rw [hr] at hab hbc ⊢
    exact Std.le_trans hab hbc⟩
  have hsorted : ∀ zs : List α, (zs.insertionSort r).Pairwise fun a b => key a ≤ key b := by
    intro zs
    exact (List.pairwise_insertionSort r zs).imp fun hab => (hr _ _).mp hab
  constructor
  · intro h k
    rw [← group_insertionSort r hr xs, h, group_insertionSort r hr]
  · intro h
    apply eq_of_groups (hsorted xs) (hsorted ys)
    intro k
    rw [group_insertionSort r hr, group_insertionSort r hr, h k]

/-- What a sorted list shows of its elements, their keys and their values, is what it shows key by
key. -/
theorem map_insertionSort_eq_iff [DecidableLE κ] (hr : ∀ a b, r a b ↔ key a ≤ key b) (value : α → β)
    {xs ys : List α} :
    (xs.insertionSort r).map (fun x => (key x, value x)) =
        (ys.insertionSort r).map (fun x => (key x, value x)) ↔
      ∀ k, (group key xs k).map value = (group key ys k).map value := by
  have hmap : ∀ zs : List α, (zs.insertionSort r).map (fun x => (key x, value x)) =
      (zs.map fun x => (key x, value x)).insertionSort fun a b => a.1 ≤ b.1 := by
    intro zs
    exact List.map_insertionSort _ _ _ _ fun a _ b _ => hr a b
  have hgroup : ∀ (zs : List α) (k : κ), group Prod.fst (zs.map fun x => (key x, value x)) k =
      ((group key zs k).map value).map fun v => (k, v) := by
    intro zs k
    rw [group, List.filter_map, List.map_map]
    apply List.map_congr_left
    intro x hx
    exact congrArg (fun k => (k, value x)) (mem_group.mp hx).2
  rw [hmap, hmap, insertionSort_eq_iff _ fun a b => Iff.rfl]
  apply forall_congr'
  intro k
  rw [hgroup, hgroup]
  exact (List.map_injective_iff.mpr fun v w h => congrArg Prod.snd h).eq_iff

end Sorted

def Uniform (key : α → κ) (value : α → β) (xs : List α) : Prop :=
  ∀ x ∈ xs, ∀ y ∈ xs, key x = key y → value x = value y

section Values
variable {key : α → κ} {value : α → β} {xs ys : List α}

theorem Uniform.map_group (h : Uniform key value xs) {x : α} (hx : x ∈ xs) :
    (group key xs (key x)).map value =
      List.replicate (group key xs (key x)).length (value x) := by
  rw [List.eq_replicate_iff]
  refine ⟨List.length_map _, ?_⟩
  intro v hv
  obtain ⟨y, hy, rfl⟩ := List.mem_map.mp hv
  obtain ⟨hmem, hkey⟩ := mem_group.mp hy
  exact h y hmem x hx hkey

omit [DecidableEq κ] in
theorem Uniform.perm (h : Uniform key value xs) (hperm : xs.Perm ys) :
    Uniform key value ys :=
  fun x hx y hy => h x (hperm.mem_iff.mpr hx) y (hperm.mem_iff.mpr hy)

/-- Reordering such a list changes no value of any group. -/
theorem Uniform.map_group_perm (h : Uniform key value xs) (hperm : xs.Perm ys) (k : κ) :
    (group key ys k).map value = (group key xs k).map value := by
  have hlen : (group key ys k).length = (group key xs k).length :=
    (perm_group hperm).length_eq.symm
  cases hx : group key xs k with
  | nil =>
    rw [hx] at hlen
    rw [List.length_eq_zero_iff.mp hlen]
  | cons x rest =>
    have hmem : x ∈ group key xs k := by
      rw [hx]
      exact List.mem_cons_self
    obtain ⟨hxs, rfl⟩ := mem_group.mp hmem
    rw [← hx, h.map_group hxs, (h.perm hperm).map_group (hperm.mem_iff.mp hxs), hlen]

/-- Only such a list keeps the values of its groups under every reordering. -/
theorem uniform_of_map_group
    (h : ∀ ys : List α, xs.Perm ys → ∀ k, (group key ys k).map value =
      (group key xs k).map value) : Uniform key value xs := by
  classical
  have hhead : ∀ x ∈ xs, ((group key xs (key x)).map value).head? = some (value x) := by
    intro x hx
    rw [← h _ (List.perm_cons_erase hx) (key x), group_cons_of_eq rfl]
    rfl
  intro x hx y hy hkey
  have hfirst := hhead x hx
  rw [hkey, hhead y hy] at hfirst
  exact (Option.some.inj hfirst).symm

/-- Groups of such lists agree in their values when they agree in length and in one value. -/
theorem Uniform.map_group_eq (hx : Uniform key value xs) (hy : Uniform key value ys) {k : κ}
    (hlen : (group key xs k).length = (group key ys k).length)
    (hlast : (group key xs k).getLast?.map value = (group key ys k).getLast?.map value) :
    (group key xs k).map value = (group key ys k).map value := by
  cases hl : (group key xs k).getLast? with
  | none =>
    have hnil := List.getLast?_eq_none_iff.mp hl
    rw [hnil] at hlen ⊢
    rw [List.length_eq_zero_iff.mp hlen.symm]
  | some x =>
    cases hl' : (group key ys k).getLast? with
    | none =>
      rw [hl, hl'] at hlast
      exact absurd hlast (by simp)
    | some y =>
      rw [hl, hl'] at hlast
      obtain ⟨hxs, hkx⟩ := mem_group.mp (List.mem_of_getLast? hl)
      obtain ⟨hys, hky⟩ := mem_group.mp (List.mem_of_getLast? hl')
      have hgx := hx.map_group hxs
      have hgy := hy.map_group hys
      rw [hkx] at hgx
      rw [hky] at hgy
      have hvalue : value x = value y := Option.some.inj hlast
      rw [hgx, hgy, hlen, hvalue]

end Values
end TirBase.StableSorts
