import Mathlib

/-! # Keyed stores

A table with a primary key keeps the order of insertion and ignores a row whose key is there. An object
store keeps its rows in the order of their keys and replaces a row whose key is there. -/
namespace TirBase.KeyedStores

variable {Row Key : Type*} [LinearOrder Key] {key : Row → Key}

/-- `INSERT OR IGNORE`. -/
def insertOrIgnore (key : Row → Key) (rows : List Row) (row : Row) : List Row :=
  if key row ∈ rows.map key then rows else rows ++ [row]

/-- Rows in the order of their keys, one for each key. -/
structure ObjectStore (key : Row → Key) where
  rows : List Row
  sorted : rows.Pairwise fun a b => key a < key b

theorem pairwise_orderedInsert {rows : List Row} {row : Row}
    (hrows : rows.Pairwise fun a b => key a < key b) (hne : ∀ r ∈ rows, key r ≠ key row) :
    (rows.orderedInsert (fun a b => key a ≤ key b) row).Pairwise fun a b => key a < key b := by
  induction rows with
  | nil => simp
  | cons r rows ih =>
    obtain ⟨hr, hrest⟩ := List.pairwise_cons.mp hrows
    have hrne := hne r List.mem_cons_self
    by_cases hle : key row ≤ key r
    · have hlt := lt_of_le_of_ne hle hrne.symm
      rw [List.orderedInsert, if_pos hle]
      refine List.pairwise_cons.mpr ⟨fun b hb => ?_, hrows⟩
      rcases List.mem_cons.mp hb with rfl | hb
      · exact hlt
      · exact hlt.trans (hr b hb)
    · rw [List.orderedInsert, if_neg hle]
      refine List.pairwise_cons.mpr
        ⟨fun b hb => ?_, ih hrest fun b hb => hne b (List.mem_cons_of_mem r hb)⟩
      rcases (List.mem_orderedInsert _).mp hb with rfl | hb
      · exact not_le.mp hle
      · exact hr b hb

namespace ObjectStore

def empty : ObjectStore key := ⟨[], .nil⟩

def put (s : ObjectStore key) (row : Row) : ObjectStore key where
  rows := (s.rows.filter fun r => key r ≠ key row).orderedInsert (fun a b => key a ≤ key b) row
  sorted := pairwise_orderedInsert (s.sorted.filter _)
    fun _ hr => of_decide_eq_true (List.mem_filter.mp hr).2

def get? (s : ObjectStore key) (k : Key) : Option Row := s.rows.find? fun r => key r = k

def update? (s : ObjectStore key) (k : Key) (f : Row → Row) : Option (ObjectStore key) :=
  (s.get? k).map fun row => s.put (f row)

/-- Update the row of each item in turn, until an update fails. -/
def updateEach {Item Failure : Type*}
    (update : ObjectStore key → Item → Except Failure (ObjectStore key)) :
    ObjectStore key → List Item → Except Failure Unit × ObjectStore key
  | s, [] => (.ok (), s)
  | s, item :: items =>
    match update s item with
    | .error e => (.error e, s)
    | .ok s => updateEach update s items

variable {s : ObjectStore key} {row : Row}

theorem eq_of_key (s : ObjectStore key) {a b : Row} (ha : a ∈ s.rows) (hb : b ∈ s.rows)
    (hkey : key a = key b) : a = b := by
  have hnodup : (s.rows.map key).Nodup :=
    List.pairwise_map.mpr (s.sorted.imp fun hlt => hlt.ne)
  exact List.inj_on_of_nodup_map hnodup ha hb hkey

theorem nodup (s : ObjectStore key) : s.rows.Nodup :=
  s.sorted.imp fun hlt heq => hlt.ne (congrArg key heq)

theorem mem_put {r : Row} :
    r ∈ (s.put row).rows ↔ r = row ∨ r ∈ s.rows ∧ key r ≠ key row := by
  rw [put, List.mem_orderedInsert, List.mem_filter, decide_eq_true_iff]

theorem get?_eq_some (s : ObjectStore key) (hrow : row ∈ s.rows) : s.get? (key row) = some row := by
  rw [get?]
  cases hfound : s.rows.find? fun r => key r = key row with
  | none =>
    have hnone := List.find?_eq_none.mp hfound row hrow
    simp at hnone
  | some r =>
    have hkey : key r = key row := by simpa using List.find?_some hfound
    rw [s.eq_of_key (List.mem_of_find?_eq_some hfound) hrow hkey]

end ObjectStore

variable {rows : List Row} {s : ObjectStore key}

theorem nodup_of_perm (h : rows.Perm s.rows) : rows.Nodup := h.nodup_iff.mpr s.nodup

theorem eq_of_key_of_perm (h : rows.Perm s.rows) {a b : Row} (ha : a ∈ rows) (hb : b ∈ rows)
    (hkey : key a = key b) : a = b :=
  s.eq_of_key (h.mem_iff.mp ha) (h.mem_iff.mp hb) hkey

/-- A row whose key is free, or which is there already, leaves the same rows in both. -/
theorem perm_put (h : rows.Perm s.rows) (row : Row) (hfree : ∀ r ∈ rows, key r = key row → r = row) :
    (insertOrIgnore key rows row).Perm (s.put row).rows := by
  unfold insertOrIgnore
  split_ifs with hstored
  · obtain ⟨r, hr, hkey⟩ := List.mem_map.mp hstored
    obtain rfl := hfree r hr hkey
    refine (List.perm_ext_iff_of_nodup (nodup_of_perm h) (s.put r).nodup).mpr fun a => ?_
    rw [ObjectStore.mem_put, ← h.mem_iff]
    constructor
    · intro ha
      by_cases hsame : key a = key r
      · exact .inl (hfree a ha hsame)
      · exact .inr ⟨ha, hsame⟩
    · rintro (rfl | ⟨ha, -⟩)
      · exact hr
      · exact ha
  · have hfresh : ∀ r ∈ rows, key r ≠ key row := fun r hr hkey =>
      hstored (List.mem_map.mpr ⟨r, hr, hkey⟩)
    have hnodup : (rows ++ [row]).Nodup := by
      rw [List.nodup_append_comm, List.singleton_append, List.nodup_cons]
      exact ⟨fun hrow => hfresh row hrow rfl, nodup_of_perm h⟩
    refine (List.perm_ext_iff_of_nodup hnodup (s.put row).nodup).mpr fun a => ?_
    rw [ObjectStore.mem_put, ← h.mem_iff, List.mem_append, List.mem_singleton]
    constructor
    · rintro (ha | ha)
      · exact .inr ⟨ha, hfresh a ha⟩
      · exact .inl ha
    · rintro (ha | ⟨ha, -⟩)
      · exact .inr ha
      · exact .inl ha

theorem perm_update (h : rows.Perm s.rows) {row : Row} (hrow : row ∈ rows) (f : Row → Row)
    (hkey : ∀ r, key (f r) = key r) :
    (rows.map fun r => if key r = key row then f r else r).Perm (s.put (f row)).rows := by
  have hkept : ∀ r, key (if key r = key row then f r else r) = key r := by
    intro r
    split_ifs
    · exact hkey r
    · rfl
  have hnodup : (rows.map fun r => if key r = key row then f r else r).Nodup := by
    refine (List.nodup_map_iff_inj_on (nodup_of_perm h)).mpr fun a ha b hb hsame => ?_
    exact eq_of_key_of_perm h ha hb
      ((hkept a).symm.trans ((congrArg key hsame).trans (hkept b)))
  refine (List.perm_ext_iff_of_nodup hnodup (s.put (f row)).nodup).mpr fun a => ?_
  rw [ObjectStore.mem_put, List.mem_map, ← h.mem_iff, hkey]
  constructor
  · rintro ⟨r, hr, rfl⟩
    by_cases hsame : key r = key row
    · rw [if_pos hsame, eq_of_key_of_perm h hr hrow hsame]
      exact .inl rfl
    · rw [if_neg hsame]
      exact .inr ⟨hr, hsame⟩
  · rintro (rfl | ⟨ha, hne⟩)
    · exact ⟨row, hrow, if_pos rfl⟩
    · exact ⟨a, ha, if_neg hne⟩

theorem perm_update? (h : rows.Perm s.rows) {k : Key} (hk : k ∈ rows.map key) (f : Row → Row)
    (hkey : ∀ r, key (f r) = key r) :
    ∃ s', s.update? k f = some s' ∧
      (rows.map fun r => if key r = k then f r else r).Perm s'.rows := by
  obtain ⟨row, hrow, rfl⟩ := List.mem_map.mp hk
  refine ⟨s.put (f row), ?_, perm_update h hrow f hkey⟩
  rw [ObjectStore.update?, s.get?_eq_some (h.mem_iff.mp hrow), Option.map_some]

theorem perm_updateEach {Item Failure : Type*}
    (update : ObjectStore key → Item → Except Failure (ObjectStore key)) {keyOf : Item → Key}
    {f : Row → Row} (hkey : ∀ r, key (f r) = key r) (htwice : ∀ r, f (f r) = f r)
    (hupdate : ∀ s item s', s.update? (keyOf item) f = some s' → update s item = .ok s')
    (items : List Item) (h : rows.Perm s.rows) (hitems : ∀ item ∈ items, keyOf item ∈ rows.map key) :
    ∃ s', ObjectStore.updateEach update s items = (.ok (), s') ∧
      (rows.map fun r => if key r ∈ items.map keyOf then f r else r).Perm s'.rows := by
  induction items generalizing rows s with
  | nil => exact ⟨s, rfl, by simpa using h⟩
  | cons item items ih =>
    obtain ⟨s₁, hone, hperm⟩ := perm_update? h (hitems item List.mem_cons_self) f hkey
    have hkept : (key ∘ fun r => if key r = keyOf item then f r else r) = key := by
      funext r
      rw [Function.comp_apply]
      split_ifs
      · exact hkey r
      · rfl
    have hlater : ∀ later ∈ items, keyOf later ∈
        (rows.map fun r => if key r = keyOf item then f r else r).map key := by
      intro later hmem
      rw [List.map_map, hkept]
      exact hitems later (List.mem_cons_of_mem item hmem)
    obtain ⟨s₂, heach, hperm₂⟩ := ih hperm hlater
    refine ⟨s₂, ?_, ?_⟩
    · rw [ObjectStore.updateEach, hupdate s item s₁ hone]
      exact heach
    · rw [List.map_map] at hperm₂
      refine (List.Perm.of_eq (List.map_congr_left fun r _ => ?_)).trans hperm₂
      rw [Function.comp_apply, List.map_cons]
      by_cases hfirst : key r = keyOf item
      · rw [if_pos (hfirst ▸ List.mem_cons_self), if_pos hfirst, htwice, ite_self]
      · rw [if_neg hfirst]
        simp only [List.mem_cons, hfirst, false_or]

variable {Time : Type*} [LinearOrder Time] {time : Row → Time}

/-- A stable sort by time leaves rows of one time in the order of their keys, if that was their order
before. -/
theorem pairwise_insertionSort
    (h : rows.Pairwise fun a b => time a = time b → key a < key b) :
    (rows.insertionSort fun a b => time a ≤ time b).Pairwise fun a b =>
      time a < time b ∨ time a = time b ∧ key a < key b := by
  induction rows with
  | nil => exact .nil
  | cons r rows ih =>
    obtain ⟨hr, hrest⟩ := List.pairwise_cons.mp h
    have hinsert : ∀ sorted : List Row, (∀ a ∈ sorted, a ∈ rows) →
        (sorted.Pairwise fun a b => time a < time b ∨ time a = time b ∧ key a < key b) →
        (sorted.orderedInsert (fun a b => time a ≤ time b) r).Pairwise fun a b =>
          time a < time b ∨ time a = time b ∧ key a < key b := by
      intro sorted
      induction sorted with
      | nil => exact fun _ _ => by simp
      | cons a sorted ih =>
        intro hsub hsorted
        obtain ⟨ha, hlater⟩ := List.pairwise_cons.mp hsorted
        by_cases hle : time r ≤ time a
        · rw [List.orderedInsert, if_pos hle]
          refine List.pairwise_cons.mpr ⟨fun b hb => ?_, hsorted⟩
          have hrb : time r ≤ time b := by
            rcases List.mem_cons.mp hb with rfl | hb
            · exact hle
            · rcases ha b hb with hlt | ⟨heq, -⟩
              · exact hle.trans hlt.le
              · exact hle.trans heq.le
          rcases hrb.lt_or_eq with hlt | heq
          · exact .inl hlt
          · exact .inr ⟨heq, hr b (hsub b hb) heq⟩
        · rw [List.orderedInsert, if_neg hle]
          refine List.pairwise_cons.mpr ⟨fun b hb => ?_,
            ih (fun b hb => hsub b (List.mem_cons_of_mem a hb)) hlater⟩
          rcases (List.mem_orderedInsert _).mp hb with rfl | hb
          · exact .inl (not_le.mp hle)
          · exact ha b hb
    rw [List.insertionSort_cons]
    exact hinsert _ (fun a ha => (List.mem_insertionSort _).mp ha) (ih hrest)

/-- The table and the store list the same rows of a kind in the same order of time, if those of one
time stand in the table in the order of their keys. -/
theorem insertionSort_filter_eq (h : rows.Perm s.rows) (kind : Row → Bool)
    (hties : (rows.filter kind).Pairwise fun a b => time a = time b → key a < key b) :
    (rows.filter kind).insertionSort (fun a b => time a ≤ time b) =
      (s.rows.filter kind).insertionSort fun a b => time a ≤ time b := by
  have hstore : (s.rows.filter kind).Pairwise fun a b => time a = time b → key a < key b := by
    refine (s.sorted.filter kind).imp ?_
    exact fun hlt _ => hlt
  have hperm : ((rows.filter kind).insertionSort fun a b => time a ≤ time b).Perm
      ((s.rows.filter kind).insertionSort fun a b => time a ≤ time b) :=
    (List.perm_insertionSort _ _).trans
      ((h.filter kind).trans (List.perm_insertionSort _ _).symm)
  refine hperm.eq_of_pairwise (fun a b _ _ hab hba => ?_) (pairwise_insertionSort hties)
    (pairwise_insertionSort hstore)
  rcases hab with hlt | ⟨heq, hlt⟩
  · rcases hba with hgt | ⟨heq, -⟩
    · exact absurd hlt hgt.asymm
    · exact absurd hlt (not_lt.mpr heq.le)
  · rcases hba with hgt | ⟨-, hgt⟩
    · exact absurd hgt (not_lt.mpr heq.le)
    · exact absurd hlt hgt.asymm

end TirBase.KeyedStores
