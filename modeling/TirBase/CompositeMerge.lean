import TirBase.IncidentRuns
import TirBase.ListUnions

/-! # The union of two incidents

`composite_merge` joins the rows of two incidents by their row keys, though a row is named by its
table as well. -/
namespace TirBase.CompositeMerge
open IncidentRuns ListUnions

def rowNames (rows : List AffectedRow) : List (String × String) :=
  rows.map fun r => (r.table, r.rowKey)

/-- The composite of two incidents has each row of either once, and the Deltas and roots of both. -/
structure UnionOf (a b : IncidentContextObject) (c : CompositeIncidentInstance) : Prop where
  rows : ∀ n, (rowNames c.affectedRows).count n =
    if n ∈ rowNames a.affectedRows ∨ n ∈ rowNames b.affectedRows then 1 else 0
  deltas : c.contaminatedDeltas = a.contaminatedDeltas ∪ b.contaminatedDeltas
  rootsNodup : c.contaminationRoots.Nodup
  roots : ∀ r, r ∈ c.contaminationRoots ↔
    r ∈ a.contaminationRoots ∨ r ∈ b.contaminationRoots

structure SameSets (c c' : CompositeIncidentInstance) : Prop where
  rows : ∀ n, n ∈ rowNames c.affectedRows ↔ n ∈ rowNames c'.affectedRows
  deltas : c.contaminatedDeltas = c'.contaminatedDeltas
  roots : ∀ r, r ∈ c.contaminationRoots ↔ r ∈ c'.contaminationRoots

/-- Two rows in different tables share a row key only where both incidents have both of them. -/
def KeysTellTables (a b : IncidentContextObject) : Prop :=
  ∀ m ∈ rowNames a.affectedRows ++ rowNames b.affectedRows,
    ∀ n ∈ rowNames a.affectedRows ++ rowNames b.affectedRows, m.2 = n.2 → m ≠ n →
      n ∈ rowNames a.affectedRows ∧ n ∈ rowNames b.affectedRows

variable {a b : IncidentContextObject} {compositeId : IncidentId} {now : ℤ}

theorem affectedRows_merge (a b : IncidentContextObject) (compositeId : IncidentId) (now : ℤ) :
    (compositeMerge a b compositeId now).2.2.affectedRows =
      unionBy AffectedRow.rowKey a.affectedRows b.affectedRows := by
  have hstep : (fun (rows : List AffectedRow) (row : AffectedRow) =>
      if (rows.any fun r => r.rowKey == row.rowKey) = true then rows else rows ++ [row]) =
      fun rows row => if ∃ r ∈ rows, r.rowKey = row.rowKey then rows else rows ++ [row] := by
    funext rows row
    simp only [List.any_eq_true, beq_iff_eq]
  simp only [compositeMerge, hstep, unionBy]

theorem roots_merge (a b : IncidentContextObject) (compositeId : IncidentId) (now : ℤ) :
    (compositeMerge a b compositeId now).2.2.contaminationRoots =
      unionBy (fun r => r) a.contaminationRoots b.contaminationRoots :=
  (unionBy_self _ _).symm

theorem keysTellTables_symm (h : KeysTellTables a b) : KeysTellTables b a := by
  intro m hm n hn hkey hne
  have hboth := h m (List.mem_append.mpr (List.mem_append.mp hm).symm) n
    (List.mem_append.mpr (List.mem_append.mp hn).symm) hkey hne
  exact hboth.symm

theorem mem_rows_merge (h : KeysTellTables a b) (n : String × String) :
    n ∈ rowNames (compositeMerge a b compositeId now).2.2.affectedRows ↔
      n ∈ rowNames a.affectedRows ∨ n ∈ rowNames b.affectedRows := by
  rw [affectedRows_merge]
  refine mem_map_unionBy fun y hy x hx hold hkey => ?_
  by_contra hne
  have hboth := h (y.table, y.rowKey) ?_ (x.table, x.rowKey) ?_ hkey hne
  · exact hold hboth.1
  · rcases List.mem_append.mp hy with hy | hy
    · exact List.mem_append_left _ (List.mem_map_of_mem hy)
    · exact List.mem_append_right _ (List.mem_map_of_mem hy)
  · exact List.mem_append_right _ (List.mem_map_of_mem hx)

/-- Of two rows that share a key across tables and of which the first incident lacks one, one is
lost. -/
theorem first_of_lost {m n : String × String}
    (hm : m ∈ rowNames (compositeMerge a b compositeId now).2.2.affectedRows)
    (hn : n ∈ rowNames (compositeMerge a b compositeId now).2.2.affectedRows)
    (hkey : m.2 = n.2) (hne : m ≠ n) : n ∈ rowNames a.affectedRows := by
  rw [affectedRows_merge] at hm hn
  obtain ⟨x, hx, rfl⟩ := List.mem_map.mp hn
  obtain ⟨y, hy, rfl⟩ := List.mem_map.mp hm
  have hkey : y.rowKey = x.rowKey := hkey
  rcases mem_unionBy.mp hx with hx | ⟨before, after, hb, hfirst⟩
  · exact List.mem_map_of_mem hx
  · rcases mem_unionBy.mp hy with hy | ⟨before', after', hb', hfirst'⟩
    · exact absurd hkey (hfirst y (List.mem_append_left _ hy))
    · rcases List.append_eq_append_iff.mp (hb.symm.trans hb') with
        ⟨mid, hmid, hrest⟩ | ⟨mid, hmid, hrest⟩
      · cases mid with
        | nil =>
          rw [List.nil_append] at hrest
          exact absurd (by rw [(List.cons.inj hrest).1]) hne.symm
        | cons z mid =>
          rw [List.cons_append] at hrest
          obtain ⟨rfl, -⟩ := List.cons.inj hrest
          exact absurd hkey.symm (hfirst' x (by rw [hmid]; simp))
      · cases mid with
        | nil =>
          rw [List.nil_append] at hrest
          exact absurd (by rw [(List.cons.inj hrest).1]) hne
        | cons z mid =>
          rw [List.cons_append] at hrest
          obtain ⟨rfl, -⟩ := List.cons.inj hrest
          exact absurd hkey (hfirst y (by rw [hmid]; simp))

theorem count_eq_iff {α : Type*} [BEq α] [LawfulBEq α] {l : List α} {P : α → Prop} [DecidablePred P] :
    (∀ n, l.count n = if P n then 1 else 0) ↔ l.Nodup ∧ ∀ n, n ∈ l ↔ P n := by
  constructor
  · intro h
    refine ⟨List.nodup_iff_count_le_one.mpr fun n => ?_, fun n => ?_⟩
    · rw [h n]
      split_ifs <;> omega
    · rw [← List.count_pos_iff, h n]
      split_ifs with hn
      · exact ⟨fun _ => hn, fun _ => Nat.one_pos⟩
      · exact ⟨fun h => absurd h (Nat.lt_irrefl 0), fun h => absurd h hn⟩
  · rintro ⟨hnodup, hmem⟩ n
    rw [hnodup.count]
    exact if_congr (hmem n) rfl rfl

/-- Two incidents are joined into their union, in either order, exactly when the first repeats no row
and no root and row keys tell the tables of their rows apart. -/
theorem merge_is_union_iff (a b : IncidentContextObject) (compositeId compositeId' : IncidentId)
    (now now' : ℤ) :
    UnionOf a b (compositeMerge a b compositeId now).2.2 ∧
        SameSets (compositeMerge a b compositeId now).2.2
          (compositeMerge b a compositeId' now').2.2 ↔
      (rowNames a.affectedRows).Nodup ∧ a.contaminationRoots.Nodup ∧ KeysTellTables a b := by
  have hroots : ∀ (a b : IncidentContextObject) (id : IncidentId) (now : ℤ) (r : DeltaId),
      r ∈ (compositeMerge a b id now).2.2.contaminationRoots ↔
        r ∈ a.contaminationRoots ∨ r ∈ b.contaminationRoots :=
    fun a b id now r => mem_foldl_roots
  constructor
  · rintro ⟨hunion, hsame⟩
    obtain ⟨hnodup, hmem⟩ := count_eq_iff.mp hunion.rows
    refine ⟨?_, ?_, fun m hm n hn hkey hne => ?_⟩
    · rw [affectedRows_merge] at hnodup
      exact (prefix_unionBy.map _).sublist.nodup hnodup
    · have hnodup' := hunion.rootsNodup
      rw [roots_merge] at hnodup'
      exact prefix_unionBy.sublist.nodup hnodup'
    · have hm' := (hmem m).mpr (List.mem_append.mp hm)
      have hn' := (hmem n).mpr (List.mem_append.mp hn)
      exact ⟨first_of_lost hm' hn' hkey hne,
        first_of_lost ((hsame.rows m).mp hm') ((hsame.rows n).mp hn') hkey hne⟩
  · rintro ⟨hrows, hnodup, htell⟩
    refine ⟨⟨count_eq_iff.mpr ⟨?_, mem_rows_merge htell⟩, rfl, ?_, hroots a b compositeId now⟩,
      fun n => ?_, Finset.union_comm _ _, fun r => ?_⟩
    · rw [affectedRows_merge]
      exact nodup_unionBy (fun x y hname => congrArg Prod.snd hname) hrows
    · rw [roots_merge]
      have hunion : ((unionBy (fun r => r) a.contaminationRoots b.contaminationRoots).map
          fun r => r).Nodup :=
        nodup_unionBy (fun _ _ hname => hname) (by rwa [List.map_id'])
      rwa [List.map_id'] at hunion
    · rw [mem_rows_merge htell, mem_rows_merge (keysTellTables_symm htell), or_comm]
    · rw [hroots, hroots, or_comm]

def taggedAt (id : IncidentId) (root : DeltaId) (rows : List AffectedRow) : IncidentContextObject :=
  ⟨id, .open_, .deviceRevocation root, [root], {root, 9}, rows, none, 0, 0, []⟩

/-- The row of `orders` came later than the first incident and shares its key with the row of
`items`: the composite does not have it. -/
theorem row_of_other_table_lost :
    let items : AffectedRow := ⟨"items", "1", 1⟩
    let orders : AffectedRow := ⟨"orders", "1", 2⟩
    (compositeMerge (taggedAt 1 1 [items]) (taggedAt 2 2 [items, orders]) 3 0).2.2.affectedRows =
        [items] ∧
      ¬UnionOf (taggedAt 1 1 [items]) (taggedAt 2 2 [items, orders])
        (compositeMerge (taggedAt 1 1 [items]) (taggedAt 2 2 [items, orders]) 3 0).2.2 := by
  intro items orders
  have hrows : (compositeMerge (taggedAt 1 1 [items]) (taggedAt 2 2 [items, orders]) 3
      0).2.2.affectedRows = [items] := by decide +kernel
  refine ⟨hrows, fun h => ?_⟩
  have hcount := h.rows ("orders", "1")
  rw [hrows] at hcount
  revert hcount
  decide +kernel

end TirBase.CompositeMerge
