import Mathlib

/-! # Unions of lists by a key

The items of a second list are added to the first one by one, unless an item with the same key is
there already. Items are told apart by a name, which may say more than the key. -/
namespace TirBase.ListUnions

variable {Item Key Name : Type*} [DecidableEq Key] {key : Item → Key} {name : Item → Name}
  {xs new : List Item} {x : Item}

def unionBy (key : Item → Key) (xs new : List Item) : List Item :=
  new.foldl (fun xs x => if ∃ y ∈ xs, key y = key x then xs else xs ++ [x]) xs

theorem unionBy_self (xs new : List Key) : unionBy (fun x => x) xs new =
    new.foldl (fun xs x => if x ∈ xs then xs else xs ++ [x]) xs := by
  simp only [unionBy, exists_eq_right]

/-- Whether the item is added: no earlier item has its key. -/
def AddedBy (key : Item → Key) (xs new : List Item) (x : Item) : Prop :=
  ∃ before after, new = before ++ x :: after ∧ ∀ y ∈ xs ++ before, key y ≠ key x

theorem prefix_unionBy : xs <+: unionBy key xs new := by
  induction new generalizing xs with
  | nil => exact List.prefix_rfl
  | cons x new ih =>
    rw [unionBy, List.foldl_cons]
    split_ifs
    · exact ih
    · exact (List.prefix_append xs [x]).trans ih

/-- The first item of a key stays, in the first list or in the second. -/
theorem mem_unionBy : x ∈ unionBy key xs new ↔ x ∈ xs ∨ AddedBy key xs new x := by
  induction new generalizing xs with
  | nil => simp [unionBy, AddedBy]
  | cons z new ih =>
    have hsplit : AddedBy key xs (z :: new) x ↔
        (x = z ∧ ∀ y ∈ xs, key y ≠ key x) ∨ key z ≠ key x ∧ AddedBy key xs new x := by
      constructor
      · rintro ⟨before, after, hnew, hfirst⟩
        cases before with
        | nil =>
          obtain ⟨rfl, -⟩ := List.cons.inj hnew
          exact .inl ⟨rfl, fun y hy => hfirst y (List.mem_append_left _ hy)⟩
        | cons w before =>
          obtain ⟨rfl, htail⟩ := List.cons.inj hnew
          refine .inr ⟨hfirst z (by simp), before, after, htail, fun y hy => hfirst y ?_⟩
          rcases List.mem_append.mp hy with hy | hy
          · exact List.mem_append_left _ hy
          · exact List.mem_append_right _ (List.mem_cons_of_mem z hy)
      · rintro (⟨rfl, hfirst⟩ | ⟨hz, before, after, hnew, hfirst⟩)
        · exact ⟨[], new, rfl, by simpa using hfirst⟩
        · refine ⟨z :: before, after, by rw [hnew]; rfl, fun y hy => ?_⟩
          rcases List.mem_append.mp hy with hy | hy
          · exact hfirst y (List.mem_append_left _ hy)
          · rcases List.mem_cons.mp hy with rfl | hy
            · exact hz
            · exact hfirst y (List.mem_append_right _ hy)
    rw [unionBy, List.foldl_cons, hsplit]
    split_ifs with hseen
    · obtain ⟨y, hy, hkey⟩ := hseen
      have hnext := @ih xs
      rw [unionBy] at hnext
      rw [hnext]
      constructor
      · rintro (hx | ⟨before, after, hnew, hfirst⟩)
        · exact .inl hx
        · have hzx : key z ≠ key x := hkey ▸ hfirst y (List.mem_append_left _ hy)
          exact .inr (.inr ⟨hzx, before, after, hnew, hfirst⟩)
      · rintro (hx | ⟨rfl, hfirst⟩ | ⟨-, hadded⟩)
        · exact .inl hx
        · exact absurd hkey (hfirst y hy)
        · exact .inr hadded
    · have hnext := @ih (xs ++ [z])
      rw [unionBy] at hnext
      rw [hnext]
      have hfresh : ∀ y ∈ xs, key y ≠ key z := fun y hy hkey => hseen ⟨y, hy, hkey⟩
      constructor
      · rintro (hx | ⟨before, after, hnew, hfirst⟩)
        · rcases List.mem_append.mp hx with hx | hx
          · exact .inl hx
          · rw [List.mem_singleton] at hx
            exact .inr (.inl ⟨hx, hx ▸ hfresh⟩)
        · refine .inr (.inr ⟨hfirst z (by simp), before, after, hnew, fun y hy => hfirst y ?_⟩)
          rcases List.mem_append.mp hy with hy | hy
          · exact List.mem_append_left _ (List.mem_append_left _ hy)
          · exact List.mem_append_right _ hy
      · rintro (hx | ⟨rfl, -⟩ | ⟨hz, before, after, hnew, hfirst⟩)
        · exact .inl (List.mem_append_left _ hx)
        · exact .inl (List.mem_append_right _ (List.mem_singleton_self _))
        · refine .inr ⟨before, after, hnew, fun y hy => ?_⟩
          rcases List.mem_append.mp hy with hy | hy
          · rcases List.mem_append.mp hy with hy | hy
            · exact hfirst y (List.mem_append_left _ hy)
            · rw [List.mem_singleton.mp hy]
              exact hz
          · exact hfirst y (List.mem_append_right _ hy)

theorem nodup_unionBy (hkey : ∀ x y, name x = name y → key x = key y) (h : (xs.map name).Nodup) :
    ((unionBy key xs new).map name).Nodup := by
  induction new generalizing xs with
  | nil => exact h
  | cons z new ih =>
    rw [unionBy, List.foldl_cons]
    split_ifs with hseen
    · exact ih h
    · apply ih
      rw [List.map_append, List.map_singleton]
      refine h.append (List.nodup_singleton _) (List.disjoint_singleton.mpr ?_)
      intro hmem
      obtain ⟨y, hy, hname⟩ := List.mem_map.mp hmem
      exact hseen ⟨y, hy, hkey y z hname⟩

/-- When the key says as much as the name, every name of the two lists is there. -/
theorem mem_map_unionBy {n : Name} (hname : ∀ y ∈ xs ++ new, ∀ x ∈ new, name x ∉ xs.map name →
    key y = key x → name y = name x) :
    n ∈ (unionBy key xs new).map name ↔ n ∈ xs.map name ∨ n ∈ new.map name := by
  constructor
  · intro h
    obtain ⟨x, hx, rfl⟩ := List.mem_map.mp h
    rcases mem_unionBy.mp hx with hx | ⟨before, after, hnew, -⟩
    · exact .inl (List.mem_map_of_mem hx)
    · exact .inr (List.mem_map_of_mem (by rw [hnew]; simp))
  · rintro (h | h)
    · exact (prefix_unionBy.map name).subset h
    · by_cases hold : n ∈ xs.map name
      · exact (prefix_unionBy.map name).subset hold
      · obtain ⟨x, hx, rfl⟩ := List.mem_map.mp h
        obtain ⟨before, first, after, hsplit, hkey, hbefore⟩ :
            ∃ before first after, new = before ++ first :: after ∧ key first = key x ∧
              ∀ y ∈ before, key y ≠ key x := by
          have hfind : (new.find? fun y => key y = key x).isSome := by
            rw [List.find?_isSome]
            exact ⟨x, hx, decide_eq_true rfl⟩
          obtain ⟨first, hfirst⟩ := Option.isSome_iff_exists.mp hfind
          obtain ⟨hkey, before, after, hsplit, hbefore⟩ := List.find?_eq_some_iff_append.mp hfirst
          exact ⟨before, first, after, hsplit, of_decide_eq_true hkey, fun y hy => by
            simpa using hbefore y hy⟩
        have hfirst : first ∈ new := by rw [hsplit]; simp
        have hsame : name first = name x :=
          hname first (List.mem_append_right _ hfirst) x hx hold hkey
        refine List.mem_map.mpr ⟨first, mem_unionBy.mpr (.inr ⟨before, after, hsplit, ?_⟩), hsame⟩
        intro y hy hyfirst
        rcases List.mem_append.mp hy with hxs | hbef
        · have hyx : name y = name x :=
            hname y (List.mem_append_left _ hxs) x hx hold (hyfirst.trans hkey)
          exact hold (hyx ▸ List.mem_map_of_mem hxs)
        · exact hbefore y hbef (hyfirst.trans hkey)

end TirBase.ListUnions
