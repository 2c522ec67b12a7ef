import Mathlib

/-! # Caches that drop the entry that was put longest ago

A cache holds at most so many entries, one for each key. Putting an entry moves its key to the front, and
a full cache drops its last entry for a new key. -/
namespace TirBase.LeastRecentlyUsed

variable {Key Value : Type*} [DecidableEq Key] {capacity : ℕ}

/-- The entries, the one that was put last in front. -/
structure Cache (Key Value : Type*) (capacity : ℕ) where
  entries : List (Key × Value)
  nodup : (entries.map Prod.fst).Nodup
  bounded : entries.length ≤ capacity
  deriving DecidableEq

def without (k : Key) (entries : List (Key × Value)) : List (Key × Value) :=
  entries.filter fun e => e.1 ≠ k

theorem mem_without {k : Key} {entries : List (Key × Value)} {e : Key × Value} :
    e ∈ without k entries ↔ e ∈ entries ∧ e.1 ≠ k := by
  rw [without, List.mem_filter, decide_eq_true_iff]

theorem nodup_without {k : Key} {entries : List (Key × Value)} (h : (entries.map Prod.fst).Nodup) :
    ((without k entries).map Prod.fst).Nodup :=
  h.sublist (List.filter_sublist.map Prod.fst)

theorem nodup_cons_without {k : Key} {v : Value} {entries : List (Key × Value)}
    (h : (entries.map Prod.fst).Nodup) : (((k, v) :: without k entries).map Prod.fst).Nodup := by
  rw [List.map_cons, List.nodup_cons]
  refine ⟨fun hk => ?_, nodup_without h⟩
  obtain ⟨e, he, hkey⟩ := List.mem_map.mp hk
  exact (mem_without.mp he).2 hkey

theorem without_append (k : Key) (a b : List (Key × Value)) :
    without k (a ++ b) = without k a ++ without k b :=
  List.filter_append a b

theorem without_cons_of_ne {k k' : Key} (h : k' ≠ k) (v : Value) (entries : List (Key × Value)) :
    without k ((k', v) :: entries) = (k', v) :: without k entries := by
  simp [without, h]

namespace Cache

def empty : Cache Key Value capacity := ⟨[], .nil, Nat.zero_le capacity⟩

/-- The entry of a key comes to the front, and the last one is dropped when there is no room for it. -/
def put (c : Cache Key Value capacity) (k : Key) (v : Value) : Cache Key Value capacity where
  entries := ((k, v) :: without k c.entries).take capacity
  nodup := (nodup_cons_without c.nodup).sublist ((List.take_sublist _ _).map Prod.fst)
  bounded := List.length_take_le _ _

/-- Looking does not count as a use. -/
def peek (c : Cache Key Value capacity) (k : Key) : Option Value :=
  (c.entries.find? fun e => e.1 = k).map Prod.snd

def pop (c : Cache Key Value capacity) (k : Key) : Cache Key Value capacity where
  entries := without k c.entries
  nodup := nodup_without c.nodup
  bounded := (List.length_filter_le _ _).trans c.bounded

variable {c : Cache Key Value capacity} {k k' : Key} {v v' : Value}

theorem entries_put : (c.put k v).entries = ((k, v) :: without k c.entries).take capacity := rfl

theorem entries_pop : (c.pop k).entries = without k c.entries := rfl

theorem peek_eq_some_iff : c.peek k = some v ↔ (k, v) ∈ c.entries := by
  rw [peek, Option.map_eq_some_iff]
  constructor
  · rintro ⟨e, hfound, rfl⟩
    have hkey : e.1 = k := by simpa using List.find?_some hfound
    rw [← hkey]
    exact List.mem_of_find?_eq_some hfound
  · intro hmem
    cases hfound : c.entries.find? fun e => e.1 = k with
    | none =>
      have hnone := List.find?_eq_none.mp hfound (k, v) hmem
      simp at hnone
    | some e =>
      have hkey : e.1 = k := by simpa using List.find?_some hfound
      have heq : e = (k, v) :=
        List.inj_on_of_nodup_map c.nodup (List.mem_of_find?_eq_some hfound) hmem hkey
      exact ⟨e, rfl, by rw [heq]⟩

/-- The entry is there, and only some keys are ahead of it. -/
def Behind (c : Cache Key Value capacity) (k : Key) (v : Value) (ahead : Finset Key) : Prop :=
  ∃ front rest, c.entries = front ++ (k, v) :: rest ∧ ∀ e ∈ front, e.1 ∈ ahead

theorem Behind.peek {ahead : Finset Key} (h : c.Behind k v ahead) : c.peek k = some v := by
  obtain ⟨front, rest, hentries, -⟩ := h
  rw [peek_eq_some_iff, hentries]
  exact List.mem_append_right front List.mem_cons_self

theorem behind_put (c : Cache Key Value capacity) (k : Key) (v : Value) (h : 0 < capacity) :
    (c.put k v).Behind k v ∅ := by
  obtain ⟨n, rfl⟩ := Nat.exists_eq_succ_of_ne_zero h.ne'
  exact ⟨[], (without k c.entries).take n, rfl, fun e he => by cases he⟩

theorem Behind.pop {ahead : Finset Key} (h : c.Behind k v ahead) (hne : k ≠ k') :
    (c.pop k').Behind k v ahead := by
  obtain ⟨front, rest, hentries, hfront⟩ := h
  refine ⟨without k' front, without k' rest, ?_, fun e he => hfront e (mem_without.mp he).1⟩
  rw [entries_pop, hentries, without_append, without_cons_of_ne hne]

/-- As long as fewer keys than the cache has room for are ahead of an entry, the next one that is put
does not push it out. -/
theorem Behind.put {ahead : Finset Key} (h : c.Behind k v ahead) (hne : k ≠ k')
    (hroom : (insert k' ahead).card < capacity) : (c.put k' v').Behind k v (insert k' ahead) := by
  obtain ⟨front, rest, hentries, hfront⟩ := h
  have hsplit : (k', v') :: without k' c.entries =
      ((k', v') :: without k' front) ++ (k, v) :: without k' rest := by
    rw [hentries, without_append, without_cons_of_ne hne, List.cons_append]
  have hahead : ∀ e ∈ (k', v') :: without k' front, e.1 ∈ insert k' ahead := by
    intro e he
    rcases List.mem_cons.mp he with rfl | hold
    · exact Finset.mem_insert_self _ _
    · exact Finset.mem_insert_of_mem (hfront e (mem_without.mp hold).1)
  have hnodup : (((k', v') :: without k' front).map Prod.fst).Nodup := by
    have hall := nodup_cons_without (k := k') (v := v') c.nodup
    rw [hsplit, List.map_append] at hall
    exact (List.nodup_append.mp hall).1
  -- the keys in front are different ones of the set, so they leave room for the entry
  have hlength : ((k', v') :: without k' front).length < capacity := by
    have hcard : ((((k', v') :: without k' front).map Prod.fst).toFinset).card ≤
        (insert k' ahead).card := by
      apply Finset.card_le_card
      intro key hkey
      obtain ⟨e, he, rfl⟩ := List.mem_map.mp (List.mem_toFinset.mp hkey)
      exact hahead e he
    rw [List.toFinset_card_of_nodup hnodup, List.length_map] at hcard
    omega
  obtain ⟨n, hn⟩ : ∃ n, capacity - ((k', v') :: without k' front).length = n + 1 :=
    ⟨capacity - ((k', v') :: without k' front).length - 1, by omega⟩
  refine ⟨(k', v') :: without k' front, (without k' rest).take n, ?_, hahead⟩
  rw [entries_put, hsplit, List.take_append, List.take_of_length_le hlength.le, hn, List.take_succ_cons]

omit [DecidableEq Key] in
theorem Behind.mono {ahead ahead' : Finset Key} (h : c.Behind k v ahead) (hsub : ahead ⊆ ahead') :
    c.Behind k v ahead' := by
  obtain ⟨front, rest, hentries, hfront⟩ := h
  exact ⟨front, rest, hentries, fun e he => hsub (hfront e he)⟩

end Cache

end TirBase.LeastRecentlyUsed
