import Mathlib
import TirBase.AutomergeDocument

/-! # Editing the lists of a document

What a deletion and an insertion by index do to the visible elements of a list. An insertion is
the newest operation of the document, so it stands right behind the element it follows. -/
namespace TirBase.DocumentLists
open OperationRegisters Automerge

theorem filterMap_split {α β : Type*} {f : α → Option β} {l : List α} {i : ℕ} {y : β}
    (h : (l.filterMap f)[i]? = some y) : ∃ before x after, l = before ++ x :: after ∧
      f x = some y ∧ (before.filterMap f).length = i := by
  induction l generalizing i with
  | nil => simp at h
  | cons x l ih =>
    cases hx : f x with
    | none =>
      rw [List.filterMap_cons_none hx] at h
      obtain ⟨before, x', after, rfl, hx', hlength⟩ := ih h
      exact ⟨x :: before, x', after, rfl, hx', by rw [List.filterMap_cons_none hx, hlength]⟩
    | some z =>
      rw [List.filterMap_cons_some hx] at h
      cases i with
      | zero =>
        rw [List.getElem?_cons_zero, Option.some.injEq] at h
        exact ⟨[], x, l, rfl, h ▸ hx, rfl⟩
      | succ i =>
        rw [List.getElem?_cons_succ] at h
        obtain ⟨before, x', after, rfl, hx', hlength⟩ := ih h
        refine ⟨x :: before, x', after, rfl, hx', ?_⟩
        rw [List.filterMap_cons_some hx, List.length_cons, hlength]

theorem insertIdx_length {α : Type*} (before after : List α) (x : α) :
    (before ++ after).insertIdx before.length x = before ++ x :: after := by
  induction before with
  | nil => rfl
  | cons y before ih =>
    rw [List.cons_append, List.length_cons, List.insertIdx_succ_cons, ih, List.cons_append]

/-- Each operation of the document has an identifier of its own. -/
structure Sound (d : Document) : Prop where
  valid : d.Valid
  distinct : (d.ops.map Op.id).Nodup

theorem Sound.append {d : Document} (hd : Sound d) {b : OpBody}
    (hheld : ∀ i ∈ (⟨d.nextId, b⟩ : Op).pred, ∃ o ∈ d.ops, o.id = i ∧
      o.target = (⟨d.nextId, b⟩ : Op).target) : Sound (d.append b) := by
  constructor
  · unfold Document.Valid
    rw [Document.ops_append]
    exact (Document.extends_of_held hheld).causallyClosed hd.valid
  · rw [Document.ops_append, List.map_append, List.map_singleton]
    refine List.nodup_append.mpr ⟨hd.distinct, List.nodup_singleton _, ?_⟩
    intro i hi j hj
    obtain ⟨o, ho, rfl⟩ := List.mem_map.mp hi
    rw [List.mem_singleton.mp hj]
    exact (Document.id_lt_nextId ho).ne

/-- The insertions into a list, in the order of their identifiers. -/
def insertsOf (d : Document) (obj : ObjId) : List Op :=
  (d.ops.filter fun o =>
    match o.body with
    | .insert obj' _ _ => decide (obj' = obj)
    | _ => false).insertionSort fun a b => a.id ≤ b.id

def place (es : List OpId) (o : Op) : List OpId :=
  match o.body with
  | .insert _ after _ => Document.insertAfter after o.id es
  | _ => es

theorem elements_eq (d : Document) (obj : ObjId) :
    d.elements obj = (insertsOf d obj).foldl place [] := rfl

theorem insertAfter_perm (after : Option OpId) (e : OpId) (es : List OpId) :
    (Document.insertAfter after e es).Perm (e :: es) := by
  induction es with
  | nil => exact .refl _
  | cons e' es ih =>
    unfold Document.insertAfter
    split_ifs
    · exact .refl _
    · exact .swap _ _ _
    · exact (ih.cons e').trans (.swap _ _ _)

theorem insertAfter_none (e : OpId) (es : List OpId) :
    Document.insertAfter none e es = e :: es := by
  cases es with
  | nil => rfl
  | cons e' es => simp [Document.insertAfter]

theorem insertAfter_split {e new : OpId} {before after : List OpId} (h : e ∉ before) :
    Document.insertAfter (some e) new (before ++ e :: after) = before ++ e :: new :: after := by
  induction before with
  | nil => simp [Document.insertAfter]
  | cons e' before ih =>
    rw [List.mem_cons, not_or] at h
    have hne : ¬(some e = some e') := fun heq => h.1 (Option.some.inj heq)
    rw [List.cons_append, Document.insertAfter, if_neg (by simp), if_neg hne, ih h.2]
    rfl

theorem mem_insertsOf {d : Document} {obj : ObjId} {o : Op} :
    o ∈ insertsOf d obj ↔ o ∈ d.ops ∧ ∃ after action, o.body = .insert obj after action := by
  rw [insertsOf, (List.perm_insertionSort _ _).mem_iff, List.mem_filter]
  refine and_congr_right fun _ => ?_
  cases o.body with
  | set target action pred => simp
  | insert obj' after action => simp

theorem foldl_place_perm {inserts : List Op} (h : ∀ o ∈ inserts, ∃ obj after action,
    o.body = .insert obj after action) (es : List OpId) :
    (inserts.foldl place es).Perm (inserts.map Op.id ++ es) := by
  induction inserts generalizing es with
  | nil => exact .refl _
  | cons o inserts ih =>
    obtain ⟨obj, after, action, hbody⟩ := h o List.mem_cons_self
    rw [List.foldl_cons]
    refine (ih (fun o' ho' => h o' (List.mem_cons_of_mem o ho')) _).trans ?_
    have hplace : (place es o).Perm (o.id :: es) := by
      rw [place, hbody]
      exact insertAfter_perm after o.id es
    exact (hplace.append_left _).trans List.perm_middle

/-- The elements of a list are the identifiers of its insertions. -/
theorem elements_perm (d : Document) (obj : ObjId) :
    (d.elements obj).Perm ((insertsOf d obj).map Op.id) := by
  rw [elements_eq]
  have hbodies : ∀ o ∈ insertsOf d obj, ∃ obj' after action, o.body = .insert obj' after action :=
    fun o ho => ⟨obj, (mem_insertsOf.mp ho).2⟩
  have hperm := foldl_place_perm hbodies []
  rwa [List.append_nil] at hperm

theorem Sound.elements_nodup {d : Document} (hd : Sound d) (obj : ObjId) :
    (d.elements obj).Nodup := by
  refine (elements_perm d obj).nodup_iff.mpr ?_
  have hperm : ((insertsOf d obj).map Op.id).Perm
      ((d.ops.filter fun o => match o.body with
        | .insert obj' _ _ => decide (obj' = obj)
        | _ => false).map Op.id) := (List.perm_insertionSort _ _).map _
  exact hperm.nodup_iff.mpr (hd.distinct.sublist (List.filter_sublist.map _))

theorem lt_nextId_of_mem_elements {d : Document} {obj : ObjId} {e : OpId}
    (h : e ∈ d.elements obj) : e < d.nextId := by
  obtain ⟨o, ho, rfl⟩ := List.mem_map.mp ((elements_perm d obj).mem_iff.mp h)
  exact Document.id_lt_nextId (mem_insertsOf.mp ho).1

theorem orderedInsert_concat {a x : Op} (h : a.id ≤ x.id) (l : List Op) :
    (l ++ [x]).orderedInsert (fun a b => a.id ≤ b.id) a =
      l.orderedInsert (fun a b => a.id ≤ b.id) a ++ [x] := by
  induction l with
  | nil => simp [h]
  | cons b l ih =>
    rw [List.cons_append, List.orderedInsert_cons, List.orderedInsert_cons]
    split_ifs
    · rfl
    · rw [ih]
      rfl

theorem insertionSort_concat {x : Op} {l : List Op} (h : ∀ o ∈ l, o.id ≤ x.id) :
    (l ++ [x]).insertionSort (fun a b => a.id ≤ b.id) =
      l.insertionSort (fun a b => a.id ≤ b.id) ++ [x] := by
  induction l with
  | nil => rfl
  | cons a l ih =>
    rw [List.cons_append, List.insertionSort_cons, List.insertionSort_cons,
      ih fun o ho => h o (List.mem_cons_of_mem a ho)]
    exact orderedInsert_concat (h a List.mem_cons_self) _

theorem elements_append_insert (d : Document) (obj : ObjId) (after : Option OpId)
    (action : Action) : (d.append (.insert obj after action)).elements obj =
      Document.insertAfter after d.nextId (d.elements obj) := by
  have hlast : insertsOf (d.append (.insert obj after action)) obj =
      insertsOf d obj ++ [⟨d.nextId, .insert obj after action⟩] := by
    unfold insertsOf
    rw [Document.ops_append, List.filter_append]
    have hsingle : ([⟨d.nextId, .insert obj after action⟩] : List Op).filter (fun o =>
        match o.body with
        | .insert obj' _ _ => decide (obj' = obj)
        | _ => false) = [⟨d.nextId, .insert obj after action⟩] := by simp
    rw [hsingle]
    exact insertionSort_concat fun o ho => (Document.id_lt_nextId (List.mem_of_mem_filter ho)).le
  rw [elements_eq, hlast, List.foldl_append, ← elements_eq]
  rfl

theorem elements_append_other (d : Document) {obj : ObjId} {b : OpBody}
    (h : ∀ after action, b ≠ .insert obj after action) :
    (d.append b).elements obj = d.elements obj := by
  have hsame : insertsOf (d.append b) obj = insertsOf d obj := by
    unfold insertsOf
    rw [Document.ops_append, List.filter_append]
    have hnone : ([⟨d.nextId, b⟩] : List Op).filter (fun o =>
        match o.body with
        | .insert obj' _ _ => decide (obj' = obj)
        | _ => false) = [] := by
      cases b with
      | set target action pred => simp
      | insert obj' after action =>
        have hne : obj' ≠ obj := fun heq => h after action (by rw [heq])
        simp [hne]
    rw [hnone, List.append_nil]
  rw [elements_eq, hsame, ← elements_eq]

def shown (d : Document) (obj : ObjId) (e : OpId) : Option (OpId × Op) :=
  (d.winner (.element obj e)).map fun o => (e, o)

theorem listRange_eq (d : Document) (obj : ObjId) :
    d.listRange obj = (d.elements obj).filterMap (shown d obj) := rfl

theorem fst_of_shown {d : Document} {obj : ObjId} {e : OpId} {item : OpId × Op}
    (h : shown d obj e = some item) : item.1 = e := by
  obtain ⟨o, -, rfl⟩ := Option.map_eq_some_iff.mp h
  rfl

section Edits
variable {d d' : Document} {b : OpBody} {obj : ObjId}

/-- The operation is made on what the document holds. -/
def Held (d : Document) (b : OpBody) : Prop :=
  ∀ i ∈ (⟨d.nextId, b⟩ : Op).pred, ∃ o ∈ d.ops, o.id = i ∧ o.target = (⟨d.nextId, b⟩ : Op).target

theorem shown_append_other (hd : Sound d) (hheld : Held d b) {e : OpId}
    (h : (⟨d.nextId, b⟩ : Op).target ≠ .element obj e) :
    shown (d.append b) obj e = shown d obj e := by
  rw [shown, shown, Document.winner, Document.ops_append,
    (Document.extends_of_held hheld).winner_other hd.valid.unique (Ne.symm h)]
  rfl

theorem listRange_append_other (hd : Sound d) (hheld : Held d b)
    (hinsert : ∀ after action, b ≠ .insert obj after action)
    (htarget : ∀ e, (⟨d.nextId, b⟩ : Op).target ≠ .element obj e) :
    (d.append b).listRange obj = d.listRange obj := by
  rw [listRange_eq, listRange_eq, elements_append_other d hinsert]
  exact List.filterMap_congr fun e _ => shown_append_other hd hheld (htarget e)

theorem deleteAt_spec (hd : Sound d) {index : ℕ} (h : d.deleteAt obj index = some d') :
    Sound d' ∧ d'.listRange obj = (d.listRange obj).eraseIdx index ∧
      ∀ obj', obj' ≠ obj → d'.listRange obj' = d.listRange obj' := by
  obtain ⟨item, hitem, rfl⟩ := Option.map_eq_some_iff.mp h
  have hheld : Held d (.set (.element obj item.1) .delete
      (d.predecessors (.element obj item.1))) := fun i hi => Document.held_of_mem_predecessors hi
  refine ⟨hd.append hheld, ?_, fun obj' hne => ?_⟩
  · rw [listRange_eq] at hitem
    obtain ⟨before, e, after, helements, hshown, hlength⟩ := filterMap_split hitem
    have hitem : item.1 = e := fst_of_shown hshown
    have hnodup := hd.elements_nodup obj
    rw [helements] at hnodup
    have hdisjoint := (List.nodup_append.mp hnodup).2.2
    have hafter := (List.nodup_cons.mp (List.nodup_append.mp hnodup).2.1).1
    have hsame : ∀ e', e' ≠ e → shown (d.append (.set (.element obj item.1) .delete
        (d.predecessors (.element obj item.1)))) obj e' = shown d obj e' := by
      intro e' hne
      refine shown_append_other hd hheld fun htarget => hne ?_
      rw [← hitem]
      exact (Target.element.inj htarget).2.symm
    have hgone : shown (d.append (.set (.element obj item.1) .delete
        (d.predecessors (.element obj item.1)))) obj e = none := by
      rw [shown, Document.winner, Document.ops_append, ← hitem]
      rw [show winner (d.ops ++ [⟨d.nextId, .set (.element obj item.1) .delete
        (d.predecessors (.element obj item.1))⟩]) (Target.element obj item.1) = none from
          winner_append_dead rfl fun p hp => List.mem_map_of_mem hp]
      rfl
    rw [listRange_eq, listRange_eq, elements_append_other d (by simp), helements,
      List.filterMap_append, List.filterMap_append, List.filterMap_cons_none hgone,
      List.filterMap_cons_some hshown,
      List.eraseIdx_append_of_length_le (by omega), hlength, Nat.sub_self, List.eraseIdx_cons_zero]
    congr 1
    · exact List.filterMap_congr fun e' he' => hsame e' (hdisjoint e' he' e List.mem_cons_self)
    · refine List.filterMap_congr fun e' he' => hsame e' ?_
      rintro rfl
      exact hafter he'
  · refine listRange_append_other hd hheld (by simp) fun e htarget => hne ?_
    exact (Target.element.inj htarget).1.symm

/-- A new element shows its value where it is placed. -/
theorem listRange_append_insert (hd : Sound d) {after : Option OpId} (value : ScalarValue)
    {before rest : List OpId} (helements : d.elements obj = before ++ rest)
    (hplace : Document.insertAfter after d.nextId (d.elements obj) = before ++ d.nextId :: rest) :
    (d.append (.insert obj after (.put value))).listRange obj =
      (d.listRange obj).insertIdx (before.filterMap (shown d obj)).length
        (d.nextId, ⟨d.nextId, .insert obj after (.put value)⟩) := by
  have hheld : Held d (.insert obj after (.put value)) := fun i hi => absurd hi List.not_mem_nil
  have hsame : ∀ e ∈ d.elements obj,
      shown (d.append (.insert obj after (.put value))) obj e = shown d obj e := by
    intro e he
    refine shown_append_other hd hheld fun htarget => ?_
    exact (lt_nextId_of_mem_elements he).ne (Target.element.inj htarget).2.symm
  have hnew : shown (d.append (.insert obj after (.put value))) obj d.nextId =
      some (d.nextId, ⟨d.nextId, .insert obj after (.put value)⟩) := by
    rw [shown, Document.winner, Document.ops_append]
    rw [show winner (d.ops ++ [⟨d.nextId, .insert obj after (.put value)⟩])
      (Target.element obj d.nextId) = some ⟨d.nextId, .insert obj after (.put value)⟩ from
        (Document.extends_of_held hheld).winner_newest hd.valid rfl]
    rfl
  rw [listRange_eq, listRange_eq, elements_append_insert, hplace, helements,
    List.filterMap_append, List.filterMap_append, List.filterMap_cons_some hnew, insertIdx_length]
  rw [helements] at hsame
  congr 1
  · exact List.filterMap_congr fun e he => hsame e (List.mem_append_left rest he)
  · congr 1
    exact List.filterMap_congr fun e he => hsame e (List.mem_append_right before he)

theorem insertAt_spec (hd : Sound d) {index : ℕ} {value : ScalarValue}
    (h : d.insertAt obj index value = some d') :
    Sound d' ∧ (∃ item : OpId × Op, item.2.action = .put value ∧
        d'.listRange obj = (d.listRange obj).insertIdx index item) ∧
      ∀ obj', obj' ≠ obj → d'.listRange obj' = d.listRange obj' := by
  have hheld : ∀ after, Held d (.insert obj after (.put value)) :=
    fun after i hi => absurd hi List.not_mem_nil
  have hother : ∀ after obj', obj' ≠ obj →
      (d.append (.insert obj after (.put value))).listRange obj' = d.listRange obj' := by
    intro after obj' hne
    refine listRange_append_other hd (hheld after) ?_ fun e htarget => hne ?_
    · intro after' action heq
      exact hne (OpBody.insert.inj heq).1.symm
    · exact (Target.element.inj htarget).1.symm
  unfold Document.insertAt at h
  dsimp only at h
  split_ifs at h with hindex
  · cases h
    refine ⟨hd.append (hheld none),
      ⟨(d.nextId, ⟨d.nextId, .insert obj none (.put value)⟩), rfl, ?_⟩, hother none⟩
    have helements : d.elements obj = [] ++ d.elements obj := rfl
    rw [hindex]
    exact listRange_append_insert hd value helements (insertAfter_none _ _)
  · obtain ⟨item, hitem, rfl⟩ := Option.map_eq_some_iff.mp h
    rw [listRange_eq] at hitem
    obtain ⟨before, e, after, helements, hshown, hlength⟩ := filterMap_split hitem
    have hfst : item.1 = e := fst_of_shown hshown
    have hnodup := hd.elements_nodup obj
    rw [helements] at hnodup
    have hnot : e ∉ before := fun he =>
      (List.nodup_append.mp hnodup).2.2 e he e List.mem_cons_self rfl
    have hcount : ((before ++ [e]).filterMap (shown d obj)).length = index := by
      rw [List.filterMap_append, List.filterMap_cons_some hshown, List.filterMap_nil,
        List.length_append, hlength, List.length_singleton]
      omega
    refine ⟨hd.append (hheld _),
      ⟨(d.nextId, ⟨d.nextId, .insert obj (some item.1) (.put value)⟩), rfl, ?_⟩, hother _⟩
    have hsplit : d.elements obj = (before ++ [e]) ++ after := by
      rw [helements, List.append_assoc]
      rfl
    rw [← hcount, hfst]
    refine listRange_append_insert hd value hsplit ?_
    rw [helements, insertAfter_split hnot, List.append_assoc]
    rfl

end Edits

end TirBase.DocumentLists
