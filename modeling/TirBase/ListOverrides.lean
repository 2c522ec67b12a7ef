import TirBase.DocumentLists
import TirBase.MergeVerification

/-! # What the list overrides do to the lists

The pass computes all positions once, before its first edit. An override takes two elements out
and puts their values back at the front, so the elements between them move on by one. -/
namespace TirBase.ListOverrides
open OperationRegisters Automerge MergeVerification DocumentLists

inductive Content
  | scalar (value : ScalarValue)
  | object (id : OpId)
  deriving DecidableEq

def contentOf (o : Op) : Content :=
  match o.action with
  | .put value => .scalar value
  | _ => .object o.id

def contents (d : Document) (obj : ObjId) : List Content :=
  (d.listRange obj).map fun item => contentOf item.2

/-- The list of a pair that is overridden, with the positions of its local and its incoming
element: the incoming one does not come first. -/
def divergence (definitive : Bool) (merged : Document) (c : RgaConflict) :
    Option (ObjId × ℕ × ℕ) :=
  if definitive then
    (findInOneList (indexMaps merged) c).filter fun found => found.2.1 ≤ found.2.2
  else none

def divergences (definitive : Bool) (merged : Document) (cs : List RgaConflict) :
    List (ObjId × ℕ × ℕ) :=
  cs.filterMap (divergence definitive merged)

def Moved (found : ObjId × ℕ × ℕ) (index : ℕ) : Prop := found.2.1 ≤ index ∧ index ≤ found.2.2

/-- The overrides are of two elements each, and none is of an element that an earlier one has
moved. -/
def Apart (founds : List (ObjId × ℕ × ℕ)) : Prop :=
  (∀ found ∈ founds, found.2.1 < found.2.2) ∧
    founds.Pairwise fun found later => found.1 = later.1 →
      ¬Moved found later.2.1 ∧ ¬Moved found later.2.2

instance (found : ObjId × ℕ × ℕ) (index : ℕ) : Decidable (Moved found index) := by
  unfold Moved
  infer_instance

instance (founds : List (ObjId × ℕ × ℕ)) : Decidable (Apart founds) := by
  unfold Apart
  infer_instance

section Override
variable {d d' : Document} {obj : ObjId}

theorem contents_deleteAt (hd : Sound d) {index : ℕ} (h : d.deleteAt obj index = some d') :
    Sound d' ∧ contents d' obj = (contents d obj).eraseIdx index ∧
      ∀ obj', obj' ≠ obj → contents d' obj' = contents d obj' := by
  obtain ⟨hsound, hrange, hother⟩ := deleteAt_spec hd h
  refine ⟨hsound, ?_, fun obj' hne => by rw [contents, contents, hother obj' hne]⟩
  rw [contents, contents, hrange, List.eraseIdx_map]

theorem contents_insertAt (hd : Sound d) {index : ℕ} {value : ScalarValue}
    (h : d.insertAt obj index value = some d') :
    Sound d' ∧ contents d' obj = (contents d obj).insertIdx index (.scalar value) ∧
      ∀ obj', obj' ≠ obj → contents d' obj' = contents d obj' := by
  obtain ⟨hsound, ⟨item, haction, hrange⟩, hother⟩ := insertAt_spec hd h
  refine ⟨hsound, ?_, fun obj' hne => by rw [contents, contents, hother obj' hne]⟩
  have hcontent : contentOf item.2 = .scalar value := by rw [contentOf, haction]
  rw [contents, contents, hrange, List.map_insertIdx, hcontent]

theorem deleteAt_isSome {index : ℕ} (h : index < (contents d obj).length) :
    ∃ d', d.deleteAt obj index = some d' := by
  rw [contents, List.length_map] at h
  exact ⟨_, by rw [Document.deleteAt, List.getElem?_eq_getElem h]; rfl⟩

theorem insertAt_isSome {index : ℕ} (value : ScalarValue)
    (h : index ≤ (contents d obj).length) : ∃ d', d.insertAt obj index value = some d' := by
  rw [contents, List.length_map] at h
  unfold Document.insertAt
  dsimp only
  split_ifs with hindex
  · exact ⟨_, rfl⟩
  · have hlt : index - 1 < (d.listRange obj).length := by omega
    exact ⟨_, by rw [List.getElem?_eq_getElem hlt]; rfl⟩

def reordered (l : List Content) (lo hi : ℕ) (incoming local_ : Content) : List Content :=
  (((l.eraseIdx hi).eraseIdx lo).insertIdx lo incoming).insertIdx (lo + 1) local_

theorem contents_reorder (hd : Sound d) {lo hi : ℕ} (hlt : lo < hi)
    (hhi : hi < (contents d obj).length) (incomingValue localValue : ScalarValue) :
    ∃ d', reorder d obj lo hi incomingValue localValue = (d', true) ∧ Sound d' ∧
      contents d' obj =
        reordered (contents d obj) lo hi (.scalar incomingValue) (.scalar localValue) ∧
      ∀ obj', obj' ≠ obj → contents d' obj' = contents d obj' := by
  obtain ⟨d₁, h₁⟩ := deleteAt_isSome hhi
  obtain ⟨hsound₁, hcontents₁, hother₁⟩ := contents_deleteAt hd h₁
  have hlength₁ : (contents d₁ obj).length = (contents d obj).length - 1 := by
    rw [hcontents₁, List.length_eraseIdx_of_lt hhi]
  have hlo : lo < (contents d₁ obj).length := by omega
  obtain ⟨d₂, h₂⟩ := deleteAt_isSome hlo
  obtain ⟨hsound₂, hcontents₂, hother₂⟩ := contents_deleteAt hsound₁ h₂
  have hlength₂ : (contents d₂ obj).length = (contents d₁ obj).length - 1 := by
    rw [hcontents₂, List.length_eraseIdx_of_lt hlo]
  have hlo : lo ≤ (contents d₂ obj).length := by omega
  obtain ⟨d₃, h₃⟩ := insertAt_isSome incomingValue hlo
  obtain ⟨hsound₃, hcontents₃, hother₃⟩ := contents_insertAt hsound₂ h₃
  have hlength₃ : (contents d₃ obj).length = (contents d₂ obj).length + 1 := by
    rw [hcontents₃, List.length_insertIdx_of_le_length hlo]
  have hlo : lo + 1 ≤ (contents d₃ obj).length := by omega
  obtain ⟨d₄, h₄⟩ := insertAt_isSome localValue hlo
  obtain ⟨hsound₄, hcontents₄, hother₄⟩ := contents_insertAt hsound₃ h₄
  refine ⟨d₄, ?_, hsound₄, ?_, fun obj' hne => ?_⟩
  · simp only [reorder, h₁, h₂, h₃, h₄]
  · rw [hcontents₄, hcontents₃, hcontents₂, hcontents₁, reordered]
  · rw [hother₄ obj' hne, hother₃ obj' hne, hother₂ obj' hne, hother₁ obj' hne]

theorem eraseIdx_length {α : Type*} (before after : List α) (x : α) :
    (before ++ x :: after).eraseIdx before.length = before ++ after := by
  rw [List.eraseIdx_append_of_length_le le_rfl, Nat.sub_self, List.eraseIdx_cons_zero]

theorem split_at {α : Type*} {l : List α} {index : ℕ} {x : α} (h : l[index]? = some x) :
    ∃ before after, l = before ++ x :: after ∧ before.length = index := by
  obtain ⟨hlt, rfl⟩ := List.getElem?_eq_some_iff.mp h
  refine ⟨l.take index, l.drop (index + 1), ?_, ?_⟩
  · rw [← List.drop_eq_getElem_cons hlt, List.take_append_drop]
  · rw [List.length_take]
    omega

/-- An override of two elements that still stand where they were found moves the incoming one
and the elements between, and nothing else. -/
theorem reordered_spec {l : List Content} {lo hi : ℕ} {localContent incomingContent : Content}
    (hlt : lo < hi) (hlo : l[lo]? = some localContent) (hhi : l[hi]? = some incomingContent) :
    (reordered l lo hi incomingContent localContent).Perm l ∧
      ∀ index, index < lo ∨ hi < index →
        (reordered l lo hi incomingContent localContent)[index]? = l[index]? := by
  obtain ⟨before, rest, rfl, hbefore⟩ := split_at hlo
  rw [List.getElem?_append_right (by omega)] at hhi
  obtain ⟨k, hk⟩ : ∃ k, hi - before.length = k + 1 := ⟨hi - lo - 1, by omega⟩
  rw [hk, List.getElem?_cons_succ] at hhi
  obtain ⟨between, after, rfl, hbetween⟩ := split_at hhi
  have hresult : reordered (before ++ localContent :: (between ++ incomingContent :: after)) lo hi
      incomingContent localContent =
        before ++ incomingContent :: localContent :: (between ++ after) := by
    have hhi : hi = (before ++ localContent :: between).length := by
      rw [List.length_append, List.length_cons]
      omega
    have herase : (before ++ localContent :: (between ++ incomingContent :: after)).eraseIdx hi =
        before ++ localContent :: (between ++ after) := by
      have hsplit := eraseIdx_length (before ++ localContent :: between) after incomingContent
      rw [hhi]
      simpa using hsplit
    have hlength : (before ++ [incomingContent]).length = lo + 1 := by
      rw [List.length_append, List.length_singleton, hbefore]
    have hinsert := insertIdx_length (before ++ [incomingContent]) (between ++ after) localContent
    rw [reordered, herase, ← hbefore, eraseIdx_length, insertIdx_length, hbefore, ← hlength]
    simpa using hinsert
  rw [hresult]
  constructor
  · refine List.Perm.append_left before ?_
    have hmoved : (between ++ incomingContent :: after).Perm
        (incomingContent :: (between ++ after)) := List.perm_middle
    exact (List.Perm.swap _ _ _).trans (hmoved.symm.cons localContent)
  · intro index hindex
    rcases hindex with hindex | hindex
    · rw [List.getElem?_append_left (by omega), List.getElem?_append_left (by omega)]
    · obtain ⟨m, hm⟩ : ∃ m, index - before.length = m + 2 := ⟨index - lo - 2, by omega⟩
      rw [List.getElem?_append_right (by omega), List.getElem?_append_right (by omega), hm,
        List.getElem?_cons_succ, List.getElem?_cons_succ, List.getElem?_cons_succ,
        List.getElem?_append_right (by omega), List.getElem?_append_right (by omega)]
      obtain ⟨r, hr⟩ : ∃ r, m + 1 - between.length = r + 1 :=
        ⟨m - between.length, by omega⟩
      rw [hr, List.getElem?_cons_succ]
      congr 1
      omega

end Override

section ScalarPass
variable {localDoc incoming : Document}

theorem rootKeys_congr {d d' : Document}
    (h : ∀ key, (d'.winner (.root key)).isSome = (d.winner (.root key)).isSome) :
    d'.rootKeys = d.rootKeys := by
  have hperm : d'.rootKeys.Perm d.rootKeys := by
    refine (List.perm_ext_iff_of_nodup (rootKeys_nodup d') (rootKeys_nodup d)).mpr fun key => ?_
    rw [mem_rootKeys, mem_rootKeys, h key]
  exact hperm.eq_of_pairwise' (List.pairwise_insertionSort _ _) (List.pairwise_insertionSort _ _)

structure SameLists (d d' : Document) : Prop where
  range : ∀ obj, d'.listRange obj = d.listRange obj
  maps : indexMaps d' = indexMaps d

theorem SameLists.refl (d : Document) : SameLists d d := ⟨fun _ => rfl, rfl⟩

theorem SameLists.trans {d₁ d₂ d₃ : Document} (h : SameLists d₁ d₂) (h' : SameLists d₂ d₃) :
    SameLists d₁ d₃ :=
  ⟨fun obj => (h'.range obj).trans (h.range obj), h'.maps.trans h.maps⟩

theorem sameLists_put {d : Document} (hd : Sound d) {key : String} (value : ScalarValue) {o : Op}
    (hwinner : d.winner (.root key) = some o) (hscalar : ∃ v, o.action = .put v) :
    Sound (d.put key value) ∧ SameLists d (d.put key value) := by
  rcases Document.put_cases d key value with ⟨hput, -⟩ | hput
  · rw [hput]
    exact ⟨hd, .refl _⟩
  have hother : ∀ key', key' ≠ key →
      (d.put key value).winner (.root key') = d.winner (.root key') := by
    intro key' hne
    exact hd.valid.winner_put_other key value (by simpa using hne)
  rw [hput] at hother ⊢
  rw [Document.putOp] at hother ⊢
  have hheld : Held d (.set (.root key) (.put value) (d.predecessors (.root key))) :=
    fun i hi => Document.held_of_mem_predecessors hi
  have hrange : ∀ obj, (d.append (.set (.root key) (.put value)
      (d.predecessors (.root key)))).listRange obj = d.listRange obj := by
    intro obj
    exact listRange_append_other hd hheld (fun after action => by simp) fun e htarget => by
      cases htarget
  have hself : (d.append (.set (.root key) (.put value) (d.predecessors (.root key)))).winner
      (.root key) = some (d.putOp key value) := by
    rw [Document.winner, Document.ops_append]
    exact hd.valid.winner_putOp key value
  refine ⟨hd.append hheld, hrange, ?_⟩
  have hkeys : (d.append (.set (.root key) (.put value)
      (d.predecessors (.root key)))).rootKeys = d.rootKeys := by
    refine rootKeys_congr fun key' => ?_
    by_cases hkey : key' = key
    · rw [hkey, hself, hwinner]
      rfl
    · rw [hother key' hkey]
  unfold indexMaps
  rw [hkeys]
  refine List.filterMap_congr fun key' _ => ?_
  by_cases hkey : key' = key
  · obtain ⟨v, hv⟩ := hscalar
    have hold : ¬o.action = .make .list := by simp [hv]
    have hnew : ¬(d.putOp key value).action = .make .list := by simp [Document.putOp, Op.action]
    rw [hkey, hself, hwinner]
    simp only [if_neg hold, if_neg hnew]
  · rw [hother key' hkey]
    simp only [hrange]

theorem root_of_localExid {c : LwwConflict} (hc : c ∈ captureLww localDoc incoming) :
    ∃ o ∈ localDoc.ops, o.id = c.localExid ∧ ∃ v, o.action = .put v := by
  have hc := mem_captureLww.mp hc
  unfold lwwConflictAt at hc
  split at hc
  · rename_i hentry
    split_ifs at hc
    obtain ⟨o, ho, hvalue⟩ := Option.bind_eq_some_iff.mp hentry
    obtain ⟨v, hv, hpair⟩ := Option.map_eq_some_iff.mp hvalue
    refine ⟨o, (mem_visibleAt.mp (winner_mem ho)).1, ?_, ?_⟩
    · have hid := congrArg LwwConflict.localExid (Option.some.inj hc)
      exact (congrArg Prod.fst hpair).trans hid
    · unfold Op.value? at hv
      split at hv
      · exact ⟨_, by assumption⟩
      · cases hv
  · cases hc

theorem lists_lwwReadBack (definitive : Bool) {s : Document × VerificationReport}
    (hd : Sound s.1) (hlocal : ∀ o ∈ localDoc.ops, o ∈ s.1.ops) {c : LwwConflict}
    (hc : c ∈ captureLww localDoc incoming) :
    Sound (lwwReadBack definitive s c).1 ∧ SameLists s.1 (lwwReadBack definitive s c).1 ∧
      ∀ o ∈ localDoc.ops, o ∈ (lwwReadBack definitive s c).1.ops := by
  by_cases h : Overrides definitive s.1 c
  · rw [lwwReadBack_of_overrides h]
    obtain ⟨o, ho, hid⟩ := Option.map_eq_some_iff.mp h.2.2
    obtain ⟨o', ho', hid', hscalar⟩ := root_of_localExid hc
    have hsame : o = o' := hd.valid.unique o (mem_visibleAt.mp (winner_mem ho)).1 o'
      (hlocal o' ho') (hid.trans hid'.symm)
    obtain ⟨hsound, hlists⟩ := sameLists_put hd c.incomingValue ho (by rwa [hsame])
    refine ⟨hsound, hlists, fun o ho => ?_⟩
    rcases Document.put_cases s.1 c.key c.incomingValue with ⟨hput, -⟩ | hput
    · rw [hput]
      exact hlocal o ho
    · rw [hput, Document.ops_append]
      exact List.mem_append_left _ (hlocal o ho)
  · rw [lwwReadBack_of_not_overrides h]
    exact ⟨hd, .refl _, hlocal⟩

theorem lists_lwwPass (definitive : Bool) {d : Document} (hd : Sound d)
    (hlocal : ∀ o ∈ localDoc.ops, o ∈ d.ops) :
    Sound (lwwPass d (captureLww localDoc incoming) definitive).1 ∧
      SameLists d (lwwPass d (captureLww localDoc incoming) definitive).1 := by
  have hfold : ∀ (cs : List LwwConflict) (s : Document × VerificationReport),
      (∀ c ∈ cs, c ∈ captureLww localDoc incoming) → Sound s.1 →
      (∀ o ∈ localDoc.ops, o ∈ s.1.ops) →
      Sound (cs.foldl (lwwReadBack definitive) s).1 ∧
        SameLists s.1 (cs.foldl (lwwReadBack definitive) s).1 := by
    intro cs
    induction cs with
    | nil => exact fun s _ hs _ => ⟨hs, .refl _⟩
    | cons c cs ih =>
      intro s hcs hs hlocal
      obtain ⟨hsound, hlists, hlocal⟩ :=
        lists_lwwReadBack definitive hs hlocal (hcs c List.mem_cons_self)
      obtain ⟨hsound', hlists'⟩ :=
        ih _ (fun c' hc' => hcs c' (List.mem_cons_of_mem c hc')) hsound hlocal
      exact ⟨hsound', hlists.trans hlists'⟩
  exact hfold _ (d, .default) (fun _ hc => hc) hd hlocal

end ScalarPass

section Pairs
variable {localDoc incoming merged : Document}

theorem inserted_of_listInserts {d : Document} {after : Option OpId} {id : OpId}
    {value : ScalarValue} (h : (after, id, value) ∈ listInserts d) :
    ∃ o ∈ d.ops, o.id = id ∧ o.action = .put value := by
  obtain ⟨o, ho, hentry⟩ := List.mem_filterMap.mp h
  refine ⟨o, ?_, ?_⟩
  · rw [← Document.ops_commit]
    exact List.mem_append_left _ ho
  · unfold Op.action
    split at hentry
    · rename_i hbody
      cases hentry
      rw [hbody]
      exact ⟨rfl, rfl⟩
    · cases hentry

theorem inserted_of_mem_captureRga {c : RgaConflict} (hc : c ∈ captureRga localDoc incoming) :
    (∃ o ∈ localDoc.ops, o.id = c.localElement ∧ o.action = .put c.localValue) ∧
      ∃ o ∈ incoming.ops, o.id = c.incomingElement ∧ o.action = .put c.incomingValue := by
  obtain ⟨l, hl, hc⟩ := List.mem_flatMap.mp hc
  obtain ⟨i, hi, hc⟩ := List.mem_filterMap.mp hc
  split_ifs at hc
  cases hc
  exact ⟨inserted_of_listInserts hl, inserted_of_listInserts hi⟩

theorem mem_ops_of_mem_listRange {d : Document} {obj : ObjId} {item : OpId × Op}
    (h : item ∈ d.listRange obj) : item.2 ∈ d.ops := by
  obtain ⟨e, -, hshown⟩ := List.mem_filterMap.mp h
  obtain ⟨o, ho, rfl⟩ := Option.map_eq_some_iff.mp hshown
  exact (mem_visibleAt.mp (winner_mem ho)).1

/-- The position that the map of a list gives holds the value of the operation. -/
theorem contents_of_idxOf (hd : Sound merged) {obj : ObjId} {o : Op} {value : ScalarValue}
    {index : ℕ} (ho : o ∈ merged.ops) (haction : o.action = .put value)
    (hindex : ((merged.listRange obj).map fun item => item.2.id).idxOf? o.id = some index) :
    (contents merged obj)[index]? = some (.scalar value) := by
  obtain ⟨hlt, hat, -⟩ := List.idxOf?_eq_some_iff.mp hindex
  rw [List.getElem_map] at hat
  rw [List.length_map] at hlt
  have hsame : (merged.listRange obj)[index].2 = o :=
    hd.valid.unique _ (mem_ops_of_mem_listRange (List.getElem_mem hlt)) o ho hat
  rw [contents, List.getElem?_map, List.getElem?_eq_getElem hlt, Option.map_some, hsame,
    contentOf, haction]

theorem contents_of_divergence (hmerge : localDoc.merge incoming = some merged)
    (hmerged : Sound merged) {definitive : Bool} {c : RgaConflict}
    (hc : c ∈ captureRga localDoc incoming) {obj : ObjId} {idxLocal idxIncoming : ℕ}
    (hfound : divergence definitive merged c = some (obj, idxLocal, idxIncoming)) :
    (contents merged obj)[idxLocal]? = some (.scalar c.localValue) ∧
      (contents merged obj)[idxIncoming]? = some (.scalar c.incomingValue) := by
  obtain ⟨⟨l, hl, hlid, hlaction⟩, i, hi, hiid, hiaction⟩ := inserted_of_mem_captureRga hc
  unfold divergence at hfound
  split_ifs at hfound
  obtain ⟨hfound, -⟩ := Option.filter_eq_some_iff.mp hfound
  obtain ⟨m, hm, hfound⟩ := List.exists_of_findSome?_eq_some hfound
  obtain ⟨key, -, hentry⟩ := List.mem_filterMap.mp hm
  split at hentry
  · split_ifs at hentry
    cases hentry
    split at hfound
    · rename_i hidxLocal hidxIncoming
      cases hfound
      have hmem : ∀ o, o ∈ localDoc.ops ∨ o ∈ incoming.ops → o ∈ merged.ops := by
        intro o ho
        exact (Document.merge_ops hmerge o).mpr (List.mem_append.mpr ho)
      dsimp only at hidxLocal hidxIncoming
      rw [← hlid] at hidxLocal
      rw [← hiid] at hidxIncoming
      exact ⟨contents_of_idxOf hmerged (hmem l (.inl hl)) hlaction hidxLocal,
        contents_of_idxOf hmerged (hmem i (.inr hi)) hiaction hidxIncoming⟩
    · cases hfound
  · cases hentry

end Pairs

section ListPass
variable {merged : Document} {definitive : Bool}

/-- What the overrides of some pairs leave of the lists: the positions that none has moved. -/
structure Kept (merged d : Document) (founds : List (ObjId × ℕ × ℕ)) : Prop where
  sound : Sound d
  perm : ∀ obj, (contents d obj).Perm (contents merged obj)
  still : ∀ obj index, (∀ found ∈ founds, found.1 = obj → ¬Moved found index) →
    (contents d obj)[index]? = (contents merged obj)[index]?

theorem rgaReadBack_of_none {s : Document × VerificationReport} {c : RgaConflict}
    (h : divergence definitive merged c = none) :
    (rgaReadBack definitive (indexMaps merged) s c).1 = s.1 := by
  unfold divergence at h
  unfold rgaReadBack
  cases hfound : findInOneList (indexMaps merged) c with
  | none => rfl
  | some found =>
    obtain ⟨obj, idxLocal, idxIncoming⟩ := found
    cases definitive with
    | false => rfl
    | true =>
      have hlt : idxIncoming < idxLocal := by
        rw [if_pos rfl, hfound, Option.filter_eq_none_iff] at h
        simpa using h _ rfl
      simp [hlt]

theorem rgaReadBack_of_some {s : Document × VerificationReport} {c : RgaConflict} {obj : ObjId}
    {idxLocal idxIncoming : ℕ}
    (h : divergence definitive merged c = some (obj, idxLocal, idxIncoming)) :
    (rgaReadBack definitive (indexMaps merged) s c).1 =
      (reorder s.1 obj (min idxLocal idxIncoming) (max idxLocal idxIncoming) c.incomingValue
        c.localValue).1 := by
  unfold divergence at h
  split_ifs at h with hdefinitive
  obtain ⟨hfound, hle⟩ := Option.filter_eq_some_iff.mp h
  have hnot : ¬idxIncoming < idxLocal := by simpa using hle
  unfold rgaReadBack
  rw [hfound, hdefinitive]
  simp only [Bool.not_true, Bool.false_eq_true, if_false, if_neg hnot]
  split <;> simp_all

/-- One override of a pair that still stands where it was found. -/
theorem Kept.step {s : Document × VerificationReport} {c : RgaConflict}
    {founds : List (ObjId × ℕ × ℕ)} (hkept : Kept merged s.1 founds) {obj : ObjId} {lo hi : ℕ}
    (hfound : divergence definitive merged c = some (obj, lo, hi))
    (hlo : (contents merged obj)[lo]? = some (.scalar c.localValue))
    (hhi : (contents merged obj)[hi]? = some (.scalar c.incomingValue)) (hlt : lo < hi)
    (hapart : ∀ found ∈ founds, found.1 = obj → ¬Moved found lo ∧ ¬Moved found hi) :
    Kept merged (rgaReadBack definitive (indexMaps merged) s c).1 (founds ++ [(obj, lo, hi)]) := by
  rw [← hkept.still obj lo fun found hf heq => (hapart found hf heq).1] at hlo
  rw [← hkept.still obj hi fun found hf heq => (hapart found hf heq).2] at hhi
  have hlength : hi < (contents s.1 obj).length := (List.getElem?_eq_some_iff.mp hhi).1
  obtain ⟨d', hreorder, hsound, hcontents, hother⟩ :=
    contents_reorder hkept.sound hlt hlength c.incomingValue c.localValue
  obtain ⟨hperm, hsame⟩ := reordered_spec hlt hlo hhi
  rw [rgaReadBack_of_some hfound, min_eq_left hlt.le, max_eq_right hlt.le, hreorder]
  refine ⟨hsound, fun obj' => ?_, fun obj' index hstill => ?_⟩
  · by_cases hobj : obj' = obj
    · rw [hobj, hcontents]
      exact hperm.trans (hkept.perm obj)
    · rw [hother obj' hobj]
      exact hkept.perm obj'
  · have hold := hkept.still obj' index fun found hf =>
      hstill found (List.mem_append_left _ hf)
    by_cases hobj : obj' = obj
    · have hnot : ¬Moved (obj, lo, hi) index :=
        hstill _ (List.mem_append_right _ List.mem_cons_self) hobj.symm
      have houtside : index < lo ∨ hi < index := by
        by_contra hin
        rw [not_or, not_lt, not_lt] at hin
        exact hnot hin
      rw [hobj] at hold ⊢
      rw [hcontents, hsame index houtside, hold]
    · rw [hother obj' hobj, hold]

/-- The whole pass: the pairs already overridden come before the ones still to come. -/
theorem Kept.foldl {cs : List RgaConflict}
    (hstand : ∀ c ∈ cs, ∀ obj idxLocal idxIncoming,
      divergence definitive merged c = some (obj, idxLocal, idxIncoming) →
        (contents merged obj)[idxLocal]? = some (.scalar c.localValue) ∧
          (contents merged obj)[idxIncoming]? = some (.scalar c.incomingValue))
    {s : Document × VerificationReport} {founds : List (ObjId × ℕ × ℕ)}
    (hkept : Kept merged s.1 founds)
    (hapart : Apart (founds ++ divergences definitive merged cs)) :
    Kept merged (cs.foldl (rgaReadBack definitive (indexMaps merged)) s).1
      (founds ++ divergences definitive merged cs) := by
  induction cs generalizing s founds with
  | nil =>
    rw [divergences, List.filterMap_nil, List.append_nil]
    exact hkept
  | cons c cs ih =>
    have hrest := fun c' hc' => hstand c' (List.mem_cons_of_mem c hc')
    rw [List.foldl_cons]
    cases hfound : divergence definitive merged c with
    | none =>
      have hskip : divergences definitive merged (c :: cs) = divergences definitive merged cs :=
        List.filterMap_cons_none hfound
      rw [hskip] at hapart ⊢
      refine ih hrest ?_ hapart
      rw [rgaReadBack_of_none hfound]
      exact hkept
    | some found =>
      obtain ⟨obj, lo, hi⟩ := found
      have hnext : divergences definitive merged (c :: cs) =
          (obj, lo, hi) :: divergences definitive merged cs := List.filterMap_cons_some hfound
      have hsplit : founds ++ divergences definitive merged (c :: cs) =
          (founds ++ [(obj, lo, hi)]) ++ divergences definitive merged cs := by
        rw [hnext, List.append_assoc]
        rfl
      obtain ⟨hlo, hhi⟩ := hstand c List.mem_cons_self obj lo hi hfound
      have hlt : lo < hi := hapart.1 (obj, lo, hi) <| by
        rw [hnext]
        exact List.mem_append_right _ List.mem_cons_self
      have hclear : ∀ found ∈ founds, found.1 = obj → ¬Moved found lo ∧ ¬Moved found hi := by
        intro found hf heq
        have hpairs := (List.pairwise_append.mp hapart.2).2.2 found hf (obj, lo, hi)
        rw [hnext] at hpairs
        exact hpairs List.mem_cons_self heq
      rw [hsplit] at hapart ⊢
      exact ih hrest (hkept.step hfound hlo hhi hlt hclear) hapart

end ListPass

/-- When every override is of two elements that no earlier override has moved, each list keeps
exactly what the plain merge put into it. -/
theorem verifyAndOverride_keeps_elements (localDoc incoming merged : Document)
    (hmerge : localDoc.merge incoming = some merged) (hmerged : Sound merged)
    (deltaLamport localLamport : UInt64)
    (hapart : Apart (divergences (decide (localLamport < deltaLamport)) merged
      (captureConflicts localDoc incoming).rga)) (obj : ObjId) :
    (contents (verifyAndOverride merged (captureConflicts localDoc incoming) deltaLamport
      localLamport).1 obj).Perm (contents merged obj) := by
  have hlocal : ∀ o ∈ localDoc.ops, o ∈ merged.ops := by
    intro o ho
    exact (Document.merge_ops hmerge o).mpr (List.mem_append_left _ ho)
  have hscalars : Sound (lwwPass merged (captureLww localDoc incoming)
      (decide (localLamport < deltaLamport))).1 ∧
        SameLists merged (lwwPass merged (captureLww localDoc incoming)
          (decide (localLamport < deltaLamport))).1 := lists_lwwPass _ hmerged hlocal
  obtain ⟨hsound, hlists⟩ := hscalars
  have hcontents : ∀ obj, contents (lwwPass merged (captureLww localDoc incoming)
      (decide (localLamport < deltaLamport))).1 obj = contents merged obj := by
    intro obj
    rw [contents, hlists.range obj, ← contents]
  have hkept : Kept merged (lwwPass merged (captureLww localDoc incoming)
      (decide (localLamport < deltaLamport))).1 [] :=
    ⟨hsound, fun obj => by rw [hcontents obj], fun obj index _ => by rw [hcontents obj]⟩
  have hpass := hkept.foldl (fun c hc obj idxLocal idxIncoming =>
    contents_of_divergence hmerge hmerged hc) hapart
  have hmaps := hlists.maps
  rw [← hmaps] at hpass
  exact hpass.perm obj

def listChange : Change := ⟨[0], 1, 1, [.set (.root "list") (.make .list) []]⟩

def concurrentLocal : Document :=
  ⟨[2], [listChange, ⟨[2], 1, 2, [.insert (some ⟨1, [0]⟩) none (.put (.str "local"))]⟩], []⟩

def concurrentIncoming : Document :=
  ⟨[1], [listChange, ⟨[1], 1, 2, [.insert (some ⟨1, [0]⟩) none (.put (.str "incoming"))]⟩], []⟩

def concurrentMerged : Document :=
  { concurrentLocal with
    changes := concurrentLocal.changes ++
      [⟨[1], 1, 2, [.insert (some ⟨1, [0]⟩) none (.put (.str "incoming"))]⟩] }

/-- Two concurrent insertions at the head are exchanged. -/
theorem concurrent_heads_exchanged :
    contents concurrentMerged (some ⟨1, [0]⟩) = [.scalar (.str "local"), .scalar (.str "incoming")] ∧
    contents (verifyAndOverride concurrentMerged
      (captureConflicts concurrentLocal concurrentIncoming) 2 1).1 (some ⟨1, [0]⟩) =
        [.scalar (.str "incoming"), .scalar (.str "local")] ∧
    (contents (verifyAndOverride concurrentMerged
      (captureConflicts concurrentLocal concurrentIncoming) 2 1).1 (some ⟨1, [0]⟩)).Perm
        (contents concurrentMerged (some ⟨1, [0]⟩)) :=
  ⟨by decide +kernel, by decide +kernel,
    verifyAndOverride_keeps_elements concurrentLocal concurrentIncoming concurrentMerged
      (by decide +kernel) ⟨by decide +kernel, by decide +kernel⟩ 2 1 (by decide +kernel)
      (some ⟨1, [0]⟩)⟩

def sharedList (actor : ActorId) : Document :=
  ⟨actor, [⟨[0], 1, 1, [.set (.root "list") (.make .list) [],
    .insert (some ⟨1, [0]⟩) none (.put (.str "first")),
    .insert (some ⟨1, [0]⟩) (some ⟨2, [0]⟩) (.put (.str "second"))]⟩], []⟩

/-- Each shared element is a pair with itself: the pass deletes by the same index twice, and the
list loses its second element. -/
theorem shared_element_lost :
    (sharedList [2]).merge (sharedList [1]) = some (sharedList [2]) ∧ Sound (sharedList [2]) ∧
    contents (sharedList [2]) (some ⟨1, [0]⟩) =
      [.scalar (.str "first"), .scalar (.str "second")] ∧
    contents (verifyAndOverride (sharedList [2])
      (captureConflicts (sharedList [2]) (sharedList [1])) 2 1).1 (some ⟨1, [0]⟩) =
        [.scalar (.str "first")] ∧
    ¬(contents (verifyAndOverride (sharedList [2])
      (captureConflicts (sharedList [2]) (sharedList [1])) 2 1).1 (some ⟨1, [0]⟩)).Perm
        (contents (sharedList [2]) (some ⟨1, [0]⟩)) :=
  ⟨by decide +kernel, ⟨by decide +kernel, by decide +kernel⟩, by decide +kernel,
    by decide +kernel, by decide +kernel⟩

end TirBase.ListOverrides
