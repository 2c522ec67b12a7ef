import TirBase.DocumentHistories

/-! # How a document grows

Closing the open transaction makes one change under the next number of the actor. A merge closes it
and adds changes of the other document; what the verification appends stays open. -/
namespace TirBase.DocumentGrowth
open Automerge CrdtEngine DocumentHistories MergeVerification OperationRegisters

def closing (d : Document) : List Change :=
  if d.pending = [] then [] else [⟨d.actor, d.nextSeq, d.startOp, d.pending⟩]

/-- An operation among these puts the value under the `ROOT` key. -/
def Puts (ops : List Op) (key : String) (value : ScalarValue) : Prop :=
  ∃ o ∈ ops, o.target = .root key ∧ o.action = .put value

theorem changes_commit (d : Document) : d.commit.changes = d.changes ++ closing d := by
  by_cases hpending : d.pending = []
  · rw [Document.commit_of_committed hpending, closing, if_pos hpending, List.append_nil]
  · rw [Document.commit, if_neg hpending, closing, if_neg hpending]

theorem Puts.mono {ops ops' : List Op} {key : String} {value : ScalarValue}
    (h : Puts ops key value) (hsub : ∀ o ∈ ops, o ∈ ops') : Puts ops' key value := by
  obtain ⟨o, ho, htarget, haction⟩ := h
  exact ⟨o, hsub o ho, htarget, haction⟩

theorem Puts.of_changes {changes changes' : List Change} {key : String} {value : ScalarValue}
    (h : Puts (changes.flatMap Change.ops) key value) (hsub : changes ⊆ changes') :
    Puts (changes'.flatMap Change.ops) key value := by
  refine h.mono fun o ho => ?_
  obtain ⟨c, hc, hop⟩ := List.mem_flatMap.mp ho
  exact List.mem_flatMap.mpr ⟨c, hsub hc, hop⟩

/-- At most one change, new and under the next number of its actor. -/
structure Made (changes made : List Change) : Prop where
  single : ∀ c ∈ made, ∀ c' ∈ made, c = c'
  nodup : made.Nodup
  fresh : ∀ c ∈ made, c ∉ changes
  seq : ∀ c ∈ made, c.seq = (changes.filter fun c' => c'.actor == c.actor).length + 1

theorem made_nil (changes : List Change) : Made changes [] :=
  ⟨fun _ hc => absurd hc List.not_mem_nil, List.nodup_nil, fun _ hc => absurd hc List.not_mem_nil,
    fun _ hc => absurd hc List.not_mem_nil⟩

theorem made_closing {d d' : Document} (h : d'.changes = d.changes) :
    Made d.changes (closing d') := by
  by_cases hpending : d'.pending = []
  · rw [closing, if_pos hpending]
    exact made_nil _
  · rw [closing, if_neg hpending]
    refine ⟨?_, List.nodup_singleton _, fun c hc hmem => ?_, fun c hc => ?_⟩
    · intro c hc c' hc'
      rw [List.mem_singleton.mp hc, List.mem_singleton.mp hc']
    · rw [List.mem_singleton.mp hc, ← h] at hmem
      have hmax := Document.le_maxOp hmem
      have hlength := List.length_pos_iff.mpr hpending
      simp only [Change.maxOp, Document.startOp] at hmax
      omega
    · rw [List.mem_singleton.mp hc, Document.nextSeq, h]

def OnElement : OpBody → Prop
  | .set (.element _ _) _ _ => True
  | .insert _ _ _ => True
  | _ => False

def Overriding (snapshot : ConflictSnapshot) (b : OpBody) : Prop :=
  OnElement b ∨ ∃ c ∈ snapshot.lww, ∃ pred, b = .set (.root c.key) (.put c.incomingValue) pred

structure Appends (allowed : OpBody → Prop) (d d' : Document) : Prop where
  changes : d'.changes = d.changes
  ops : ∀ o ∈ d'.ops, o ∈ d.ops ∨ allowed o.body

section Appends
variable {allowed : OpBody → Prop} {d d' d'' : Document}

theorem Appends.refl (allowed : OpBody → Prop) (d : Document) : Appends allowed d d :=
  ⟨rfl, fun _ ho => .inl ho⟩

theorem Appends.trans (h : Appends allowed d d') (h' : Appends allowed d' d'') :
    Appends allowed d d'' := by
  refine ⟨h'.changes.trans h.changes, fun o ho => ?_⟩
  rcases h'.ops o ho with hold | hnew
  · exact h.ops o hold
  · exact .inr hnew

theorem appends_append {b : OpBody} (hb : allowed b) : Appends allowed d (d.append b) := by
  refine ⟨rfl, fun o ho => ?_⟩
  rw [Document.ops_append] at ho
  rcases List.mem_append.mp ho with hold | hnew
  · exact .inl hold
  · rw [List.mem_singleton.mp hnew]
    exact .inr hb

theorem appends_deleteAt (hallowed : ∀ b, OnElement b → allowed b) {obj : ObjId} {index : ℕ}
    (h : d.deleteAt obj index = some d') : Appends allowed d d' := by
  obtain ⟨item, -, rfl⟩ := Option.map_eq_some_iff.mp h
  exact appends_append (hallowed _ trivial)

theorem appends_insertAt (hallowed : ∀ b, OnElement b → allowed b) {obj : ObjId} {index : ℕ}
    {value : ScalarValue} (h : d.insertAt obj index value = some d') : Appends allowed d d' := by
  simp only [Document.insertAt] at h
  split_ifs at h
  · cases h
    exact appends_append (hallowed _ trivial)
  · obtain ⟨item, -, rfl⟩ := Option.map_eq_some_iff.mp h
    exact appends_append (hallowed _ trivial)

theorem alongEdits_appends (hallowed : ∀ b, OnElement b → allowed b) :
    AlongEdits (Appends allowed) where
  refl := .refl allowed
  trans := .trans
  deleteAt := appends_deleteAt hallowed
  insertAt := appends_insertAt hallowed

theorem appends_put {key : String} {value : ScalarValue}
    (hallowed : ∀ pred, allowed (.set (.root key) (.put value) pred)) :
    Appends allowed d (d.put key value) := by
  rcases put_eq d key value with hput | ⟨pred, hput⟩ <;> rw [hput]
  · exact .refl _ _
  · exact appends_append (hallowed pred)

theorem appends_verifyAndOverride (doc : Document) (snapshot : ConflictSnapshot)
    (deltaLamport localLamport : UInt64) : Appends (Overriding snapshot) doc
      (verifyAndOverride doc snapshot deltaLamport localLamport).1 := by
  have hscalar : ∀ definitive, ∀ c ∈ snapshot.lww, ∀ s,
      Appends (Overriding snapshot) s.1 (lwwReadBack definitive s c).1 := by
    intro definitive c hc s
    by_cases hoverrides : Overrides definitive s.1 c
    · rw [lwwReadBack_of_overrides hoverrides]
      exact appends_put fun pred => .inr ⟨c, hc, pred, rfl⟩
    · rw [lwwReadBack_of_not_overrides hoverrides]
      exact .refl _ _
  have hedits : AlongEdits (Appends (Overriding snapshot)) :=
    alongEdits_appends fun _ hb => .inl hb
  exact (hedits.foldl (hscalar _) (doc, .default)).trans
    (hedits.foldl (fun c _ s => hedits.rgaReadBack _ _ s c) _)

end Appends

/-- The value that a conflict overrides with is put by the incoming document. -/
theorem puts_incoming {d incoming : Document} {c : LwwConflict}
    (hc : c ∈ captureLww d incoming) : Puts incoming.ops c.key c.incomingValue := by
  have hconflict := mem_captureLww.mp hc
  unfold lwwConflictAt at hconflict
  split at hconflict
  · rename_i incomingExid incomingValue localExid localValue hentry hlocal
    split_ifs at hconflict
    have hvalue : incomingValue = c.incomingValue := by rw [← Option.some.inj hconflict]
    obtain ⟨o, ho, hput⟩ := Option.bind_eq_some_iff.mp hentry
    obtain ⟨v, hv, hpair⟩ := Option.map_eq_some_iff.mp hput
    obtain ⟨hmem, hreg, -⟩ := mem_visibleAt.mp (winner_mem ho)
    refine ⟨o, hmem, hreg, ?_⟩
    rw [← hvalue, ← (Prod.mk.inj hpair).2]
    unfold Op.value? at hv
    split at hv
    · rename_i value haction
      rw [haction, Option.some.inj hv]
    · cases hv
  · cases hconflict

theorem puts_of_rootScalar {d : Document} {key : String} {value : ScalarValue}
    (h : d.rootScalar key = some value) : Puts d.ops key value := by
  obtain ⟨o, ho, hvalue⟩ := Option.bind_eq_some_iff.mp h
  obtain ⟨hmem, hreg, -⟩ := mem_visibleAt.mp (winner_mem ho)
  refine ⟨o, hmem, hreg, ?_⟩
  unfold Op.value? at hvalue
  split at hvalue
  · rename_i v haction
    rw [haction, Option.some.inj hvalue]
  · cases hvalue

/-- The document has grown by what the device made and by changes from elsewhere. -/
structure Grows (d d' : Document) (made others : List Change) : Prop where
  changes : ∃ added, d'.changes = d.changes ++ made ++ added ∧ added.Sublist others ∧
    ∀ c ∈ added, c ∉ d.changes ++ made

theorem merge_grows {d incoming merged : Document} (hincoming : incoming.pending = [])
    (h : d.merge incoming = some merged) : Grows d merged (closing d) incoming.changes ∧
      (∀ c ∈ incoming.changes, c ∈ merged.changes) ∧ merged.pending = [] := by
  simp only [Document.merge, Document.commit_of_committed hincoming] at h
  split_ifs at h
  cases h
  rw [changes_commit]
  refine ⟨⟨_, rfl, List.filter_sublist, fun c hc => ?_⟩, fun c hc => ?_, ?_⟩
  · simpa using (List.mem_filter.mp hc).2
  · by_cases hold : c ∈ d.changes ++ closing d
    · exact List.mem_append_left _ hold
    · exact List.mem_append_right _ (List.mem_filter.mpr ⟨hc, by simpa using hold⟩)
  · exact Document.pending_commit d

/-- A merge adds changes of the incoming document, and what it leaves showing is put by a change. -/
theorem mergeIncoming_grows {d incoming merged : Document} (hincoming : incoming.pending = [])
    {deltaLamport localLamport : UInt64}
    (h : mergeIncoming d incoming deltaLamport localLamport = some merged) :
    Grows d merged (closing d) incoming.changes ∧
      ∀ key value, merged.rootScalar key = some value →
        Puts (merged.changes.flatMap Change.ops) key value := by
  obtain ⟨plain, hplain, hmerged⟩ := Option.map_eq_some_iff.mp h
  obtain ⟨hgrows, hcovers, hpending⟩ := merge_grows hincoming hplain
  have happends : Appends (Overriding (captureConflicts d incoming)) plain merged := by
    rw [← hmerged]
    split_ifs
    · exact appends_verifyAndOverride _ _ _ _
    · exact .refl _ _
  refine ⟨⟨?_⟩, fun key value hshown => ?_⟩
  · rw [happends.changes]
    exact hgrows.changes
  · obtain ⟨o, ho, htarget, haction⟩ := puts_of_rootScalar hshown
    rw [happends.changes]
    rcases happends.ops o ho with hold | helement | ⟨c, hc, pred, hbody⟩
    · rw [Document.ops_of_pending hpending] at hold
      exact ⟨o, hold, htarget, haction⟩
    · unfold Op.target at htarget
      split at htarget
      · rename_i target action pred hbody
        rw [hbody, htarget] at helement
        exact helement.elim
      · cases htarget
    · rw [Op.target, hbody] at htarget
      rw [Op.action, hbody] at haction
      have hkey : c.key = key := by simpa using htarget
      have hvalue : c.incomingValue = value := by simpa using haction
      have hput := puts_incoming hc
      rw [hkey, hvalue, Document.ops_of_pending hincoming] at hput
      refine hput.mono fun o ho => ?_
      obtain ⟨change, hchange, hop⟩ := List.mem_flatMap.mp ho
      exact List.mem_flatMap.mpr ⟨change, hcovers change hchange, hop⟩

end TirBase.DocumentGrowth
