import TirBase.MergeConvergence

/-! # Histories of written documents

A document that is only written to grows at its end. The changes of one actor are numbered in
order, and of two states of such a document the later one absorbs the earlier one in a merge. -/
namespace TirBase.DocumentHistories
open OperationRegisters Automerge MergeVerification CrdtEngine

/-- The changes of each actor come in the order of their numbers, and no number runs ahead. -/
structure Numbered (changes : List Change) : Prop where
  ordered : changes.Pairwise fun c later => c.actor = later.actor → c.seq < later.seq
  bounded : ∀ c ∈ changes, c.seq ≤ (changes.filter fun c' => c'.actor == c.actor).length

theorem numbered_nil : Numbered [] := ⟨List.Pairwise.nil, fun _ hc => absurd hc List.not_mem_nil⟩

theorem Numbered.unique {changes : List Change} (h : Numbered changes) {c c' : Change}
    (hc : c ∈ changes) (hc' : c' ∈ changes) (hactor : c.actor = c'.actor) (hseq : c.seq = c'.seq) :
    c = c' := by
  obtain ⟨i, hi, rfl⟩ := List.mem_iff_getElem.mp hc
  obtain ⟨j, hj, rfl⟩ := List.mem_iff_getElem.mp hc'
  have hordered := List.pairwise_iff_getElem.mp h.ordered
  rcases lt_trichotomy i j with hlt | rfl | hlt
  · have := hordered i j hi hj hlt hactor
    omega
  · rfl
  · have := hordered j i hj hi hlt hactor.symm
    omega

theorem Numbered.nodup {changes : List Change} (h : Numbered changes) : changes.Nodup := by
  refine h.ordered.imp fun {c c'} hlt heq => ?_
  have := hlt (by rw [heq])
  rw [heq] at this
  omega

theorem Numbered.append {changes : List Change} (h : Numbered changes) {c : Change}
    (hseq : c.seq = (changes.filter fun c' => c'.actor == c.actor).length + 1) :
    Numbered (changes ++ [c]) := by
  constructor
  · refine List.pairwise_append.mpr ⟨h.ordered, List.pairwise_singleton _ _, ?_⟩
    intro earlier hearlier last hlast hactor
    rw [List.mem_singleton.mp hlast] at hactor ⊢
    have hbound := h.bounded earlier hearlier
    rw [hactor] at hbound
    omega
  · intro c' hc'
    rw [List.filter_append, List.length_append]
    rcases List.mem_append.mp hc' with hearlier | hlast
    · have hbound := h.bounded c' hearlier
      omega
    · rw [List.mem_singleton.mp hlast, hseq]
      simp

theorem Numbered.commit {d : Document} (h : Numbered d.changes) : Numbered d.commit.changes := by
  by_cases hpending : d.pending = []
  · rwa [Document.commit, if_pos hpending]
  · rw [Document.commit, if_neg hpending]
    exact h.append rfl

theorem prefix_commit (d : Document) : d.changes <+: d.commit.changes := by
  by_cases hpending : d.pending = []
  · rw [Document.commit, if_pos hpending]
  · rw [Document.commit, if_neg hpending]
    exact List.prefix_append _ _

/-- The operation sets a key or an element. -/
def IsSet : OpBody → Prop
  | .set _ _ _ => True
  | .insert _ _ _ => False

/-- Nothing was ever inserted into a list of the document. -/
structure Written (d : Document) : Prop where
  numbered : Numbered d.changes
  changes : ∀ c ∈ d.changes, ∀ b ∈ c.body, IsSet b
  pending : ∀ b ∈ d.pending, IsSet b

theorem written_empty (actor : ActorId) : Written (.empty actor) :=
  ⟨numbered_nil, fun _ hc => absurd hc List.not_mem_nil, fun _ hb => absurd hb List.not_mem_nil⟩

section Written
variable {d d' : Document}

theorem put_eq (d : Document) (key : String) (value : ScalarValue) :
    d.put key value = d ∨
      ∃ pred, d.put key value = d.append (.set (.root key) (.put value) pred) :=
  (Document.put_cases d key value).imp And.left fun hput => ⟨_, hput⟩

@[simp] theorem changes_put (d : Document) (key : String) (value : ScalarValue) :
    (d.put key value).changes = d.changes := by
  rcases put_eq d key value with hput | ⟨pred, hput⟩ <;> rw [hput]
  rfl

theorem Written.put (hd : Written d) (key : String) (value : ScalarValue) :
    Written (d.put key value) := by
  rcases put_eq d key value with hput | ⟨pred, hput⟩
  · rw [hput]
    exact hd
  · rw [hput]
    refine ⟨hd.numbered, hd.changes, fun b hb => ?_⟩
    rcases List.mem_append.mp hb with hold | hnew
    · exact hd.pending b hold
    · rw [List.mem_singleton.mp hnew]
      trivial

theorem Written.commit (hd : Written d) : Written d.commit := by
  refine ⟨hd.numbered.commit, fun c hc => ?_, fun b hb => ?_⟩
  · by_cases hpending : d.pending = []
    · rw [Document.commit, if_pos hpending] at hc
      exact hd.changes c hc
    · rw [Document.commit, if_neg hpending] at hc
      rcases List.mem_append.mp hc with hold | hnew
      · exact hd.changes c hold
      · rw [List.mem_singleton.mp hnew]
        exact hd.pending
  · rw [Document.pending_commit] at hb
    exact absurd hb List.not_mem_nil

theorem listInserts_of_sets (hd : ∀ o ∈ d.ops, IsSet o.body) : listInserts d = [] := by
  unfold listInserts
  rw [← Document.ops_of_pending (Document.pending_commit d), Document.ops_commit,
    List.filterMap_eq_nil_iff]
  intro o ho
  have hset := hd o ho
  revert hset
  cases o.body with
  | set target action pred => exact fun _ => rfl
  | insert obj after action => exact False.elim

theorem Written.listInserts_eq_nil (hd : Written d) : listInserts d = [] := by
  have hop : ∀ (actor : ActorId) (start : ℕ) (bs : List OpBody), (∀ b ∈ bs, IsSet b) →
      ∀ o ∈ numberOps actor start bs, IsSet o.body := by
    intro actor start bs
    induction bs generalizing start with
    | nil => exact fun _ o ho => absurd ho List.not_mem_nil
    | cons b bs ih =>
      intro hbs o ho
      rcases List.mem_cons.mp ho with rfl | ho
      · exact hbs b List.mem_cons_self
      · exact ih (start + 1) (fun b' hb' => hbs b' (List.mem_cons_of_mem b hb')) o ho
  refine listInserts_of_sets fun o ho => ?_
  rw [← Document.ops_commit, Document.ops_of_pending (Document.pending_commit d)] at ho
  obtain ⟨c, hc, hoc⟩ := List.mem_flatMap.mp ho
  exact hop c.actor c.startOp c.body (hd.commit.changes c hc) o hoc

end Written

section Merge
variable {d incoming : Document}

/-- Where no list is merged and no scalar overridden the engine holds the plain merge. -/
theorem mergeIncoming_of_listless {merged : Document} {deltaLamport localLamport : UInt64}
    (hlists : listInserts incoming = []) (hmerge : d.merge incoming = some merged)
    (hlww : localLamport < deltaLamport → ∀ c ∈ captureLww d incoming, ¬Overrides true merged c) :
    mergeIncoming d incoming deltaLamport localLamport = some merged := by
  have hrga : captureRga d incoming = [] := by
    simp [captureRga, hlists]
  simp only [mergeIncoming, hmerge, Option.map_some, Option.some.injEq]
  split_ifs
  · by_cases hlt : localLamport < deltaLamport
    · simp only [verifyAndOverride, captureConflicts, hrga, List.foldl_nil, decide_eq_true hlt]
      exact lwwPass_of_not_overrides (hlww hlt)
    · exact verifyAndOverride_indeterminate _ _ hlt
  · rfl

theorem ops_of_changes (hd : d.pending = []) (hincoming : incoming.pending = [])
    (h : d.changes = incoming.changes) : d.ops = incoming.ops := by
  simp only [Document.ops, Document.pendingOps, hd, hincoming, h, numberOps]

/-- A document merges with a later state of its history. -/
theorem merge_of_extension (hd : d.pending = []) (hincoming : incoming.pending = [])
    (hnumbered : Numbered incoming.changes) (hgrows : d.changes <+: incoming.changes) :
    d.merge incoming = some { d with changes := incoming.changes } := by
  obtain ⟨later, hlater⟩ := hgrows
  have hdisjoint := (List.nodup_append.mp (hlater ▸ hnumbered.nodup)).2.2
  have hadded : incoming.changes.filter (fun c => !d.changes.contains c) = later := by
    rw [← hlater, List.filter_append]
    have hold : d.changes.filter (fun c => !d.changes.contains c) = [] := by
      rw [List.filter_eq_nil_iff]
      intro c hc
      simp [hc]
    have hnew : later.filter (fun c => !d.changes.contains c) = later := by
      rw [List.filter_eq_self]
      intro c hc
      have hnot : c ∉ d.changes := fun hmem => hdisjoint c hmem c hc rfl
      simp [hnot]
    rw [hold, hnew, List.nil_append]
  have hduplicate : later.any (d.duplicateSeq ·) = false := by
    rw [List.any_eq_false]
    intro c hc
    simp only [Document.duplicateSeq, List.any_eq_true, not_exists, not_and]
    intro c' hc' hsame
    simp only [Bool.and_eq_true, beq_iff_eq, bne_iff_ne, ne_eq] at hsame
    have hmem : c ∈ incoming.changes := hlater ▸ List.mem_append_right _ hc
    have hmem' : c' ∈ incoming.changes := hlater ▸ List.mem_append_left _ hc'
    exact hsame.2 (hnumbered.unique hmem' hmem hsame.1.1 hsame.1.2)
  simp only [Document.merge, Document.commit_of_committed hd,
    Document.commit_of_committed hincoming, hadded,
    hduplicate, hlater]
  rfl

/-- Behind a merge with a later state the later state's winners stand, and nothing is overridden. -/
theorem mergeIncoming_of_prefix (hd : d.pending = []) (hincoming : incoming.pending = [])
    (hwritten : Written incoming) (hgrows : d.changes <+: incoming.changes)
    (deltaLamport localLamport : UInt64) :
    mergeIncoming d incoming deltaLamport localLamport =
      some { d with changes := incoming.changes } := by
  have hops : ({ d with changes := incoming.changes } : Document).ops = incoming.ops :=
    ops_of_changes hd hincoming rfl
  refine mergeIncoming_of_listless hwritten.listInserts_eq_nil
    (merge_of_extension hd hincoming hwritten.numbered hgrows) fun _ => ?_
  · rintro c hc ⟨-, hne, hwinner⟩
    have hconflict := mem_captureLww.mp hc
    unfold lwwConflictAt at hconflict
    split at hconflict
    · rename_i incomingExid incomingValue localExid localValue hentry hlocal
      split_ifs at hconflict
      have hid : incomingExid = c.incomingExid := by rw [← Option.some.inj hconflict]
      obtain ⟨o, ho, hvalue⟩ := Option.bind_eq_some_iff.mp hentry
      obtain ⟨v, -, hpair⟩ := Option.map_eq_some_iff.mp hvalue
      have hsame : Document.winner { d with changes := incoming.changes } (.root c.key) =
          incoming.winner (.root c.key) := by
        rw [Document.winner, Document.winner, hops]
      rw [hsame, ho, Option.map_some, Option.some.injEq] at hwinner
      exact hne (hwinner.symm.trans ((Prod.mk.inj hpair).1.trans hid))
    · cases hconflict

end Merge

end TirBase.DocumentHistories
