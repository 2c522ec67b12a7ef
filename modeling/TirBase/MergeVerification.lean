import TirBase.AutomergeDocument

/-! # Post-merge read-back verification

Before a merge the conflicting `ROOT` scalars and the list insertions at one position are
recorded; after it the actual winners are compared with the Lamport rule. When the incoming
Lamport value exceeds the local clock a divergence is overridden by a new local operation. -/
namespace TirBase.MergeVerification
open OperationRegisters Automerge

structure VerificationReport where
  lwwChecked : ℕ
  rgaChecked : ℕ
  divergences : ℕ
  overridesApplied : ℕ
  overridesFailed : ℕ
  indeterminate : ℕ
  deriving DecidableEq

def VerificationReport.default : VerificationReport := ⟨0, 0, 0, 0, 0, 0⟩

/-- A `ROOT` scalar key at which the two documents show different operations. -/
structure LwwConflict where
  key : String
  incomingExid : OpId
  incomingValue : ScalarValue
  localExid : OpId
  localValue : ScalarValue
  deriving DecidableEq

/-- An insertion of either side after the same element. -/
structure RgaConflict where
  localElement : OpId
  incomingElement : OpId
  localValue : ScalarValue
  incomingValue : ScalarValue
  deriving DecidableEq

structure ConflictSnapshot where
  lww : List LwwConflict
  rga : List RgaConflict
  deriving DecidableEq

/-- The entry of a `ROOT` scalar key: the operation it shows and its value. -/
def rootScalarEntry (d : Document) (key : String) : Option (OpId × ScalarValue) :=
  (d.winner (.root key)).bind fun o => o.value?.map fun v => (o.id, v)

def lwwConflictAt (localDoc incoming : Document) (key : String) : Option LwwConflict :=
  match rootScalarEntry incoming key, rootScalarEntry localDoc key with
  | some (incomingExid, incomingValue), some (localExid, localValue) =>
    if localExid = incomingExid then none
    else some ⟨key, incomingExid, incomingValue, localExid, localValue⟩
  | _, _ => none

def captureLww (localDoc incoming : Document) : List LwwConflict :=
  incoming.rootKeys.filterMap (lwwConflictAt localDoc incoming)

/-- The scalar insertions of the history, each with the element it follows. -/
def listInserts (d : Document) : List (Option OpId × OpId × ScalarValue) :=
  (d.commit.changes.flatMap Change.ops).filterMap fun o =>
    match o.body with
    | .insert _ after (.put value) => some (after, o.id, value)
    | _ => none

def captureRga (localDoc incoming : Document) : List RgaConflict :=
  (listInserts localDoc).flatMap fun l =>
    (listInserts incoming).filterMap fun i =>
      if l.1 = i.1 then some ⟨l.2.1, i.2.1, l.2.2, i.2.2⟩ else none

def captureConflicts (localDoc incoming : Document) : ConflictSnapshot :=
  ⟨captureLww localDoc incoming, captureRga localDoc incoming⟩

/-- Read one conflicting key back and override it when the rule says that the incoming
operation wins and the merge kept the local one. The `put` on `ROOT` does not fail. -/
def lwwReadBack (definitive : Bool) (s : Document × VerificationReport) (c : LwwConflict) :
    Document × VerificationReport :=
  match s.1.winner (.root c.key) with
  | none => s
  | some actual =>
    let report := { s.2 with lwwChecked := s.2.lwwChecked + 1 }
    if !definitive then (s.1, { report with indeterminate := report.indeterminate + 1 })
    else if actual.id = c.incomingExid then (s.1, report)
    else if actual.id ≠ c.localExid then
      (s.1, { report with indeterminate := report.indeterminate + 1 })
    else
      let report := { report with divergences := report.divergences + 1 }
      (s.1.put c.key c.incomingValue,
        { report with overridesApplied := report.overridesApplied + 1 })

/-- The lists at `ROOT` with the operations their positions show. -/
def indexMaps (d : Document) : List (ObjId × List OpId) :=
  d.rootKeys.filterMap fun key =>
    match d.winner (.root key) with
    | some o =>
      if o.action = .make .list then
        some (some o.id, (d.listRange (some o.id)).map fun item => item.2.id)
      else none
    | none => none

/-- Delete both elements, the later one first, and insert them again in rule order. The first
failing step ends it, with the steps before it done. -/
def reorder (d : Document) (obj : ObjId) (lo hi : ℕ) (incomingValue localValue : ScalarValue) :
    Document × Bool :=
  match d.deleteAt obj hi with
  | none => (d, false)
  | some d₁ =>
    match d₁.deleteAt obj lo with
    | none => (d₁, false)
    | some d₂ =>
      match d₂.insertAt obj lo incomingValue with
      | none => (d₂, false)
      | some d₃ =>
        match d₃.insertAt obj (lo + 1) localValue with
        | none => (d₃, false)
        | some d₄ => (d₄, true)

def findInOneList (maps : List (ObjId × List OpId)) (c : RgaConflict) : Option (ObjId × ℕ × ℕ) :=
  maps.findSome? fun m =>
    match m.2.idxOf? c.localElement, m.2.idxOf? c.incomingElement with
    | some idxLocal, some idxIncoming => some (m.1, idxLocal, idxIncoming)
    | _, _ => none

def rgaReadBack (definitive : Bool) (maps : List (ObjId × List OpId))
    (s : Document × VerificationReport) (c : RgaConflict) : Document × VerificationReport :=
  match findInOneList maps c with
  | none => s
  | some (obj, idxLocal, idxIncoming) =>
    let report := { s.2 with rgaChecked := s.2.rgaChecked + 1 }
    if !definitive then (s.1, { report with indeterminate := report.indeterminate + 1 })
    else if idxIncoming < idxLocal then (s.1, report)
    else
      let report := { report with divergences := report.divergences + 1 }
      match reorder s.1 obj (min idxLocal idxIncoming) (max idxLocal idxIncoming)
        c.incomingValue c.localValue with
      | (doc, true) => (doc, { report with overridesApplied := report.overridesApplied + 1 })
      | (doc, false) => (doc, { report with overridesFailed := report.overridesFailed + 1 })

def lwwPass (doc : Document) (lww : List LwwConflict) (definitive : Bool) :
    Document × VerificationReport :=
  lww.foldl (lwwReadBack definitive) (doc, .default)

def verifyAndOverride (doc : Document) (snapshot : ConflictSnapshot)
    (deltaLamport localLamport : UInt64) : Document × VerificationReport :=
  let definitive := decide (localLamport < deltaLamport)
  let lww := lwwPass doc snapshot.lww definitive
  snapshot.rga.foldl (rgaReadBack definitive (indexMaps lww.1)) lww

/-- The conflict is overridden: the zone is definitive and the document shows the local
operation. -/
def Overrides (definitive : Bool) (d : Document) (c : LwwConflict) : Prop :=
  definitive = true ∧ c.localExid ≠ c.incomingExid ∧
    (d.winner (.root c.key)).map Op.id = some c.localExid

instance (definitive : Bool) (d : Document) (c : LwwConflict) :
    Decidable (Overrides definitive d c) := by
  unfold Overrides
  infer_instance

theorem lwwReadBack_of_not_overrides {definitive : Bool} {s : Document × VerificationReport}
    {c : LwwConflict} (h : ¬ Overrides definitive s.1 c) :
    (lwwReadBack definitive s c).1 = s.1 := by
  unfold lwwReadBack
  cases hw : s.1.winner (.root c.key) with
  | none => rfl
  | some actual =>
    simp only
    split_ifs with hzone hincoming hlocal
    · rfl
    · rfl
    · rfl
    · refine absurd ⟨by simpa using hzone, ?_, ?_⟩ h
      · exact fun he => hincoming ((not_not.mp hlocal).trans he)
      · simpa [hw] using hlocal

theorem lwwReadBack_of_overrides {definitive : Bool} {s : Document × VerificationReport}
    {c : LwwConflict} (h : Overrides definitive s.1 c) :
    (lwwReadBack definitive s c).1 = s.1.put c.key c.incomingValue := by
  obtain ⟨rfl, hne, hwinner⟩ := h
  obtain ⟨actual, hw, hid⟩ := Option.map_eq_some_iff.mp hwinner
  simp [lwwReadBack, hw, hid, hne]

theorem valid_lwwReadBack (definitive : Bool) {s : Document × VerificationReport}
    (hs : s.1.Valid) (c : LwwConflict) : (lwwReadBack definitive s c).1.Valid := by
  by_cases h : Overrides definitive s.1 c
  · rw [lwwReadBack_of_overrides h]
    exact hs.put _ _
  · rw [lwwReadBack_of_not_overrides h]
    exact hs

theorem lwwReadBack_winner_other (definitive : Bool) {s : Document × VerificationReport}
    (hs : s.1.Valid) {c : LwwConflict} {key : String} (hkey : key ≠ c.key) :
    (lwwReadBack definitive s c).1.winner (.root key) = s.1.winner (.root key) := by
  by_cases h : Overrides definitive s.1 c
  · rw [lwwReadBack_of_overrides h]
    exact hs.winner_put_other _ _ (by simpa using hkey)
  · rw [lwwReadBack_of_not_overrides h]

theorem valid_foldl_lwwReadBack {definitive : Bool} {s : Document × VerificationReport}
    (hs : s.1.Valid) (cs : List LwwConflict) :
    (cs.foldl (lwwReadBack definitive) s).1.Valid := by
  induction cs generalizing s with
  | nil => exact hs
  | cons c cs ih => exact ih (valid_lwwReadBack definitive hs c)

theorem valid_lwwPass {doc : Document} (hdoc : doc.Valid) (lww : List LwwConflict)
    (definitive : Bool) : (lwwPass doc lww definitive).1.Valid :=
  valid_foldl_lwwReadBack hdoc lww

private theorem foldl_lwwReadBack_winner_other (definitive : Bool)
    {s : Document × VerificationReport} (hs : s.1.Valid) {cs : List LwwConflict} {key : String}
    (hkey : key ∉ cs.map LwwConflict.key) :
    (cs.foldl (lwwReadBack definitive) s).1.winner (.root key) = s.1.winner (.root key) := by
  induction cs generalizing s with
  | nil => rfl
  | cons c cs ih =>
    simp only [List.map_cons, List.mem_cons, not_or] at hkey
    rw [List.foldl_cons, ih (valid_lwwReadBack definitive hs c) hkey.2,
      lwwReadBack_winner_other definitive hs hkey.1]

theorem lwwPass_winner_other {doc : Document} (hdoc : doc.Valid) {lww : List LwwConflict}
    {definitive : Bool} {key : String} (hkey : key ∉ lww.map LwwConflict.key) :
    (lwwPass doc lww definitive).1.winner (.root key) = doc.winner (.root key) :=
  foldl_lwwReadBack_winner_other definitive hdoc hkey

private theorem overrides_congr {definitive : Bool} {d d' : Document} {c : LwwConflict}
    (h : d.winner (.root c.key) = d'.winner (.root c.key)) :
    Overrides definitive d c ↔ Overrides definitive d' c := by
  simp [Overrides, h]

private theorem foldl_lwwReadBack_rootScalar {definitive : Bool}
    {s : Document × VerificationReport} (hs : s.1.Valid) {cs : List LwwConflict}
    (hnodup : (cs.map LwwConflict.key).Nodup) {c : LwwConflict} (hc : c ∈ cs) :
    (cs.foldl (lwwReadBack definitive) s).1.rootScalar c.key =
      if Overrides definitive s.1 c then some c.incomingValue else s.1.rootScalar c.key := by
  induction cs generalizing s with
  | nil => simp at hc
  | cons c' cs ih =>
    simp only [List.map_cons, List.nodup_cons] at hnodup
    have hvalid := valid_lwwReadBack definitive hs c'
    rw [List.foldl_cons]
    rcases List.mem_cons.mp hc with rfl | hc
    · have hrest := foldl_lwwReadBack_winner_other definitive hvalid hnodup.1
      rw [Document.rootScalar, hrest, ← Document.rootScalar]
      split_ifs with h
      · rw [lwwReadBack_of_overrides h]
        exact hs.rootScalar_put_self _ _
      · rw [lwwReadBack_of_not_overrides h]
    · have hne : c.key ≠ c'.key := fun he => hnodup.1 (he ▸ List.mem_map_of_mem hc)
      have hsame := lwwReadBack_winner_other definitive hs hne
      rw [ih hvalid hnodup.2 hc]
      simp only [overrides_congr hsame, Document.rootScalar, hsame]

theorem lwwPass_rootScalar (definitive : Bool) {doc : Document} (hdoc : doc.Valid)
    {lww : List LwwConflict} (hnodup : (lww.map LwwConflict.key).Nodup) {c : LwwConflict}
    (hc : c ∈ lww) : (lwwPass doc lww definitive).1.rootScalar c.key =
      if Overrides definitive doc c then some c.incomingValue else doc.rootScalar c.key :=
  foldl_lwwReadBack_rootScalar hdoc hnodup hc

theorem lwwPass_of_not_overrides {doc : Document} {lww : List LwwConflict} {definitive : Bool}
    (h : ∀ c ∈ lww, ¬ Overrides definitive doc c) : (lwwPass doc lww definitive).1 = doc := by
  have hfold : ∀ (cs : List LwwConflict) (s : Document × VerificationReport),
      (∀ c ∈ cs, ¬ Overrides definitive s.1 c) →
        (cs.foldl (lwwReadBack definitive) s).1 = s.1 := by
    intro cs
    induction cs with
    | nil => exact fun _ _ => rfl
    | cons c cs ih =>
      intro s hs
      have hstep := lwwReadBack_of_not_overrides (hs c (by simp))
      rw [List.foldl_cons, ih _ fun c' hc' => by rw [hstep]; exact hs c' (by simp [hc']), hstep]
  exact hfold lww _ h

theorem rootKeys_nodup (d : Document) : d.rootKeys.Nodup :=
  (List.perm_insertionSort _ _).nodup_iff.mpr (List.nodup_dedup _)

theorem mem_rootKeys {d : Document} {key : String} :
    key ∈ d.rootKeys ↔ (d.winner (.root key)).isSome = true := by
  simp only [Document.rootKeys, (List.perm_insertionSort _ _).mem_iff, List.mem_dedup,
    List.mem_filterMap]
  constructor
  · rintro ⟨o, -, ho⟩
    split at ho
    · split_ifs at ho with h
      cases ho
      exact h
    · cases ho
  · intro h
    obtain ⟨o, ho⟩ := Option.isSome_iff_exists.mp h
    obtain ⟨hmem, hreg, -⟩ := mem_visibleAt.mp (winner_mem ho)
    refine ⟨o, hmem, ?_⟩
    have htarget : o.target = .root key := hreg
    simp only [htarget, h, if_true]

theorem lwwConflictAt_key {localDoc incoming : Document} {key : String} {c : LwwConflict}
    (h : lwwConflictAt localDoc incoming key = some c) : c.key = key := by
  unfold lwwConflictAt at h
  split at h
  · split_ifs at h
    cases h
    rfl
  · cases h

theorem captureLww_nodup (localDoc incoming : Document) :
    ((captureLww localDoc incoming).map LwwConflict.key).Nodup := by
  have hsublist : ∀ keys : List String,
      ((keys.filterMap (lwwConflictAt localDoc incoming)).map LwwConflict.key).Sublist keys := by
    intro keys
    induction keys with
    | nil => simp
    | cons key keys ih =>
      cases h : lwwConflictAt localDoc incoming key with
      | none => simpa [h] using ih.cons key
      | some c => simpa [h, lwwConflictAt_key h] using ih.cons_cons key
  exact (hsublist _).nodup (rootKeys_nodup incoming)

theorem mem_captureLww {localDoc incoming : Document} {c : LwwConflict} :
    c ∈ captureLww localDoc incoming ↔ lwwConflictAt localDoc incoming c.key = some c := by
  simp only [captureLww, List.mem_filterMap]
  constructor
  · rintro ⟨key, -, h⟩
    rwa [lwwConflictAt_key h]
  · intro h
    refine ⟨c.key, mem_rootKeys.mpr ?_, h⟩
    unfold lwwConflictAt at h
    split at h
    · rename_i hentry _
      cases hw : incoming.winner (.root c.key) with
      | none => simp [rootScalarEntry, hw] at hentry
      | some o => rfl
    · cases h

theorem lwwReadBack_indeterminate (s : Document × VerificationReport) (c : LwwConflict) :
    (lwwReadBack false s c).1 = s.1 := by
  unfold lwwReadBack
  cases s.1.winner (.root c.key) <;> rfl

theorem rgaReadBack_indeterminate (maps : List (ObjId × List OpId))
    (s : Document × VerificationReport) (c : RgaConflict) :
    (rgaReadBack false maps s c).1 = s.1 := by
  unfold rgaReadBack
  cases findInOneList maps c <;> rfl

private theorem foldl_fst_eq {α : Type*}
    {step : Document × VerificationReport → α → Document × VerificationReport}
    (h : ∀ s c, (step s c).1 = s.1) (s : Document × VerificationReport) (cs : List α) :
    (cs.foldl step s).1 = s.1 := by
  induction cs generalizing s with
  | nil => rfl
  | cons c cs ih => rw [List.foldl_cons, ih, h]

/-- In the indeterminate zone nothing is overridden. -/
theorem verifyAndOverride_indeterminate (doc : Document) (snapshot : ConflictSnapshot)
    {deltaLamport localLamport : UInt64} (h : ¬ localLamport < deltaLamport) :
    (verifyAndOverride doc snapshot deltaLamport localLamport).1 = doc := by
  simp only [verifyAndOverride, decide_eq_false h]
  rw [foldl_fst_eq (rgaReadBack_indeterminate _)]
  exact foldl_fst_eq lwwReadBack_indeterminate _ _

theorem valid_append {d : Document} (hd : d.Valid) {b : OpBody}
    (h : ∀ i ∈ (⟨d.nextId, b⟩ : Op).pred, ∃ o ∈ d.ops, o.id = i ∧
      o.target = (⟨d.nextId, b⟩ : Op).target) : (d.append b).Valid := by
  unfold Document.Valid
  rw [Document.ops_append]
  exact (Document.extends_of_held h).causallyClosed hd

/-- A document that went through list edits only: still valid, `ROOT` keys as before. -/
structure KeepsRoot (d d' : Document) : Prop where
  valid : d'.Valid
  root : ∀ key, d'.winner (.root key) = d.winner (.root key)

theorem KeepsRoot.refl {d : Document} (hd : d.Valid) : KeepsRoot d d := ⟨hd, fun _ => rfl⟩

theorem KeepsRoot.trans {d d' d'' : Document} (h : KeepsRoot d d') (h' : KeepsRoot d' d'') :
    KeepsRoot d d'' := ⟨h'.valid, fun key => (h'.root key).trans (h.root key)⟩

theorem keepsRoot_append {d : Document} (hd : d.Valid) {b : OpBody}
    (h : ∀ i ∈ (⟨d.nextId, b⟩ : Op).pred, ∃ o ∈ d.ops, o.id = i ∧
      o.target = (⟨d.nextId, b⟩ : Op).target)
    (htarget : ∀ key, (⟨d.nextId, b⟩ : Op).target ≠ .root key) : KeepsRoot d (d.append b) := by
  refine ⟨valid_append hd h, fun key => ?_⟩
  rw [Document.winner, Document.ops_append]
  exact (Document.extends_of_held h).winner_other hd.unique (htarget key).symm

theorem keepsRoot_deleteAt {d d' : Document} (hd : d.Valid) {obj : ObjId} {index : ℕ}
    (h : d.deleteAt obj index = some d') : KeepsRoot d d' := by
  obtain ⟨item, -, rfl⟩ := Option.map_eq_some_iff.mp h
  exact keepsRoot_append hd (fun i hi => Document.held_of_mem_predecessors hi) (by simp [Op.target])

theorem keepsRoot_insertAt {d d' : Document} (hd : d.Valid) {obj : ObjId} {index : ℕ}
    {value : ScalarValue} (h : d.insertAt obj index value = some d') : KeepsRoot d d' := by
  simp only [Document.insertAt] at h
  split_ifs at h
  · cases h
    exact keepsRoot_append hd (by simp [Op.pred]) (by simp [Op.target])
  · obtain ⟨item, -, rfl⟩ := Option.map_eq_some_iff.mp h
    exact keepsRoot_append hd (by simp [Op.pred]) (by simp [Op.target])

/-- A relation between documents that holds along list edits. -/
structure AlongEdits (related : Document → Document → Prop) : Prop where
  refl : ∀ d, related d d
  trans : ∀ {d d' d''}, related d d' → related d' d'' → related d d''
  deleteAt : ∀ {d d' obj index}, Document.deleteAt d obj index = some d' → related d d'
  insertAt : ∀ {d d' obj index value}, Document.insertAt d obj index value = some d' → related d d'

section AlongEdits
variable {related : Document → Document → Prop}

theorem AlongEdits.reorder (h : AlongEdits related) (d : Document) (obj : ObjId) (lo hi : ℕ)
    (incomingValue localValue : ScalarValue) :
    related d (reorder d obj lo hi incomingValue localValue).1 := by
  unfold MergeVerification.reorder
  cases h₁ : d.deleteAt obj hi with
  | none => exact h.refl d
  | some d₁ =>
    have k₁ := h.deleteAt h₁
    cases h₂ : d₁.deleteAt obj lo with
    | none => simpa only [h₂] using k₁
    | some d₂ =>
      have k₂ := h.trans k₁ (h.deleteAt h₂)
      cases h₃ : d₂.insertAt obj lo incomingValue with
      | none => simpa only [h₂, h₃] using k₂
      | some d₃ =>
        have k₃ := h.trans k₂ (h.insertAt h₃)
        cases h₄ : d₃.insertAt obj (lo + 1) localValue with
        | none => simpa only [h₂, h₃, h₄] using k₃
        | some d₄ => simpa only [h₂, h₃, h₄] using h.trans k₃ (h.insertAt h₄)

theorem AlongEdits.rgaReadBack (h : AlongEdits related) (definitive : Bool)
    (maps : List (ObjId × List OpId)) (s : Document × VerificationReport) (c : RgaConflict) :
    related s.1 (rgaReadBack definitive maps s c).1 := by
  unfold MergeVerification.rgaReadBack
  cases findInOneList maps c with
  | none => exact h.refl s.1
  | some found =>
    obtain ⟨obj, idxLocal, idxIncoming⟩ := found
    have hreorder := h.reorder s.1 obj (min idxLocal idxIncoming) (max idxLocal idxIncoming)
      c.incomingValue c.localValue
    simp only
    split_ifs
    · exact h.refl s.1
    · exact h.refl s.1
    · revert hreorder
      generalize MergeVerification.reorder s.1 obj (min idxLocal idxIncoming)
        (max idxLocal idxIncoming) c.incomingValue c.localValue = r
      obtain ⟨doc, ok⟩ := r
      cases ok <;> exact id

theorem AlongEdits.foldl (h : AlongEdits related) {Conflict : Type*}
    {step : Document × VerificationReport → Conflict → Document × VerificationReport}
    {cs : List Conflict} (hstep : ∀ c ∈ cs, ∀ s, related s.1 (step s c).1)
    (s : Document × VerificationReport) : related s.1 (cs.foldl step s).1 := by
  induction cs generalizing s with
  | nil => exact h.refl s.1
  | cons c cs ih =>
    exact h.trans (hstep c List.mem_cons_self s)
      (ih (fun c' hc' => hstep c' (List.mem_cons_of_mem c hc')) (step s c))

end AlongEdits

theorem alongEdits_keepsRoot : AlongEdits fun d d' => d.Valid → KeepsRoot d d' where
  refl _ hd := .refl hd
  trans h h' hd := (h hd).trans (h' (h hd).valid)
  deleteAt h hd := keepsRoot_deleteAt hd h
  insertAt h hd := keepsRoot_insertAt hd h

theorem keepsRoot_rgaPass (definitive : Bool) (maps : List (ObjId × List OpId))
    (cs : List RgaConflict) {s : Document × VerificationReport} (hs : s.1.Valid) :
    KeepsRoot s.1 (cs.foldl (rgaReadBack definitive maps) s).1 :=
  alongEdits_keepsRoot.foldl
    (fun c _ s => alongEdits_keepsRoot.rgaReadBack definitive maps s c) s hs

def IsRoot (t : Target) : Prop := ∃ key, t = .root key

/-- A document that went through list edits: it holds more operations, all apart from `ROOT`. -/
structure EditsLists (d d' : Document) : Prop where
  kept : ∀ o ∈ d.ops, o ∈ d'.ops
  unique : UniqueIds d.ops → UniqueIds d'.ops
  apart : ∀ o ∈ d'.ops, o ∉ d.ops → Apart IsRoot d'.ops o

theorem EditsLists.refl (d : Document) : EditsLists d d :=
  ⟨fun _ ho => ho, id, fun _ ho hnew => absurd ho hnew⟩

theorem EditsLists.trans {d d' d'' : Document} (h : EditsLists d d') (h' : EditsLists d' d'') :
    EditsLists d d'' := by
  refine ⟨fun o ho => h'.kept o (h.kept o ho), fun hu => h'.unique (h.unique hu),
    fun o ho hnew => ?_⟩
  by_cases hmid : o ∈ d'.ops
  · exact (h.apart o hmid hnew).mono h'.kept
  · exact h'.apart o ho hmid

theorem editsLists_append {d : Document} {b : OpBody}
    (h : ∀ i ∈ (⟨d.nextId, b⟩ : Op).pred, ∃ o ∈ d.ops, o.id = i ∧
      o.target = (⟨d.nextId, b⟩ : Op).target)
    (htarget : ∀ key, (⟨d.nextId, b⟩ : Op).target ≠ .root key) : EditsLists d (d.append b) := by
  have hextends : Extends d.ops (⟨d.nextId, b⟩ : Op) := Document.extends_of_held h
  have hkept : ∀ o ∈ d.ops, o ∈ (d.append b).ops := by
    intro o ho
    rw [Document.ops_append]
    exact List.mem_append_left _ ho
  refine ⟨hkept, fun hu => ?_, fun o ho hnew => ?_⟩
  · rw [Document.ops_append]
    exact hextends.uniqueIds hu
  · rw [Document.ops_append] at ho
    rw [List.mem_singleton.mp ((List.mem_append.mp ho).resolve_left hnew)]
    refine Apart.mono ⟨?_, hextends.held⟩ hkept
    rintro ⟨key, hkey⟩
    exact htarget key hkey

theorem alongEdits_editsLists : AlongEdits EditsLists where
  refl := .refl
  trans := .trans
  deleteAt h := by
    obtain ⟨item, -, rfl⟩ := Option.map_eq_some_iff.mp h
    exact editsLists_append (fun i hi => Document.held_of_mem_predecessors hi) (by simp [Op.target])
  insertAt h := by
    simp only [Document.insertAt] at h
    split_ifs at h
    · cases h
      exact editsLists_append (by simp [Op.pred]) (by simp [Op.target])
    · obtain ⟨item, -, rfl⟩ := Option.map_eq_some_iff.mp h
      exact editsLists_append (by simp [Op.pred]) (by simp [Op.target])

theorem editsLists_verifyAndOverride {doc : Document} {snapshot : ConflictSnapshot}
    {deltaLamport localLamport : UInt64}
    (h : localLamport < deltaLamport → ∀ c ∈ snapshot.lww, ¬ Overrides true doc c) :
    EditsLists doc (verifyAndOverride doc snapshot deltaLamport localLamport).1 := by
  by_cases hlt : localLamport < deltaLamport
  · have hlists : EditsLists (lwwPass doc snapshot.lww true).1 (snapshot.rga.foldl
        (rgaReadBack true (indexMaps (lwwPass doc snapshot.lww true).1))
        (lwwPass doc snapshot.lww true)).1 :=
      alongEdits_editsLists.foldl (fun c _ s => alongEdits_editsLists.rgaReadBack true _ s c) _
    rw [lwwPass_of_not_overrides (h hlt)] at hlists
    simpa only [verifyAndOverride, decide_eq_true hlt, lwwPass_of_not_overrides (h hlt)] using
      hlists
  · rw [verifyAndOverride_indeterminate doc snapshot hlt]
    exact .refl doc

/-- The list pass leaves what the `ROOT` keys show alone. -/
theorem verifyAndOverride_root {doc : Document} {snapshot : ConflictSnapshot}
    {deltaLamport localLamport : UInt64}
    (hvalid : (lwwPass doc snapshot.lww (decide (localLamport < deltaLamport))).1.Valid)
    (key : String) :
    (verifyAndOverride doc snapshot deltaLamport localLamport).1.winner (.root key) =
      (lwwPass doc snapshot.lww (decide (localLamport < deltaLamport))).1.winner (.root key) :=
  (keepsRoot_rgaPass _ _ snapshot.rga hvalid).root key

end TirBase.MergeVerification
