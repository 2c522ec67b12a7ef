import TirBase.CrdtEngine

/-! # Overrides and causally later writes

Peers ship whole documents, so an incoming document may show an operation that the local one
has already overwritten. The read-back calls this a conflict like any other. -/
namespace TirBase.OverrideSafety
open OperationRegisters Automerge MergeVerification CrdtEngine

variable {localDoc incoming merged result : Document}

theorem valid_merge (hlocal : localDoc.Valid) (hincoming : incoming.Valid)
    (hshared : UniqueIds (localDoc.ops ++ incoming.ops))
    (h : localDoc.merge incoming = some merged) : merged.Valid :=
  (Document.merge_ops h).causallyClosed (hlocal.append hincoming hshared)

/-- The merge itself keeps a causally later operation. -/
theorem winner_merge_of_madeAfter (hlocal : localDoc.Valid) (hincoming : incoming.Valid)
    (hshared : UniqueIds (localDoc.ops ++ incoming.ops))
    (h : localDoc.merge incoming = some merged) {t : Target} {later earlier : Op}
    (hlater : localDoc.winner t = some later) (hearlier : incoming.winner t = some earlier)
    (hafter : MadeAfter localDoc.ops earlier.id later.id) : merged.winner t = some later := by
  have hvalid := valid_merge hlocal hincoming hshared h
  rw [Document.winner, (Document.merge_ops h).winner_eq hvalid.unique]
  exact winner_append_of_madeAfter hlocal hincoming hshared hlater hearlier hafter

/-- What a `ROOT` key holds after the merge and its read-back. -/
theorem rootScalar_mergeIncoming {deltaLamport localLamport : UInt64} (hmerged : merged.Valid)
    (hmerge : localDoc.merge incoming = some merged)
    (h : mergeIncoming localDoc incoming deltaLamport localLamport = some result) (key : String) :
    result.rootScalar key =
      (lwwPass merged (captureLww localDoc incoming)
        (decide (localLamport < deltaLamport))).1.rootScalar key := by
  simp only [mergeIncoming, hmerge, Option.map_some, Option.some.injEq] at h
  subst h
  split_ifs with hempty
  · rw [Document.rootScalar, Document.rootScalar]
    rw [verifyAndOverride_root (valid_lwwPass hmerged _ _) key]
    rfl
  · simp only [captureConflicts, not_or, not_not] at hempty
    rw [hempty.1]
    rfl

/-- The state of the two documents: both valid, the local operation made after the one the
incoming document shows. -/
structure StaleAt (localDoc incoming : Document) (key : String) (later earlier : Op) : Prop where
  localValid : localDoc.Valid
  incomingValid : incoming.Valid
  shared : UniqueIds (localDoc.ops ++ incoming.ops)
  shows : localDoc.winner (.root key) = some later
  incomingShows : incoming.winner (.root key) = some earlier
  after : MadeAfter localDoc.ops earlier.id later.id

/-- A causally later local value survives exactly when the Delta's clock is not ahead, or the
stale incoming operation holds no other scalar. -/
theorem mergeIncoming_keeps_iff {key : String} {later earlier : Op}
    (hstaleAt : StaleAt localDoc incoming key later earlier) {deltaLamport localLamport : UInt64}
    (h : mergeIncoming localDoc incoming deltaLamport localLamport = some result)
    {value : ScalarValue} (hvalue : later.value? = some value) :
    result.rootScalar key = some value ↔
      deltaLamport ≤ localLamport ∨ earlier.value? = none ∨ earlier.value? = some value := by
  obtain ⟨hlocal, hincoming, hshared, hlater, hearlier, hafter⟩ := hstaleAt
  obtain ⟨merged, hmerge, -⟩ := Option.map_eq_some_iff.mp h
  have hmerged := valid_merge hlocal hincoming hshared hmerge
  have hwinner := winner_merge_of_madeAfter hlocal hincoming hshared hmerge hlater hearlier hafter
  have hkept : merged.rootScalar key = some value := by
    simp [Document.rootScalar, hwinner, hvalue]
  rw [rootScalar_mergeIncoming hmerged hmerge h]
  cases hstale : earlier.value? with
  | none =>
    have hnot : key ∉ (captureLww localDoc incoming).map LwwConflict.key := by
      intro hmem
      obtain ⟨c, hc, rfl⟩ := List.mem_map.mp hmem
      have := mem_captureLww.mp hc
      simp [lwwConflictAt, rootScalarEntry, hearlier, hstale] at this
    rw [Document.rootScalar, lwwPass_winner_other hmerged hnot, ← Document.rootScalar, hkept]
    simp
  | some stale =>
    have hne : later.id ≠ earlier.id := (hlocal.madeAfter_lt hafter).ne'
    let c : LwwConflict := ⟨key, earlier.id, stale, later.id, value⟩
    have hc : c ∈ captureLww localDoc incoming := mem_captureLww.mpr <| by
      simp [c, lwwConflictAt, rootScalarEntry, hearlier, hlater, hstale, hvalue, hne]
    have hoverrides : Overrides (decide (localLamport < deltaLamport)) merged c ↔
        localLamport < deltaLamport := by
      simp [Overrides, c, hwinner, hne]
    have hpass := lwwPass_rootScalar (decide (localLamport < deltaLamport)) hmerged
      (captureLww_nodup localDoc incoming) hc
    rw [show c.key = key from rfl] at hpass
    rw [hpass, hkept]
    by_cases hlt : localLamport < deltaLamport
    · rw [if_pos (hoverrides.mpr hlt)]
      have hnle : ¬ deltaLamport ≤ localLamport := UInt64.not_le.mpr hlt
      simp [hnle, c]
    · rw [if_neg fun ho => hlt (hoverrides.mp ho)]
      simp [UInt64.not_lt.mp hlt]

/-- Applying a Delta keeps a causally later local value exactly when the Delta's clock is not
ahead of the engine's, or the stale operation that the payload shows holds no other scalar. -/
theorem apply_keeps_later_write_iff (lib : EngineLibraries) (build : Build) (e : CrdtEngine)
    (δ : Delta) (now : ℤ) (fault : DagFault) (adopt : Bool)
    (hgate : e.gate lib δ = .pass adopt) (incoming : Document)
    (hload : loadIncomingDoc lib δ.automergeBytes = some incoming)
    (hmerges : (e.doc.merge incoming).isSome = true) (key : String) (later earlier : Op)
    (hstaleAt : StaleAt e.doc incoming key later earlier) (value : ScalarValue)
    (hvalue : later.value? = some value) :
    (apply lib build e δ now fault).2.doc.rootScalar key = some value ↔
      δ.lamport ≤ e.lamport ∨ earlier.value? = none ∨ earlier.value? = some value := by
  obtain ⟨merged, hmerge⟩ := Option.isSome_iff_exists.mp hmerges
  have hpayload : e.mergePayload lib δ = mergeIncoming e.doc incoming δ.lamport e.lamport := by
    simp only [mergePayload, hload]
  obtain ⟨result, hresult⟩ : ∃ result,
      mergeIncoming e.doc incoming δ.lamport e.lamport = some result := by
    simp [mergeIncoming, hmerge]
  rw [← mergeIncoming_keeps_iff hstaleAt hresult hvalue]
  rcases apply_of_pass hgate (hpayload.trans hresult) build now fault with
    ⟨err, -, -, happly⟩ | happly <;> rw [happly] <;> rfl

/-- The local device wrote the key twice; the incoming document knows the first write only. -/
def rewrittenDocument : Document :=
  ⟨List.replicate 32 1, [⟨List.replicate 32 1, 1, 1, [.set (.root "k") (.put (.str "old")) []]⟩,
    ⟨List.replicate 32 1, 2, 2,
      [.set (.root "k") (.put (.str "new")) [⟨1, List.replicate 32 1⟩]]⟩], []⟩

def staleDocument : Document :=
  ⟨[], [⟨List.replicate 32 1, 1, 1, [.set (.root "k") (.put (.str "old")) []]⟩], []⟩

def rewrittenOp : Op :=
  ⟨⟨2, List.replicate 32 1⟩, .set (.root "k") (.put (.str "new")) [⟨1, List.replicate 32 1⟩]⟩

def staleOp : Op := ⟨⟨1, List.replicate 32 1⟩, .set (.root "k") (.put (.str "old")) []⟩

theorem staleAt_rewritten : StaleAt rewrittenDocument staleDocument "k" rewrittenOp staleOp where
  localValid := by decide +kernel
  incomingValid := by decide +kernel
  shared := by decide +kernel
  shows := by decide +kernel
  incomingShows := by decide +kernel
  after := .single ⟨rewrittenOp, by decide +kernel, rfl, by decide +kernel⟩

def staleLibraries : EngineLibraries := sampleLibraries [([1], staleDocument.changes)]

def rewrittenEngine : CrdtEngine :=
  { CrdtEngine.new (sampleKey 1) (sampleKey 1) sampleDid₁ 0 .empty with
    doc := rewrittenDocument, lamport := 2 }

def staleDelta (lamport : UInt64) : Delta :=
  ⟨1, sampleDid₂, List.replicate 64 0, 0, [1], .low, [], [], lamport, 0⟩

/-- A Delta with clock 5 carrying the stale document puts the old value back. -/
theorem stale_write_restored :
    rewrittenEngine.gate staleLibraries (staleDelta 5) = .pass false ∧
    loadIncomingDoc staleLibraries (staleDelta 5).automergeBytes = some staleDocument ∧
    StaleAt rewrittenEngine.doc staleDocument "k" rewrittenOp staleOp ∧
    rewrittenEngine.doc.rootScalar "k" = some (.str "new") ∧
    (apply staleLibraries .native rewrittenEngine (staleDelta 5) 0 none).2.doc.rootScalar "k" =
      some (.str "old") :=
  ⟨by decide +kernel, by decide +kernel, staleAt_rewritten, by decide +kernel, by decide +kernel⟩

theorem apply_keeps_later_write_at_equal_clock :
    (apply staleLibraries .native rewrittenEngine (staleDelta 2) 0 none).2.doc.rootScalar "k" =
      some (.str "new") :=
  (apply_keeps_later_write_iff staleLibraries .native rewrittenEngine (staleDelta 2) 0 none false
    (by decide +kernel) staleDocument (by decide +kernel) (by decide +kernel) "k" rewrittenOp
    staleOp staleAt_rewritten (.str "new") rfl).mpr (.inl (by decide))

end TirBase.OverrideSafety
