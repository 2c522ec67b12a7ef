import TirBase.FragmentReassembly
import TirBase.LittleEndian

/-! # The Bluetooth bridge

A payload is cut into chunks that fit one write, each behind a header of 40 bytes. The receiver takes
a chunk out of the pending ones as soon as it has put it there, so it never holds two of them. -/
namespace TirBase
open LittleEndian TransitionRuns

def bleMaxChunkSize : ℕ := 512

/-- The identifier of the Delta, the number of the chunk and the number of all chunks. -/
def bleChunkHeaderSize : ℕ := 40

def bleMaxPayload : ℕ := bleMaxChunkSize - bleChunkHeaderSize

def bleChunk (deltaId : DeltaId) (fragmentIndex totalFragments : UInt32) (payload : Bytes) : Bytes :=
  digestBytes deltaId ++ toBytes 4 fragmentIndex.toNat ++ toBytes 4 totalFragments.toNat ++ payload

def fragmentForBle (deltaId : DeltaId) (data : Bytes) : List Bytes :=
  if data = [] then []
  else
    let pieces := chunks bleMaxPayload data
    pieces.zipIdx.map fun piece =>
      bleChunk deltaId (UInt32.ofNat piece.2) (UInt32.ofNat pieces.length) piece.1

/-- 32 bytes as a digest, the most significant first. -/
def digestOfBytes (bytes : Bytes) : BitVec 256 := BitVec.ofNat 256 (ofBytes bytes.reverse)

def parseBleChunk (chunk : Bytes) : Except TirBaseError DeltaFragment :=
  if chunk.length < bleChunkHeaderSize then .error (.fragmentReassemblyFailed "ble" 0)
  else .ok {
    deltaId := digestOfBytes (chunk.take 32)
    fragmentIndex := UInt32.ofNat (ofBytes ((chunk.drop 32).take 4))
    totalFragments := UInt32.ofNat (ofBytes ((chunk.drop 36).take 4))
    payload := chunk.drop 40 }

def reassembleBleChunks (chunks : List Bytes) (senderDid : Did) : Except TirBaseError Bytes :=
  match chunks with
  | [] => .error (.fragmentReassemblyFailed senderDid 0)
  | chunk :: rest =>
    match parseBleChunk chunk with
    | .error e => .error e
    | .ok first =>
      let total := first.totalFragments.toNat
      if (chunk :: rest).length ≠ total then .error (.fragmentReassemblyFailed senderDid total)
      else
        match (chunk :: rest).mapM parseBleChunk with
        | .error e => .error e
        | .ok fragments => reassemble fragments senderDid

abbrev PendingChunks := AList fun _ : DeltaId => List Bytes

def bleReassemble (pending : PendingChunks) (chunk : Bytes) : PendingChunks × List Bytes :=
  if chunk.length < bleChunkHeaderSize then (pending, [])
  else
    let deltaId := digestOfBytes (chunk.take 32)
    let pending := pending.insert deltaId ((pending.lookup deltaId).getD [] ++ [chunk])
    match pending.lookup deltaId with
    | some chunks =>
      (pending.erase deltaId, (reassembleBleChunks chunks ("ble-" ++ deltaId.toHex)).toOption.toList)
    | none => (pending, [])

/-- One turn of the task: a payload that is a message goes to the inbound queue. -/
def bleTurn (lib : WireLibraries) (pending : PendingChunks) (chunk : Bytes) :
    PendingChunks × List GossipMessage :=
  let out := bleReassemble pending chunk
  (out.1, out.2.filterMap lib.fromBytes)

theorem toBytes_eq_map (width n : ℕ) :
    toBytes width n = (List.range width).map fun i => Fin.ofNat 256 (n / 256 ^ i) := by
  induction width generalizing n with
  | zero => rfl
  | succ width ih =>
    rw [toBytes, ih, List.range_succ_eq_map, List.map_cons, List.map_map, Nat.pow_zero, Nat.div_one]
    congr 1
    apply List.map_congr_left
    intro i _
    rw [Function.comp_apply, Nat.div_div_eq_div_mul, Nat.pow_succ']

theorem digestBytes_eq_reverse (digest : BitVec 256) :
    digestBytes digest = (toBytes 32 digest.toNat).reverse := by
  rw [toBytes_eq_map, digestBytes]
  apply List.ext_getElem (by simp)
  intro i hi _
  simp

theorem length_digestBytes (digest : BitVec 256) : (digestBytes digest).length = 32 := by
  simp [digestBytes]

theorem digestOfBytes_digestBytes (digest : BitVec 256) :
    digestOfBytes (digestBytes digest) = digest := by
  have hlt : digest.toNat < 256 ^ 32 := lt_of_lt_of_eq digest.isLt (by decide)
  rw [digestOfBytes, digestBytes_eq_reverse, List.reverse_reverse, ofBytes_toBytes_of_lt hlt,
    BitVec.ofNat_toNat, BitVec.setWidth_eq]

theorem ofNat_ofBytes_toBytes (n : UInt32) : UInt32.ofNat (ofBytes (toBytes 4 n.toNat)) = n := by
  have hlt : n.toNat < 256 ^ 4 := lt_of_lt_of_eq n.toNat_lt (by decide)
  rw [ofBytes_toBytes_of_lt hlt, UInt32.ofNat_toNat]

theorem length_bleChunk (deltaId : DeltaId) (index total : UInt32) (payload : Bytes) :
    (bleChunk deltaId index total payload).length = bleChunkHeaderSize + payload.length := by
  simp only [bleChunk, bleChunkHeaderSize, List.length_append, length_digestBytes, length_toBytes]

theorem parseBleChunk_bleChunk (deltaId : DeltaId) (index total : UInt32) (payload : Bytes) :
    parseBleChunk (bleChunk deltaId index total payload) = .ok ⟨deltaId, index, total, payload⟩ := by
  have hbody : (bleChunk deltaId index total payload).drop 32 =
      toBytes 4 index.toNat ++ (toBytes 4 total.toNat ++ payload) := by
    simp [bleChunk, List.append_assoc, length_digestBytes]
  have hid : (bleChunk deltaId index total payload).take 32 = digestBytes deltaId := by
    simp [bleChunk, List.append_assoc, length_digestBytes]
  have hindex : ((bleChunk deltaId index total payload).drop 32).take 4 = toBytes 4 index.toNat := by
    simp [hbody]
  have htotal : ((bleChunk deltaId index total payload).drop 36).take 4 = toBytes 4 total.toNat := by
    rw [← List.drop_drop (i := 4) (j := 32), hbody]
    simp
  have hpayload : (bleChunk deltaId index total payload).drop 40 = payload := by
    rw [← List.drop_drop (i := 8) (j := 32), hbody, List.drop_append]
    simp
  rw [parseBleChunk, if_neg (by rw [length_bleChunk]; omega), hid, hindex, htotal, hpayload,
    digestOfBytes_digestBytes, ofNat_ofBytes_toBytes, ofNat_ofBytes_toBytes]

/-- The chunks are the fragments of the payload behind their headers. -/
theorem map_parseBleChunk (deltaId : DeltaId) (data : Bytes) :
    (fragmentForBle deltaId data).map parseBleChunk =
      (fragment deltaId data bleMaxPayload).map .ok := by
  have hmax : bleMaxPayload ≠ 0 := by decide
  by_cases hdata : data = []
  · simp [fragmentForBle, fragment, hdata]
  · simp only [fragmentForBle, fragment, hdata, hmax, or_self, if_false, List.map_map]
    apply List.map_congr_left
    intro piece _
    exact parseBleChunk_bleChunk _ _ _ _

section Turns
variable {chunk : Bytes} {bytes : Bytes}

theorem bleReassemble_of_short (h : chunk.length < bleChunkHeaderSize) :
    bleReassemble ∅ chunk = (∅, []) := if_pos h

theorem bleReassemble_of_long (h : bleChunkHeaderSize ≤ chunk.length) :
    bleReassemble ∅ chunk = (∅, (reassembleBleChunks [chunk]
      ("ble-" ++ (digestOfBytes (chunk.take 32)).toHex)).toOption.toList) := by
  have hlookup : ((∅ : PendingChunks).insert (digestOfBytes (chunk.take 32)) [chunk]).lookup
      (digestOfBytes (chunk.take 32)) = some [chunk] := AList.lookup_insert _
  have herase : ((∅ : PendingChunks).insert (digestOfBytes (chunk.take 32)) [chunk]).erase
      (digestOfBytes (chunk.take 32)) = ∅ := by
    apply AList.ext
    simp [AList.singleton, AList.erase]
  rw [bleReassemble, if_neg (Nat.not_lt.mpr h)]
  simp only [AList.lookup_empty, Option.getD_none, List.nil_append, hlookup, herase]

theorem run_bleReassemble (arrivals : List Bytes) :
    run (fun pending chunk => (bleReassemble pending chunk).1) ∅ arrivals = ∅ := by
  induction arrivals with
  | nil => rfl
  | cons chunk arrivals ih =>
    have hempty : (bleReassemble ∅ chunk).1 = ∅ := by
      by_cases hshort : chunk.length < bleChunkHeaderSize
      · rw [bleReassemble_of_short hshort]
      · rw [bleReassemble_of_long (Nat.not_lt.mp hshort)]
    rw [run_cons, hempty, ih]

theorem reassemble_singleton (f : DeltaFragment) (senderDid : Did) :
    reassemble [f] senderDid =
      if f.totalFragments = 1 ∧ f.fragmentIndex = 0 then .ok f.payload
      else .error (.fragmentReassemblyFailed senderDid f.totalFragments.toNat) := by
  by_cases htotal : f.totalFragments = 1
  · by_cases hindex : f.fragmentIndex = 0
    · simp [reassemble, htotal, hindex]
    · simp [reassemble, htotal, hindex]
  · have hone : ¬1 = f.totalFragments.toNat := by
      intro h
      exact htotal (UInt32.toNat_inj.mp h.symm)
    by_cases hzero : f.totalFragments = 0
    · simp [reassemble, hzero]
    · simp [reassemble, hzero, hone, htotal]

theorem reassembleBleChunks_singleton {f : DeltaFragment} (h : parseBleChunk chunk = .ok f)
    (senderDid : Did) : reassembleBleChunks [chunk] senderDid = reassemble [f] senderDid := by
  have hmapM : [chunk].mapM parseBleChunk = .ok [f] := by simp [h]
  simp only [reassembleBleChunks, h, hmapM]
  split_ifs with hlength
  · rw [reassemble_singleton, if_neg]
    rintro ⟨htotal, -⟩
    simp [htotal] at hlength
  · rfl

/-- A chunk that is reassembled on its own gives what is behind its header. -/
theorem eq_drop_of_reassembled {senderDid : Did}
    (h : reassembleBleChunks [chunk] senderDid = .ok bytes) : bytes = chunk.drop 40 := by
  by_cases hshort : chunk.length < bleChunkHeaderSize
  · simp [reassembleBleChunks, parseBleChunk, hshort] at h
  · rw [reassembleBleChunks_singleton (if_neg hshort), reassemble_singleton] at h
    split_ifs at h
    cases h
    rfl

theorem emitted_bleReassemble (earlier arrivals : List Bytes) :
    emitted bleReassemble (run (fun pending chunk => (bleReassemble pending chunk).1) ∅ earlier)
      arrivals = arrivals.flatMap fun chunk => (bleReassemble ∅ chunk).2 := by
  rw [run_bleReassemble]
  induction arrivals with
  | nil => rfl
  | cons chunk arrivals ih =>
    have hempty : (bleReassemble ∅ chunk).1 = ∅ := run_bleReassemble [chunk]
    rw [emitted_cons, hempty, ih, List.flatMap_cons]

theorem emitted_bleTurn (lib : WireLibraries) (pending : PendingChunks) (arrivals : List Bytes) :
    emitted (bleTurn lib) pending arrivals =
      (emitted bleReassemble pending arrivals).filterMap lib.fromBytes := by
  induction arrivals generalizing pending with
  | nil => rfl
  | cons chunk arrivals ih =>
    rw [emitted_cons, emitted_cons, List.filterMap_append, ← ih]
    rfl

end Turns

section Delivery
variable {deltaId : DeltaId} {data : Bytes}

theorem length_le_of_mem_chunks {size : ℕ} {piece : Bytes} (h : piece ∈ chunks size data) :
    piece.length ≤ size := by
  obtain ⟨i, -, rfl⟩ := List.mem_map.mp h
  exact List.length_take_le _ _

theorem length_le_of_mem_fragmentForBle {chunk : Bytes} (h : chunk ∈ fragmentForBle deltaId data) :
    chunk.length ≤ bleMaxChunkSize := by
  by_cases hdata : data = []
  · simp [fragmentForBle, hdata] at h
  · simp only [fragmentForBle, hdata, if_false, List.mem_map] at h
    obtain ⟨piece, hpiece, rfl⟩ := h
    have hmem : piece.1 ∈ chunks bleMaxPayload data := List.fst_mem_of_mem_zipIdx hpiece
    have hlength := length_le_of_mem_chunks hmem
    rw [length_bleChunk]
    simp only [bleMaxPayload, bleMaxChunkSize, bleChunkHeaderSize] at hlength ⊢
    omega

/-- Nothing longer than what a chunk carries is ever reassembled from the chunks of a payload. -/
theorem length_le_of_emitted {arrivals : List Bytes} {bytes : Bytes}
    (harrivals : arrivals.Perm (fragmentForBle deltaId data))
    (h : bytes ∈ arrivals.flatMap fun chunk => (bleReassemble ∅ chunk).2) :
    bytes.length ≤ bleMaxPayload := by
  obtain ⟨chunk, hchunk, hbytes⟩ := List.mem_flatMap.mp h
  have hlength := length_le_of_mem_fragmentForBle (harrivals.mem_iff.mp hchunk)
  by_cases hshort : chunk.length < bleChunkHeaderSize
  · simp [bleReassemble_of_short hshort] at hbytes
  · rw [bleReassemble_of_long (Nat.not_lt.mp hshort)] at hbytes
    cases hout : reassembleBleChunks [chunk]
        ("ble-" ++ (digestOfBytes (chunk.take 32)).toHex) with
    | error e => simp [hout, Except.toOption] at hbytes
    | ok out =>
      simp only [hout, Except.toOption, Option.toList_some, List.mem_singleton] at hbytes
      rw [hbytes, eq_drop_of_reassembled hout, List.length_drop]
      simp only [bleMaxPayload, bleMaxChunkSize, bleChunkHeaderSize] at hlength ⊢
      omega

theorem fragmentForBle_of_short (hdata : data ≠ []) (hshort : data.length ≤ bleMaxPayload) :
    fragmentForBle deltaId data = [bleChunk deltaId 0 1 data] := by
  have hpos : 0 < data.length := List.length_pos_iff.mpr hdata
  have hone : (data.length + bleMaxPayload - 1) / bleMaxPayload = 1 := by
    simp only [bleMaxPayload, bleMaxChunkSize, bleChunkHeaderSize] at hshort ⊢
    omega
  have hchunks : chunks bleMaxPayload data = [data] := by
    simp [chunks, hone, hshort]
  simp [fragmentForBle, hdata, hchunks]

/-- From the chunks of a payload, in the order in which they arrive, the task gives back that payload,
once, and the message that it is; each chunk is read as the fragment it was made of. -/
structure DeliversBle (deltaId : DeltaId) (data : Bytes) (earlier arrivals : List Bytes) : Prop where
  handedOn : emitted bleReassemble
    (run (fun pending chunk => (bleReassemble pending chunk).1) ∅ earlier) arrivals = [data]
  messages : ∀ lib : WireLibraries, emitted (bleTurn lib)
    (run (fun pending chunk => (bleTurn lib pending chunk).1) ∅ earlier) arrivals =
      (lib.fromBytes data).toList
  headers : (fragmentForBle deltaId data).map parseBleChunk =
    (fragment deltaId data bleMaxPayload).map .ok

/-- After any chunks and in any order of arrival, a payload is delivered exactly when it fits one
chunk. -/
theorem deliversBle_iff (deltaId : DeltaId) {data : Bytes} (hdata : data ≠ [])
    (earlier : List Bytes) {arrivals : List Bytes}
    (harrivals : arrivals.Perm (fragmentForBle deltaId data)) :
    DeliversBle deltaId data earlier arrivals ↔ data.length ≤ bleMaxPayload := by
  constructor
  · intro h
    have hhanded := h.handedOn
    rw [emitted_bleReassemble] at hhanded
    exact length_le_of_emitted harrivals (by rw [hhanded]; exact List.mem_singleton_self data)
  · intro hshort
    rw [fragmentForBle_of_short hdata hshort, List.perm_singleton] at harrivals
    have hparse := parseBleChunk_bleChunk deltaId 0 1 data
    have hlength := length_bleChunk deltaId 0 1 data
    have hhanded : emitted bleReassemble
        (run (fun pending chunk => (bleReassemble pending chunk).1) ∅ earlier) arrivals = [data] := by
      rw [emitted_bleReassemble, harrivals, List.flatMap_cons, List.flatMap_nil, List.append_nil,
        bleReassemble_of_long (by omega), reassembleBleChunks_singleton hparse,
        reassemble_singleton, if_pos ⟨rfl, rfl⟩]
      rfl
    refine ⟨hhanded, fun lib => ?_, map_parseBleChunk deltaId data⟩
    rw [emitted_bleTurn, show (run (fun pending chunk => (bleTurn lib pending chunk).1) ∅ earlier) =
      run (fun pending chunk => (bleReassemble pending chunk).1) ∅ earlier from rfl, hhanded]
    cases hmsg : lib.fromBytes data with
    | none => simp [hmsg]
    | some msg => simp [hmsg]

/-- The two chunks of a payload of 473 bytes give nothing. -/
theorem two_chunks_lost : ¬DeliversBle 7 (List.replicate 473 0) []
    (fragmentForBle 7 (List.replicate 473 0)) := by
  intro h
  have hhanded := h.handedOn
  rw [emitted_bleReassemble] at hhanded
  have hlength := length_le_of_emitted (List.Perm.refl (fragmentForBle 7 (List.replicate 473 0)))
    (by rw [hhanded]; exact List.mem_singleton_self _)
  rw [List.length_replicate] at hlength
  revert hlength
  decide

theorem deliversBle_iff_sample :
    DeliversBle 7 [1, 2, 3] [[9]] (fragmentForBle 7 [1, 2, 3]) ↔ [1, 2, 3].length ≤ bleMaxPayload :=
  deliversBle_iff 7 (by decide) [[9]] (List.Perm.refl _)

end Delivery

end TirBase
