import Mathlib
import TirBase.SlotAssembly
import TirBase.WireMessages

/-! # Fragmentation and reassembly

A serialised Delta is cut into fragments of at most `mtu` bytes. The receiver keeps, for every
Delta identifier, the slots of the fragments that have arrived. -/
namespace TirBase
open TransitionRuns SlotAssembly

/-- `slice::chunks`. -/
def chunks (size : ℕ) (bytes : Bytes) : List Bytes :=
  (List.range ((bytes.length + size - 1) / size)).map fun i => (bytes.drop (i * size)).take size

def fragment (deltaId : DeltaId) (deltaBytes : Bytes) (mtu : ℕ) : List DeltaFragment :=
  if deltaBytes = [] ∨ mtu = 0 then []
  else
    let pieces := chunks mtu deltaBytes
    pieces.zipIdx.map fun piece =>
      ⟨deltaId, UInt32.ofNat piece.2, UInt32.ofNat pieces.length, piece.1⟩

def reassemble (fragments : List DeltaFragment) (senderDid : Did) : Except TirBaseError Bytes :=
  match fragments with
  | [] => .error (.fragmentReassemblyFailed senderDid 0)
  | first :: _ =>
    let total := first.totalFragments
    if total = 0 then .error (.fragmentReassemblyFailed senderDid 0)
    else if fragments.any fun f => f.deltaId ≠ first.deltaId ∨ f.totalFragments ≠ total then
      .error (.fragmentReassemblyFailed senderDid total.toNat)
    else if fragments.length ≠ total.toNat then
      .error (.fragmentReassemblyFailed senderDid total.toNat)
    else
      let sorted := fragments.insertionSort fun f g => f.fragmentIndex ≤ g.fragmentIndex
      if sorted.zipIdx.any fun f => f.1.fragmentIndex ≠ UInt32.ofNat f.2 then
        .error (.fragmentReassemblyFailed senderDid total.toNat)
      else .ok (sorted.flatMap DeltaFragment.payload)

def maxReassemblySlots : ℕ := 1024
def maxFragmentsPerDelta : ℕ := 4096

structure ReassemblyBuffer where
  pending : AList fun _ : DeltaId => Slots DeltaFragment
  deriving DecidableEq

namespace ReassemblyBuffer

def empty : ReassemblyBuffer := ⟨∅⟩

def filledSlots (b : ReassemblyBuffer) (id : DeltaId) : ℕ :=
  ((b.pending.lookup id).getD []).countP Option.isSome

/-- A new identifier pushes out the assembly with the fewest fragments once the buffer is full;
the hash map decides between equals. -/
def makeRoom (hash : HashOrder) (b : ReassemblyBuffer) (id : DeltaId) : ReassemblyBuffer :=
  if id ∉ b.pending ∧ maxReassemblySlots ≤ b.pending.keys.length then
    match (hash.order b.pending.keys).argmin b.filledSlots with
    | some evicted => ⟨b.pending.erase evicted⟩
    | none => b
  else b

def addFragment (hash : HashOrder) (b : ReassemblyBuffer) (f : DeltaFragment)
    (senderDid : Did) : Except TirBaseError (Option Bytes) × ReassemblyBuffer :=
  let total := f.totalFragments.toNat
  let failed := .error (.fragmentReassemblyFailed senderDid total)
  if maxFragmentsPerDelta < total then (failed, b)
  else if total = 0 ∨ total ≤ f.fragmentIndex.toNat then (failed, b)
  else
    let b := b.makeRoom hash f.deltaId
    let slots := (b.pending.lookup f.deltaId).getD (emptySlots total)
    if slots.length ≠ total then (failed, b)
    else
      let slots := slots.set f.fragmentIndex.toNat (some f)
      if slots.all Option.isSome then
        ((reassemble (slots.filterMap id) senderDid).map some, ⟨b.pending.erase f.deltaId⟩)
      else (.ok none, ⟨b.pending.insert f.deltaId slots⟩)

end ReassemblyBuffer

theorem flatten_chunks {size : ℕ} (hsize : 0 < size) (bytes : Bytes) :
    (chunks size bytes).flatten = bytes := by
  have htake : ∀ k, ((List.range k).map fun i => (bytes.drop (i * size)).take size).flatten =
      bytes.take (k * size) := by
    intro k
    induction k with
    | zero => simp
    | succ k ih =>
      rw [List.range_succ, List.map_append, List.flatten_append, ih, Nat.succ_mul,
        List.take_add]
      simp
  rw [chunks, htake, List.take_of_length_le]
  have hdiv := Nat.div_add_mod (bytes.length + size - 1) size
  have hmod := Nat.mod_lt (bytes.length + size - 1) hsize
  rw [Nat.mul_comm]
  omega

theorem length_chunks (size : ℕ) (bytes : Bytes) :
    (chunks size bytes).length = (bytes.length + size - 1) / size := by
  simp [chunks]

theorem length_fragment (id : DeltaId) {bytes : Bytes} {mtu : ℕ} (hbytes : bytes ≠ [])
    (hmtu : mtu ≠ 0) : (fragment id bytes mtu).length = (chunks mtu bytes).length := by
  simp [fragment, hbytes, hmtu]

theorem chunks_ne_nil {size : ℕ} {bytes : Bytes} (hsize : size ≠ 0) (hbytes : bytes ≠ []) :
    chunks size bytes ≠ [] := by
  intro hnil
  apply hbytes
  rw [← flatten_chunks (Nat.pos_of_ne_zero hsize) bytes, hnil]
  rfl

section Fragments
variable {id : DeltaId} {bytes : Bytes} {mtu : ℕ}

theorem mem_fragment (hbytes : bytes ≠ []) (hmtu : mtu ≠ 0) {f : DeltaFragment}
    (hf : f ∈ fragment id bytes mtu) :
    f.deltaId = id ∧ f.totalFragments = UInt32.ofNat (chunks mtu bytes).length := by
  simp only [fragment, hbytes, hmtu, or_self, if_false, List.mem_map] at hf
  obtain ⟨piece, -, rfl⟩ := hf
  exact ⟨rfl, rfl⟩

theorem map_index_fragment (id : DeltaId) (hbytes : bytes ≠ []) (hmtu : mtu ≠ 0) :
    (fragment id bytes mtu).map DeltaFragment.fragmentIndex =
      (List.range (chunks mtu bytes).length).map UInt32.ofNat := by
  have hrange : (chunks mtu bytes).zipIdx.map Prod.snd = List.range (chunks mtu bytes).length := by
    simp [List.range_eq_range']
  simp only [fragment, hbytes, hmtu, or_self, if_false, List.map_map]
  rw [← hrange, List.map_map]
  rfl

theorem numbered_fragment (id : DeltaId) (hbytes : bytes ≠ []) (hmtu : mtu ≠ 0)
    (hcount : (chunks mtu bytes).length ≤ maxFragmentsPerDelta) :
    Numbered (fun f : DeltaFragment => f.fragmentIndex.toNat) (fragment id bytes mtu) := by
  have hmap := congrArg (List.map UInt32.toNat) (map_index_fragment id hbytes hmtu)
  unfold Numbered
  rw [length_fragment id hbytes hmtu]
  simp only [List.map_map] at hmap
  refine hmap.trans ?_
  conv_rhs => rw [← List.map_id (List.range _)]
  apply List.map_congr_left
  intro i hi
  have hlt := List.mem_range.mp hi
  simp only [maxFragmentsPerDelta] at hcount
  simp only [Function.comp_apply, id_eq, UInt32.toNat_ofNat']
  exact Nat.mod_eq_of_lt (by omega)

theorem payload_fragment (hbytes : bytes ≠ []) (hmtu : mtu ≠ 0) :
    (fragment id bytes mtu).flatMap DeltaFragment.payload = bytes := by
  simp only [fragment, hbytes, hmtu, or_self, if_false, List.flatMap_map]
  rw [List.flatMap_def, List.zipIdx_map_fst]
  exact flatten_chunks (Nat.pos_of_ne_zero hmtu) bytes

end Fragments

/-- Numbered fragments of one assembly pass every check of `reassemble`. -/
theorem reassemble_of_numbered {fragments : List DeltaFragment} {id : DeltaId} {total : UInt32}
    (hne : fragments ≠ []) (hsame : ∀ f ∈ fragments, f.deltaId = id ∧ f.totalFragments = total)
    (htotal : fragments.length = total.toNat)
    (hnumbered : Numbered (fun f : DeltaFragment => f.fragmentIndex.toNat) fragments)
    (senderDid : Did) :
    reassemble fragments senderDid = .ok (fragments.flatMap DeltaFragment.payload) := by
  have hsorted : fragments.insertionSort (fun f g => f.fragmentIndex ≤ g.fragmentIndex) =
      fragments := by
    apply List.Pairwise.insertionSort_eq
    have hrange : (fragments.map fun f => f.fragmentIndex.toNat).Pairwise (· ≤ ·) := by
      rw [show fragments.map _ = List.range fragments.length from hnumbered]
      exact List.pairwise_le_range
    exact (List.pairwise_map.mp hrange).imp fun h => UInt32.le_iff_toNat_le.mpr h
  have hindex : ¬(fragments.zipIdx.any fun f => f.1.fragmentIndex ≠ UInt32.ofNat f.2) = true := by
    simp only [List.any_eq_true, not_exists, not_and, decide_eq_true_eq, not_not]
    rintro ⟨f, i⟩ hf
    obtain ⟨hi, hget⟩ := List.mem_zipIdx' hf
    have hnum : f.fragmentIndex.toNat = i := by
      rw [hget]
      exact hnumbered.index_getElem hi
    rw [← hnum]
    exact (UInt32.ofNat_toNat).symm
  cases fragments with
  | nil => exact absurd rfl hne
  | cons first rest =>
    obtain ⟨hid, hfirst⟩ := hsame first List.mem_cons_self
    have hzero : first.totalFragments ≠ 0 := by
      intro h
      rw [← hfirst, h] at htotal
      simp at htotal
    have hany : ¬((first :: rest).any fun f =>
        f.deltaId ≠ first.deltaId ∨ f.totalFragments ≠ first.totalFragments) = true := by
      simp only [List.any_eq_true, decide_eq_true_eq, not_exists, not_and]
      rintro f hf (h | h)
      · exact h ((hsame f hf).1.trans hid.symm)
      · exact h ((hsame f hf).2.trans hfirst.symm)
    have hlength : ¬(first :: rest).length ≠ first.totalFragments.toNat := by
      rw [hfirst]
      exact not_not.mpr htotal
    simp only [reassemble]
    rw [if_neg hzero, if_neg hany, if_neg hlength, hsorted, if_neg hindex]

namespace ReassemblyBuffer

theorem lookup_makeRoom (hash : HashOrder) (b : ReassemblyBuffer) (id : DeltaId) :
    (b.makeRoom hash id).pending.lookup id = b.pending.lookup id := by
  unfold makeRoom
  split_ifs with h
  · cases (hash.order b.pending.keys).argmin b.filledSlots with
    | none => rfl
    | some evicted =>
      by_cases he : id = evicted
      · subst he
        rw [AList.lookup_erase, AList.lookup_eq_none.mpr h.1]
      · exact AList.lookup_erase_ne he
  · rfl

/-- A fragment with a sound header acts on the slots of its Delta as a numbered part. -/
theorem addFragment_eq_accept {b : ReassemblyBuffer} {f : DeltaFragment} {total : ℕ}
    (htotal : f.totalFragments.toNat = total) (hpos : f.fragmentIndex.toNat < total)
    (hmax : total ≤ maxFragmentsPerDelta)
    (hlength : ∀ slots, b.pending.lookup f.deltaId = some slots → slots.length = total)
    (hash : HashOrder) (senderDid : Did) :
    let out := accept (fun f : DeltaFragment => f.fragmentIndex.toNat) total
      (b.pending.lookup f.deltaId) f
    (b.addFragment hash f senderDid).2.pending.lookup f.deltaId = out.1 ∧
      (b.addFragment hash f senderDid).1 =
        match out.2 with
        | [] => .ok none
        | fragments :: _ => (reassemble fragments senderDid).map some := by
  have hslots : ((b.pending.lookup f.deltaId).getD (emptySlots total)).length = total := by
    cases hlookup : b.pending.lookup f.deltaId with
    | none => simp [emptySlots]
    | some slots => exact hlength slots hlookup
  simp only [addFragment, lookup_makeRoom, htotal]
  rw [if_neg (by omega), if_neg (by omega), if_neg (not_not.mpr hslots)]
  simp only [accept]
  split_ifs with hall
  · exact ⟨AList.lookup_erase _ _, rfl⟩
  · exact ⟨AList.lookup_insert _, rfl⟩

end ReassemblyBuffer

end TirBase
