import TirBase.FragmentInterleaving
import TirBase.PublishedDelivery

/-! # The sender and the limits of the receiver

The sender cuts a Delta into any number of fragments; the receiver refuses more than 4096, and the
count in a fragment wraps at 32 bits. -/
namespace TirBase.FragmentLimits
open TransitionRuns SlotAssembly PublishedDelivery FragmentInterleaving

variable {lib : WireLibraries}

/-- The messages for a Delta give exactly this Delta on a device with nothing under way, in whatever
order they arrive. -/
def Agrees (lib : WireLibraries) (sender : MeshTransport) (δ : Delta) : Prop :=
  ∀ receiver : MeshTransport, receiver.reassemblyBuffer = .empty →
    ∀ arrivals : List (HashOrder × GossipMessage),
      (arrivals.map Prod.snd).Perm (sender.prepareOutbound lib δ) →
      emitted (processed lib) receiver arrivals = [.inboundDelta δ]

def fragmentOf (default : DeltaFragment) : GossipMessage → DeltaFragment
  | .inboundDeltaFragment f => f
  | _ => default

theorem exists_fragment_of_perm {fragments : List DeltaFragment}
    {arrivals : List (HashOrder × GossipMessage)}
    (h : (arrivals.map Prod.snd).Perm (fragments.map .inboundDeltaFragment))
    {arrival : HashOrder × GossipMessage} (harrival : arrival ∈ arrivals) :
    ∃ f ∈ fragments, arrival = (arrival.1, .inboundDeltaFragment f) := by
  obtain ⟨f, hf, heq⟩ := List.mem_map.mp (h.subset (List.mem_map_of_mem harrival))
  exact ⟨f, hf, Prod.ext rfl heq.symm⟩

theorem emitted_of_sound {parts : List DeltaFragment} {id : DeltaId} {bytes : Bytes}
    (hparts : Sound parts id bytes) (hcount : parts.length ≤ maxFragmentsPerDelta)
    {receiver : MeshTransport} (hempty : receiver.reassemblyBuffer = .empty)
    {arrivals : List (HashOrder × GossipMessage)}
    (h : (arrivals.map Prod.snd).Perm (parts.map .inboundDeltaFragment)) :
    emitted (processed lib) receiver arrivals =
      ((lib.parseDelta bytes).map GossipMessage.inboundDelta).toList := by
  have hmap := h.map (fragmentOf ⟨0, 0, 0, []⟩)
  rw [List.map_map, List.map_map] at hmap
  have hperm : (arrivals.map fun a => fragmentOf ⟨0, 0, 0, []⟩ a.2).Perm parts := by
    refine hmap.trans (.of_eq ?_)
    exact (List.map_congr_left fun f _ => rfl).trans (List.map_id parts)
  have hstep : ∀ (t : MeshTransport) (s : Option (Slots DeltaFragment))
      (a : HashOrder × GossipMessage), (∃ f ∈ parts, a = (a.1, .inboundDeltaFragment f)) →
      Follows id parts.length t s →
      (processed lib t a).2 = (accept (fun f : DeltaFragment => f.fragmentIndex.toNat) parts.length s
          (fragmentOf ⟨0, 0, 0, []⟩ a.2)).2.flatMap (assembledMessages lib id) ∧
        Follows id parts.length (processed lib t a).1
          (accept (fun f : DeltaFragment => f.fragmentIndex.toNat) parts.length s
            (fragmentOf ⟨0, 0, 0, []⟩ a.2)).1 := by
    rintro t s ⟨hash, msg⟩ ⟨f, hf, heq⟩ hs
    cases heq
    exact follows_processed hcount t s hash
      ⟨hparts.deltaId f hf, hparts.total f hf, hparts.numbered.index_lt hf⟩ hs
  have hsimulation := emitted_of_simulation (Follows id parts.length) hstep
    (fun a ha => exists_fragment_of_perm h ha)
    (show Follows id parts.length receiver none from ⟨by rw [hempty]; rfl, by simp⟩)
  rw [hsimulation, hparts.numbered.emitted_perm hparts.nonempty hperm]
  simp only [List.flatMap_cons, List.flatMap_nil, List.append_nil, assembledMessages,
    hparts.reassemble]

theorem emitted_of_refused {receiver : MeshTransport} {fragments : List DeltaFragment}
    (hmany : ∀ f ∈ fragments, maxFragmentsPerDelta < f.totalFragments.toNat)
    {arrivals : List (HashOrder × GossipMessage)}
    (h : (arrivals.map Prod.snd).Perm (fragments.map .inboundDeltaFragment)) :
    emitted (processed lib) receiver arrivals = [] := by
  apply emitted_eq_nil
  intro t arrival harrival
  obtain ⟨f, hf, heq⟩ := exists_fragment_of_perm h harrival
  rw [heq, processed_fragment]
  simp only [ReassemblyBuffer.addFragment, if_pos (hmany f hf)]

/-- An assembly has no more slots than the receiver allows, and none of its fragments is longer than
the mtu. -/
def Light (mtu : ℕ) (b : ReassemblyBuffer) : Prop :=
  ∀ id slots, b.pending.lookup id = some slots → slots.length ≤ maxFragmentsPerDelta ∧
    ∀ f, some f ∈ slots → f.payload.length ≤ mtu

theorem length_flatMap_payload_le {fragments : List DeltaFragment} {mtu : ℕ}
    (hmtu : ∀ f ∈ fragments, f.payload.length ≤ mtu) :
    (fragments.flatMap DeltaFragment.payload).length ≤ fragments.length * mtu := by
  induction fragments with
  | nil => simp
  | cons f fragments ih =>
    have hrest := ih fun g hg => hmtu g (List.mem_cons_of_mem f hg)
    have hone := hmtu f List.mem_cons_self
    rw [List.flatMap_cons, List.length_append, List.length_cons, Nat.succ_mul]
    omega

theorem length_reassemble_le {fragments : List DeltaFragment} {senderDid : Did} {bytes : Bytes}
    {mtu : ℕ} (hmtu : ∀ f ∈ fragments, f.payload.length ≤ mtu)
    (h : reassemble fragments senderDid = .ok bytes) : bytes.length ≤ fragments.length * mtu := by
  unfold reassemble at h
  cases fragments with
  | nil => cases h
  | cons first rest =>
    simp only at h
    split_ifs at h
    cases h
    have hperm := List.perm_insertionSort
      (fun f g : DeltaFragment => f.fragmentIndex ≤ g.fragmentIndex) (first :: rest)
    rw [← hperm.length_eq]
    exact length_flatMap_payload_le fun f hf => hmtu f (hperm.subset hf)

theorem light_makeRoom {mtu : ℕ} {b : ReassemblyBuffer} (h : Light mtu b) (hash : HashOrder)
    (id : DeltaId) : Light mtu (b.makeRoom hash id) := by
  unfold ReassemblyBuffer.makeRoom
  split_ifs
  · cases (hash.order b.pending.keys).argmin b.filledSlots with
    | none => exact h
    | some evicted =>
      intro other slots hslots
      by_cases hother : other = evicted
      · subst hother
        rw [AList.lookup_erase] at hslots
        cases hslots
      · rw [AList.lookup_erase_ne hother] at hslots
        exact h other slots hslots
  · exact h

/-- What an arrival leaves in the buffer, and what it returns, is bounded. -/
theorem light_addFragment {mtu : ℕ} {b : ReassemblyBuffer} (h : Light mtu b) (hash : HashOrder)
    {f : DeltaFragment} (hf : f.payload.length ≤ mtu) (senderDid : Did) :
    Light mtu (b.addFragment hash f senderDid).2 ∧
      ∀ bytes, (b.addFragment hash f senderDid).1 = .ok (some bytes) →
        bytes.length ≤ maxFragmentsPerDelta * mtu := by
  have hroom := light_makeRoom h hash f.deltaId
  unfold ReassemblyBuffer.addFragment
  dsimp only
  split_ifs with hmany hindex hlength hall
  · exact ⟨h, fun bytes hbytes => by cases hbytes⟩
  · exact ⟨h, fun bytes hbytes => by cases hbytes⟩
  · exact ⟨hroom, fun bytes hbytes => by cases hbytes⟩
  all_goals
    rw [not_not] at hlength
    generalize b.makeRoom hash f.deltaId = b' at hroom hlength hall ⊢
    have hslots : ∀ g, some g ∈ ((b'.pending.lookup f.deltaId).getD
        (emptySlots f.totalFragments.toNat)).set f.fragmentIndex.toNat (some f) →
        g.payload.length ≤ mtu := by
      intro g hg
      rcases List.mem_or_eq_of_mem_set hg with hold | hnew
      · cases hlookup : b'.pending.lookup f.deltaId with
        | none =>
          rw [hlookup] at hold
          simp [emptySlots] at hold
        | some slots =>
          rw [hlookup] at hold
          exact (hroom f.deltaId slots hlookup).2 g hold
      · cases hnew
        exact hf
  · refine ⟨fun id slots hslots' => ?_, fun bytes hbytes => ?_⟩
    · by_cases hid : id = f.deltaId
      · subst hid
        rw [AList.lookup_erase] at hslots'
        cases hslots'
      · rw [AList.lookup_erase_ne hid] at hslots'
        exact hroom id slots hslots'
    · cases hreassemble : reassemble (((b'.pending.lookup f.deltaId).getD
        (emptySlots f.totalFragments.toNat)).set f.fragmentIndex.toNat (some f) |>.filterMap id)
          senderDid with
      | error e =>
        rw [hreassemble] at hbytes
        cases hbytes
      | ok assembled =>
        rw [hreassemble] at hbytes
        cases hbytes
        have hpayloads := length_reassemble_le (fun g hg => hslots g (by simpa using hg)) hreassemble
        have hcount := List.length_filterMap_le id (((b'.pending.lookup f.deltaId).getD
          (emptySlots f.totalFragments.toNat)).set f.fragmentIndex.toNat (some f))
        rw [List.length_set, hlength] at hcount
        exact hpayloads.trans (Nat.mul_le_mul_right mtu (hcount.trans (not_lt.mp hmany)))
  · refine ⟨fun id slots hslots' => ?_, fun bytes hbytes => by cases hbytes⟩
    by_cases hid : id = f.deltaId
    · subst hid
      rw [AList.lookup_insert] at hslots'
      cases hslots'
      exact ⟨by rw [List.length_set, hlength]; exact not_lt.mp hmany, hslots⟩
    · rw [AList.lookup_insert_ne hid] at hslots'
      exact hroom id slots hslots'

/-- Every Delta that comes out of fragments was parsed from a bounded text. -/
theorem exists_text_of_emitted {mtu : ℕ} {fragments : List DeltaFragment}
    (hmtu : ∀ f ∈ fragments, f.payload.length ≤ mtu) {receiver : MeshTransport}
    (hlight : Light mtu receiver.reassemblyBuffer) {arrivals : List (HashOrder × GossipMessage)}
    (h : ∀ a ∈ arrivals, ∃ f ∈ fragments, a = (a.1, .inboundDeltaFragment f)) {δ : Delta}
    (hδ : .inboundDelta δ ∈ emitted (processed lib) receiver arrivals) :
    ∃ bytes, bytes.length ≤ maxFragmentsPerDelta * mtu ∧ lib.parseDelta bytes = some δ := by
  induction arrivals generalizing receiver with
  | nil => cases hδ
  | cons arrival arrivals ih =>
    obtain ⟨f, hf, heq⟩ := h arrival List.mem_cons_self
    obtain ⟨hnext, hbytes⟩ := light_addFragment hlight arrival.1 (hmtu f hf)
      ("fragment-delta-" ++ f.deltaId.toHex)
    rw [emitted_cons, List.mem_append, heq, processed_fragment] at hδ
    rcases hδ with hnow | hlater
    · dsimp only at hnow
      split at hnow
      · rename_i bytes hresult
        refine ⟨bytes, hbytes bytes hresult, ?_⟩
        simpa using hnow
      · cases hnow
    · exact ih hnext (fun a ha => h a (List.mem_cons_of_mem arrival ha)) hlater

theorem length_payload_le {id : DeltaId} {bytes : Bytes} {mtu : ℕ} {f : DeltaFragment}
    (hf : f ∈ fragment id bytes mtu) : f.payload.length ≤ mtu := by
  unfold fragment at hf
  split_ifs at hf with hne
  · cases hf
  · obtain ⟨⟨piece, i⟩, hpiece, rfl⟩ := List.mem_map.mp hf
    obtain ⟨-, hget⟩ := List.mem_zipIdx' hpiece
    have hmem : piece ∈ chunks mtu bytes := by
      rw [hget]
      exact List.getElem_mem _
    obtain ⟨k, -, rfl⟩ := List.mem_map.mp hmem
    simp

def listed (messages : List GossipMessage) : List (HashOrder × GossipMessage) :=
  messages.map fun msg => (asListed, msg)

theorem map_snd_listed (messages : List GossipMessage) :
    (listed messages).map Prod.snd = messages := by
  simp [listed]

/-- Sender and receiver agree on a Delta exactly when its text fills at most 4096 fragments. -/
theorem agrees_iff_length_le {sender : MeshTransport} {δ : Delta}
    (hmtu : 0 < sender.mtu ∧ sender.mtu < 256)
    (hparse : lib.parseDelta (lib.serialiseDelta δ) = some δ) (hne : lib.serialiseDelta δ ≠ [])
    (hcompact : ∀ bytes, lib.parseDelta bytes = some δ →
      (lib.serialiseDelta δ).length ≤ 1000 * bytes.length) :
    Agrees lib sender δ ↔
      (lib.serialiseDelta δ).length ≤ maxFragmentsPerDelta * sender.mtu := by
  have hzero : sender.mtu ≠ 0 := by omega
  have hprepared : sender.prepareOutbound lib δ =
      (fragment δ.id (lib.serialiseDelta δ) sender.mtu).map .inboundDeltaFragment := by
    rw [MeshTransport.prepareOutbound, if_pos hmtu]
  have hlength := length_fragment δ.id hne hzero
  rw [← length_chunks_le hmtu.1, ← hlength]
  constructor
  · intro h
    by_contra hmany
    rw [not_le] at hmany
    have hperm : ((listed (sender.prepareOutbound lib δ)).map Prod.snd).Perm
        (sender.prepareOutbound lib δ) := .of_eq (map_snd_listed _)
    have hin := h { sender with reassemblyBuffer := .empty } rfl
      (listed (sender.prepareOutbound lib δ)) hperm
    rw [hprepared] at hperm hin
    by_cases hword : (fragment δ.id (lib.serialiseDelta δ) sender.mtu).length < 2 ^ 32
    · have hrefused := @emitted_of_refused lib { sender with reassemblyBuffer := .empty }
        (fragment δ.id (lib.serialiseDelta δ) sender.mtu) (fun f hf => by
          rw [(mem_fragment hne hzero hf).2, UInt32.toNat_ofNat', ← hlength,
            Nat.mod_eq_of_lt hword]
          exact hmany)
        _ hperm
      rw [hrefused] at hin
      cases hin
    · obtain ⟨bytes, hbytes, hδ⟩ := @exists_text_of_emitted lib sender.mtu
        (fragment δ.id (lib.serialiseDelta δ) sender.mtu) (fun f hf => length_payload_le hf)
        { sender with reassemblyBuffer := .empty } (fun id slots hslots => by cases hslots)
        _ (fun a ha => exists_fragment_of_perm hperm ha) δ (by rw [hin]; exact List.mem_cons_self)
      have hshort := hcompact bytes hδ
      have hlong := mt (length_chunks_le hmtu.1 (lib.serialiseDelta δ) (2 ^ 32 - 1)).mpr
        (by omega)
      simp only [maxFragmentsPerDelta] at hbytes
      have hpos := hmtu.1
      rw [not_le] at hlong
      omega
  · intro hcount receiver hempty arrivals harrivals
    rw [hprepared] at harrivals
    rw [emitted_of_sound (sound_fragment hne hzero hcount) hcount hempty harrivals, hparse]
    rfl

section Sample
open CrdtEngine

/-- The JSON text of a Delta with these Automerge bytes and the other fields of `sampleDelta`. -/
def jsonOf (automergeBytes : Bytes) : Bytes :=
  asciiBytes "\x7b\"id\":" ++ jsonArray (List.replicate 32 0) ++ asciiBytes ",\"author_did\":\"" ++
    asciiBytes sampleDid₁ ++ asciiBytes "\",\"signature\":" ++ jsonArray (List.replicate 64 0) ++
    asciiBytes ",\"schema_hash\":" ++ jsonArray (List.replicate 32 0) ++
    asciiBytes ",\"automerge_bytes\":" ++ jsonArray automergeBytes ++
    asciiBytes ",\"priority\":\"Low\",\"causal_parents\":[],\"tags\":[],\"lamport\":1," ++
    asciiBytes "\"created_at\":0\x7d"

def sampleOf (automergeBytes : Bytes) : Delta := { sampleDelta with automergeBytes }

def wireOf (automergeBytes : Bytes) : WireLibraries where
  serialiseDelta _ := jsonOf automergeBytes
  parseDelta bytes := if bytes = jsonOf automergeBytes then some (sampleOf automergeBytes) else none
  toBytes _ := []
  fromBytes _ := none

theorem jsonOf_ne_nil (automergeBytes : Bytes) : jsonOf automergeBytes ≠ [] := by
  simp [jsonOf, asciiBytes]

theorem parse_wireOf (automergeBytes : Bytes) :
    (wireOf automergeBytes).parseDelta ((wireOf automergeBytes).serialiseDelta
      (sampleOf automergeBytes)) = some (sampleOf automergeBytes) := by
  simp only [wireOf, if_true]

theorem compact_wireOf (automergeBytes bytes : Bytes)
    (h : (wireOf automergeBytes).parseDelta bytes = some (sampleOf automergeBytes)) :
    ((wireOf automergeBytes).serialiseDelta (sampleOf automergeBytes)).length ≤
      1000 * bytes.length := by
  simp only [wireOf] at h ⊢
  split_ifs at h with heq
  rw [heq]
  omega

def sampleNarrow : MeshTransport := { sampleSender ⟨4, ∅⟩ with mtu := 1 }

theorem agrees_iff_length_le_sample : Agrees (wireOf [1, 2, 3]) sampleNarrow (sampleOf [1, 2, 3]) :=
  (agrees_iff_length_le ⟨by decide, by decide⟩ (parse_wireOf _) (jsonOf_ne_nil _)
    (compact_wireOf _)).mpr (by decide +kernel)

theorem long_delta_refused :
    ¬Agrees (wireOf (List.replicate 950 255)) sampleNarrow (sampleOf (List.replicate 950 255)) := by
  intro h
  have hlength : (jsonOf (List.replicate 950 255)).length = 4260 := by decide +kernel
  have hprepared : sampleNarrow.prepareOutbound (wireOf (List.replicate 950 255))
      (sampleOf (List.replicate 950 255)) =
        (fragment 0 (jsonOf (List.replicate 950 255)) 1).map .inboundDeltaFragment := by
    rw [MeshTransport.prepareOutbound, if_pos ⟨by decide, by decide⟩]
    rfl
  have hchunks : (chunks 1 (jsonOf (List.replicate 950 255))).length =
      (jsonOf (List.replicate 950 255)).length := by
    rw [length_chunks]
    omega
  have hin := h { sampleNarrow with reassemblyBuffer := .empty } rfl
    (listed ((fragment 0 (jsonOf (List.replicate 950 255)) 1).map .inboundDeltaFragment))
    (.of_eq (by rw [hprepared, map_snd_listed]))
  have hrefused := @emitted_of_refused (wireOf (List.replicate 950 255))
    { sampleNarrow with reassemblyBuffer := .empty }
    (fragment 0 (jsonOf (List.replicate 950 255)) 1) (fun f hf => by
      rw [(mem_fragment (jsonOf_ne_nil _) one_ne_zero hf).2, UInt32.toNat_ofNat', hchunks,
        hlength]
      decide)
    (listed ((fragment 0 (jsonOf (List.replicate 950 255)) 1).map .inboundDeltaFragment))
    (.of_eq (map_snd_listed _))
  rw [hrefused] at hin
  cases hin

end Sample

end TirBase.FragmentLimits
