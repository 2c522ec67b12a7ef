import TirBase.MeshTransport

/-! # Delivery of a published write

A write publishes its Delta with its own DID as the destination. Whether other devices merge the
Delta depends on what the peer table holds for that DID and on the number of fragments. -/
namespace TirBase.PublishedDelivery
open TransitionRuns SlotAssembly MeshTransport

variable {lib : WireLibraries}

/-- The payloads that publishing adds to the channel of the Swarm task make every other device,
in whatever order they arrive, call `apply` on exactly this Delta. -/
def ReachesMergePath (lib : WireLibraries) (sender : MeshTransport) (ownDid : Did) (δ : Delta) :
    Prop :=
  ∀ published, (sender.sendDelta lib ownDid δ).2.outboundPayloads =
      sender.outboundPayloads ++ published →
    ∀ receiver : MeshTransport, receiver.localDid ≠ ownDid →
      receiver.reassemblyBuffer.pending.lookup δ.id = none →
      ∀ arrivals : List Arrival, (arrivals.map Arrival.payload).Perm published →
        receivedCalls lib receiver arrivals = [.applyDelta δ]

/-- The own DID leads neither to a BLE bridge nor to a relay, and the receiver takes that many
fragments. -/
structure Routable (lib : WireLibraries) (sender : MeshTransport) (ownDid : Did) (δ : Delta) :
    Prop where
  notBle : sender.isBlePeer ownDid = false
  notRelayed : sender.discovery.isDirectNeighbor ownDid = true ∨
    sender.discovery.findRelayPeer ownDid = none
  fragments : 0 < sender.mtu → sender.mtu < 256 →
    (lib.serialiseDelta δ).length ≤ maxFragmentsPerDelta * sender.mtu

theorem length_chunks_le {size : ℕ} (hsize : 0 < size) (bytes : Bytes) (count : ℕ) :
    (chunks size bytes).length ≤ count ↔ bytes.length ≤ count * size := by
  rw [length_chunks, ← Nat.lt_succ_iff, Nat.div_lt_iff_lt_mul hsize, Nat.succ_mul]
  omega

theorem outboundPayloads_sendOnOutbound {t : MeshTransport} {messages : List GossipMessage}
    (h : (t.sendOnOutbound lib messages).1 = .ok ()) :
    (t.sendOnOutbound lib messages).2.outboundPayloads =
      t.outboundPayloads ++ messages.map lib.toBytes := by
  unfold sendOnOutbound at h ⊢
  cases htx : t.outboundTx with
  | none => simp [htx] at h
  | some tx =>
    rw [htx] at h
    have hsend := Channel.payloads_of_sendAll h
    simpa [outboundPayloads, htx] using hsend

theorem outboundPayloads_sendOnBle (t : MeshTransport) (messages : List GossipMessage) :
    (t.sendOnBle lib messages).2.outboundPayloads = t.outboundPayloads := by
  unfold sendOnBle
  cases t.bleOutboundTx <;> rfl

def publishedMessages (lib : WireLibraries) (t : MeshTransport) (ownDid : Did) (δ : Delta) :
    List GossipMessage :=
  if t.isBlePeer ownDid then []
  else if t.discovery.isDirectNeighbor ownDid = false ∧
      (t.discovery.findRelayPeer ownDid).isSome then [.relayDelta ownDid δ]
  else t.prepareOutbound lib δ

theorem outboundPayloads_sendDelta {t : MeshTransport} {ownDid : Did} {δ : Delta}
    (h : (t.sendDelta lib ownDid δ).1 = .ok ()) :
    (t.sendDelta lib ownDid δ).2.outboundPayloads =
      t.outboundPayloads ++ (publishedMessages lib t ownDid δ).map lib.toBytes := by
  unfold sendDelta publishedMessages at *
  split_ifs at h ⊢ with hble hrelay
  · simpa using outboundPayloads_sendOnBle t (t.prepareOutbound lib δ)
  · exact outboundPayloads_sendOnOutbound h
  · exact outboundPayloads_sendOnOutbound h

/-- A single message, whatever the hash order. -/
theorem receivedCalls_single {t : MeshTransport} {msg : GossipMessage} {arrivals : List Arrival}
    (hmsg : lib.fromBytes (lib.toBytes msg) = some msg)
    (h : (arrivals.map Arrival.payload).Perm ([msg].map lib.toBytes)) :
    ∃ arrival : Arrival, lib.fromBytes arrival.payload = some msg ∧
      receivedCalls lib t arrivals = (swarmTurn lib t arrival).2.filterMap inboundCall := by
  have hsingle : arrivals.map Arrival.payload = [lib.toBytes msg] := h.eq_singleton
  obtain ⟨arrival, rfl, hpayload⟩ := List.map_eq_singleton_iff.mp hsingle
  exact ⟨arrival, by rw [hpayload, hmsg], by simp [receivedCalls]⟩

def fragmentIn (lib : WireLibraries) (default : DeltaFragment) (payload : Bytes) :
    DeltaFragment :=
  match lib.fromBytes payload with
  | some (.inboundDeltaFragment f) => f
  | _ => default

theorem fragmentIn_of_fromBytes {default f : DeltaFragment} {payload : Bytes}
    (h : lib.fromBytes payload = some (.inboundDeltaFragment f)) :
    fragmentIn lib default payload = f := by
  simp only [fragmentIn, h]

structure Carries (lib : WireLibraries) (fragments : List DeltaFragment)
    (arrivals : List Arrival) : Prop where
  payload : ∀ arrival ∈ arrivals, ∃ f ∈ fragments,
    lib.fromBytes arrival.payload = some (.inboundDeltaFragment f)
  perm : ∀ default,
    (arrivals.map fun arrival => fragmentIn lib default arrival.payload).Perm fragments

theorem carries_of_perm {fragments : List DeltaFragment} {arrivals : List Arrival}
    (hparse : ∀ f ∈ fragments, lib.fromBytes (lib.toBytes (.inboundDeltaFragment f)) =
      some (.inboundDeltaFragment f))
    (h : (arrivals.map Arrival.payload).Perm
      ((fragments.map GossipMessage.inboundDeltaFragment).map lib.toBytes)) :
    Carries lib fragments arrivals := by
  rw [List.map_map] at h
  constructor
  · intro arrival harrival
    obtain ⟨f, hf, heq⟩ := List.mem_map.mp (h.subset (List.mem_map_of_mem harrival))
    exact ⟨f, hf, by rw [← heq]; exact hparse f hf⟩
  · intro default
    have hmap := h.map (fragmentIn lib default)
    rw [List.map_map, List.map_map] at hmap
    refine hmap.trans (.of_eq ?_)
    conv_rhs => rw [← List.map_id fragments]
    exact List.map_congr_left fun f hf => fragmentIn_of_fromBytes (hparse f hf)

/-- The slots of one Delta in the buffer follow an assembly of numbered parts. -/
def Follows (id : DeltaId) (total : ℕ) (t : MeshTransport)
    (s : Option (Slots DeltaFragment)) : Prop :=
  t.reassemblyBuffer.pending.lookup id = s ∧ ∀ slots, s = some slots → slots.length = total

def assembledMessages (lib : WireLibraries) (id : DeltaId) (fragments : List DeltaFragment) :
    List GossipMessage :=
  match reassemble fragments ("fragment-delta-" ++ id.toHex) with
  | .ok bytes => ((lib.parseDelta bytes).map GossipMessage.inboundDelta).toList
  | .error _ => []

def CarriesPart (lib : WireLibraries) (id : DeltaId) (total : ℕ) (arrival : Arrival) : Prop :=
  ∃ f : DeltaFragment, (f.deltaId = id ∧ f.totalFragments.toNat = total ∧
    f.fragmentIndex.toNat < total) ∧
    lib.fromBytes arrival.payload = some (.inboundDeltaFragment f)

/-- One message through the wire handling, with the order of the buffer's hash map then. -/
def processed (lib : WireLibraries) (t : MeshTransport) (arrival : HashOrder × GossipMessage) :
    MeshTransport × List GossipMessage :=
  let out := t.processWireMessage lib arrival.1 arrival.2
  (out.1, out.2.toList)

theorem processed_fragment (t : MeshTransport) (hash : HashOrder) (f : DeltaFragment) :
    processed lib t (hash, .inboundDeltaFragment f) =
      let out := t.reassemblyBuffer.addFragment hash f ("fragment-delta-" ++ f.deltaId.toHex)
      ({ t with reassemblyBuffer := out.2 },
        match out.1 with
        | .ok (some bytes) => ((lib.parseDelta bytes).map GossipMessage.inboundDelta).toList
        | _ => []) := by
  simp only [processed, processWireMessage]
  rcases t.reassemblyBuffer.addFragment hash f ("fragment-delta-" ++ f.deltaId.toHex) with
    ⟨e | bytes, b⟩
  · rfl
  · cases bytes <;> rfl

theorem follows_processed {id : DeltaId} {total : ℕ} (hmax : total ≤ maxFragmentsPerDelta)
    (t : MeshTransport) (s : Option (Slots DeltaFragment)) (hash : HashOrder) {f : DeltaFragment}
    (hf : f.deltaId = id ∧ f.totalFragments.toNat = total ∧ f.fragmentIndex.toNat < total)
    (hs : Follows id total t s) :
    (processed lib t (hash, .inboundDeltaFragment f)).2 =
        (accept (fun f : DeltaFragment => f.fragmentIndex.toNat) total s f).2.flatMap
          (assembledMessages lib id) ∧
      Follows id total (processed lib t (hash, .inboundDeltaFragment f)).1
        (accept (fun f : DeltaFragment => f.fragmentIndex.toNat) total s f).1 := by
  obtain ⟨rfl, htotal, hindex⟩ := hf
  obtain ⟨rfl, hlength⟩ := hs
  rw [processed_fragment]
  obtain ⟨hlookup, hresult⟩ := ReassemblyBuffer.addFragment_eq_accept htotal hindex hmax hlength
    hash ("fragment-delta-" ++ f.deltaId.toHex)
  refine ⟨?_, hlookup, fun slots h => length_accept hlength f h⟩
  simp only [hresult]
  simp only [accept]
  split_ifs
  · simp only [List.flatMap_cons, List.flatMap_nil, List.append_nil, assembledMessages]
    cases reassemble _ _ <;> rfl
  · rfl

theorem follows_step {id : DeltaId} {total : ℕ}
    (hmax : total ≤ maxFragmentsPerDelta) (default : DeltaFragment) (t : MeshTransport)
    (s : Option (Slots DeltaFragment)) (arrival : Arrival)
    (harrival : CarriesPart lib id total arrival) (hs : Follows id total t s) :
    (swarmTurn lib t arrival).2 = (accept (fun f : DeltaFragment => f.fragmentIndex.toNat) total
        s (fragmentIn lib default arrival.payload)).2.flatMap (assembledMessages lib id) ∧
      Follows id total (swarmTurn lib t arrival).1
        (accept (fun f : DeltaFragment => f.fragmentIndex.toNat) total s
          (fragmentIn lib default arrival.payload)).1 := by
  obtain ⟨f, hf, hpayload⟩ := harrival
  have hprocessed := @follows_processed lib id total hmax t s arrival.hash f hf hs
  rw [processed_fragment] at hprocessed
  rw [swarmTurn_fragment t hpayload, fragmentIn_of_fromBytes hpayload]
  exact hprocessed

/-- The fragments of a payload, in any order, give the payload exactly once. -/
theorem emitted_fragments {id : DeltaId} {bytes : Bytes} {mtu : ℕ}
    (hbytes : bytes ≠ []) (hmtu : mtu ≠ 0)
    (hcount : (chunks mtu bytes).length ≤ maxFragmentsPerDelta) {t : MeshTransport}
    (hfresh : t.reassemblyBuffer.pending.lookup id = none) {arrivals : List Arrival}
    (h : Carries lib (fragment id bytes mtu) arrivals) :
    emitted (swarmTurn lib) t arrivals =
      ((lib.parseDelta bytes).map GossipMessage.inboundDelta).toList := by
  have hnumbered := numbered_fragment id hbytes hmtu hcount
  have hlength := length_fragment id hbytes hmtu
  have hne : fragment id bytes mtu ≠ [] := by
    intro hnil
    rw [hnil] at hlength
    exact chunks_ne_nil hmtu hbytes (List.length_eq_zero_iff.mp hlength.symm)
  have htotal : (UInt32.ofNat (chunks mtu bytes).length).toNat = (chunks mtu bytes).length := by
    simp only [UInt32.toNat_ofNat', maxFragmentsPerDelta] at hcount ⊢
    exact Nat.mod_eq_of_lt (by omega)
  have hparts : ∀ arrival ∈ arrivals, CarriesPart lib id (fragment id bytes mtu).length arrival := by
    intro arrival harrival
    obtain ⟨f, hf, hpayload⟩ := h.payload arrival harrival
    obtain ⟨hid, hf'⟩ := mem_fragment hbytes hmtu hf
    exact ⟨f, ⟨hid, by rw [hf', htotal, hlength], hnumbered.index_lt hf⟩, hpayload⟩
  have hreassemble := reassemble_of_numbered hne
    (fun f hf => mem_fragment hbytes hmtu hf) (by rw [hlength, htotal]) hnumbered
    ("fragment-delta-" ++ id.toHex)
  have hsimulation := emitted_of_simulation (Follows id (fragment id bytes mtu).length)
    (follows_step (hlength ▸ hcount) ⟨0, 0, 0, []⟩) hparts
    (show Follows id _ t none from ⟨hfresh, by simp⟩)
  rw [hsimulation, hnumbered.emitted_perm hne (h.perm _)]
  simp only [List.flatMap_cons, List.flatMap_nil, List.append_nil, assembledMessages,
    hreassemble, payload_fragment hbytes hmtu]

/-- Of a payload cut into too many fragments nothing is ever passed on. -/
theorem emitted_too_many {id : DeltaId} {bytes : Bytes} {mtu : ℕ}
    (hbytes : bytes ≠ []) (hmtu : mtu ≠ 0)
    (hcount : maxFragmentsPerDelta < (chunks mtu bytes).length)
    (hword : (chunks mtu bytes).length < 2 ^ 32) (t : MeshTransport) {arrivals : List Arrival}
    (h : Carries lib (fragment id bytes mtu) arrivals) :
    emitted (swarmTurn lib) t arrivals = [] := by
  apply emitted_eq_nil
  intro t arrival harrival
  obtain ⟨f, hf, hpayload⟩ := h.payload arrival harrival
  obtain ⟨-, htotal⟩ := mem_fragment hbytes hmtu hf
  have hmany : maxFragmentsPerDelta < f.totalFragments.toNat := by
    rw [htotal, UInt32.toNat_ofNat', Nat.mod_eq_of_lt hword]
    exact hcount
  rw [swarmTurn_fragment t hpayload]
  simp only [ReassemblyBuffer.addFragment, if_pos hmany]

theorem reachesMergePath_iff {sender : MeshTransport} {ownDid : Did} {δ : Delta}
    (hsend : (sender.sendDelta lib ownDid δ).1 = .ok ()) :
    ReachesMergePath lib sender ownDid δ ↔
      ∀ receiver : MeshTransport, receiver.localDid ≠ ownDid →
        receiver.reassemblyBuffer.pending.lookup δ.id = none → ∀ arrivals : List Arrival,
          (arrivals.map Arrival.payload).Perm
            ((publishedMessages lib sender ownDid δ).map lib.toBytes) →
          receivedCalls lib receiver arrivals = [.applyDelta δ] := by
  unfold ReachesMergePath
  rw [outboundPayloads_sendDelta hsend]
  constructor
  · intro h
    exact h _ rfl
  · intro h published hpublished
    rw [← List.append_cancel_left hpublished]
    exact h

theorem receivedCalls_prepared {sender : MeshTransport} {δ : Delta}
    (hlib : lib.RoundTrips δ (sender.prepareOutbound lib δ))
    (hfragments : 0 < sender.mtu → sender.mtu < 256 →
      (lib.serialiseDelta δ).length ≤ maxFragmentsPerDelta * sender.mtu)
    {receiver : MeshTransport} (hfresh : receiver.reassemblyBuffer.pending.lookup δ.id = none)
    {arrivals : List Arrival} (h : (arrivals.map Arrival.payload).Perm
      ((sender.prepareOutbound lib δ).map lib.toBytes)) :
    receivedCalls lib receiver arrivals = [.applyDelta δ] := by
  have hparse := hlib.fromBytes_toBytes
  unfold prepareOutbound at h hparse
  split_ifs at h hparse with hmtu
  · have hcount := (length_chunks_le hmtu.1 _ _).mpr (hfragments hmtu.1 hmtu.2)
    have hcarries := carries_of_perm (fun f hf => hparse _ (List.mem_map_of_mem hf)) h
    have hemitted := emitted_fragments hlib.serialiseDelta_ne_nil (by omega) hcount hfresh hcarries
    rw [receivedCalls, hemitted, hlib.parseDelta_serialiseDelta]
    rfl
  · obtain ⟨arrival, hpayload, hcalls⟩ := receivedCalls_single (hparse _ (by simp)) h
    rw [hcalls, swarmTurn_delta _ hpayload]
    rfl

theorem receivedCalls_too_many {sender : MeshTransport} {δ : Delta}
    (hlib : lib.RoundTrips δ (sender.prepareOutbound lib δ))
    (hmtu : 0 < sender.mtu ∧ sender.mtu < 256)
    (hlength : maxFragmentsPerDelta * sender.mtu < (lib.serialiseDelta δ).length)
    (hword : (lib.serialiseDelta δ).length < 2 ^ 32) (receiver : MeshTransport)
    {arrivals : List Arrival} (h : (arrivals.map Arrival.payload).Perm
      ((sender.prepareOutbound lib δ).map lib.toBytes)) :
    receivedCalls lib receiver arrivals = [] := by
  have hparse := hlib.fromBytes_toBytes
  rw [prepareOutbound, if_pos hmtu] at h hparse
  have hcount : maxFragmentsPerDelta < (chunks sender.mtu (lib.serialiseDelta δ)).length := by
    by_contra hle
    have hle := (length_chunks_le hmtu.1 _ _).mp (not_lt.mp hle)
    omega
  have hbound : (chunks sender.mtu (lib.serialiseDelta δ)).length < 2 ^ 32 := by
    have hle := (length_chunks_le hmtu.1 (lib.serialiseDelta δ) _).mpr
      (Nat.le_mul_of_pos_right _ hmtu.1)
    omega
  rw [receivedCalls, emitted_too_many hlib.serialiseDelta_ne_nil (by omega) hcount hbound
    receiver (carries_of_perm (fun f hf => hparse _ (List.mem_map_of_mem hf)) h)]
  rfl

theorem publishedMessages_of_routable {sender : MeshTransport} {ownDid : Did} {δ : Delta}
    (h : Routable lib sender ownDid δ) :
    publishedMessages lib sender ownDid δ = sender.prepareOutbound lib δ := by
  have hrelay : ¬(sender.discovery.isDirectNeighbor ownDid = false ∧
      (sender.discovery.findRelayPeer ownDid).isSome) := by
    rintro ⟨hdirect, hsome⟩
    rcases h.notRelayed with hneighbor | hnone
    · rw [hneighbor] at hdirect
      cases hdirect
    · rw [hnone] at hsome
      cases hsome
  rw [publishedMessages, if_neg (by rw [h.notBle]; exact Bool.false_ne_true), if_neg hrelay]

theorem reachesMergePath_of_routable {sender : MeshTransport} {ownDid : Did} {δ : Delta}
    (hlib : lib.RoundTrips δ (publishedMessages lib sender ownDid δ))
    (hsend : (sender.sendDelta lib ownDid δ).1 = .ok ())
    (h : Routable lib sender ownDid δ) : ReachesMergePath lib sender ownDid δ := by
  rw [reachesMergePath_iff hsend]
  rw [publishedMessages_of_routable h] at hlib ⊢
  intro receiver _ hfresh arrivals hperm
  exact receivedCalls_prepared hlib h.fragments hfresh hperm

def otherDevice (sender : MeshTransport) (ownDid : Did) : MeshTransport :=
  { sender with reassemblyBuffer := ReassemblyBuffer.empty, localDid := ownDid ++ "'" }

theorem otherDevice_localDid (sender : MeshTransport) (ownDid : Did) :
    (otherDevice sender ownDid).localDid ≠ ownDid := by
  intro h
  have hlength := congrArg String.length h
  simp [otherDevice] at hlength

def inOrder (lib : WireLibraries) (messages : List GossipMessage) : List Arrival :=
  messages.map fun msg => ⟨⟨id, fun l => .refl l⟩, lib.toBytes msg⟩

theorem payload_inOrder (lib : WireLibraries) (messages : List GossipMessage) :
    (inOrder lib messages).map Arrival.payload = messages.map lib.toBytes := by
  simp [inOrder]

theorem routable_of_reachesMergePath {sender : MeshTransport} {ownDid : Did} {δ : Delta}
    (hlib : lib.RoundTrips δ (publishedMessages lib sender ownDid δ))
    (hsend : (sender.sendDelta lib ownDid δ).1 = .ok ())
    (hword : (lib.serialiseDelta δ).length < 2 ^ 32)
    (h : ReachesMergePath lib sender ownDid δ) : Routable lib sender ownDid δ := by
  have hreceived := (reachesMergePath_iff hsend).mp h (otherDevice sender ownDid)
    (otherDevice_localDid sender ownDid) rfl (inOrder lib (publishedMessages lib sender ownDid δ))
    (.of_eq (payload_inOrder lib _))
  unfold publishedMessages at hreceived hlib
  split_ifs at hreceived hlib with hble hrelay
  · cases hreceived
  · have hparse := hlib.fromBytes_toBytes _ (List.mem_singleton_self _)
    obtain ⟨arrival, hpayload, hcalls⟩ := receivedCalls_single hparse
      (.of_eq (payload_inOrder lib [.relayDelta ownDid δ]))
    rw [hcalls, swarmTurn_relay hpayload (otherDevice_localDid sender ownDid)] at hreceived
    cases hreceived
  · refine ⟨by simpa using hble, ?_, fun hpos hlt => ?_⟩
    · rw [not_and_or] at hrelay
      exact hrelay.imp (by simp) (by simp)
    · by_contra hlength
      rw [receivedCalls_too_many hlib ⟨hpos, hlt⟩ (not_le.mp hlength) hword _
        (.of_eq (payload_inOrder lib _))] at hreceived
      cases hreceived

/-- A Delta that the channel takes reaches the merge path of every other device if its own DID is
routable, and, for payloads below four gibibytes, only then. -/
theorem reachesMergePath_iff_routable {sender : MeshTransport} {ownDid : Did} {δ : Delta}
    (hlib : lib.RoundTrips δ (publishedMessages lib sender ownDid δ))
    (hsend : (sender.sendDelta lib ownDid δ).1 = .ok ()) :
    (Routable lib sender ownDid δ → ReachesMergePath lib sender ownDid δ) ∧
      ((lib.serialiseDelta δ).length < 2 ^ 32 → ReachesMergePath lib sender ownDid δ →
        Routable lib sender ownDid δ) :=
  ⟨reachesMergePath_of_routable hlib hsend,
    fun hword h => routable_of_reachesMergePath hlib hsend hword h⟩

section Sample
open CrdtEngine

def sampleDelta : Delta :=
  ⟨0, sampleDid₁, List.replicate 64 0, 0, [1, 2, 3], .low, [], [], 1, 0⟩

def sampleDeltaJson : Bytes :=
  asciiBytes "\x7b\"id\":" ++ jsonArray (List.replicate 32 0) ++ asciiBytes ",\"author_did\":\"" ++
    asciiBytes sampleDid₁ ++ asciiBytes "\",\"signature\":" ++ jsonArray (List.replicate 64 0) ++
    asciiBytes ",\"schema_hash\":" ++ jsonArray (List.replicate 32 0) ++
    asciiBytes ",\"automerge_bytes\":" ++ jsonArray [1, 2, 3] ++
    asciiBytes ",\"priority\":\"Low\",\"causal_parents\":[],\"tags\":[],\"lamport\":1," ++
    asciiBytes "\"created_at\":0\x7d"

def sampleDirectJson : Bytes :=
  asciiBytes "\x7b\"InboundDelta\":" ++ sampleDeltaJson ++ asciiBytes "\x7d"

def sampleRelayJson : Bytes :=
  asciiBytes "\x7b\"RelayDelta\":\x7b\"target_did\":\"" ++ asciiBytes sampleDid₁ ++
    asciiBytes "\",\"delta\":" ++ sampleDeltaJson ++ asciiBytes "\x7d\x7d"

def sampleWire : WireLibraries where
  serialiseDelta _ := sampleDeltaJson
  parseDelta bytes := if bytes = sampleDeltaJson then some sampleDelta else none
  toBytes
    | .inboundDelta _ => sampleDirectJson
    | .relayDelta _ _ => sampleRelayJson
    | _ => []
  fromBytes bytes :=
    if bytes = sampleDirectJson then some (.inboundDelta sampleDelta)
    else if bytes = sampleRelayJson then some (.relayDelta sampleDid₁ sampleDelta)
    else none

theorem roundTrips_sampleWire {messages : List GossipMessage}
    (h : ∀ msg ∈ messages,
      msg = .inboundDelta sampleDelta ∨ msg = .relayDelta sampleDid₁ sampleDelta) :
    sampleWire.RoundTrips sampleDelta messages := by
  have hnil : sampleDeltaJson ≠ [] := by decide +kernel
  have hne : sampleRelayJson ≠ sampleDirectJson := by decide +kernel
  refine ⟨by simp only [sampleWire, if_true], by simp only [sampleWire, if_neg hnil.symm],
    fun msg hmsg => ?_⟩
  rcases h msg hmsg with rfl | rfl
  · simp only [sampleWire, if_true]
  · simp only [sampleWire, if_neg hne, if_true]

def sampleSender (discovery : PeerDiscovery) : MeshTransport :=
  ⟨0, discovery, .empty, sampleDid₁, .new 1000000, some ⟨4096, false, []⟩, none⟩

def sampleNeighbors : PeerDiscovery :=
  ((⟨4, ∅⟩ : PeerDiscovery).onPeerDiscovered ⟨sampleDid₂, .mdns "/ip4/10.0.0.2/tcp/4001", 1⟩
    0).onPeerDiscovered ⟨sampleDid₃, .bleBridge sampleDid₂, 2⟩ 5

/-- With a neighbor and a bridge to another device the write reaches every other device. -/
theorem reachesMergePath_iff_routable_neighbors :
    ReachesMergePath sampleWire (sampleSender sampleNeighbors) sampleDid₁ sampleDelta := by
  have hble : (sampleSender sampleNeighbors).isBlePeer sampleDid₁ = false := by decide +kernel
  have hrelay : sampleNeighbors.findRelayPeer sampleDid₁ = none := by decide +kernel
  have hrelay' : ((sampleSender sampleNeighbors).discovery.findRelayPeer sampleDid₁).isSome ≠ true := by
    rw [show (sampleSender sampleNeighbors).discovery = sampleNeighbors from rfl, hrelay]
    exact Bool.false_ne_true
  have hpublished : publishedMessages sampleWire (sampleSender sampleNeighbors) sampleDid₁
      sampleDelta = [.inboundDelta sampleDelta] := by
    rw [publishedMessages, if_neg (by rw [hble]; exact Bool.false_ne_true),
      if_neg fun h => hrelay' h.2]
    rfl
  have hsend : ((sampleSender sampleNeighbors).sendDelta sampleWire sampleDid₁ sampleDelta).1 =
      .ok () := by
    rw [sendDelta, if_neg (by rw [hble]; exact Bool.false_ne_true), if_neg fun h => hrelay' h.2]
    rfl
  have hlib : sampleWire.RoundTrips sampleDelta
      (publishedMessages sampleWire (sampleSender sampleNeighbors) sampleDid₁ sampleDelta) := by
    rw [hpublished]
    exact roundTrips_sampleWire fun msg hmsg => .inl (List.mem_singleton.mp hmsg)
  exact (reachesMergePath_iff_routable hlib hsend).1
    ⟨hble, .inr hrelay, fun h => absurd h (lt_irrefl 0)⟩

def sampleRelays : PeerDiscovery :=
  (⟨4, ∅⟩ : PeerDiscovery).onPeerDiscovered ⟨sampleDid₂, .multiHopRelay sampleDid₃, 1⟩ 0

/-- With any active relay peer the write leaves as a message that every other device drops. -/
theorem relayed_write_dropped :
    ((sampleSender sampleRelays).sendDelta sampleWire sampleDid₁ sampleDelta).1 = .ok () ∧
      ¬ReachesMergePath sampleWire (sampleSender sampleRelays) sampleDid₁ sampleDelta := by
  have hble : (sampleSender sampleRelays).isBlePeer sampleDid₁ = false := by decide +kernel
  have hdirect : sampleRelays.isDirectNeighbor sampleDid₁ = false := by decide +kernel
  have hrelay : (sampleRelays.findRelayPeer sampleDid₁).isSome = true := by decide +kernel
  have hpublished : publishedMessages sampleWire (sampleSender sampleRelays) sampleDid₁
      sampleDelta = [.relayDelta sampleDid₁ sampleDelta] := by
    rw [publishedMessages, if_neg (by rw [hble]; exact Bool.false_ne_true),
      if_pos ⟨hdirect, hrelay⟩]
  have hsend : ((sampleSender sampleRelays).sendDelta sampleWire sampleDid₁ sampleDelta).1 =
      .ok () := by
    rw [sendDelta, if_neg (by rw [hble]; exact Bool.false_ne_true), if_pos ⟨hdirect, hrelay⟩]
    rfl
  have hlib : sampleWire.RoundTrips sampleDelta
      (publishedMessages sampleWire (sampleSender sampleRelays) sampleDid₁ sampleDelta) := by
    rw [hpublished]
    exact roundTrips_sampleWire fun msg hmsg => .inr (List.mem_singleton.mp hmsg)
  have hword : (sampleWire.serialiseDelta sampleDelta).length < 2 ^ 32 := by decide +kernel
  refine ⟨hsend, fun h => ?_⟩
  rcases (routable_of_reachesMergePath hlib hsend hword h).notRelayed with hneighbor | hnone
  · rw [show (sampleSender sampleRelays).discovery = sampleRelays from rfl, hdirect] at hneighbor
    cases hneighbor
  · rw [show (sampleSender sampleRelays).discovery = sampleRelays from rfl] at hnone
    rw [hnone] at hrelay
    cases hrelay

end Sample

end TirBase.PublishedDelivery
