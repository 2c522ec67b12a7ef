import TirBase.FragmentReassembly

/-! # Fragments of many payloads in one buffer

The fragments of any number of payloads reach one buffer in any order, some of them again and again. As
long as the buffer finds room for every new assembly, each assembly goes on by itself. -/
namespace TirBase.FragmentInterleaving
open TransitionRuns SlotAssembly ReassemblyBuffer

/-- The payloads under way: the bytes under an identifier, and the mtu that they are cut by. -/
abbrev Payloads := DeltaId → Option (Bytes × ℕ)

def parts (payloads : Payloads) (id : DeltaId) : List DeltaFragment :=
  match payloads id with
  | some (bytes, mtu) => fragment id bytes mtu
  | none => []

structure FragmentArrival where
  hash : HashOrder
  fragment : DeltaFragment
  senderDid : Did

def result (b : ReassemblyBuffer) (a : FragmentArrival) : Except TirBaseError (Option Bytes) :=
  (b.addFragment a.hash a.fragment a.senderDid).1

def step (b : ReassemblyBuffer) (a : FragmentArrival) : ReassemblyBuffer :=
  (b.addFragment a.hash a.fragment a.senderDid).2

def OfPayloads (payloads : Payloads) (arrivals : List FragmentArrival) : Prop :=
  ∀ a ∈ arrivals, a.fragment ∈ parts payloads a.fragment.deltaId

/-- The receiver takes that many fragments of each payload. -/
def Small (payloads : Payloads) : Prop :=
  ∀ id, (parts payloads id).length ≤ maxFragmentsPerDelta

def Complete (payloads : Payloads) (arrivals : List FragmentArrival) (id : DeltaId) : Prop :=
  ∀ f ∈ parts payloads id, f ∈ arrivals.map FragmentArrival.fragment

def Incomplete (payloads : Payloads) (arrivals : List FragmentArrival) (id : DeltaId) : Prop :=
  (∃ a ∈ arrivals, a.fragment.deltaId = id) ∧ ¬Complete payloads arrivals id

/-- A payload is returned with the last of its fragments, and nothing else is ever returned. -/
structure Reassembles (payloads : Payloads) (arrivals : List FragmentArrival) : Prop where
  returned : ∀ earlier a rest bytes mtu, arrivals = earlier ++ a :: rest →
    payloads a.fragment.deltaId = some (bytes, mtu) →
    ¬Complete payloads earlier a.fragment.deltaId →
    Complete payloads (earlier ++ [a]) a.fragment.deltaId →
    result (run step .empty earlier) a = .ok (some bytes)
  original : ∀ earlier a rest bytes, arrivals = earlier ++ a :: rest →
    result (run step .empty earlier) a = .ok (some bytes) →
    ∃ mtu, payloads a.fragment.deltaId = some (bytes, mtu)

/-- At no time are more payloads incomplete than the buffer has slots. -/
def Bounded (payloads : Payloads) (arrivals : List FragmentArrival) : Prop :=
  ∀ earlier, earlier <+: arrivals → ∀ ids : Finset DeltaId,
    (∀ id ∈ ids, Incomplete payloads earlier id) → ids.card ≤ maxReassemblySlots

/-- No assembly is pushed out: the fragment joins one that is under way, or there is a free slot. -/
def HasRoom (b : ReassemblyBuffer) (a : FragmentArrival) : Prop :=
  a.fragment.deltaId ∈ b.pending ∨ b.pending.keys.length < maxReassemblySlots

theorem exists_payload_of_mem_parts {payloads : Payloads} {id : DeltaId} {f : DeltaFragment}
    (hf : f ∈ parts payloads id) : ∃ bytes mtu, payloads id = some (bytes, mtu) ∧
      parts payloads id = fragment id bytes mtu ∧ bytes ≠ [] ∧ mtu ≠ 0 := by
  unfold parts at hf ⊢
  cases hpayload : payloads id with
  | none => simp [hpayload] at hf
  | some payload =>
    obtain ⟨bytes, mtu⟩ := payload
    rw [hpayload] at hf
    have hne : ¬(bytes = [] ∨ mtu = 0) := by
      intro hnone
      simp [fragment, hnone] at hf
    rw [not_or] at hne
    exact ⟨bytes, mtu, rfl, rfl, hne.1, hne.2⟩

/-- What the buffer needs to know of the fragments of a payload. -/
structure Sound (parts : List DeltaFragment) (id : DeltaId) (bytes : Bytes) : Prop where
  nonempty : parts ≠ []
  numbered : Numbered (fun f : DeltaFragment => f.fragmentIndex.toNat) parts
  deltaId : ∀ f ∈ parts, f.deltaId = id
  total : ∀ f ∈ parts, f.totalFragments.toNat = parts.length
  reassemble : ∀ senderDid, reassemble parts senderDid = .ok bytes

theorem sound_fragment {id : DeltaId} {bytes : Bytes} {mtu : ℕ} (hbytes : bytes ≠ [])
    (hmtu : mtu ≠ 0) (hcount : (fragment id bytes mtu).length ≤ maxFragmentsPerDelta) :
    Sound (fragment id bytes mtu) id bytes := by
  have hlength := length_fragment id hbytes hmtu
  have hchunks : (chunks mtu bytes).length ≤ maxFragmentsPerDelta := hlength ▸ hcount
  have htotal : (UInt32.ofNat (chunks mtu bytes).length).toNat = (chunks mtu bytes).length := by
    simp only [UInt32.toNat_ofNat', maxFragmentsPerDelta] at hchunks ⊢
    exact Nat.mod_eq_of_lt (by omega)
  have hne : fragment id bytes mtu ≠ [] := by
    intro hnil
    rw [hnil] at hlength
    exact chunks_ne_nil hmtu hbytes (List.length_eq_zero_iff.mp hlength.symm)
  have hnumbered := numbered_fragment id hbytes hmtu hchunks
  refine ⟨hne, hnumbered, fun f hf => (mem_fragment hbytes hmtu hf).1, fun f hf => ?_, fun did => ?_⟩
  · rw [(mem_fragment hbytes hmtu hf).2, htotal, hlength]
  · rw [reassemble_of_numbered hne (fun f hf => mem_fragment hbytes hmtu hf)
      (by rw [hlength, htotal]) hnumbered did, payload_fragment hbytes hmtu]

section Arrival
variable {b : ReassemblyBuffer} {a : FragmentArrival}

theorem makeRoom_of_hasRoom (h : HasRoom b a) :
    b.makeRoom a.hash a.fragment.deltaId = b := by
  unfold makeRoom
  rw [if_neg]
  rintro ⟨hnew, hfull⟩
  exact h.elim hnew fun hfree => absurd hfull (not_le.mpr hfree)

/-- Where nothing is pushed out the other assemblies stay as they are. -/
theorem lookup_step_ne (h : HasRoom b a) {id : DeltaId} (hid : id ≠ a.fragment.deltaId) :
    (step b a).pending.lookup id = b.pending.lookup id := by
  unfold step addFragment
  rw [makeRoom_of_hasRoom h]
  dsimp only
  split_ifs
  · rfl
  · rfl
  · rfl
  · exact AList.lookup_erase_ne hid
  · exact AList.lookup_insert_ne hid

/-- The slots of a payload of which the fragments of `done` have arrived since it was last
returned. -/
def slotsOf (parts done : List DeltaFragment) : Option (Slots DeltaFragment) :=
  if done = [] then none else some (filled parts done)

theorem step_of_lookup {parts done : List DeltaFragment} {bytes : Bytes}
    (hparts : Sound parts a.fragment.deltaId bytes) (hcount : parts.length ≤ maxFragmentsPerDelta)
    (hmem : a.fragment ∈ parts)
    (hlookup : b.pending.lookup a.fragment.deltaId = slotsOf parts done) :
    (if ∀ f ∈ parts, f ∈ a.fragment :: done then
      result b a = .ok (some bytes) ∧ (step b a).pending.lookup a.fragment.deltaId = none
    else result b a = .ok none ∧ (step b a).pending.lookup a.fragment.deltaId =
      slotsOf parts (a.fragment :: done)) := by
  have hgetD : (b.pending.lookup a.fragment.deltaId).getD (emptySlots parts.length) =
      filled parts done := by
    rw [hlookup, slotsOf]
    split_ifs with hdone
    · subst hdone
      simp
    · rfl
  have hlength : ∀ slots, b.pending.lookup a.fragment.deltaId = some slots →
      slots.length = parts.length := by
    intro slots hslots
    rw [hslots, Option.getD_some] at hgetD
    rw [hgetD, length_filled]
  obtain ⟨hnext, hresult⟩ := addFragment_eq_accept (hparts.total _ hmem)
    (hparts.numbered.index_lt hmem) hcount hlength a.hash a.senderDid
  have haccept := hparts.numbered.accept_filled hgetD hmem
  rw [haccept] at hnext hresult
  unfold result step
  split_ifs at hnext hresult ⊢ with hall
  · refine ⟨?_, hnext⟩
    simp only [hresult, hparts.reassemble]
    rfl
  · exact ⟨hresult, by rw [hnext, slotsOf, if_neg (List.cons_ne_nil _ _)]⟩

end Arrival

/-- The fragments of each payload that have arrived since it was last returned. -/
def sinceStep (payloads : Payloads) (since : DeltaId → List DeltaFragment) (a : FragmentArrival) :
    DeltaId → List DeltaFragment :=
  let done := a.fragment :: since a.fragment.deltaId
  Function.update since a.fragment.deltaId
    (if ∀ f ∈ parts payloads a.fragment.deltaId, f ∈ done then [] else done)

/-- The buffer holds the assemblies that these fragments make. -/
def Follows (payloads : Payloads) (b : ReassemblyBuffer) (since : DeltaId → List DeltaFragment) :
    Prop :=
  ∀ id, b.pending.lookup id = slotsOf (parts payloads id) (since id)

section Runs
variable {payloads : Payloads} {b : ReassemblyBuffer} {since : DeltaId → List DeltaFragment}

theorem follows_empty (payloads : Payloads) : Follows payloads .empty fun _ => [] := fun _ => rfl

/-- Every arrival does to the buffer what it does to one assembly on its own. -/
theorem follows_step (hsmall : Small payloads) {a : FragmentArrival}
    (ha : a.fragment ∈ parts payloads a.fragment.deltaId) (hroom : HasRoom b a)
    (h : Follows payloads b since) : Follows payloads (step b a) (sinceStep payloads since a) ∧
      ∃ bytes mtu, payloads a.fragment.deltaId = some (bytes, mtu) ∧ result b a =
        if ∀ f ∈ parts payloads a.fragment.deltaId,
          f ∈ a.fragment :: since a.fragment.deltaId then .ok (some bytes) else .ok none := by
  obtain ⟨bytes, mtu, hpayload, hparts, hbytes, hmtu⟩ := exists_payload_of_mem_parts ha
  have hsound : Sound (parts payloads a.fragment.deltaId) a.fragment.deltaId bytes := by
    have hcount := hsmall a.fragment.deltaId
    rw [hparts] at hcount ⊢
    exact sound_fragment hbytes hmtu hcount
  have hone := step_of_lookup hsound (hsmall _) ha (h a.fragment.deltaId)
  constructor
  · intro id
    by_cases hid : id = a.fragment.deltaId
    · subst hid
      simp only [sinceStep, Function.update_self]
      split_ifs at hone ⊢
      · exact hone.2
      · exact hone.2
    · rw [lookup_step_ne hroom hid, h id, sinceStep, Function.update_of_ne hid]
  · refine ⟨bytes, mtu, hpayload, ?_⟩
    split_ifs at hone ⊢
    · exact hone.1
    · exact hone.1

theorem follows_run (hsmall : Small payloads) {arrivals : List FragmentArrival}
    (harrivals : OfPayloads payloads arrivals) (hroom : Guarded step HasRoom b arrivals)
    (h : Follows payloads b since) :
    Follows payloads (run step b arrivals) (run (sinceStep payloads) since arrivals) := by
  induction arrivals generalizing b since with
  | nil => exact h
  | cons a arrivals ih =>
    exact ih (fun a' ha' => harrivals a' (List.mem_cons_of_mem a ha')) hroom.2
      (follows_step hsmall (harrivals a List.mem_cons_self) hroom.1 h).1

theorem since_subset (payloads : Payloads) (earlier : List FragmentArrival) (id : DeltaId) :
    ∀ f ∈ run (sinceStep payloads) (fun _ => []) earlier id,
      f ∈ earlier.map FragmentArrival.fragment := by
  induction earlier using List.reverseRecOn with
  | nil => simp
  | append_singleton earlier last ih =>
    intro f hf
    rw [run_append, run_cons, run_nil] at hf
    rw [List.map_append, List.mem_append]
    by_cases hlast : id = last.fragment.deltaId
    · subst hlast
      rw [sinceStep, Function.update_self] at hf
      split_ifs at hf
      · cases hf
      · rcases List.mem_cons.mp hf with rfl | hold
        · exact .inr (List.mem_singleton_self _)
        · exact .inl (ih f hold)
    · rw [sinceStep, Function.update_of_ne hlast] at hf
      exact .inl (ih f hf)

/-- A payload that is not complete was never returned: all of its fragments count. -/
theorem mem_since (payloads : Payloads) (earlier : List FragmentArrival) (id : DeltaId)
    (hid : ¬Complete payloads earlier id) : ∀ a ∈ earlier, a.fragment.deltaId = id →
      a.fragment ∈ run (sinceStep payloads) (fun _ => []) earlier id := by
  induction earlier using List.reverseRecOn with
  | nil => simp
  | append_singleton earlier last ih =>
    have hearlier : ¬Complete payloads earlier id := by
      intro hcomplete
      apply hid
      intro f hf
      simp [hcomplete f hf]
    have hmem := ih hearlier
    intro a ha hdelta
    rw [run_append, run_cons, run_nil]
    by_cases hlast : id = last.fragment.deltaId
    · subst hlast
      rw [sinceStep, Function.update_self, if_neg]
      · rcases List.mem_append.mp ha with hold | hnew
        · exact List.mem_cons_of_mem _ (hmem a hold hdelta)
        · rw [List.mem_singleton.mp hnew]
          exact List.mem_cons_self
      · intro hall
        apply hid
        intro f hf
        rw [List.map_append, List.mem_append]
        rcases List.mem_cons.mp (hall f hf) with rfl | hold
        · exact .inr (List.mem_singleton_self _)
        · exact .inl (since_subset payloads earlier _ f hold)
    · rw [sinceStep, Function.update_of_ne hlast]
      rcases List.mem_append.mp ha with hold | hnew
      · exact hmem a hold hdelta
      · rw [List.mem_singleton.mp hnew] at hdelta
        exact absurd hdelta.symm hlast

/-- If no assembly is ever pushed out, every payload is returned with the last of its fragments, as
it was sent, whatever the order of the fragments and however often they are repeated. -/
theorem reassembles_of_hasRoom {arrivals : List FragmentArrival} (hsmall : Small payloads)
    (harrivals : OfPayloads payloads arrivals) (hroom : Guarded step HasRoom .empty arrivals) :
    Reassembles payloads arrivals := by
  have hat : ∀ earlier a rest, arrivals = earlier ++ a :: rest →
      ∃ bytes mtu, payloads a.fragment.deltaId = some (bytes, mtu) ∧
        result (run step .empty earlier) a =
          if ∀ f ∈ parts payloads a.fragment.deltaId, f ∈ a.fragment ::
            run (sinceStep payloads) (fun _ => []) earlier a.fragment.deltaId then .ok (some bytes)
          else .ok none := by
    rintro earlier a rest rfl
    obtain ⟨hearlier, hrest⟩ := (guarded_append _ _ _ _ _).mp hroom
    have hfollows := follows_run hsmall (fun a' ha' => harrivals a' (List.mem_append_left _ ha'))
      hearlier (follows_empty payloads)
    exact (follows_step hsmall (harrivals a (by simp)) hrest.1 hfollows).2
  constructor
  · intro earlier a rest bytes mtu hsplit hpayload hnot hcomplete
    obtain ⟨bytes', mtu', hpayload', hresult⟩ := hat earlier a rest hsplit
    cases hpayload.symm.trans hpayload'
    rw [hresult, if_pos]
    intro f hf
    have harrived := hcomplete f hf
    rw [List.map_append, List.mem_append] at harrived
    rcases harrived with hold | hnew
    · obtain ⟨a', ha', rfl⟩ := List.mem_map.mp hold
      obtain ⟨_, _, _, hparts, hbytes, hmtu⟩ := exists_payload_of_mem_parts hf
      rw [hparts] at hf
      exact List.mem_cons_of_mem _
        (mem_since payloads earlier _ hnot a' ha' (mem_fragment hbytes hmtu hf).1)
    · rw [List.map_cons, List.map_nil, List.mem_singleton] at hnew
      rw [hnew]
      exact List.mem_cons_self
  · intro earlier a rest bytes hsplit hreturned
    obtain ⟨bytes', mtu, hpayload, hresult⟩ := hat earlier a rest hsplit
    rw [hresult] at hreturned
    split_ifs at hreturned
    · cases hreturned
      exact ⟨mtu, hpayload⟩
    · cases hreturned

end Runs

section Sample

def samplePayloads : Payloads := fun _ => some ([0, 1], 1)

def first (id : DeltaId) : DeltaFragment := ⟨id, 0, 2, [0]⟩

def second (id : DeltaId) : DeltaFragment := ⟨id, 1, 2, [1]⟩

theorem parts_samplePayloads (id : DeltaId) :
    parts samplePayloads id = [first id, second id] := rfl

/-- The slots of a payload of which the first fragment has arrived. -/
def half (id : DeltaId) : Slots DeltaFragment := [some (first id), none]

def asListed : HashOrder := ⟨id, fun l => .refl l⟩

def putFirst (id : DeltaId) : HashOrder where
  order l := if id ∈ l then id :: l.erase id else l
  perm l := by
    split_ifs with hid
    · exact (List.perm_cons_erase hid).symm
    · exact .refl l

/-- Two payloads side by side, one fragment of them twice. -/
theorem reassembles_of_hasRoom_sample : Reassembles samplePayloads
    [⟨asListed, first 0, ""⟩, ⟨asListed, second 1, ""⟩, ⟨asListed, first 0, ""⟩,
      ⟨asListed, first 1, ""⟩, ⟨asListed, second 0, ""⟩] := by
  refine reassembles_of_hasRoom (fun id => ?_) (fun a ha => ?_) ?_
  · show 2 ≤ maxFragmentsPerDelta
    decide
  · simp only [List.mem_cons, List.not_mem_nil, or_false] at ha
    rcases ha with rfl | rfl | rfl | rfl | rfl <;>
      simp [first, second, parts_samplePayloads]
  · refine ⟨.inr ?_, .inr ?_, .inr ?_, .inr ?_, .inr ?_, trivial⟩ <;> decide +kernel

def sampleRepeats (id : DeltaId) : List FragmentArrival :=
  [⟨asListed, first id, ""⟩, ⟨asListed, second id, ""⟩, ⟨asListed, first id, ""⟩]

def sampleIds (n : ℕ) : List DeltaId := (List.range n).map (BitVec.ofNat 256)

def sampleStale (n : ℕ) : List FragmentArrival := (sampleIds n).flatMap sampleRepeats

def lateId : DeltaId := BitVec.ofNat 256 1024

def laterId : DeltaId := BitVec.ofNat 256 1025

def sampleLate : List FragmentArrival :=
  [⟨asListed, first lateId, ""⟩, ⟨putFirst lateId, first laterId, ""⟩]

theorem step_first (b : ReassemblyBuffer) {id : DeltaId} (h : id ∉ b.pending)
    (hash : HashOrder) (did : Did) : step b ⟨hash, first id, did⟩ =
      ⟨(b.makeRoom hash id).pending.insert id (half id)⟩ := by
  have hlookup : (b.makeRoom hash id).pending.lookup id = none := by
    rw [lookup_makeRoom]
    exact AList.lookup_eq_none.mpr h
  simp only [step, addFragment, first, hlookup]
  rfl

theorem step_second (b : ReassemblyBuffer) {id : DeltaId}
    (h : b.pending.lookup id = some (half id)) (hash : HashOrder) (did : Did) :
    step b ⟨hash, second id, did⟩ = ⟨b.pending.erase id⟩ := by
  have hmem : id ∈ b.pending := by
    rw [← AList.lookup_isSome, h]
    rfl
  have hroom : b.makeRoom hash id = b := if_neg fun hnew => hnew.1 hmem
  simp only [step, addFragment, second, hroom, h]
  rfl

theorem keys_insert_length {m : AList fun _ : DeltaId => Slots DeltaFragment} {id : DeltaId}
    (h : id ∉ m) (slots : Slots DeltaFragment) :
    (m.insert id slots).keys.length = m.keys.length + 1 := by
  rw [AList.keys_insert, List.length_cons, List.erase_of_not_mem (by simpa [AList.mem_keys] using h)]

structure Halves (n : ℕ) (b : ReassemblyBuffer) : Prop where
  slots : ∀ id slots, b.pending.lookup id = some slots → slots = half id
  length : b.pending.keys.length = n

theorem Halves.insert {n : ℕ} {b : ReassemblyBuffer} (h : Halves n b) {id : DeltaId}
    (hid : id ∉ b.pending) : Halves (n + 1) ⟨b.pending.insert id (half id)⟩ := by
  refine ⟨fun other slots hslots => ?_, ?_⟩
  · by_cases hother : other = id
    · subst hother
      rw [AList.lookup_insert] at hslots
      exact (Option.some.inj hslots).symm
    · rw [AList.lookup_insert_ne hother] at hslots
      exact h.slots other slots hslots
  · rw [keys_insert_length hid, h.length]

theorem Halves.erase {n : ℕ} {b : ReassemblyBuffer} (h : Halves (n + 1) b) {id : DeltaId}
    (hid : id ∈ b.pending) : Halves n ⟨b.pending.erase id⟩ := by
  refine ⟨fun other slots hslots => ?_, ?_⟩
  · by_cases hother : other = id
    · subst hother
      rw [AList.lookup_erase] at hslots
      cases hslots
    · rw [AList.lookup_erase_ne hother] at hslots
      exact h.slots other slots hslots
  · rw [AList.keys_erase, List.length_erase_of_mem (AList.mem_keys.mpr hid), h.length]
    rfl

theorem Halves.lookup {n : ℕ} {b : ReassemblyBuffer} (h : Halves n b) {id : DeltaId}
    (hid : id ∈ b.pending) : b.pending.lookup id = some (half id) := by
  obtain ⟨slots, hslots⟩ := Option.isSome_iff_exists.mp (AList.lookup_isSome.mpr hid)
  rw [hslots, h.slots id slots hslots]

/-- A payload is returned, and a repeated fragment opens an assembly that stays. -/
theorem halves_repeats {n : ℕ} {b : ReassemblyBuffer} (h : Halves n b) (hn : n < maxReassemblySlots)
    {id : DeltaId} (hid : id ∉ b.pending) : Halves (n + 1) (run step b (sampleRepeats id)) ∧
      ∀ other, other ∈ (run step b (sampleRepeats id)).pending ↔ other ∈ b.pending ∨ other = id := by
  have hroom : ∀ b' : ReassemblyBuffer, Halves n b' → b'.makeRoom asListed id = b' := by
    intro b' hb'
    exact if_neg fun hfull => absurd hfull.2 (by rw [hb'.length]; omega)
  have hopen := h.insert hid
  have hlookup : (b.pending.insert id (half id)).lookup id =
      some (half id) := AList.lookup_insert _
  have hclosed : Halves n ⟨(b.pending.insert id (half id)).erase id⟩ :=
    hopen.erase ((AList.mem_insert _).mpr (.inl rfl))
  have hgone : id ∉ (b.pending.insert id (half id)).erase id := by
    simp
  have hfirst := step_first b hid asListed ""
  have hsecond := step_second ⟨b.pending.insert id (half id)⟩ hlookup asListed ""
  have hagain := step_first ⟨(b.pending.insert id (half id)).erase id⟩ hgone asListed ""
  rw [hroom b h] at hfirst
  rw [hroom _ hclosed] at hagain
  have hrun : run step b (sampleRepeats id) =
      ⟨((b.pending.insert id (half id)).erase id).insert id (half id)⟩ := by
    rw [sampleRepeats, run_cons, run_cons, run_cons, run_nil, hfirst, hsecond, hagain]
  rw [hrun]
  refine ⟨hclosed.insert hgone, fun other => ?_⟩
  simp only [AList.mem_insert, AList.mem_erase]
  constructor
  · rintro (heq | ⟨-, heq | hold⟩)
    · exact .inr heq
    · exact .inr heq
    · exact .inl hold
  · rintro (hold | heq)
    · by_cases heq : other = id
      · exact .inl heq
      · exact .inr ⟨heq, .inr hold⟩
    · exact .inl heq

theorem sampleIds_succ (n : ℕ) : sampleIds (n + 1) = sampleIds n ++ [BitVec.ofNat 256 n] := by
  simp [sampleIds, List.range_succ]

theorem ofNat_mem_sampleIds {n k : ℕ} (hk : k < 2 ^ 256) (hn : n ≤ 2 ^ 256) :
    BitVec.ofNat 256 k ∈ sampleIds n ↔ k < n := by
  simp only [sampleIds, List.mem_map, List.mem_range]
  constructor
  · rintro ⟨i, hi, heq⟩
    have hnat := congrArg BitVec.toNat heq
    rw [BitVec.toNat_ofNat, BitVec.toNat_ofNat, Nat.mod_eq_of_lt hk, Nat.mod_eq_of_lt (by omega)]
      at hnat
    omega
  · intro hlt
    exact ⟨k, hlt, rfl⟩

theorem halves_stale {n : ℕ} (hn : n ≤ maxReassemblySlots) :
    Halves n (run step .empty (sampleStale n)) ∧
      ∀ id, id ∈ (run step .empty (sampleStale n)).pending ↔ id ∈ sampleIds n := by
  induction n with
  | zero =>
    refine ⟨⟨fun id slots h => (by cases h), rfl⟩, fun id => ?_⟩
    exact iff_of_false (AList.notMem_empty id) (by simp [sampleIds])
  | succ n ih =>
    obtain ⟨hhalves, hmem⟩ := ih (by omega)
    have hnew : BitVec.ofNat 256 n ∉ (run step .empty (sampleStale n)).pending := by
      rw [hmem, ofNat_mem_sampleIds (by unfold maxReassemblySlots at hn; omega)
        (by unfold maxReassemblySlots at hn; omega)]
      exact lt_irrefl n
    have hsplit : sampleStale (n + 1) = sampleStale n ++ sampleRepeats (BitVec.ofNat 256 n) := by
      simp [sampleStale, sampleIds_succ]
    obtain ⟨hnext, hmem'⟩ := halves_repeats hhalves (by omega) hnew
    rw [hsplit, run_append]
    refine ⟨hnext, fun id => ?_⟩
    rw [hmem', hmem, sampleIds_succ, List.mem_append, List.mem_singleton]

theorem makeRoom_of_full {b : ReassemblyBuffer} {n : ℕ} (h : Halves n b)
    (hn : maxReassemblySlots ≤ n) {id evicted : DeltaId} (hid : id ∉ b.pending) {hash : HashOrder}
    (hevicted : (hash.order b.pending.keys).argmin b.filledSlots = some evicted) :
    b.makeRoom hash id = ⟨b.pending.erase evicted⟩ := by
  unfold makeRoom
  rw [if_pos ⟨hid, by rw [h.length]; exact hn⟩, hevicted]

/-- Into a full buffer goes a new assembly, for an old one. -/
theorem halves_step_full {b : ReassemblyBuffer} (h : Halves maxReassemblySlots b) {id : DeltaId}
    (hid : id ∉ b.pending) :
    Halves maxReassemblySlots (step b ⟨asListed, first id, ""⟩) ∧
      id ∈ (step b ⟨asListed, first id, ""⟩).pending ∧
      ∀ other, other ∈ (step b ⟨asListed, first id, ""⟩).pending →
        other ∈ b.pending ∨ other = id := by
  have hsome : ∃ evicted, b.pending.keys.argmin b.filledSlots = some evicted := by
    rw [← Option.ne_none_iff_exists']
    intro hnone
    have hlength := h.length
    rw [List.argmin_eq_none.mp hnone] at hlength
    cases hlength
  obtain ⟨evicted, hevicted⟩ := hsome
  have hmem : evicted ∈ b.pending := AList.mem_keys.mpr (List.argmin_mem hevicted)
  rw [step_first b hid, makeRoom_of_full h le_rfl hid hevicted]
  have hgone : id ∉ b.pending.erase evicted := by
    rw [AList.mem_erase]
    exact fun h => hid h.2
  refine ⟨(h.erase (n := 1023) hmem).insert hgone, (AList.mem_insert _).mpr (.inl rfl),
    fun other hother => ?_⟩
  rw [AList.mem_insert, AList.mem_erase] at hother
  exact hother.elim .inr fun hold => .inl hold.2

theorem filledSlots_of_halves {b : ReassemblyBuffer} {n : ℕ} (h : Halves n b) {id : DeltaId}
    (hid : id ∈ b.pending) : b.filledSlots id = 1 := by
  rw [filledSlots, h.lookup hid]
  rfl

theorem result_second (b : ReassemblyBuffer) {id : DeltaId} (h : b.pending.lookup id = none)
    (hash : HashOrder) (did : Did) : result b ⟨hash, second id, did⟩ = .ok none := by
  simp only [result, addFragment, second, lookup_makeRoom, h]
  rfl

/-- Between equals the hash map decides which assembly goes. -/
theorem lookup_step_putFirst {b : ReassemblyBuffer} (h : Halves maxReassemblySlots b)
    {id new : DeltaId} (hid : id ∈ b.pending) (hnew : new ∉ b.pending) :
    (step b ⟨putFirst id, first new, ""⟩).pending.lookup id = none := by
  have hne : id ≠ new := fun heq => hnew (heq ▸ hid)
  have horder : (putFirst id).order b.pending.keys = id :: b.pending.keys.erase id :=
    if_pos (AList.mem_keys.mp hid)
  have hargmin : ((putFirst id).order b.pending.keys).argmin b.filledSlots = some id := by
    rw [horder, List.argmin_cons]
    cases hrest : (b.pending.keys.erase id).argmin b.filledSlots with
    | none => rfl
    | some other =>
      have hother : other ∈ b.pending :=
        AList.mem_keys.mpr (List.mem_of_mem_erase (List.argmin_mem hrest))
      simp [filledSlots_of_halves h hid, filledSlots_of_halves h hother]
  rw [step_first b hnew, makeRoom_of_full h le_rfl hnew hargmin, AList.lookup_insert_ne hne,
    AList.lookup_erase]

def sampleArrivals : List FragmentArrival :=
  sampleStale maxReassemblySlots ++ (sampleLate ++ [⟨asListed, second lateId, ""⟩])

theorem complete_stale {id : DeltaId} (hid : id ∈ sampleIds maxReassemblySlots)
    {arrivals : List FragmentArrival} (h : sampleStale maxReassemblySlots <+: arrivals) :
    Complete samplePayloads arrivals id := by
  intro f hf
  refine (h.map _).subset ?_
  rw [sampleStale, List.map_flatMap, List.mem_flatMap]
  refine ⟨id, hid, ?_⟩
  rw [parts_samplePayloads] at hf
  simp only [sampleRepeats, List.map_cons, List.map_nil, List.mem_cons, List.not_mem_nil,
    or_false] at hf ⊢
  exact hf.elim .inl fun h => .inr (.inl h)

theorem bounded_sampleArrivals : Bounded samplePayloads sampleArrivals := by
  intro earlier hearlier ids hids
  rcases List.prefix_or_prefix_of_prefix hearlier (List.prefix_append _ _) with hstale | hstale
  · have hsub : ids ⊆ (sampleIds maxReassemblySlots).toFinset := by
      intro id hid
      obtain ⟨⟨a, ha, rfl⟩, -⟩ := hids id hid
      obtain ⟨i, hi, hmem⟩ := List.mem_flatMap.mp (hstale.subset ha)
      simp only [sampleRepeats, List.mem_cons, List.not_mem_nil, or_false] at hmem
      rw [List.mem_toFinset]
      rcases hmem with rfl | rfl | rfl <;> exact hi
    calc ids.card ≤ (sampleIds maxReassemblySlots).toFinset.card := Finset.card_le_card hsub
      _ ≤ (sampleIds maxReassemblySlots).length := List.toFinset_card_le _
      _ = maxReassemblySlots := by simp [sampleIds]
  · have hsub : ids ⊆ {lateId, laterId} := by
      intro id hid
      obtain ⟨⟨a, ha, rfl⟩, hnot⟩ := hids id hid
      have hlate := hearlier.subset ha
      rcases List.mem_append.mp hlate with hold | hnew
      · exfalso
        apply hnot
        refine complete_stale ?_ hstale
        obtain ⟨i, hi, hmem⟩ := List.mem_flatMap.mp hold
        simp only [sampleRepeats, List.mem_cons, List.not_mem_nil, or_false] at hmem
        rcases hmem with rfl | rfl | rfl <;> exact hi
      · simp only [sampleLate, List.cons_append, List.nil_append, List.mem_cons, List.not_mem_nil,
          or_false] at hnew
        rcases hnew with rfl | rfl | rfl <;> simp [first, second]
    have hcard := (Finset.card_le_card hsub).trans Finset.card_le_two
    exact hcard.trans (by decide)

theorem ofPayloads_sampleArrivals : OfPayloads samplePayloads sampleArrivals := by
  intro a ha
  have hcases : ∃ id, a.fragment = first id ∨ a.fragment = second id := by
    rcases List.mem_append.mp ha with hold | hnew
    · obtain ⟨i, -, hmem⟩ := List.mem_flatMap.mp hold
      simp only [sampleRepeats, List.mem_cons, List.not_mem_nil, or_false] at hmem
      rcases hmem with rfl | rfl | rfl
      · exact ⟨i, .inl rfl⟩
      · exact ⟨i, .inr rfl⟩
      · exact ⟨i, .inl rfl⟩
    · simp only [sampleLate, List.cons_append, List.nil_append, List.mem_cons, List.not_mem_nil,
        or_false] at hnew
      rcases hnew with rfl | rfl | rfl
      · exact ⟨lateId, .inl rfl⟩
      · exact ⟨laterId, .inl rfl⟩
      · exact ⟨lateId, .inr rfl⟩
  obtain ⟨id, heq | heq⟩ := hcases <;> rw [heq, parts_samplePayloads] <;> simp [first, second]

theorem lateId_not_mem {b : ReassemblyBuffer}
    (hmem : ∀ id, id ∈ b.pending ↔ id ∈ sampleIds maxReassemblySlots) :
    lateId ∉ b.pending ∧ laterId ∉ b.pending := by
  rw [hmem, hmem]
  unfold lateId laterId maxReassemblySlots
  constructor
  · rw [ofNat_mem_sampleIds (by omega) (by omega)]
    omega
  · rw [ofNat_mem_sampleIds (by omega) (by omega)]
    omega

/-- The first of two incomplete payloads is gone when its last fragment arrives. -/
theorem result_last : result (run step .empty (sampleStale maxReassemblySlots ++ sampleLate))
    ⟨asListed, second lateId, ""⟩ = .ok none := by
  obtain ⟨hhalves, hmem⟩ := halves_stale le_rfl
  obtain ⟨hlate, hlater⟩ := lateId_not_mem hmem
  rw [run_append]
  generalize run step .empty (sampleStale maxReassemblySlots) = b at hhalves hlate hlater ⊢
  obtain ⟨hfull, hin, hsame⟩ := halves_step_full hhalves hlate
  have hne : laterId ≠ lateId := by decide
  have hlater' : laterId ∉ (step b ⟨asListed, first lateId, ""⟩).pending := fun hmem =>
    (hsame _ hmem).elim hlater hne
  have hrun : run step b sampleLate = step (step b ⟨asListed, first lateId, ""⟩)
      ⟨putFirst lateId, first laterId, ""⟩ := by
    rw [sampleLate, run_cons, run_cons, run_nil]
  rw [hrun]
  exact result_second _ (lookup_step_putFirst hfull hin hlater') asListed ""

theorem not_complete_late :
    ¬Complete samplePayloads (sampleStale maxReassemblySlots ++ sampleLate) lateId := by
  intro hcomplete
  have hsecond := hcomplete (second lateId) (by rw [parts_samplePayloads]; simp)
  obtain ⟨a, ha, heq⟩ := List.mem_map.mp hsecond
  rcases List.mem_append.mp ha with hold | hnew
  · obtain ⟨i, hi, hmem⟩ := List.mem_flatMap.mp hold
    have hid : i = lateId := by
      simp only [sampleRepeats, List.mem_cons, List.not_mem_nil, or_false] at hmem
      have hdelta := congrArg DeltaFragment.deltaId heq
      rcases hmem with rfl | rfl | rfl <;> exact hdelta
    rw [hid, lateId, maxReassemblySlots, ofNat_mem_sampleIds (by omega) (by omega)] at hi
    exact lt_irrefl _ hi
  · simp only [sampleLate, List.mem_cons, List.not_mem_nil, or_false] at hnew
    rcases hnew with rfl | rfl
    · have hindex := congrArg DeltaFragment.fragmentIndex heq
      revert hindex
      decide
    · have hindex := congrArg DeltaFragment.fragmentIndex heq
      revert hindex
      decide

theorem complete_late : Complete samplePayloads (sampleStale maxReassemblySlots ++ sampleLate ++
    [⟨asListed, second lateId, ""⟩]) lateId := by
  intro f hf
  rw [parts_samplePayloads] at hf
  rw [List.map_append, List.map_append, List.mem_append, List.mem_append]
  simp only [List.mem_cons, List.not_mem_nil, or_false] at hf
  rcases hf with rfl | rfl
  · exact .inl (.inr List.mem_cons_self)
  · exact .inr List.mem_cons_self

/-- Two payloads are incomplete at most once the buffer is full, and still one of them is not
returned. -/
theorem stale_assemblies_displace : OfPayloads samplePayloads sampleArrivals ∧
    Small samplePayloads ∧ Bounded samplePayloads sampleArrivals ∧
      ¬Reassembles samplePayloads sampleArrivals := by
  refine ⟨ofPayloads_sampleArrivals, fun id => ?_, bounded_sampleArrivals, fun h => ?_⟩
  · rw [parts_samplePayloads]
    show 2 ≤ maxFragmentsPerDelta
    decide
  · have hreturned := h.returned (sampleStale maxReassemblySlots ++ sampleLate)
      ⟨asListed, second lateId, ""⟩ [] [0, 1] 1 (List.append_assoc _ _ _).symm rfl not_complete_late
      complete_late
    rw [result_last] at hreturned
    cases hreturned

end Sample

end TirBase.FragmentInterleaving
