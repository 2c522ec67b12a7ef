import TirBase.CoreHandle

/-! # Atomicity of a write

A write changes the store, the document, the clock and the DAG, the contamination state and the
durability state one after the other, and nothing undoes the earlier steps when a later one
fails. -/
namespace TirBase.WriteAtomicity
open CoreHandle CrdtEngine Automerge Capability

variable {lib : CoreLibraries}

def RowsKept (before after : LocalStore) : Prop :=
  ∀ table key, after.row? table key = before.row? table key

structure Unchanged (before after : CoreHandle) : Prop where
  rows : RowsKept before.store after.store
  document : after.crdt.doc = before.crdt.doc
  lamport : after.crdt.lamport = before.crdt.lamport
  dag : after.crdt.dag = before.crdt.dag
  contamination : after.cce = before.cce
  tiers : after.durability.states = before.durability.states
  queue : after.durability.cloudQueue = before.durability.cloudQueue

/-- A write that fails changes nothing, and the Delta of one that succeeds is queued. -/
structure WriteAtomic (before : CoreHandle)
    (out : Except TirBaseError WriteResult × CoreHandle) : Prop where
  unchanged : ∀ e, out.1 = .error e → Unchanged before out.2
  queued : ∀ result, out.1 = .ok result → result.deltaId ∈ out.2.durability.cloudQueue.ids

def StoreFails (lib : CoreLibraries) (h : CoreHandle) (table key : String) (data : JsonValue)
    (env : WriteEnvironment) : Prop :=
  if quotable table then env.storeFault ≠ none
  else ∃ e, (lib.unquotedWrite table key (lib.json.toString data) h.store).1 = .error e

/-- The name stays within its quotes, or what SQLite makes of it keeps the rows. -/
def StatementsKeepRows (lib : CoreLibraries) (h : CoreHandle) (table key : String)
    (data : JsonValue) : Prop :=
  quotable table = true ∨
    RowsKept h.store (lib.unquotedWrite table key (lib.json.toString data) h.store).2

/-- Storing the row changes nothing: it holds the value already. -/
def RowHeld (lib : CoreLibraries) (h : CoreHandle) (table key : String) (data : JsonValue) : Prop :=
  if quotable table then
    (h.store.row? table key).map ProjectionRow.dataJson = some (lib.json.toString data)
  else RowsKept h.store (lib.unquotedWrite table key (lib.json.toString data) h.store).2

/-- The DAG answers, the queue has room, and the mutexes locked last are sound. -/
structure Publishable (h : CoreHandle) (env : WriteEnvironment) : Prop where
  tips : env.produce.tipsFault = none
  insert : env.produce.insertFault = none
  durability : env.poisoned .durability = false
  room : h.durability.cloudQueue.queue.length < maxQueueDepth
  transport : env.poisoned .transport = false

def RefusedAtGate (h : CoreHandle) (env : WriteEnvironment) : Prop :=
  env.poisoned .capability = true ∨ h.capability.trustLevel = .revoked ∨
    env.poisoned .store = true

/-- What the row asks of the steps after the store. -/
def PublishesOrKeeps (lib : CoreLibraries) (h : CoreHandle) (table key : String)
    (data : JsonValue) (env : WriteEnvironment) : Prop :=
  if env.poisoned .crdt then RowHeld lib h table key data else Publishable h env

/-- No step fails after an earlier one has changed something. -/
def NoLateFailure (lib : CoreLibraries) (h : CoreHandle) (table key : String)
    (data : JsonValue) (env : WriteEnvironment) : Prop :=
  RefusedAtGate h env ∨
    (StoreFails lib h table key data env ∧ StatementsKeepRows lib h table key data) ∨
    (¬StoreFails lib h table key data env ∧ PublishesOrKeeps lib h table key data env)

theorem store_write_of_fails {h : CoreHandle} {table key : String} {data : JsonValue}
    {env : WriteEnvironment} (hfails : StoreFails lib h table key data env) :
    ∃ e, (h.store.write lib.store env.storeFault table key data).1 = .error e := by
  unfold StoreFails at hfails
  by_cases hname : quotable table = true
  · simp only [hname, if_true] at hfails
    obtain ⟨f, hf⟩ := Option.ne_none_iff_exists'.mp hfails
    cases f <;> exact ⟨_, by simp [LocalStore.write, hname, hf]; rfl⟩
  · simp only [hname] at hfails
    simpa [LocalStore.write, hname, CoreLibraries.store] using hfails

theorem store_write_of_not_fails {h : CoreHandle} {table key : String} {data : JsonValue}
    {env : WriteEnvironment} (hfails : ¬StoreFails lib h table key data env) :
    (h.store.write lib.store env.storeFault table key data).1 = .ok () := by
  unfold StoreFails at hfails
  by_cases hname : quotable table = true
  · simp only [hname, if_true, not_not] at hfails
    simp [LocalStore.write, hname, hfails]
  · simp only [hname] at hfails
    cases hout : (lib.unquotedWrite table key (lib.json.toString data) h.store).1 with
    | error e => exact absurd ⟨e, hout⟩ hfails
    | ok u => simpa [LocalStore.write, hname, CoreLibraries.store] using hout

theorem rowsKept_of_fails {h : CoreHandle} {table key : String} {data : JsonValue}
    {env : WriteEnvironment} (hfails : StoreFails lib h table key data env) :
    RowsKept h.store (h.store.write lib.store env.storeFault table key data).2 ↔
      StatementsKeepRows lib h table key data := by
  unfold StoreFails at hfails
  by_cases hname : quotable table = true
  · simp only [hname, if_true] at hfails
    obtain ⟨f, hf⟩ := Option.ne_none_iff_exists'.mp hfails
    refine iff_of_true (fun table' key' => ?_) (.inl hname)
    rw [hf]
    exact LocalStore.row?_write_fault hname f key data table' key'
  · simp [StatementsKeepRows, LocalStore.write, hname, CoreLibraries.store]

/-- A stored row is the one that was there exactly when it already held the value. -/
theorem rowsKept_of_not_fails {h : CoreHandle} {table key : String} {data : JsonValue}
    {env : WriteEnvironment} (hfails : ¬StoreFails lib h table key data env) :
    RowsKept h.store (h.store.write lib.store env.storeFault table key data).2 ↔
      RowHeld lib h table key data := by
  unfold StoreFails at hfails
  unfold RowHeld
  by_cases hname : quotable table = true
  · simp only [hname, if_true, not_not] at hfails ⊢
    rw [hfails]
    have hself : (h.store.write lib.store none table key data).2.row? table key =
        some ⟨lib.json.toString data,
          ((h.store.row? table key).map ProjectionRow.contaminated).getD false⟩ :=
      LocalStore.row?_write_self hname data
    constructor
    · intro hkept
      rw [← hkept table key, hself]
      rfl
    · intro hheld table' key'
      by_cases hrow : (sqlName table', key') = (sqlName table, key)
      · obtain ⟨hsql, rfl⟩ := Prod.mk.injEq _ _ _ _ ▸ hrow
        rw [LocalStore.row?_congr _ hsql, LocalStore.row?_congr _ hsql, hself]
        obtain ⟨row, hrow, hjson⟩ := Option.map_eq_some_iff.mp hheld
        rw [hrow]
        exact congrArg some (by cases row; simp_all [CoreLibraries.store])
      · exact LocalStore.row?_write_other hname none data hrow
  · simp [LocalStore.write, hname, CoreLibraries.store]

/-- The state before the Delta is registered: the clock has advanced and nothing is queued. -/
structure Produced (h h' : CoreHandle) : Prop where
  lamport : h'.crdt.lamport = h.crdt.lamport + 1
  durability : h'.durability = h.durability

theorem Produced.not_unchanged {h h' after : CoreHandle} (hproduced : Produced h h')
    (hunchanged : Unchanged h after) : after.crdt ≠ h'.crdt := by
  intro hsame
  have hclock := hunchanged.lamport
  rw [hsame, hproduced.lamport] at hclock
  simp at hclock

/-- A fault of the DAG fails the write after the clock has advanced. -/
theorem publishRow_of_fault (lib : CoreLibraries) (h : CoreHandle) (table key : String)
    (data : JsonValue) {env : WriteEnvironment} (hcrdt : env.poisoned .crdt = false)
    (hfault : ¬(env.produce.tipsFault = none ∧ env.produce.insertFault = none)) :
    ∃ h' err, Produced h h' ∧ h.publishRow lib table key data env = (.error err, h') := by
  have hproduce := produceWrite_eq lib h table key data hcrdt
  dsimp only at hproduce
  obtain ⟨err, herr⟩ := produceDeltaWithTags_of_fault lib.toEngineLibraries
    (({ h.crdt with doc := (savedDocument lib.json h.crdt table key data).commit } :
      CrdtEngine).compactAfterWrite lib.toEngineLibraries table env.compaction).2
    (lib.save (savedDocument lib.json h.crdt table key data)) .low
    ((h.humanReactionIncident table key env).toList.map .contaminatedByHumanReaction) hfault
  simp only [herr, lamport_compactAfterWrite, Except.map] at hproduce
  refine ⟨_, err, ?_, publishRow_of_error hproduce⟩
  exact ⟨rfl, rfl⟩

theorem publishRow_of_no_fault (lib : CoreLibraries) (h : CoreHandle) (table key : String)
    (data : JsonValue) {env : WriteEnvironment} (hcrdt : env.poisoned .crdt = false)
    (htips : env.produce.tipsFault = none) (hinsert : env.produce.insertFault = none) :
    ∃ h' δ compacted, Produced h h' ∧
      (h.humanReactionIncident table key env = none → h'.store = h.store) ∧
      h.publishRow lib table key data env = h'.commitWrite lib table δ compacted env := by
  have hproduce := produceWrite_eq lib h table key data hcrdt
  simp only [produceDeltaWithTags_of_no_fault _ _ _ _ htips hinsert, Except.map] at hproduce
  refine ⟨_, _, _, ⟨?_, ?_⟩, fun hclean => ?_, publishRow_of_ok hproduce⟩
  · rw [lamport_tagReaction]
    exact congrArg (· + 1) (lamport_compactAfterWrite _ _ _)
  · rw [durability_tagReaction]
  · rw [hclean]
    rfl

/-- With room in the queue the Delta is registered and waits there. -/
theorem registerWrite_of_lt (lib : CoreLibraries) {h : CoreHandle} {env : WriteEnvironment}
    (hmutex : env.poisoned .durability = false)
    (hroom : h.durability.cloudQueue.queue.length < maxQueueDepth) (δ : Delta)
    (compacted : Bool) :
    ∃ d, h.registerWrite lib δ compacted env = (.ok (), { h with durability := d }) ∧
      δ.id ∈ d.cloudQueue.ids := by
  refine ⟨_, by simp only [registerWrite, hmutex, DurabilitySubsystem.registerDelta_of_lt hroom,
    Bool.false_eq_true, if_false]; rfl, ?_⟩
  cases compacted with
  | false => simp [CloudOutboundQueue.ids, QueueEntry.new]
  | true =>
    simp only [if_true, CloudOutboundQueue.ids_markCompacted]
    simp [CloudOutboundQueue.ids, QueueEntry.new]

theorem registerWrite_of_le (lib : CoreLibraries) {h : CoreHandle} {env : WriteEnvironment}
    (hmutex : env.poisoned .durability = false)
    (hfull : maxQueueDepth ≤ h.durability.cloudQueue.queue.length) (δ : Delta)
    (compacted : Bool) :
    ∃ d, h.registerWrite lib δ compacted env =
      (.error (.cloudQueueFull h.durability.cloudQueue.queue.length),
        { h with durability := d }) := by
  have hout := DurabilitySubsystem.registerDelta_of_le hfull δ.id δ.id (lib.serialiseDelta δ)
    δ.causalParents ∅
  refine ⟨(h.durability.registerDelta δ.id δ.id (lib.serialiseDelta δ) δ.causalParents ∅).2, ?_⟩
  simp only [registerWrite, hmutex, hout, Bool.false_eq_true, if_false]

theorem crdt_captureWrite (h : CoreHandle) (table : String) (δ : Delta) (env : WriteEnvironment) :
    (h.captureWrite lib table δ env).crdt = h.crdt := by
  unfold captureWrite
  split_ifs <;> rfl

theorem durability_captureWrite (h : CoreHandle) (table : String) (δ : Delta)
    (env : WriteEnvironment) : (h.captureWrite lib table δ env).durability = h.durability := by
  unfold captureWrite
  split_ifs <;> rfl

theorem commitWrite_of_full (lib : CoreLibraries) {h : CoreHandle} {env : WriteEnvironment}
    (hmutex : env.poisoned .durability = false)
    (hfull : maxQueueDepth ≤ h.durability.cloudQueue.queue.length) (table : String) (δ : Delta)
    (compacted : Bool) :
    ∃ d, h.commitWrite lib table δ compacted env =
      (.error (.cloudQueueFull h.durability.cloudQueue.queue.length),
        { h with durability := d }) := by
  obtain ⟨d, hregister⟩ := registerWrite_of_le lib hmutex hfull δ compacted
  exact ⟨d, by simp only [commitWrite, hregister]⟩

/-- Once a Delta is made, the write queues it, or fails with the document and the clock as they
are then. -/
theorem commitWrite_cases (lib : CoreLibraries) (h : CoreHandle) (table : String) (δ : Delta) (compacted : Bool)
    (env : WriteEnvironment) :
    ((env.poisoned .durability = false ∧ h.durability.cloudQueue.queue.length < maxQueueDepth ∧
        env.poisoned .transport = false) ∧
      ∃ result h', h.commitWrite lib table δ compacted env = (.ok result, h') ∧
        result.deltaId ∈ h'.durability.cloudQueue.ids) ∨
    (¬(env.poisoned .durability = false ∧ h.durability.cloudQueue.queue.length < maxQueueDepth ∧
        env.poisoned .transport = false) ∧
      ∃ err h', h.commitWrite lib table δ compacted env = (.error err, h') ∧ h'.crdt = h.crdt) := by
  by_cases hmutex : env.poisoned .durability = false
  · rcases lt_or_ge h.durability.cloudQueue.queue.length maxQueueDepth with hroom | hfull
    · obtain ⟨d, hregister, hqueued⟩ :=
        registerWrite_of_lt lib hmutex hroom δ compacted
      by_cases htransport : env.poisoned .transport = false
      · refine .inl ⟨⟨hmutex, hroom, htransport⟩,
          ⟨δ.id, .uncommitted, h.capability.trustState.unverifiedWarning⟩,
          ((({ h with durability := d } : CoreHandle).captureWrite lib table δ env).publishWrite lib
            δ env).2, ?_, ?_⟩
        · simp only [commitWrite, hregister, publishWrite, htransport, Bool.false_eq_true, if_false,
            Except.map]
        · simpa only [publishWrite, htransport, Bool.false_eq_true, if_false,
            durability_captureWrite] using hqueued
      · rw [Bool.not_eq_false] at htransport
        refine .inr ⟨fun h => by simp [h.2.2] at htransport, poisonError "transport",
          ({ h with durability := d } : CoreHandle).captureWrite lib table δ env, ?_, ?_⟩
        · simp only [commitWrite, hregister, publishWrite, htransport, if_true, Except.map]
        · rw [crdt_captureWrite]
    · obtain ⟨d, hcommit⟩ := commitWrite_of_full lib hmutex hfull table δ compacted
      exact .inr ⟨fun h => absurd h.2.1 (not_lt.mpr hfull),
        .cloudQueueFull h.durability.cloudQueue.queue.length, { h with durability := d }, hcommit,
        rfl⟩
  · rw [Bool.not_eq_false] at hmutex
    refine .inr ⟨fun h => by simp [h.1] at hmutex, poisonError "durability", h, ?_, rfl⟩
    simp only [commitWrite, registerWrite, hmutex, if_true]

theorem publishRow_atomic_iff (before h : CoreHandle)
    (hcrdt : h.crdt = before.crdt) (hdurability : h.durability = before.durability)
    (table key : String) (data : JsonValue) {env : WriteEnvironment} (hmutex : env.poisoned .crdt = false) :
    WriteAtomic before (h.publishRow lib table key data env) ↔ Publishable before env := by
  by_cases hnofault : env.produce.tipsFault = none ∧ env.produce.insertFault = none
  · obtain ⟨h', δ, compacted, hproduced, -, hout⟩ :=
      publishRow_of_no_fault lib h table key data hmutex hnofault.1 hnofault.2
    have hmoved : Produced before h' := ⟨hcrdt ▸ hproduced.lamport,
      hproduced.durability.trans hdurability⟩
    rw [hout]
    rcases commitWrite_cases lib h' table δ compacted env with
      ⟨⟨hdur, hroom, htransport⟩, result, after, hcommit, hqueued⟩ |
        ⟨hfails, err, after, hcommit, hsame⟩
    · rw [hcommit]
      refine iff_of_true ⟨?_, ?_⟩ ⟨hnofault.1, hnofault.2, hdur, ?_, htransport⟩
      · intro e he
        cases he
      · intro result' hresult
        cases hresult
        exact hqueued
      · rw [← hmoved.durability]
        exact hroom
    · rw [hcommit]
      refine iff_of_false (fun hatomic => ?_) fun hpub => hfails ?_
      · exact hmoved.not_unchanged (hatomic.unchanged err rfl) hsame
      · rw [hmoved.durability]
        exact ⟨hpub.durability, hpub.room, hpub.transport⟩
  · obtain ⟨h', err, hproduced, hout⟩ :=
      publishRow_of_fault lib h table key data hmutex hnofault
    have hmoved : Produced before h' := ⟨hcrdt ▸ hproduced.lamport,
      hproduced.durability.trans hdurability⟩
    rw [hout]
    refine iff_of_false (fun hatomic => ?_) fun hpub => hnofault ⟨hpub.tips, hpub.insert⟩
    exact hmoved.not_unchanged (hatomic.unchanged err rfl) rfl

theorem writeAtomic_of_error (h : CoreHandle) (e : TirBaseError) : WriteAtomic h (.error e, h) :=
  ⟨fun _ _ => ⟨fun _ _ => rfl, rfl, rfl, rfl, rfl, rfl, rfl⟩, fun _ hok => by cases hok⟩

theorem writeAtomic_store_iff (h : CoreHandle) (e : TirBaseError) (store : LocalStore) :
    WriteAtomic h (.error e, { h with store := store }) ↔ RowsKept h.store store :=
  ⟨fun hatomic => (hatomic.unchanged e rfl).rows,
    fun hrows => ⟨fun _ _ => ⟨hrows, rfl, rfl, rfl, rfl, rfl, rfl⟩, fun _ hok => by cases hok⟩⟩

/-- The steps after the store, from the state that the store leaves. -/
theorem publishRow_stored_atomic_iff {h : CoreHandle} {table key : String} {data : JsonValue}
    {env : WriteEnvironment} (hfails : ¬StoreFails lib h table key data env) :
    WriteAtomic h (({ h with store :=
        (h.store.write lib.store env.storeFault table key data).2 } : CoreHandle).publishRow lib
          table key data env) ↔ PublishesOrKeeps lib h table key data env := by
  unfold PublishesOrKeeps
  by_cases hmutex : env.poisoned .crdt = true
  · rw [if_pos hmutex, ← rowsKept_of_not_fails hfails, ← writeAtomic_store_iff h (poisonError "crdt")]
    have hproduce : ∀ h' : CoreHandle,
        h'.produceWrite lib table key data env = (.error (poisonError "crdt"), h') := fun h' => by
      simp only [produceWrite, hmutex, if_true]
    rw [publishRow_of_error (hproduce _)]
  · rw [if_neg hmutex]
    rw [Bool.not_eq_true] at hmutex
    exact publishRow_atomic_iff h { h with
      store := (h.store.write lib.store env.storeFault table key data).2 } rfl rfl table key data
      hmutex

/-- A write is atomic exactly when no step of it fails after an earlier one has changed
something. -/
theorem write_atomic_iff (lib : CoreLibraries) (h : CoreHandle) (table key : String)
    (data : JsonValue) (env : WriteEnvironment) :
    WriteAtomic h (h.write lib table key data env) ↔ NoLateFailure lib h table key data env := by
  by_cases hgate : RefusedAtGate h env
  · have hrefused : ∃ e, h.write lib table key data env = (.error e, h) := by
      unfold write
      split_ifs with hcapability hstore
      · exact ⟨_, rfl⟩
      · split <;> exact ⟨_, rfl⟩
      · rcases hgate with hpoisoned | hrevoked | hpoisoned
        · exact absurd hpoisoned hcapability
        · rw [ensureLocalTrustAllowsIo_iff.mpr hrevoked]
          exact ⟨_, rfl⟩
        · exact absurd hpoisoned hstore
    obtain ⟨e, hout⟩ := hrefused
    rw [hout]
    exact iff_of_true (writeAtomic_of_error h e) (.inl hgate)
  · simp only [RefusedAtGate, not_or, Bool.not_eq_true] at hgate
    obtain ⟨hcapability, htrust, hstore⟩ := hgate
    have hopen : h.capability.ensureLocalTrustAllowsIo = .ok () := by
      simp [CapabilityManager.ensureLocalTrustAllowsIo, htrust]
    have hcondition : NoLateFailure lib h table key data env ↔
        (StoreFails lib h table key data env ∧ StatementsKeepRows lib h table key data) ∨
        (¬StoreFails lib h table key data env ∧ PublishesOrKeeps lib h table key data env) := by
      simp [NoLateFailure, RefusedAtGate, hcapability, htrust, hstore]
    rw [hcondition]
    by_cases hfails : StoreFails lib h table key data env
    · obtain ⟨err, herr⟩ := store_write_of_fails hfails
      have hout : h.write lib table key data env = (.error err, { h with
          store := (h.store.write lib.store env.storeFault table key data).2 }) := by
        simp [write, hcapability, hopen, hstore, herr]
      rw [hout, writeAtomic_store_iff, rowsKept_of_fails hfails]
      simp [hfails]
    · have hout : h.write lib table key data env = ({ h with
          store := (h.store.write lib.store env.storeFault table key data).2 } :
            CoreHandle).publishRow lib table key data env := by
        simp [write, hcapability, hopen, hstore, store_write_of_not_fails hfails]
      rw [hout, publishRow_stored_atomic_iff hfails]
      simp [hfails]

/-- A full queue fails the publication of an uncontaminated row, which stays. -/
theorem publishRow_of_full (lib : CoreLibraries) (h : CoreHandle) (table key : String)
    (data : JsonValue) (env : WriteEnvironment) (hcrdt : env.poisoned .crdt = false)
    (htips : env.produce.tipsFault = none) (hinsert : env.produce.insertFault = none)
    (hmutex : env.poisoned .durability = false)
    (hclean : h.humanReactionIncident table key env = none)
    (hfull : maxQueueDepth ≤ h.durability.cloudQueue.queue.length) :
    ∃ h', h.publishRow lib table key data env =
        (.error (.cloudQueueFull h.durability.cloudQueue.queue.length), h') ∧
      h'.store = h.store := by
  obtain ⟨h', δ, compacted, hproduced, hstore, hout⟩ :=
    publishRow_of_no_fault lib h table key data hcrdt htips hinsert
  rw [← hproduced.durability] at hfull ⊢
  obtain ⟨d, hcommit⟩ := commitWrite_of_full lib hmutex hfull table δ compacted
  exact ⟨_, hout.trans hcommit, hstore hclean⟩

def registered (ids : List DeltaId) : DurabilitySubsystem :=
  ids.foldl (fun d id => (d.registerDelta id id [7] [] ∅).2) .new

theorem length_registered {ids : List DeltaId} (hlength : ids.length ≤ maxQueueDepth) :
    (registered ids).cloudQueue.queue.length = ids.length := by
  induction ids using List.reverseRecOn with
  | nil => rfl
  | append_singleton ids id ih =>
    rw [List.length_append, List.length_singleton] at hlength
    have hroom : (registered ids).cloudQueue.queue.length < maxQueueDepth := by
      rw [ih (by omega)]
      omega
    rw [registered, List.foldl_append, List.foldl_cons, List.foldl_nil, ← registered,
      DurabilitySubsystem.registerDelta_of_lt hroom]
    simp [ih (by omega)]

theorem length_registered_range {n : ℕ} (hn : n ≤ maxQueueDepth) (id : ℕ → DeltaId) :
    (registered ((List.range n).map id)).cloudQueue.queue.length = n := by
  have hlength : ((List.range n).map id).length = n := by simp
  rw [length_registered (by rwa [hlength]), hlength]

def deviceOver (d : DurabilitySubsystem) : CoreHandle :=
  { sampleHandle ⟨.empty, .empty, [], []⟩ with durability := d }

/-- A write behind a full queue fails and leaves a row without a queued Delta. -/
theorem write_of_full {d : DurabilitySubsystem} (hfull : d.cloudQueue.queue.length = maxQueueDepth) :
    let h := deviceOver d
    let out := h.write (sampleCoreLibraries []) "items" "k" .null (calmWrite 0)
    out.1 = .error (.cloudQueueFull maxQueueDepth) ∧ h.store.row? "items" "k" = none ∧
      out.2.store.row? "items" "k" = some ⟨"null", false⟩ ∧ ¬WriteAtomic h out := by
  intro h out
  let stored : CoreHandle := { h with
    store := (LocalStore.empty.write (sampleCoreLibraries []).store none "items" "k" .null).2 }
  obtain ⟨h', hfails, hstore⟩ := publishRow_of_full (sampleCoreLibraries []) stored "items" "k"
    .null (calmWrite 0) rfl rfl rfl rfl rfl hfull.ge
  have hout : out = (.error (.cloudQueueFull d.cloudQueue.queue.length), h') := hfails
  rw [hfull] at hout
  have hbefore : h.store.row? "items" "k" = none := rfl
  have hrow : (LocalStore.empty.write (sampleCoreLibraries []).store none "items" "k"
      .null).2.row? "items" "k" = some ⟨"null", false⟩ := by decide +kernel
  have hafter : out.2.store.row? "items" "k" = some ⟨"null", false⟩ := by
    rw [hout, hstore]
    exact hrow
  refine ⟨by rw [hout], hbefore, hafter, fun hatomic => ?_⟩
  have hkept := (hatomic.unchanged (.cloudQueueFull maxQueueDepth) (by rw [hout])).rows "items" "k"
  rw [hbefore, hafter] at hkept
  cases hkept

/-- So it is on a device that has registered as many Deltas as its queue takes. -/
theorem full_queue_leaves_row :
    let h := deviceOver (registered ((List.range maxQueueDepth).map (BitVec.ofNat 256)))
    let out := h.write (sampleCoreLibraries []) "items" "k" .null (calmWrite 0)
    out.1 = .error (.cloudQueueFull maxQueueDepth) ∧ h.store.row? "items" "k" = none ∧
      out.2.store.row? "items" "k" = some ⟨"null", false⟩ ∧ ¬WriteAtomic h out :=
  write_of_full (length_registered_range le_rfl _)

end TirBase.WriteAtomicity
