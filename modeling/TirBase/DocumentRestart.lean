import TirBase.DeviceRuns
import TirBase.WrittenDeltas

/-! # The document across restarts

A start builds an empty document and a clock at 0 for the actor that the device always had, while
the rows and the DAG are still in the database. -/
namespace TirBase.DocumentRestart
open Automerge CoreHandle CrdtEngine DeviceRuns DocumentGrowth DocumentHistories
open OperationRegisters ScalarProjection TransitionRuns WrittenDeltas

/-- A device with what it found and lost at its last start, the changes that its document ever
held, those that it made, and the values that its rows were given. -/
structure RestartState where
  device : CoreHandle
  found : ChangesetDag
  lost : List Change
  held : List Change
  produced : List Change
  values : List (String × ScalarValue)

inductive RestartOperation
  | write (table key : String) (data : JsonValue) (env : WriteEnvironment)
  | receiveDelta (δ : Delta) (env : InboundEnvironment)
  | restart (started : Bool)

def incomingOf (lib : EngineLibraries) (e : CrdtEngine) (δ : Delta) : Option Document :=
  match e.gate lib δ with
  | .pass _ => loadIncomingDoc lib δ.automergeBytes
  | _ => none

def namedValue (d : Document) : Option (String × ScalarValue) :=
  ((readScalar d "_tirbase_key").bind JsonValue.asStr?).bind fun key =>
    (d.rootScalar key).map fun value => (key, value)

section Machine
variable (lib : CoreLibraries) (config : DeploymentConfig)

def reachesDocument (h : CoreHandle) (table key : String) (data : JsonValue)
    (env : WriteEnvironment) : Bool :=
  (producing lib h table key data env).isSome && !env.poisoned .crdt

def deviceAfter (h : CoreHandle) : RestartOperation → CoreHandle
  | .write table key data env => (h.write lib table key data env).2
  | .receiveDelta δ env => (h.receiveInbound lib (.inboundDelta δ) env).2
  | .restart started => DeviceRuns.restart lib config h started

def written (h : CoreHandle) : RestartOperation → Option Delta
  | .write table key data env => writtenDelta lib h table key data env
  | _ => none

/-- The changes that the operation makes: a write commits its transaction, a merge the open one. -/
def produces (h : CoreHandle) : RestartOperation → List Change
  | .write table key data env =>
    if reachesDocument lib h table key data env then
      closing (savedDocument lib.json h.crdt table key data)
    else []
  | .receiveDelta δ _ =>
    if (incomingOf lib.toEngineLibraries h.crdt δ).isSome then closing h.crdt.doc else []
  | .restart _ => []

/-- The `ROOT` value that the operation gives a row: the written one, or the one that the merged
document shows. -/
def stores (h : CoreHandle) : RestartOperation → Option (String × ScalarValue)
  | .write table key data env =>
    if reachesDocument lib h table key data env then some (key, scalarOfJson lib.json data) else none
  | .receiveDelta δ _ =>
    ((incomingOf lib.toEngineLibraries h.crdt δ).bind fun incoming =>
      mergeIncoming h.crdt.doc incoming δ.lamport h.crdt.lamport).bind namedValue
  | .restart _ => none

def RestartState.start (h : CoreHandle) : RestartState := ⟨h, h.crdt.dag, [], [], [], []⟩

def RestartState.step (s : RestartState) (op : RestartOperation) : RestartState where
  device := deviceAfter lib config s.device op
  found := match op with
    | .restart _ => s.device.crdt.dag
    | _ => s.found
  lost := match op with
    | .restart _ => s.held
    | _ => s.lost
  held := s.held ++ (deviceAfter lib config s.device op).crdt.doc.changes
  produced := s.produced ++ produces lib s.device op
  values := s.values ++ (stores lib s.device op).toList

/-- The changes that the device made are numbered apart, and a Delta that it writes is ahead of the
stored ones and carries all that it ever held, with every value that a row was given. -/
structure Safe (s : RestartState) (op : RestartOperation) : Prop where
  numbered : ∀ c ∈ (s.step lib config op).produced, ∀ c' ∈ (s.step lib config op).produced,
    c.actor = c'.actor → c.seq = c'.seq → c = c'
  ahead : ∀ δ ∈ written lib s.device op, ∀ row ∈ s.device.crdt.dag.nodes, row.lamport < δ.lamport
  carries : ∀ δ ∈ written lib s.device op, ∃ changes,
    lib.load δ.automergeBytes = some changes ∧ (∀ c ∈ s.held, c ∈ changes) ∧
      ∀ kv ∈ s.values, Puts (changes.flatMap Change.ops) kv.1 kv.2

/-- Nothing is missing in the document of what it held before the last start. -/
def Back (s : RestartState) : Prop := ∀ c ∈ s.lost, c ∈ s.device.crdt.doc.changes

/-- Nothing is missing, the clock is not behind a row that the last start found, and there is room
on it. -/
structure Ready (s : RestartState) : Prop where
  back : Back s
  behind : ∀ row ∈ s.found.nodes, row.lamport ≤ s.device.crdt.lamport
  room : s.device.crdt.lamport.toNat < 2 ^ 64 - 1

/-- A write comes to a document and a clock that are ready for it. A merge closes a transaction only
where nothing is missing, with clock values below the greatest one. -/
def Restored (s : RestartState) : RestartOperation → Prop
  | .write table key data env => reachesDocument lib s.device table key data env = true → Ready s
  | .receiveDelta δ env =>
    ((incomingOf lib.toEngineLibraries s.device.crdt δ).isSome = true →
      s.device.crdt.doc.pending ≠ [] → Back s) ∧
        LamportClock.RoomFor lib.toEngineLibraries s.device.crdt (.apply δ env.now env.applyFault)
  | .restart _ => True

def ReadsBackWrites (s : RestartState) : RestartOperation → Prop
  | .write table key data _ => SavesReadBack lib s.device table key data
  | _ => True

/-- A loaded document holds each change once, and a merge that fails has closed the transaction and
may have added changes of the other document. -/
structure AutomergeHolds (lib : EngineLibraries) : Prop where
  loadsOnce : ∀ bytes changes, lib.load bytes = some changes → changes.Nodup
  failedMerge : ∀ d incoming, d.merge incoming = none →
    Grows d (lib.failedMerge d incoming).2 (closing d) incoming.changes

end Machine

/-- The number of the change is no greater than the number of changes of its actor in a list that
covers these. -/
def Counted (held : List Change) (c : Change) : Prop :=
  ∀ changes : List Change, held ⊆ changes →
    c.seq ≤ (changes.filter fun c' => c'.actor == c.actor).length

structure Kept (s : RestartState) : Prop where
  clock : LamportClock.Tracks s.found s.device.crdt
  nodup : s.device.crdt.doc.changes.Nodup
  docHeld : s.device.crdt.doc.changes ⊆ s.held
  heldKept : ∀ c ∈ s.held, c ∈ s.lost ∨ c ∈ s.device.crdt.doc.changes
  counted : ∀ c ∈ s.produced, Counted s.held c
  numbered : ∀ c ∈ s.produced, ∀ c' ∈ s.produced, c.actor = c'.actor → c.seq = c'.seq → c = c'
  values : ∀ kv ∈ s.values, Puts (s.held.flatMap Change.ops) kv.1 kv.2

section Kept
variable {s s' : RestartState} {made others : List Change}

theorem Counted.mono {held held' : List Change} {c : Change} (h : Counted held c)
    (hsub : held ⊆ held') : Counted held' c :=
  fun changes hchanges => h changes fun _ hc => hchanges (hsub hc)

theorem counted_made {changes : List Change} (hnodup : changes.Nodup) (hmade : Made changes made)
    {c : Change} (hc : c ∈ made) {held : List Change} (hheld : changes ++ made ⊆ held) :
    Counted held c := by
  intro covering hcovering
  have hall : (changes ++ [c]).Nodup := by
    rw [List.nodup_append]
    refine ⟨hnodup, List.nodup_singleton c, fun c' hc' c'' hc'' => ?_⟩
    rw [List.mem_singleton.mp hc'']
    rintro rfl
    exact hmade.fresh _ hc hc'
  have hsub : changes ++ [c] ⊆ covering := by
    intro c' hc'
    refine hcovering (hheld ?_)
    rcases List.mem_append.mp hc' with hold | hnew
    · exact List.mem_append_left _ hold
    · rw [List.mem_singleton.mp hnew]
      exact List.mem_append_right _ hc
  have hsubperm := (List.subperm_of_subset hall hsub).filter fun c' => c'.actor == c.actor
  have hlength := hsubperm.length_le
  rw [List.filter_append, List.length_append, List.filter_singleton, beq_self_eq_true] at hlength
  rw [hmade.seq c hc]
  exact hlength

/-- A step on the same start: the document grows, at most one change is made, and that with nothing
missing. -/
theorem Kept.advance (h : Kept s) (hfound : s'.found = s.found) (hlost : s'.lost = s.lost)
    (hclock : LamportClock.Tracks s.found s'.device.crdt)
    (hmade : Made s.device.crdt.doc.changes made)
    (hgrows : Grows s.device.crdt.doc s'.device.crdt.doc made others) (hfrom : others.Nodup)
    (hback : made ≠ [] → Back s) (hheld : s'.held = s.held ++ s'.device.crdt.doc.changes)
    (hproduced : s'.produced = s.produced ++ made)
    (hvalues : ∀ kv ∈ s'.values, kv ∈ s.values ∨
      Puts (s'.device.crdt.doc.changes.flatMap Change.ops) kv.1 kv.2) : Kept s' := by
  obtain ⟨added, hchanges, hsublist, hnew⟩ := hgrows.changes
  have hkept : s.device.crdt.doc.changes ++ made ⊆ s'.device.crdt.doc.changes := by
    rw [hchanges]
    exact List.subset_append_left _ _
  have hcounted : ∀ c ∈ made, ∀ c' ∈ s.produced, c.actor = c'.actor → c'.seq < c.seq := by
    intro c hc c' hc' hactor
    have hcovers : s.held ⊆ s.device.crdt.doc.changes := by
      intro c'' hc''
      rcases h.heldKept c'' hc'' with hlostChange | hdoc
      · exact hback (List.ne_nil_of_mem hc) c'' hlostChange
      · exact hdoc
    have hbound := h.counted c' hc' _ hcovers
    rw [hmade.seq c hc, hactor]
    omega
  constructor
  · rw [hfound]
    exact hclock
  · rw [hchanges, List.nodup_append]
    refine ⟨List.nodup_append.mpr ⟨h.nodup, hmade.nodup, ?_⟩, hfrom.sublist hsublist, ?_⟩
    · rintro c hc c' hc' rfl
      exact hmade.fresh c hc' hc
    · rintro c hc c' hc' rfl
      exact hnew c hc' hc
  · rw [hheld]
    exact List.subset_append_right _ _
  · intro c hc
    rw [hheld] at hc
    rw [hlost]
    rcases List.mem_append.mp hc with hold | hdoc
    · rcases h.heldKept c hold with hlostChange | hdoc
      · exact .inl hlostChange
      · exact .inr (hkept (List.mem_append_left _ hdoc))
    · exact .inr hdoc
  · intro c hc
    rw [hproduced] at hc
    rw [hheld]
    rcases List.mem_append.mp hc with hold | hmadeNow
    · exact (h.counted c hold).mono (List.subset_append_left _ _)
    · exact counted_made h.nodup hmade hmadeNow
        (List.Subset.trans hkept (List.subset_append_right _ _))
  · intro c hc c' hc' hactor hseq
    rw [hproduced] at hc hc'
    rcases List.mem_append.mp hc with hold | hnow <;> rcases List.mem_append.mp hc' with hold' | hnow'
    · exact h.numbered c hold c' hold' hactor hseq
    · have hlt := hcounted c' hnow' c hold hactor.symm
      omega
    · have hlt := hcounted c hnow c' hold' hactor
      omega
    · exact hmade.single c hnow c' hnow'
  · intro kv hkv
    rw [hheld]
    rcases hvalues kv hkv with hold | hnow
    · exact (h.values kv hold).of_changes (List.subset_append_left _ _)
    · exact hnow.of_changes (List.subset_append_right _ _)

end Kept

section Step
variable {lib : CoreLibraries} {config : DeploymentConfig} {s : RestartState}

theorem puts_of_put (d : Document) (key : String) (value : ScalarValue) :
    Puts (d.put key value).ops key value := by
  rcases Document.put_cases d key value with ⟨hput, o, hvisible, haction⟩ | hput
  · have hmem : o ∈ visibleAt d.ops (Target.root key) := by
      rw [hvisible]
      exact List.mem_cons_self
    obtain ⟨ho, htarget, -⟩ := mem_visibleAt.mp hmem
    rw [hput]
    exact ⟨o, ho, htarget, haction⟩
  · refine ⟨d.putOp key value, ?_, rfl, rfl⟩
    rw [hput, Document.ops_append_putOp]
    exact List.mem_append_right _ List.mem_cons_self

theorem puts_savedDocument (json : JsonText) (e : CrdtEngine) (table key : String)
    (data : JsonValue) : Puts ((savedDocument json e table key data).commit.changes.flatMap
      Change.ops) key (scalarOfJson json data) := by
  rw [← Document.ops_of_pending (Document.pending_commit _), Document.ops_commit]
  exact puts_of_put _ _ _

theorem reachesDocument_of_written {h : CoreHandle} {table key : String} {data : JsonValue}
    {env : WriteEnvironment} {δ : Delta} (hδ : δ ∈ writtenDelta lib h table key data env) :
    reachesDocument lib h table key data env = true := by
  obtain ⟨h', hproducing, hmade⟩ := Option.bind_eq_some_iff.mp hδ
  have hpoisoned : env.poisoned .crdt = false := by
    by_contra hpoisoned
    rw [Bool.not_eq_false] at hpoisoned
    simp [produceWrite, hpoisoned, Except.toOption] at hmade
  simp [reachesDocument, hproducing, hpoisoned]

theorem changes_write {h : CoreHandle} {table key : String} {data : JsonValue}
    (hreads : SavesReadBack lib h table key data) (env : WriteEnvironment) :
    (h.write lib table key data env).2.crdt.doc.changes =
      h.crdt.doc.changes ++ produces lib h (.write table key data env) := by
  rcases crdt_write lib h table key data env with
    ⟨hproducing, hcrdt⟩ | ⟨store, hproducing, -, hdoc, -⟩
  · simp [hcrdt, produces, reachesDocument, hproducing]
  · have hproduced := changes_produceWrite (h := { h with store := store }) hreads env
    rw [hdoc, hproduced]
    cases hpoisoned : env.poisoned .crdt <;>
      simp [produces, reachesDocument, hproducing, hpoisoned]

theorem made_write (h : CoreHandle) (table key : String) (data : JsonValue)
    (env : WriteEnvironment) :
    Made h.crdt.doc.changes (produces lib h (.write table key data env)) := by
  simp only [produces]
  split_ifs
  · exact made_closing (changes_savedDocument lib.json h.crdt table key data)
  · exact made_nil _

theorem Kept.write (h : Kept s) {table key : String} {data : JsonValue} {env : WriteEnvironment}
    (hreads : ReadsBackWrites lib s (.write table key data env))
    (hguard : Restored lib s (.write table key data env)) :
    Kept (s.step lib config (.write table key data env)) := by
  have hchanges := changes_write hreads env
  have hreaches : produces lib s.device (.write table key data env) ≠ [] →
      reachesDocument lib s.device table key data env = true := by
    intro hne
    by_contra hnot
    exact hne (if_neg hnot)
  refine h.advance rfl rfl ?_ (made_write s.device table key data env) ⟨[], ?_, List.nil_sublist [], ?_⟩
    List.nodup_nil (fun hne => (hguard (hreaches hne)).back) rfl rfl fun kv hkv => ?_
  · refine tracks_write h.clock fun hproducing hpoisoned => (hguard ?_).room
    simp [reachesDocument, hproducing, hpoisoned]
  · rw [List.append_nil]
    exact hchanges
  · exact fun _ hc => absurd hc List.not_mem_nil
  · rcases List.mem_append.mp hkv with hold | hnow
    · exact .inl hold
    · refine .inr ?_
      have hstored := Option.mem_toList.mp hnow
      simp only [stores] at hstored
      split_ifs at hstored with hreached
      · have hafter : (s.device.write lib table key data env).2.crdt.doc.changes =
            (savedDocument lib.json s.device.crdt table key data).commit.changes := by
          rw [hchanges, changes_commit, changes_savedDocument]
          simp only [produces, if_pos hreached]
        rw [← Option.some.inj hstored]
        change Puts ((s.device.write lib table key data env).2.crdt.doc.changes.flatMap Change.ops)
          key (scalarOfJson lib.json data)
        rw [hafter]
        exact puts_savedDocument lib.json s.device.crdt table key data

theorem doc_apply (lib : EngineLibraries) (e : CrdtEngine) (δ : Delta) (now : ℤ)
    (fault : DagFault) : (e.apply lib .native δ now fault).2.doc =
      match incomingOf lib e δ with
      | none => e.doc
      | some incoming => (mergeIncoming e.doc incoming δ.lamport e.lamport).getD
          (lib.failedMerge e.doc incoming).2 := by
  cases hgate : e.gate lib δ with
  | reject code reason => simp [CrdtEngine.apply, hgate, incomingOf]
  | quarantine reason => simp [CrdtEngine.apply, hgate, incomingOf]
  | pass adopt =>
    have hincoming : incomingOf lib e δ = loadIncomingDoc lib δ.automergeBytes := by
      simp only [incomingOf, hgate]
    rw [hincoming]
    cases hmerge : e.mergePayload lib δ with
    | some doc =>
      have hdoc : (e.apply lib .native δ now fault).2.doc = doc := by
        rcases apply_of_pass hgate hmerge .native now fault with ⟨err, -, -, happly⟩ | happly
        · rw [happly]
          rfl
        · rw [happly]
          rfl
      rw [hdoc]
      unfold mergePayload at hmerge
      cases hloaded : loadIncomingDoc lib δ.automergeBytes with
      | none =>
        rw [hloaded] at hmerge
        exact (Option.some.inj hmerge).symm
      | some incoming =>
        rw [hloaded] at hmerge
        dsimp only at hmerge ⊢
        rw [hmerge, Option.getD_some]
    | none =>
      have hsame : (if adopt then e.addKnownSchema δ.schemaHash else e).mergePayload lib δ =
          none := by
        cases adopt <;> exact hmerge
      have hdoc : (e.apply lib .native δ now fault).2.doc = e.failedDoc lib δ := by
        simp only [CrdtEngine.apply, hgate, hsame]
        cases adopt <;> rfl
      rw [hdoc]
      unfold mergePayload at hmerge
      unfold failedDoc failedMerge
      cases hloaded : loadIncomingDoc lib δ.automergeBytes with
      | none => rfl
      | some incoming =>
        rw [hloaded] at hmerge
        dsimp only at hmerge ⊢
        rw [hmerge, Option.getD_none]

theorem incomingOf_loaded {lib : EngineLibraries} {e : CrdtEngine} {δ : Delta} {incoming : Document}
    (h : incomingOf lib e δ = some incoming) :
    incoming.pending = [] ∧ lib.load δ.automergeBytes = some incoming.changes := by
  unfold incomingOf at h
  split at h
  · unfold loadIncomingDoc at h
    split_ifs at h
    obtain ⟨changes, hload, rfl⟩ := Option.map_eq_some_iff.mp h
    exact ⟨rfl, hload⟩
  · cases h

theorem grows_receive (hlib : AutomergeHolds lib.toEngineLibraries) (h : CoreHandle) (δ : Delta)
    (env : InboundEnvironment) : ∃ others : List Change, others.Nodup ∧
      Grows h.crdt.doc (h.receiveDelta lib δ env).2.crdt.doc
        (produces lib h (.receiveDelta δ env)) others ∧
      ∀ kv ∈ stores lib h (.receiveDelta δ env),
        Puts ((h.receiveDelta lib δ env).2.crdt.doc.changes.flatMap Change.ops) kv.1 kv.2 := by
  have hdoc := doc_apply lib.toEngineLibraries h.crdt δ env.now env.applyFault
  rw [← crdt_receiveDelta h δ env] at hdoc
  rw [hdoc]
  simp only [produces, stores]
  cases hincoming : incomingOf lib.toEngineLibraries h.crdt δ with
  | none =>
    refine ⟨[], List.nodup_nil, ⟨[], by simp, List.nil_sublist [], ?_⟩, fun kv hkv => ?_⟩
    · exact fun _ hc => absurd hc List.not_mem_nil
    · cases hkv
  | some incoming =>
    obtain ⟨hpending, hload⟩ := incomingOf_loaded hincoming
    refine ⟨incoming.changes, hlib.loadsOnce _ _ hload, ?_⟩
    simp only [Option.isSome_some, if_true, Option.bind_some]
    cases hmerged : mergeIncoming h.crdt.doc incoming δ.lamport h.crdt.lamport with
    | none =>
      refine ⟨hlib.failedMerge _ _ ?_, fun kv hkv => by cases hkv⟩
      exact Option.map_eq_none_iff.mp hmerged
    | some merged =>
      obtain ⟨hgrows, hshown⟩ := mergeIncoming_grows hpending hmerged
      refine ⟨hgrows, fun kv hkv => ?_⟩
      have hnamed : namedValue merged = some kv := hkv
      obtain ⟨key, -, hkey⟩ := Option.bind_eq_some_iff.mp hnamed
      obtain ⟨value, hvalue, rfl⟩ := Option.map_eq_some_iff.mp hkey
      exact hshown key value hvalue

theorem Kept.receive (h : Kept s) (hlib : AutomergeHolds lib.toEngineLibraries) {δ : Delta}
    {env : InboundEnvironment} (hguard : Restored lib s (.receiveDelta δ env)) :
    Kept (s.step lib config (.receiveDelta δ env)) := by
  obtain ⟨hback, hroom⟩ := hguard
  obtain ⟨others, hfrom, hgrows, hputs⟩ := grows_receive hlib s.device δ env
  have hmade : Made s.device.crdt.doc.changes
      (produces lib s.device (.receiveDelta δ env)) := by
    simp only [produces]
    split_ifs
    · exact made_closing rfl
    · exact made_nil _
  have hclock : LamportClock.Tracks s.found (EngineRuns.step lib.toEngineLibraries .native
      s.device.crdt (.apply δ env.now env.applyFault)) := h.clock.step hroom
  have hcrdt : (s.device.receiveDelta lib δ env).2.crdt = EngineRuns.step lib.toEngineLibraries
      .native s.device.crdt (.apply δ env.now env.applyFault) := crdt_receiveDelta s.device δ env
  refine h.advance rfl rfl ?_ hmade hgrows hfrom (fun hne => ?_) rfl rfl fun kv hkv => ?_
  · change LamportClock.Tracks s.found (s.device.receiveDelta lib δ env).2.crdt
    rw [hcrdt]
    exact hclock
  · simp only [produces] at hne
    split_ifs at hne with hsome
    · refine hback hsome fun hpending => hne ?_
      rw [closing, if_pos hpending]
    · exact absurd rfl hne
  · rcases List.mem_append.mp hkv with hold | hnow
    · exact .inl hold
    · exact .inr (hputs kv (Option.mem_toList.mp hnow))

theorem Kept.restart (h : Kept s) {started : Bool}
    (hstarted : Started lib config s.device.identity s.device.storage
      (DeviceRuns.restart lib config s.device started)) :
    Kept (s.step lib config (.restart started)) := by
  have hdoc : (DeviceRuns.restart lib config s.device started).crdt.doc.changes = [] := by
    rw [hstarted.engine.doc]
    rfl
  have hheld : (s.step lib config (.restart started)).held = s.held := by
    change s.held ++ (DeviceRuns.restart lib config s.device started).crdt.doc.changes = s.held
    rw [hdoc, List.append_nil]
  have hproduced : (s.step lib config (.restart started)).produced = s.produced :=
    List.append_nil _
  have hvalues : (s.step lib config (.restart started)).values = s.values := List.append_nil _
  constructor
  · have hdag : (DeviceRuns.restart lib config s.device started).crdt.dag = s.device.crdt.dag :=
      hstarted.engine.dag
    change LamportClock.Tracks s.device.crdt.dag
      (DeviceRuns.restart lib config s.device started).crdt
    rw [← hdag]
    exact LamportClock.tracks_start _
  · change (DeviceRuns.restart lib config s.device started).crdt.doc.changes.Nodup
    rw [hdoc]
    exact List.nodup_nil
  · change (DeviceRuns.restart lib config s.device started).crdt.doc.changes ⊆ _
    rw [hdoc]
    exact List.nil_subset _
  · intro c hc
    rw [hheld] at hc
    exact .inl hc
  · rw [hproduced, hheld]
    exact h.counted
  · rw [hproduced]
    exact h.numbered
  · rw [hvalues, hheld]
    exact h.values

end Step

section Run
variable {lib : CoreLibraries} {config : DeploymentConfig} {identity : Identity}
  {storage : Storage} {started : Bool} {h : CoreHandle}

theorem kept_start (hinit : init lib config identity storage started = .ok h) :
    Kept (.start h) := by
  have hdoc : h.crdt.doc.changes = [] := by
    rw [(started_of_init hinit).engine.doc]
    rfl
  constructor
  · exact LamportClock.tracks_start h.crdt
  · change h.crdt.doc.changes.Nodup
    rw [hdoc]
    exact List.nodup_nil
  · change h.crdt.doc.changes ⊆ []
    rw [hdoc]
    exact List.nil_subset _
  · exact fun _ hc => absurd hc List.not_mem_nil
  · exact fun _ hc => absurd hc List.not_mem_nil
  · exact fun _ hc => absurd hc List.not_mem_nil
  · exact fun _ hkv => absurd hkv List.not_mem_nil

theorem kept_step (hinit : init lib config identity storage started = .ok h)
    (hlib : AutomergeHolds lib.toEngineLibraries) {s : RestartState} (op : RestartOperation)
    (hs : Kept s) (hreads : ReadsBackWrites lib s op) (hguard : Restored lib s op) :
    Kept (s.step lib config op) := by
  cases op with
  | write table key data env => exact hs.write hreads hguard
  | receiveDelta δ env => exact hs.receive hlib hguard
  | restart again => exact hs.restart (started_restart hinit s.device again)

theorem safe_of_kept (hinit : init lib config identity storage started = .ok h)
    (hlib : AutomergeHolds lib.toEngineLibraries) {s : RestartState} {op : RestartOperation}
    (hs : Kept s) (hreads : ReadsBackWrites lib s op) (hguard : Restored lib s op) :
    Safe lib config s op := by
  refine ⟨(kept_step hinit hlib op hs hreads hguard).numbered, ?_, ?_⟩
  · intro δ hδ row hrow
    cases op with
    | write table key data env =>
      obtain ⟨-, hbehind, hroom⟩ := hguard (reachesDocument_of_written hδ)
      have hle : row.lamport.toNat ≤ s.device.crdt.lamport.toNat := by
        rcases hs.clock.behind row hrow with hle | ⟨old, hold, hsame⟩
        · exact UInt64.le_iff_toNat_le.mp hle
        · rw [hsame]
          exact UInt64.le_iff_toNat_le.mp (hbehind old hold)
      rw [lamport_writtenDelta hδ, UInt64.lt_iff_toNat_lt, LamportClock.toNat_succ hroom]
      omega
    | _ => cases hδ
  · intro δ hδ
    cases op with
    | write table key data env =>
      have hready := hguard (reachesDocument_of_written hδ)
      have hcovers : s.held ⊆ s.device.crdt.doc.changes := by
        intro c hc
        rcases hs.heldKept c hc with hlost | hdoc
        · exact hready.back c hlost
        · exact hdoc
      rcases (write_cases hreads env).2 with ⟨hnone, -⟩ | ⟨e', tags, -, -, hsome, -⟩
      · change δ ∈ writtenDelta lib s.device table key data env at hδ
        rw [hnone] at hδ
        cases hδ
      · change δ ∈ writtenDelta lib s.device table key data env at hδ
        rw [hsome, Option.mem_some_iff] at hδ
        have hall : s.held ⊆
            (savedDocument lib.json s.device.crdt table key data).commit.changes := by
          rw [changes_commit, changes_savedDocument]
          exact List.Subset.trans hcovers (List.subset_append_left _ _)
        refine ⟨_, ?_, hall, fun kv hkv => (hs.values kv hkv).of_changes hall⟩
        rw [← hδ]
        exact hreads.1.2
    | _ => cases hδ

/-- Through writes, merges and restarts, where each write finds what was lost restored, the changes
that the device makes are numbered apart and each of its Deltas is ahead of the stored ones and
carries everything. -/
theorem restarts_safe_of_restored (hinit : init lib config identity storage started = .ok h)
    (hlib : AutomergeHolds lib.toEngineLibraries) (ops : List RestartOperation)
    (hreads : Guarded (RestartState.step lib config) (ReadsBackWrites lib) (.start h) ops)
    (hguard : Guarded (RestartState.step lib config) (Restored lib) (.start h) ops) :
    Guarded (RestartState.step lib config) (Safe lib config) (.start h) ops := by
  have hboth := guarded_and.mpr ⟨hreads, hguard⟩
  rw [guarded_iff_splits]
  intro earlier op rest hsplit
  rw [hsplit, guarded_append] at hboth
  have hkept : Kept (run (RestartState.step lib config) (.start h) earlier) :=
    guarded_run (fun s op hop hs => kept_step hinit hlib op hs hop.1 hop.2) hboth.1
      (kept_start hinit)
  exact safe_of_kept hinit hlib hkept hboth.2.1.1 hboth.2.1.2

end Run

def writeChange (table key value : String) : Change :=
  ⟨List.replicate 32 1, 1, 1, [.set (.root "_tirbase_table") (.put (.str table)) [],
    .set (.root "_tirbase_key") (.put (.str key)) [], .set (.root key) (.put (.str value)) []]⟩

def nextChange : Change :=
  ⟨List.replicate 32 1, 2, 4, [.set (.root "_tirbase_key") (.put (.str "b"))
    [⟨2, List.replicate 32 1⟩], .set (.root "b") (.put (.str "2")) []]⟩

def restartLib : CoreLibraries :=
  sampleCoreLibraries [([7], [writeChange "items" "a" "1"]), ([8], [writeChange "items" "b" "2"]),
    ([9], [writeChange "items" "a" "1", nextChange])]

def writeA : RestartOperation := .write "items" "a" (.string "1") (calmWrite 1)
def writeB : RestartOperation := .write "items" "b" (.string "2") (calmWrite 2)

def echoed : Delta := ⟨5, sampleDid₂, List.replicate 64 0, 0, [7], .low, [], [], 2, 0⟩

def sampleStart : RestartState := .start (sampleHandle ⟨.empty, .empty, [], []⟩)

def sampleRun (ops : List RestartOperation) : RestartState :=
  run (RestartState.step restartLib sampleConfig) sampleStart ops

theorem restart_repeats_numbers :
    let before := sampleRun [writeA, .restart true]
    let after := sampleRun [writeA, .restart true, writeB]
    after.produced = [writeChange "items" "a" "1", writeChange "items" "b" "2"] ∧
      before.device.crdt.dag.nodes.map DagRow.lamport = [1] ∧
      (written restartLib before.device writeB).map Delta.lamport = some 1 ∧
      (before.device.store.row? "items" "a").map ProjectionRow.dataJson = some "\"1\"" ∧
      ((written restartLib before.device writeB).bind fun δ => restartLib.load δ.automergeBytes) =
        some [writeChange "items" "b" "2"] ∧
      ¬Guarded (RestartState.step restartLib sampleConfig) (Safe restartLib sampleConfig)
        sampleStart [writeA, .restart true, writeB] := by
  intro before after
  have hproduced : after.produced = [writeChange "items" "a" "1", writeChange "items" "b" "2"] := by
    decide +kernel
  refine ⟨hproduced, by decide +kernel, by decide +kernel, by decide +kernel, by decide +kernel, ?_⟩
  rintro ⟨-, -, hsafe, -⟩
  have hnumbered : ∀ c ∈ after.produced, ∀ c' ∈ after.produced,
      c.actor = c'.actor → c.seq = c'.seq → c = c' := hsafe.numbered
  rw [hproduced] at hnumbered
  have hsame := hnumbered _ List.mem_cons_self _ (List.mem_cons_of_mem _ List.mem_cons_self) rfl rfl
  exact absurd hsame (by decide +kernel)

theorem automergeHolds_sample : AutomergeHolds restartLib.toEngineLibraries := by
  constructor
  · intro bytes changes hload
    have hmem : changes ∈ [[writeChange "items" "a" "1"], [writeChange "items" "b" "2"],
        [writeChange "items" "a" "1", nextChange]] := by
      change ([([7], [writeChange "items" "a" "1"]), ([8], [writeChange "items" "b" "2"]),
        ([9], [writeChange "items" "a" "1", nextChange])] : List (Bytes × List Change)).lookup bytes =
          some changes at hload
      simp only [List.lookup_cons, List.lookup_nil] at hload
      split at hload
      · simp [Option.some.inj hload]
      · split at hload
        · simp [Option.some.inj hload]
        · split at hload
          · simp [Option.some.inj hload]
          · cases hload
    have hnodup : ∀ cs ∈ [[writeChange "items" "a" "1"], [writeChange "items" "b" "2"],
        [writeChange "items" "a" "1", nextChange]], cs.Nodup := by decide +kernel
    exact hnodup changes hmem
  · intro d incoming _
    refine ⟨[], ?_, List.nil_sublist _, fun _ hc => absurd hc List.not_mem_nil⟩
    rw [List.append_nil]
    exact changes_commit d

/-- The second write of the device, after another one has given back the first. -/
theorem restarts_safe_of_restored_sample :
    Guarded (RestartState.step restartLib sampleConfig) (Safe restartLib sampleConfig)
      sampleStart [writeA, .restart true, .receiveDelta echoed calmInbound, writeB] := by
  have hinit : init restartLib sampleConfig sampleIdentity ⟨.empty, .empty, [], []⟩ true =
      .ok (sampleHandle ⟨.empty, .empty, [], []⟩) := rfl
  have hreads : ∀ (s : RestartState) (key value : String) (d : Document),
      savedDocument restartLib.json s.device.crdt "items" key (.string value) = d →
      ReadsBack restartLib.toEngineLibraries d ∧ ReadsBack restartLib.toEngineLibraries d.commit →
      SavesReadBack restartLib s.device "items" key (.string value) := by
    intro s key value d hsaved hback
    rw [SavesReadBack, hsaved]
    exact hback
  refine restarts_safe_of_restored hinit automergeHolds_sample _
    ⟨hreads _ _ _ ⟨List.replicate 32 1, [], (writeChange "items" "a" "1").body⟩ ?_ ?_, trivial,
      trivial, hreads _ _ _ ⟨List.replicate 32 1, [writeChange "items" "a" "1"], nextChange.body⟩
        ?_ ?_, trivial⟩
    ⟨fun _ => ⟨?_, ?_, ?_⟩, trivial, ⟨fun _ hpending => absurd ?_ hpending, fun _ => ⟨?_, ?_⟩⟩,
      fun _ => ⟨?_, ?_, ?_⟩, trivial⟩
  · decide +kernel
  · exact ⟨⟨by decide +kernel, by decide +kernel⟩, by decide +kernel, by decide +kernel⟩
  · decide +kernel
  · exact ⟨⟨by decide +kernel, by decide +kernel⟩, by decide +kernel, by decide +kernel⟩
  · exact fun _ hc => absurd hc List.not_mem_nil
  · decide +kernel
  · decide +kernel
  · decide +kernel
  · decide +kernel
  · decide +kernel
  · unfold Back
    decide +kernel
  · decide +kernel
  · decide +kernel

end TirBase.DocumentRestart
