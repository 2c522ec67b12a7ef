import TirBase.MeshRuns

/-! # Convergence of the tables

All tables share the keys of one document, and a merged Delta is projected to the row that the
merged document names. Devices with the same Deltas read the same rows as long as each of them finds
its row there. -/
namespace TirBase.TableConvergence
open Automerge CoreHandle CrdtEngine DeviceRuns DocumentGrowth LedgerSchemas MergeConvergence
  MeshRuns OperationRegisters ReplicatedValues ScalarProjection TransitionRuns ValueReplication
  WrittenDeltas

section Rows
variable (lib : CoreLibraries)

def SameRow (w w' : TableWrite) : Prop := w.table = w'.table ∧ w.key = w'.key

instance (w w' : TableWrite) : Decidable (SameRow w w') := by
  unfold SameRow
  infer_instance

/-- The operation that the document of a Delta shows under the key of its write. -/
def shownOp (w : TableWrite) : Option Op := (payload lib w).winner (.root w.key)

/-- The first write shows no newer operation than the second. -/
def NoNewer (w w' : TableWrite) : Prop :=
  ∀ o ∈ shownOp lib w, ∀ o' ∈ shownOp lib w', o.id ≤ o'.id

instance (w w' : TableWrite) : Decidable (NoNewer lib w w') := by
  unfold NoNewer
  infer_instance

/-- A write of a row that is no older than the others that a device has. -/
structure Newest (held : List TableWrite) (w : TableWrite) : Prop where
  mem : w ∈ held
  others : ∀ w' ∈ held, SameRow w' w → NoNewer lib w' w

/-- The scalar that some operations show under a `ROOT` key. -/
def shownScalar (ops : List Op) (key : String) : Option ScalarValue :=
  (OperationRegisters.winner ops (.root key)).bind Op.value?

/-- Together the operations name the row of a write and show what it wrote there. -/
structure Names (ops : List Op) (w : TableWrite) : Prop where
  table : shownScalar ops "_tirbase_table" = some (.str w.table)
  key : shownScalar ops "_tirbase_key" = some (.str w.key)
  value : OperationRegisters.winner ops (.root w.key) = shownOp lib w

instance (ops : List Op) (w : TableWrite) : Decidable (Names lib ops w) :=
  decidable_of_iff (_ ∧ _ ∧ _) ⟨fun h => ⟨h.1, h.2.1, h.2.2⟩, fun h => ⟨h.table, h.key, h.value⟩⟩

variable {lib}

theorem SameRow.symm {w w' : TableWrite} (h : SameRow w w') : SameRow w' w := ⟨h.1.symm, h.2.symm⟩

theorem SameRow.trans {w w' w'' : TableWrite} (h : SameRow w w') (h' : SameRow w' w'') :
    SameRow w w'' := ⟨h.1.trans h'.1, h.2.trans h'.2⟩

theorem NoNewer.refl (w : TableWrite) : NoNewer lib w w := by
  intro o ho o' ho'
  rw [Option.mem_unique ho ho']

theorem NoNewer.trans {w w' w'' : TableWrite} (h : NoNewer lib w w') (h' : NoNewer lib w' w'')
    (hshown : (shownOp lib w').isSome = true) : NoNewer lib w w'' := by
  obtain ⟨o', ho'⟩ := Option.isSome_iff_exists.mp hshown
  intro o ho o'' ho''
  exact (h o ho o' ho').trans (h' o' ho' o'' ho'')

end Rows

section Values
variable {lib : CoreLibraries} {schema : SchemaIdentifierHash} {w w' : TableWrite}

/-- The operation holds what was written. -/
theorem value?_shownOp (hw : WellWritten lib schema w) :
    ∃ o, shownOp lib w = some o ∧ o.value? = some (scalarOfJson lib.json w.value) :=
  Option.bind_eq_some_iff.mp hw.value

theorem mem_ops_shownOp {o : Op} (ho : shownOp lib w = some o) :
    o ∈ (payload lib w).ops ∧ o.target = .root w.key := by
  obtain ⟨hmem, hkey, -⟩ := mem_visibleAt.mp (winner_mem ho)
  exact ⟨hmem, hkey⟩

/-- What serde_json and Automerge keep of a write. -/
structure Readable (lib : CoreLibraries) (tables : Set String) (w : TableWrite) : Prop where
  table : w.table ∈ tables
  projected : projected lib.json w.value = w.value
  reads : lib.json.fromStr (lib.json.toString w.value) = .ok w.value
  bytes : w.delta.automergeBytes ≠ []
  binary : lib.parseJson w.delta.automergeBytes = none

theorem value_eq_of_noNewer {tables : Set String} {written : List TableWrite}
    (hshared : SharedHistory (history lib written)) (hmem : w ∈ written) (hmem' : w' ∈ written)
    (hw : WellWritten lib schema w) (hw' : WellWritten lib schema w')
    (hread : Readable lib tables w) (hread' : Readable lib tables w') (hle : NoNewer lib w w')
    (hle' : NoNewer lib w' w) : w.value = w'.value := by
  obtain ⟨o, ho, hvalue⟩ := value?_shownOp hw
  obtain ⟨o', ho', hvalue'⟩ := value?_shownOp hw'
  have hid : o.id = o'.id := le_antisymm (hle o ho o' ho') (hle' o' ho' o ho)
  have hops : ∀ x ∈ written, ∀ p ∈ (payload lib x).ops,
      p ∈ (history lib written).flatMap Change.ops := by
    intro x hx p hp
    rw [Document.ops_of_pending rfl] at hp
    obtain ⟨c, hc, hpc⟩ := List.mem_flatMap.mp hp
    exact List.mem_flatMap.mpr ⟨c, List.mem_flatMap.mpr ⟨x, hx, hc⟩, hpc⟩
  have hop : o = o' := hshared.uniqueOps o (hops w hmem o (mem_ops_shownOp ho).1) o'
    (hops w' hmem' o' (mem_ops_shownOp ho').1) hid
  have hscalar : scalarOfJson lib.json w.value = scalarOfJson lib.json w'.value := by
    rw [hop, hvalue', Option.some.injEq] at hvalue
    exact hvalue.symm
  rw [← hread.projected, ← hread'.projected, ReplicatedValues.projected, hscalar]
  rfl

/-- Operations that name the row of a write project to the value that it wrote. -/
theorem projection_of_names {tables : Set String} {merged : Document} {ops : List Op}
    {δ : Delta} (hops : SameOps merged.ops ops) (hvalid : merged.Valid) (hnames : Names lib ops w)
    (hw : WellWritten lib schema w) (hread : Readable lib tables w) (hbytes : δ.automergeBytes ≠ [])
    (hbinary : lib.parseJson δ.automergeBytes = none) :
    projection lib merged δ.automergeBytes = some (w.table, w.key, w.value) := by
  have hscalar : ∀ key, merged.rootScalar key = shownScalar ops key := by
    intro key
    rw [Document.rootScalar, Document.winner, hops.winner_eq hvalid.unique, shownScalar]
  have hvalue : merged.rootScalar w.key = some (scalarOfJson lib.json w.value) := by
    rw [hscalar, shownScalar, hnames.value]
    exact hw.value
  have hprojection := documentProjection_of_rootScalars ((hscalar _).trans hnames.table)
    ((hscalar _).trans hnames.key) hvalue
  rw [hread.projected] at hprojection
  simp only [projection, if_neg hbytes, hbinary, hprojection]

/-- Where nothing is deleted, what operations show under the key of a row is no older than any of
its writes that they hold. -/
theorem noNewer_of_names {ops : List Op} (hclosed : CausallyClosed ops) (hscalars : Scalars ops)
    (hnames : Names lib ops w) (hheld : ∀ o ∈ (payload lib w').ops, o ∈ ops)
    (hrow : SameRow w' w) : NoNewer lib w' w := by
  intro o' ho' o ho
  obtain ⟨hmem, hkey⟩ := mem_ops_shownOp ho'
  have hshown : OperationRegisters.winner ops (.root w.key) = some o := hnames.value.trans ho
  refine hclosed.le_winner_of_live (fun p hp _ => ?_) hshown (hheld o' hmem) ?_
  · exact decide_eq_true (hscalars.not_delete hp)
  · exact hkey.trans (congrArg Target.root hrow.2)

end Values

/-- A device shows of each row the newest write that it has. -/
def Shows (lib : CoreLibraries) (held : List TableWrite) (store : LocalStore) : Prop :=
  ∀ w ∈ held, ∃ newest, Newest lib held newest ∧ SameRow newest w ∧
    text? store w.table w.key = some (lib.json.toString newest.value)

/-- The tables are names within their quotes, and SQLite tells them apart. -/
structure TableNames (tables : Set String) : Prop where
  quoted : ∀ table ∈ tables, quotable table = true
  apart : Set.InjOn sqlName tables

section Device
variable {lib : CoreLibraries} {tables : Set String} {held : List TableWrite}
  {store store' : LocalStore} {shown w : TableWrite}

theorem text?_write (hnames : TableNames tables) {table key : String} (htable : table ∈ tables)
    (s : LocalStore) (value : JsonValue) :
    text? (s.write lib.store none table key value).2 table key =
        some (lib.json.toString value) ∧
      ∀ table' ∈ tables, ∀ key', (table', key') ≠ (table, key) →
        text? (s.write lib.store none table key value).2 table' key' = text? s table' key' := by
  have hquoted := hnames.quoted table htable
  refine ⟨?_, fun table' htable' key' hother => ?_⟩
  · rw [text?, LocalStore.row?_write_self hquoted]
    rfl
  · rw [text?, text?, LocalStore.row?_write_other hquoted none value]
    intro hsame
    rw [Prod.mk.injEq] at hsame
    exact hother (Prod.ext (hnames.apart htable' htable hsame.1) hsame.2)

theorem read_congr {h h' : CoreHandle} {table key : String} (hquoted : quotable table = true)
    (htrust : h'.capability = h.capability) (htext : text? h'.store table key =
      text? h.store table key) : h'.read lib table key = h.read lib table key := by
  have hstore : ∀ s : LocalStore, s.read lib.store table key =
      match text? s table key with
      | none => .ok none
      | some text => (LocalStore.parseRow lib.store text).map some := by
    intro s
    rw [LocalStore.read, if_pos hquoted, text?]
    cases s.row? table key <;> rfl
  simp only [CoreHandle.read, htrust, hstore, htext]

/-- The device projects a write that none of its row is newer than, and shows the other rows
already. -/
theorem Shows.project (h : Shows lib held store) (hshown : shown ∈ held ++ [w])
    (hops : ∀ x ∈ held ++ [w], (shownOp lib x).isSome = true)
    (hnewest : ∀ x ∈ held ++ [w], SameRow x shown → NoNewer lib x shown)
    (hfinds : ∀ x ∈ held ++ [w], ¬SameRow x shown →
      ∃ y ∈ held, SameRow y x ∧ NoNewer lib x y)
    (hself : text? store' shown.table shown.key = some (lib.json.toString shown.value))
    (hother : ∀ x ∈ held ++ [w], ¬SameRow x shown →
      text? store' x.table x.key = text? store x.table x.key) :
    Shows lib (held ++ [w]) store' := by
  intro x hx
  by_cases hrow : SameRow x shown
  · refine ⟨shown, ⟨hshown, hnewest⟩, hrow.symm, ?_⟩
    rw [hrow.1, hrow.2]
    exact hself
  · obtain ⟨y, hy, hyx, -⟩ := hfinds x hx hrow
    obtain ⟨newest, hmax, hsame, htext⟩ := h y hy
    refine ⟨newest, ⟨List.mem_append_left _ hmax.mem, fun z hz hzrow => ?_⟩, hsame.trans hyx, ?_⟩
    · have hzx : SameRow z x := hzrow.trans (hsame.trans hyx)
      obtain ⟨y', hy', hyz, hle⟩ := hfinds z hz fun hz' => hrow (hzx.symm.trans hz')
      exact hle.trans (hmax.others y' hy' (hyz.trans hzrow)) (hops y' (List.mem_append_left _ hy'))
    · rw [hother x hx hrow, ← hyx.1, ← hyx.2]
      exact htext

end Device

section Runs
variable {D : Type*} [DecidableEq D] (lib : CoreLibraries)

def row : MeshOperation D → String × String
  | .write _ table key _ _ => (table, key)
  | .deliver _ w _ => (w.table, w.key)

/-- With the Delta the document names the row of a write that the device has, and this is the row of
the Delta or the device has a write of that row which the Delta does not renew. -/
def FindsRow (m : Mesh D) (d : D) (w : TableWrite) : Prop :=
  ∃ shown ∈ m.held d ++ [w],
    Names lib ((m.device d).crdt.doc.ops ++ (payload lib w).ops) shown ∧
      (SameRow w shown ∨ ∃ w' ∈ m.held d, SameRow w' w ∧ NoNewer lib w w')

instance (m : Mesh D) (d : D) (w : TableWrite) : Decidable (FindsRow lib m d w) := by
  unfold FindsRow
  infer_instance

/-- What is relied on: of a write that its document is kept by Automerge and its value described by
`serde_json`, of a Delta that a device has written it. -/
def Supposed (tables : Set String) (m : Mesh D) : MeshOperation D → Prop
  | .write d table key value _ =>
    table ∈ tables ∧ key ≠ "_tirbase_table" ∧ key ≠ "_tirbase_key" ∧
      SavesReadBack lib (m.device d) table key value ∧
      lib.parseJson (lib.save (savedDocument lib.json (m.device d).crdt table key value)) = none ∧
      FiniteDoubles value ∧ lib.json.Describes value
  | .deliver _ w _ => w ∈ m.written

/-- A write that fails before it stores anything, or that nothing disturbs and whose value the
document and its text keep; a Delta that merges as it is and finds its row. -/
def Harmless (m : Mesh D) : MeshOperation D → Prop
  | .write _ _ _ value env =>
    Refused env ∨ Undisturbed env ∧ lib.json.Kept value ∧ Unaltered lib.json value
  | .deliver d w env =>
    env.applyFault = none ∧ env.storeFault = none ∧
      OverrideFree lib.toEngineLibraries (m.device d).crdt w.delta ∧ FindsRow lib m d w

/-- The operation changes what no device reads of another row. -/
def KeepsOtherRows (tables : Set String) (m : Mesh D) (op : MeshOperation D) : Prop :=
  ∀ d, ∀ table ∈ tables, ∀ key, (table, key) ≠ row op →
    ((m.step lib op).device d).read lib table key = (m.device d).read lib table key

def HasAll (m : Mesh D) (d : D) : Prop := ∀ w ∈ m.written, w ∈ m.held d

/-- Devices that have all Deltas read the same value of each row that was written. -/
def Converged (m : Mesh D) : Prop :=
  ∀ d d', HasAll m d → HasAll m d' → ∀ w ∈ m.written, ∃ value warning warning',
    (m.device d).read lib w.table w.key = .ok (value, warning) ∧
      (m.device d').read lib w.table w.key = .ok (value, warning')

/-- Devices that were just started on empty databases, each under a key of its own, that write
under one schema. -/
structure Start (schema : SchemaIdentifierHash) (identity : D → Identity) (m : Mesh D) : Prop where
  started : ∀ d, ∃ config started,
    init lib config (identity d) ⟨.empty, .empty, [], []⟩ started = .ok (m.device d)
  schema : ∀ d, (m.device d).crdt.knownSchemaHash = schema
  certifying : ∀ d, SelfCertifying lib.toIdentityLibraries (identity d)
  apart : ∀ d d', (identity d).publicKey = (identity d').publicKey → d = d'
  held : ∀ d, m.held d = []
  written : m.written = []

/-- All devices are in one history, and each shows the newest write of every row that it has. -/
structure UpToDate (schema : SchemaIdentifierHash) (tables : Set String) (m : Mesh D) : Prop where
  history : OneHistory lib schema m
  readable : ∀ w ∈ m.written, Readable lib tables w
  shows : ∀ d, Shows lib (m.held d) (m.device d).store

end Runs

section Documents
variable {lib : CoreLibraries} {schema : SchemaIdentifierHash} {changes : List Change}
  {held : List TableWrite} {e : CrdtEngine} {w : TableWrite}

/-- The document of a device holds the operations of the Deltas that it has. -/
theorem mem_ops_of_held (h : InHistory lib schema changes held e) (hw : w ∈ held) {o : Op}
    (ho : o ∈ (payload lib w).ops) : o ∈ e.doc.ops := by
  rw [Document.ops_of_pending rfl] at ho
  rw [Document.ops_of_pending h.holds.committed]
  obtain ⟨c, hc, hoc⟩ := List.mem_flatMap.mp ho
  exact List.mem_flatMap.mpr
    ⟨c, (h.holds.changes c).mpr ⟨w.delta, List.mem_map_of_mem hw, hc⟩, hoc⟩

/-- The document of a Delta names the row of its write. -/
theorem names_self (hw : WellWritten lib schema w) : Names lib (payload lib w).ops w :=
  ⟨hw.table, hw.key, rfl⟩

theorem Names.congr {ops ops' : List Op} (h : Names lib ops w) (hops : SameOps ops' ops)
    (hunique : UniqueIds ops') : Names lib ops' w := by
  have hwinner : ∀ key, OperationRegisters.winner ops' (.root key) =
      OperationRegisters.winner ops (.root key) := fun key => hops.winner_eq hunique _
  refine ⟨?_, ?_, (hwinner w.key).trans h.value⟩
  · rw [shownScalar, hwinner]
    exact h.table
  · rw [shownScalar, hwinner]
    exact h.key

/-- The Delta of a write carries all that its author had. -/
theorem noNewer_of_written {table key : String} {value : JsonValue} {saved : Document} {δ : Delta}
    (h : InHistory lib schema changes held e)
    (hsaved : saved = savedDocument lib.json e table key value)
    (hdelta : DeltaOver lib e saved δ) (hreads : ReadsBack lib.toEngineLibraries saved)
    (hw : WellWritten lib schema ⟨table, key, value, δ⟩) (hmem : w ∈ held)
    (hrow : SameRow w ⟨table, key, value, δ⟩) : NoNewer lib w ⟨table, key, value, δ⟩ := by
  refine noNewer_of_names hw.valid hw.scalars (names_self hw) (fun o ho => ?_) hrow
  have hkept : Saved e.doc saved :=
    hsaved ▸ saved_savedDocument lib.json table key value h.valid h.scalars
  rw [Document.ops_of_pending rfl] at ho ⊢
  obtain ⟨c, hc, hoc⟩ := List.mem_flatMap.mp ho
  refine List.mem_flatMap.mpr ⟨c, ?_, hoc⟩
  change c ∈ payloadChanges lib.toEngineLibraries δ
  rw [payloadChanges_of_readsBack hdelta hreads]
  exact (mem_savedChanges hkept).mpr
    (.inl ((h.holds.changes c).mpr ⟨w.delta, List.mem_map_of_mem hmem, hc⟩))

end Documents

section Steps
variable {D : Type*} {lib : CoreLibraries} {schema : SchemaIdentifierHash} {tables : Set String}
  {identity : D → Identity} {m : Mesh D} {d : D}

theorem upToDate_start (h : Start lib schema identity m) : UpToDate lib schema tables m := by
  have hstarted : ∀ d, ∃ config started,
      init lib config (identity d) ⟨.empty, .empty, [], []⟩ started = .ok (m.device d) := h.started
  have hdoc : ∀ d, (m.device d).crdt.doc = .empty (identity d).publicKey.val := fun d =>
    let ⟨_, _, hinit⟩ := hstarted d
    (started_of_init hinit).engine.doc
  refine ⟨⟨?_, ?_, ?_, fun d => ?_, fun d d' hsame => ?_, fun d => ?_⟩, ?_, fun d => ?_⟩
  · simp [h.written]
  · rw [h.written]
    exact ⟨by simp [history], by simp [history, UniqueIds]⟩
  · simp [h.held]
  · obtain ⟨config, started, hinit⟩ := hstarted d
    have hstart := started_of_init hinit
    have hcertifying := h.certifying d
    have hempty : ∀ c, c ∉ (m.device d).crdt.doc.changes := by
      intro c
      rw [hdoc d]
      exact List.not_mem_nil
    refine ⟨⟨?_, fun c => ?_, hstart.engine.revokedDids, ?_⟩, h.schema d,
      ⟨(identity d).publicKey, ?_, ?_⟩, ?_, ?_, fun c hc => absurd hc (hempty c), ?_,
      fun c hc => absurd hc (hempty c)⟩
    · rw [hdoc d]
      rfl
    · simp [hempty c, h.held d]
    · rw [← h.schema d]
      exact knows_current_of_init hinit
    · rw [hstart.engine.authorDid]
      exact hcertifying.resolves
    · rw [secretKey_of_init hinit]
      exact hcertifying.verifies
    · rw [hdoc d]
      exact Document.valid_empty _
    · rw [hdoc d]
      exact fun o ho => absurd ho List.not_mem_nil
    · simp [h.written, history]
  · rw [hdoc d, hdoc d'] at hsame
    exact h.apart d d' (Subtype.ext hsame)
  · obtain ⟨config, started, hinit⟩ := hstarted d
    rw [Capability.CapabilityManager.ensureLocalTrustAllowsIo, (started_of_init hinit).trust]
    rfl
  · simp [h.written]
  · rw [h.held d]
    exact fun w hw => absurd hw List.not_mem_nil

theorem text?_of_newest {held : List TableWrite} {shown : TableWrite}
    (hshared : SharedHistory (history lib m.written))
    (hwritten : ∀ w ∈ m.written, WellWritten lib schema w)
    (hreadable : ∀ w ∈ m.written, Readable lib tables w) (hheld : ∀ w ∈ held, w ∈ m.written)
    {store : LocalStore} (hshows : Shows lib held store) (hshown : shown ∈ held)
    (hnewest : ∀ w ∈ held, SameRow w shown → NoNewer lib w shown) :
    text? store shown.table shown.key = some (lib.json.toString shown.value) := by
  obtain ⟨newest, hmax, hrow, hholds⟩ := hshows shown hshown
  have hvalue : newest.value = shown.value :=
    value_eq_of_noNewer hshared (hheld _ hmax.mem) (hheld _ hshown)
      (hwritten _ (hheld _ hmax.mem)) (hwritten _ (hheld _ hshown))
      (hreadable _ (hheld _ hmax.mem)) (hreadable _ (hheld _ hshown))
      (hnewest newest hmax.mem hrow) (hmax.others shown hshown hrow.symm)
  rw [hholds, hvalue]

/-- What a device reads of a row is the value of the newest write that it has of it. -/
theorem read_iff_newest (hnames : TableNames tables) (h : UpToDate lib schema tables m)
    {w : TableWrite} (hw : w ∈ m.held d) (value : JsonValue) :
    (∃ warning, (m.device d).read lib w.table w.key = .ok (value, warning)) ↔
      ∃ newest, Newest lib (m.held d) newest ∧ SameRow newest w ∧ newest.value = value := by
  obtain ⟨shown, hmax, hrow, htext⟩ := h.shows d w hw
  have hmem := h.history.held d shown hmax.mem
  have hquoted := hnames.quoted w.table (h.readable w (h.history.held d w hw)).table
  rw [read_iff (h.history.trusted d) hquoted htext value, (h.readable shown hmem).reads,
    Except.ok.injEq]
  constructor
  · intro hvalue
    exact ⟨shown, hmax, hrow, hvalue⟩
  · rintro ⟨newest, hmax', hrow', rfl⟩
    have hmem' := h.history.held d newest hmax'.mem
    have hsame : SameRow shown newest := hrow.trans hrow'.symm
    exact value_eq_of_noNewer h.history.shared hmem hmem' (h.history.written _ hmem)
      (h.history.written _ hmem') (h.readable _ hmem) (h.readable _ hmem')
      (hmax'.others shown hmax.mem hsame) (hmax.others newest hmax'.mem hsame.symm)

theorem converged_of_upToDate (hnames : TableNames tables) (h : UpToDate lib schema tables m) :
    Converged lib m := by
  intro d d' hall hall' w hw
  obtain ⟨newest, hmax, hrow, -⟩ := h.shows d w (hall w hw)
  have hmax' : Newest lib (m.held d') newest :=
    ⟨hall' newest (h.history.held d newest hmax.mem),
      fun x hx => hmax.others x (hall x (h.history.held d' x hx))⟩
  obtain ⟨warning, hread⟩ :=
    (read_iff_newest hnames h (hall w hw) newest.value).mpr ⟨newest, hmax, hrow, rfl⟩
  obtain ⟨warning', hread'⟩ :=
    (read_iff_newest hnames h (hall' w hw) newest.value).mpr ⟨newest, hmax', hrow, rfl⟩
  exact ⟨newest.value, warning, warning', hread, hread'⟩

variable [DecidableEq D]

theorem shows_advance (h : ∀ d, Shows lib (m.held d) (m.device d).store) {device : CoreHandle}
    {got new : List TableWrite} (hdevice : Shows lib (m.held d ++ got) device.store) (d' : D) :
    Shows lib ((m.advance d device got new).held d')
      ((m.advance d device got new).device d').store := by
  by_cases hd : d' = d
  · subst hd
    rw [held_advance_self, device_advance_self]
    exact hdevice
  · rw [held_advance_other hd, device_advance_other hd]
    exact h d'

/-- Where one device moves on and keeps the texts of the other rows, all devices read them as
before. -/
theorem keepsOtherRows_advance (hnames : TableNames tables) {op : MeshOperation D}
    {device : CoreHandle} {got new : List TableWrite}
    (hstep : m.step lib op = m.advance d device got new)
    (htrust : device.capability = (m.device d).capability)
    (htexts : ∀ table ∈ tables, ∀ key, (table, key) ≠ row op →
      text? device.store table key = text? (m.device d).store table key) :
    KeepsOtherRows lib tables m op := by
  intro d' table htable key hother
  rw [hstep]
  by_cases hd : d' = d
  · subst hd
    rw [device_advance_self]
    exact read_congr (hnames.quoted table htable) htrust (htexts table htable key hother)
  · rw [device_advance_other hd]

theorem Shows.congr {held : List TableWrite} {store store' : LocalStore}
    (h : Shows lib held store)
    (htexts : ∀ table key, text? store' table key = text? store table key) :
    Shows lib held store' := by
  intro w hw
  obtain ⟨newest, hnewest, hrow, htext⟩ := h w hw
  exact ⟨newest, hnewest, hrow, (htexts _ _).trans htext⟩

theorem upToDate_refused (hnames : TableNames tables) (h : UpToDate lib schema tables m)
    {table key : String} {value : JsonValue} {env : WriteEnvironment} (htable : table ∈ tables)
    (henv : Refused env) :
    UpToDate lib schema tables (m.step lib (.write d table key value env)) ∧
      KeepsOtherRows lib tables m (.write d table key value env) := by
  obtain ⟨store, hstep, htexts, hhistory⟩ :
      ∃ store, m.step lib (.write d table key value env) =
          m.advance d { m.device d with store := store } [] [] ∧
        (∀ table' key', text? store table' key' = text? (m.device d).store table' key') ∧
        OneHistory lib schema (m.step lib (.write d table key value env)) :=
    step_write_of_refused h.history (hnames.quoted table htable) henv
  refine ⟨⟨hhistory, ?_, ?_⟩, keepsOtherRows_advance hnames hstep rfl fun table _ key _ =>
    htexts table key⟩
  · rw [hstep, written_advance, List.append_nil]
    exact h.readable
  · rw [hstep]
    refine shows_advance h.shows ?_
    rw [List.append_nil]
    exact (h.shows d).congr htexts

theorem upToDate_write (hnames : TableNames tables) (h : UpToDate lib schema tables m)
    {table key : String} {value : JsonValue} {env : WriteEnvironment}
    (hsupposed : Supposed lib tables m (.write d table key value env)) (henv : Undisturbed env)
    (hkept : lib.json.Kept value) (hunaltered : Unaltered lib.json value) :
    UpToDate lib schema tables (m.step lib (.write d table key value env)) ∧
      KeepsOtherRows lib tables m (.write d table key value env) := by
  obtain ⟨htable, htableName, hkeyName, hreads, hbinary, hfinite, hdescribes⟩ := hsupposed
  obtain ⟨δ, hdelta, hstep, hhistory⟩ := step_write h.history
    (hnames.quoted table htable) htableName hkeyName henv hreads
  obtain ⟨htrust, hself, hrest⟩ := rows_write (h.history.trusted d) (hnames.quoted table htable)
    henv hreads
  have hread : lib.json.fromStr (lib.json.toString value) = .ok value :=
    hdescribes.documented.mpr hkept
  have hreadable : Readable lib tables ⟨table, key, value, δ⟩ := by
    refine ⟨htable, projected_eq_self hfinite hread hunaltered, hread, ?_, ?_⟩
    · rw [hdelta.bytes]
      exact hreads.1.1
    · rw [hdelta.bytes]
      exact hbinary
  have hother : ∀ table' ∈ tables, ∀ key', (table', key') ≠ (table, key) →
      text? ((m.device d).write lib table key value env).2.store table' key' =
        text? (m.device d).store table' key' := by
    intro table' htable' key' hne
    refine hrest table' key' fun hsame => hne ?_
    rw [Prod.mk.injEq] at hsame
    exact Prod.ext (hnames.apart htable' htable hsame.1) hsame.2
  refine ⟨⟨hhistory, ?_, ?_⟩, keepsOtherRows_advance hnames hstep htrust hother⟩
  · rw [hstep, written_advance]
    intro w hw
    rcases List.mem_append.mp hw with hw | hw
    · exact h.readable w hw
    · rw [List.mem_singleton.mp hw]
      exact hreadable
  · have hwritten := hhistory.written
    rw [hstep, written_advance] at hwritten
    have hheld : ∀ w ∈ m.held d ++ [⟨table, key, value, δ⟩],
        w ∈ m.written ++ [⟨table, key, value, δ⟩] := by
      intro w hw
      rcases List.mem_append.mp hw with hw | hw
      · exact List.mem_append_left _ (h.history.held d w hw)
      · exact List.mem_append_right _ hw
    have hnew := hwritten _ (List.mem_append_right _ (List.mem_singleton_self _))
    rw [hstep]
    refine shows_advance h.shows ?_
    refine (h.shows d).project (List.mem_append_right _ (List.mem_singleton_self _))
      (fun w hw => ?_) (fun w hw hrow => ?_) (fun w hw hrow => ?_) hself fun w hw hrow => ?_
    · obtain ⟨o, ho, -⟩ := value?_shownOp (hwritten w (hheld w hw))
      exact Option.isSome_of_mem ho
    · rcases List.mem_append.mp hw with hw | hw
      · exact noNewer_of_written (h.history.device d) rfl hdelta hreads.1 hnew hw
          hrow
      · rw [List.mem_singleton.mp hw]
        exact .refl _
    · rcases List.mem_append.mp hw with hw | hw
      · exact ⟨w, hw, ⟨rfl, rfl⟩, .refl w⟩
      · rw [List.mem_singleton.mp hw] at hrow
        exact absurd ⟨rfl, rfl⟩ hrow
    · have htable' : w.table ∈ tables := by
        rcases List.mem_append.mp hw with hw | hw
        · exact (h.readable w (h.history.held d w hw)).table
        · rw [List.mem_singleton.mp hw]
          exact htable
      refine hother w.table htable' w.key fun hsame => hrow ?_
      rw [Prod.mk.injEq] at hsame
      exact hsame

theorem upToDate_deliver (hnames : TableNames tables) (h : UpToDate lib schema tables m)
    {w : TableWrite} {env : InboundEnvironment} (hw : w ∈ m.written)
    (hfault : env.applyFault = none) (hstoreFault : env.storeFault = none)
    (hfree : OverrideFree lib.toEngineLibraries (m.device d).crdt w.delta)
    (hfinds : FindsRow lib m d w) :
    UpToDate lib schema tables (m.step lib (.deliver d w env)) ∧
      KeepsOtherRows lib tables m (.deliver d w env) := by
  obtain ⟨merged, hmerges, hstore, hdevice, hhistory⟩ := step_deliver h.history hw hfault hfree
  obtain ⟨shown, hshown, hnamed, hfound⟩ := hfinds
  have hheld : ∀ x ∈ m.held d ++ [w], x ∈ m.written := by
    intro x hx
    rcases List.mem_append.mp hx with hx | hx
    · exact h.history.held d x hx
    · rw [List.mem_singleton.mp hx]
      exact hw
  have hreadable : ∀ x ∈ m.held d ++ [w], Readable lib tables x := fun x hx =>
    h.readable x (hheld x hx)
  have hvalid : merged.Valid := hdevice.valid
  have hnames' : Names lib merged.ops shown := hnamed.congr hmerges.ops hvalid.unique
  have hprojection := projection_of_names (fun _ => Iff.rfl) hvalid hnames'
    (h.history.written shown (hheld shown hshown)) (hreadable shown hshown)
    (h.readable w hw).bytes (h.readable w hw).binary
  have hnewest : ∀ x ∈ m.held d ++ [w], SameRow x shown → NoNewer lib x shown := fun x hx =>
    noNewer_of_names hvalid hdevice.scalars hnames' fun o ho => mem_ops_of_held hdevice hx ho
  simp only [hprojection, hstoreFault] at hstore
  obtain ⟨hself, hother⟩ :
      text? ((m.device d).store.write lib.store none shown.table shown.key shown.value).2
          shown.table shown.key = some (lib.json.toString shown.value) ∧
        ∀ table' ∈ tables, ∀ key', (table', key') ≠ (shown.table, shown.key) →
          text? ((m.device d).store.write lib.store none shown.table shown.key shown.value).2 table'
            key' = text? (m.device d).store table' key' :=
    text?_write hnames (hreadable shown hshown).table (m.device d).store shown.value
  rw [← hstore] at hself hother
  have hstep : m.step lib (.deliver d w env) = m.advance d
      ((m.device d).receiveInbound lib (.inboundDelta w.delta) env).2 [w] [] := rfl
  have htrust : ((m.device d).receiveInbound lib (.inboundDelta w.delta) env).2.capability =
      (m.device d).capability := by
    have happly := hmerges.apply env.now
    rw [← hfault] at happly
    exact (rows_receive happly).2.1
  refine ⟨⟨hhistory, ?_, ?_⟩, keepsOtherRows_advance hnames hstep htrust ?_⟩
  · rw [hstep, written_advance, List.append_nil]
    exact h.readable
  · rw [hstep]
    refine shows_advance h.shows ((h.shows d).project hshown (fun x hx => ?_) hnewest
      (fun x hx hrow => ?_) hself fun x hx hrow => ?_)
    · obtain ⟨o, ho, -⟩ := value?_shownOp (h.history.written x (hheld x hx))
      exact Option.isSome_of_mem ho
    · rcases List.mem_append.mp hx with hx | hx
      · exact ⟨x, hx, ⟨rfl, rfl⟩, .refl x⟩
      · rw [List.mem_singleton.mp hx] at hrow ⊢
        exact hfound.resolve_left hrow
    · refine hother x.table (hreadable x hx).table x.key fun hsame => hrow ?_
      rw [Prod.mk.injEq] at hsame
      exact hsame
  · intro table htable key hrow
    by_cases hsame : (table, key) = (shown.table, shown.key)
    · rw [Prod.mk.injEq] at hsame
      obtain ⟨rfl, rfl⟩ := hsame
      have hmem : shown ∈ m.held d := by
        refine (List.mem_append.mp hshown).resolve_right fun hmem => hrow ?_
        rw [List.mem_singleton.mp hmem]
        rfl
      rw [hself]
      exact (text?_of_newest h.history.shared h.history.written h.readable (h.history.held d)
        (h.shows d) hmem fun x hx => hnewest x (List.mem_append_left _ hx)).symm
    · exact hother table htable key hsame

/-- Every harmless step keeps the devices up to date and the other rows as they read. -/
theorem upToDate_step (hnames : TableNames tables) (op : MeshOperation D)
    (hsupposed : Supposed lib tables m op) (hharmless : Harmless lib m op)
    (h : UpToDate lib schema tables m) :
    UpToDate lib schema tables (m.step lib op) ∧ KeepsOtherRows lib tables m op := by
  cases op with
  | write d table key value env =>
    rcases hharmless with hrefused | ⟨henv, hkept, hunaltered⟩
    · exact upToDate_refused hnames h hsupposed.1 hrefused
    · exact upToDate_write hnames h hsupposed henv hkept hunaltered
  | deliver d w env =>
    obtain ⟨hfault, hstoreFault, hfree, hfinds⟩ := hharmless
    exact upToDate_deliver hnames h hsupposed hfault hstoreFault hfree hfinds

theorem upToDate_run (hnames : TableNames tables) (hstart : Start lib schema identity m)
    {ops : List (MeshOperation D)}
    (hops : Guarded (Mesh.step lib) (fun m op => Supposed lib tables m op ∧ Harmless lib m op) m
      ops) : UpToDate lib schema tables (run (Mesh.step lib) m ops) := by
  have hstep : ∀ (m : Mesh D) op, Supposed lib tables m op ∧ Harmless lib m op →
      UpToDate lib schema tables m → UpToDate lib schema tables (m.step lib op) :=
    fun m op hop h => (upToDate_step hnames op hop.1 hop.2 h).1
  have h : UpToDate lib schema tables m := upToDate_start hstart
  exact guarded_run hstep hops h

/-- In a run of harmless writes and deliveries all devices with all Deltas read the same of every
row that was written, and no step changes what a device reads of a row that it is not about. -/
theorem tables_converge (hnames : TableNames tables) (hstart : Start lib schema identity m)
    {ops : List (MeshOperation D)}
    (hops : Guarded (Mesh.step lib) (fun m op => Supposed lib tables m op ∧ Harmless lib m op) m
      ops) :
    Converged lib (run (Mesh.step lib) m ops) ∧
      Guarded (Mesh.step lib) (KeepsOtherRows lib tables) m ops := by
  have hstep : ∀ (m : Mesh D) op, Supposed lib tables m op ∧ Harmless lib m op →
      UpToDate lib schema tables m → UpToDate lib schema tables (m.step lib op) :=
    fun m op hop h => (upToDate_step hnames op hop.1 hop.2 h).1
  have h : UpToDate lib schema tables m := upToDate_start hstart
  exact ⟨converged_of_upToDate hnames (upToDate_run hnames hstart hops),
    guarded_of_invariant (fun m op hop h => (upToDate_step hnames op hop.1 hop.2 h).2) hstep hops h⟩

end Steps

section Sample

/-- The second device writes to a row `k` of a table. -/
def rivalChange (table : String) : Change :=
  ⟨List.replicate 32 2, 1, 1, [.set (.root "_tirbase_table") (.put (.str table)) [],
    .set (.root "_tirbase_key") (.put (.str "k")) [], .set (.root "k") (.put (.str "w")) []]⟩

def rivalLib : CoreLibraries :=
  sampleCoreLibraries [([7], [textChange "v"]), ([9], [rivalChange "t"]), ([10], [rivalChange "u"])]

theorem rivalDeltas_isSome {table : String} (htable : table = "t" ∨ table = "u") :
    (writtenDelta rivalLib firstDevice "t" "k" (.string "v") (calmWrite 9)).isSome = true ∧
      (writtenDelta rivalLib secondDevice table "k" (.string "w")
        (calmWrite 10)).isSome = true := by
  rcases htable with rfl | rfl
  · decide +kernel
  · decide +kernel

def firstWrite : TableWrite :=
  ⟨"t", "k", .string "v", Option.get _ (rivalDeltas_isSome (.inl rfl)).1⟩

def rivalWrite {table : String} (htable : table = "t" ∨ table = "u") : TableWrite :=
  ⟨table, "k", .string "w", Option.get _ (rivalDeltas_isSome htable).2⟩

def rivals : Mesh Bool :=
  ⟨fun second => if second then secondDevice else firstDevice, fun _ => [], []⟩

/-- Both devices write under one key, and each receives both Deltas. -/
def rivalRun {table : String} (htable : table = "t" ∨ table = "u") : List (MeshOperation Bool) :=
  [.write false "t" "k" (.string "v") (calmWrite 9),
    .write true table "k" (.string "w") (calmWrite 10), .deliver true firstWrite calmInbound,
    .deliver true (rivalWrite htable) calmInbound, .deliver false firstWrite calmInbound,
    .deliver false (rivalWrite htable) calmInbound]

theorem start_rivals : Start rivalLib firstDevice.crdt.knownSchemaHash
    (fun second => if second then secondIdentity else sampleIdentity) rivals := by
  refine ⟨fun second => ?_, fun second => ?_, fun second => ?_, fun second second' hsame => ?_,
    fun _ => rfl, rfl⟩
  · cases second with
    | false => exact ⟨sampleConfig, true, rfl⟩
    | true => exact ⟨sampleConfig, true, rfl⟩
  · cases second <;> rfl
  · cases second with
    | false => exact ⟨by decide +kernel, fun payload => rfl⟩
    | true => exact ⟨by decide +kernel, fun payload => rfl⟩
  · cases second <;> cases second' <;> first | rfl | exact absurd hsame (by decide +kernel)

theorem fromStr_toString_rivals {s : String} (hs : s = "v" ∨ s = "w") :
    rivalLib.json.fromStr (rivalLib.json.toString (.string s)) = .ok (.string s) := by
  rcases hs with rfl | rfl <;> simp [rivalLib, sampleCoreLibraries, sampleJson]

theorem kept_rivals (s : String) : rivalLib.json.Kept (.string s) :=
  ⟨Nat.zero_lt_succ 127, fun _ hbits => absurd hbits List.not_mem_nil⟩

theorem describes_rivals {s : String} (hs : s = "v" ∨ s = "w") :
    rivalLib.json.Describes (.string s) := by
  have hread := fromStr_toString_rivals hs
  refine ⟨⟨fun _ => kept_rivals s, fun _ => hread⟩, fun v' hv' => ?_⟩
  rw [hread, Except.ok.injEq] at hv'
  rw [← hv']

theorem unaltered_rivals {s : String} (hs : s = "v" ∨ s = "w") :
    Unaltered rivalLib.json (.string s) := by
  intro v
  rcases hs with rfl | rfl <;> simp [rivalLib, sampleCoreLibraries, sampleJson]

theorem made_rivals {table : String} (htable : table = "t" ∨ table = "u") :
    made rivalLib firstDevice "t" "k" (.string "v") (calmWrite 9) = [firstWrite] ∧
      made rivalLib secondDevice table "k" (.string "w") (calmWrite 10) = [rivalWrite htable] := by
  simp [made, firstWrite, rivalWrite]

/-- Where both devices write the same row, the operations of the second are the newer ones and every
step of the run is harmless. -/
theorem harmless_rivals :
    TableNames {"t"} ∧ NoNewer rivalLib firstWrite (rivalWrite (.inl rfl)) ∧
      Guarded (Mesh.step rivalLib)
        (fun m op => Supposed rivalLib {"t"} m op ∧ Harmless rivalLib m op) rivals
        (rivalRun (.inl rfl)) := by
  have hnames : TableNames {"t"} := ⟨by simp; decide +kernel, Set.injOn_singleton _ _⟩
  have hfirst : savedDocument rivalLib.json firstDevice.crdt "t" "k" (.string "v") =
      ⟨List.replicate 32 1, [], (textChange "v").body⟩ := by decide +kernel
  have hrival : savedDocument rivalLib.json secondDevice.crdt "t" "k" (.string "w") =
      ⟨List.replicate 32 2, [], (rivalChange "t").body⟩ := by decide +kernel
  have hsaves : SavesReadBack rivalLib firstDevice "t" "k" (.string "v") ∧
      SavesReadBack rivalLib secondDevice "t" "k" (.string "w") := by
    rw [SavesReadBack, hfirst, SavesReadBack, hrival]
    exact ⟨⟨⟨by decide +kernel, by decide +kernel⟩, by decide +kernel, by decide +kernel⟩,
      ⟨by decide +kernel, by decide +kernel⟩, by decide +kernel, by decide +kernel⟩
  have hwritten : ((rivals.step rivalLib
      (.write false "t" "k" (.string "v") (calmWrite 9))).step rivalLib
        (.write true "t" "k" (.string "w") (calmWrite 10))).written =
      [firstWrite, rivalWrite (.inl rfl)] := by
    obtain ⟨hmade, hmade'⟩ := made_rivals (.inl rfl)
    change ([] ++ made rivalLib firstDevice _ _ _ _) ++ made rivalLib secondDevice _ _ _ _ = _
    rw [hmade, hmade']
    rfl
  have hmem : firstWrite ∈ ((rivals.step rivalLib
      (.write false "t" "k" (.string "v") (calmWrite 9))).step rivalLib
        (.write true "t" "k" (.string "w") (calmWrite 10))).written :=
    hwritten ▸ List.mem_cons_self
  have hmem' : rivalWrite (.inl rfl) ∈ ((rivals.step rivalLib
      (.write false "t" "k" (.string "v") (calmWrite 9))).step rivalLib
        (.write true "t" "k" (.string "w") (calmWrite 10))).written :=
    hwritten ▸ List.mem_cons_of_mem _ List.mem_cons_self
  refine ⟨hnames, by decide +kernel,
    ⟨⟨rfl, by decide, by decide, hsaves.1, rfl, fun _ hbits => absurd hbits List.not_mem_nil,
      describes_rivals (.inl rfl)⟩,
      .inr ⟨⟨rfl, rfl, rfl, rfl, .inl rfl, rfl, rfl⟩, kept_rivals _, unaltered_rivals (.inl rfl)⟩⟩,
    ⟨⟨rfl, by decide, by decide, hsaves.2, rfl, fun _ hbits => absurd hbits List.not_mem_nil,
      describes_rivals (.inr rfl)⟩,
      .inr ⟨⟨rfl, rfl, rfl, rfl, .inl rfl, rfl, rfl⟩, kept_rivals _, unaltered_rivals (.inr rfl)⟩⟩,
    ⟨hmem, rfl, rfl, ?_, ?_⟩, ⟨List.mem_append_left _ hmem', rfl, rfl, ?_, ?_⟩,
    ⟨List.mem_append_left _ (List.mem_append_left _ hmem), rfl, rfl, ?_, ?_⟩,
    ⟨List.mem_append_left _ (List.mem_append_left _ (List.mem_append_left _ hmem')), rfl, rfl, ?_,
      ?_⟩, trivial⟩
  all_goals decide +kernel

theorem held_rivals {table : String} (htable : table = "t" ∨ table = "u") :
    let m := run (Mesh.step rivalLib) rivals (rivalRun htable)
    m.written = [firstWrite, rivalWrite htable] ∧
      m.held false = [firstWrite, firstWrite, rivalWrite htable] ∧
        m.held true = [rivalWrite htable, firstWrite, rivalWrite htable] := by
  obtain ⟨hfirst, hrival⟩ := made_rivals htable
  intro m
  have hwritten : m.written =
      (([] ++ made rivalLib firstDevice "t" "k" (.string "v") (calmWrite 9)) ++
        made rivalLib secondDevice table "k" (.string "w") (calmWrite 10)) ++
          [] ++ [] ++ [] ++ [] := rfl
  have hheld : m.held false =
      ([] ++ made rivalLib firstDevice "t" "k" (.string "v") (calmWrite 9)) ++
        [firstWrite] ++ [rivalWrite htable] := rfl
  have hheld' : m.held true =
      ([] ++ made rivalLib secondDevice table "k" (.string "w") (calmWrite 10)) ++
        [firstWrite] ++ [rivalWrite htable] := rfl
  rw [hwritten, hheld, hheld', hfirst, hrival]
  exact ⟨rfl, rfl, rfl⟩

theorem tables_converge_rivals :
    Converged rivalLib (run (Mesh.step rivalLib) rivals (rivalRun (.inl rfl))) ∧
      Guarded (Mesh.step rivalLib) (KeepsOtherRows rivalLib {"t"}) rivals (rivalRun (.inl rfl)) :=
  tables_converge harmless_rivals.1 start_rivals harmless_rivals.2.2

/-- Where the devices write rows of two tables, the document of both names the second row, and the
second device never gets the first. -/
theorem rival_tables_diverge :
    let m := run (Mesh.step rivalLib) rivals (rivalRun (.inr rfl))
    HasAll m false ∧ HasAll m true ∧ (∀ w ∈ m.written, w.delta.causalParents = []) ∧
      (∃ warning, (m.device false).read rivalLib "t" "k" = .ok (.string "v", warning)) ∧
        (m.device true).read rivalLib "t" "k" =
          .error (.localStoreWriteFailed "key 'k' not found in table 't'") ∧
          ¬Converged rivalLib m := by
  intro m
  obtain ⟨hwritten, hheld, hheld'⟩ :
      m.written = [firstWrite, rivalWrite (.inr rfl)] ∧
        m.held false = [firstWrite, firstWrite, rivalWrite (.inr rfl)] ∧
          m.held true = [rivalWrite (.inr rfl), firstWrite, rivalWrite (.inr rfl)] :=
    held_rivals (.inr rfl)
  have hall : HasAll m false := by
    intro w hw
    rw [hheld]
    exact List.mem_cons_of_mem _ (hwritten ▸ hw)
  have hall' : HasAll m true := by
    intro w hw
    rw [hheld']
    exact List.mem_cons_of_mem _ (hwritten ▸ hw)
  have hparents : ∀ w ∈ m.written, w.delta.causalParents = [] := by
    rw [hwritten, List.forall_mem_cons, List.forall_mem_singleton]
    exact ⟨by decide +kernel, by decide +kernel⟩
  have htrust : (m.device false).capability.ensureLocalTrustAllowsIo = .ok () ∧
      (m.device true).capability.ensureLocalTrustAllowsIo = .ok () := by decide +kernel
  have hquoted : quotable "t" = true := by decide +kernel
  have hfound : text? (m.device false).store "t" "k" = some "\"v\"" := by decide +kernel
  have hmissing : (m.device true).store.row? "t" "k" = none := by decide +kernel
  have hread : (m.device true).read rivalLib "t" "k" =
      .error (.localStoreWriteFailed "key 'k' not found in table 't'") := by
    simp only [CoreHandle.read, htrust.2, LocalStore.read, hquoted, if_true, hmissing]
    rfl
  refine ⟨hall, hall', hparents, (read_iff htrust.1 hquoted hfound _).mpr
    (fromStr_toString_rivals (.inl rfl)), hread, fun hconverged => ?_⟩
  obtain ⟨value, warning, warning', -, hshown⟩ := hconverged false true hall hall' firstWrite
    (hwritten ▸ List.mem_cons_self)
  have hmissed : (m.device true).read rivalLib "t" "k" = .ok (value, warning') := hshown
  rw [hread] at hmissed
  cases hmissed

end Sample

end TirBase.TableConvergence
