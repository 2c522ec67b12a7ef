import TirBase.MigrationAtomicity
import TirBase.RevokedTransforms

/-! # One transform on both builds

Both builds prepare and finish a migration in the same way, and differ in the store that the transform
runs on: the WASM build gives it an empty one, which it drops afterwards. -/
namespace TirBase.SandboxAgreement
open HostPrograms MigrationAtomicity MigrationSandbox SchemaMigrationEngine

/-- Two runtimes of WebAssembly: the transform is the same module on both, or is refused by both. -/
def SameGuest (native wasm : GuestRuntime) (transform : Bytes) : Prop :=
  (native.decode transform).toOption = (wasm.decode transform).toOption

/-- An outcome without the text of its reason, which is the runtime's own. -/
def withoutReason : Except TirBaseError MigrationResult → Except TirBaseError MigrationResult
  | .ok (.aborted _) => .ok (.aborted "")
  | outcome => outcome

/-- The transform imports from `host` only. -/
def HostOnly (runtime : GuestRuntime) (transform : Bytes) : Prop :=
  ∀ module, runtime.decode transform = .ok module → ∀ i ∈ module.imports, i.moduleName = "host"

/-- The reads of the transform get the same answers from the live rows as from a store that holds
nothing but its own writes. -/
def SameReads (lib : CoreLibraries) (runtime : GuestRuntime) (env : SandboxEnvironment)
    (transform : Bytes) (s : LocalStore) : Prop :=
  ∀ module, runtime.decode transform = .ok module →
    (∀ program, module.startup = .startSection program →
      Host.SameAnswers (nativeHost lib env) wasmHost program 0 s .new) ∧
    ∀ program,
      (module.startup.run (nativeHost lib env) none s).ending = .finished (.typed program) →
      Host.SameAnswers (nativeHost lib env) wasmHost program
        (module.startup.run (nativeHost lib env) none s).calls
        (module.startup.run (nativeHost lib env) none s).state
        (module.startup.run wasmHost none .new).state

def NeverReads {Value : Type} : Guest Value → Prop
  | .finished _ => True
  | .trapped _ => True
  | .call c next => (∀ table key outMax room, c ≠ .readRow table key outMax room) ∧
      ∀ answer, NeverReads (next answer)

/-- A program that reads nothing is answered alike by every store. -/
theorem sameAnswers_of_neverReads {Value : Type} {lib : CoreLibraries} {env : SandboxEnvironment}
    {program : Guest Value} (h : NeverReads program) (n : ℕ) (s : LocalStore)
    (handle : InMemoryStoreHandle) :
    Host.SameAnswers (nativeHost lib env) wasmHost program n s handle := by
  induction program generalizing n s handle with
  | finished a => trivial
  | trapped trap => trivial
  | call c next ih =>
    obtain ⟨hwrites, hrest⟩ := h
    refine ⟨?_, ih _ (hrest _) _ _ _⟩
    cases c with
    | logMessage => rfl
    | readRow table key outMax room => exact absurd rfl (hwrites table key outMax room)
    | writeRow table key value => cases table <;> cases key <;> cases value <;> rfl

variable {lib : CoreLibraries} {native wasm : GuestRuntime} {env : SandboxEnvironment}
  {transform : Bytes} {s : LocalStore}

theorem startup_of_sameAnswers {startup : Startup}
    (h : ∀ program, startup = .startSection program →
      Host.SameAnswers (nativeHost lib env) wasmHost program 0 s .new) :
    (startup.run (nativeHost lib env) none s).ending =
        (startup.run wasmHost none .new).ending ∧
      (startup.run (nativeHost lib env) none s).calls =
        (startup.run wasmHost none .new).calls := by
  cases startup with
  | direct runExport => exact ⟨rfl, rfl⟩
  | startSection program =>
    obtain ⟨hending, hcalls, -⟩ := Host.run_of_sameAnswers (h program rfl)
    exact ⟨hending, hcalls⟩

theorem decode_cases (hguest : SameGuest native wasm transform) :
    (∃ e e', native.decode transform = .error e ∧ wasm.decode transform = .error e') ∨
      ∃ module, native.decode transform = .ok module ∧ wasm.decode transform = .ok module := by
  have hsame : (native.decode transform).toOption = (wasm.decode transform).toOption := hguest
  cases hnative : native.decode transform with
  | error e =>
    cases hwasm : wasm.decode transform with
    | error e' => exact .inl ⟨e, e', rfl, rfl⟩
    | ok module =>
      rw [hnative, hwasm] at hsame
      cases hsame
  | ok module =>
    cases hwasm : wasm.decode transform with
    | error e' =>
      rw [hnative, hwasm] at hsame
      cases hsame
    | ok module' =>
      rw [hnative, hwasm] at hsame
      cases hsame
      exact .inr ⟨module, rfl, rfl⟩

theorem find?_foreign {imports : List Import} (h : ∀ i ∈ imports, i.moduleName = "host") :
    (imports.find? fun i => i.moduleName ≠ "host") = none := by
  rw [List.find?_eq_none]
  intro i hi hforeign
  exact of_decide_eq_true hforeign (h i hi)

/-- Within the limits, with reads that get the same answers, both sandboxes end in the same way. -/
theorem execute_of_sameReads (hguest : SameGuest native wasm transform)
    (hengine : env.engineFault = none) (hlimit : env.interruptAt = none)
    (hhost : HostOnly native transform)
    (hreads : SameReads lib native env transform s) (timeoutSecs : ℕ) :
    withoutReason (executeNative lib native env transform timeoutSecs s).1 =
      withoutReason (executeMigration wasm none transform timeoutSecs) := by
  unfold executeMigration executeMigrationWasm executeNative
  rw [hengine]
  rcases decode_cases hguest with ⟨e, e', hnative, hwasm⟩ | ⟨module, hnative, hwasm⟩
  · rw [hnative, hwasm]
    rfl
  · rw [hnative, hwasm]
    dsimp only
    rw [find?_foreign (hhost module hnative)]
    obtain ⟨hstart, hrun⟩ := hreads module hnative
    obtain ⟨hending, hcalls⟩ := startup_of_sameAnswers hstart
    dsimp only
    cases hlinked : module.imports.find? fun i => !i.linked with
    | some i => rfl
    | none =>
      dsimp only
      rw [hlimit, ← hending]
      cases hstarted : (module.startup.run (nativeHost lib env) none s).ending with
      | interrupted => rfl
      | trapped trap => rfl
      | finished runExport =>
        cases runExport with
        | absent => rfl
        | mistyped => rfl
        | typed program =>
          dsimp only
          obtain ⟨hprogram, -, -⟩ := Host.run_of_sameAnswers (hrun program hstarted)
          rw [← hcalls, ← hprogram]
          cases hran : ((nativeHost lib env).run none program
              (module.startup.run (nativeHost lib env) none s).calls
              (module.startup.run (nativeHost lib env) none s).state).ending with
          | finished a => rfl
          | trapped trap => rfl
          | interrupted => exact absurd hran (Host.ending_ne_interrupted _ _ _ _)

/-- A foreign import aborts the native run, and is an error of the WASM one. -/
theorem execute_of_foreign (lib : CoreLibraries) (s : LocalStore)
    (hguest : SameGuest native wasm transform) (hengine : env.engineFault = none)
    (hforeign : ¬HostOnly native transform) (timeoutSecs : ℕ) :
    (∃ reason, executeNative lib native env transform timeoutSecs s = (.ok (.aborted reason), s)) ∧
      ∃ text, executeMigration wasm none transform timeoutSecs =
        .error (.migrationCaSignatureInvalid text) := by
  unfold HostOnly at hforeign
  push Not at hforeign
  obtain ⟨module, hnative, i, hi, hname⟩ := hforeign
  have hwasm : wasm.decode transform = .ok module := by
    rcases decode_cases hguest with ⟨e, e', hnone, -⟩ | ⟨module', hsome, hwasm⟩
    · cases hnative.symm.trans hnone
    · cases hnative.symm.trans hsome
      exact hwasm
  constructor
  · have hunlinked : (module.imports.find? fun i => !i.linked) ≠ none := by
      rw [Ne, find?_linked, List.all_eq_true]
      intro hall
      have hlinked := hall i hi
      simp [Import.linked, hname] at hlinked
    obtain ⟨j, hj⟩ := Option.ne_none_iff_exists'.mp hunlinked
    unfold executeNative
    rw [hengine, hnative]
    dsimp only
    rw [hj]
    exact ⟨_, rfl⟩
  · have hfound : (module.imports.find? fun i => i.moduleName ≠ "host") ≠ none := by
      rw [Ne, List.find?_eq_none]
      exact fun hall => hall i hi (decide_eq_true hname)
    obtain ⟨j, hj⟩ := Option.ne_none_iff_exists'.mp hfound
    unfold executeMigration executeMigrationWasm
    rw [hwasm]
    dsimp only
    rw [hj]
    exact ⟨_, rfl⟩

theorem withoutReason_success {r : Except TirBaseError MigrationResult}
    (h : withoutReason r = .ok .success) : r = .ok .success := by
  unfold withoutReason at h
  split at h
  · cases h
  · exact h

/-- The end of a migration sees the kind of a result only. -/
theorem finishMigration_congr (m : SchemaMigrationEngine) (id : MigrationId)
    (target : SchemaIdentifierHash) {r r' : Except TirBaseError MigrationResult}
    (h : withoutReason r = withoutReason r') :
    withoutReason (migrationOutcome id (m.finishMigration id target r).1) =
        withoutReason (migrationOutcome id (m.finishMigration id target r').1) ∧
      (m.finishMigration id target r).2 = (m.finishMigration id target r').2 := by
  by_cases hrevoked : id ∈ m.revocationRegistry.revoked
  · simp only [finishMigration, if_pos hrevoked, and_self]
  · have hother : ∀ r : Except TirBaseError MigrationResult, r ≠ .ok .success →
        m.finishMigration id target r = (r, { m with
          revocationRegistry := { m.revocationRegistry with
            inProgress := m.revocationRegistry.inProgress.filter (· ≠ id) } }) := by
      intro r hr
      unfold finishMigration
      dsimp only
      rw [if_neg hrevoked]
      split
      · exact absurd rfl hr
      · rfl
    by_cases hr : r = .ok .success
    · subst hr
      rw [withoutReason_success h.symm]
      exact ⟨rfl, rfl⟩
    · have hr' : r' ≠ .ok .success := by
        rintro rfl
        exact hr (withoutReason_success h)
      rw [hother r hr, hother r' hr']
      refine ⟨?_, rfl⟩
      have hkind : ∀ r, withoutReason (migrationOutcome id r) =
          migrationOutcome id (withoutReason r) := by
        intro r
        rcases r with e | result
        · rfl
        · cases result <;> rfl
      rw [hkind, hkind, h]

/-- On the WASM build the rows stay as they are; on the native build they are what the calls of the
transform leave. Within the limits the two builds end with the same outcome and the same engine, its
current schema included, when the transform imports from `host` only and its reads get the same answers;
a transform with a foreign import is aborted on the native build and an error on the WASM one, and
advances the schema on neither. -/
theorem receiveMigrationDelta_agree (lib : CoreLibraries) (native wasm : GuestRuntime)
    (env : SandboxEnvironment) (hengine : env.engineFault = none) (hlimit : env.interruptAt = none)
    (m : SchemaMigrationEngine) (s : LocalStore) (δ : MigrationDelta) (senderDid : Did)
    (hguest : SameGuest native wasm δ.transformBytes) :
    let onNative := receiveMigrationDeltaNative lib native env m s δ senderDid
    let onWasm := receiveMigrationDeltaWasm lib wasm none m s δ senderDid
    onWasm.2.2 = s ∧
      onNative.2.2 = (if (m.prepareMigration lib.toMigrationLibraries δ senderDid).1.isOk then
        (nativeHost lib env).after s (callsMade lib native env δ.transformBytes s) else s) ∧
      (HostOnly native δ.transformBytes → SameReads lib native env δ.transformBytes s →
        withoutReason onNative.1 = withoutReason onWasm.1 ∧ onNative.2.1 = onWasm.2.1) ∧
      (¬HostOnly native δ.transformBytes →
        (m.prepareMigration lib.toMigrationLibraries δ senderDid).1.isOk →
        (∃ reason, onNative.1 = .ok (.aborted reason)) ∧
          (∃ text, onWasm.1 = .error (.migrationCaSignatureInvalid text)) ∧
          onNative.2.1 = onWasm.2.1 ∧
          onNative.2.1.localSchemaHash = m.localSchemaHash) := by
  intro onNative onWasm
  have hnative : onNative = receiveMigrationDeltaNative lib native env m s δ senderDid := rfl
  have hwasm : onWasm = receiveMigrationDeltaWasm lib wasm none m s δ senderDid := rfl
  unfold receiveMigrationDeltaNative at hnative
  unfold receiveMigrationDeltaWasm at hwasm
  cases hprepare : m.prepareMigration lib.toMigrationLibraries δ senderDid with
  | mk handed m' =>
    rw [hprepare] at hnative hwasm
    cases handed with
    | error e =>
      rw [hnative, hwasm]
      exact ⟨rfl, rfl, fun _ _ => ⟨rfl, rfl⟩, fun _ hok => by cases hok⟩
    | ok prepared =>
      have hok : (m.prepareMigration lib.toMigrationLibraries δ senderDid).1 = .ok prepared := by
        rw [hprepare]
      obtain ⟨hcleared, -, hprepared⟩ := MigrationRuns.prepareMigration_ok hok
      have hbytes : prepared.transformBytes = δ.transformBytes := by rw [hprepared]
      have hid : prepared.migrationId = δ.id := by rw [hprepared]
      dsimp only at hnative hwasm
      rw [hbytes] at hnative hwasm
      obtain ⟨hstate, -⟩ := executeNative_spec lib native env δ.transformBytes
        prepared.timeoutSecs s
      refine ⟨by rw [hwasm], ?_, fun hhost hreads => ?_, fun hforeign _ => ?_⟩
      · rw [hnative]
        exact hstate
      · rw [hnative, hwasm]
        exact finishMigration_congr m' prepared.migrationId prepared.targetSchemaHash
          (execute_of_sameReads hguest hengine hlimit hhost hreads prepared.timeoutSecs)
      · obtain ⟨⟨reason, haborted⟩, text, hrejected⟩ := execute_of_foreign lib s hguest
          hengine hforeign prepared.timeoutSecs
        obtain ⟨hlocal, -⟩ := SchemaWalk.prepareMigration_cases lib.toMigrationLibraries m δ senderDid
        have hkept := (MigrationRuns.frame_prepareMigration lib.toMigrationLibraries m δ senderDid).1
        rw [hprepare] at hlocal hkept
        have hclear : prepared.migrationId ∉ m'.revocationRegistry.revoked := by
          rw [hid, hkept]
          exact hcleared.notRevoked
        rw [haborted] at hnative
        rw [hrejected] at hwasm
        simp only [finishMigration, if_neg hclear] at hnative hwasm
        rw [hnative, hwasm]
        exact ⟨⟨reason, rfl⟩, ⟨text, rfl⟩, rfl, hlocal⟩

def runtimeOf (module : TransformModule) : GuestRuntime :=
  { sampleRuntime with decode := fun bytes => if bytes = [5] then .ok module else .error "unexpected end" }

def calm : SandboxEnvironment := ⟨none, none, fun _ => false, fun _ => none⟩

def sampleEngine : SchemaMigrationEngine := RevokedTransforms.sampleEngine

def sampleStore : LocalStore :=
  (LocalStore.empty.write sampleParsing.store none "items" "a" (.bool true)).2

def writes : TransformModule :=
  ⟨[⟨"host", "write_row", true⟩], .direct (.typed (.call
    (.writeRow (some "items") (some "b") (some [116])) fun _ => .finished ()))⟩

def checks : TransformModule :=
  ⟨[⟨"host", "read_row", true⟩], .direct (.typed (.call
    (.readRow (some "items") (some "a") 8 8) fun row =>
      if row = [] then .trapped .unreachable else .finished ()))⟩

def foreign : TransformModule := ⟨[⟨"wasi_snapshot_preview1", "fd_write", true⟩], .direct .absent⟩

/-- A transform that only writes ends alike on both builds. -/
theorem receiveMigrationDelta_agree_sample :
    let onNative := receiveMigrationDeltaNative sampleParsing (runtimeOf writes) calm sampleEngine
      sampleStore (RevokedTransforms.sampleTransform 1) CrdtEngine.sampleDid₂
    let onWasm := receiveMigrationDeltaWasm sampleParsing (runtimeOf writes) none sampleEngine
      sampleStore (RevokedTransforms.sampleTransform 1) CrdtEngine.sampleDid₂
    withoutReason onNative.1 = withoutReason onWasm.1 ∧ onNative.2.1 = onWasm.2.1 := by
  have hdecode : ∀ module, (runtimeOf writes).decode
      (RevokedTransforms.sampleTransform 1).transformBytes = .ok module → writes = module :=
    fun module h => Except.ok.inj h
  refine (receiveMigrationDelta_agree sampleParsing (runtimeOf writes) (runtimeOf writes) calm rfl rfl
    sampleEngine sampleStore (RevokedTransforms.sampleTransform 1) CrdtEngine.sampleDid₂
    rfl).2.2.1 ?_ ?_
  · intro module hmodule i hi
    rw [← hdecode module hmodule] at hi
    rw [List.mem_singleton.mp hi]
  · intro module hmodule
    rw [← hdecode module hmodule]
    refine ⟨fun program hstart => (by cases hstart), fun program hprogram => ?_⟩
    cases hprogram
    refine sameAnswers_of_neverReads ?_ _ _ _
    exact And.intro (fun _ _ _ _ h => (by cases h)) fun _ => trivial

/-- A transform that writes leaves different rows on the two builds; one that looks for a row of the
device, and one with a foreign import, have different outcomes. -/
theorem builds_disagree :
    let native (module : TransformModule) := receiveMigrationDeltaNative sampleParsing
      (runtimeOf module) calm sampleEngine sampleStore (RevokedTransforms.sampleTransform 1)
      CrdtEngine.sampleDid₂
    let wasm (module : TransformModule) := receiveMigrationDeltaWasm sampleParsing
      (runtimeOf module) none sampleEngine sampleStore (RevokedTransforms.sampleTransform 1)
      CrdtEngine.sampleDid₂
    (native writes).1 = .ok .success ∧ (wasm writes).1 = .ok .success ∧
      (native writes).2.2.row? "items" "b" = some ⟨"true", false⟩ ∧
      (wasm writes).2.2.row? "items" "b" = none ∧
      (native checks).1 = .ok .success ∧
      (wasm checks).1 = .ok (.aborted
        "trap during migration: wasm trap: wasm unreachable instruction executed") ∧
      (native checks).2.1.localSchemaHash = 11 ∧ (wasm checks).2.1.localSchemaHash = 10 ∧
      (native foreign).1.isOk = true ∧ (wasm foreign).1.isOk = false := by
  decide +kernel

end TirBase.SandboxAgreement
