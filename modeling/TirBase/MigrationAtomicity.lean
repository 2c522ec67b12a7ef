import TirBase.MigrationSandbox
import TirBase.SchemaWalk

/-! # What a migration leaves in the rows

The host writes of a transform reach the live store one by one, while the migration is decided after the
run. So a run that does not end in a success leaves the rows alone only when its writes cancel out. -/
namespace TirBase.MigrationAtomicity
open HostPrograms MigrationSandbox SchemaMigrationEngine

variable (lib : CoreLibraries) (runtime : GuestRuntime) (env : SandboxEnvironment)

def startupTranscript (s : LocalStore) : Startup → List (ℕ × HostCall)
  | .direct _ => []
  | .startSection program => (nativeHost lib env).transcript env.interruptAt program 0 s

def instantiated (transform : Bytes) : Option TransformModule :=
  match env.engineFault, runtime.decode transform with
  | none, .ok module => if module.imports.all Import.linked then some module else none
  | _, _ => none

def callsMade (transform : Bytes) (s : LocalStore) : List (ℕ × HostCall) :=
  match instantiated runtime env transform with
  | none => []
  | some module =>
    let started := module.startup.run (nativeHost lib env) env.interruptAt s
    startupTranscript lib env s module.startup ++
      match started.ending with
      | .finished (.typed program) =>
        (nativeHost lib env).transcript env.interruptAt program started.calls started.state
      | _ => []

/-- The transform is instantiated, and its `run` export, if there is one, returns. -/
def EndsWell (transform : Bytes) (s : LocalStore) : Prop :=
  ∃ module, instantiated runtime env transform = some module ∧
    let started := module.startup.run (nativeHost lib env) env.interruptAt s
    (started.ending = .finished .absent ∨ ∃ program, started.ending = .finished (.typed program) ∧
      ((nativeHost lib env).run env.interruptAt program started.calls started.state).ending =
        .finished ())

variable {lib runtime env} {transform : Bytes} {s : LocalStore}

theorem startup_state (module : TransformModule) :
    (module.startup.run (nativeHost lib env) env.interruptAt s).state =
      (nativeHost lib env).after s (startupTranscript lib env s module.startup) := by
  cases module.startup with
  | direct runExport => rfl
  | startSection program => exact Host.run_state _ _ _ _ _

theorem find?_linked (imports : List Import) :
    (imports.find? fun i => !i.linked) = none ↔ imports.all Import.linked = true := by
  simp [List.find?_eq_none, List.all_eq_true]

theorem callsMade_of_none (h : instantiated runtime env transform = none) :
    callsMade lib runtime env transform s = [] := by
  rw [callsMade, h]

theorem not_endsWell_of_none (h : instantiated runtime env transform = none) :
    ¬EndsWell lib runtime env transform s := by
  rintro ⟨module, hmodule, -⟩
  rw [h] at hmodule
  cases hmodule

/-- A transform leaves what its calls leave, and reports a success exactly when it ends well. -/
theorem executeNative_spec (lib : CoreLibraries) (runtime : GuestRuntime) (env : SandboxEnvironment)
    (transform : Bytes) (timeoutSecs : ℕ) (s : LocalStore) :
    (executeNative lib runtime env transform timeoutSecs s).2 =
        (nativeHost lib env).after s (callsMade lib runtime env transform s) ∧
      ((executeNative lib runtime env transform timeoutSecs s).1 = .ok .success ↔
        EndsWell lib runtime env transform s) := by
  unfold executeNative
  cases hfault : env.engineFault with
  | some e =>
    have hnone : instantiated runtime env transform = none := by
      rw [instantiated, hfault]
    rw [callsMade_of_none hnone]
    exact ⟨rfl, iff_of_false (fun h => by cases h) (not_endsWell_of_none hnone)⟩
  | none =>
    cases hdecode : runtime.decode transform with
    | error e =>
      have hnone : instantiated runtime env transform = none := by
        rw [instantiated, hfault, hdecode]
      rw [callsMade_of_none hnone]
      exact ⟨rfl, iff_of_false (fun h => by cases h) (not_endsWell_of_none hnone)⟩
    | ok module =>
      dsimp only
      cases hlinked : module.imports.find? fun i => !i.linked with
      | some i =>
        have hnone : instantiated runtime env transform = none := by
          rw [instantiated, hfault, hdecode]
          have hnot : ¬module.imports.all Import.linked = true := by
            rw [← find?_linked, hlinked]
            exact Option.some_ne_none i
          exact if_neg hnot
        rw [callsMade_of_none hnone]
        exact ⟨rfl, iff_of_false (fun h => by cases h) (not_endsWell_of_none hnone)⟩
      | none =>
        have hsome : instantiated runtime env transform = some module := by
          rw [instantiated, hfault, hdecode]
          exact if_pos ((find?_linked _).mp hlinked)
        have hends : EndsWell lib runtime env transform s ↔
            let started := module.startup.run (nativeHost lib env) env.interruptAt s
            (started.ending = .finished .absent ∨
              ∃ program, started.ending = .finished (.typed program) ∧
                ((nativeHost lib env).run env.interruptAt program started.calls
                  started.state).ending = .finished ()) := by
          constructor
          · rintro ⟨module', hmodule, h⟩
            cases hsome.symm.trans hmodule
            exact h
          · exact fun h => ⟨module, hsome, h⟩
        rw [callsMade, hsome, hends, Host.after_append, ← startup_state]
        dsimp only
        cases hstarted : (module.startup.run (nativeHost lib env) env.interruptAt s).ending with
        | interrupted => exact ⟨rfl, by simp⟩
        | trapped trap => exact ⟨rfl, by simp⟩
        | finished runExport =>
          cases runExport with
          | absent => exact ⟨rfl, by simp⟩
          | mistyped => exact ⟨rfl, by simp⟩
          | typed program =>
            dsimp only
            have hstate := Host.run_state (nativeHost lib env) env.interruptAt program
              (module.startup.run (nativeHost lib env) env.interruptAt s).calls
              (module.startup.run (nativeHost lib env) env.interruptAt s).state
            cases hran : ((nativeHost lib env).run env.interruptAt program
                (module.startup.run (nativeHost lib env) env.interruptAt s).calls
                (module.startup.run (nativeHost lib env) env.interruptAt s).state).ending with
            | finished a => exact ⟨hstate, by simp [hran]⟩
            | interrupted => exact ⟨hstate, by simp [hran]⟩
            | trapped trap => exact ⟨hstate, by simp [hran]⟩

/-- Going back from the last call: the statement that last reached the row wrote what the row held. A
statement with a name that ends the quoted identifier reaches the rows that it changes. -/
def RowKept (lib : CoreLibraries) (env : SandboxEnvironment) (s : LocalStore) (table key : String) :
    List (ℕ × HostCall) → Prop
  | [] => True
  | c :: earlier =>
    match statement lib env c.1 c.2 with
    | none => RowKept lib env s table key earlier
    | some (table', key', data) =>
      let before := (nativeHost lib env).after s earlier.reverse
      if quotable table' then
        if env.writeFault c.1 = none ∧ (sqlName table, key) = (sqlName table', key') then
          s.row? table key = some ⟨lib.json.toString data,
            ((before.row? table key).map ProjectionRow.contaminated).getD false⟩
        else RowKept lib env s table key earlier
      else
        let row := (before.write lib.store (env.writeFault c.1) table' key' data).2.row?
          table key
        if row = before.row? table key then RowKept lib env s table key earlier
        else row = s.row? table key

theorem answer_snd (n : ℕ) (s : LocalStore) (c : HostCall) :
    ((nativeHost lib env).answer n s c).2 = nativeWriteRow lib env n s c := by
  cases c with
  | logMessage => rfl
  | readRow table key outMax room => cases table <;> cases key <;> rfl
  | writeRow table key value => rfl

theorem after_concat (s : LocalStore) (earlier : List (ℕ × HostCall)) (c : ℕ × HostCall) :
    (nativeHost lib env).after s (earlier.reverse ++ [c]) =
      nativeWriteRow lib env c.1 ((nativeHost lib env).after s earlier.reverse) c.2 := by
  rw [Host.after_append]
  exact answer_snd c.1 _ c.2

/-- The calls leave a row as it was exactly when it is kept in this sense. -/
theorem row?_after_iff (lib : CoreLibraries) (env : SandboxEnvironment) (s : LocalStore)
    (table key : String) (calls : List (ℕ × HostCall)) :
    ((nativeHost lib env).after s calls.reverse).row? table key = s.row? table key ↔
      RowKept lib env s table key calls := by
  induction calls with
  | nil => exact iff_of_true rfl trivial
  | cons c earlier ih =>
    rw [List.reverse_cons]
    unfold RowKept
    cases hstatement : statement lib env c.1 c.2 with
    | none =>
      rw [after_concat, nativeWriteRow, hstatement]
      exact ih
    | some write =>
      obtain ⟨table', key', data⟩ := write
      dsimp only
      split_ifs with hquotable hreached hsame
      · obtain ⟨hfault, hrow⟩ := hreached
        obtain ⟨hname, hkey⟩ := Prod.mk.inj hrow
        rw [after_concat, nativeWriteRow, hstatement]
        dsimp only
        rw [hfault, LocalStore.row?_congr _ hname, hkey, LocalStore.row?_write_self hquotable,
          LocalStore.row?_congr _ hname, LocalStore.row?_congr _ hname]
        exact eq_comm
      · rw [← ih, after_concat, nativeWriteRow, hstatement]
        dsimp only
        cases hfault : env.writeFault c.1 with
        | none =>
          rw [LocalStore.row?_write_other hquotable none data
            fun hrow => hreached ⟨hfault, hrow⟩]
        | some fault => rw [LocalStore.row?_write_fault hquotable]
      · rw [← ih, ← hsame, after_concat, nativeWriteRow, hstatement]
      · rw [after_concat, nativeWriteRow, hstatement]

/-- When the outcome recorded is not a success every row is as it was; when it is, the rows are those
after all the calls that the transform makes without a limit. -/
def AllOrNothing (lib : CoreLibraries) (runtime : GuestRuntime) (env : SandboxEnvironment)
    (s : LocalStore) (m : SchemaMigrationEngine) (prepared : PreparedMigration) : Prop :=
  let ran := executeNative lib runtime env prepared.transformBytes prepared.timeoutSecs s
  let outcome := (m.finishMigration prepared.migrationId prepared.targetSchemaHash ran.1).1
  (outcome ≠ .ok .success → ∀ table key, ran.2.row? table key = s.row? table key) ∧
    (outcome = .ok .success → ∀ table key, ran.2.row? table key =
      ((nativeHost lib env).after s (callsMade lib runtime { env with interruptAt := none }
        prepared.transformBytes s)).row? table key)

theorem callsMade_of_endsWell (h : EndsWell lib runtime env transform s) :
    callsMade lib runtime { env with interruptAt := none } transform s =
      callsMade lib runtime env transform s := by
  obtain ⟨module, hmodule, hends⟩ := h
  have hunlimited : instantiated runtime { env with interruptAt := none } transform =
      some module := hmodule
  have hhost : nativeHost lib { env with interruptAt := none } = nativeHost lib env := rfl
  have hstartup : ∀ runExport,
      (module.startup.run (nativeHost lib env) env.interruptAt s).ending = .finished runExport →
      module.startup.run (nativeHost lib env) none s =
          module.startup.run (nativeHost lib env) env.interruptAt s ∧
        startupTranscript lib { env with interruptAt := none } s module.startup =
          startupTranscript lib env s module.startup := by
    intro runExport hending
    cases hstart : module.startup with
    | direct e => exact ⟨rfl, rfl⟩
    | startSection program =>
      rw [hstart] at hending
      exact Host.run_of_finished _ hending
  unfold callsMade
  rw [hmodule, hunlimited, hhost]
  dsimp only
  rcases hends with habsent | ⟨program, htyped, hreturned⟩
  · obtain ⟨hrun, htranscript⟩ := hstartup _ habsent
    rw [hrun, htranscript, habsent]
  · obtain ⟨hrun, htranscript⟩ := hstartup _ htyped
    rw [hrun, htranscript, htyped]
    dsimp only
    rw [(Host.run_of_finished _ hreturned).2]

/-- A migration applies completely or not at all exactly when its transform ends well and it is not
revoked before the commit, or the calls it made left every row with what it held. -/
theorem allOrNothing_iff (lib : CoreLibraries) (runtime : GuestRuntime) (env : SandboxEnvironment)
    (s : LocalStore) (m : SchemaMigrationEngine) (prepared : PreparedMigration) :
    AllOrNothing lib runtime env s m prepared ↔
      (EndsWell lib runtime env prepared.transformBytes s ∧
          prepared.migrationId ∉ m.revocationRegistry.revoked) ∨
        ∀ table key, RowKept lib env s table key
          (callsMade lib runtime env prepared.transformBytes s).reverse := by
  obtain ⟨hstate, hsuccess⟩ := executeNative_spec lib runtime env prepared.transformBytes
    prepared.timeoutSecs s
  have hrows : (∀ table key, (executeNative lib runtime env prepared.transformBytes
        prepared.timeoutSecs s).2.row? table key = s.row? table key) ↔
      ∀ table key, RowKept lib env s table key
        (callsMade lib runtime env prepared.transformBytes s).reverse := by
    refine forall₂_congr fun table key => ?_
    rw [hstate, ← row?_after_iff, List.reverse_reverse]
  have houtcome : (m.finishMigration prepared.migrationId prepared.targetSchemaHash
        (executeNative lib runtime env prepared.transformBytes prepared.timeoutSecs s).1).1 =
        .ok .success ↔ EndsWell lib runtime env prepared.transformBytes s ∧
      prepared.migrationId ∉ m.revocationRegistry.revoked := by
    obtain ⟨-, -, -, hend⟩ := SchemaWalk.finishMigration_cases m prepared.migrationId
      prepared.targetSchemaHash
      (executeNative lib runtime env prepared.transformBytes prepared.timeoutSecs s).1
    rw [← hsuccess]
    rcases hend with ⟨hran, hclear, hok, -⟩ | ⟨hfailed, hnot, -⟩
    · exact iff_of_true hok ⟨hran, hclear⟩
    · exact iff_of_false hnot hfailed
  unfold AllOrNothing
  dsimp only
  rw [hrows, ne_eq, houtcome]
  constructor
  · rintro ⟨hkept, -⟩
    by_cases hwell : EndsWell lib runtime env prepared.transformBytes s ∧
        prepared.migrationId ∉ m.revocationRegistry.revoked
    · exact .inl hwell
    · exact .inr (hkept hwell)
  · intro h
    refine ⟨fun hnot => h.resolve_left hnot, fun hwell table key => ?_⟩
    rw [hstate, callsMade_of_endsWell hwell.1]

/-- A module that writes a row and then executes `unreachable`. -/
def writeThenTrap : TransformModule :=
  ⟨[⟨"host", "write_row", true⟩], .direct (.typed (.call
    (.writeRow (some "items") (some "a") (some [116])) fun _ => .trapped .unreachable))⟩

def sampleRuntime : GuestRuntime where
  decode bytes := if bytes = [5] then .ok writeThenTrap else .error "unexpected end"
  importText i := s!"unknown import: {i.moduleName}::{i.name}"
  trapText _ := "wasm trap: wasm unreachable instruction executed"
  interruptText := "wasm trap: interrupt"
  mistypedText := "expected 0 results"

/-- Libraries that read the JSON text `t` as `true`. -/
def sampleParsing : CoreLibraries :=
  { CoreHandle.sampleCoreLibraries [] with
    parseJson := fun bytes => if bytes = [116] then some (.bool true) else none }

/-- The migration is recorded as aborted, and the row that it wrote stays. -/
theorem aborted_migration_leaves_row :
    let env : SandboxEnvironment := ⟨none, none, fun _ => false, fun _ => none⟩
    let m := SchemaMigrationEngine.new (CrdtEngine.sampleKey 9) 10 [10, 11] 1 [] [] []
    let prepared : PreparedMigration := ⟨1, 11, [5], 30⟩
    let ran := executeNative sampleParsing sampleRuntime env [5] 30 .empty
    (m.finishMigration 1 11 ran.1).1 ≠ .ok .success ∧
      LocalStore.empty.row? "items" "a" = none ∧
      ran.2.row? "items" "a" = some ⟨"true", false⟩ ∧
      ¬AllOrNothing sampleParsing sampleRuntime env .empty m prepared := by
  intro env m prepared ran
  have hfailed : (m.finishMigration 1 11 ran.1).1 ≠ .ok .success := by decide +kernel
  have hbefore : LocalStore.empty.row? "items" "a" = none := by decide +kernel
  have hafter : ran.2.row? "items" "a" = some ⟨"true", false⟩ := by decide +kernel
  refine ⟨hfailed, hbefore, hafter, fun hall => ?_⟩
  have hsame := hall.1 hfailed "items" "a"
  rw [hbefore] at hsame
  cases hafter.symm.trans hsame

end TirBase.MigrationAtomicity
