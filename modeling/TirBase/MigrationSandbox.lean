import TirBase.CoreHandle
import TirBase.HostPrograms

/-! # The migration sandbox

A transform is a WebAssembly module that may call three host functions. The native build runs it on the
live Local Store, the WASM build on an empty store of its own. -/
namespace TirBase.MigrationSandbox
open HostPrograms SchemaMigrationEngine

inductive TrapCode
  | unreachable
  | memoryOutOfBounds
  | tableOutOfBounds
  | indirectCallToNull
  | badSignature
  | integerDivisionByZero
  | integerOverflow
  | badConversionToInteger
  | stackOverflow
  deriving DecidableEq

/-- A call with what the guest memory holds at its pointers: a text, unless the range lies outside the
memory or is not UTF-8, the bytes of a value, and the room behind the output pointer. -/
inductive HostCall
  | logMessage
  | readRow (table key : Option String) (outMax room : ℕ)
  | writeRow (table key : Option String) (value : Option Bytes)
  deriving DecidableEq

abbrev Guest (Value : Type) := HostProgram HostCall Bytes TrapCode Value

/-- The `run` export: it may be missing or take parameters. -/
inductive RunExport
  | absent
  | mistyped
  | typed (program : Guest Unit)

structure Import where
  moduleName : String
  name : String
  typed : Bool
  deriving DecidableEq

/-- How an instance comes to its export: at once, or through a start section. -/
inductive Startup
  | direct (runExport : RunExport)
  | startSection (program : Guest RunExport)

structure TransformModule where
  imports : List Import
  startup : Startup

structure GuestRuntime where
  decode : Bytes → Except String TransformModule
  importText : Import → String
  trapText : TrapCode → String
  interruptText : String
  mistypedText : String

def hostFunctions : List String := ["log_message", "read_row", "write_row"]

def Import.linked (i : Import) : Bool :=
  i.moduleName == "host" && hostFunctions.contains i.name && i.typed

/-- Without a start section there is no guest code to interrupt. -/
def Startup.run {State : Type} (host : Host State HostCall Bytes) (interruptAt : Option ℕ)
    (s : State) : Startup → GuestRun State TrapCode RunExport
  | .direct runExport => ⟨.finished runExport, s, 0⟩
  | .startSection program => host.run interruptAt program 0 s

/-- The first bytes of a value, up to the size of the guest's buffer. -/
def copyOut (value : Bytes) (outMax room : ℕ) : Bytes :=
  if min value.length outMax ≤ room then value.take outMax else []

/-- What the environment decides during a run: whether the engine can be built, when an epoch
interrupt arrives, which calls find the mutex poisoned, and which statements fail. -/
structure SandboxEnvironment where
  engineFault : Option String
  interruptAt : Option ℕ
  poisoned : ℕ → Bool
  writeFault : ℕ → Option StoreFault

variable (lib : CoreLibraries)

/-- `read_row`: a row is handed out as the JSON text of its value. -/
def nativeReadRow (env : SandboxEnvironment) (n : ℕ) (s : LocalStore) (table key : String)
    (outMax room : ℕ) : Bytes :=
  if env.poisoned n then []
  else
    match s.read lib.store table key with
    | .ok (some value) => copyOut (utf8Bytes (lib.json.toString value)) outMax room
    | _ => []

/-- The statement of a `write_row`: bytes that are not JSON are ignored. -/
def statement (env : SandboxEnvironment) (n : ℕ) : HostCall → Option (String × String × JsonValue)
  | .writeRow (some table) (some key) (some value) =>
    match lib.parseJson value with
    | some data => if env.poisoned n then none else some (table, key, data)
    | none => none
  | _ => none

/-- `write_row` on the live store; the outcome of the statement is not looked at. -/
def nativeWriteRow (env : SandboxEnvironment) (n : ℕ) (s : LocalStore) (c : HostCall) :
    LocalStore :=
  match statement lib env n c with
  | some (table, key, data) => (s.write lib.store (env.writeFault n) table key data).2
  | none => s

def nativeHost (env : SandboxEnvironment) : Host LocalStore HostCall Bytes where
  answer n s
    | .logMessage => ([], s)
    | .readRow (some table) (some key) outMax room =>
      (nativeReadRow lib env n s table key outMax room, s)
    | .readRow _ _ _ _ => ([], s)
    | .writeRow table key value => ([], nativeWriteRow lib env n s (.writeRow table key value))

variable (runtime : GuestRuntime)

/-- `execute_native`. -/
def executeNative (env : SandboxEnvironment) (transform : Bytes) (timeoutSecs : ℕ)
    (s : LocalStore) : Except TirBaseError MigrationResult × LocalStore :=
  match env.engineFault with
  | some e => (.error (.deltaMalformed s!"wasmtime Engine::new failed: {e}"), s)
  | none =>
    match runtime.decode transform with
    | .error e => (.ok (.aborted s!"invalid WASM module: {e}"), s)
    | .ok module =>
      match module.imports.find? fun i => !i.linked with
      | some i =>
        let text := runtime.importText i
        (.ok (.aborted s!"instantiation failed: {text}"), s)
      | none =>
        let started := module.startup.run (nativeHost lib env) env.interruptAt s
        match started.ending with
        | .interrupted =>
          (.ok (.aborted s!"instantiation failed: {runtime.interruptText}"), started.state)
        | .trapped trap =>
          let text := runtime.trapText trap
          (.ok (.aborted s!"instantiation failed: {text}"), started.state)
        | .finished .absent => (.ok .success, started.state)
        | .finished .mistyped =>
          (.ok (.aborted s!"trap during migration: {runtime.mistypedText}"), started.state)
        | .finished (.typed program) =>
          let ran := (nativeHost lib env).run env.interruptAt program started.calls started.state
          match ran.ending with
          | .finished _ => (.ok .success, ran.state)
          | .interrupted => (.ok (.timedOut timeoutSecs), ran.state)
          | .trapped trap =>
            let text := runtime.trapText trap
            (.ok (.aborted s!"trap during migration: {text}"), ran.state)

/-- `InMemoryStoreHandle`: the value bytes of each table by their key. -/
structure InMemoryStoreHandle where
  tables : AList fun _ : String => AList fun _ : String => Bytes

namespace InMemoryStoreHandle

def new : InMemoryStoreHandle := ⟨∅⟩

def read (h : InMemoryStoreHandle) (table key : String) : Option Bytes :=
  (h.tables.lookup table).bind fun t => t.lookup key

def write (h : InMemoryStoreHandle) (table key : String) (value : Bytes) : InMemoryStoreHandle :=
  ⟨h.tables.insert table (((h.tables.lookup table).getD ∅).insert key value)⟩

end InMemoryStoreHandle

/-- The host of the WASM build: bytes go in and come out as they are. -/
def wasmHost : Host InMemoryStoreHandle HostCall Bytes where
  answer _ h
    | .logMessage => ([], h)
    | .readRow (some table) (some key) outMax room =>
      match h.read table key with
      | some value => (copyOut value outMax room, h)
      | none => ([], h)
    | .readRow _ _ _ _ => ([], h)
    | .writeRow (some table) (some key) (some value) => ([], h.write table key value)
    | .writeRow _ _ _ => ([], h)

def defaultFuel : ℕ := 1000000

/-- `execute_migration_wasm`; the number of calls at which the fuel is out is left to the run. -/
def executeMigrationWasm (fuelOutAt : Option ℕ) (transform : Bytes) (timeoutTicks : ℕ)
    (h : InMemoryStoreHandle) : Except TirBaseError MigrationResult × InMemoryStoreHandle :=
  let fuel := if timeoutTicks = 0 then defaultFuel else timeoutTicks
  match runtime.decode transform with
  | .error e => (.ok (.aborted s!"invalid WASM module: {e}"), h)
  | .ok module =>
    match module.imports.find? fun i => i.moduleName ≠ "host" with
    | some i =>
      (.error (.migrationCaSignatureInvalid s!"forbidden import: {i.moduleName}::{i.name}"), h)
    | none =>
      match module.imports.find? fun i => !i.linked with
      | some i =>
        let text := runtime.importText i
        (.ok (.aborted s!"instantiation failed: {text}"), h)
      | none =>
        let started := module.startup.run wasmHost fuelOutAt h
        match started.ending with
        | .interrupted =>
          (.ok (.aborted s!"instantiation failed: {runtime.interruptText}"), started.state)
        | .trapped trap =>
          let text := runtime.trapText trap
          (.ok (.aborted s!"instantiation failed: {text}"), started.state)
        | .finished .absent => (.ok .success, started.state)
        | .finished .mistyped =>
          (.ok (.aborted s!"run export type mismatch: {runtime.mistypedText}"), started.state)
        | .finished (.typed program) =>
          let ran := wasmHost.run fuelOutAt program started.calls started.state
          match ran.ending with
          | .finished _ => (.ok .success, ran.state)
          | .interrupted => (.ok (.timedOut (fuel / 33333)), ran.state)
          | .trapped trap =>
            let text := runtime.trapText trap
            (.ok (.aborted s!"trap during migration: {text}"), ran.state)

/-- `execute_migration` of the WASM build: a fresh store that is dropped afterwards. -/
def executeMigration (fuelOutAt : Option ℕ) (transform : Bytes) (timeoutSecs : ℕ) :
    Except TirBaseError MigrationResult :=
  let ticks := if timeoutSecs = 0 then 0 else min timeoutSecs ((2 ^ 32 - 1) / 33333) * 33333
  (executeMigrationWasm runtime fuelOutAt transform ticks .new).1

/-- A timeout is an error of the call. -/
def migrationOutcome (migrationId : MigrationId) :
    Except TirBaseError MigrationResult → Except TirBaseError MigrationResult
  | .ok (.timedOut _) => .error (.migrationTransformTimeout migrationId.toHex)
  | result => result

def receiveMigrationDeltaNative (env : SandboxEnvironment) (m : SchemaMigrationEngine)
    (s : LocalStore) (δ : MigrationDelta) (senderDid : Did) :
    Except TirBaseError MigrationResult × SchemaMigrationEngine × LocalStore :=
  match m.prepareMigration lib.toMigrationLibraries δ senderDid with
  | (.error e, m) => (.error e, m, s)
  | (.ok prepared, m) =>
    let ran := executeNative lib runtime env prepared.transformBytes prepared.timeoutSecs s
    let out := m.finishMigration prepared.migrationId prepared.targetSchemaHash ran.1
    (migrationOutcome prepared.migrationId out.1, out.2, ran.2)

def receiveMigrationDeltaWasm (fuelOutAt : Option ℕ) (m : SchemaMigrationEngine)
    (s : LocalStore) (δ : MigrationDelta) (senderDid : Did) :
    Except TirBaseError MigrationResult × SchemaMigrationEngine × LocalStore :=
  match m.prepareMigration lib.toMigrationLibraries δ senderDid with
  | (.error e, m) => (.error e, m, s)
  | (.ok prepared, m) =>
    let ran := executeMigration runtime fuelOutAt prepared.transformBytes prepared.timeoutSecs
    let out := m.finishMigration prepared.migrationId prepared.targetSchemaHash ran
    (migrationOutcome prepared.migrationId out.1, out.2, s)

end TirBase.MigrationSandbox
