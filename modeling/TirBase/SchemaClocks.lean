import TirBase.MigrationJobs

/-! # The two schema clocks

A job commits under the migration lock and copies the current hash into the CRDT engine later, so
another job can commit, and even copy, in between. -/
namespace TirBase.SchemaClocks
open CoreHandle DeviceRuns TransitionRuns MigrationJobs

/-- The engines agree when no job is active, and `set_current_schema` was never called with an
older version after a newer one. -/
structure ClocksAgree (first : SchemaIdentifierHash) (s : JobDevice) : Prop where
  quiescent : s.Quiescent → s.handle.crdt.knownSchemaHash = s.handle.migration.localSchemaHash
  versions : ∀ call ∈ s.calls, (s.versions first)[call.1]? = some call.2
  ordered : s.calls.Pairwise fun call later => call.1 ≤ later.1
  pathOrder : s.handle.migration.versionPath.Nodup →
    s.calls.Pairwise fun call later => s.handle.migration.versionPath.idxOf call.2 ≤
      s.handle.migration.versionPath.idxOf later.2

/-- A job copies only while no job that read after a later commit has copied. -/
def CopiesInOrder (s : JobDevice) : JobOperation → Prop
  | .copy index _ => ∀ commit source current version,
      s.jobs[index]? = some (.holding commit source current version) →
        ∀ call ∈ s.calls, call.1 ≤ version
  | _ => True

def Follows (path : List SchemaIdentifierHash) (a b : SchemaIdentifierHash) : Prop :=
  SchemaMigrationEngine.nextVersion path a = some b

theorem Follows.idxOf {path : List SchemaIdentifierHash} {a b : SchemaIdentifierHash}
    (h : Follows path a b) (hpath : path.Nodup) : path.idxOf b = path.idxOf a + 1 := by
  unfold Follows SchemaMigrationEngine.nextVersion at h
  obtain ⟨i, hi, hnext⟩ := Option.bind_eq_some_iff.mp h
  have ha : path.idxOf a = i := by
    rw [List.idxOf_eq_getD_idxOf?, hi]
    rfl
  obtain ⟨hlt, hget⟩ := List.getElem?_eq_some_iff.mp hnext
  rw [ha, ← hget]
  exact hpath.idxOf_getElem (i + 1) hlt

theorem idxOf_of_isChain {path versions : List SchemaIdentifierHash}
    {first : SchemaIdentifierHash} (hchain : (first :: versions).IsChain (Follows path))
    (hpath : path.Nodup) {v : ℕ} {x : SchemaIdentifierHash}
    (hx : (first :: versions)[v]? = some x) : path.idxOf x = path.idxOf first + v := by
  induction v generalizing x with
  | zero =>
    cases hx
    rfl
  | succ v ih =>
    obtain ⟨hlt, hget⟩ := List.getElem?_eq_some_iff.mp hx
    have hbefore : (first :: versions)[v]? = some (first :: versions)[v] :=
      List.getElem?_eq_getElem (by omega)
    have hfollows := List.isChain_iff_getElem.mp hchain v hlt
    rw [hget] at hfollows
    rw [hfollows.idxOf hpath, ih hbefore]
    omega

/-- The commits walk along the path and at most one transform runs. -/
structure OnPath (first : SchemaIdentifierHash) (path : List SchemaIdentifierHash)
    (s : JobDevice) : Prop where
  versionPath : s.handle.migration.versionPath = path
  current : (s.versions first)[s.commits.length]? = some s.handle.migration.localSchemaHash
  chain : (s.versions first).IsChain (Follows path)
  next : ∀ (k : ℕ) (prepared : PreparedMigration), s.jobs[k]? = some (.running prepared) →
    Follows path s.handle.migration.localSchemaHash prepared.targetSchemaHash
  busy : ∀ (k : ℕ) (prepared : PreparedMigration), s.jobs[k]? = some (.running prepared) →
    s.handle.migration.revocationRegistry.inProgress ≠ []
  single : ∀ (k k' : ℕ) (prepared prepared' : PreparedMigration),
    s.jobs[k]? = some (.running prepared) → s.jobs[k']? = some (.running prepared') → k = k'

theorem versions_of_commits (first : SchemaIdentifierHash) {s s' : JobDevice}
    (h : s'.commits = s.commits) : s'.versions first = s.versions first := by
  simp only [JobDevice.versions, h]

theorem versions_commit (first : SchemaIdentifierHash) {s s' : JobDevice} {commit : Commit}
    (h : s'.commits = s.commits ++ [commit]) :
    s'.versions first = s.versions first ++ [commit.target] := by
  simp only [JobDevice.versions, h, List.map_append, List.map_cons, List.map_nil,
    List.cons_append]

theorem length_versions (first : SchemaIdentifierHash) (s : JobDevice) :
    (s.versions first).length = s.commits.length + 1 := by
  simp [JobDevice.versions]

section OnPath
variable {first : SchemaIdentifierHash} {path : List SchemaIdentifierHash} {s s' : JobDevice}

/-- A step that starts and ends no transform keeps the device on the path. -/
theorem OnPath.of_same (h : OnPath first path s)
    (hpath : s'.handle.migration.versionPath = s.handle.migration.versionPath)
    (hlocal : s'.handle.migration.localSchemaHash = s.handle.migration.localSchemaHash)
    (hprogress : s'.handle.migration.revocationRegistry.inProgress =
      s.handle.migration.revocationRegistry.inProgress)
    (hcommits : s'.commits = s.commits)
    (hrunning : ∀ (k : ℕ) (prepared : PreparedMigration), s'.jobs[k]? = some (.running prepared) →
      s.jobs[k]? = some (.running prepared)) : OnPath first path s' where
  versionPath := hpath.trans h.versionPath
  current := by
    rw [versions_of_commits first hcommits, hcommits, hlocal]
    exact h.current
  chain := by
    rw [versions_of_commits first hcommits]
    exact h.chain
  next k prepared hk := by
    rw [hlocal]
    exact h.next k prepared (hrunning k prepared hk)
  busy k prepared hk := by
    rw [hprogress]
    exact h.busy k prepared (hrunning k prepared hk)
  single k k' prepared prepared' hk hk' :=
    h.single k k' prepared prepared' (hrunning k prepared hk) (hrunning k' prepared' hk')

theorem OnPath.idle (h : OnPath first path s) {index : ℕ} {prepared : PreparedMigration}
    (hjob : s.jobs[index]? = some (.running prepared)) {new : Job}
    (hnew : ∀ prepared, new ≠ .running prepared) (k : ℕ) (running : PreparedMigration) :
    (s.jobs.set index new)[k]? ≠ some (.running running) := by
  intro hk
  rcases job_of_set hk with ⟨-, hsame⟩ | ⟨hother, hk⟩
  · exact hnew running hsame.symm
  · exact hother (h.single k index running prepared hk hjob)

variable {lib : CoreLibraries} {op : JobOperation}

theorem OnPath.effect (h : OnPath first path s) (heffect : Effect lib s op s') :
    OnPath first path s' := by
  cases heffect with
  | other frame jobs commits calls since =>
    refine h.of_same frame.versionPath frame.localSchemaHash frame.inProgress commits ?_
    intro k prepared hk
    obtain ⟨new, hjobs, hnew⟩ := jobs
    rw [hjobs] at hk
    rcases job_of_append hnew hk with hk | ⟨δ, senderDid, hwaiting⟩
    · exact hk
    · cases hwaiting
  | stored index δ reason now operation refused migration crdt jobs commits calls since =>
    have hframe : s'.handle.migration.versionPath = s.handle.migration.versionPath ∧
        s'.handle.migration.localSchemaHash = s.handle.migration.localSchemaHash ∧
        s'.handle.migration.revocationRegistry.inProgress =
          s.handle.migration.revocationRegistry.inProgress := by
      rw [migration]
      unfold SchemaMigrationEngine.quarantineIncoming
      dsimp only
      split_ifs <;> exact ⟨rfl, rfl, rfl⟩
    refine h.of_same hframe.1 hframe.2.1 hframe.2.2 commits ?_
    intro k prepared hk
    rwa [jobs] at hk
  | dropped index δ senderDid job frame jobs commits calls since =>
    refine h.of_same frame.versionPath frame.localSchemaHash frame.inProgress commits ?_
    intro k prepared hk
    rw [jobs] at hk
    rcases job_of_set hk with ⟨-, hended⟩ | ⟨-, hk⟩
    · cases hended
    · exact hk
  | started index δ senderDid prepared job idle next busy schema crdt jobs commits calls since =>
    have hrunning : ∀ k running, s'.jobs[k]? = some (.running running) →
        k = index ∧ running = prepared := by
      intro k running hk
      rw [jobs] at hk
      rcases job_of_set hk with ⟨hindex, hsame⟩ | ⟨-, hk⟩
      · cases hsame
        exact ⟨hindex, rfl⟩
      · exact absurd idle (h.busy k running hk)
    have hversions := versions_of_commits first commits
    constructor
    · exact schema.versionPath.trans h.versionPath
    · rw [hversions, commits, schema.localSchemaHash]
      exact h.current
    · rw [hversions]
      exact h.chain
    · intro k running hk
      obtain ⟨-, rfl⟩ := hrunning k running hk
      rw [schema.localSchemaHash, ← h.versionPath]
      exact next
    · intro k running hk
      rw [busy]
      exact List.cons_ne_nil _ _
    · intro k k' running running' hk hk'
      rw [(hrunning k running hk).1, (hrunning k' running' hk').1]
  | aborted index prepared job schema crdt jobs commits calls since =>
    have hidle : ∀ (k : ℕ) (running : PreparedMigration), s'.jobs[k]? ≠ some (.running running) := by
      rw [jobs]
      exact h.idle job (fun running hrunning => by cases hrunning)
    have hversions := versions_of_commits first commits
    constructor
    · exact schema.versionPath.trans h.versionPath
    · rw [hversions, commits, schema.localSchemaHash]
      exact h.current
    · rw [hversions]
      exact h.chain
    · exact fun k running hk => absurd hk (hidle k running)
    · exact fun k running hk => absurd hk (hidle k running)
    · exact fun k k' running _ hk _ => absurd hk (hidle k running)
  | committed index prepared outcome operation succeeded job advanced versionPath ledger crdt jobs
      commits calls since =>
    have hidle : ∀ (k : ℕ) (running : PreparedMigration), s'.jobs[k]? ≠ some (.running running) := by
      rw [jobs]
      exact h.idle job (fun running hrunning => by cases hrunning)
    have hversions := versions_commit first commits
    have hlast : (s.versions first).getLast? = some s.handle.migration.localSchemaHash := by
      rw [List.getLast?_eq_getElem?, length_versions]
      exact h.current
    constructor
    · exact versionPath.trans h.versionPath
    · rw [hversions, commits, advanced, List.length_append, List.length_singleton,
        List.getElem?_append_right (by rw [length_versions]), length_versions, Nat.sub_self]
      rfl
    · rw [hversions]
      refine h.chain.append (List.isChain_singleton _) ?_
      intro a ha b hb
      rw [hlast] at ha
      cases ha
      cases hb
      exact h.next index prepared job
    · exact fun k running hk => absurd hk (hidle k running)
    · exact fun k running hk => absurd hk (hidle k running)
    · exact fun k k' running _ hk _ => absurd hk (hidle k running)
  | read index commit source job handle jobs commits calls since =>
    refine h.of_same (by rw [handle]) (by rw [handle]) (by rw [handle]) commits ?_
    intro k prepared hk
    rw [jobs] at hk
    rcases job_of_set hk with ⟨-, hholding⟩ | ⟨-, hk⟩
    · cases hholding
    · exact hk
  | copied index commit source current version env operation job schema progress knownSchemaHash
      dag jobs commits calls since =>
    refine h.of_same schema.versionPath schema.localSchemaHash (by rw [progress]) commits ?_
    intro k prepared hk
    rw [jobs] at hk
    rcases job_of_set hk with ⟨-, hended⟩ | ⟨-, hk⟩
    · cases hended
    · exact hk

end OnPath

def copiedVersion (s : JobDevice) : ℕ := (s.calls.getLast?.map Prod.fst).getD 0

/-- A job that will still tell the version after so many commits. -/
def Carries (version : ℕ) (job : Job) : Prop :=
  (∃ commit source, job = .committed commit source) ∨
    ∃ commit source current, job = .holding commit source current version

/-- Held hashes are versions of the device, and the newest version is the CRDT engine's or on its
way to it. -/
structure Tracks (first : SchemaIdentifierHash) (s : JobDevice) : Prop where
  engine : (s.versions first)[copiedVersion s]? = some s.handle.crdt.knownSchemaHash
  held : ∀ (k : ℕ) (commit : Commit) (source current : SchemaIdentifierHash) (version : ℕ),
    s.jobs[k]? = some (.holding commit source current version) →
      (s.versions first)[version]? = some current
  told : ∀ call ∈ s.calls, (s.versions first)[call.1]? = some call.2
  ordered : s.calls.Pairwise fun call later => call.1 ≤ later.1
  pending : copiedVersion s = s.commits.length ∨
    ∃ (k : ℕ) (job : Job), s.jobs[k]? = some job ∧ Carries s.commits.length job

section Tracks
variable {first : SchemaIdentifierHash} {path : List SchemaIdentifierHash} {s s' : JobDevice}

theorem copiedVersion_of_calls (h : s'.calls = s.calls) : copiedVersion s' = copiedVersion s := by
  unfold copiedVersion
  rw [h]

/-- A step that commits, reads and copies nothing keeps track. -/
theorem Tracks.of_same (h : Tracks first s)
    (hknown : s'.handle.crdt.knownSchemaHash = s.handle.crdt.knownSchemaHash)
    (hcommits : s'.commits = s.commits) (hcalls : s'.calls = s.calls)
    (hholding : ∀ (k : ℕ) (commit : Commit) (source current : SchemaIdentifierHash) (version : ℕ),
      s'.jobs[k]? = some (.holding commit source current version) →
        s.jobs[k]? = some (.holding commit source current version))
    (hcarries : ∀ (k : ℕ) (job : Job), s.jobs[k]? = some job → Carries s.commits.length job →
      s'.jobs[k]? = some job) : Tracks first s' where
  engine := by
    rw [versions_of_commits first hcommits, copiedVersion_of_calls hcalls, hknown]
    exact h.engine
  held k commit source current version hk := by
    rw [versions_of_commits first hcommits]
    exact h.held k commit source current version (hholding k commit source current version hk)
  told := by
    rw [versions_of_commits first hcommits, hcalls]
    exact h.told
  ordered := by
    rw [hcalls]
    exact h.ordered
  pending := by
    rw [copiedVersion_of_calls hcalls, hcommits]
    rcases h.pending with hdone | ⟨k, job, hk, hjob⟩
    · exact .inl hdone
    · exact .inr ⟨k, job, hcarries k job hk hjob, hjob⟩

/-- A job that carries nothing is replaced by one that carries nothing. -/
theorem Tracks.of_set (h : Tracks first s) {index : ℕ} {job new : Job}
    (hjob : s.jobs[index]? = some job) (hidle : ¬Carries s.commits.length job)
    (hnew : ∀ commit source current version, new ≠ .holding commit source current version)
    (hknown : s'.handle.crdt.knownSchemaHash = s.handle.crdt.knownSchemaHash)
    (hjobs : s'.jobs = s.jobs.set index new)
    (hcommits : s'.commits = s.commits) (hcalls : s'.calls = s.calls) : Tracks first s' := by
  refine h.of_same hknown hcommits hcalls ?_ ?_
  · intro k commit source current version hk
    rw [hjobs] at hk
    rcases job_of_set hk with ⟨-, hsame⟩ | ⟨-, hk⟩
    · exact absurd hsame.symm (hnew commit source current version)
    · exact hk
  · intro k carrier hk hcarries
    have hne : index ≠ k := by
      rintro rfl
      rw [hjob] at hk
      cases hk
      exact hidle hcarries
    rw [hjobs, List.getElem?_set_ne hne, hk]

theorem lt_of_version {v : ℕ} {x : SchemaIdentifierHash}
    (h : (s.versions first)[v]? = some x) : v ≤ s.commits.length := by
  have hlt := (List.getElem?_eq_some_iff.mp h).1
  rw [length_versions] at hlt
  omega

variable {lib : CoreLibraries} {op : JobOperation}

theorem Tracks.effect (h : Tracks first s) (hpath : OnPath first path s)
    (hguard : CopiesInOrder s op) (heffect : Effect lib s op s') : Tracks first s' := by
  cases heffect with
  | other frame jobs commits calls since =>
    obtain ⟨new, hjobs, hnew⟩ := jobs
    refine h.of_same frame.knownSchemaHash commits calls ?_ ?_
    · intro k commit source current version hk
      rw [hjobs] at hk
      rcases job_of_append hnew hk with hk | ⟨δ, senderDid, hwaiting⟩
      · exact hk
      · cases hwaiting
    · intro k job hk hcarries
      rw [hjobs]
      exact getElem?_append_of_some hk
  | stored index δ reason now operation refused migration crdt jobs commits calls since =>
    refine h.of_same (by rw [crdt]) commits calls ?_ ?_
    · intro k commit source current version hk
      rwa [jobs] at hk
    · intro k job hk hcarries
      rwa [jobs]
  | dropped index δ senderDid job frame jobs commits calls since =>
    refine h.of_set job ?_ ?_ frame.knownSchemaHash jobs commits calls
    · rintro (⟨commit, source, hjob⟩ | ⟨commit, source, current, hjob⟩) <;> cases hjob
    · intro commit source current version hnew
      cases hnew
  | started index δ senderDid prepared job idle next busy schema crdt jobs commits calls since =>
    refine h.of_set job ?_ ?_ (by rw [crdt]) jobs commits calls
    · rintro (⟨commit, source, hjob⟩ | ⟨commit, source, current, hjob⟩) <;> cases hjob
    · intro commit source current version hnew
      cases hnew
  | aborted index prepared job schema crdt jobs commits calls since =>
    refine h.of_set job ?_ ?_ (by rw [crdt]) jobs commits calls
    · rintro (⟨commit, source, hjob⟩ | ⟨commit, source, current, hjob⟩) <;> cases hjob
    · intro commit source current version hnew
      cases hnew
  | committed index prepared outcome operation succeeded job advanced versionPath ledger crdt jobs
      commits calls since =>
    have hkept : ∀ {v : ℕ} {x : SchemaIdentifierHash}, (s.versions first)[v]? = some x →
        (s'.versions first)[v]? = some x := by
      intro v x hx
      rw [versions_commit first commits, List.getElem?_append_left (List.getElem?_eq_some_iff.mp hx).1,
        hx]
    constructor
    · rw [copiedVersion_of_calls calls, crdt]
      exact hkept h.engine
    · intro k commit source current version hk
      rw [jobs] at hk
      rcases job_of_set hk with ⟨-, hsame⟩ | ⟨-, hk⟩
      · cases hsame
      · exact hkept (h.held k commit source current version hk)
    · intro call hcall
      rw [calls] at hcall
      exact hkept (h.told call hcall)
    · rw [calls]
      exact h.ordered
    · refine .inr ⟨index, .committed ⟨prepared.migrationId, prepared.targetSchemaHash⟩
        s.handle.migration.localSchemaHash, ?_, .inl ⟨_, _, rfl⟩⟩
      rw [jobs]
      exact getElem?_set_of_some job
  | read index commit source job handle jobs commits calls since =>
    have hversions := versions_of_commits first commits
    constructor
    · rw [hversions, copiedVersion_of_calls calls, handle]
      exact h.engine
    · intro k commit source current version hk
      rw [hversions]
      rw [jobs] at hk
      rcases job_of_set hk with ⟨-, hsame⟩ | ⟨-, hk⟩
      · cases hsame
        exact hpath.current
      · exact h.held k commit source current version hk
    · rw [hversions, calls]
      exact h.told
    · rw [calls]
      exact h.ordered
    · refine .inr ⟨index, _, ?_, .inr ⟨commit, source, s.handle.migration.localSchemaHash, rfl⟩⟩
      rw [jobs, commits]
      exact getElem?_set_of_some job
  | copied index commit source current version env operation job schema progress knownSchemaHash
      dag jobs commits calls since =>
    subst operation
    have hafter : ∀ call ∈ s.calls, call.1 ≤ version := hguard commit source current version job
    have hversion := h.held index commit source current version job
    have hcopied : copiedVersion s' = version := by
      simp [copiedVersion, calls]
    have hversions := versions_of_commits first commits
    constructor
    · rw [hversions, hcopied, knownSchemaHash]
      exact hversion
    · intro k commit source current version hk
      rw [hversions]
      rw [jobs] at hk
      rcases job_of_set hk with ⟨-, hsame⟩ | ⟨-, hk⟩
      · cases hsame
      · exact h.held k commit source current version hk
    · intro call hcall
      rw [hversions]
      rw [calls] at hcall
      rcases List.mem_append.mp hcall with hcall | hcall
      · exact h.told call hcall
      · rw [List.mem_singleton.mp hcall]
        exact hversion
    · rw [calls]
      refine List.pairwise_append.mpr ⟨h.ordered, List.pairwise_singleton _ _, ?_⟩
      intro call hcall later hlater
      rw [List.mem_singleton.mp hlater]
      exact hafter call hcall
    · rw [hcopied, commits]
      have hle : version ≤ s.commits.length := lt_of_version hversion
      rcases h.pending with hdone | ⟨k, carrier, hk, hcarries⟩
      · refine .inl (le_antisymm hle ?_)
        rw [← hdone]
        unfold copiedVersion
        cases hlast : s.calls.getLast? with
        | none => exact Nat.zero_le version
        | some last => exact hafter last (List.mem_of_getLast? hlast)
      · by_cases hindex : k = index
        · subst hindex
          rw [job] at hk
          cases hk
          rcases hcarries with ⟨commit', source', hjob⟩ | ⟨commit', source', current', hjob⟩
          · cases hjob
          · cases hjob
            exact .inl rfl
        · refine .inr ⟨k, carrier, ?_, hcarries⟩
          rw [jobs, List.getElem?_set_ne (Ne.symm hindex), hk]

theorem Tracks.clocksAgree (h : Tracks first s) (hpath : OnPath first path s) :
    ClocksAgree first s where
  quiescent hquiescent := by
    have hdone : copiedVersion s = s.commits.length := by
      rcases h.pending with hdone | ⟨k, job, hk, hcarries⟩
      · exact hdone
      · obtain ⟨ended, rfl⟩ := hquiescent job (List.mem_of_getElem? hk)
        rcases hcarries with ⟨commit, source, hjob⟩ | ⟨commit, source, current, hjob⟩ <;> cases hjob
    have hengine := h.engine
    rw [hdone, hpath.current] at hengine
    exact (Option.some.inj hengine).symm
  versions := h.told
  ordered := h.ordered
  pathOrder hnodup := by
    rw [hpath.versionPath] at hnodup ⊢
    have hindex : ∀ call ∈ s.calls, path.idxOf call.2 = path.idxOf first + call.1 :=
      fun call hcall => idxOf_of_isChain hpath.chain hnodup (h.told call hcall)
    refine h.ordered.imp_of_mem ?_
    intro call later hcall hlater hle
    rw [hindex call hcall, hindex later hlater]
    omega

end Tracks

variable {lib : CoreLibraries} {config : DeploymentConfig} {identity : Identity}
  {storage : Storage} {started : Bool} {h : CoreHandle}

/-- A configuration that is accepted starts both engines on one schema. -/
theorem startSchemaHash_eq (hinit : init lib config identity storage started = .ok h) :
    startSchemaHash lib config = migrationLocalSchemaHash lib config := by
  obtain ⟨e, hschemas⟩ : ∃ e, initSchemas lib config (CrdtEngine.new identity.secretKey
      identity.publicKey identity.did (initialSchemaHash lib config) storage.dag) = .ok e := by
    unfold init at hinit
    simp only at hinit
    split at hinit
    · cases hinit
    · rename_i e hschemas
      exact ⟨e, hschemas⟩
  unfold initSchemas at hschemas
  unfold startSchemaHash migrationLocalSchemaHash
  cases hpath : config.schemaVersionPath with
  | nil =>
    rw [hpath] at hschemas
    by_cases hdefinitions : config.schemaDefinitions = []
    · simp [initialSchemaHash, hdefinitions]
    · simp [hdefinitions] at hschemas
  | cons current rest =>
    rw [hpath] at hschemas
    cases hdefinitions : config.schemaDefinitions with
    | nil => simp
    | cons definition definitions =>
      rw [hdefinitions] at hschemas
      simp only [List.zip_cons_cons, registerDefinitions, CrdtEngine.registerSchemaDefinition]
        at hschemas
      by_cases hhash : definition.identifierHash lib.toIdentityLibraries = current
      · simp [initialSchemaHash, hdefinitions, hhash]
      · split_ifs at hschemas

theorem initial_onPath (hinit : init lib config identity storage started = .ok h) :
    OnPath (migrationLocalSchemaHash lib config) h.migration.versionPath (.start h) where
  versionPath := rfl
  current := by
    have hlocal := (started_of_init hinit).schema
    simp [JobDevice.versions, JobDevice.start, hlocal]
  chain := List.isChain_singleton _
  next k prepared hk := by simp [JobDevice.start] at hk
  busy k prepared hk := by simp [JobDevice.start] at hk
  single k k' prepared prepared' hk := by simp [JobDevice.start] at hk

theorem initial_tracks (hinit : init lib config identity storage started = .ok h) :
    Tracks (migrationLocalSchemaHash lib config) (.start h) where
  engine := by
    have hknown : h.crdt.knownSchemaHash = migrationLocalSchemaHash lib config := by
      rw [(started_of_init hinit).engine.knownSchemaHash, startSchemaHash_eq hinit]
    simp [JobDevice.versions, JobDevice.start, copiedVersion, hknown]
  held k commit source current version hk := by simp [JobDevice.start] at hk
  told call hcall := absurd hcall List.not_mem_nil
  ordered := List.Pairwise.nil
  pending := .inl rfl

theorem copiesInOrder_of_ordered {s : JobDevice} {op : JobOperation}
    (hordered : (s.step lib op).calls.Pairwise fun call later => call.1 ≤ later.1) :
    CopiesInOrder s op := by
  cases op with
  | copy index env =>
    intro commit source current version hjob call hcall
    have hcalls : (s.step lib (.copy index env)).calls = s.calls ++ [(version, current)] := by
      simp only [JobDevice.step, JobDevice.copy, hjob]
    rw [hcalls] at hordered
    exact (List.pairwise_append.mp hordered).2.2 call hcall _ (List.mem_singleton_self _)
  | _ => trivial

theorem clocksAgree_iff_copiesInOrder
    (hinit : init lib config identity storage started = .ok h) (ops : List JobOperation) :
    (∀ earlier later, ops = earlier ++ later →
      ClocksAgree (migrationLocalSchemaHash lib config)
        (run (JobDevice.step lib) (.start h) earlier)) ↔
      Guarded (JobDevice.step lib) CopiesInOrder (.start h) ops := by
  constructor
  · intro hagree
    refine guarded_iff_splits.mpr fun earlier op rest hops => ?_
    have hnext := (hagree (earlier ++ [op]) rest (by rw [hops, List.append_assoc]; rfl)).ordered
    rw [run_append, run_cons, run_nil] at hnext
    exact copiesInOrder_of_ordered hnext
  · intro hguard earlier later hops
    rw [hops, guarded_append] at hguard
    have hstep : ∀ s op, CopiesInOrder s op →
        (OnPath (migrationLocalSchemaHash lib config) h.migration.versionPath s ∧
          Tracks (migrationLocalSchemaHash lib config) s) →
        OnPath (migrationLocalSchemaHash lib config) h.migration.versionPath (s.step lib op) ∧
          Tracks (migrationLocalSchemaHash lib config) (s.step lib op) := by
      rintro s op hop ⟨hpath, htracks⟩
      exact ⟨hpath.effect (effect_step s op), htracks.effect hpath hop (effect_step s op)⟩
    have hboth := guarded_run hstep hguard.1 ⟨initial_onPath hinit, initial_tracks hinit⟩
    exact hboth.2.clocksAgree hboth.1

/-- The first job reads its hash, the second one migrates further and copies, then the first one
copies. -/
def overtaken : List JobOperation :=
  [.message (sampleMigration 21 10 11) calmInbound, .message (sampleMigration 22 11 12) calmInbound,
    .prepare 0, .finish 0 (.ok .success), .read 0,
    .prepare 1, .finish 1 (.ok .success), .read 1, .copy 1 sampleReplay, .copy 0 sampleReplay]

theorem overtaken_leaves_older_schema :
    let after := run (JobDevice.step (sampleCoreLibraries [])) (.start samplePathHandle) overtaken
    after.jobs = [.ended (some ⟨21, 11⟩), .ended (some ⟨22, 12⟩)] ∧
      after.handle.migration.localSchemaHash = 12 ∧ after.handle.crdt.knownSchemaHash = 11 ∧
      after.calls = [(2, 12), (1, 11)] ∧ ¬ClocksAgree 10 after := by
  intro after
  have hknown : after.handle.crdt.knownSchemaHash = 11 := by decide +kernel
  have hlocal : after.handle.migration.localSchemaHash = 12 := by decide +kernel
  have hjobs : after.jobs = [.ended (some ⟨21, 11⟩), .ended (some ⟨22, 12⟩)] := by decide +kernel
  refine ⟨hjobs, hlocal, hknown, by decide +kernel, fun hagree => ?_⟩
  have hquiescent : after.Quiescent := by
    intro job hjob
    rw [hjobs] at hjob
    rcases List.mem_cons.mp hjob with rfl | hjob
    · exact ⟨_, rfl⟩
    · exact ⟨_, List.mem_singleton.mp hjob⟩
  have hsame := hagree.quiescent hquiescent
  rw [hknown, hlocal] at hsame
  revert hsame
  decide

theorem clocksAgree_iff_copiesInOrder_sample :
    (∀ earlier later, overtaken = earlier ++ later →
      ClocksAgree (migrationLocalSchemaHash (sampleCoreLibraries []) samplePath)
        (run (JobDevice.step (sampleCoreLibraries [])) (.start samplePathHandle) earlier)) ↔
      Guarded (JobDevice.step (sampleCoreLibraries [])) CopiesInOrder (.start samplePathHandle)
        overtaken :=
  have hinit : init (sampleCoreLibraries []) samplePath sampleIdentity ⟨.empty, .empty, [], []⟩
      true = .ok samplePathHandle := rfl
  clocksAgree_iff_copiesInOrder hinit overtaken

end TirBase.SchemaClocks
