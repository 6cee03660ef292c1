import Qontinui.Base.JsText
import Qontinui.Base.ShortestChains

/-!
Semantic versions as the configuration migrations read them: three numbers joined by dots,
or the one special version of the legacy format.

The configuration migration engine: migrations registered by their two versions, the
shortest path between two versions, the migrations applied along it, and the cache of
successful results. `migrateToLatest` awaits nothing, so a call is one step of the engine.
-/

namespace Qontinui.ConfigMigration

def legacyRagVersion : String := "0.0.0-legacy-rag"

structure VersionParts where
  major : Nat
  minor : Nat
  patch : Nat
deriving DecidableEq, Repr

/-- A part of the pattern `(\d+)`. -/
def numeral? (digits : List Char) : Option Nat :=
  if digits.isEmpty || !digits.all Char.isDigit then none
  else some (Nat.ofDigitChars 10 digits 0)

/-- The match of `^(\d+)\.(\d+)\.(\d+)$`. -/
def matchVersion (text : String) : Option VersionParts :=
  match text.toList.splitOn '.' with
  | [major, minor, patch] =>
      match numeral? major, numeral? minor, numeral? patch with
      | some major, some minor, some patch => some ⟨major, minor, patch⟩
      | _, _, _ => none
  | _ => none

/-- The parts of a version; a value that is no string has no `match` to call. -/
def parseVersion : JsValue → Js (Option VersionParts)
  | some (.str version) =>
      if version = legacyRagVersion then .ok (some ⟨0, 0, 0⟩) else .ok (matchVersion version)
  | _ => .error .typeError

section Texts

variable (numberText : Rat → String)

/-- The pattern is tested on the text of the value, whatever the value is. -/
def isValidVersion (version : JsValue) : Bool :=
  version == some (.str legacyRagVersion) || (matchVersion (version.text numberText)).isSome

/-- Below, at or above zero as `a` is below, at or above `b`. -/
def compareVersions (a b : JsValue) : Js Int := do
  let parsedA ← parseVersion a
  let parsedB ← parseVersion b
  match parsedA, parsedB with
  | some a, some b =>
      if a.major ≠ b.major then pure (a.major - b.major)
      else if a.minor ≠ b.minor then pure (a.minor - b.minor)
      else pure (a.patch - b.patch)
  | none, _ => throw (.error ("Invalid version format: " ++ a.text numberText))
  | _, none => throw (.error ("Invalid version format: " ++ b.text numberText))

variable {a : JsValue} {order : Int}

theorem string_of_compareVersions {b : JsValue} (h : compareVersions numberText a b = .ok order) :
    ∃ version, a = some (.str version) := by
  cases a with
  | none => simp [compareVersions, parseVersion, bind, Except.bind] at h
  | some value =>
      cases value with
      | str version => exact ⟨version, rfl⟩
      | _ => simp [compareVersions, parseVersion, bind, Except.bind] at h

theorem valid_of_compareVersions {version : String}
    (h : compareVersions numberText a (some (.str version)) = .ok order) :
    isValidVersion numberText (some (.str version)) = true := by
  by_cases hlegacy : version = legacyRagVersion
  · simp [isValidVersion, hlegacy]
  · cases hmatch : matchVersion version with
    | some parts =>
        have htext : JsValue.text numberText (some (.str version)) = version := rfl
        simp [isValidVersion, htext, hmatch]
    | none =>
        simp only [compareVersions, bind, Except.bind, parseVersion, hlegacy, if_false, hmatch] at h
        split at h
        · cases h
        · split at h <;> simp_all [throw, throwThe, MonadExceptOf.throw]

theorem compareVersions_self (h : compareVersions numberText a a = .ok order) : order = 0 := by
  simp only [compareVersions, bind, Except.bind] at h
  cases hparse : parseVersion a with
  | error e => simp [hparse] at h
  | ok parts =>
      cases parts with
      | none => simp [hparse, throw, throwThe, MonadExceptOf.throw] at h
      | some parts =>
          simp [hparse, pure, Except.pure] at h
          exact h.symm

theorem ne_empty_of_valid {version : String}
    (h : isValidVersion numberText (some (.str version)) = true) : version ≠ "" := by
  rintro rfl
  have hmatch : matchVersion "" = none := by decide
  have htext : JsValue.text numberText (some (.str "")) = "" := rfl
  simp [isValidVersion, htext, hmatch, legacyRagVersion] at h

end Texts

/-- The texts ECMAScript leaves to its host: of a number, and of an error the
language itself throws. -/
structure JsHost where
  numberText : Rat → String
  errorText : JsError → String

def JsHost.message (host : JsHost) : JsError → String
  | .error message => message
  | other => host.errorText other

/-- What a migration adds warnings and errors to. The time of the call is kept apart
from it, since a pure migration does not read the clock. -/
structure MigrationContext where
  fromVersion : JsValue
  toVersion : String
  warnings : List String := []
  errors : List String := []
deriving DecidableEq, Repr

structure MigrationResult where
  success : Bool
  config : Json
  context : MigrationContext
  timestamp : String
deriving DecidableEq, Repr

/-- A pure migration from one version to another. What it pushed to the context stays
there when it throws. -/
structure Migration where
  fromVersion : String
  toVersion : String
  migrate : Json → MigrationContext → MigrationContext × Js JsValue
  isApplicable : Option (Json → Js Bool) := none
  validate : Option (Json → Js Bool) := none

def Migration.label (migration : Migration) : String :=
  migration.fromVersion ++ "→" ++ migration.toVersion

/-- A call of `migrateToLatest`: the config, the time of the context and the date of
the history entry. -/
structure Call where
  config : Json
  timestamp : String
  date : String
deriving DecidableEq, Repr

structure MigrationEngine where
  currentVersion : String
  migrations : List (String × Migration) := []
  cache : List (String × MigrationResult) := []
  cacheEnabled : Bool := true

section Engine

variable (host : JsHost)

/-! ### Registration -/

def validVersionText (version : String) : Bool :=
  isValidVersion host.numberText (some (.str version))

/-- `new MigrationEngine(currentVersion)` -/
def MigrationEngine.new (currentVersion : String) : Js MigrationEngine :=
  if !validVersionText host currentVersion then
    .error (.error ("Invalid current version format: " ++ currentVersion))
  else .ok { currentVersion }

def MigrationEngine.registerMigration (engine : MigrationEngine) (migration : Migration) :
    Js MigrationEngine :=
  if !validVersionText host migration.fromVersion then
    .error (.error ("Invalid migration fromVersion: " ++ migration.fromVersion))
  else if !validVersionText host migration.toVersion then
    .error (.error ("Invalid migration toVersion: " ++ migration.toVersion))
  else
    let key := migration.fromVersion ++ "->" ++ migration.toVersion
    .ok { engine with migrations := Fields.set key migration engine.migrations }

def engineWith (currentVersion : String) (migrations : List Migration) : Js MigrationEngine := do
  migrations.foldlM (MigrationEngine.registerMigration host)
    (← MigrationEngine.new host currentVersion)

/-- An engine starts with an empty cache, enabled. -/
theorem engineWith_fresh {currentVersion : String} {migrations : List Migration}
    {engine : MigrationEngine} (h : engineWith host currentVersion migrations = .ok engine) :
    engine.currentVersion = currentVersion ∧ engine.cacheEnabled = true ∧ engine.cache = [] := by
  obtain ⟨start, hstart, hrest⟩ : ∃ start, MigrationEngine.new host currentVersion = .ok start ∧
      migrations.foldlM (MigrationEngine.registerMigration host) start = .ok engine := by
    unfold engineWith at h
    cases hnew : MigrationEngine.new host currentVersion with
    | error e => simp [hnew, bind, Except.bind] at h
    | ok start => exact ⟨start, rfl, by simpa [hnew, bind, Except.bind] using h⟩
  have hfresh : start.currentVersion = currentVersion ∧ start.cacheEnabled = true ∧
      start.cache = [] := by
    unfold MigrationEngine.new at hstart
    split at hstart
    · cases hstart
    · cases hstart
      exact ⟨rfl, rfl, rfl⟩
  clear hstart h
  induction migrations generalizing start with
  | nil =>
      cases hrest
      exact hfresh
  | cons migration migrations ih =>
      cases hregister : start.registerMigration host migration with
      | error e => simp [hregister, bind, Except.bind] at hrest
      | ok next =>
          apply ih next
          · simpa [hregister, bind, Except.bind] using hrest
          · unfold MigrationEngine.registerMigration at hregister
            split at hregister
            · cases hregister
            split at hregister
            · cases hregister
            · cases hregister
              exact hfresh

/-! ### The path -/

def neighbors (migrations : List (String × Migration)) (version : String) : List Migration :=
  (migrations.map Prod.snd).filter fun migration => migration.fromVersion = version

variable {migrations : List (String × Migration)} {queue : List Place} {visited : List String}

theorem mem_neighbors {version : String} {migration : Migration} :
    migration ∈ neighbors migrations version ↔
      (∃ key, (key, migration) ∈ migrations) ∧ migration.fromVersion = version := by
  simp [neighbors]

abbrev Place := String × List Migration

/-- The neighbours of a version that were not visited join the queue. -/
def explore (path : List Migration) (neighbors : List Migration) (queue : List Place)
    (visited : List String) : List Place × List String :=
  neighbors.foldl (fun state migration =>
    if migration.toVersion ∈ state.2 then state
    else (state.1 ++ [(migration.toVersion, path ++ [migration])],
      state.2 ++ [migration.toVersion])) (queue, visited)

def search (migrations : List (String × Migration)) (target : String) :
    Nat → List Place → List String → Option (List Migration)
  | 0, _, _ => none
  | _ + 1, [], _ => none
  | rounds + 1, (version, path) :: queue, visited =>
      if version = target then some path
      else
        let (queue, visited) := explore path (neighbors migrations version) queue visited
        search migrations target rounds queue visited

/-- The shortest path between two versions, breadth first. -/
def MigrationEngine.findMigrationPath (engine : MigrationEngine) (source target : String) :
    Option (List Migration) :=
  search engine.migrations target (engine.migrations.length + 1) [(source, [])] [source]

/-- What the search still has before it: the places in the queue and the migrations to
versions not visited. -/
def ahead (migrations : List (String × Migration)) (queue : List Place)
    (visited : List String) : Nat :=
  queue.length + (migrations.filter fun entry => entry.2.toVersion ∉ visited).length

theorem ahead_explore (migrations : List (String × Migration))
    (path fresh : List Migration)
    (hfresh : ∀ migration ∈ fresh, ∃ key, (key, migration) ∈ migrations)
    (queue : List Place) (visited : List String) :
    ahead migrations (explore path fresh queue visited).1
      (explore path fresh queue visited).2 ≤ ahead migrations queue visited := by
  induction fresh generalizing queue visited with
  | nil => exact Nat.le_refl _
  | cons migration fresh ih =>
      have hrest := ih (fun other hother => hfresh other (by simp [hother]))
      by_cases hvisited : migration.toVersion ∈ visited
      · simpa [explore, hvisited] using hrest queue visited
      · obtain ⟨key, hkey⟩ := hfresh migration (by simp)
        have hstep := hrest (queue ++ [(migration.toVersion, path ++ [migration])])
          (visited ++ [migration.toVersion])
        have hfilter : (migrations.filter fun entry =>
              entry.2.toVersion ∉ visited ++ [migration.toVersion]) =
            (migrations.filter fun entry => entry.2.toVersion ∉ visited).filter
              fun entry => entry.2.toVersion ≠ migration.toVersion := by
          simp [List.filter_filter, and_comm]
        have hless : (migrations.filter fun entry =>
              entry.2.toVersion ∉ visited ++ [migration.toVersion]).length <
            (migrations.filter fun entry => entry.2.toVersion ∉ visited).length := by
          rw [hfilter, List.length_filter_lt_length_iff_exists]
          exact ⟨(key, migration), List.mem_filter.mpr ⟨hkey, by simpa using hvisited⟩, by simp⟩
        simp only [explore, List.foldl_cons, hvisited, if_false] at hstep ⊢
        unfold ahead at hstep ⊢
        simp only [List.length_append, List.length_singleton] at hstep
        omega

theorem ahead_round {version : String} {path : List Migration} {rounds : Nat}
    (h : ahead migrations ((version, path) :: queue) visited ≤ rounds + 1) :
    ahead migrations (explore path (neighbors migrations version) queue visited).1
      (explore path (neighbors migrations version) queue visited).2 ≤ rounds := by
  have hexplore := ahead_explore migrations path (neighbors migrations version)
    (fun migration hmem => (mem_neighbors.mp hmem).1) queue visited
  unfold ahead at h hexplore ⊢
  simp only [List.length_cons] at h
  omega

theorem eq_nil_of_ahead_le_zero (h : ahead migrations queue visited ≤ 0) : queue = [] := by
  apply List.eq_nil_of_length_eq_zero
  unfold ahead at h
  omega

theorem ahead_start (migrations : List (String × Migration)) (source : String) :
    ahead migrations [(source, [])] [source] ≤ migrations.length + 1 := by
  have hfilter := List.length_filter_le (fun entry : String × Migration =>
    decide (entry.2.toVersion ∉ [source])) migrations
  unfold ahead
  simp only [List.length_singleton]
  omega

/-- The loop of the search as it runs: each round takes the first place of the queue, and the
loop ends with the queue or at the target. -/
inductive SearchEnds (migrations : List (String × Migration)) (target : String) :
    List Place → List String → Option (List Migration) → Prop
  | exhausted {visited : List String} : SearchEnds migrations target [] visited none
  | found {path : List Migration} {queue : List Place} {visited : List String} :
      SearchEnds migrations target ((target, path) :: queue) visited (some path)
  | round {version : String} {path : List Migration} {queue : List Place}
      {visited : List String} {outcome : Option (List Migration)} (h : version ≠ target)
      (rest : SearchEnds migrations target
        (explore path (neighbors migrations version) queue visited).1
        (explore path (neighbors migrations version) queue visited).2 outcome) :
      SearchEnds migrations target ((version, path) :: queue) visited outcome

theorem searchEnds_search {target : String} (rounds : Nat)
    (h : ahead migrations queue visited ≤ rounds) :
    SearchEnds migrations target queue visited
      (search migrations target rounds queue visited) := by
  induction rounds generalizing queue visited with
  | zero =>
      obtain rfl := eq_nil_of_ahead_le_zero h
      exact .exhausted
  | succ rounds ih =>
      cases queue with
      | nil => exact .exhausted
      | cons place queue =>
          obtain ⟨version, path⟩ := place
          rw [search]
          by_cases htarget : version = target
          · rw [if_pos htarget, htarget]
            exact .found
          · rw [if_neg htarget]
            exact .round htarget (ih (ahead_round h))

/-- What exploring a version pushes: places one migration on, at versions that join the
visited ones, so that all its neighbours have been visited. -/
theorem exists_pushed (path fresh : List Migration) (queue : List Place)
    (visited : List String) :
    ∃ pushed : List Place, explore path fresh queue visited =
        (queue ++ pushed, visited ++ pushed.map Prod.fst) ∧
      (∀ new ∈ pushed, ∃ migration ∈ fresh,
        new = (migration.toVersion, path ++ [migration])) ∧
      ∀ migration ∈ fresh, migration.toVersion ∈ visited ++ pushed.map Prod.fst := by
  induction fresh generalizing queue visited with
  | nil => exact ⟨[], by simp [explore], by simp, by simp⟩
  | cons migration fresh ih =>
      by_cases hvisited : migration.toVersion ∈ visited
      · obtain ⟨pushed, hexplore, hpushed, hall⟩ := ih queue visited
        refine ⟨pushed, ?_, fun new hnew => ?_, ?_⟩
        · rw [← hexplore]
          simp [explore, hvisited]
        · obtain ⟨other, hother, hnew⟩ := hpushed new hnew
          exact ⟨other, List.mem_cons_of_mem _ hother, hnew⟩
        · intro other hother
          rcases List.mem_cons.mp hother with rfl | hfresh
          · exact List.mem_append_left _ hvisited
          · exact hall other hfresh
      · obtain ⟨pushed, hexplore, hpushed, hall⟩ :=
          ih (queue ++ [(migration.toVersion, path ++ [migration])])
            (visited ++ [migration.toVersion])
        refine ⟨(migration.toVersion, path ++ [migration]) :: pushed, ?_, ?_, ?_⟩
        · rw [List.map_cons, List.append_cons queue, List.append_cons visited, ← hexplore]
          simp [explore, hvisited]
        · intro new hnew
          rcases List.mem_cons.mp hnew with rfl | hlater
          · exact ⟨migration, List.mem_cons_self, rfl⟩
          · obtain ⟨other, hother, hnew⟩ := hpushed new hlater
            exact ⟨other, List.mem_cons_of_mem _ hother, hnew⟩
        · intro other hother
          rw [List.map_cons, List.append_cons]
          rcases List.mem_cons.mp hother with rfl | hfresh
          · exact List.mem_append_left _ (by simp)
          · exact hall other hfresh

/-- A chain of registered migrations from one version to another. -/
def MigrationEngine.Leads (engine : MigrationEngine) (source : String) (path : List Migration)
    (target : String) : Prop :=
  Chains.Leads Migration.fromVersion Migration.toVersion
    {migration | ∃ key, (key, migration) ∈ engine.migrations} source path target

/-- Where the loop ends: no chain leads to the target, or the path is a shortest one. -/
theorem SearchEnds.shortest {engine : MigrationEngine} {source target : String}
    {outcome : Option (List Migration)}
    (h : SearchEnds engine.migrations target queue visited outcome) {settled : List Place}
    (hfrontier : Chains.Frontier Migration.fromVersion Migration.toVersion
      {migration | ∃ key, (key, migration) ∈ engine.migrations} source target settled queue)
    (hvisited : ∀ version, version ∈ visited ↔ ∃ path, (version, path) ∈ settled ++ queue) :
    (outcome = none → ∀ path, ¬ engine.Leads source path target) ∧
      ∀ path, outcome = some path → engine.Leads source path target ∧
        ∀ other, engine.Leads source other target → path.length ≤ other.length := by
  induction h generalizing settled with
  | exhausted => exact ⟨fun _ => hfrontier.not_leads, by simp⟩
  | @found path queue visited =>
      refine ⟨by simp, ?_⟩
      rintro _ ⟨⟩
      exact ⟨hfrontier.chains (target, path) (by simp), fun other => hfrontier.length_le⟩
  | @round version path queue visited outcome hmissed rest ih =>
      obtain ⟨pushed, hexplore, hpushed, hall⟩ :=
        exists_pushed path (neighbors engine.migrations version) queue visited
      rw [hexplore] at ih
      have hknown : ∀ other, other ∈ visited ++ pushed.map Prod.fst ↔
          ∃ path', (other, path') ∈ settled ++ (version, path) :: queue ++ pushed := by
        intro other
        rw [List.mem_append, hvisited]
        simp only [List.mem_map, List.mem_append (t := pushed), Prod.exists, exists_and_right,
          exists_eq_right, exists_or]
      refine @ih (settled ++ [(version, path)]) ?_ ?_
      · refine hfrontier.settle hmissed (fun new hnew => ?_) fun migration hmem htail => ?_
        · obtain ⟨migration, hmigration, rfl⟩ := hpushed new hnew
          obtain ⟨hregistered, hfrom⟩ := mem_neighbors.mp hmigration
          exact ⟨migration, hregistered, hfrom, rfl⟩
        · obtain ⟨path', hplace⟩ := (hknown _).mp (hall migration (mem_neighbors.mpr ⟨hmem, htail⟩))
          exact ⟨_, hplace, rfl⟩
      · intro other
        rw [hknown]
        simp

/-- The search ends, finds no path exactly where no chain of migrations leads from the one
version to the other, and finds a shortest chain otherwise. -/
theorem findMigrationPath_shortest (engine : MigrationEngine) (source target : String) :
    SearchEnds engine.migrations target [(source, [])] [source]
        (engine.findMigrationPath source target) ∧
      (engine.findMigrationPath source target = none ↔
        ∀ path, ¬ engine.Leads source path target) ∧
      ∀ path, engine.findMigrationPath source target = some path →
        engine.Leads source path target ∧
          ∀ other, engine.Leads source other target → path.length ≤ other.length := by
  have hends : SearchEnds engine.migrations target [(source, [])] [source]
      (engine.findMigrationPath source target) :=
    searchEnds_search _ (ahead_start engine.migrations source)
  obtain ⟨hnone, hsome⟩ := hends.shortest Chains.frontier_start (by simp)
  refine ⟨hends, ⟨hnone, fun hunreached => ?_⟩, hsome⟩
  cases hfound : engine.findMigrationPath source target with
  | none => rfl
  | some path => exact absurd (hsome path hfound).1 (hunreached path)

/-! ### Applying the migrations -/

def Migration.applicable (migration : Migration) (config : Json) : Js Bool :=
  match migration.isApplicable with
  | some isApplicable => isApplicable config
  | none => .ok true

/-- What follows a migration: the version is set when the migration left it, and the
result is validated. -/
def Migration.settle (migration : Migration) (beforeVersion : JsValue) (migrated : JsValue) :
    Js Json := do
  let config ← match migrated with
    | some config => pure config
    | none => throw .typeError
  let version ← config.readKey "version"
  let config ←
    if !version.truthy || version == beforeVersion then
      config.writeKey "version" (some (.str migration.toVersion))
    else pure config
  match migration.validate with
  | some validate =>
      if ← validate config then pure config else throw (.error "Migration validation failed")
  | none => pure config

/-- One migration of the path, as the `try` block runs it. -/
def Migration.apply (migration : Migration) (config : Json) (context : MigrationContext) :
    MigrationContext × Js Json :=
  match migration.applicable config with
  | .error e => (context, .error e)
  | .ok false =>
      let warning := "Migration " ++ migration.label ++ " skipped (not applicable)"
      ({ context with warnings := context.warnings ++ [warning] },
        config.writeKey "version" (some (.str migration.toVersion)))
  | .ok true =>
      match config.readKey "version" with
      | .error e => (context, .error e)
      | .ok beforeVersion =>
          let (context, migrated) := migration.migrate config context
          (context, migrated >>= migration.settle beforeVersion)

/-- The migrations of the path in order; the first that throws ends the loop. -/
def applyPath : List Migration → Json → MigrationContext → MigrationContext × Option Json
  | [], config, context => (context, some config)
  | migration :: path, config, context =>
      match migration.apply config context with
      | (context, .ok config) => applyPath path config context
      | (context, .error e) =>
          let message := "Migration " ++ migration.label ++ " failed: " ++ host.message e
          ({ context with errors := context.errors ++ [message] }, none)

/-- A history entry is pushed to `metadata.migrationHistory`. -/
def addMigrationHistory (config entry : Json) : Js Json := do
  let config ←
    if (← config.readKey "metadata").truthy then pure config
    else config.writeKey "metadata" (some (.obj []))
  match ← config.readKey "metadata" with
  | none => pure config
  | some metadata =>
      let metadata ←
        if (← metadata.readKey "migrationHistory").truthy then pure metadata
        else metadata.writeKey "migrationHistory" (some (.arr []))
      match ← metadata.readKey "migrationHistory" with
      | none => pure config
      | some (.arr history) =>
          let metadata := metadata.replaceKey "migrationHistory" (.arr (history ++ [entry]))
          pure (config.replaceKey "metadata" metadata)
      | some _ => throw .typeError

def historyEntry (fromVersion toVersion date : String) (path : List Migration) : Json :=
  .obj [("fromVersion", .str fromVersion), ("toVersion", .str toVersion), ("date", .str date),
    ("path", .arr (path.map fun migration => .str migration.label))]

/-! ### The cache -/

/-- `simpleHash(text)`: 32-bit arithmetic along the character codes, the sign dropped. -/
def simpleHash (text : String) : String :=
  let hash := (charCodes text).foldl (fun (hash : Int) (char : Nat) =>
    toInt32 (toInt32 (hash * 2 ^ 5) - hash + char)) 0
  String.ofList (toRadix 36 hash.natAbs)

/-- `getCacheKey(config)`, for a config of the given version. -/
def getCacheKey (config : Json) (version : JsValue) : String :=
  let version := if version.truthy then version.text host.numberText else "unknown"
  version ++ "-" ++ simpleHash (stringify host.numberText config)

/-! ### A call -/

/-- The answer a call gets before the cache is asked; `none` is a config that has to be
migrated, with its version. -/
def MigrationEngine.answerBefore (engine : MigrationEngine) (call : Call) :
    Js (MigrationResult ⊕ String) := do
  let version ← call.config.readKey "version"
  let answer (success : Bool) (warnings errors : List String) : MigrationResult :=
    { success, config := call.config, timestamp := call.timestamp
      context := { fromVersion := version, toVersion := engine.currentVersion, warnings, errors } }
  let text := version.text host.numberText
  if !isValidVersion host.numberText version then
    pure (.inl (answer false [] ["Invalid version format: " ++ text]))
  else
    let order ← compareVersions host.numberText version (some (.str engine.currentVersion))
    if order < 0 then pure (.inr text)
    else if version == some (.str engine.currentVersion) then pure (.inl (answer true [] []))
    else
      pure (.inl (answer true ["Config version " ++ text ++
        " is newer than current version " ++ engine.currentVersion] []))

/-- A config of an older version taken along the path to the current one. -/
def MigrationEngine.migrate (engine : MigrationEngine) (version : String) (call : Call) :
    Js MigrationResult := do
  let context : MigrationContext :=
    { fromVersion := some (.str version), toVersion := engine.currentVersion }
  match engine.findMigrationPath version engine.currentVersion with
  | none =>
      pure { success := false, config := call.config, timestamp := call.timestamp
             context := { context with errors := ["No migration path found from version " ++
               version ++ " to " ++ engine.currentVersion] } }
  | some path =>
      match applyPath host path call.config context with
      | (context, none) =>
          pure { success := false, config := call.config, timestamp := call.timestamp, context }
      | (context, some config) =>
          let entry := historyEntry version engine.currentVersion call.date path
          let config ← addMigrationHistory config entry
          pure { success := true, config, timestamp := call.timestamp, context }

def MigrationEngine.cached (engine : MigrationEngine) (key : String) : Option MigrationResult :=
  if engine.cacheEnabled then engine.cache.lookup key else none

def MigrationEngine.store (engine : MigrationEngine) (key : String) :
    Js MigrationResult → MigrationEngine
  | .ok result =>
      if engine.cacheEnabled && result.success then
        { engine with cache := Fields.set key result engine.cache }
      else engine
  | .error _ => engine

/-- `migrateToLatest(config)`: the answer and the engine after the call. -/
def MigrationEngine.migrateToLatest (engine : MigrationEngine) (call : Call) :
    Js MigrationResult × MigrationEngine :=
  match engine.answerBefore host call with
  | .error e => (.error e, engine)
  | .ok (.inl answer) => (.ok answer, engine)
  | .ok (.inr version) =>
      let key := getCacheKey host call.config (some (.str version))
      match engine.cached key with
      | some cached =>
          let warnings := cached.context.warnings ++ ["Loaded from migration cache"]
          (.ok { cached with context := { cached.context with warnings } }, engine)
      | none =>
          let result := engine.migrate host version call
          (result, engine.store key result)

/-- `setCacheEnabled(enabled)` -/
def MigrationEngine.setCacheEnabled (engine : MigrationEngine) (enabled : Bool) :
    MigrationEngine :=
  { engine with cacheEnabled := enabled, cache := if enabled then engine.cache else [] }

end Engine

end Qontinui.ConfigMigration
