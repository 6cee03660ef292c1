import Qontinui.Base.Memo
import Qontinui.ConfigMigration.MigrationEngine

/-!
When the migration cache is transparent. A cached answer is the answer of an
earlier call under the same key, so the cache is invisible to every set of
migrations exactly when no two different configs of the sequence share a
version and a 32-bit hash up to its sign.
-/

namespace Qontinui.ConfigMigration

open Runs

section Hash

/-- The hash of a text before it is cut to 32 bits and loses its sign. -/
def textHash (text : String) : Int :=
  (charCodes text).foldl (fun (hash : Int) (char : Nat) => 31 * hash + char) 0

/-- The hashes of two texts are the same or opposite modulo `2 ^ 32`. -/
def Collide (text other : String) : Prop :=
  textHash text ≡ textHash other [ZMOD 2 ^ 32] ∨ textHash text ≡ -textHash other [ZMOD 2 ^ 32]

theorem hash_round (hash char : Int) :
    toInt32 (toInt32 (toInt32 hash * 2 ^ 5) - toInt32 hash + char) =
      toInt32 (31 * hash + char) := by
  apply toInt32_congr
  have hshift : toInt32 (toInt32 hash * 2 ^ 5) ≡ hash * 2 ^ 5 [ZMOD 2 ^ 32] :=
    (toInt32_modEq _).trans ((toInt32_modEq hash).mul_right _)
  have hsum := (hshift.sub (toInt32_modEq hash)).add_right char
  have hvalue : hash * 2 ^ 5 - hash + char = 31 * hash + char := by ring
  rwa [hvalue] at hsum

theorem foldl_hash (codes : List Nat) (hash : Int) :
    codes.foldl (fun (hash : Int) (char : Nat) => toInt32 (toInt32 (hash * 2 ^ 5) - hash + char))
        (toInt32 hash) =
      toInt32 (codes.foldl (fun (hash : Int) (char : Nat) => 31 * hash + char) hash) := by
  induction codes generalizing hash with
  | nil => rfl
  | cons code codes ih => rw [List.foldl_cons, List.foldl_cons, hash_round, ih]

theorem simpleHash_eq (text : String) :
    simpleHash text = String.ofList (toRadix 36 (toInt32 (textHash text)).natAbs) := by
  have h := foldl_hash (charCodes text) 0
  have hzero : toInt32 0 = 0 := by decide
  rw [hzero] at h
  simp only [simpleHash, textHash, h]

theorem simpleHash_eq_iff (text other : String) :
    simpleHash text = simpleHash other ↔ Collide text other := by
  rw [simpleHash_eq, simpleHash_eq, Collide, ← natAbs_toInt32_eq_iff]
  constructor
  · intro h
    exact toRadix_injective (by omega) (by omega) (String.ofList_injective h)
  · intro h
    rw [h]

theorem dash_not_mem_simpleHash (text : String) : '-' ∉ (simpleHash text).toList := by
  rw [simpleHash_eq, String.toList_ofList]
  exact dash_not_mem_toRadix (by omega) (by omega) _

theorem append_dash_injective {front front' tail tail' : List Char} (h : '-' ∉ tail)
    (h' : '-' ∉ tail') (heq : front ++ '-' :: tail = front' ++ '-' :: tail') :
    front = front' ∧ tail = tail' := by
  rcases List.append_eq_append_iff.mp heq with ⟨gap, hfront, htail⟩ | ⟨gap, hfront, htail⟩
  · cases gap with
    | nil => simp_all
    | cons c gap =>
        simp only [List.cons_append, List.cons.injEq] at htail
        exact absurd (by rw [htail.2]; simp) h
  · cases gap with
    | nil => simp_all
    | cons c gap =>
        simp only [List.cons_append, List.cons.injEq] at htail
        exact absurd (by rw [htail.2]; simp) h'

theorem key_injective {version version' text text' : String}
    (h : version ++ "-" ++ simpleHash text = version' ++ "-" ++ simpleHash text') :
    version = version' ∧ Collide text text' := by
  have hlist := congrArg String.toList h
  simp only [String.toList_append, List.append_assoc] at hlist
  obtain ⟨hversion, htail⟩ := append_dash_injective (dash_not_mem_simpleHash text)
    (dash_not_mem_simpleHash text') hlist
  exact ⟨String.toList_injective hversion,
    (simpleHash_eq_iff text text').mp (String.toList_injective htail)⟩

end Hash

section Claim

variable (host : JsHost)

/-- A config with a valid version that is older than the current one. -/
def Older (current : String) (config : Json) (version : String) : Prop :=
  config.readKey "version" = .ok (some (.str version)) ∧ validVersionText host version = true ∧
    ∃ order < 0, compareVersions host.numberText (some (.str version)) (some (.str current)) =
      .ok order

/-- What the claim compares of an answer: the success flag and the config. -/
def answer (result : Js MigrationResult) : Js (Bool × Json) :=
  result.map fun result => (result.success, result.config)

def serve (engine : MigrationEngine) (call : Call) : MigrationEngine :=
  (engine.migrateToLatest host call).2

/-- Every call of the sequence answers what it answers without the cache, up to the
date of the history entry. -/
def Transparent (engine : MigrationEngine) (calls : List Call) : Prop :=
  ∀ front call, front ++ [call] <+: calls → ∃ date,
    answer ((run (serve host) engine front).migrateToLatest host call).1 =
      answer ((engine.setCacheEnabled false).migrateToLatest host { call with date }).1

/-- No two different configs to be migrated share a version and a hash. -/
def NoCollision (current : String) (calls : List Call) : Prop :=
  ∀ call ∈ calls, ∀ other ∈ calls, ∀ version, Older host current call.config version →
    Older host current other.config version →
    Collide (stringify host.numberText call.config) (stringify host.numberText other.config) →
    call.config = other.config

/-! ### A call, seen from the cache -/

def callKey (call : Call) : String :=
  match call.config.readKey "version" with
  | .ok version => getCacheKey host call.config version
  | .error _ => ""

def kept (engine : MigrationEngine) (call : Call) : Option MigrationResult :=
  match engine.answerBefore host call with
  | .ok (.inr version) =>
      match engine.migrate host version call with
      | .ok result => if result.success then some result else none
      | .error _ => none
  | _ => none

theorem answerBefore_inr_iff (engine : MigrationEngine) (call : Call) (version : String) :
    engine.answerBefore host call = .ok (.inr version) ↔
      Older host engine.currentVersion call.config version := by
  constructor
  · intro h
    cases hread : call.config.readKey "version" with
    | error e => simp [MigrationEngine.answerBefore, hread, bind, Except.bind] at h
    | ok value =>
        by_cases hvalid : isValidVersion host.numberText value = true
        · cases horder :
              compareVersions host.numberText value (some (.str engine.currentVersion)) with
          | error e =>
              simp [MigrationEngine.answerBefore, hread, hvalid, horder, bind, Except.bind] at h
          | ok order =>
              obtain ⟨text, rfl⟩ := string_of_compareVersions host.numberText horder
              have hlt : order < 0 := by
                by_contra hge
                simp only [MigrationEngine.answerBefore, hread, hvalid, horder, bind, Except.bind,
                  hge, if_false, Bool.not_true, Bool.false_eq_true] at h
                split at h <;> cases h
              simp only [MigrationEngine.answerBefore, hread, hvalid, horder, bind, Except.bind,
                hlt, if_true, if_false, Bool.not_true, Bool.false_eq_true, pure, Except.pure,
                Except.ok.injEq, Sum.inr.injEq] at h
              subst h
              exact ⟨hread, hvalid, order, hlt, horder⟩
        · simp [MigrationEngine.answerBefore, hread, hvalid, bind, Except.bind, pure,
            Except.pure] at h
  · rintro ⟨hread, hvalid, order, hlt, horder⟩
    unfold validVersionText at hvalid
    simp only [MigrationEngine.answerBefore, hread, hvalid, horder, bind, Except.bind, hlt,
      if_true, if_false, Bool.not_true, Bool.false_eq_true, pure, Except.pure]
    rfl

def withCache (engine : MigrationEngine) (cache : List (String × MigrationResult)) :
    MigrationEngine :=
  { engine with cache }

variable {engine : MigrationEngine} {call : Call} {current version : String}

theorem cached_withCache (henabled : engine.cacheEnabled = true)
    (cache : List (String × MigrationResult)) (key : String) :
    (withCache engine cache).cached key = cache.lookup key := by
  simp [MigrationEngine.cached, withCache, henabled]

theorem callKey_of_older (h : Older host current call.config version) :
    callKey host call = getCacheKey host call.config (some (.str version)) := by
  simp [callKey, h.1]

theorem callKey_eq (h : Older host current call.config version) :
    callKey host call =
      version ++ "-" ++ simpleHash (stringify host.numberText call.config) := by
  have hne := ne_empty_of_valid host.numberText h.2.1
  have htruthy : JsValue.truthy (some (.str version)) = true := by
    simp [JsValue.truthy, Json.truthy, hne]
  rw [callKey_of_older host h, getCacheKey, htruthy]
  rfl

theorem migrateToLatest_miss (engine : MigrationEngine)
    (h : Older host engine.currentVersion call.config version)
    (hmiss : engine.cached (callKey host call) = none) :
    engine.migrateToLatest host call = (engine.migrate host version call,
      engine.store (callKey host call) (engine.migrate host version call)) := by
  rw [callKey_of_older host h] at hmiss ⊢
  simp only [MigrationEngine.migrateToLatest, (answerBefore_inr_iff host engine call version).mpr h,
    hmiss]

theorem migrateToLatest_hit (engine : MigrationEngine) {cached : MigrationResult}
    (h : Older host engine.currentVersion call.config version)
    (hhit : engine.cached (callKey host call) = some cached) :
    answer (engine.migrateToLatest host call).1 = .ok (cached.success, cached.config) ∧
      (engine.migrateToLatest host call).2 = engine := by
  rw [callKey_of_older host h] at hhit
  simp only [MigrationEngine.migrateToLatest, (answerBefore_inr_iff host engine call version).mpr h,
    hhit]
  exact ⟨rfl, trivial⟩

theorem migrateToLatest_of_not_older
    (h : ∀ version, ¬ Older host engine.currentVersion call.config version)
    (cache : List (String × MigrationResult)) (enabled : Bool) :
    ({ engine with cache, cacheEnabled := enabled } : MigrationEngine).migrateToLatest host call =
      ((engine.migrateToLatest host call).1, { engine with cache, cacheEnabled := enabled }) := by
  have hsame : ({ engine with cache, cacheEnabled := enabled } : MigrationEngine).answerBefore host
      call = engine.answerBefore host call := rfl
  unfold MigrationEngine.migrateToLatest
  rw [hsame]
  cases hbefore : engine.answerBefore host call with
  | error e => rfl
  | ok result =>
      cases result with
      | inl result => rfl
      | inr version => exact absurd ((answerBefore_inr_iff host engine call version).mp hbefore) (h version)

theorem kept_of_older (h : Older host engine.currentVersion call.config version) :
    kept host engine call = match engine.migrate host version call with
      | .ok result => if result.success then some result else none
      | .error _ => none := by
  simp only [kept, (answerBefore_inr_iff host engine call version).mpr h]

theorem kept_of_not_older (h : ∀ version, ¬ Older host engine.currentVersion call.config version) :
    kept host engine call = none := by
  unfold kept
  cases hbefore : engine.answerBefore host call with
  | error e => rfl
  | ok result =>
      cases result with
      | inl result => rfl
      | inr version => exact absurd ((answerBefore_inr_iff host engine call version).mp hbefore) (h version)

theorem serve_withCache (henabled : engine.cacheEnabled = true)
    (cache : List (String × MigrationResult)) (call : Call) :
    serve host (withCache engine cache) call =
      withCache engine (Memo.remember (callKey host) (kept host engine) cache call) := by
  by_cases holder : ∃ version, Older host engine.currentVersion call.config version
  · obtain ⟨version, holder⟩ := holder
    have hcached := cached_withCache henabled cache (callKey host call)
    cases hlookup : cache.lookup (callKey host call) with
    | some found =>
        have hhit := (migrateToLatest_hit host (withCache engine cache) holder
          (hcached.trans hlookup)).2
        simp [serve, hhit, Memo.remember, hlookup]
    | none =>
        have hmiss := migrateToLatest_miss host (withCache engine cache) holder
          (hcached.trans hlookup)
        have hmigrate : (withCache engine cache).migrate host version call =
          engine.migrate host version call := rfl
        simp only [serve, hmiss, hmigrate, Memo.remember, hlookup, kept_of_older host holder]
        cases engine.migrate host version call with
        | error e => rfl
        | ok result =>
            cases hsuccess : result.success <;>
              simp [MigrationEngine.store, withCache, henabled, hsuccess]
  · have hnot := not_exists.mp holder
    have hserve := migrateToLatest_of_not_older host hnot cache engine.cacheEnabled
    have hkept := kept_of_not_older host hnot
    simp only [serve, withCache, hserve, Memo.remember, hkept]
    cases cache.lookup (callKey host call) <;> rfl

theorem run_serve (henabled : engine.cacheEnabled = true) (hempty : engine.cache = [])
    (calls : List Call) :
    run (serve host) engine calls =
      withCache engine (Memo.cacheAfter (callKey host) (kept host engine) calls) := by
  have hstart : engine = withCache engine [] := by
    rw [← hempty]
    rfl
  have hrun := run_map (Memo.remember (callKey host) (kept host engine)) (serve host)
    (withCache engine) (fun cache call => (serve_withCache host henabled cache call).symm) [] calls
  rw [Memo.cacheAfter, hrun, ← hstart]

/-! ### The answers -/

theorem answer_migrate_congr (engine : MigrationEngine) (version : String) {other : Call}
    (hconfig : call.config = other.config) (hdate : call.date = other.date) :
    answer (engine.migrate host version call) = answer (engine.migrate host version other) := by
  unfold MigrationEngine.migrate
  rw [hconfig, hdate]
  cases engine.findMigrationPath version engine.currentVersion with
  | none => rfl
  | some path =>
      cases happly : applyPath host path other.config
          { fromVersion := some (.str version), toVersion := engine.currentVersion } with
      | mk context config =>
          cases config with
          | none => simp [answer, happly, pure, Except.pure, Except.map]
          | some config =>
              simp only [happly]
              cases addMigrationHistory config
                (historyEntry version engine.currentVersion other.date path) <;> rfl

theorem uncached_of_older (engine : MigrationEngine) (call : Call)
    (h : Older host engine.currentVersion call.config version) :
    ((engine.setCacheEnabled false).migrateToLatest host call).1 =
      engine.migrate host version call := by
  have hmiss := migrateToLatest_miss host (engine.setCacheEnabled false) h
    (by simp [MigrationEngine.cached, MigrationEngine.setCacheEnabled])
  rw [hmiss]
  rfl

theorem answer_of_kept {result : MigrationResult} (h : kept host engine call = some result) :
    ∃ version, Older host engine.currentVersion call.config version ∧
      answer (engine.migrate host version call) = .ok (result.success, result.config) := by
  unfold kept at h
  cases hbefore : engine.answerBefore host call with
  | error e => simp [hbefore] at h
  | ok before =>
      cases before with
      | inl result => simp [hbefore] at h
      | inr version =>
          refine ⟨version, (answerBefore_inr_iff host engine call version).mp hbefore, ?_⟩
          cases hmigrate : engine.migrate host version call with
          | error e => simp [hbefore, hmigrate] at h
          | ok other =>
              simp only [hbefore, hmigrate, Option.ite_none_right_eq_some, Option.some.injEq] at h
              rw [← h.2]
              rfl

theorem callKey_eq_iff {other : Call} {version' : String}
    (h : Older host current call.config version) (h' : Older host current other.config version') :
    callKey host call = callKey host other ↔ version = version' ∧
      Collide (stringify host.numberText call.config)
        (stringify host.numberText other.config) := by
  rw [callKey_eq host h, callKey_eq host h']
  constructor
  · exact key_injective
  · rintro ⟨rfl, hcollide⟩
    rw [(simpleHash_eq_iff _ _).mpr hcollide]

/-- Without a collision every cached answer is the answer of the config it is given for. -/
theorem transparent_of_noCollision (henabled : engine.cacheEnabled = true)
    (hempty : engine.cache = []) {calls : List Call}
    (h : NoCollision host engine.currentVersion calls) : Transparent host engine calls := by
  intro front call hbegin
  rw [run_serve host henabled hempty]
  obtain ⟨cache, hcache⟩ : ∃ cache,
    cache = Memo.cacheAfter (callKey host) (kept host engine) front := ⟨_, rfl⟩
  rw [← hcache]
  by_cases holder : ∃ version, Older host engine.currentVersion call.config version
  · obtain ⟨version, holder⟩ := holder
    have hcached := cached_withCache henabled cache (callKey host call)
    cases hlookup : cache.lookup (callKey host call) with
    | none =>
        refine ⟨call.date, ?_⟩
        rw [migrateToLatest_miss host (withCache engine cache) holder (hcached.trans hlookup),
          uncached_of_older host engine { call with date := call.date } holder]
        rfl
    | some cached =>
        obtain ⟨earlier, hmem, hkey, hkept⟩ := Memo.kept_of_lookup _ _ (hcache ▸ hlookup)
        obtain ⟨version', holder', hanswer⟩ := answer_of_kept host hkept
        obtain ⟨rfl, hcollide⟩ := (callKey_eq_iff host holder' holder).mp hkey
        have hearlier : earlier ∈ calls := hbegin.subset (List.mem_append_left _ hmem)
        have hcall : call ∈ calls := hbegin.subset (by simp)
        have hconfig := h earlier hearlier call hcall version' holder' holder hcollide
        refine ⟨earlier.date, ?_⟩
        have hhit := migrateToLatest_hit host (withCache engine cache) holder
          (hcached.trans hlookup)
        rw [hhit.1, ← hanswer,
          uncached_of_older host engine { call with date := earlier.date } holder]
        exact answer_migrate_congr host engine version' hconfig rfl
  · have hnot := not_exists.mp holder
    refine ⟨call.date, ?_⟩
    have hserved := migrateToLatest_of_not_older host hnot cache engine.cacheEnabled
    have hfresh := migrateToLatest_of_not_older host hnot [] false
    have hserved' := congrArg (fun result => answer result.1) hserved
    have hfresh' := congrArg (fun result => answer result.1) hfresh
    exact hserved'.trans hfresh'.symm

/-! ### A migration that tells any two configs apart -/

/-- The migration that keeps the config it was given under `original`. -/
def wrapping (version current : String) : Migration where
  fromVersion := version
  toVersion := current
  migrate config context :=
    (context, .ok (some (.obj [("version", .str current), ("original", config)])))

def wrapped (version current date : String) (config : Json) : Json :=
  .obj [("version", .str current), ("original", config),
    ("metadata", .obj [("migrationHistory",
      .arr [historyEntry version current date [wrapping version current]])])]

def wrappingEngine (version current : String) : MigrationEngine :=
  { currentVersion := current
    migrations := [(version ++ "->" ++ current, wrapping version current)] }

theorem engineWith_wrapping (hversion : validVersionText host version = true)
    (hcurrent : validVersionText host current = true) :
    engineWith host current [wrapping version current] = .ok (wrappingEngine version current) := by
  simp [engineWith, MigrationEngine.new, MigrationEngine.registerMigration, hversion, hcurrent,
    wrapping, wrappingEngine, bind, Except.bind, pure, Except.pure, Fields.set]

theorem findMigrationPath_wrapping (hne : version ≠ current) :
    (wrappingEngine version current).findMigrationPath version current =
      some [wrapping version current] := by
  simp [MigrationEngine.findMigrationPath, wrappingEngine, search, neighbors, explore, wrapping,
    hne, Ne.symm hne]

theorem migrate_wrapping (h : Older host current call.config version) :
    answer ((wrappingEngine version current).migrate host version call) =
      .ok (true, wrapped version current call.date call.config) := by
  obtain ⟨hread, hvalid, order, hlt, horder⟩ := h
  have hne : version ≠ current := by
    rintro rfl
    have := compareVersions_self host.numberText horder
    omega
  have hcurrent := ne_empty_of_valid host.numberText (valid_of_compareVersions _ horder)
  have happly : ∀ context, (wrapping version current).apply call.config context =
      (context, .ok (.obj [("version", .str current), ("original", call.config)])) := by
    intro context
    have hafter : (Json.obj [("version", .str current), ("original", call.config)]).readKey
      "version" = .ok (some (.str current)) := rfl
    have hkeeps : (wrapping version current).settle (some (.str version))
        (some (.obj [("version", .str current), ("original", call.config)])) =
          .ok (.obj [("version", .str current), ("original", call.config)]) := by
      simp [Migration.settle, wrapping, hafter, bind, Except.bind, pure, Except.pure,
        JsValue.truthy, Json.truthy, hcurrent, Ne.symm hne]
    simp only [Migration.apply, Migration.applicable, hread]
    exact Prod.ext rfl hkeeps
  have hhistory : ∀ entry, addMigrationHistory
      (.obj [("version", .str current), ("original", call.config)]) entry =
        .ok (.obj [("version", .str current), ("original", call.config),
          ("metadata", .obj [("migrationHistory", .arr [entry])])]) := by
    intro entry
    simp [addMigrationHistory, Json.readKey, Json.writeKey, Json.replaceKey, bind, Except.bind,
      pure, Except.pure, JsValue.truthy, List.lookup_cons, Fields.set]
  have hpath := findMigrationPath_wrapping hne
  have hversion : (wrappingEngine version current).currentVersion = current := rfl
  simp only [MigrationEngine.migrate, hversion, hpath, applyPath, happly, hhistory, bind,
    Except.bind]
  rfl

theorem wrapped_injective {date date' : String} {config config' : Json}
    (h : wrapped version current date config = wrapped version current date' config') :
    config = config' := by
  simp only [wrapped, Json.obj.injEq, List.cons.injEq, Prod.mk.injEq, true_and] at h
  exact h.1

theorem kept_wrapping (h : Older host current call.config version) :
    ∃ result, kept host (wrappingEngine version current) call = some result ∧
      result.config = wrapped version current call.date call.config := by
  have hanswer := migrate_wrapping host h
  have hkept := @kept_of_older host (wrappingEngine version current) call version h
  rw [hkept]
  cases hmigrate : (wrappingEngine version current).migrate host version call with
  | error e => simp [answer, hmigrate, Except.map] at hanswer
  | ok result =>
      simp only [answer, hmigrate, Except.map, Except.ok.injEq, Prod.mk.injEq] at hanswer
      exact ⟨result, by simp [hanswer.1], hanswer.2⟩

/-- When the cache is transparent to the wrapping migration, no two configs collide. -/
theorem noCollision_of_wrapping {calls : List Call}
    (h : ∀ version, validVersionText host version = true → validVersionText host current = true →
      Transparent host (wrappingEngine version current) calls) :
    NoCollision host current calls := by
  intro call hcall other hother version holder holder' hcollide
  have hvalid : validVersionText host current = true := by
    obtain ⟨-, -, order, -, horder⟩ := holder
    exact valid_of_compareVersions _ horder
  have hkeys := (callKey_eq_iff host holder holder').mpr ⟨rfl, hcollide⟩
  obtain ⟨result, hresult, -⟩ := kept_wrapping host holder
  obtain ⟨first, hfirstkey, hfirstkept, hrest⟩ := Memo.exists_first (callKey host)
    (kept host (wrappingEngine version current)) ⟨call, hcall, rfl, by rw [hresult]; rfl⟩
  obtain ⟨held, hheld⟩ := Option.isSome_iff_exists.mp hfirstkept
  obtain ⟨version', hfirst', -⟩ := answer_of_kept host hheld
  have hfirst : Older host current first.config version' := hfirst'
  obtain ⟨rfl, -⟩ := (callKey_eq_iff host hfirst holder).mp hfirstkey
  have hconfig : held.config = wrapped version' current first.date first.config := by
    obtain ⟨held', hheld', hconfig⟩ := kept_wrapping host hfirst
    rw [hheld] at hheld'
    cases hheld'
    exact hconfig
  -- a later call under the key is answered what is held for the first
  have hsame : ∀ late ∈ calls, Older host current late.config version' →
      callKey host late = callKey host call → first.config = late.config := by
    intro late hlate hlateolder hkey
    obtain ⟨lateResult, hlateResult, -⟩ := kept_wrapping host hlateolder
    rcases hrest late hlate hkey (by rw [hlateResult]; rfl) with rfl | ⟨front, hbegin, hlookup⟩
    · rfl
    · obtain ⟨date, hdate⟩ := h version' holder.2.1 hvalid front late hbegin
      have holderAt : Older host current ({ late with date } : Call).config version' := hlateolder
      rw [run_serve host rfl rfl, uncached_of_older host _ { late with date } hlateolder,
        migrate_wrapping host holderAt] at hdate
      have hhit := (migrateToLatest_hit host (withCache (wrappingEngine version' current) _)
        hlateolder ((cached_withCache rfl _ _).trans (hkey ▸ hlookup.trans hheld))).1
      rw [hhit, hconfig] at hdate
      simp only [Except.ok.injEq, Prod.mk.injEq] at hdate
      exact wrapped_injective hdate.2
  rw [← hsame call hcall holder rfl, hsame other hother holder' hkeys.symm]

def wrappedName (result : Js (Bool × Json)) : Option Json :=
  match result with
  | .ok (_, config) => (config.child? "original").bind (·.child? "name")
  | .error _ => none

/-- A call for a config of version `1.0.0` with a name. -/
def namedCall (name : String) : Call :=
  ⟨.obj [("version", .str "1.0.0"), ("name", .str name)], "", ""⟩

def plainHost : JsHost where
  numberText := toString
  errorText _ := ""

theorem older_namedCall (name : String) :
    Older plainHost "2.0.0" (namedCall name).config "1.0.0" := by
  refine ⟨rfl, by decide +kernel, -1, by decide, ?_⟩
  decide +kernel

end Claim

end Qontinui.ConfigMigration
