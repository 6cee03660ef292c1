import Mathlib.Data.List.Nodup
import Mathlib.Data.Set.Insert
import Mathlib.Data.Set.Subsingleton
import Qontinui.Locks.RedisExclusion

/-!
Who holds the lock when Redis comes and goes. A call looks at one store only, and in
PostgreSQL only at the rows its statement has returned; the lock is exclusive exactly
as long as no call grants it against a holder in what it did not look at.
-/

namespace Qontinui.DistributedLock

open ExpiringKey Runs

def rowHolders (now : Int) (rows : List ProjectLock) : Set Uuid :=
  {user | ∃ row ∈ rows, row.isExpired now = false ∧ row.userId = user}

/-- The users who hold an unexpired lock, on either backend. -/
def World.holders (world : World) : Set Uuid :=
  {user | world.holder = some user} ∪ rowHolders world.now world.rows

def World.Exclusive (world : World) : Prop := Set.Subsingleton world.holders

def World.UniqueIds (world : World) : Prop := (world.rows.map (·.id)).Nodup

/-- The event has PostgreSQL carry out the statement, which is the next of the call. -/
def Commits (world : World) (event : Event) (id : Nat) (request : Request) (newId : Uuid)
    (statement : Statement) : Prop :=
  world.calls id = some ⟨request, .database statement⟩ ∧
    (event = .database id newId .answered ∨ event = .database id newId .lost)

def keptRows (deleted : Option Uuid) (rows : List ProjectLock) : List ProjectLock :=
  rows.filter fun row => some row.id ≠ deleted

/-- The event gives a user the lock, next to `others` who hold it where the call has not
looked: in the other backend, in rows its statement did not return, or anywhere at all when
it brings an expired row back. -/
inductive Grants (world : World) (event : Event) : Uuid → Set Uuid → Prop
  | redis {request : Request} {lockId : Uuid}
      (carries : CarriesOut world event request (.setNx lockId)) (free : world.holder = none)
      (duration : 0 < request.durationMinutes) :
      Grants world event request.userId (rowHolders world.now world.rows)
  | inserted {id : Nat} {request : Request} {newId : Uuid} {expiresAt : Int}
      {deleted : Option Uuid}
      (commits : Commits world event id request newId (.insert expiresAt deleted))
      (fresh : find newId (keptRows deleted world.rows) = none) (ahead : world.now ≤ expiresAt) :
      Grants world event request.userId
        ({user | world.holder = some user} ∪ rowHolders world.now (keptRows deleted world.rows))
  | revived {id : Nat} {request : Request} {newId : Uuid} {expiresAt : Int} {row : ProjectLock}
      (commits : Commits world event id request newId (.update row.id expiresAt))
      (present : row ∈ world.rows) (free : row.freeFor id = true)
      (expired : row.isExpired world.now = true) (ahead : world.now ≤ expiresAt) :
      Grants world event row.userId world.holders

/-- No lock is granted against another user who holds it where the call has not looked. -/
def Unopposed (world : World) (event : Event) : Prop :=
  ∀ user others, Grants world event user others → ∀ other ∈ others, other = user

/-! ## Rows up to their row locks -/

def bare (rows : List ProjectLock) : List ProjectLock :=
  rows.map fun row => { row with lockedBy := none }

@[simp] theorem bare_unlock (call : Nat) (rows : List ProjectLock) :
    bare (unlock call rows) = bare rows := by
  simp only [bare, unlock, List.map_map]
  apply List.map_congr_left
  intro row _
  simp only [Function.comp_apply]
  split <;> rfl

@[simp] theorem bare_lockRow (id : Uuid) (lockedBy : Option Nat) (rows : List ProjectLock) :
    bare (modify id (fun row => { row with lockedBy }) rows) = bare rows := by
  simp only [bare, modify, List.map_map]
  apply List.map_congr_left
  intro row _
  simp only [Function.comp_apply]
  split <;> rfl

@[simp] theorem bare_append (front back : List ProjectLock) :
    bare (front ++ back) = bare front ++ bare back := List.map_append

theorem rowHolders_bare (now : Int) (rows : List ProjectLock) :
    rowHolders now (bare rows) = rowHolders now rows := by
  ext user
  simp only [rowHolders, bare, List.mem_map, Set.mem_ofPred_eq]
  constructor
  · rintro ⟨_, ⟨row, hrow, rfl⟩, hlive, huser⟩
    exact ⟨row, hrow, hlive, huser⟩
  · rintro ⟨row, hrow, hlive, huser⟩
    exact ⟨_, ⟨row, hrow, rfl⟩, hlive, huser⟩

theorem ids_bare (rows : List ProjectLock) : (bare rows).map (·.id) = rows.map (·.id) := by
  simp only [bare, List.map_map]
  rfl

variable {now : Int} {rows rows' : List ProjectLock} {row : ProjectLock} {newId : Uuid}
  {request : Request} {stage : Stage} {statement : Statement} {event : Event} {world : World}

theorem rowHolders_congr (h : bare rows' = bare rows) :
    rowHolders now rows' = rowHolders now rows := by
  rw [← rowHolders_bare, h, rowHolders_bare]

theorem ids_congr (h : bare rows' = bare rows) : rows'.map (·.id) = rows.map (·.id) := by
  rw [← ids_bare, h, ids_bare]

theorem rowHolders_later (now : Int) (elapsed : Nat) (rows : List ProjectLock) :
    rowHolders (now + elapsed) rows ⊆ rowHolders now rows := by
  rintro user ⟨row, hrow, hlive, rfl⟩
  refine ⟨row, hrow, ?_, rfl⟩
  simp only [ProjectLock.isExpired, decide_eq_false_iff_not] at hlive ⊢
  omega

theorem rowHolders_mono (h : rows' ⊆ rows) : rowHolders now rows' ⊆ rowHolders now rows := by
  rintro user ⟨row, hrow, hlive⟩
  exact ⟨row, h hrow, hlive⟩

theorem ids_modify (id : Uuid) (expiresAt : Int) (rows : List ProjectLock) :
    (modify id (fun row => { row with expiresAt }) rows).map (·.id) = rows.map (·.id) := by
  simp only [modify, List.map_map]
  apply List.map_congr_left
  intro row _
  simp only [Function.comp_apply]
  split <;> rfl

theorem find_mem {id : Uuid} (h : find id rows = some row) : row ∈ rows ∧ row.id = id :=
  ⟨List.mem_of_find?_eq_some h, by simpa using List.find?_some h⟩

theorem find_of_mem (hunique : (rows.map (·.id)).Nodup) (hrow : row ∈ rows) :
    find row.id rows = some row := by
  cases hfind : find row.id rows with
  | none => exact absurd (decide_eq_true rfl) (List.find?_eq_none.mp hfind row hrow)
  | some found =>
      obtain ⟨hfound, hid⟩ := find_mem hfind
      rw [List.inj_on_of_nodup_map hunique hfound hrow hid]

/-! ## What a statement does to the rows -/

/-- A statement changes no more than row locks, unless it commits an insert, an update or a
delete. -/
theorem execute_rows {call : Nat}
    (h : statement.execute now call request newId rows = some (rows', stage)) :
    bare rows' = bare rows ∨
      (∃ expiresAt deleted, statement = .insert expiresAt deleted ∧
        find newId (keptRows deleted rows) = none ∧
        bare rows' = bare (keptRows deleted rows ++
          [⟨newId, request.userId, expiresAt, none⟩])) ∨
      (∃ expiresAt row, statement = .update row.id expiresAt ∧ row ∈ rows ∧
        row.freeFor call = true ∧
        bare rows' = bare (modify row.id (fun row => { row with expiresAt }) rows)) ∨
      ∃ id, statement = .delete id ∧ bare rows' = bare (rows.filter fun row => row.id ≠ id) := by
  cases statement with
  | select =>
      cases h
      exact .inl rfl
  | lockRows todo locked =>
      cases todo with
      | nil =>
          simp only [Statement.execute] at h
          split at h
          · cases h
            exact .inl rfl
          · cases h
            exact .inl (bare_unlock call rows)
      | cons id todo =>
          simp only [Statement.execute] at h
          split at h
          · cases h
            exact .inl rfl
          · split at h
            · cases h
              exact .inl (bare_lockRow id (some call) rows)
            · cases h
  | flushDelete id =>
      cases h
      exact .inl rfl
  | insert expiresAt deleted =>
      simp only [Statement.execute] at h
      split at h
      · cases h
        exact .inl (bare_unlock call rows)
      · next hfresh =>
          cases h
          refine .inr (.inl ⟨expiresAt, deleted, rfl, by simpa [keptRows] using hfresh, ?_⟩)
          simp only [bare_append, bare_unlock, keptRows]
  | update id expiresAt =>
      simp only [Statement.execute] at h
      split at h
      · cases h
        exact .inl (bare_unlock call rows)
      · next row hrow =>
          obtain ⟨hmem, rfl⟩ := find_mem hrow
          split at h
          · next hfree =>
              simp only [Option.some.injEq, Prod.mk.injEq] at h
              obtain ⟨rfl, -⟩ := h
              exact .inr (.inr (.inl ⟨expiresAt, row, rfl, hmem, hfree, bare_unlock _ _⟩))
          · cases h
  | delete id =>
      simp only [Statement.execute] at h
      split at h
      · cases h
        exact .inr (.inr (.inr ⟨id, rfl, bare_unlock _ _⟩))
      · cases h
  | reload id expiresAt =>
      simp only [Statement.execute] at h
      split at h
      · cases h
        exact .inl (bare_unlock call rows)
      · cases h
        exact .inl rfl

/-! ## What a step does to the holders -/

theorem step_carriesOut {command : RedisCommand} (h : CarriesOut world event request command) :
    (world.step event).key = command.execute world.now request world.key ∧
      (world.step event).rows = world.rows ∧ (world.step event).now = world.now := by
  obtain ⟨id, hcall, rfl | rfl | rfl⟩ := h
  · simp only [World.step, hcall]
    exact ⟨rfl, rfl, rfl⟩
  · simp only [World.step, hcall]
    exact ⟨rfl, rfl, rfl⟩
  · simp only [World.step, hcall, and_self]

section

variable {id : Nat}
  (hexecute : statement.execute world.now id request newId world.rows = some (rows, stage))
include hexecute

theorem step_commits (h : Commits world event id request newId statement) :
    bare (world.step event).rows = bare rows ∧ (world.step event).key = world.key ∧
      (world.step event).now = world.now := by
  obtain ⟨hcall, rfl | rfl⟩ := h
  · simp only [World.step, hcall, World.database, hexecute]
    exact ⟨rfl, rfl, rfl⟩
  · simp only [World.step, hcall, World.database, hexecute]
    exact ⟨bare_unlock id rows, rfl, rfl⟩

theorem holders_commits (h : Commits world event id request newId statement) :
    (world.step event).holders =
      {user | world.holder = some user} ∪ rowHolders world.now rows := by
  obtain ⟨hrows, hkey, hnow⟩ := step_commits hexecute h
  simp only [World.holders, World.holder, hkey, hnow, rowHolders_congr hrows]

end

variable {user : Uuid}

theorem mem_rowHolders_concat :
    user ∈ rowHolders now (rows ++ [row]) ↔
      user ∈ rowHolders now rows ∨ row.isExpired now = false ∧ row.userId = user := by
  simp only [rowHolders, Set.mem_ofPred_eq, List.mem_append, List.mem_singleton, or_and_right,
    exists_or, exists_eq_left]

theorem mem_rowHolders_modify {expiresAt : Int} (hunique : (rows.map (·.id)).Nodup)
    (hrow : row ∈ rows) :
    user ∈ rowHolders now (modify row.id (fun row => { row with expiresAt }) rows) ↔
      (∃ other ∈ rows, other ≠ row ∧ other.isExpired now = false ∧ other.userId = user) ∨
        now ≤ expiresAt ∧ row.userId = user := by
  have hid {other : ProjectLock} (hother : other ∈ rows) : other.id = row.id ↔ other = row :=
    ⟨fun h => List.inj_on_of_nodup_map hunique hother hrow h, fun h => by rw [h]⟩
  simp only [rowHolders, modify, Set.mem_ofPred_eq, List.mem_map]
  constructor
  · rintro ⟨_, ⟨other, hother, rfl⟩, hlive, huser⟩
    split at hlive
    · next heq =>
        obtain rfl := (hid hother).mp heq
        rw [if_pos rfl] at huser
        refine .inr ⟨?_, huser⟩
        simp only [ProjectLock.isExpired, decide_eq_false_iff_not] at hlive
        omega
    · next hne =>
        rw [if_neg hne] at huser
        exact .inl ⟨other, hother, fun heq => hne ((hid hother).mpr heq), hlive, huser⟩
  · rintro (⟨other, hother, hne, hlive, huser⟩ | ⟨hahead, huser⟩)
    · refine ⟨_, ⟨other, hother, rfl⟩, ?_⟩
      rw [if_neg fun heq => hne ((hid hother).mp heq)]
      exact ⟨hlive, huser⟩
    · refine ⟨_, ⟨row, hrow, rfl⟩, ?_⟩
      rw [if_pos rfl]
      refine ⟨?_, huser⟩
      simp only [ProjectLock.isExpired, decide_eq_false_iff_not]
      omega

/-- A grant adds its user to those it did not look at. -/
theorem holders_of_grants {others : Set Uuid} (hunique : world.UniqueIds)
    (h : Grants world event user others) : (world.step event).holders = insert user others := by
  cases h with
  | @redis request lockId carries free duration =>
      obtain ⟨hkey, hrows, hnow⟩ := step_carriesOut carries
      have hset : setNxEx world.now ⟨request.userId, lockId⟩ request.ttlSeconds world.key =
          some (true, some ⟨⟨request.userId, lockId⟩,
            deadline world.now request.ttlSeconds⟩) := by
        refine setNxEx_eq_true_iff.mpr ⟨?_, Option.map_eq_none_iff.mp free, rfl⟩
        simp only [Request.ttlSeconds]
        omega
      ext other
      simp only [World.holders, World.holder, hkey, hrows, hnow, RedisCommand.execute, hset,
        get_setNxEx hset, Set.mem_union, Set.mem_ofPred_eq, Set.mem_insert_iff, Option.map_some,
        Option.some.injEq]
      exact or_congr_left eq_comm
  | @inserted id request newId expiresAt deleted commits fresh ahead =>
      have hexecute : (Statement.insert expiresAt deleted).execute world.now id request newId
          world.rows = some (unlock id (keptRows deleted world.rows) ++
            [⟨newId, request.userId, expiresAt, none⟩],
              .database (.reload newId (some expiresAt))) := by
        simp only [keptRows] at fresh ⊢
        simp only [Statement.execute, fresh, Option.isSome_none, Bool.false_eq_true, if_false]
      have hlive : (ProjectLock.mk newId request.userId expiresAt none).isExpired world.now =
          false := by
        simp only [ProjectLock.isExpired, decide_eq_false_iff_not]
        omega
      rw [holders_commits hexecute commits]
      ext other
      have hkept : rowHolders world.now (unlock id (keptRows deleted world.rows)) =
          rowHolders world.now (keptRows deleted world.rows) :=
        rowHolders_congr (bare_unlock id _)
      simp only [Set.mem_union, mem_rowHolders_concat, hlive, hkept, Set.mem_insert_iff, true_and]
      rw [or_comm (a := other = request.userId), or_assoc, eq_comm (a := request.userId)]
  | @revived id request newId expiresAt row commits present free expired ahead =>
      obtain ⟨stage, hexecute⟩ : ∃ stage, (Statement.update row.id expiresAt).execute world.now id
          request newId world.rows = some (unlock id
            (modify row.id (fun row => { row with expiresAt }) world.rows), stage) := by
        simp only [Statement.execute, find_of_mem hunique present, free, if_true]
        exact ⟨_, rfl⟩
      have hothers (other : Uuid) : other ∈ rowHolders world.now world.rows ↔
          ∃ row' ∈ world.rows, row' ≠ row ∧ row'.isExpired world.now = false ∧
            row'.userId = other := by
        refine exists_congr fun row' => and_congr_right fun _ => ⟨?_, And.right⟩
        rintro ⟨hlive, huser⟩
        refine ⟨?_, hlive, huser⟩
        rintro rfl
        rw [expired] at hlive
        cases hlive
      rw [holders_commits hexecute commits, rowHolders_congr (bare_unlock _ _)]
      ext other
      simp only [World.holders, Set.mem_union, Set.mem_insert_iff, hothers,
        mem_rowHolders_modify hunique present, ahead, true_and]
      rw [or_comm (a := other = row.userId), or_assoc, eq_comm (a := row.userId)]

theorem holders_of_ungranted {id : Nat} (hunique : world.UniqueIds)
    (h : ∀ user others, ¬ Grants world event user others)
    (hcommits : Commits world event id request newId statement)
    (hexecute : statement.execute world.now id request newId world.rows = some (rows, stage)) :
    (world.step event).holders ⊆ world.holders := by
  rw [holders_commits hexecute hcommits]
  apply Set.union_subset_union_right
  obtain hsame | ⟨expiresAt, deleted, rfl, hfresh, hrows⟩ |
    ⟨expiresAt, row, rfl, hrow, hfree, hrows⟩ | ⟨rowId, rfl, hrows⟩ := execute_rows hexecute
  · rw [rowHolders_congr hsame]
  · rw [rowHolders_congr hrows]
    intro user huser
    obtain hkept | ⟨hlive, -⟩ := mem_rowHolders_concat.mp huser
    · exact rowHolders_mono (List.filter_subset_self _) hkept
    · refine (h _ _ (.inserted hcommits hfresh ?_)).elim
      simp only [ProjectLock.isExpired, decide_eq_false_iff_not] at hlive
      omega
  · rw [rowHolders_congr hrows]
    intro user huser
    obtain ⟨other, hother, -, hlive, hother'⟩ | ⟨hahead, huser⟩ :=
      (mem_rowHolders_modify hunique hrow).mp huser
    · exact ⟨other, hother, hlive, hother'⟩
    · refine ⟨row, hrow, ?_, huser⟩
      cases hexpired : row.isExpired world.now with
      | false => rfl
      | true => exact (h _ _ (.revived hcommits hrow hfree hexpired hahead)).elim
  · rw [rowHolders_congr hrows]
    exact rowHolders_mono (List.filter_subset_self _)

theorem database_step (world : World) (id : Nat) (newId : Uuid) (delivery : Delivery) :
    (bare (world.step (.database id newId delivery)).rows = bare world.rows ∧
        (world.step (.database id newId delivery)).holder = world.holder ∧
        (world.step (.database id newId delivery)).now = world.now) ∨
      ∃ request statement rows stage,
        Commits world (.database id newId delivery) id request newId statement ∧
        statement.execute world.now id request newId world.rows = some (rows, stage) := by
  simp only [World.step]
  split
  · next request statement hcall =>
      cases hexecute : statement.execute world.now id request newId world.rows with
      | none =>
          cases delivery with
          | answered | lost =>
              simp only [World.database, hexecute]
              exact .inl ⟨trivial, trivial, trivial⟩
          | failed => exact .inl ⟨bare_unlock id world.rows, rfl, rfl⟩
      | some result =>
          cases delivery with
          | answered =>
              exact .inr ⟨request, statement, _, _, ⟨hcall, .inl rfl⟩, hexecute⟩
          | lost => exact .inr ⟨request, statement, _, _, ⟨hcall, .inr rfl⟩, hexecute⟩
          | failed => exact .inl ⟨bare_unlock id world.rows, rfl, rfl⟩
  · exact .inl ⟨rfl, rfl, rfl⟩

/-- A step that is no grant makes nobody a holder. -/
theorem holders_of_no_grant (hunique : world.UniqueIds)
    (h : ∀ user others, ¬ Grants world event user others) :
    (world.step event).holders ⊆ world.holders := by
  have hredis (hrows : (world.step event).rows = world.rows)
      (hnow : (world.step event).now = world.now) :
      (world.step event).holders ⊆ world.holders := by
    rw [World.holders, World.holders, hrows, hnow]
    apply Set.union_subset_union_left
    intro user huser
    obtain heq | ⟨hnone, -⟩ | ⟨request, lockId, hcarries, hfree, hduration, -⟩ :=
      holder_step world event
    · exact heq ▸ huser
    · rw [Set.mem_ofPred_eq, hnone] at huser
      cases huser
    · exact (h _ _ (.redis hcarries hfree hduration)).elim
  cases event with
  | tick elapsed =>
      apply Set.union_subset_union
      · intro user huser
        obtain heq | hnone := get_later world.now elapsed world.key
        · simp only [World.step, World.holder, heq, Set.mem_ofPred_eq] at huser
          exact huser
        · simp only [World.step, World.holder, hnone, Set.mem_ofPred_eq] at huser
          cases huser
      · exact rowHolders_later world.now elapsed world.rows
  | call | ping =>
      apply hredis
      all_goals
        simp only [World.step]
        split <;> rfl
  | redis id delivery =>
      apply hredis
      all_goals
        simp only [World.step]
        split
        · cases delivery <;> rfl
        · rfl
  | resend id =>
      apply hredis
      all_goals
        simp only [World.step]
        split <;> rfl
  | database id newId delivery =>
      obtain ⟨hrows, hholder, hnow⟩ | ⟨request, statement, rows, stage, hcommits, hexecute⟩ :=
        database_step world id newId delivery
      · rw [World.holders, World.holders, hholder, hnow, rowHolders_congr hrows]
      · exact holders_of_ungranted hunique h hcommits hexecute

theorem uniqueIds_step (event : Event) (hunique : world.UniqueIds) :
    (world.step event).UniqueIds := by
  have hsame (hrows : (world.step event).rows = world.rows) : (world.step event).UniqueIds := by
    rw [World.UniqueIds, hrows]
    exact hunique
  cases event with
  | tick => exact hunique
  | call | ping | resend =>
      apply hsame
      simp only [World.step]
      split <;> rfl
  | redis id delivery =>
      apply hsame
      simp only [World.step]
      split
      · cases delivery <;> rfl
      · rfl
  | database id newId delivery =>
      obtain ⟨hrows, -⟩ | ⟨request, statement, rows, stage, hcommits, hexecute⟩ :=
        database_step world id newId delivery
      · rw [World.UniqueIds, ids_congr hrows]
        exact hunique
      · rw [World.UniqueIds, ids_congr (step_commits hexecute hcommits).1]
        obtain hrows | ⟨expiresAt, deleted, -, hfresh, hrows⟩ | ⟨expiresAt, row, -, -, -, hrows⟩ |
          ⟨rowId, -, hrows⟩ := execute_rows hexecute
        · rw [ids_congr hrows]
          exact hunique
        · rw [ids_congr hrows, List.map_append, List.map_singleton]
          refine List.Nodup.append (hunique.sublist (List.filter_sublist.map _))
            (List.nodup_singleton _) (List.disjoint_singleton.mpr ?_)
          rw [List.mem_map]
          rintro ⟨row, hrow, hid⟩
          exact List.find?_eq_none.mp hfresh row hrow (decide_eq_true hid)
        · rw [ids_congr hrows, ids_modify]
          exact hunique
        · rw [ids_congr hrows]
          exact hunique.sublist (List.filter_sublist.map _)

theorem subsingleton_insert_iff {α : Type*} {a : α} {s : Set α} :
    (insert a s).Subsingleton ↔ ∀ b ∈ s, b = a := by
  constructor
  · intro h b hb
    exact h (Set.mem_insert_of_mem a hb) (Set.mem_insert a s)
  · intro h b hb c hc
    have hall (d : α) (hd : d ∈ insert a s) : d = a := (Set.mem_insert_iff.mp hd).elim id (h d)
    rw [hall b hb, hall c hc]

theorem exclusive_step_iff (event : Event) (hexclusive : world.Exclusive)
    (hunique : world.UniqueIds) : (world.step event).Exclusive ↔ Unopposed world event := by
  constructor
  · intro hafter user others hgrants
    rw [World.Exclusive, holders_of_grants hunique hgrants] at hafter
    exact subsingleton_insert_iff.mp hafter
  · intro hunopposed
    by_cases hgrant : ∃ user others, Grants world event user others
    · obtain ⟨user, others, hgrants⟩ := hgrant
      rw [World.Exclusive, holders_of_grants hunique hgrants]
      exact subsingleton_insert_iff.mpr (hunopposed user others hgrants)
    · apply Set.Subsingleton.anti hexclusive
      apply holders_of_no_grant hunique
      intro user others hgrants
      exact hgrant ⟨user, others, hgrants⟩

/-- Along a run the lock is exclusive all the time exactly when every lock is granted
unopposed. -/
theorem exclusive_along_iff (world : World) (events : List Event)
    (hexclusive : world.Exclusive) (hunique : world.UniqueIds) :
    (∀ front, front <+: events → (run World.step world front).Exclusive) ↔
      Meets World.step Unopposed world events := by
  have hassumed : Meets World.step (fun _ _ => True) world events :=
    meets_of_forall World.step (fun _ _ => trivial) world
  refine property_along_iff World.step (fun world => world.Exclusive ∧ world.UniqueIds)
    World.Exclusive ?_ ?_ ?_ ⟨hexclusive, hunique⟩ hassumed
  · exact fun _ h => h.1
  · exact fun _ event h _ hafter => ⟨hafter, uniqueIds_step event h.2⟩
  · exact fun _ event h _ => exclusive_step_iff event h.1 h.2

/-- A lock is acquired while Redis does not answer, another when it does. -/
def failover : List Event :=
  [.call 0 0 ⟨.acquireLock 10, 1, 5⟩, .ping 0 false, .database 0 0 .answered,
    .database 0 0 .answered, .database 0 11 .answered, .database 0 0 .answered,
    .call 1 0 ⟨.acquireLock 20, 2, 5⟩, .ping 1 true, .redis 1 .answered, .redis 1 .answered]

theorem holders_after_failover :
    (1 : Uuid) ∈ (run World.step { now := 0 } failover).holders ∧
      (2 : Uuid) ∈ (run World.step { now := 0 } failover).holders := by
  constructor
  · refine .inr ⟨⟨11, 1, 300000, none⟩, ?_, rfl, rfl⟩
    decide +kernel
  · apply Or.inl
    change World.holder _ = some 2
    decide +kernel

theorem idle_exclusive : ({ now := 0 } : World).Exclusive := by
  rintro user (h | ⟨row, hrow, -⟩)
  · cases h
  · cases hrow

theorem failover_opposed : ¬ Meets World.step Unopposed { now := 0 } failover := by
  intro h
  have hexclusive := (exclusive_along_iff { now := 0 } failover idle_exclusive List.nodup_nil).mpr h
    failover (List.prefix_refl _)
  have heq := hexclusive holders_after_failover.1 holders_after_failover.2
  cases heq

theorem failover_not_exclusive :
    ¬ ∀ events : List Event, (run World.step { now := 0 } events).Exclusive := by
  intro h
  have heq := h failover holders_after_failover.1 holders_after_failover.2
  cases heq

end Qontinui.DistributedLock
