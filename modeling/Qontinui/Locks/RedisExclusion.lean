import Qontinui.Base.Runs
import Qontinui.Locks.DistributedLock

/-!
What the Redis commands of the lock service do to each other's locks. Ownership is
read with `GET` and acted on later, so a call is right as long as the lock it was
shown stays, and a release as long as nobody else takes the key meanwhile.
-/

namespace Qontinui.DistributedLock

open ExpiringKey Runs

/-- The user whose value the key holds. -/
def World.holder (world : World) : Option Uuid := (get world.now world.key).map (·.userId)

/-- The event has Redis carry out the command, which is the next of a call. -/
def CarriesOut (world : World) (event : Event) (request : Request) (command : RedisCommand) :
    Prop :=
  ∃ id, world.calls id = some ⟨request, .redis command⟩ ∧
    (event = .redis id .answered ∨ event = .redis id .lost ∨ event = .resend id)

/-- A success told to a user who acquires or refreshes is true, and a lock is deleted or
extended for the user whose value it holds. -/
structure KeepsExclusion (world : World) (event : Event) : Prop where
  truthful : ∀ id request command answer, event = .redis id .answered →
    world.calls id = some ⟨request, .redis command⟩ →
    (∀ lockId, request.operation ≠ .releaseLock lockId) →
    command.next world.now request world.key = .returned answer → answer.success = true →
    (world.step event).holder = some request.userId
  own : ∀ request command user, CarriesOut world event request command →
    (command = .delete ∨ (∃ lockId, command = .extend lockId) ∨ command = .refresh) →
    world.holder = some user → user = request.userId

/-- The call has been shown its user's own lock and is about to report it. -/
def RedisCommand.confirming : RedisCommand → Bool
  | .extend _ | .readTtl _ | .refresh => true
  | .get | .setNx _ | .delete => false

def RedisCommand.removes (request : Request) : RedisCommand → Bool
  | .delete => true
  | .extend _ | .refresh => request.durationMinutes ≤ 0
  | .get | .setNx _ | .readTtl _ => false

/-- The event is the expiry of the key or a command that takes its value away. -/
def Removes (world : World) (event : Event) : Prop :=
  (∃ elapsed, event = .tick elapsed ∧ get (world.now + elapsed) world.key = none) ∨
    ∃ request command, CarriesOut world event request command ∧ command.removes request = true

/-- No lock goes while a call that was shown it has yet to report it, and nobody takes the
key while another user's release stands between its check and its `DELETE`. -/
structure Undisturbed (world : World) (event : Event) : Prop where
  lasts : world.holder ≠ none → Removes world event →
    ∀ id request command, world.calls id = some ⟨request, .redis command⟩ →
      command.confirming = false
  unclaimed : ∀ request lockId, CarriesOut world event request (.setNx lockId) →
    world.holder = none → 0 < request.durationMinutes →
    ∀ id other, world.calls id = some ⟨other, .redis .delete⟩ → other.userId = request.userId

/-! ## What one step does -/

theorem execute_holder (now : Int) (request : Request) (slot : Slot LockValue)
    (command : RedisCommand) :
    get now (command.execute now request slot) = get now slot ∨
      get now (command.execute now request slot) = none ∧ command.removes request = true ∨
      ∃ lockId, command = .setNx lockId ∧ get now slot = none ∧ 0 < request.durationMinutes ∧
        get now (command.execute now request slot) = some ⟨request.userId, lockId⟩ := by
  have hexpire : get now (expire now request.ttlSeconds slot) = get now slot ∨
      get now (expire now request.ttlSeconds slot) = none ∧ request.durationMinutes ≤ 0 := by
    rw [get_expire, Request.ttlSeconds]
    split
    · exact .inr ⟨rfl, by omega⟩
    · exact .inl rfl
  cases command with
  | get | readTtl => exact .inl rfl
  | delete => exact .inr (.inl ⟨rfl, rfl⟩)
  | extend | refresh =>
      simp only [RedisCommand.execute, RedisCommand.removes, decide_eq_true_eq]
      exact hexpire.imp_right .inl
  | setNx lockId =>
      simp only [RedisCommand.execute]
      split
      · exact .inl rfl
      · next done slot' hset =>
          cases done with
          | false => exact .inl (by rw [setNxEx_eq_false hset])
          | true =>
              obtain ⟨hseconds, hfree, -⟩ := setNxEx_eq_true_iff.mp hset
              refine .inr (.inr ⟨lockId, rfl, hfree, ?_, get_setNxEx hset⟩)
              simp only [Request.ttlSeconds] at hseconds
              omega

@[simp] theorem holder_setStage (world : World) (id : Nat) (request : Request) (stage : Stage) :
    (world.setStage id request stage).holder = world.holder := rfl

variable {command : RedisCommand} {event : Event} {request : Request} {world : World}

theorem holder_execute (h : CarriesOut world event request command) :
    { world with key := command.execute world.now request world.key }.holder = world.holder ∨
      { world with key := command.execute world.now request world.key }.holder = none ∧
        Removes world event ∨
      ∃ request' lockId, CarriesOut world event request' (.setNx lockId) ∧ world.holder = none ∧
        0 < request'.durationMinutes ∧
        { world with key := command.execute world.now request world.key }.holder =
          some request'.userId := by
  simp only [World.holder]
  obtain heq | ⟨hnone, hremoves⟩ | ⟨lockId, rfl, hfree, hduration, hset⟩ :=
    execute_holder world.now request world.key command
  · exact .inl (by rw [heq])
  · exact .inr (.inl ⟨by rw [hnone]; rfl, .inr ⟨request, command, h, hremoves⟩⟩)
  · exact .inr (.inr ⟨request, lockId, h, by rw [hfree]; rfl, hduration, by rw [hset]; rfl⟩)

/-- A step keeps the holder, removes the lock, or is the `SET` of a new one where there is
none. -/
theorem holder_step (world : World) (event : Event) :
    (world.step event).holder = world.holder ∨
      (world.step event).holder = none ∧ Removes world event ∨
      ∃ request lockId, CarriesOut world event request (.setNx lockId) ∧ world.holder = none ∧
        0 < request.durationMinutes ∧ (world.step event).holder = some request.userId := by
  cases event with
  | tick elapsed =>
      simp only [World.step, World.holder]
      obtain heq | hnone := get_later world.now elapsed world.key
      · exact .inl (by rw [heq])
      · exact .inr (.inl ⟨by rw [hnone]; rfl, .inl ⟨elapsed, rfl, hnone⟩⟩)
  | call | ping =>
      simp only [World.step]
      split
      · exact .inl rfl
      · exact .inl rfl
  | redis id delivery =>
      simp only [World.step]
      split
      · next request command hcall =>
          cases delivery with
          | answered => exact holder_execute ⟨id, hcall, .inl rfl⟩
          | lost => exact holder_execute ⟨id, hcall, .inr (.inl rfl)⟩
          | failed => exact .inl rfl
      · exact .inl rfl
  | resend id =>
      simp only [World.step]
      split
      · next request command hcall => exact holder_execute ⟨id, hcall, .inr (.inr rfl)⟩
      · exact .inl rfl
  | database id newId delivery =>
      simp only [World.step]
      split
      · next request statement hcall =>
          cases delivery with
          | answered | lost =>
              simp only [World.database]
              split
              · exact .inl rfl
              · exact .inl rfl
          | failed => exact .inl rfl
      · exact .inl rfl

/-- How a call comes to its next command: the value it read was right for it, or it has
extended its lock. -/
theorem next_eq_redis {now : Int} {slot : Slot LockValue} {previous : RedisCommand}
    (h : previous.next now request slot = .redis command) :
    (∃ lockId, command = .setNx lockId) ∨
      (∃ existingLockId, previous = .extend existingLockId ∧
        command = .readTtl existingLockId) ∨
      previous = .get ∧ command.confirming = true ∧
        (get now slot).map (·.userId) = some request.userId ∨
      previous = .get ∧ command = .delete ∧ (∃ lockId, request.operation = .releaseLock lockId) ∧
        (get now slot).map (·.userId) = some request.userId := by
  cases previous with
  | extend existingLockId =>
      cases h
      exact .inr (.inl ⟨existingLockId, rfl, rfl⟩)
  | readTtl | refresh | delete => cases h
  | setNx lockId =>
      simp only [RedisCommand.next] at h
      split at h <;> cases h
  | get =>
      simp only [RedisCommand.next, RedisCommand.afterGet] at h
      split at h
      · cases h
        exact .inl ⟨_, rfl⟩
      · next value _ hget =>
          split at h
          · next huser =>
              cases h
              exact .inr (.inr (.inl ⟨rfl, rfl, by rw [hget, Option.map_some, huser]⟩))
          · cases h
      · cases h
      · cases h
      · next lockId value hoperation hget =>
          split at h
          · cases h
          · next hown =>
              cases h
              have huser : value.userId = request.userId := by
                by_contra hne
                exact hown (.inl hne)
              refine .inr (.inr (.inr ⟨rfl, rfl, ⟨lockId, hoperation⟩, ?_⟩))
              rw [hget, Option.map_some, huser]
      · next lockId value hoperation hget =>
          split at h
          · cases h
          · next hown =>
              cases h
              have huser : value.userId = request.userId := by
                by_contra hne
                exact hown (.inl hne)
              exact .inr (.inr (.inl ⟨rfl, rfl, by rw [hget, Option.map_some, huser]⟩))

variable {id : Nat}

theorem calls_setStage {other : Nat} {stage : Stage} {call : Call}
    (h : (world.setStage id request stage).calls other = some call) :
    other = id ∧ call = ⟨request, stage⟩ ∨ world.calls other = some call := by
  simp only [World.setStage, Function.update_apply] at h
  split at h
  · next heq =>
      cases h
      exact .inl ⟨heq, rfl⟩
  · exact .inr h

theorem chosen_eq_redis {service : Service} (h : service.chosen = .redis command) :
    command = .get := by
  simp only [Service.chosen] at h
  split at h
  · cases h
    rfl
  · cases h

theorem getRedisClient_eq_redis {index : Nat} {service : Service}
    (h : (service.getRedisClient index).2 = .redis command) : command = .get := by
  simp only [Service.getRedisClient] at h
  split at h
  · cases h
  · split at h
    · exact chosen_eq_redis h
    · cases h

/-- A statement never leads to Redis. -/
theorem execute_ne_redis {now : Int} {call : Nat} {newId : Uuid} {rows rows' : List ProjectLock}
    {statement : Statement} :
    statement.execute now call request newId rows ≠ some (rows', .redis command) := by
  intro h
  cases statement with
  | select =>
      simp only [Statement.execute, Statement.afterSelect, Option.some.injEq, Prod.mk.injEq] at h
      replace h := h.2
      split at h
      · cases h
      · split at h <;> cases h
      · split at h <;> cases h
  | lockRows todo locked =>
      cases todo with
      | nil =>
          simp only [Statement.execute] at h
          split at h
          · cases h
          · simp only [Statement.afterLock, Option.some.injEq, Prod.mk.injEq] at h
            replace h := h.2
            split at h
            · cases h
            · split at h
              · cases h
              · split at h <;> cases h
            · cases h
      | cons id todo =>
          simp only [Statement.execute] at h
          split at h
          · cases h
          · split at h <;> cases h
  | flushDelete id => cases h
  | insert expiresAt deleted =>
      simp only [Statement.execute] at h
      split at h <;> cases h
  | update id expiresAt =>
      simp only [Statement.execute] at h
      split at h
      · cases h
      · split at h
        · simp only [Option.some.injEq, Prod.mk.injEq] at h
          replace h := h.2
          split at h <;> cases h
        · cases h
  | delete | reload =>
      simp only [Statement.execute] at h
      split at h <;> cases h

/-- A call that stands at a Redis command stood there before, has just begun, or has had the
answer to the command before. -/
theorem redis_call_step (h : (world.step event).calls id = some ⟨request, .redis command⟩) :
    world.calls id = some ⟨request, .redis command⟩ ∨ command = .get ∨
      ∃ previous, event = .redis id .answered ∧
        world.calls id = some ⟨request, .redis previous⟩ ∧
        previous.next world.now request world.key = .redis command := by
  cases event with
  | tick elapsed => exact .inl h
  | call other service request' =>
      simp only [World.step] at h
      split at h
      · obtain ⟨-, hcall⟩ | hcall := calls_setStage h
        · injection hcall with _ hstage
          exact .inr (.inl (getRedisClient_eq_redis hstage.symm))
        · exact .inl hcall
      · exact .inl h
  | ping other answered =>
      simp only [World.step] at h
      split at h
      · obtain ⟨-, hcall⟩ | hcall := calls_setStage h
        · injection hcall with _ hstage
          exact .inr (.inl (chosen_eq_redis hstage.symm))
        · exact .inl hcall
      · exact .inl h
  | redis other delivery =>
      simp only [World.step] at h
      split at h
      · next request' previous hprevious =>
          cases delivery with
          | answered =>
              obtain ⟨rfl, hcall⟩ | hcall := calls_setStage h
              · injection hcall with hrequest hstage
                subst hrequest
                exact .inr (.inr ⟨previous, rfl, hprevious, hstage.symm⟩)
              · exact .inl hcall
          | lost | failed =>
              obtain ⟨-, hcall⟩ | hcall := calls_setStage h
              · cases hcall
              · exact .inl hcall
      · exact .inl h
  | resend other =>
      simp only [World.step] at h
      split at h
      · exact .inl h
      · exact .inl h
  | database other newId delivery =>
      simp only [World.step] at h
      split at h
      · cases delivery with
        | answered =>
            simp only [World.database] at h
            split at h
            · exact .inl h
            · next rows stage hexecute =>
                obtain ⟨-, hcall⟩ | hcall := calls_setStage h
                · injection hcall with _ hstage
                  rw [← hstage] at hexecute
                  exact (execute_ne_redis hexecute).elim
                · exact .inl hcall
        | lost =>
            simp only [World.database] at h
            split at h
            · exact .inl h
            · obtain ⟨-, hcall⟩ | hcall := calls_setStage h
              · cases hcall
              · exact .inl hcall
        | failed =>
            obtain ⟨-, hcall⟩ | hcall := calls_setStage h
            · cases hcall
            · exact .inl hcall
      · exact .inl h

/-! ## What a run keeps -/

/-- Calls on Redis act for the user who holds the key: one that is about to report its lock
has it, one that is about to delete a lock finds its own or none. -/
structure InOrder (world : World) : Prop where
  confirming : ∀ id request command, world.calls id = some ⟨request, .redis command⟩ →
    command.confirming = true → world.holder = some request.userId
  deleting : ∀ id request, world.calls id = some ⟨request, .redis .delete⟩ →
    ∀ user, world.holder = some user → user = request.userId
  releasing : ∀ id request, world.calls id = some ⟨request, .redis .delete⟩ →
    ∃ lockId, request.operation = .releaseLock lockId

theorem holder_kept {user : Uuid} (h : world.holder = some user) (hkept : ¬ Removes world event) :
    (world.step event).holder = some user := by
  obtain heq | ⟨-, hremoves⟩ | ⟨_, _, _, hnone, -⟩ := holder_step world event
  · rw [heq, h]
  · exact (hkept hremoves).elim
  · rw [h] at hnone
    cases hnone

theorem confirming_kept (hundisturbed : Undisturbed world event) (horder : InOrder world)
    (hcall : world.calls id = some ⟨request, .redis command⟩)
    (hconfirming : command.confirming = true) :
    (world.step event).holder = some request.userId := by
  have hholder := horder.confirming id request command hcall hconfirming
  apply holder_kept hholder
  intro hremoves
  have hnot := hundisturbed.lasts (by rw [hholder]; nofun) hremoves id request command hcall
  rw [hnot] at hconfirming
  cases hconfirming

theorem holder_get (h : world.calls id = some ⟨request, .redis .get⟩) :
    (world.step (.redis id .answered)).holder = world.holder := by
  simp only [World.step, h, World.redis, holder_setStage]
  rfl

theorem inOrder_step (hundisturbed : Undisturbed world event) (horder : InOrder world) :
    InOrder (world.step event) where
  confirming id request command hcall hconfirming := by
    obtain hbefore | rfl | ⟨previous, rfl, hprevious, hnext⟩ := redis_call_step hcall
    · exact confirming_kept hundisturbed horder hbefore hconfirming
    · cases hconfirming
    · obtain ⟨_, rfl⟩ | ⟨_, rfl, rfl⟩ | ⟨rfl, -, hread⟩ | ⟨-, rfl, -⟩ := next_eq_redis hnext
      · cases hconfirming
      · exact confirming_kept hundisturbed horder hprevious rfl
      · rw [holder_get hprevious]
        exact hread
      · cases hconfirming
  deleting id request hcall user huser := by
    obtain hbefore | hget | ⟨previous, rfl, hprevious, hnext⟩ := redis_call_step hcall
    · obtain heq | ⟨hnone, -⟩ | ⟨taker, lockId, htakes, hfree, hduration, hset⟩ :=
        holder_step world event
      · exact horder.deleting id request hbefore user (heq ▸ huser)
      · rw [hnone] at huser
        cases huser
      · rw [hset] at huser
        cases huser
        exact (hundisturbed.unclaimed taker lockId htakes hfree hduration id request hbefore).symm
    · cases hget
    · obtain ⟨_, hset⟩ | ⟨_, _, httl⟩ | ⟨-, hconfirming, -⟩ | ⟨rfl, -, -, hread⟩ :=
        next_eq_redis hnext
      · cases hset
      · cases httl
      · cases hconfirming
      · rw [holder_get hprevious, World.holder, hread] at huser
        cases huser
        rfl
  releasing id request hcall := by
    obtain hbefore | hget | ⟨previous, rfl, hprevious, hnext⟩ := redis_call_step hcall
    · exact horder.releasing id request hbefore
    · cases hget
    · obtain ⟨_, hset⟩ | ⟨_, _, httl⟩ | ⟨-, hconfirming, -⟩ | ⟨-, -, hoperation, -⟩ :=
        next_eq_redis hnext
      · cases hset
      · cases httl
      · cases hconfirming
      · exact hoperation

/-- The step lemma: in order, a step nothing disturbs keeps exclusion. -/
theorem keepsExclusion_step (hundisturbed : Undisturbed world event) (horder : InOrder world) :
    KeepsExclusion world event where
  truthful id request command answer hevent hcall hoperation hnext hsuccess := by
    subst hevent
    cases command with
    | get =>
        simp only [RedisCommand.next, RedisCommand.afterGet] at hnext
        split at hnext
        · cases hnext
        · split at hnext
          · cases hnext
          · cases hnext
            cases hsuccess
        · cases hnext
          cases hsuccess
        · cases hnext
          cases hsuccess
        · split at hnext
          · cases hnext
            cases hsuccess
          · cases hnext
        · split at hnext
          · cases hnext
            cases hsuccess
          · cases hnext
    | setNx lockId =>
        simp only [World.step, hcall, World.redis, holder_setStage]
        simp only [RedisCommand.next] at hnext
        split at hnext
        · next slot' hset =>
            simp only [World.holder, RedisCommand.execute, hset, get_setNxEx hset, Option.map_some]
        · cases hnext
          cases hsuccess
    | extend existingLockId => cases hnext
    | readTtl | refresh => exact confirming_kept hundisturbed horder hcall rfl
    | delete =>
        obtain ⟨lockId, hrelease⟩ := horder.releasing id request hcall
        exact (hoperation lockId hrelease).elim
  own request command user hcarries hcommand huser := by
    obtain ⟨id, hcall, -⟩ := hcarries
    have hholds (hconfirming : command.confirming = true) : user = request.userId := by
      have hholder := horder.confirming id request command hcall hconfirming
      rw [huser] at hholder
      exact Option.some.inj hholder
    obtain rfl | ⟨_, rfl⟩ | rfl := hcommand
    · exact horder.deleting id request hcall user huser
    · exact hholds rfl
    · exact hholds rfl

/-- Along every run in which nothing disturbs the calls between their commands, whoever is
told of a lock has it and only its own user's calls delete or extend it. -/
theorem redis_excludes {world : World} (hstart : ∀ id, world.calls id = none)
    {events : List Event} (h : Meets World.step Undisturbed world events) :
    ∀ front event, front ++ [event] <+: events →
      KeepsExclusion (run World.step world front) event := by
  intro front event hprefix
  have hmeets := (meets_iff_forall_step World.step world events).mp h
  have horder : InOrder (run World.step world front) := by
    apply invariant_of_meets World.step InOrder fun _ _ horder hstep => inOrder_step hstep horder
    · constructor
      · intro id request command hcall
        rw [hstart] at hcall
        cases hcall
      · intro id request hcall
        rw [hstart] at hcall
        cases hcall
      · intro id request hcall
        rw [hstart] at hcall
        cases hcall
    · apply (meets_iff_forall_step World.step world front).mpr
      intro front' event' hprefix'
      apply hmeets front' event'
      exact hprefix'.trans ((List.prefix_append front [event]).trans hprefix)
  exact keepsExclusion_step (hmeets front event hprefix) horder

theorem undisturbed_of_free (event : Event) (hfree : world.holder = none)
    (hdelete : ∀ id other, world.calls id ≠ some ⟨other, .redis .delete⟩) :
    Undisturbed world event where
  lasts hheld := (hheld hfree).elim
  unclaimed _ _ _ _ _ id other hcall := (hdelete id other hcall).elim

/-- A lock is acquired through Redis; its `SET` is the next command. -/
def acquisition : List Event :=
  [.call 0 0 ⟨.acquireLock 10, 1, 5⟩, .ping 0 true, .redis 0 .answered]

theorem acquisition_undisturbed :
    Meets World.step Undisturbed { now := 0 } (acquisition ++ [.redis 0 .answered]) := by
  refine ⟨?_, ?_, ?_, ?_, trivial⟩
  all_goals
    apply undisturbed_of_free _ rfl
    rintro (_ | id) other hcall <;> cases hcall

theorem acquisition_keepsExclusion :
    KeepsExclusion (run World.step { now := 0 } acquisition) (.redis 0 .answered) :=
  redis_excludes (fun _ => rfl) acquisition_undisturbed acquisition (.redis 0 .answered)
    (List.prefix_refl _)

/-- One user's lock lasts five minutes. Its release reads it in its last millisecond, and
another user takes the key before the `DELETE`. -/
def lateRelease : List Event :=
  [.call 0 0 ⟨.acquireLock 10, 1, 5⟩, .ping 0 true, .redis 0 .answered, .redis 0 .answered,
    .tick 300000, .call 1 0 ⟨.releaseLock 10, 1, 0⟩, .redis 1 .answered, .tick 1,
    .call 2 0 ⟨.acquireLock 20, 2, 5⟩, .redis 2 .answered, .redis 2 .answered]

theorem lateRelease_not_keepsExclusion :
    ¬ ∀ (world : World) (events : List Event), (∀ id, world.calls id = none) →
      ∀ front event, front ++ [event] <+: events →
        KeepsExclusion (run World.step world front) event := by
  intro h
  have hkeeps := h { now := 0 } (lateRelease ++ [.redis 1 .answered]) (fun _ => rfl) lateRelease
    (.redis 1 .answered) (List.prefix_refl _)
  have hcall : (run World.step { now := 0 } lateRelease).calls 1 =
      some ⟨⟨.releaseLock 10, 1, 0⟩, .redis .delete⟩ := by decide +kernel
  have hholder : (run World.step { now := 0 } lateRelease).holder = some 2 := by decide +kernel
  have huser := hkeeps.own _ .delete 2 ⟨1, hcall, .inl rfl⟩ (.inl rfl) hholder
  cases huser

end Qontinui.DistributedLock
