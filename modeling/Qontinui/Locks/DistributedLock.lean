import Mathlib.Logic.Function.Basic
import Qontinui.Base.ExpiringKey

/-!
The distributed lock service on one resource: calls of any number of users, made to
any number of service instances, over one Redis key and the rows of `project_locks`
for the resource. A step of a call is one command to a store with the local code up to
the next one. Redis, PostgreSQL and the service read one clock, in milliseconds.
-/

namespace Qontinui.DistributedLock

open ExpiringKey

abbrev Uuid := BitVec 128

/-- What a lock key holds, written `user_id:lock_id`; no UUID has a colon. -/
structure LockValue where
  userId : Uuid
  lockId : Uuid
deriving DecidableEq

inductive Backend where
  | redis
  | postgresql
deriving DecidableEq

structure LockInfo where
  lockId : Uuid
  userId : Uuid
  expiresAt : Int
  backend : Backend
deriving DecidableEq

/-- The method called, with the id drawn for a new lock or the id of the lock meant. -/
inductive Operation where
  | acquireLock (newId : Uuid)
  | releaseLock (lockId : Uuid)
  | refreshLock (lockId : Uuid)
deriving DecidableEq

/-- The arguments of a call. A release has no duration. -/
structure Request where
  operation : Operation
  userId : Uuid
  durationMinutes : Int
deriving DecidableEq

inductive Answer where
  /-- What `acquire_lock` returns. -/
  | lockInfo (info : Option LockInfo)
  /-- What `release_lock` and `refresh_lock` return. -/
  | flag (done : Bool)
  | raised
deriving DecidableEq

def Answer.success : Answer → Bool
  | .lockInfo info => info.isSome
  | .flag done => done
  | .raised => false

/-- A row of `project_locks`, and the call whose transaction has locked it. -/
structure ProjectLock where
  id : Uuid
  userId : Uuid
  expiresAt : Int
  lockedBy : Option Nat := none
deriving DecidableEq

def ProjectLock.isExpired (now : Int) (row : ProjectLock) : Bool := row.expiresAt < now

/-- The next command of a call on Redis. -/
inductive RedisCommand where
  | get
  /-- `SET NX EX` of a new lock. -/
  | setNx (lockId : Uuid)
  /-- `EXPIRE` of the caller's own lock, when it acquires it again. -/
  | extend (existingLockId : Uuid)
  | readTtl (existingLockId : Uuid)
  /-- `EXPIRE`, when it refreshes it. -/
  | refresh
  | delete
deriving DecidableEq

/-- The next statement of a call on PostgreSQL. A statement that writes for good is taken
together with the commit after it. -/
inductive Statement where
  | select
  /-- `FOR UPDATE`: the rows of the snapshot still to be locked, and those locked. -/
  | lockRows (todo : List Uuid) (locked : List ProjectLock)
  /-- The `DELETE` of an expired row, not yet committed. -/
  | flushDelete (id : Uuid)
  | insert (expiresAt : Int) (deleted : Option Uuid)
  | update (id : Uuid) (expiresAt : Int)
  | delete (id : Uuid)
  /-- `db.refresh` of the lock to report, with the expiry to report where it is known. -/
  | reload (id : Uuid) (expiresAt : Option Int)
deriving DecidableEq

inductive Stage where
  /-- Waiting for the first answer of the Redis client its instance has made. -/
  | pinging (service : Nat)
  | redis (command : RedisCommand)
  | database (statement : Statement)
  | returned (answer : Answer)
deriving DecidableEq

structure Call where
  request : Request
  stage : Stage
deriving DecidableEq

/-- One instance of the service. -/
structure Service where
  /-- `settings.REDIS_ENABLED`. -/
  redisEnabled : Bool := true
  /-- Whether `_redis_client` is set. -/
  hasClient : Bool := false
  redisAvailable : Option Bool := none

structure World where
  now : Int
  key : Slot LockValue := none
  rows : List ProjectLock := []
  services : Nat → Service := fun _ => {}
  calls : Nat → Option Call := fun _ => none

def minutes (n : Int) : Int := 60000 * n

/-! ## The choice of a backend -/

namespace Service

/-- `self._redis_client if self._redis_available else None`, and the backend it selects. -/
def chosen (service : Service) : Stage :=
  if service.redisAvailable = some true ∧ service.hasClient then .redis .get
  else .database .select

/-- `_get_redis_client` up to its first answer from Redis. -/
def getRedisClient (index : Nat) (service : Service) : Service × Stage :=
  if !service.redisEnabled then (service, .database .select)
  else if service.hasClient then (service, service.chosen)
  else ({ service with hasClient := true }, .pinging index)

/-- What the answer to `PING`, or the lack of it, makes of the instance. -/
def pinged (answered : Bool) (service : Service) : Service :=
  if answered then { service with redisAvailable := some true }
  else { service with redisAvailable := some false, hasClient := false }

end Service

/-! ## Redis -/

def Request.ttlSeconds (request : Request) : Int := request.durationMinutes * 60

def Request.redisFailed (request : Request) : Answer :=
  match request.operation with
  | .acquireLock _ => .lockInfo none
  | .releaseLock _ | .refreshLock _ => .flag false

namespace RedisCommand

def execute (now : Int) (request : Request) (slot : Slot LockValue) :
    RedisCommand → Slot LockValue
  | .get | .readTtl _ => slot
  | .setNx lockId =>
      match setNxEx now ⟨request.userId, lockId⟩ request.ttlSeconds slot with
      | none => slot
      | some (_, slot') => slot'
  | .extend _ | .refresh => expire now request.ttlSeconds slot
  | .delete => none

def afterGet (request : Request) (existing : Option LockValue) : Stage :=
  match request.operation, existing with
  | .acquireLock newId, none => .redis (.setNx newId)
  | .acquireLock _, some value =>
      if value.userId = request.userId then .redis (.extend value.lockId)
      else .returned (.lockInfo none)
  | .releaseLock _, none | .refreshLock _, none => .returned (.flag false)
  | .releaseLock lockId, some value =>
      if value.userId ≠ request.userId ∨ value.lockId ≠ lockId then .returned (.flag false)
      else .redis .delete
  | .refreshLock lockId, some value =>
      if value.userId ≠ request.userId ∨ value.lockId ≠ lockId then .returned (.flag false)
      else .redis .refresh

def next (now : Int) (request : Request) (slot : Slot LockValue) : RedisCommand → Stage
  | .get => afterGet request (ExpiringKey.get now slot)
  | .setNx lockId =>
      match setNxEx now ⟨request.userId, lockId⟩ request.ttlSeconds slot with
      | some (true, _) =>
          .returned (.lockInfo
            (some ⟨lockId, request.userId, now + minutes request.durationMinutes, .redis⟩))
      -- Another process was first, or Redis refuses the expiry.
      | _ => .returned (.lockInfo none)
  | .extend existingLockId => .redis (.readTtl existingLockId)
  | .readTtl existingLockId =>
      .returned (.lockInfo
        (some ⟨existingLockId, request.userId, now + 1000 * ttl now slot, .redis⟩))
  | .refresh | .delete => .returned (.flag true)

end RedisCommand

/-! ## PostgreSQL -/

def Request.databaseFailed (request : Request) : Answer :=
  match request.operation with
  | .acquireLock _ => .raised
  | .releaseLock _ | .refreshLock _ => .flag false

/-- The end of a transaction gives its row locks back. -/
def unlock (call : Nat) (rows : List ProjectLock) : List ProjectLock :=
  rows.map fun row => if row.lockedBy = some call then { row with lockedBy := none } else row

def ProjectLock.freeFor (call : Nat) (row : ProjectLock) : Bool :=
  row.lockedBy = none ∨ row.lockedBy = some call

def find (id : Uuid) (rows : List ProjectLock) : Option ProjectLock :=
  rows.find? fun row => row.id = id

def modify (id : Uuid) (f : ProjectLock → ProjectLock) (rows : List ProjectLock) :
    List ProjectLock :=
  rows.map fun row => if row.id = id then f row else row

namespace Statement

/-- The select of each method: `acquire_lock` takes its snapshot of the resource's rows, the
others look for the lock of the id they were given among the caller's own. -/
def afterSelect (now : Int) (request : Request) (rows : List ProjectLock) : Stage :=
  match request.operation with
  | .acquireLock _ => .database (.lockRows (rows.map (·.id)) [])
  | .releaseLock lockId =>
      match rows.find? fun row => row.id = lockId ∧ row.userId = request.userId with
      | none => .returned (.flag false)
      | some row => .database (.delete row.id)
  | .refreshLock lockId =>
      match rows.find? fun row => row.id = lockId ∧ row.userId = request.userId with
      | none => .returned (.flag false)
      | some row => .database (.update row.id (now + minutes request.durationMinutes))

/-- What `_acquire_db_lock` does with the rows it has locked. `is_expired` is asked twice of
another user's row, at one instant. -/
def afterLock (now : Int) (request : Request) : List ProjectLock → Stage
  | [] => .database (.insert (now + minutes request.durationMinutes) none)
  | [row] =>
      if row.isExpired now then .database (.flushDelete row.id)
      else if row.userId = request.userId then
        .database (.update row.id (now + minutes request.durationMinutes))
      else .returned (.lockInfo none)
  -- `scalar_one_or_none` raises on more than one row.
  | _ => .returned .raised

/-- The rows and the stage after a statement, `none` while it waits for a row. The id of an
inserted row is drawn by PostgreSQL. -/
def execute (now : Int) (call : Nat) (request : Request) (newId : Uuid)
    (rows : List ProjectLock) : Statement → Option (List ProjectLock × Stage)
  | .select => some (rows, afterSelect now request rows)
  | .lockRows (id :: todo) locked =>
      match find id rows with
      | none => some (rows, .database (.lockRows todo locked))
      | some row =>
          if row.freeFor call then
            some (modify id (fun row => { row with lockedBy := some call }) rows,
              .database (.lockRows todo (locked ++ [row])))
          else none
  | .lockRows [] locked =>
      match afterLock now request locked with
      | .database statement => some (rows, .database statement)
      | stage => some (unlock call rows, stage)
  | .flushDelete id =>
      some (rows, .database (.insert (now + minutes request.durationMinutes) (some id)))
  | .insert expiresAt deleted =>
      let kept := rows.filter fun row => some row.id ≠ deleted
      if (find newId kept).isSome then some (unlock call rows, .returned request.databaseFailed)
      else
        some (unlock call kept ++ [⟨newId, request.userId, expiresAt, none⟩],
          .database (.reload newId (some expiresAt)))
  | .update id expiresAt =>
      match find id rows with
      | none => some (unlock call rows, .returned request.databaseFailed)
      | some row =>
          if row.freeFor call then
            some (unlock call (modify id (fun row => { row with expiresAt }) rows),
              match request.operation with
              | .acquireLock _ => .database (.reload id none)
              | .releaseLock _ | .refreshLock _ => .returned (.flag true))
          else none
  | .delete id =>
      if (find id rows).all (·.freeFor call) then
        some (unlock call (rows.filter fun row => row.id ≠ id), .returned (.flag true))
      else none
  | .reload id expiresAt =>
      match find id rows with
      | none => some (unlock call rows, .returned .raised)
      | some row =>
          some (rows, .returned (.lockInfo
            (some ⟨id, request.userId, expiresAt.getD row.expiresAt, .postgresql⟩)))

end Statement

/-! ## Runs -/

/-- What becomes of a command: it is carried out and answered, it is carried out and the
answer is lost, or it is not carried out. -/
inductive Delivery where
  | answered
  | lost
  | failed
deriving DecidableEq

inductive Event where
  | tick (elapsed : Nat)
  /-- A method of an instance is called. -/
  | call (id : Nat) (service : Nat) (request : Request)
  | ping (id : Nat) (answered : Bool)
  | redis (id : Nat) (delivery : Delivery)
  /-- A command is carried out, and the client sends it again as it has had no answer. -/
  | resend (id : Nat)
  | database (id : Nat) (newId : Uuid) (delivery : Delivery)

namespace World

def setStage (world : World) (id : Nat) (request : Request) (stage : Stage) : World :=
  { world with calls := Function.update world.calls id (some ⟨request, stage⟩) }

/-- A call begins: the duration is cut to 30 minutes and a backend is chosen. -/
def begin (world : World) (id service : Nat) (request : Request) : World :=
  let (instance', stage) := (world.services service).getRedisClient service
  { world with services := Function.update world.services service instance' }.setStage id
    { request with durationMinutes := min request.durationMinutes 30 } stage

def ping (world : World) (id service : Nat) (request : Request) (answered : Bool) : World :=
  let instance' := (world.services service).pinged answered
  { world with services := Function.update world.services service instance' }.setStage id
    request instance'.chosen

def redis (world : World) (id : Nat) (request : Request) (command : RedisCommand) :
    Delivery → World
  | .answered =>
      { world with key := command.execute world.now request world.key }.setStage id request
        (command.next world.now request world.key)
  | .lost =>
      { world with key := command.execute world.now request world.key }.setStage id request
        (.returned request.redisFailed)
  | .failed => world.setStage id request (.returned request.redisFailed)

def database (world : World) (id : Nat) (request : Request) (statement : Statement)
    (newId : Uuid) : Delivery → World
  | .answered =>
      match statement.execute world.now id request newId world.rows with
      | none => world
      | some (rows, stage) => { world with rows }.setStage id request stage
  | .lost =>
      match statement.execute world.now id request newId world.rows with
      | none => world
      | some (rows, _) =>
          { world with rows := unlock id rows }.setStage id request
            (.returned request.databaseFailed)
  | .failed =>
      { world with rows := unlock id world.rows }.setStage id request
        (.returned request.databaseFailed)

/-- One step. An event that does not fit the call it names changes nothing. -/
def step (world : World) : Event → World
  | .tick elapsed => { world with now := world.now + elapsed }
  | .call id service request =>
      match world.calls id with
      | none => world.begin id service request
      | some _ => world
  | .ping id answered =>
      match world.calls id with
      | some ⟨request, .pinging service⟩ => world.ping id service request answered
      | _ => world
  | .redis id delivery =>
      match world.calls id with
      | some ⟨request, .redis command⟩ => world.redis id request command delivery
      | _ => world
  | .resend id =>
      match world.calls id with
      | some ⟨request, .redis command⟩ =>
          { world with key := command.execute world.now request world.key }
      | _ => world
  | .database id newId delivery =>
      match world.calls id with
      | some ⟨request, .database statement⟩ =>
          world.database id request statement newId delivery
      | _ => world

end World

end Qontinui.DistributedLock
