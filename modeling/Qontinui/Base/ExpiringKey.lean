import Mathlib.Data.Option.Basic

/-!
One key of a store whose values expire, and the commands on it: `GET`,
`SET NX EX`, `EXPIRE`, `TTL` and `DEL`. Times are in milliseconds, the times to
live a command is given in seconds.
-/

namespace Qontinui.ExpiringKey

/-- A value and the last instant at which it can be read. -/
structure Entry (α : Type*) where
  value : α
  expiresAt : Int
deriving DecidableEq

abbrev Slot (α : Type*) := Option (Entry α)

variable {α : Type*}

def read (now : Int) (slot : Slot α) : Slot α := slot.filter (now ≤ ·.expiresAt)

def get (now : Int) (slot : Slot α) : Option α := (read now slot).map (·.value)

/-- The instant a time to live that begins now ends. -/
def deadline (now seconds : Int) : Int := now + 1000 * seconds

/-- `SET NX EX`: whether the value was set, and the slot. A time to live that is not positive
is an error. -/
def setNxEx (now : Int) (value : α) (seconds : Int) (slot : Slot α) : Option (Bool × Slot α) :=
  if seconds ≤ 0 then none
  else if (get now slot).isSome then some (false, slot)
  else some (true, some ⟨value, deadline now seconds⟩)

/-- `EXPIRE`: a time to live that is not positive removes the key. -/
def expire (now seconds : Int) (slot : Slot α) : Slot α :=
  if seconds ≤ 0 then none
  else (read now slot).map fun entry => { entry with expiresAt := deadline now seconds }

/-- `TTL`: the seconds left, rounded, and `-2` for a key that does not exist. -/
def ttl (now : Int) (slot : Slot α) : Int :=
  match read now slot with
  | none => -2
  | some entry => (entry.expiresAt - now + 500) / 1000

@[simp] theorem read_none (now : Int) : read now (none : Slot α) = none := rfl

@[simp] theorem get_none (now : Int) : get now (none : Slot α) = none := rfl

variable {now seconds : Int} {slot : Slot α}

theorem get_some_eq {entry : Entry α} (h : now ≤ entry.expiresAt) :
    get now (some entry) = some entry.value := by
  simp [get, read, Option.filter, h]

variable {value : α} {slot' : Slot α}

theorem get_eq_some_iff :
    get now slot = some value ↔
      ∃ entry, slot = some entry ∧ now ≤ entry.expiresAt ∧ entry.value = value := by
  simp only [get, read, Option.map_eq_some_iff, Option.filter_eq_some_iff, decide_eq_true_eq,
    and_assoc]

theorem get_later (now : Int) (elapsed : Nat) (slot : Slot α) :
    get (now + elapsed) slot = get now slot ∨ get (now + elapsed) slot = none := by
  cases h : get (now + elapsed) slot with
  | none => exact .inr rfl
  | some value =>
      obtain ⟨entry, rfl, hlive, rfl⟩ := get_eq_some_iff.mp h
      exact .inl (get_some_eq (by omega)).symm

theorem le_deadline (h : 0 < seconds) : now ≤ deadline now seconds := by
  simp only [deadline]
  omega

theorem get_expire (now seconds : Int) (slot : Slot α) :
    get now (expire now seconds slot) = if seconds ≤ 0 then none else get now slot := by
  simp only [expire]
  split
  · rfl
  · next hseconds =>
      have hlive : now ≤ deadline now seconds := le_deadline (by omega)
      cases hread : read now slot with
      | none => simp only [get, hread, Option.map_none, read_none]
      | some entry =>
          rw [Option.map_some, get_some_eq hlive, get, hread, Option.map_some]

theorem setNxEx_eq_true_iff :
    setNxEx now value seconds slot = some (true, slot') ↔
      0 < seconds ∧ get now slot = none ∧ slot' = some ⟨value, deadline now seconds⟩ := by
  simp only [setNxEx]
  split
  · next h => simp [h]
  · next hseconds =>
      have : 0 < seconds := by omega
      cases hget : get now slot with
      | none => simp [this, eq_comm]
      | some => simp

theorem setNxEx_eq_false (h : setNxEx now value seconds slot = some (false, slot')) :
    slot' = slot := by
  simp only [setNxEx] at h
  split at h
  · cases h
  · split at h
    · cases h
      rfl
    · cases h

theorem get_setNxEx (h : setNxEx now value seconds slot = some (true, slot')) :
    get now slot' = some value := by
  obtain ⟨hseconds, -, rfl⟩ := setNxEx_eq_true_iff.mp h
  exact get_some_eq (le_deadline hseconds)

end Qontinui.ExpiringKey
