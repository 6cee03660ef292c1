import Qontinui.Collaboration.LocalEdits

/-!
Two edits without positions at one location. Each client edits the slot twice,
with its own operation and with what it makes of the other one; a table by the
pair of types says when the two slots end alike.
-/

namespace Qontinui.SyncService

open Json OperationalTransform

def isArrayValue : JsValue → Bool
  | some value => value.isArray
  | none => false

/-- What an edit without positions makes of the value in its slot. -/
def edited (type : OperationType) (value current : JsValue) : JsValue :=
  match current with
  | some (.arr items) =>
      match type with
      | .insert => some (.arr (value.getD .null :: items))
      | .delete => some (.arr items.tail)
      | .move => some (.arr (if items = [] then [.null] else items))
      | _ => value
  | _ =>
      match type with
      | .delete => none
      | .move => current
      | _ => value

/-- What a client makes of its slot for a remote edit: one that deleted takes
every other edit but an insertion for the update to `null`. -/
def editedAfter (own remote : OperationType) (value current : JsValue) : JsValue :=
  if own = .delete ∧ remote ≠ .insert then some .null else edited remote value current

/-- Both clients leave the same container. -/
def SlotsMeet (parent : Json) (key : String) (current : Json) (type1 : OperationType)
    (value1 : JsValue) (type2 : OperationType) (value2 : JsValue) : Prop :=
  let first1 := edited type1 value1 (some current)
  let first2 := edited type2 value2 (some current)
  assignKey (assignKey parent key first1) key
      (editedAfter type1 type2 value2 (shown parent first1)) =
    assignKey (assignKey parent key first2) key
      (editedAfter type2 type1 value1 (shown parent first2))

/-- A field that is removed and written anew is where it was. -/
def StaysInPlace (parent : Json) (key : String) : Prop :=
  ∀ value, assignKey (assignKey parent key none) key (some value) = assignKey parent key (some value)

section Meet

variable {parent current : Json} {key : String} {value value1 value2 : JsValue}

@[simp] theorem shown_some (parent value : Json) : shown parent (some value) = some value := by
  unfold shown
  split_ifs <;> rfl

theorem shown_none (parent : Json) :
    shown parent none = if parent.isArray then some .null else none := rfl

theorem isArrayValue_shown (parent : Json) (value : JsValue) :
    isArrayValue (shown parent value) = isArrayValue value := by
  cases value with
  | some value => simp
  | none =>
      rw [shown_none]
      split_ifs <;> rfl

theorem sameStored_iff : SameStored parent value1 value2 ↔
    shown parent value1 = shown parent value2 := by
  unfold SameStored shown
  split_ifs with harray
  · constructor
    · rintro (h | ⟨_, h⟩) <;> rw [h]
    · intro h
      exact Or.inr ⟨harray, Option.some.inj h⟩
  · simp [harray]

theorem eq_array_of_isArrayValue (h : isArrayValue value = true) :
    ∃ items, value = some (.arr items) := by
  cases value with
  | none => cases h
  | some value => cases value <;> first | exact ⟨_, rfl⟩ | cases h

theorem edited_of_not_array {type : OperationType} (h : isArrayValue current' = false) :
    edited type value current' =
      match type with
      | .delete => none
      | .move => current'
      | _ => value := by
  unfold edited
  split
  · cases h
  · rfl

theorem assignKey_assignKey (hslot : IsSlot parent key) {first second : JsValue}
    (h : parent.isArray = true ∨ first.isSome = true ∨ second = none) :
    assignKey (assignKey parent key first) key second = assignKey parent key second := by
  obtain ⟨fields, rfl⟩ | ⟨items, i, rfl, hi, hlt⟩ := hslot
  · cases first with
    | none =>
        simp only [isArray, Option.isSome_none, Bool.false_eq_true, false_or] at h
        subst h
        exact congrArg Json.obj (Fields.erase_of_lookup (Fields.lookup_erase_self key fields))
    | some first =>
        cases second with
        | none => exact congrArg Json.obj (Fields.erase_set_self key first fields)
        | some second => exact congrArg Json.obj (Fields.set_set key first second fields)
  · simp only [assignKey_element hi, List.set_set]

theorem assignKey_eq_iff (hslot : IsSlot parent key) {first second : JsValue} :
    assignKey parent key first = assignKey parent key second ↔
      shown parent first = shown parent second := by
  constructor
  · intro h
    rw [← hslot.child?_assignKey, h, hslot.child?_assignKey]
  · intro h
    obtain ⟨fields, rfl⟩ | ⟨items, i, rfl, hi, hlt⟩ := hslot
    · exact congrArg (assignKey (.obj fields) key) h
    · rw [assignKey_element hi, assignKey_element hi]
      exact congrArg (fun value => Json.arr (items.set i value)) (Option.some.inj h)

/-- When two assignments leave the slot as two other ones do. -/
theorem assignKey_twice_iff (hslot : IsSlot parent key) (first second first' second' : JsValue) :
    assignKey (assignKey parent key first) key second =
        assignKey (assignKey parent key first') key second' ↔
      shown parent second = shown parent second' ∧
        (parent.isArray = true ∨ second = none ∨ first.isSome = first'.isSome ∨
          StaysInPlace parent key) := by
  obtain ⟨fields, rfl⟩ | harray : (∃ fields, parent = .obj fields) ∨ parent.isArray = true := by
    obtain h | ⟨items, i, rfl, _⟩ := hslot
    · exact Or.inl h
    · exact Or.inr rfl
  · have hobject : ∀ first value, shown (assignKey (.obj fields) key first) value = value := by
      intro first value
      cases first <;> rfl
    have hkept : ∀ {x y}, x.isSome = true ∨ y = none →
        assignKey (assignKey (.obj fields) key x) key y = assignKey (.obj fields) key y :=
      fun h => assignKey_assignKey hslot (Or.inr h)
    constructor
    · intro h
      have hvalue : second = second' := by
        have hchild := congrArg (·.child? key) h
        simpa only [(hslot.assignKey _).child?_assignKey, hobject] using hchild
      subst hvalue
      refine ⟨rfl, Or.inr ?_⟩
      cases second with
      | none => exact Or.inl rfl
      | some stored =>
          have hover : ∀ x value,
              assignKey (assignKey (assignKey (.obj fields) key x) key (some stored)) key
                (some value) = assignKey (assignKey (.obj fields) key x) key (some value) :=
            fun x value => assignKey_assignKey (hslot.assignKey x) (Or.inr (Or.inl rfl))
          have hagain : ∀ value, assignKey (assignKey (.obj fields) key first) key (some value) =
              assignKey (assignKey (.obj fields) key first') key (some value) := by
            intro value
            have := congrArg (assignKey · key (some value)) h
            simpa only [hover] using this
          cases first with
          | none =>
              cases first' with
              | none => exact Or.inr (Or.inl rfl)
              | some _ => exact Or.inr (Or.inr fun value => (hagain value).trans (hkept (Or.inl rfl)))
          | some _ =>
              cases first' with
              | none =>
                  exact Or.inr (Or.inr fun value =>
                    (hagain value).symm.trans (hkept (Or.inl rfl)))
              | some _ => exact Or.inr (Or.inl rfl)
    · rintro ⟨hvalue, hside⟩
      have hsecond : second = second' := hvalue
      subst hsecond
      rcases hside with hfalse | hnone | hsome | hstays
      · cases hfalse
      · rw [hkept (Or.inr hnone), hkept (Or.inr hnone)]
      · cases first with
        | none =>
            cases first' with
            | none => rfl
            | some _ => cases hsome
        | some _ =>
            cases first' with
            | none => cases hsome
            | some _ => rw [hkept (Or.inl rfl), hkept (Or.inl rfl)]
      · have hplain : ∀ x, assignKey (assignKey (.obj fields) key x) key second =
            assignKey (.obj fields) key second := by
          intro x
          cases x with
          | some _ => exact hkept (Or.inl rfl)
          | none =>
              cases second with
              | none => exact hkept (Or.inr rfl)
              | some value => exact hstays value
        rw [hplain, hplain]
  · rw [assignKey_assignKey hslot (Or.inl harray), assignKey_assignKey hslot (Or.inl harray),
      assignKey_eq_iff hslot]
    simp [harray]

/-! ### One location, pair by pair -/

theorem array_or_not (value : JsValue) :
    (∃ items, value = some (.arr items)) ∨ isArrayValue value = false := by
  cases h : isArrayValue value with
  | true => exact Or.inl (eq_array_of_isArrayValue h)
  | false => exact Or.inr rfl

theorem shown_eq_cases (h : shown parent value1 = shown parent value2) :
    parent.isArray = true ∨ value1 = value2 := by
  cases harray : parent.isArray with
  | true => exact Or.inl rfl
  | false => exact Or.inr (by simpa [shown, harray] using h)

@[simp] theorem edited_update (value current : JsValue) :
    edited .update value current = value := by
  unfold edited
  split <;> rfl

variable {c : JsValue}

theorem edited_insert (h : isArrayValue c = false) (value : JsValue) :
    edited .insert value c = value := edited_of_not_array h

theorem edited_delete (h : isArrayValue c = false) (value : JsValue) :
    edited .delete value c = none := edited_of_not_array h

theorem edited_move (h : isArrayValue c = false) (value : JsValue) :
    edited .move value c = c := edited_of_not_array h

theorem isSome_edited_move (value : JsValue) (c : Json) :
    (edited .move value (some c)).isSome = true := by
  obtain ⟨items, hitems⟩ | h := array_or_not (some c)
  · rw [hitems]
    rfl
  · rw [edited_move h]
    rfl

@[simp] theorem shown_shown (value : JsValue) :
    shown parent (shown parent value) = shown parent value := by
  cases value with
  | some value => simp
  | none =>
      rw [shown_none]
      split_ifs with harray
      · exact shown_some _ _
      · rw [shown_none, if_neg harray]

theorem shown_edited_move (value stored : JsValue) :
    shown parent (edited .move value (shown parent stored)) = shown parent stored ↔
      stored ≠ some (.arr []) := by
  obtain ⟨items, rfl⟩ | h := array_or_not stored
  · cases items <;> simp [edited]
  · rw [edited_move ((isArrayValue_shown _ _).trans h), shown_shown]
    apply iff_of_true rfl
    rintro rfl
    cases h

theorem shown_edited_insert (h : shown parent value1 = shown parent value2) (c : JsValue) :
    shown parent (edited .insert value1 c) = shown parent (edited .insert value2 c) := by
  obtain ⟨items, rfl⟩ | hc := array_or_not c
  · have hvalue : value1.getD .null = value2.getD .null := by
      rcases shown_eq_cases h with harray | rfl
      · simpa [shown, harray] using h
      · rfl
    simp only [edited, hvalue]
  · rw [edited_insert hc, edited_insert hc, h]

theorem meet_update_update (hslot : IsSlot parent key) :
    SlotsMeet parent key current .update value1 .update value2 ↔
      SameStored parent value1 value2 := by
  unfold SlotsMeet
  rw [assignKey_twice_iff hslot, sameStored_iff]
  simp only [editedAfter, edited_update, reduceCtorEq, false_and, if_false]
  constructor
  · exact fun h => h.1.symm
  · intro h
    refine ⟨h.symm, ?_⟩
    rcases shown_eq_cases h with harray | heq
    · exact Or.inl harray
    · exact Or.inr (Or.inr (Or.inl (by rw [heq])))

theorem meet_valueless {type : OperationType} (htype : type = .move ∨ type = .delete) :
    SlotsMeet parent key current type value1 type value2 := by
  have hvalue : ∀ c, edited type value1 c = edited type value2 c := by
    intro c
    rcases htype with rfl | rfl <;> cases c <;> rfl
  simp only [SlotsMeet, editedAfter, hvalue]

section

variable (hslot : IsSlot parent key)
include hslot

theorem meet_move_update :
    SlotsMeet parent key current .move value1 .update value2 ↔ value2 ≠ some (.arr []) := by
  unfold SlotsMeet
  rw [assignKey_twice_iff hslot]
  simp only [editedAfter, edited_update, reduceCtorEq, false_and, if_false]
  rw [eq_comm, shown_edited_move]
  refine and_iff_left_of_imp fun _ => ?_
  cases value2 with
  | none => exact Or.inr (Or.inl rfl)
  | some value => exact Or.inr (Or.inr (Or.inl (isSome_edited_move _ _)))

theorem meet_delete_update :
    SlotsMeet parent key current .delete value1 .update value2 ↔
      parent.isArray = true ∧ isArrayValue value2 = false := by
  unfold SlotsMeet
  rw [assignKey_twice_iff hslot]
  simp only [editedAfter, edited_update, reduceCtorEq, false_and, if_false, ne_eq,
    not_false_eq_true, and_self, if_true]
  obtain ⟨items, rfl⟩ | h := array_or_not value2
  · simp [edited, isArrayValue, isArray]
  · rw [edited_delete ((isArrayValue_shown _ _).trans h), shown_none]
    simp only [h, and_true, shown_some]
    split_ifs with harray <;> simp [harray]

theorem meet_delete_move :
    SlotsMeet parent key current .delete value1 .move value2 ↔
      parent.isArray = true ∧ current.isArray = false := by
  unfold SlotsMeet
  rw [assignKey_twice_iff hslot]
  simp only [editedAfter, reduceCtorEq, false_and, if_false, ne_eq,
    not_false_eq_true, and_self, if_true]
  obtain ⟨items, hitems⟩ | h := array_or_not (some current)
  · cases hitems
    simp [edited, isArray]
  · have hcurrent : current.isArray = false := h
    rw [edited_move h, shown_some, shown_some, edited_delete h, shown_none]
    simp only [hcurrent, and_true]
    split_ifs with harray <;> simp [harray]

theorem meet_insert_update :
    SlotsMeet parent key current .insert value1 .update value2 ↔
      SameStored parent value1 value2 ∧ isArrayValue value2 = false := by
  unfold SlotsMeet
  rw [assignKey_twice_iff hslot, sameStored_iff]
  simp only [editedAfter, edited_update, reduceCtorEq, false_and, if_false]
  obtain ⟨items, rfl⟩ | h := array_or_not value2
  · simp [edited, isArrayValue, isArray]
  · rw [edited_insert ((isArrayValue_shown _ _).trans h)]
    simp only [h, and_true]
    constructor
    · exact fun hmeet => hmeet.1.symm
    · intro heq
      refine ⟨heq.symm, ?_⟩
      rcases shown_eq_cases heq with harray | rfl
      · exact Or.inl harray
      · cases value1 with
        | none => exact Or.inr (Or.inl rfl)
        | some value =>
            refine Or.inr (Or.inr (Or.inl ?_))
            obtain ⟨items, hitems⟩ | hcurrent := array_or_not (some current)
            · rw [hitems]
              rfl
            · rw [edited_insert hcurrent]

theorem meet_insert_insert :
    SlotsMeet parent key current .insert value1 .insert value2 ↔
      if current.isArray then value1.getD .null = value2.getD .null
      else SameStored parent value1 value2 := by
  unfold SlotsMeet
  rw [assignKey_twice_iff hslot, sameStored_iff]
  simp only [editedAfter, reduceCtorEq, false_and, if_false]
  obtain ⟨items, hitems⟩ | h := array_or_not (some current)
  · cases hitems
    simp only [edited, shown_some, isArray, if_true, Option.isSome_some, true_or, or_true,
      and_true, Option.some.injEq, Json.arr.injEq, List.cons.injEq]
    constructor
    · exact fun heq => heq.2
    · exact fun heq => ⟨heq.symm, heq⟩
  · have hcurrent : current.isArray = false := h
    simp only [edited_insert h, hcurrent, Bool.false_eq_true, if_false]
    constructor
    · rintro ⟨heq, -⟩
      obtain ⟨items1, rfl⟩ | h1 := array_or_not value1
      · obtain ⟨items2, rfl⟩ | h2 := array_or_not value2
        · simp only [shown_some, edited, Option.getD_some, Option.some.injEq, Json.arr.injEq,
            List.cons.injEq] at heq
          rw [heq.2]
        · rw [edited_insert ((isArrayValue_shown _ _).trans h2)] at heq
          simp [edited] at heq
      · rw [edited_insert ((isArrayValue_shown _ _).trans h1)] at heq
        obtain ⟨items2, rfl⟩ | h2 := array_or_not value2
        · simp [edited] at heq
        · rw [edited_insert ((isArrayValue_shown _ _).trans h2)] at heq
          exact heq.symm
    · intro heq
      rcases shown_eq_cases heq with harray | rfl
      · refine ⟨?_, Or.inl harray⟩
        rw [heq]
        exact shown_edited_insert heq.symm _
      · exact ⟨rfl, Or.inr (Or.inr (Or.inl rfl))⟩

theorem meet_insert_move :
    SlotsMeet parent key current .insert value1 .move value2 ↔
      current ≠ .arr [] ∧ (current.isArray = true ∨ value1 ≠ some (.arr [])) := by
  unfold SlotsMeet
  rw [assignKey_twice_iff hslot]
  simp only [editedAfter, reduceCtorEq, false_and, if_false]
  obtain ⟨items, hitems⟩ | h := array_or_not (some current)
  · cases hitems
    cases items <;> simp [edited, isArray]
  · have hcurrent : current.isArray = false := h
    have hne : current ≠ .arr [] := by
      rintro rfl
      cases hcurrent
    rw [edited_move h, shown_some, edited_insert h, shown_edited_move]
    simp only [hcurrent, Bool.false_eq_true, false_or, hne, ne_eq, not_false_eq_true, true_and]
    refine and_iff_left_of_imp fun _ => ?_
    cases value1 with
    | none =>
        cases harray : parent.isArray with
        | true => exact Or.inl rfl
        | false =>
            refine Or.inr (Or.inl ?_)
            simp [shown, harray, edited]
    | some value => exact Or.inr (Or.inr (Or.inl rfl))

end

def InsertMeetsDelete (parent : Json) (key : String) (current : Json) (value : JsValue) : Prop :=
  match current with
  | .arr items => items.head? = some (value.getD .null)
  | _ => shown parent value = shown parent none ∨
      (value = some (.arr []) ∧ (parent.isArray = true ∨ StaysInPlace parent key))

theorem meet_insert_delete (hslot : IsSlot parent key) :
    SlotsMeet parent key current .insert value1 .delete value2 ↔
      InsertMeetsDelete parent key current value1 := by
  unfold SlotsMeet
  rw [assignKey_twice_iff hslot]
  simp only [editedAfter, reduceCtorEq, false_and, if_false, ne_eq, not_true_eq_false, and_false]
  obtain ⟨items, hitems⟩ | h := array_or_not (some current)
  · cases hitems
    simp only [edited, shown_some, InsertMeetsDelete, List.tail_cons, Option.isSome_some, true_or,
      or_true, and_true, Option.some.injEq, Json.arr.injEq]
    cases items with
    | nil | cons => simp
  · have hinsert : InsertMeetsDelete parent key current value1 ↔
        shown parent value1 = shown parent none ∨
          (value1 = some (.arr []) ∧ (parent.isArray = true ∨ StaysInPlace parent key)) := by
      unfold InsertMeetsDelete
      split
      · cases h
      · rfl
    have hnone : isArrayValue (shown parent none) = false := isArrayValue_shown _ _
    rw [hinsert, edited_insert h, edited_delete h, edited_insert hnone]
    obtain ⟨items, rfl⟩ | h1 := array_or_not value1
    · have hunshown : some (Json.arr items) ≠ shown parent none := by
        intro heq
        rw [← heq] at hnone
        cases hnone
      simp only [shown_some, hunshown, false_or, edited, Option.isSome_some, Option.isSome_none]
      cases items <;> simp
    · rw [edited_delete ((isArrayValue_shown _ _).trans h1)]
      simp only [true_or, or_true, and_true]
      constructor
      · exact fun heq => Or.inl heq.symm
      · rintro (heq | ⟨rfl, _⟩)
        · exact heq.symm
        · cases h1

/-- What two edits at one location need so that their order does not matter. -/
def LocationAgrees (parent : Json) (key : String) (current : Json) (type1 : OperationType)
    (value1 : JsValue) (type2 : OperationType) (value2 : JsValue) : Prop :=
  match type1, type2 with
  | .insert, .insert =>
      if current.isArray then value1.getD .null = value2.getD .null
      else SameStored parent value1 value2
  | .insert, .delete => InsertMeetsDelete parent key current value1
  | .delete, .insert => InsertMeetsDelete parent key current value2
  | .insert, .move => current ≠ .arr [] ∧ (current.isArray = true ∨ value1 ≠ some (.arr []))
  | .move, .insert => current ≠ .arr [] ∧ (current.isArray = true ∨ value2 ≠ some (.arr []))
  | .insert, .update => SameStored parent value1 value2 ∧ isArrayValue value2 = false
  | .update, .insert => SameStored parent value2 value1 ∧ isArrayValue value1 = false
  | .delete, .delete => True
  | .move, .move => True
  | .delete, .move => parent.isArray = true ∧ current.isArray = false
  | .move, .delete => parent.isArray = true ∧ current.isArray = false
  | .delete, .update => parent.isArray = true ∧ isArrayValue value2 = false
  | .update, .delete => parent.isArray = true ∧ isArrayValue value1 = false
  | .move, .update => value2 ≠ some (.arr [])
  | .update, .move => value1 ≠ some (.arr [])
  | .update, .update => SameStored parent value1 value2
  | _, _ => False

theorem slotsMeet_iff (hslot : IsSlot parent key) {type1 type2 : OperationType}
    (h1 : type1 ≠ .connect ∧ type1 ≠ .disconnect) (h2 : type2 ≠ .connect ∧ type2 ≠ .disconnect) :
    SlotsMeet parent key current type1 value1 type2 value2 ↔
      LocationAgrees parent key current type1 value1 type2 value2 := by
  have hsymm : ∀ {t1 v1 t2 v2}, SlotsMeet parent key current t1 v1 t2 v2 ↔
      SlotsMeet parent key current t2 v2 t1 v1 := eq_comm
  cases type1 with
  | connect => exact absurd rfl h1.1
  | disconnect => exact absurd rfl h1.2
  | insert =>
      cases type2 with
      | connect => exact absurd rfl h2.1
      | disconnect => exact absurd rfl h2.2
      | insert => exact meet_insert_insert hslot
      | delete => exact meet_insert_delete hslot
      | update => exact meet_insert_update hslot
      | move => exact meet_insert_move hslot
  | delete =>
      cases type2 with
      | connect => exact absurd rfl h2.1
      | disconnect => exact absurd rfl h2.2
      | insert => exact hsymm.trans (meet_insert_delete hslot)
      | delete => exact iff_of_true (meet_valueless (.inr rfl)) trivial
      | update => exact meet_delete_update hslot
      | move => exact meet_delete_move hslot
  | update =>
      cases type2 with
      | connect => exact absurd rfl h2.1
      | disconnect => exact absurd rfl h2.2
      | insert => exact hsymm.trans (meet_insert_update hslot)
      | delete => exact hsymm.trans (meet_delete_update hslot)
      | update => exact meet_update_update hslot
      | move => exact hsymm.trans (meet_move_update hslot)
  | move =>
      cases type2 with
      | connect => exact absurd rfl h2.1
      | disconnect => exact absurd rfl h2.2
      | insert => exact hsymm.trans (meet_insert_move hslot)
      | delete => exact hsymm.trans (meet_delete_move hslot)
      | update => exact meet_move_update hslot
      | move => exact iff_of_true (meet_valueless (.inl rfl)) trivial

end Meet

end Qontinui.SyncService
