import Mathlib.Algebra.Group.Int.Defs
import Mathlib.Data.Rat.Defs
import Qontinui.Base.Fields

/-!
JSON documents and the JavaScript property accesses that read and edit them.

A document is what `JSON.stringify` shows of a value, since the services clone
a document through its JSON text before they touch it. `undefined` is `none`:
written to an object key it leaves no key in the text, written to an array slot
it leaves `null`. An array holds its indexed elements; a property of another
name never reaches the text. Numbers are exact rationals, and only own
properties are looked up.
-/

namespace Qontinui

inductive Json where
  | null
  | bool (b : Bool)
  | num (n : Rat)
  | str (s : String)
  | arr (items : List Json)
  | obj (fields : List (String × Json))
  deriving Repr, Inhabited

namespace Json

mutual

def beq : Json → Json → Bool
  | .null, .null => true
  | .bool a, .bool b => a == b
  | .num a, .num b => a == b
  | .str a, .str b => a == b
  | .arr xs, .arr ys => beqItems xs ys
  | .obj fs, .obj gs => beqFields fs gs
  | _, _ => false

def beqItems : List Json → List Json → Bool
  | [], [] => true
  | x :: xs, y :: ys => beq x y && beqItems xs ys
  | _, _ => false

def beqFields : List (String × Json) → List (String × Json) → Bool
  | [], [] => true
  | (k, x) :: fs, (l, y) :: gs => k == l && beq x y && beqFields fs gs
  | _, _ => false

end

mutual

theorem beq_iff : ∀ a b : Json, beq a b = true ↔ a = b
  | .null, b => by cases b <;> simp [beq]
  | .bool _, b => by cases b <;> simp [beq]
  | .num _, b => by cases b <;> simp [beq]
  | .str _, b => by cases b <;> simp [beq]
  | .arr xs, b => by
      cases b <;> simp [beq]
      exact beqItems_iff xs _
  | .obj fs, b => by
      cases b <;> simp [beq]
      exact beqFields_iff fs _

theorem beqItems_iff : ∀ xs ys : List Json, beqItems xs ys = true ↔ xs = ys
  | [], ys => by cases ys <;> simp [beqItems]
  | x :: xs, ys => by
      cases ys <;> simp [beqItems, beq_iff x, beqItems_iff xs]

theorem beqFields_iff : ∀ fs gs : List (String × Json), beqFields fs gs = true ↔ fs = gs
  | [], gs => by cases gs <;> simp [beqFields]
  | (k, x) :: fs, gs => by
      cases gs <;> simp [beqFields, beq_iff x, beqFields_iff fs, Prod.ext_iff]

end

instance : DecidableEq Json := fun a b => decidable_of_iff _ (beq_iff a b)

theorem sizeOf_lookup_lt {fields : List (String × Json)} {key : String} {child : Json}
    (h : fields.lookup key = some child) : sizeOf child < sizeOf fields := by
  induction fields with
  | nil => cases h
  | cons field rest ih =>
      obtain ⟨k, v⟩ := field
      rw [Fields.lookup_cons] at h
      split_ifs at h
      · cases h
        simp
        omega
      · have := ih h
        simp only [List.cons.sizeOf_spec]
        omega

end Json

/-- A property value: a JSON value or `undefined`. -/
abbrev JsValue := Option Json

inductive JsError where
  | typeError
  | rangeError
  | error (message : String)
  deriving Repr, DecidableEq

abbrev Js := Except JsError

/-- The array index a property key denotes: `ToString(ToNumber(key)) = key`. -/
def arrayIndex? (key : String) : Option Nat :=
  let index := Nat.ofDigitChars 10 key.toList 0
  if toString index = key then some index else none

@[simp] theorem arrayIndex?_toString (index : Nat) : arrayIndex? (toString index) = some index := by
  have h : Nat.ofDigitChars 10 (toString index).toList 0 = index := by
    simp
  simp only [arrayIndex?, h, if_true]

theorem toString_of_arrayIndex? {key : String} {index : Nat} (h : arrayIndex? key = some index) :
    toString index = key := by
  simp only [arrayIndex?] at h
  split at h
  · next heq => cases h; exact heq
  · cases h

namespace Json

def truthy : Json → Bool
  | .null => false
  | .bool b => b
  | .num n => n ≠ 0
  | .str s => s ≠ ""
  | .arr _ => true
  | .obj _ => true

def isArray : Json → Bool
  | .arr _ => true
  | _ => false

/-- `current[key]`. -/
def readKey : Json → String → Js JsValue
  | .null, _ => .error .typeError
  | .bool _, _ => .ok none
  | .num _, _ => .ok none
  | .str s, key =>
      match arrayIndex? key with
      | some i => .ok ((s.toList[i]?).map fun c => .str c.toString)
      | none => .ok (if key = "length" then some (.num s.length) else none)
  | .arr items, key =>
      match arrayIndex? key with
      | some i => .ok items[i]?
      | none => .ok (if key = "length" then some (.num items.length) else none)
  | .obj fields, key => .ok (fields.lookup key)

/-- `items[index] = value`: a write past the end pads the array with holes. -/
def writeIndex (items : List Json) (index : Nat) (value : Json) : List Json :=
  if index < items.length then items.set index value
  else items ++ List.replicate (index - items.length) .null ++ [value]

/-- The length a value written to `length` asks for. Text forms of numbers are
not modelled. -/
def arrayLength? : JsValue → Option Nat
  | some .null => some 0
  | some (.bool b) => some b.toNat
  | some (.num n) => if n.den = 1 ∧ 0 ≤ n.num ∧ n.num < 2 ^ 32 then some n.num.toNat else none
  | _ => none

/-- `current[key] = value`, in strict mode. -/
def writeKey : Json → String → JsValue → Js Json
  | .arr items, key, value =>
      match arrayIndex? key with
      | some i => .ok (.arr (writeIndex items i (value.getD .null)))
      | none =>
        if key = "length" then
          match arrayLength? value with
          | some n => .ok (.arr (items.take n ++ List.replicate (n - items.length) .null))
          | none => .error .rangeError
        else .ok (.arr items)
  | .obj fields, key, some value => .ok (.obj (Fields.set key value fields))
  | .obj fields, key, none => .ok (.obj (Fields.erase key fields))
  | _, _, _ => .error .typeError

/-- `delete current[key]`, in strict mode. -/
def deleteKey : Json → String → Js Json
  | .null, _ => .error .typeError
  | .arr items, key =>
      match arrayIndex? key with
      | some i => .ok (.arr (items.set i .null))
      | none => if key = "length" then .error .typeError else .ok (.arr items)
  | .obj fields, key => .ok (.obj (Fields.erase key fields))
  | .str s, key =>
      match arrayIndex? key with
      | some i => if i < s.length then .error .typeError else .ok (.str s)
      | none => if key = "length" then .error .typeError else .ok (.str s)
  | other, _ => .ok other

/-- The effect on `current` of mutating the value it holds at `key` into
`child`. -/
def replaceKey : Json → String → Json → Json
  | .arr items, key, child =>
      match arrayIndex? key with
      | some i => .arr (items.set i child)
      | none => .arr items
  | .obj fields, key, child => .obj (Fields.set key child fields)
  | other, _, _ => other

/-- The element or field a document holds at `key`. -/
def child? : Json → String → Option Json
  | .arr items, key => (arrayIndex? key).bind fun i => items[i]?
  | .obj fields, key => fields.lookup key
  | _, _ => none

end Json

def JsValue.truthy : JsValue → Bool
  | some value => value.truthy
  | none => false

def spread : JsValue → List (String × Json)
  | some (.obj fields) => fields
  | some (.arr items) => items.mapIdx fun index item => (toString index, item)
  | some (.str text) => text.toList.mapIdx fun index c => (toString index, .str c.toString)
  | _ => []

end Qontinui
