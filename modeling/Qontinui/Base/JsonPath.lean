import Qontinui.Base.Json

/-!
Locations inside a JSON document. A path names a location when each of its
keys is a field of an object or an index of an array; replacing the value of an
existing location keeps everything outside it, and the order of all keys. Two
documents are the same up to the order of their keys when at every path both show the
same leaf, a list of the same length, or an object.
-/

namespace Qontinui.Json

variable {child doc target : Json} {key : String} {path other : List String}

section

variable (h : doc.child? key = some child)
include h

theorem readKey_of_child? : doc.readKey key = .ok (some child) := by
  cases doc with
  | arr items =>
      cases hi : arrayIndex? key with
      | none => simp [child?, hi] at h
      | some i =>
          simp only [child?, hi, Option.bind_some] at h
          simp [readKey, hi, h]
  | obj fields => simpa [readKey, child?] using h
  | _ => simp [child?] at h

theorem writeKey_of_child? (value : Json) :
    doc.writeKey key (some value) = .ok (doc.replaceKey key value) := by
  cases doc with
  | arr items =>
      cases hi : arrayIndex? key with
      | none => simp [child?, hi] at h
      | some i =>
          simp only [child?, hi, Option.bind_some] at h
          have hlt : i < items.length := (List.getElem?_eq_some_iff.mp h).1
          simp [writeKey, replaceKey, hi, writeIndex, hlt]
  | obj fields => simp [writeKey, replaceKey]
  | _ => simp [child?] at h

theorem child?_replaceKey_self (value : Json) :
    (doc.replaceKey key value).child? key = some value := by
  cases doc with
  | arr items =>
      cases hi : arrayIndex? key with
      | none => simp [child?, hi] at h
      | some i =>
          simp only [child?, hi, Option.bind_some] at h
          have hlt : i < items.length := (List.getElem?_eq_some_iff.mp h).1
          simp [child?, replaceKey, hi, hlt]
  | obj fields => simp [child?, replaceKey]
  | _ => simp [child?] at h

end

theorem child?_replaceKey_ne {other : String} (hne : other ≠ key) (doc value : Json) :
    (doc.replaceKey key value).child? other = doc.child? other := by
  cases doc with
  | arr items =>
      cases hi : arrayIndex? key with
      | none => simp [replaceKey, hi]
      | some i =>
          cases hj : arrayIndex? other with
          | none => simp [child?, replaceKey, hi, hj]
          | some j =>
              have hij : i ≠ j := by
                rintro rfl
                exact hne ((toString_of_arrayIndex? hj).symm.trans (toString_of_arrayIndex? hi))
              simp [child?, replaceKey, hi, hj, List.getElem?_set_ne hij]
  | obj fields => simpa [child?, replaceKey] using Fields.lookup_set_ne hne value fields
  | _ => rfl

theorem replaceKey_replaceKey (doc : Json) (key : String) (first second : Json) :
    (doc.replaceKey key first).replaceKey key second = doc.replaceKey key second := by
  cases doc with
  | arr items => cases hi : arrayIndex? key <;> simp [replaceKey, hi]
  | obj fields => simp [replaceKey]
  | _ => rfl

theorem replaceKey_child (h : doc.child? key = some child) : doc.replaceKey key child = doc := by
  cases doc with
  | arr items =>
      cases hi : arrayIndex? key with
      | none => simp [replaceKey, hi]
      | some i =>
          simp only [child?, hi, Option.bind_some] at h
          obtain ⟨hlt, hget⟩ := List.getElem?_eq_some_iff.mp h
          simp [replaceKey, hi, ← hget]
  | obj fields => simpa [replaceKey] using Fields.set_of_lookup h
  | _ => rfl

theorem replaceKey_comm {a : Json} {other : String} (hne : key ≠ other)
    (hkey : doc.child? key = some a) (x y : Json) :
    (doc.replaceKey key x).replaceKey other y = (doc.replaceKey other y).replaceKey key x := by
  cases doc with
  | arr items =>
      cases hi : arrayIndex? key with
      | none => simp [child?, hi] at hkey
      | some i =>
          cases hj : arrayIndex? other with
          | none => simp [replaceKey, hi, hj]
          | some j =>
              have hij : i ≠ j := by
                rintro rfl
                exact hne ((toString_of_arrayIndex? hi).symm.trans (toString_of_arrayIndex? hj))
              simp [replaceKey, hi, hj, List.set_comm x y hij]
  | obj fields =>
      simp only [child?] at hkey
      simp only [replaceKey, Json.obj.injEq]
      exact (Fields.set_comm_of_lookup hne (by simp [hkey]) x y).symm
  | _ => rfl

theorem truthy_of_child? (h : doc.child? key = some child) : doc.truthy = true := by
  cases doc with
  | arr | obj => rfl
  | _ => simp [child?] at h

/-- The value at a path of existing fields and indices. -/
def at? : Json → List String → Option Json
  | doc, [] => some doc
  | doc, key :: rest => (doc.child? key).bind fun child => child.at? rest

/-- The smallest document of objects that holds `value` at `path`. -/
def nest : List String → Json → Json
  | [], value => value
  | key :: rest, value => .obj [(key, nest rest value)]

theorem at?_nest (path : List String) (value : Json) : (nest path value).at? path = some value := by
  induction path with
  | nil => rfl
  | cons key rest ih => simpa [nest, at?, child?] using ih

def replaceAt : Json → List String → Json → Json
  | _, [], value => value
  | doc, key :: rest, value =>
      match doc.child? key with
      | some child => doc.replaceKey key (child.replaceAt rest value)
      | none => doc

@[simp] theorem at?_nil (doc : Json) : doc.at? [] = some doc := rfl

@[simp] theorem replaceAt_nil (doc value : Json) : doc.replaceAt [] value = value := rfl

theorem at?_cons {rest : List String} (h : doc.at? (key :: rest) = some target) :
    ∃ child, doc.child? key = some child ∧ child.at? rest = some target := by
  simpa [at?, Option.bind_eq_some_iff] using h

theorem at?_cons_of_child? (h : doc.child? key = some child) (rest : List String) :
    doc.at? (key :: rest) = child.at? rest := by
  simp [at?, h]

theorem replaceAt_cons (h : doc.child? key = some child) (rest : List String) (value : Json) :
    doc.replaceAt (key :: rest) value = doc.replaceKey key (child.replaceAt rest value) := by
  simp [replaceAt, h]

theorem at?_append (doc : Json) (path rest : List String) :
    doc.at? (path ++ rest) = (doc.at? path).bind fun target => target.at? rest := by
  induction path generalizing doc with
  | nil => rfl
  | cons key path ih =>
      cases h : doc.child? key with
      | none => simp [at?, h]
      | some child => simp [at?, h, ih]

section

variable (h : doc.at? path = some target)
include h

theorem at?_replaceAt_self (value : Json) : (doc.replaceAt path value).at? path = some value := by
  induction path generalizing doc with
  | nil => rfl
  | cons key path ih =>
      obtain ⟨child, hchild, hrest⟩ := at?_cons h
      rw [replaceAt_cons hchild, at?_cons_of_child? (child?_replaceKey_self hchild _)]
      exact ih hrest

theorem replaceAt_replaceAt (first second : Json) :
    (doc.replaceAt path first).replaceAt path second = doc.replaceAt path second := by
  induction path generalizing doc with
  | nil => rfl
  | cons key path ih =>
      obtain ⟨child, hchild, hrest⟩ := at?_cons h
      rw [replaceAt_cons hchild, replaceAt_cons hchild,
        replaceAt_cons (child?_replaceKey_self hchild _), replaceKey_replaceKey, ih hrest]

theorem replaceAt_at? : doc.replaceAt path target = doc := by
  induction path generalizing doc with
  | nil => exact (Option.some.inj h).symm
  | cons key path ih =>
      obtain ⟨child, hchild, hrest⟩ := at?_cons h
      rw [replaceAt_cons hchild, ih hrest, replaceKey_child hchild]

theorem replaceAt_append (rest : List String) (value : Json) :
    doc.replaceAt (path ++ rest) value = doc.replaceAt path (target.replaceAt rest value) := by
  induction path generalizing doc with
  | nil => cases h; rfl
  | cons key path ih =>
      obtain ⟨child, hchild, hrest⟩ := at?_cons h
      rw [List.cons_append, replaceAt_cons hchild, replaceAt_cons hchild, ih hrest]

theorem replaceAt_injective {first second : Json}
    (heq : doc.replaceAt path first = doc.replaceAt path second) : first = second := by
  have hfirst := at?_replaceAt_self h first
  rw [heq, at?_replaceAt_self h second] at hfirst
  exact (Option.some.inj hfirst).symm

end

/-- Neither path is a prefix of the other one. -/
def Apart (path other : List String) : Prop := ¬ path <+: other ∧ ¬ other <+: path

theorem Apart.symm (h : Apart path other) : Apart other path :=
  ⟨h.2, h.1⟩

theorem Apart.tail (h : Apart (key :: path) (key :: other)) : Apart path other :=
  ⟨fun hp => h.1 ((List.prefix_cons_inj key).mpr hp),
    fun hp => h.2 ((List.prefix_cons_inj key).mpr hp)⟩

theorem at?_replaceAt_of_apart (hapart : Apart path other) (h : doc.at? path = some target)
    (value : Json) : (doc.replaceAt path value).at? other = doc.at? other := by
  induction path generalizing doc other with
  | nil => exact absurd (List.nil_prefix) hapart.1
  | cons key path ih =>
      obtain ⟨child, hchild, hrest⟩ := at?_cons h
      cases other with
      | nil => exact absurd (List.nil_prefix) hapart.2
      | cons key' other =>
          rw [replaceAt_cons hchild]
          by_cases hkey : key' = key
          · subst hkey
            rw [at?_cons_of_child? (child?_replaceKey_self hchild _),
              at?_cons_of_child? hchild, ih hapart.tail hrest]
          · simp [at?, child?_replaceKey_ne hkey]

/-! ### Documents of the same structure -/

/-- What a document shows at a path, without what lies below it. -/
inductive Shape where
  | missing
  | null
  | bool (b : Bool)
  | num (n : Rat)
  | str (s : String)
  | arr (length : Nat)
  | obj
  deriving Repr, DecidableEq

def shape : Option Json → Shape
  | none => .missing
  | some .null => .null
  | some (.bool b) => .bool b
  | some (.num n) => .num n
  | some (.str s) => .str s
  | some (.arr items) => .arr items.length
  | some (.obj _) => .obj

/-- The value below a value that may be missing. -/
def under (value : Option Json) (path : List String) : Option Json :=
  value.bind fun value => value.at? path

/-- Two values that may be missing have the same structure. -/
def Same (a b : Option Json) : Prop := ∀ path, shape (under a path) = shape (under b path)

@[simp] theorem under_nil (value : Option Json) : under value [] = value := by
  cases value <;> rfl

theorem under_some (doc : Json) (path : List String) : under (some doc) path = doc.at? path := rfl

theorem under_append (value : Option Json) (path rest : List String) :
    under value (path ++ rest) = under (under value path) rest := by
  cases value with
  | none => rfl
  | some value => exact at?_append value path rest

theorem Same.refl (a : Option Json) : Same a a := fun _ => rfl

theorem Same.symm {a b : Option Json} (h : Same a b) : Same b a := fun path => (h path).symm

theorem Same.trans {a b c : Option Json} (h : Same a b) (hbc : Same b c) : Same a c :=
  fun path => (h path).trans (hbc path)

theorem Same.under {a b : Option Json} (h : Same a b) (path : List String) :
    Same (Json.under a path) (Json.under b path) := fun rest => by
  rw [← under_append, ← under_append]
  exact h (path ++ rest)

theorem Same.shape {a b : Option Json} (h : Same a b) : Json.shape a = Json.shape b := by
  simpa using h []

end Qontinui.Json
