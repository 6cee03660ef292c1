import Qontinui.Collaboration.LocalEdits

/-!
Documents after edits of one slot. Two of them have the same structure exactly when
the slot shows the same.
-/

namespace Qontinui.OperationalTransform

open Json

/-- The last key of a path is a slot of `parent`, which the keys before it lead to. -/
structure Located (doc : Json) (path : List String) (parent : Json) (key : String) : Prop where
  split : ∃ front, path = front ++ [key] ∧ doc.at? front = some parent
  slot : IsSlot parent key

variable {doc : Json} {key : String}

theorem Located.unique {parent parent' : Json} {path : List String} {key' : String}
    (h : Located doc path parent key) (h' : Located doc path parent' key') :
    parent = parent' ∧ key = key' := by
  obtain ⟨front, rfl, hfront⟩ := h.split
  obtain ⟨front', hsplit, hfront'⟩ := h'.split
  obtain ⟨rfl, hkey⟩ := List.append_inj' hsplit rfl
  cases hkey
  exact ⟨Option.some.inj (hfront.symm.trans hfront'), rfl⟩

theorem under_cons (doc : Json) (key : String) (path : List String) :
    under (some doc) (key :: path) = under (doc.child? key) path := rfl

theorem same_child {left right : Json} (h : Same (some left) (some right)) (key : String) :
    Same (left.child? key) (right.child? key) := fun path => h (key :: path)

theorem same_iff_child {left right : Json} (key : String)
    (hshape : shape (some left) = shape (some right))
    (hother : ∀ other, other ≠ key → left.child? other = right.child? other) :
    Same (some left) (some right) ↔ Same (left.child? key) (right.child? key) := by
  constructor
  · exact fun h => same_child h key
  · intro h path
    cases path with
    | nil => exact hshape
    | cons other path =>
        rw [under_cons, under_cons]
        by_cases heq : other = key
        · subst heq
          exact h path
        · rw [hother other heq]

theorem shape_replaceKey (doc value : Json) (key : String) :
    shape (some (doc.replaceKey key value)) = shape (some doc) := by
  cases doc with
  | arr items => cases hi : arrayIndex? key <;> simp [replaceKey, hi, shape]
  | _ => rfl

theorem same_replaceKey_iff {child : Json} (h : doc.child? key = some child) (left right : Json) :
    Same (some (doc.replaceKey key left)) (some (doc.replaceKey key right)) ↔
      Same (some left) (some right) := by
  rw [same_iff_child key, child?_replaceKey_self h, child?_replaceKey_self h]
  · rw [shape_replaceKey, shape_replaceKey]
  · intro other hne
    rw [child?_replaceKey_ne hne, child?_replaceKey_ne hne]

theorem same_replaceAt_iff {target : Json} {path : List String} (h : doc.at? path = some target)
    (left right : Json) :
    Same (some (doc.replaceAt path left)) (some (doc.replaceAt path right)) ↔
      Same (some left) (some right) := by
  induction path generalizing doc with
  | nil => rfl
  | cons key path ih =>
      obtain ⟨child, hchild, hrest⟩ := at?_cons h
      rw [replaceAt_cons hchild, replaceAt_cons hchild, same_replaceKey_iff hchild, ih hrest]

section Slot

variable {parent : Json} {key : String}

theorem IsSlot.shape_assignKey (h : IsSlot parent key) (value : JsValue) :
    shape (some (OperationalTransform.assignKey parent key value)) = shape (some parent) := by
  obtain ⟨fields, rfl⟩ | ⟨items, i, rfl, hi, -⟩ := h
  · cases value <;> rfl
  · rw [assignKey_element hi]
    simp [shape]

theorem IsSlot.shown_assignKey (h : IsSlot parent key) (stored value : JsValue) :
    shown (OperationalTransform.assignKey parent key stored) value = shown parent value := by
  obtain ⟨fields, rfl⟩ | ⟨items, i, rfl, hi, -⟩ := h
  · cases stored <;> rfl
  · rw [assignKey_element hi]
    rfl

theorem IsSlot.same_assign_twice_iff (h : IsSlot parent key) (first second value : JsValue) :
    Same (some (OperationalTransform.assignKey (OperationalTransform.assignKey parent key first)
        key second)) (some (OperationalTransform.assignKey parent key value)) ↔
      Same (shown parent second) (shown parent value) := by
  have hnext := h.assignKey first
  rw [same_iff_child key, hnext.child?_assignKey, h.child?_assignKey, h.shown_assignKey]
  · rw [hnext.shape_assignKey, h.shape_assignKey, h.shape_assignKey]
  · intro other hne
    rw [child?_assignKey_ne hne, child?_assignKey_ne hne, child?_assignKey_ne hne]

end Slot

theorem applyThen_slot {parent : Json} {first second : Operation} {front : List String}
    (hfront : doc.at? front = some parent) (hslot : IsSlot parent key)
    (hpath1 : first.path = front ++ [key]) (hpath2 : second.path = front ++ [key])
    (hfirst : EditsPath first) (hsecond : EditsPath second) :
    applyThen doc first second =
      .ok (doc.replaceAt front
        (assignKey (assignKey parent key (slotEdit first (parent.child? key))) key
          (slotEdit second (shown parent (slotEdit first (parent.child? key)))))) := by
  have hnext := at?_replaceAt_self hfront
    (assignKey parent key (slotEdit first (parent.child? key)))
  rw [applyThen_of_ok (apply_slot hfront hslot hpath1 hfirst),
    apply_slot hnext (hslot.assignKey _) hpath2 hsecond, replaceAt_replaceAt hfront,
    hslot.child?_assignKey]

end Qontinui.OperationalTransform
