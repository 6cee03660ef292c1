import Qontinui.Collaboration.UpdateConvergence

/-!
How far an operation reaches. An edit of a path looks at the keys of that path
only, a connection edit at the key `connections`, so either one commutes with
writes to locations that are apart from it; and what an edit of a path does is
settled by the slot the path names.
-/

namespace Qontinui.OperationalTransform

open Json

/-! ### Actions that look at one key -/

/-- An action on a container that looks at one of its keys only: it keeps every
other child, and goes the same way after that child is assigned. -/
def KeyLocal (act : Json → Js Json) (key : String) : Prop :=
  ∀ doc child other, other ≠ key → doc.child? other = some child →
    (∀ value, act (assignKey doc other value) = (assignKey · other value) <$> act doc) ∧
      ∀ next, act doc = .ok next → next.child? other = some child

variable {doc : Json} {key other : String} {op : Operation} {child : Json} {items : List Json}
  {j : Nat}

theorem readKey_container (h : doc.child? other = some child) (hkey : key ≠ "length") :
    doc.readKey key = .ok (doc.child? key) := by
  cases doc with
  | arr items => cases hi : arrayIndex? key <;> simp [readKey, child?, hi, hkey]
  | obj fields => rfl
  | _ => simp [child?] at h

theorem assignKey_element (hj : arrayIndex? other = some j) (value : JsValue) :
    assignKey (.arr items) other value = .arr (items.set j (value.getD .null)) := by
  cases value <;> simp [assignKey, replaceKey, hj]

theorem readKey_assignKey (hne : other ≠ key) (h : doc.child? other = some child)
    (hkey : key ≠ "length") (value : JsValue) :
    (assignKey doc other value).readKey key = doc.readKey key := by
  rw [readKey_container h hkey, ← child?_assignKey_ne hne.symm doc value]
  cases doc with
  | arr items =>
      obtain ⟨j, hj, _⟩ := Option.bind_eq_some_iff.mp h
      rw [assignKey_element hj]
      cases hi : arrayIndex? key <;> simp [readKey, child?, hi, hkey]
  | obj fields => cases value <;> rfl
  | _ => simp [child?] at h

theorem index_ne {i : Nat} (hne : other ≠ key) (hi : arrayIndex? key = some i)
    (hj : arrayIndex? other = some j) : j ≠ i := by
  rintro rfl
  exact hne ((toString_of_arrayIndex? hj).symm.trans (toString_of_arrayIndex? hi))

theorem writeIndex_set {i : Nat} (hne : j ≠ i) (hj : j < items.length) (item value : Json) :
    writeIndex (items.set j item) i value = (writeIndex items i value).set j item := by
  simp only [writeIndex, List.length_set]
  split_ifs with hi
  · exact List.set_comm _ _ hne
  · rw [List.set_append_left _ _ (by simp; omega), List.set_append_left _ _ hj]

theorem getElem?_writeIndex_ne {i : Nat} (hne : j ≠ i) (hj : j < items.length) (value : Json) :
    (writeIndex items i value)[j]? = items[j]? := by
  simp only [writeIndex]
  split_ifs with hi
  · exact List.getElem?_set_ne hne.symm
  · rw [List.getElem?_append_left (by simp; omega), List.getElem?_append_left hj]

theorem keyLocal_writeKey (hkey : key ≠ "length") (value : JsValue) :
    KeyLocal (·.writeKey key value) key := by
  intro doc child other hne hchild
  cases doc with
  | arr items =>
      obtain ⟨j, hj, hitem⟩ := Option.bind_eq_some_iff.mp hchild
      have hlt : j < items.length := (List.getElem?_eq_some_iff.mp hitem).1
      cases hi : arrayIndex? key with
      | none =>
          constructor
          · intro assigned
            simp only [assignKey_element hj, writeKey, hi, if_neg hkey]
            exact congrArg Except.ok (assignKey_element hj assigned).symm
          · intro next hnext
            simp only [writeKey, hi, if_neg hkey, Except.ok.injEq] at hnext
            rwa [← hnext]
      | some i =>
          have hij := index_ne hne hi hj
          constructor
          · intro assigned
            simp only [assignKey_element hj, writeKey, hi, writeIndex_set hij hlt]
            exact congrArg Except.ok (assignKey_element hj assigned).symm
          · intro next hnext
            simp only [writeKey, hi, Except.ok.injEq] at hnext
            rw [← hnext]
            simp only [child?, hj, Option.bind_some, getElem?_writeIndex_ne hij hlt, hitem]
  | obj fields =>
      have hwrite : ∀ fs, (Json.obj fs).writeKey key value = .ok (assignKey (.obj fs) key value) := by
        intro fs
        cases value <;> rfl
      constructor
      · intro assigned
        obtain ⟨fs, hfs⟩ : ∃ fs, assignKey (.obj fields) other assigned = .obj fs := by
          cases assigned <;> exact ⟨_, rfl⟩
        simp only [hwrite, hfs]
        rw [← hfs, assignKey_comm hne hchild]
        rfl
      · intro next hnext
        simp only [hwrite, Except.ok.injEq] at hnext
        rw [← hnext, child?_assignKey_ne hne, hchild]
  | _ => simp [child?] at hchild

theorem keyLocal_deleteKey (hkey : key ≠ "length") : KeyLocal (·.deleteKey key) key := by
  intro doc child other hne hchild
  cases doc with
  | arr items =>
      obtain ⟨j, hj, hitem⟩ := Option.bind_eq_some_iff.mp hchild
      cases hi : arrayIndex? key with
      | none =>
          constructor
          · intro assigned
            simp only [assignKey_element hj, deleteKey, hi, if_neg hkey]
            exact congrArg Except.ok (assignKey_element hj assigned).symm
          · intro next hnext
            simp only [deleteKey, hi, if_neg hkey, Except.ok.injEq] at hnext
            rwa [← hnext]
      | some i =>
          have hij := index_ne hne hi hj
          constructor
          · intro assigned
            simp only [assignKey_element hj, deleteKey, hi, List.set_comm _ _ hij]
            exact congrArg Except.ok (assignKey_element hj assigned).symm
          · intro next hnext
            simp only [deleteKey, hi, Except.ok.injEq] at hnext
            rw [← hnext]
            simp only [child?, hj, Option.bind_some, List.getElem?_set_ne hij.symm, hitem]
  | obj fields =>
      -- on an object it is the write of `undefined`
      obtain ⟨hassign, hkeep⟩ := keyLocal_writeKey hkey none (.obj fields) child other hne hchild
      refine ⟨fun assigned => ?_, hkeep⟩
      have hwrite := hassign assigned
      cases assigned <;> exact hwrite
  | _ => simp [child?] at hchild

theorem keyLocal_replaceKey (key : String) (value : Json) :
    KeyLocal (fun doc => .ok (doc.replaceKey key value)) key := by
  intro doc child other hne hchild
  constructor
  · intro assigned
    exact congrArg Except.ok (assignKey_comm hne hchild assigned (some value))
  · intro next hnext
    cases hnext
    rw [child?_replaceKey_ne hne, hchild]

theorem keyLocal_ok (key : String) : KeyLocal .ok key := by
  intro doc child other _ hchild
  refine ⟨fun _ => rfl, fun next hnext => ?_⟩
  cases hnext
  exact hchild

theorem keyLocal_error (e : JsError) (key : String) : KeyLocal (fun _ => .error e) key :=
  fun _ _ _ _ _ => ⟨fun _ => rfl, fun _ hnext => nomatch hnext⟩

theorem KeyLocal.bind {α : Type} {act : α → Json → Js Json} (h : ∀ a, KeyLocal (act a) key)
    (x : Js α) : KeyLocal (fun doc => x >>= (act · doc)) key := by
  cases x with
  | error e => exact keyLocal_error e key
  | ok a => exact h a

theorem KeyLocal.read {act : JsValue → Json → Js Json} (hkey : key ≠ "length")
    (h : ∀ value, KeyLocal (act value) key) :
    KeyLocal (fun doc => doc.readKey key >>= (act · doc)) key := by
  intro doc child other hne hchild
  simp only [readKey_assignKey hne hchild hkey]
  exact KeyLocal.bind h (doc.readKey key) doc child other hne hchild

theorem keyLocal_navigateToPath (hkey : key ≠ "length") (act : Json → Js Json) (rest : List String) :
    KeyLocal (navigateToPath act · (key :: rest)) key := by
  refine KeyLocal.read hkey fun value => ?_
  cases value with
  | none => exact KeyLocal.bind (fun child => keyLocal_writeKey hkey (some child)) _
  | some child =>
      cases htruthy : child.truthy with
      | true =>
          simp only [htruthy, if_true]
          exact KeyLocal.bind (fun child => keyLocal_replaceKey key child) _
      | false =>
          simp only [htruthy, Bool.false_eq_true, if_false]
          exact KeyLocal.bind (fun child => keyLocal_writeKey hkey (some child)) _

/-! ### Edits at locations that are apart -/

section Apart

variable {act : Json → String → Js Json}

theorem keyLocal_mutateProperty {key : String} {rest : List String}
    (hact : ∀ key, key ≠ "length" → KeyLocal (act · key) key) (hkey : key ≠ "length") :
    KeyLocal (mutateProperty act · (key :: rest)) key := by
  cases rest with
  | nil => exact hact key hkey
  | cons next rest =>
      have hmutate : ∀ doc, mutateProperty act doc (key :: next :: rest) =
          navigateToPath (act · ((next :: rest).getLast (by simp))) doc
            (key :: (next :: rest).dropLast) := by
        intro doc
        simp only [mutateProperty, List.getLast?_cons_cons,
          List.getLast?_eq_some_getLast (List.cons_ne_nil next rest), List.dropLast_cons_cons]
      simp only [hmutate]
      exact keyLocal_navigateToPath hkey _ _

theorem mutateProperty_cons {doc child : Json} {key : String} {rest : List String}
    (h : doc.child? key = some child) (htruthy : child.truthy = true) (hrest : rest ≠ []) :
    mutateProperty act doc (key :: rest) =
      (doc.replaceKey key ·) <$> mutateProperty act child rest := by
  obtain ⟨front, last, rfl⟩ : ∃ front last, rest = front ++ [last] :=
    ⟨_, _, (List.dropLast_append_getLast hrest).symm⟩
  rw [← List.cons_append, mutateProperty_concat, mutateProperty_concat,
    navigateToPath_cons_of_child? h, entered_of_truthy htruthy]

theorem KeyLocal.below {act : Json → Js Json} {doc a : Json} {key key' : String}
    {path : List String} (h : KeyLocal act key') (hne : key ≠ key')
    (hpath : doc.at? (key :: path) = some a) :
    (∀ value, act (assignAt doc (key :: path) value) =
      (assignAt · (key :: path) value) <$> act doc) ∧
        ∀ next, act doc = .ok next → next.at? (key :: path) = some a := by
  obtain ⟨child, hchild, hrest⟩ := at?_cons hpath
  obtain ⟨hassign, hkeep⟩ := h doc child key hne hchild
  constructor
  · intro value
    rw [assignAt_cons_key hchild, hassign]
    cases hact : act doc with
    | error e => rfl
    | ok next => exact congrArg Except.ok (assignAt_cons_key (hkeep next hact) _ _).symm
  · intro next hnext
    rw [at?_cons_of_child? (hkeep next hnext)]
    exact hrest

/-- A mutation keeps a location that is apart from it, and goes the same way
after that location is assigned. -/
theorem mutateProperty_apart (hact : ∀ key, key ≠ "length" → KeyLocal (act · key) key)
    {doc a : Json} {path other : List String} (hlength : "length" ∉ other)
    (hapart : Apart path other) (hpath : doc.at? path = some a) :
    (∀ value, mutateProperty act (assignAt doc path value) other =
      (assignAt · path value) <$> mutateProperty act doc other) ∧
        ∀ next, mutateProperty act doc other = .ok next → next.at? path = some a := by
  induction path generalizing doc other with
  | nil => exact absurd List.nil_prefix hapart.1
  | cons key path ih =>
      obtain ⟨child, hchild, hrest⟩ := at?_cons hpath
      cases other with
      | nil => exact absurd List.nil_prefix hapart.2
      | cons key' other =>
          have hlength' : key' ≠ "length" := fun h => hlength (by simp [h])
          rcases eq_or_ne key key' with rfl | hne
          · have hpathNe : path ≠ [] := by
              rintro rfl
              exact hapart.1 (List.cons_prefix_cons.mpr ⟨rfl, List.nil_prefix⟩)
            have hotherNe : other ≠ [] := by
              rintro rfl
              exact hapart.2 (List.cons_prefix_cons.mpr ⟨rfl, List.nil_prefix⟩)
            obtain ⟨inner, rest, rfl⟩ := List.exists_cons_of_ne_nil hpathNe
            obtain ⟨grandchild, hgrandchild, _⟩ := at?_cons hrest
            have htruthy : child.truthy = true := truthy_of_child? hgrandchild
            obtain ⟨hassign, hkeep⟩ := ih (fun h => hlength (List.mem_cons_of_mem _ h))
              hapart.tail hrest
            have htruthy' : ∀ value, (assignAt child (inner :: rest) value).truthy = true := by
              intro value
              rw [assignAt_cons_key hgrandchild]
              exact truthy_assignKey hgrandchild _
            constructor
            · intro value
              rw [assignAt_cons hchild hpathNe, mutateProperty_cons
                (child?_replaceKey_self hchild _) (htruthy' value) hotherNe,
                mutateProperty_cons hchild htruthy hotherNe, hassign]
              cases mutateProperty act child other with
              | error e => rfl
              | ok next =>
                  apply congrArg Except.ok
                  simp only [replaceKey_replaceKey]
                  rw [assignAt_cons (child?_replaceKey_self hchild _)
                    hpathNe, replaceKey_replaceKey]
            · intro next hnext
              rw [mutateProperty_cons hchild htruthy hotherNe] at hnext
              cases hinner : mutateProperty act child other with
              | error e =>
                  rw [hinner] at hnext
                  cases hnext
              | ok result =>
                  rw [hinner] at hnext
                  cases hnext
                  rw [at?_cons_of_child? (child?_replaceKey_self hchild _)]
                  exact hkeep result hinner
          · exact KeyLocal.below (keyLocal_mutateProperty hact hlength') hne hpath

end Apart

/-! ### What an edit touches -/

def EditsPath (op : Operation) : Prop := op.type ≠ .connect ∧ op.type ≠ .disconnect

def touched (op : Operation) : List String :=
  if op.type = .connect ∨ op.type = .disconnect then ["connections"] else op.path

theorem keyLocal_applyConnect (op : Operation) : KeyLocal (applyConnect · op) "connections" := by
  refine KeyLocal.read (by decide) fun connections => ?_
  cases htruthy : JsValue.truthy connections with
  | false =>
      simp only [Bool.false_eq_true, if_false]
      exact keyLocal_writeKey (by decide) _
  | true =>
      simp only [if_true]
      split
      · exact keyLocal_replaceKey _ _
      · exact keyLocal_error _ _

theorem keyLocal_applyDisconnect (op : Operation) :
    KeyLocal (applyDisconnect · op) "connections" := by
  refine KeyLocal.read (by decide) fun connections => ?_
  cases htruthy : JsValue.truthy connections with
  | false =>
      simp only [Bool.false_eq_true, if_false]
      exact keyLocal_ok _
  | true =>
      simp only [if_true]
      split
      · exact KeyLocal.bind (fun kept => keyLocal_writeKey (by decide) _) _
      · exact keyLocal_error _ _

/-- An edit keeps what is apart from it, and goes the same way after that is
assigned. -/
theorem apply_apart {a : Json} {path : List String} (hlength : "length" ∉ op.path)
    (hapart : Apart path (touched op)) (hpath : doc.at? path = some a) :
    (∀ value, apply (assignAt doc path value) op = (assignAt · path value) <$> apply doc op) ∧
      ∀ next, apply doc op = .ok next → next.at? path = some a := by
  have hconnections : ∀ {act : Json → Js Json}, KeyLocal act "connections" →
      Apart path ["connections"] →
        (∀ value, act (assignAt doc path value) = (assignAt · path value) <$> act doc) ∧
          ∀ next, act doc = .ok next → next.at? path = some a := by
    intro act hact hapart
    cases path with
    | nil => exact absurd List.nil_prefix hapart.1
    | cons key rest =>
        refine KeyLocal.below hact ?_ hpath
        rintro rfl
        exact hapart.2 (List.cons_prefix_cons.mpr ⟨rfl, List.nil_prefix⟩)
  cases htype : op.type with
  | insert =>
      simp only [touched, htype, reduceCtorEq, or_self, if_false] at hapart
      simp only [apply, applyInsert, htype]
      refine mutateProperty_apart (fun key hkey => KeyLocal.read hkey fun value => ?_) hlength
        hapart hpath
      split
      · exact keyLocal_replaceKey _ _
      · exact keyLocal_writeKey hkey _
  | delete =>
      simp only [touched, htype, reduceCtorEq, or_self, if_false] at hapart
      simp only [apply, applyDelete, htype]
      refine mutateProperty_apart (fun key hkey => KeyLocal.read hkey fun value => ?_) hlength
        hapart hpath
      split
      · exact keyLocal_replaceKey _ _
      · exact keyLocal_deleteKey hkey
  | update =>
      simp only [touched, htype, reduceCtorEq, or_self, if_false] at hapart
      simp only [apply, applyUpdate, htype]
      exact mutateProperty_apart (fun key hkey => keyLocal_writeKey hkey _) hlength hapart hpath
  | move =>
      simp only [touched, htype, reduceCtorEq, or_self, if_false] at hapart
      simp only [apply, applyMove, htype]
      refine mutateProperty_apart (fun key hkey => KeyLocal.read hkey fun value => ?_) hlength
        hapart hpath
      split
      · exact keyLocal_replaceKey _ _
      · exact keyLocal_ok _
  | connect =>
      simp only [touched, htype, true_or, if_true] at hapart
      simp only [apply, htype]
      exact hconnections (keyLocal_applyConnect op) hapart
  | disconnect =>
      simp only [touched, htype, or_true, if_true] at hapart
      simp only [apply, htype]
      exact hconnections (keyLocal_applyDisconnect op) hapart

/-! ### The slot a path names -/

/-- A container that takes assignments at `key`: an object, or an array that has
the element. -/
def IsSlot (parent : Json) (key : String) : Prop :=
  (∃ fields, parent = .obj fields) ∨
    ∃ items i, parent = .arr items ∧ arrayIndex? key = some i ∧ i < items.length

theorem isSlot_of_child? {parent : Json} (h : parent.child? key = some child) :
    IsSlot parent key := by
  cases parent with
  | arr items =>
      obtain ⟨i, hi, hitem⟩ := Option.bind_eq_some_iff.mp h
      exact Or.inr ⟨items, i, rfl, hi, (List.getElem?_eq_some_iff.mp hitem).1⟩
  | obj fields => exact Or.inl ⟨fields, rfl⟩
  | _ => simp [child?] at h

/-- What a slot shows of the value stored in it: array slots have no `undefined`. -/
def shown (parent : Json) (value : JsValue) : JsValue :=
  if parent.isArray then some (value.getD .null) else value

section Slot

variable {parent : Json} {key : String}

theorem IsSlot.truthy (h : IsSlot parent key) : parent.truthy = true := by
  obtain ⟨fields, rfl⟩ | ⟨items, i, rfl, _, _⟩ := h <;> rfl

theorem IsSlot.readKey (h : IsSlot parent key) : parent.readKey key = .ok (parent.child? key) := by
  obtain ⟨fields, rfl⟩ | ⟨items, i, rfl, hi, _⟩ := h
  · rfl
  · simp [Json.readKey, child?, hi]

theorem IsSlot.writeKey (h : IsSlot parent key) (value : JsValue) :
    parent.writeKey key value = .ok (assignKey parent key value) := by
  obtain ⟨fields, rfl⟩ | ⟨items, i, rfl, hi, hlt⟩ := h
  · cases value <;> rfl
  · rw [assignKey_element hi]
    simp only [Json.writeKey, hi, writeIndex, if_pos hlt]

theorem IsSlot.deleteKey (h : IsSlot parent key) :
    parent.deleteKey key = .ok (assignKey parent key none) := by
  obtain ⟨fields, rfl⟩ | ⟨items, i, rfl, hi, _⟩ := h
  · rfl
  · rw [assignKey_element hi]
    simp only [Json.deleteKey, hi, Option.getD_none]

theorem IsSlot.assignKey_child (h : IsSlot parent key) :
    assignKey parent key (parent.child? key) = parent := by
  cases hchild : parent.child? key with
  | some child => exact replaceKey_child hchild
  | none =>
      obtain ⟨fields, rfl⟩ | ⟨items, i, rfl, hi, hlt⟩ := h
      · exact congrArg Json.obj (Fields.erase_of_lookup hchild)
      · simp [child?, hi, hlt] at hchild

theorem IsSlot.assignKey (h : IsSlot parent key) (value : JsValue) :
    IsSlot (assignKey parent key value) key := by
  obtain ⟨fields, rfl⟩ | ⟨items, i, rfl, hi, hlt⟩ := h
  · cases value <;> exact Or.inl ⟨_, rfl⟩
  · rw [assignKey_element hi]
    exact Or.inr ⟨_, i, rfl, hi, by simpa using hlt⟩

theorem IsSlot.child?_assignKey (h : IsSlot parent key) (value : JsValue) :
    (OperationalTransform.assignKey parent key value).child? key = shown parent value := by
  obtain ⟨fields, rfl⟩ | ⟨items, i, rfl, hi, hlt⟩ := h
  · cases value with
    | none => exact Fields.lookup_erase_self key fields
    | some value => exact Fields.lookup_set_self key value fields
  · rw [assignKey_element hi]
    simp [child?, hi, hlt, shown, isArray]

end Slot

def slotEdit (op : Operation) (current : JsValue) : JsValue :=
  match current with
  | some (.arr items) =>
      if op.type = .update then op.value else some (.arr (editItems op items))
  | _ =>
      match op.type with
      | .delete => none
      | .move => current
      | _ => op.value

theorem slotEdit_update (h : op.type = .update) (current : JsValue) :
    slotEdit op current = op.value := by
  unfold slotEdit
  split
  · rw [if_pos h]
  · rw [h]

theorem array_or (value : JsValue) :
    (∃ items, value = some (.arr items)) ∨ ∀ items, value ≠ some (.arr items) :=
  or_iff_not_imp_left.mpr not_exists.mp

theorem slotEdit_of_not_array {current : JsValue} (h : ∀ items, current ≠ some (.arr items)) :
    slotEdit op current =
      match op.type with
      | .delete => none
      | .move => current
      | _ => op.value := by
  unfold slotEdit
  split
  · next items => exact absurd rfl (h items)
  · rfl

theorem apply_slot {parent : Json} {front : List String} (hfront : doc.at? front = some parent)
    (hslot : IsSlot parent key) (hpath : op.path = front ++ [key]) (hop : EditsPath op) :
    apply doc op =
      .ok (doc.replaceAt front (assignKey parent key (slotEdit op (parent.child? key)))) := by
  have hmutate : ∀ {act : Json → String → Js Json} {value : JsValue},
      act parent key = .ok (assignKey parent key value) →
        mutateProperty act doc op.path =
          .ok (doc.replaceAt front (assignKey parent key value)) := by
    intro act value hact
    rw [hpath, mutateProperty_concat, navigateToPath_of_at? hfront hslot.truthy, hact]
    rfl
  rcases array_or (parent.child? key) with ⟨items, hitems⟩ | hother
  · simp only [hitems, slotEdit]
    cases htype : op.type with
    | connect => exact absurd htype hop.1
    | disconnect => exact absurd htype hop.2
    | update =>
        simp only [apply, applyUpdate, htype, if_true]
        exact hmutate (hslot.writeKey _)
    | insert | delete | move =>
        simp only [apply, applyInsert, applyDelete, applyMove, htype, reduceCtorEq, if_false]
        apply hmutate
        simp only [hslot.readKey, hitems, editItems, htype]
        rfl
  · rw [slotEdit_of_not_array hother]
    cases htype : op.type with
    | connect => exact absurd htype hop.1
    | disconnect => exact absurd htype hop.2
    | update =>
        simp only [apply, applyUpdate, htype]
        exact hmutate (hslot.writeKey _)
    | insert =>
        simp only [apply, applyInsert, htype]
        apply hmutate
        simp only [hslot.readKey, bind, Except.bind]
        exact hslot.writeKey _
    | delete =>
        simp only [apply, applyDelete, htype]
        apply hmutate
        simp only [hslot.readKey, bind, Except.bind]
        exact hslot.deleteKey
    | move =>
        simp only [apply, applyMove, htype]
        apply hmutate
        simp only [hslot.readKey, bind, Except.bind, hslot.assignKey_child]
        rfl

theorem apply_at {current : Json} (hpath : op.path ≠ []) (h : doc.at? op.path = some current)
    (hop : EditsPath op) :
    apply doc op = .ok (assignAt doc op.path (slotEdit op (some current))) := by
  obtain ⟨front, key, parent, hsplit, hfront, hchild⟩ := at?_parent hpath h
  rw [apply_slot hfront (isSlot_of_child? hchild) hsplit hop, hchild, hsplit,
    assignAt_concat hfront]

end Qontinui.OperationalTransform
