import Qontinui.Collaboration.MoveConvergence
import Qontinui.Collaboration.UpdateWrites

/-!
A structural edit of an array against an update inside one of its elements. Only
insertions re-index the path of the update: after a deletion or a move the
update goes to whatever element is at its old index.
-/

namespace Qontinui.OperationalTransform

open Json ListEdit

/-! ### Updates inside an element -/

theorem child?_element {items : List Json} {i : Nat} :
    (Json.arr items).child? (toString i) = items[i]? := by
  simp only [child?, arrayIndex?_toString, Option.bind_some]

/-- An update whose path enters the element at index `i` of the array at `path`. -/
structure UpdatesElement (op : Operation) (path : List String) (i : Nat) (keys : List String) :
    Prop where
  type : op.type = .update
  path : op.path = path ++ toString i :: keys

section Element

variable {doc : Json} {op : Operation} {path keys : List String} {items : List Json} {i : Nat}

theorem apply_updatesElement {element : Json} (hop : UpdatesElement op path i keys)
    (hdoc : doc.at? path = some (.arr items)) (helement : items[i]? = some element) :
    apply doc op = (fun written => doc.replaceAt path (.arr (items.set i written))) <$>
      writeElement op.value element keys := by
  have hchild : (Json.arr items).child? (toString i) = some element := by
    rw [child?_element, helement]
  have hat : doc.at? (path ++ [toString i]) = some element := by
    rw [at?_append, hdoc, Option.bind_some, at?_cons_of_child? hchild, at?_nil]
  have hreplace : ∀ written, doc.replaceAt (path ++ [toString i]) written =
      doc.replaceAt path (.arr (items.set i written)) := by
    intro written
    rw [replaceAt_append hdoc, replaceAt_cons hchild]
    simp only [replaceKey, arrayIndex?_toString, replaceAt_nil]
  unfold writeElement
  split_ifs with hkeys
  · subst hkeys
    rw [apply_update_at (by simp [hop.path]) (by rw [hop.path]; exact hat) hop.type, hop.path]
    cases hvalue : op.value with
    | some value =>
        rw [assignAt_some (by simp) hat, hreplace]
        rfl
    | none =>
        rw [assignAt_none_array hdoc hchild, hreplace]
        rfl
  · rw [apply_update_below (by simp) hkeys hat hop.type
      (by rw [hop.path, List.append_assoc, List.singleton_append])]
    simp only [hreplace]

/-- Past the end of the array an update that succeeds makes the array longer. -/
theorem apply_updatesElement_past_end {next : Json} (hop : UpdatesElement op path i keys)
    (hdoc : doc.at? path = some (.arr items)) (hi : items.length ≤ i)
    (h : apply doc op = .ok next) :
    ∃ longer, next = doc.replaceAt path (.arr longer) ∧ items.length < longer.length := by
  rw [apply_update_in (by simp) hdoc rfl hop.type hop.path] at h
  cases hwrite : writeBelow op.value (.arr items) (toString i :: keys) with
  | error e =>
      rw [hwrite] at h
      cases h
  | ok written =>
      rw [hwrite] at h
      cases h
      -- every way to succeed assigns to an index past the end
      have hlonger : ∀ value : Json, items.length < (writeIndex items i value).length := by
        intro value
        simp only [writeIndex, if_neg (Nat.not_lt.mpr hi), List.length_append,
          List.length_singleton]
        omega
      have hassigned : ∀ {value : JsValue}, (Json.arr items).writeKey (toString i) value =
          .ok (.arr (writeIndex items i (value.getD .null))) := by
        intro value
        simp only [writeKey, arrayIndex?_toString]
      cases keys with
      | nil =>
          have hslot := hassigned.symm.trans hwrite
          cases hslot
          exact ⟨_, rfl, hlonger _⟩
      | cons key rest =>
          obtain ⟨front, last, hsplit⟩ : ∃ front last, key :: rest = front ++ [last] :=
            ⟨_, _, (List.dropLast_append_getLast (by simp)).symm⟩
          have hentered : entered (.arr items) = .arr items := rfl
          rw [hsplit, ← List.cons_append, writeBelow_concat, hentered] at hwrite
          rcases navigateToPath_cons_ok hwrite with ⟨child, inner, hread, _⟩ |
            ⟨_, inner, _, _, _, hinner⟩
          · have hmissing : items[i]? = some child := by
              simpa only [readKey, arrayIndex?_toString, Except.ok.injEq] using hread
            rw [List.getElem?_eq_none hi] at hmissing
            cases hmissing
          · have hslot := hassigned.symm.trans hinner
            cases hslot
            exact ⟨_, rfl, hlonger _⟩

end Element

/-! ### What `transform` does with the path of the update -/

theorem firstDifference_append (path rest : List String) :
    firstDifference (path ++ rest) path = none := by
  induction path with
  | nil => simp [firstDifference]
  | cons key path ih =>
      simp only [firstDifference, List.findIdx?_eq_none_iff] at ih
      simp only [firstDifference, List.findIdx?_eq_none_iff, List.cons_append,
        List.zip_cons_cons, List.mem_cons]
      rintro segments (rfl | hmem)
      · simp
      · exact ih segments hmem

theorem adjustPathForInsert_element {path keys : List String} {i : Nat} {position : Int}
    (h0 : 0 ≤ position) :
    adjustPathForInsert (path ++ toString i :: keys) path position =
      path ++ toString (skip position.toNat i) :: keys := by
  have hsegment : (path ++ toString i :: keys)[path.length]? = some (toString i) := by simp
  have hnonempty : toString i ≠ "" := by
    intro h
    have := arrayIndex?_toString i
    rw [h] at this
    cases this
  have hshift : shiftSegment (path ++ toString i :: keys) path.length position =
      if (i : Int) ≥ position then some (path ++ toString (i + 1) :: keys) else none := by
    simp only [shiftSegment, hsegment, if_neg hnonempty, parseInt_toString]
    split_ifs
    · rw [List.set_append_right _ _ (Nat.le_refl _), Nat.sub_self]
      rfl
    · rfl
  simp only [adjustPathForInsert, pathsConflict_append_left, Bool.not_true, Bool.false_eq_true,
    if_false, firstDifference_append, Option.bind_none, hshift, skip]
  rw [if_pos (by simp)]
  split_ifs <;> first | rfl | omega

section Transform

variable {op1 op2 : Operation} {i : Nat} {keys : List String}

theorem transform_insert_update (h1 : op1.type = .insert) (h0 : 0 ≤ op1.pos)
    (h2 : UpdatesElement op2 op1.path i keys) :
    transform op1 op2 =
      (op1, { op2 with path := op1.path ++ toString (skip op1.pos.toNat i) :: keys }) := by
  have hconflict : pathsConflict op1.path op2.path = true := by
    rw [h2.path]
    exact pathsConflict_append _ _
  have hby : transformByType op1 op2 = transformInsertUpdate op1 op2 := by
    simp only [transformByType, h1, h2.type]
  rw [transform_of_conflict hconflict, hby, transformInsertUpdate, hconflict, h2.path,
    adjustPathForInsert_element h0]
  rfl

theorem transform_delete_or_move_update (h1 : op1.type = .delete ∨ op1.type = .move)
    (h2 : UpdatesElement op2 op1.path i keys) : transform op1 op2 = (op1, op2) := by
  have hconflict : pathsConflict op1.path op2.path = true := by
    rw [h2.path]
    exact pathsConflict_append _ _
  rw [transform_of_conflict hconflict]
  rcases h1 with h1 | h1
  · have hunequal : pathsEqual op1.path op2.path = false := by
      rw [← Bool.not_eq_true, pathsEqual_iff, h2.path]
      intro h
      have := congrArg List.length h
      simp at this
    simp only [transformByType, h1, h2.type, transformDeleteUpdate, hunequal,
      Bool.false_eq_true, if_false]
  · simp only [transformByType, h1, h2.type]

theorem transform_update_structural (h1 : EditsArray op1)
    (h2 : UpdatesElement op2 op1.path i keys) :
    transform op2 op1 = (transform op1 op2).swap := by
  apply transform_swap_of_type
  rw [h2.type]
  rcases h1 with h1 | h1 | h1 <;> rw [h1] <;> decide

end Transform

/-! ### The two orders -/

section Converge

variable {doc element stored : Json} {op1 op2 : Operation} {items : List Json} {i : Nat}
  {keys : List String}

section

variable (hpath : op1.path ≠ [])
include hpath

section

variable (hdoc : doc.at? op1.path = some (.arr items))
include hdoc

theorem applyThen_update_structural {written : Json} (h1 : EditsArray op1)
    (h2 : UpdatesElement op2 op1.path i keys) (helement : items[i]? = some element)
    (hwritten : writeElement op2.value element keys = .ok written) :
    applyThen doc op2 op1 =
      .ok (doc.replaceAt op1.path (.arr (editItems op1 (items.set i written)))) := by
  have hfirst : apply doc op2 = .ok (doc.replaceAt op1.path (.arr (items.set i written))) := by
    rw [apply_updatesElement h2 hdoc helement, hwritten]
    rfl
  rw [applyThen_of_ok hfirst, apply_array hpath (at?_replaceAt_self hdoc _) h1,
    replaceAt_replaceAt hdoc]

theorem applyThen_structural_update {shown : Json} {op2' : Operation} {j : Nat}
    (h1 : EditsArray op1) (h2 : UpdatesElement op2' op1.path j keys)
    (hshown : (editItems op1 items)[j]? = some shown) :
    applyThen doc op1 op2' =
      (fun written => doc.replaceAt op1.path (.arr ((editItems op1 items).set j written))) <$>
        writeElement op2'.value shown keys := by
  rw [applyThen_of_ok (apply_array hpath hdoc h1),
    apply_updatesElement h2 (at?_replaceAt_self hdoc _) hshown]
  simp only [replaceAt_replaceAt hdoc]

theorem insert_update_converges (h1 : op1.type = .insert) (h0 : 0 ≤ op1.pos)
    (hn : op1.pos ≤ items.length) (h2 : UpdatesElement op2 op1.path i keys)
    (helement : items[i]? = some element) (hstored : element.at? keys = some stored) :
    Converges doc op1 op2 := by
  obtain ⟨written, hwritten⟩ : ∃ written, writeElement op2.value element keys = .ok written :=
    writeElement_existing hstored
  have htransform := transform_insert_update h1 h0 h2
  have hedit : EditsArray op1 := Or.inl h1
  have hgap : op1.pos.toNat ≤ items.length := by omega
  have hshown : (editItems op1 items)[skip op1.pos.toNat i]? = some element := by
    rw [editItems_insert h1 h0 hn, getElem?_insertIdx_skip, helement]
  have hright := applyThen_update_structural hpath hdoc hedit h2 helement hwritten
  have h2' : UpdatesElement (transform op1 op2).2 op1.path (skip op1.pos.toNat i) keys := by
    rw [htransform]
    exact ⟨h2.type, rfl⟩
  have hleft := applyThen_structural_update hpath hdoc hedit h2' hshown
  have hvalue : (transform op1 op2).2.value = op2.value := by rw [htransform]
  have hsame : (editItems op1 items).set (skip op1.pos.toNat i) written =
      editItems op1 (items.set i written) := by
    rw [editItems_insert h1 h0 hn, editItems_insert h1 h0 (by simpa using hn)]
    exact set_insertIdx_skip items _ written hgap i
  rw [hvalue, hwritten] at hleft
  refine ⟨_, _, hleft, ?_, congrArg (fun xs => doc.replaceAt op1.path (.arr xs)) hsame⟩
  rw [htransform]
  exact hright

/-- An unadjusted pair converges when the write at the old index of the edited
array is the write at the element itself. -/
theorem unadjusted_converges_iff {written : Json} (h1 : op1.type = .delete ∨ op1.type = .move)
    (h2 : UpdatesElement op2 op1.path i keys) (helement : items[i]? = some element)
    (hwritten : writeElement op2.value element keys = .ok written)
    (hlength : (editItems op1 (items.set i written)).length = (editItems op1 items).length) :
    Converges doc op1 op2 ↔
      ∃ shown result, (editItems op1 items)[i]? = some shown ∧
        writeElement op2.value shown keys = .ok result ∧
        (editItems op1 items).set i result = editItems op1 (items.set i written) := by
  have hedit : EditsArray op1 := Or.inr h1
  have htransform := transform_delete_or_move_update h1 h2
  have hright := applyThen_update_structural hpath hdoc hedit h2 helement hwritten
  simp only [Converges, ConvergesUpTo, htransform, hright]
  constructor
  · rintro ⟨left, right, hleft, hr, rfl⟩
    cases hr
    cases hshown : (editItems op1 items)[i]? with
    | none =>
        rw [applyThen_of_ok (apply_array hpath hdoc hedit)] at hleft
        obtain ⟨longer, heq, hlonger⟩ := apply_updatesElement_past_end h2
          (at?_replaceAt_self hdoc _) (List.getElem?_eq_none_iff.mp hshown) hleft
        rw [replaceAt_replaceAt hdoc] at heq
        have := Json.arr.inj (replaceAt_injective hdoc heq)
        rw [← this, hlength] at hlonger
        omega
    | some shown =>
        rw [applyThen_structural_update hpath hdoc hedit h2 hshown] at hleft
        cases hresult : writeElement op2.value shown keys with
        | error e =>
            rw [hresult] at hleft
            cases hleft
        | ok result =>
            rw [hresult] at hleft
            exact ⟨shown, result, rfl, hresult,
              Json.arr.inj (replaceAt_injective hdoc (Except.ok.inj hleft))⟩
  · rintro ⟨shown, result, hshown, hresult, heq⟩
    refine ⟨_, _, ?_, rfl, rfl⟩
    rw [applyThen_structural_update hpath hdoc hedit h2 hshown, hresult, ← heq]
    rfl

/-- A deletion leaves the update at its old index. It reaches the right element
when that lies before the deleted one; otherwise nothing may depend on it. -/
theorem delete_update_converges_iff (h1 : op1.type = .delete) (h0 : 0 ≤ op1.pos)
    (hn : op1.pos < items.length) (h2 : UpdatesElement op2 op1.path i keys)
    (helement : items[i]? = some element) (hstored : element.at? keys = some stored) :
    Converges doc op1 op2 ↔
      (i : Int) < op1.pos ∨
        ((∃ next, items[i + 1]? = some next ∧ ElementHolds op2.value next keys) ∧
          ((i : Int) = op1.pos ∨ ElementHolds op2.value element keys)) := by
  obtain ⟨written, hwritten⟩ : ∃ written, writeElement op2.value element keys = .ok written :=
    writeElement_existing hstored
  have hi := (List.getElem?_eq_some_iff.mp helement).1
  have hdeleted : editItems op1 items = items.eraseIdx op1.pos.toNat :=
    editItems_delete h1 h0 (by omega)
  have hdeleted' : editItems op1 (items.set i written) =
      (items.set i written).eraseIdx op1.pos.toNat :=
    editItems_delete h1 h0 (by rw [List.length_set]; omega)
  have hlength : (editItems op1 (items.set i written)).length = (editItems op1 items).length := by
    rw [hdeleted, hdeleted', List.length_eraseIdx, List.length_eraseIdx, List.length_set]
  rw [unadjusted_converges_iff hpath hdoc (Or.inl h1) h2 helement hwritten hlength, hdeleted,
    hdeleted']
  have hshown : ∀ shown, (items.eraseIdx op1.pos.toNat)[i]? = some shown ↔
      items[skip op1.pos.toNat i]? = some shown := by
    intro shown
    rw [getElem?_eraseIdx_skip]
  constructor
  · rintro ⟨shown, result, hread, hresult, heq⟩
    rcases (set_eraseIdx_eq_iff helement hread).mp heq with ⟨hlt, _⟩ | ⟨hat, rfl⟩ |
      ⟨hlt, rfl, rfl⟩
    · exact Or.inl (by omega)
    · rw [hshown, skip, if_neg (by omega)] at hread
      exact Or.inr ⟨⟨_, hread, writeElement_eq_self_iff.mp hresult⟩, Or.inl (by omega)⟩
    · rw [hshown, skip, if_neg (by omega)] at hread
      exact Or.inr ⟨⟨_, hread, writeElement_eq_self_iff.mp hresult⟩,
        Or.inr (writeElement_eq_self_iff.mp hwritten)⟩
  · rintro (hlt | ⟨⟨next, hnext, hholds⟩, hat⟩)
    · have hread : (items.eraseIdx op1.pos.toNat)[i]? = some element := by
        rw [hshown, skip, if_pos (by omega), helement]
      exact ⟨element, written, hread, hwritten,
        (set_eraseIdx_eq_iff helement hread).mpr (Or.inl ⟨by omega, rfl⟩)⟩
    · rcases Nat.lt_or_ge i op1.pos.toNat with hlt | hge
      · have hread : (items.eraseIdx op1.pos.toNat)[i]? = some element := by
          rw [hshown, skip, if_pos hlt, helement]
        exact ⟨element, written, hread, hwritten,
          (set_eraseIdx_eq_iff helement hread).mpr (Or.inl ⟨hlt, rfl⟩)⟩
      · have hread : (items.eraseIdx op1.pos.toNat)[i]? = some next := by
          rw [hshown, skip, if_neg (by omega), hnext]
        refine ⟨next, next, hread, writeElement_eq_self_iff.mpr hholds,
          (set_eraseIdx_eq_iff helement hread).mpr (Or.inr ?_)⟩
        rcases hat with hat | hat
        · exact Or.inl ⟨by omega, rfl⟩
        · have hunchanged := hwritten.symm.trans (writeElement_eq_self_iff.mpr hat)
          cases hunchanged
          rcases Nat.lt_or_eq_of_le hge with hlt | heq
          · exact Or.inr ⟨hlt, rfl, rfl⟩
          · exact Or.inl ⟨heq.symm, rfl⟩

/-- A move leaves the update at its old index as well. -/
theorem move_update_converges_iff (h1 : Moves op1 items.length)
    (h2 : UpdatesElement op2 op1.path i keys) (helement : items[i]? = some element)
    (hstored : element.at? keys = some stored) :
    Converges doc op1 op2 ↔
      moveSource op1.pos.toNat op1.newPos.toNat i = i ∨
        (ElementHolds op2.value element keys ∧
          ∃ other, items[moveSource op1.pos.toNat op1.newPos.toNat i]? = some other ∧
            ElementHolds op2.value other keys) := by
  obtain ⟨written, hwritten⟩ : ∃ written, writeElement op2.value element keys = .ok written :=
    writeElement_existing hstored
  have hi := (List.getElem?_eq_some_iff.mp helement).1
  have hf := h1.source_lt
  have ht := h1.target_lt
  have hmoved : editItems op1 items = move items op1.pos.toNat op1.newPos.toNat :=
    editItems_move h1 (Nat.le_refl _)
  have hmoved' : editItems op1 (items.set i written) =
      move (items.set i written) op1.pos.toNat op1.newPos.toNat :=
    editItems_move h1 (by rw [List.length_set])
  have hlength : (editItems op1 (items.set i written)).length = (editItems op1 items).length := by
    rw [hmoved, hmoved', length_move _ hf ht, length_move _ (by simpa using hf)
      (by simpa using ht), List.length_set]
  rw [unadjusted_converges_iff hpath hdoc (Or.inr h1.type) h2 helement hwritten hlength, hmoved,
    hmoved']
  have hshown : ∀ shown, (move items op1.pos.toNat op1.newPos.toNat)[i]? = some shown ↔
      items[moveSource op1.pos.toNat op1.newPos.toNat i]? = some shown := by
    intro shown
    rw [getElem?_move items hf ht]
  constructor
  · rintro ⟨shown, result, hread, hresult, heq⟩
    rcases (set_move_eq_iff hf ht helement hread).mp heq with ⟨hfix, _⟩ | ⟨_, rfl, rfl⟩
    · exact Or.inl hfix
    · exact Or.inr ⟨writeElement_eq_self_iff.mp hwritten, _, (hshown _).mp hread,
        writeElement_eq_self_iff.mp hresult⟩
  · rintro (hfix | ⟨hholds, other, hother, hholds'⟩)
    · have hread : (move items op1.pos.toNat op1.newPos.toNat)[i]? = some element := by
        rw [hshown, hfix, helement]
      exact ⟨element, written, hread, hwritten,
        (set_move_eq_iff hf ht helement hread).mpr (Or.inl ⟨hfix, rfl⟩)⟩
    · have hread := (hshown other).mpr hother
      have hunchanged := hwritten.symm.trans (writeElement_eq_self_iff.mpr hholds)
      cases hunchanged
      refine ⟨other, other, hread, writeElement_eq_self_iff.mpr hholds',
        (set_move_eq_iff hf ht helement hread).mpr ?_⟩
      rcases eq_or_ne (moveSource op1.pos.toNat op1.newPos.toNat i) i with hfix | hmoves
      · rw [hfix, helement] at hother
        exact Or.inl ⟨hfix, (Option.some.inj hother).symm⟩
      · exact Or.inr ⟨hmoves, rfl, rfl⟩

end

end

end Converge

/-- The element at index `i` holds at `keys` what the update writes. -/
def HoldsAt (items : List Json) (value : JsValue) (keys : List String) (i : Nat) : Prop :=
  ∃ element, items[i]? = some element ∧ ElementHolds value element keys

/-- The structural edits past which the update reaches its element, or past
which it does not matter that it reaches another one. -/
def UpdateReaches (op1 : Operation) (value : JsValue) (items : List Json) (i : Nat)
    (keys : List String) : Prop :=
  match op1.type with
  | .insert => True
  | .delete => (i : Int) < op1.pos ∨
      (HoldsAt items value keys (i + 1) ∧ ((i : Int) = op1.pos ∨ HoldsAt items value keys i))
  | .move =>
      moveSource op1.pos.toNat op1.newPos.toNat i = i ∨
        (HoldsAt items value keys i ∧
          HoldsAt items value keys (moveSource op1.pos.toNat op1.newPos.toNat i))
  | _ => False

/-- The pair converges in both argument orders, and the element stays away when
it was the one deleted. -/
structure NestedConverges (doc : Json) (op1 op2 : Operation) (i : Nat) : Prop where
  converges : Converges doc op1 op2
  converges_swapped : Converges doc op2 op1
  deleted : op1.type = .delete → op1.pos = i →
    applyThen doc op1 (transform op1 op2).2 = apply doc op1 ∧
      applyThen doc op2 (transform op1 op2).1 = apply doc op1

section Main

variable {doc element stored : Json} {op1 op2 : Operation} {items : List Json} {i : Nat}
  {keys : List String}

theorem InRange.editsArray {length : Nat} (h : InRange op1 length) : EditsArray op1 := by
  rcases h with h | h
  · exact h.editsArray
  · exact h.editsArray

theorem update_then_delete (hpath : op1.path ≠ []) (hdoc : doc.at? op1.path = some (.arr items))
    (h1 : op1.type = .delete) (hpos : op1.pos = i) (h2 : UpdatesElement op2 op1.path i keys)
    (helement : items[i]? = some element) (hstored : element.at? keys = some stored) :
    applyThen doc op2 op1 = apply doc op1 := by
  obtain ⟨written, hwritten⟩ : ∃ written, writeElement op2.value element keys = .ok written :=
    writeElement_existing hstored
  have hi := (List.getElem?_eq_some_iff.mp helement).1
  have hedit : EditsArray op1 := Or.inr (Or.inl h1)
  rw [applyThen_update_structural hpath hdoc hedit h2 helement hwritten,
    apply_array hpath hdoc hedit, editItems_delete h1 (by omega) (by rw [List.length_set]; omega),
    editItems_delete h1 (by omega) (by omega), hpos, Int.toNat_natCast, List.eraseIdx_set_eq]

/-- A structural edit and an update inside an element converge exactly when the
edit leaves the update its element, or the update changes nothing where it goes. -/
theorem nested_update_converges_iff (hpath : op1.path ≠ [])
    (hdoc : doc.at? op1.path = some (.arr items)) (h1 : InRange op1 items.length)
    (h2 : UpdatesElement op2 op1.path i keys) (helement : items[i]? = some element)
    (hstored : element.at? keys = some stored) :
    NestedConverges doc op1 op2 i ↔ UpdateReaches op1 op2.value items i keys := by
  have hedit : EditsArray op1 := h1.editsArray
  have hholds : HoldsAt items op2.value keys i ↔ ElementHolds op2.value element keys := by
    simp [HoldsAt, helement]
  have hnested : NestedConverges doc op1 op2 i ↔ Converges doc op1 op2 := by
    refine ⟨NestedConverges.converges, fun hconverges => ⟨hconverges, ?_, ?_⟩⟩
    · exact (converges_swap (transform_update_structural hedit h2)).mpr hconverges
    · intro hdelete hpos
      have htransform := transform_delete_or_move_update (Or.inl hdelete) h2
      have hright := update_then_delete hpath hdoc hdelete hpos h2 helement hstored
      obtain ⟨left, right, hl, hr, rfl⟩ := hconverges
      rw [htransform] at hl hr ⊢
      exact ⟨hl.trans (hr.symm.trans hright), hright⟩
  rw [hnested, UpdateReaches]
  rcases h1 with (⟨ht, h0, hn⟩ | ⟨ht, h0, hn⟩) | h1
  · rw [ht]
    exact iff_true_intro (insert_update_converges hpath hdoc ht h0 hn h2 helement hstored)
  · rw [delete_update_converges_iff hpath hdoc ht h0 hn h2 helement hstored, ht, hholds]
    exact Iff.rfl
  · rw [move_update_converges_iff hpath hdoc h1 h2 helement hstored, h1.type, hholds]
    exact Iff.rfl

end Main

/-- One user inserts an action in front while the other one renames the first. -/
theorem nested_update_converges_iff_actions :
    let items : List Json := [.obj [("name", .str "click")]]
    let op1 : Operation :=
      { type := .insert, path := ["actions"], value := some (.obj [("name", .str "wait")])
        timestamp := 1, userId := "user-1", operationId := "op-1", position := some 0 }
    let op2 : Operation :=
      { type := .update, path := ["actions", "0", "name"], value := some (.str "drag")
        timestamp := 2, userId := "user-2", operationId := "op-2" }
    NestedConverges (.obj [("actions", .arr items)]) op1 op2 0 ↔
      UpdateReaches op1 op2.value items 0 ["name"] := by
  intro items op1 op2
  have hpath : op1.path ≠ [] := by decide
  have h1 : InRange op1 items.length := Or.inl (Or.inl ⟨rfl, by decide, by decide⟩)
  have h2 : UpdatesElement op2 op1.path 0 ["name"] := ⟨rfl, by decide⟩
  have hdoc : (Json.obj [("actions", .arr items)]).at? op1.path = some (.arr items) := rfl
  have helement : items[0]? = some (.obj [("name", .str "click")]) := rfl
  have hstored : (Json.obj [("name", .str "click")]).at? ["name"] = some (.str "click") := rfl
  exact nested_update_converges_iff hpath hdoc h1 h2 helement hstored

/-- One user deletes the first of two actions while the other one renames the
second: after the deletion the new name goes to an action of its own. -/
theorem nested_update_diverges_actions :
    let items : List Json := [.obj [("name", .str "click")], .obj [("name", .str "type")]]
    let doc : Json := .obj [("actions", .arr items)]
    let op1 : Operation :=
      { type := .delete, path := ["actions"], timestamp := 1, userId := "user-1"
        operationId := "op-1", position := some 0 }
    let op2 : Operation :=
      { type := .update, path := ["actions", "1", "name"], value := some (.str "drag")
        timestamp := 2, userId := "user-2", operationId := "op-2" }
    InRange op1 items.length ∧ UpdatesElement op2 op1.path 1 ["name"] ∧
      ¬ NestedConverges doc op1 op2 1 := by
  intro items doc op1 op2
  have hleft : applyThen doc op1 (transform op1 op2).2 =
      .ok (.obj [("actions", .arr [.obj [("name", .str "type")],
        .obj [("name", .str "drag")]])]) := by
    decide +kernel
  have hright : applyThen doc op2 (transform op1 op2).1 =
      .ok (.obj [("actions", .arr [.obj [("name", .str "drag")]])]) := by
    decide +kernel
  refine ⟨Or.inl (Or.inr ⟨rfl, by decide, by decide⟩), ⟨rfl, by decide⟩, fun h => ?_⟩
  have heq := (converges_iff hleft hright).mp h.converges
  exact absurd heq (by decide)

end Qontinui.OperationalTransform
