import Qontinui.Collaboration.ConnectionConvergence
import Qontinui.Collaboration.MoveConvergence
import Qontinui.Collaboration.SlotOutcome

/-!
`invert`, and when an operation that is followed by its inverse restores the document.
Documents are compared up to the order of their keys.
-/

namespace Qontinui.OperationalTransform

open Json ListEdit

structure InvertedOperation extends Operation where
  invertedFrom : Operation
  deriving Repr, DecidableEq

def exchanged (op : Operation) (type : OperationType) : InvertedOperation :=
  { op with type := type, value := op.oldValue, oldValue := op.value, invertedFrom := op }

def invert (op : Operation) : InvertedOperation :=
  match op.type with
  | .insert => exchanged op .delete
  | .delete => exchanged op .insert
  | .update => exchanged op .update
  | .move =>
      { op with position := op.newPosition, newPosition := op.position, invertedFrom := op }
  | .connect => { op with type := .disconnect, invertedFrom := op }
  | .disconnect => { op with type := .connect, invertedFrom := op }

/-- The operation and then its inverse give the document again. -/
def UndoRestores (doc : Json) (op : Operation) : Prop :=
  ∃ restored, applyThen doc op (invert op).toOperation = .ok restored ∧
    Same (some restored) (some doc)

/-- The positions of an operation are in range for what its slot holds, and its old value
is what it replaces or removes. -/
def Fits (op : Operation) (current : JsValue) : Prop :=
  match op.type, current with
  | .insert, some (.arr items) => 0 ≤ op.pos ∧ op.pos ≤ items.length
  | .insert, current => op.oldValue = current
  | .delete, some (.arr items) =>
      0 ≤ op.pos ∧ op.pos < items.length ∧ op.oldValue = items[op.pos.toNat]?
  | .delete, current => current.isSome = true ∧ op.oldValue = current
  | .update, current => op.oldValue = current
  | .move, some (.arr items) =>
      0 ≤ op.pos ∧ op.pos < items.length ∧ 0 ≤ op.newPos ∧ op.newPos < items.length
  | .move, current => current.isSome = true
  | _, _ => True

/-- A workflow document: its connections, where it has any, are a list of values that
have properties. -/
def HasConnections (doc : Json) : Prop :=
  ∃ fields, doc = .obj fields ∧ ∀ list, fields.lookup "connections" = some list →
    ∃ conns, list = .arr conns ∧ ∀ conn ∈ conns, conn ≠ .null

def Applicable (doc : Json) (op : Operation) : Prop :=
  match op.type with
  | .connect | .disconnect => HasConnections doc
  | _ => ∃ parent key, Located doc op.path parent key ∧ Fits op (parent.child? key)

/-- The condition for an undo: an insert goes into an array, or puts a value that is none
where nothing is; a connect adds the only connection of its pair; a disconnect removes
the last connection, the only one of its pair, as a connect of the operation makes it. -/
def RestoresWhen (doc : Json) (op : Operation) : Prop :=
  match op.type with
  | .insert =>
      ∃ parent key, Located doc op.path parent key ∧
        ((∃ items, parent.child? key = some (.arr items)) ∨
          (∀ items, op.value ≠ some (.arr items)) ∧
            (parent.child? key = none ∨
              parent.isArray = true ∧ parent.child? key = some .null))
  | .connect =>
      ∃ conns, doc.child? "connections" = some (.arr conns) ∧
        (∀ conn ∈ conns, pairOf conn ≠ some (idPair op)) ∧
          pairOf (connectionOf op) = some (idPair op)
  | .disconnect =>
      ∃ front last, doc.child? "connections" = some (.arr (front ++ [last])) ∧
        (∀ conn ∈ front, pairOf conn ≠ some (idPair op)) ∧
          pairOf last = some (idPair op) ∧ Same (some (connectionOf op)) (some last)
  | _ => True

/-! ### Edits of a slot -/

section Slot

variable {op : Operation}

theorem invert_path (op : Operation) : (invert op).path = op.path := by
  unfold invert
  split <;> rfl

theorem invert_editsPath (h : EditsPath op) : EditsPath (invert op).toOperation := by
  obtain ⟨hconnect, hdisconnect⟩ := h
  cases htype : op.type with
  | connect => exact absurd htype hconnect
  | disconnect => exact absurd htype hdisconnect
  | move => simp [invert, htype, EditsPath]
  | _ => simp [invert, htype, exchanged, EditsPath]

theorem undo_slot_iff {doc parent : Json} {key : String} (h : Located doc op.path parent key)
    (hop : EditsPath op) :
    UndoRestores doc op ↔
      Same (shown parent (slotEdit (invert op).toOperation
        (shown parent (slotEdit op (parent.child? key))))) (shown parent (parent.child? key)) := by
  obtain ⟨front, hpath, hfront⟩ := h.split
  have hinverse : (invert op).path = front ++ [key] := (invert_path op).trans hpath
  rw [UndoRestores, applyThen_slot hfront h.slot hpath hinverse hop (invert_editsPath hop)]
  simp only [Except.ok.injEq, exists_eq_left']
  have hslot := h.slot.same_assign_twice_iff (slotEdit op (parent.child? key))
    (slotEdit (invert op).toOperation (shown parent (slotEdit op (parent.child? key))))
    (parent.child? key)
  have hdoc := same_replaceAt_iff hfront
    (assignKey (assignKey parent key (slotEdit op (parent.child? key))) key
      (slotEdit (invert op).toOperation (shown parent (slotEdit op (parent.child? key))))) parent
  rw [h.slot.assignKey_child] at hslot
  rw [replaceAt_at? hfront] at hdoc
  exact hdoc.trans hslot

theorem shown_array (parent : Json) (items : List Json) :
    shown parent (some (.arr items)) = some (.arr items) := by
  unfold shown
  split <;> rfl

theorem shown_child {parent : Json} {key : String} (h : IsSlot parent key) :
    shown parent (parent.child? key) = parent.child? key := by
  rw [← h.child?_assignKey, h.assignKey_child]

variable {items : List Json} {value : JsValue}

theorem not_same_array (h : ∀ others, value ≠ some (.arr others)) :
    ¬Same (some (.arr items)) value := by
  intro hsame
  have hshape := hsame.shape
  cases value with
  | none => cases hshape
  | some value =>
      cases value with
      | arr others => exact h others rfl
      | _ => cases hshape

theorem delete_insert (item : Json) {position : Int} (h0 : 0 ≤ position)
    (h : position ≤ items.length) :
    (splice (splice items position 0 [item]).2 position 1 []).2 = items := by
  have hlength : (items.insertIdx position.toNat item).length = items.length + 1 :=
    List.length_insertIdx_of_le_length (by omega) item
  rw [splice_insert, splice_delete, spliceStart_of_nat h0 h,
    spliceStart_of_nat h0 (by omega), List.eraseIdx_insertIdx_self]

theorem insert_delete {item : Json} {position : Int} (h0 : 0 ≤ position)
    (h : position < items.length) (hitem : items[position.toNat]? = some item) :
    (splice (splice items position 1 []).2 position 0 [item]).2 = items := by
  have hlt : position.toNat < items.length := by omega
  have hlength : (items.eraseIdx position.toNat).length = items.length - 1 :=
    List.length_eraseIdx_of_lt hlt
  rw [splice_delete, splice_insert, spliceStart_of_nat h0 (by omega),
    spliceStart_of_nat h0 (by omega)]
  have hmove : move items position.toNat position.toNat =
      (items.eraseIdx position.toNat).insertIdx position.toNat item := by
    rw [move, hitem]
  rw [← hmove, move_self items hlt]

theorem spliceMove_in_range {source target : Int} (hs0 : 0 ≤ source) (hs : source < items.length)
    (ht0 : 0 ≤ target) (ht : target < items.length) :
    spliceMove items source target = move items source.toNat target.toNat := by
  have hsource : spliceStart items.length source = source.toNat :=
    spliceStart_of_nat hs0 (by omega)
  have htarget : spliceStart (items.length - 1) target = target.toNat :=
    spliceStart_of_nat ht0 (by omega)
  rw [spliceMove_eq_move (by omega), hsource, htarget]

theorem move_move {source target : Int} (hs0 : 0 ≤ source) (hs : source < items.length)
    (ht0 : 0 ≤ target) (ht : target < items.length) :
    spliceMove (spliceMove items source target) target source = items := by
  have hsource : source.toNat < items.length := by omega
  have htarget : target.toNat < items.length := by omega
  have hlength := length_move items hsource htarget
  rw [spliceMove_in_range hs0 hs ht0 ht,
    spliceMove_in_range ht0 (by omega) hs0 (by omega)]
  apply List.ext_getElem?
  intro k
  rw [getElem?_move _ (by omega) (by omega), getElem?_move _ hsource htarget,
    moveSource_reverse]

/-! ### The types one by one -/

variable {doc parent : Json} {key : String}

theorem same_none_iff : Same none value ↔ value = none := by
  constructor
  · intro h
    cases value with
    | none => rfl
    | some value => cases value <;> cases h.shape
  · rintro rfl
    exact Same.refl none

theorem same_null_iff : Same (some .null) value ↔ value = some .null := by
  constructor
  · intro h
    cases value with
    | none => cases h.shape
    | some value => cases value <;> first | rfl | cases h.shape
  · rintro rfl
    exact Same.refl _

theorem same_removed_iff (h : IsSlot parent key) :
    Same (shown parent none) (parent.child? key) ↔
      parent.child? key = none ∨ parent.isArray = true ∧ parent.child? key = some .null := by
  obtain ⟨fields, rfl⟩ | ⟨items, i, rfl, hi, hlt⟩ := h
  · simpa [shown, isArray] using same_none_iff
  · have hchild : (Json.arr items).child? key = some items[i] := by simp [child?, hi, hlt]
    have hshown : shown (.arr items) none = some .null := rfl
    rw [hchild, hshown, same_null_iff]
    simp [isArray]

theorem shown_not_array (h : ∀ items, value ≠ some (.arr items)) (items : List Json) :
    shown parent value ≠ some (.arr items) := by
  unfold shown
  split
  · cases value with
    | none => simp
    | some value => exact h items
  · exact h items

theorem undo_insert_iff (htype : op.type = .insert) (h : Located doc op.path parent key)
    (hfits : Fits op (parent.child? key)) :
    UndoRestores doc op ↔
      (∃ items, parent.child? key = some (.arr items)) ∨
        (∀ items, op.value ≠ some (.arr items)) ∧
          (parent.child? key = none ∨
            parent.isArray = true ∧ parent.child? key = some .null) := by
  have hinverse : (invert op).toOperation = (exchanged op .delete).toOperation := by
    simp only [invert, htype]
  rw [undo_slot_iff h (by simp [EditsPath, htype]), hinverse, shown_child h.slot]
  rcases array_or (parent.child? key) with ⟨items, hitems⟩ | hother
  · simp only [Fits, htype, hitems] at hfits
    refine iff_of_true ?_ (.inl ⟨items, hitems⟩)
    have hedit : slotEdit op (some (.arr items)) =
        some (.arr (splice items op.pos 0 [op.value.getD .null]).2) := by
      simp [slotEdit, htype, editItems]
    have hback : slotEdit (exchanged op .delete).toOperation
        (some (.arr (splice items op.pos 0 [op.value.getD .null]).2)) = some (.arr items) :=
      congrArg (fun items => some (Json.arr items))
        (delete_insert (op.value.getD .null) hfits.1 hfits.2)
    rw [hitems, hedit, shown_array, hback, shown_array]
    exact Same.refl _
  · have hedit : slotEdit op (parent.child? key) = op.value := by
      rw [slotEdit_of_not_array hother]
      simp only [htype]
    rw [hedit, or_iff_right (not_exists.mpr hother)]
    rcases array_or op.value with ⟨items, hitems⟩ | hplain
    · have hdelete : slotEdit (exchanged op .delete).toOperation (some (.arr items)) =
          some (.arr (splice items op.pos 1 []).2) := rfl
      rw [hitems, shown_array, hdelete, shown_array]
      exact iff_of_false (not_same_array hother) fun h => h.1 items rfl
    · have hdelete : slotEdit (exchanged op .delete).toOperation (shown parent op.value) = none :=
        slotEdit_of_not_array (shown_not_array hplain)
      rw [hdelete, same_removed_iff h.slot, and_iff_right hplain]

theorem undo_delete (htype : op.type = .delete) (h : Located doc op.path parent key)
    (hfits : Fits op (parent.child? key)) : UndoRestores doc op := by
  have hinverse : (invert op).toOperation = (exchanged op .insert).toOperation := by
    simp only [invert, htype]
  rw [undo_slot_iff h (by simp [EditsPath, htype]), hinverse]
  rcases array_or (parent.child? key) with ⟨items, hitems⟩ | hother
  · simp only [Fits, htype, hitems] at hfits
    obtain ⟨hpos, hlt, hold⟩ := hfits
    obtain ⟨item, hitem⟩ : ∃ item, items[op.pos.toNat]? = some item :=
      ⟨_, List.getElem?_eq_getElem (by omega)⟩
    have hedit : slotEdit op (some (.arr items)) =
        some (.arr (splice items op.pos 1 []).2) := by
      simp [slotEdit, htype, editItems]
    have hback : slotEdit (exchanged op .insert).toOperation
        (some (.arr (splice items op.pos 1 []).2)) = some (.arr items) := by
      have hrestored := insert_delete hpos hlt hitem
      rw [hitem] at hold
      simp only [slotEdit, exchanged, editItems, hold, Option.getD_some, reduceCtorEq, if_false]
      exact congrArg (fun items => some (Json.arr items)) hrestored
    rw [hitems, hedit, shown_array, hback]
    exact Same.refl _
  · have hold : op.oldValue = parent.child? key := by
      unfold Fits at hfits
      split at hfits <;> simp_all
    have hedit : slotEdit op (parent.child? key) = none := by
      rw [slotEdit_of_not_array hother]
      simp only [htype]
    have hback : slotEdit (exchanged op .insert).toOperation (shown parent none) =
        op.oldValue := slotEdit_of_not_array (shown_not_array (by simp))
    rw [hedit, hback, hold]
    exact Same.refl _

theorem undo_update (htype : op.type = .update) (h : Located doc op.path parent key)
    (hfits : Fits op (parent.child? key)) : UndoRestores doc op := by
  have hinverse : (invert op).toOperation = (exchanged op .update).toOperation := by
    simp only [invert, htype]
  have hold : op.oldValue = parent.child? key := by
    simpa only [Fits, htype] using hfits
  rw [undo_slot_iff h (by simp [EditsPath, htype]), hinverse, slotEdit_update rfl]
  exact hold ▸ Same.refl _

theorem undo_move (htype : op.type = .move) (h : Located doc op.path parent key)
    (hfits : Fits op (parent.child? key)) : UndoRestores doc op := by
  have hinverse : (invert op).toOperation =
      { op with position := op.newPosition, newPosition := op.position } := by
    simp only [invert, htype]
  rw [undo_slot_iff h (by simp [EditsPath, htype]), hinverse]
  rcases array_or (parent.child? key) with ⟨items, hitems⟩ | hother
  · simp only [Fits, htype, hitems] at hfits
    obtain ⟨hs0, hs, ht0, ht⟩ := hfits
    have hedit : slotEdit op (some (.arr items)) =
        some (.arr (spliceMove items op.pos op.newPos)) := by
      simp [slotEdit, htype, editItems]
    have hback : slotEdit { op with position := op.newPosition, newPosition := op.position }
        (some (.arr (spliceMove items op.pos op.newPos))) = some (.arr items) := by
      simp only [slotEdit, htype, editItems, reduceCtorEq, if_false]
      exact congrArg (fun items => some (Json.arr items)) (move_move hs0 hs ht0 ht)
    rw [hitems, hedit, shown_array, hback]
    exact Same.refl _
  · have hedit : slotEdit op (parent.child? key) = parent.child? key := by
      rw [slotEdit_of_not_array hother]
      simp only [htype]
    have hback : slotEdit { op with position := op.newPosition, newPosition := op.position }
        (parent.child? key) = parent.child? key := by
      rw [slotEdit_of_not_array hother]
      simp only [htype]
    rw [hedit, shown_child h.slot, hback, shown_child h.slot]
    exact Same.refl _

end Slot

/-! ### Connections -/

section Connections

variable {op : Operation} {fields : List (String × Json)} {conns : List Json}

theorem same_str_iff {value : JsValue} {text : String} :
    Same value (some (.str text)) ↔ value = some (.str text) := by
  constructor
  · intro h
    have hshape := h.shape
    cases value with
    | none => cases hshape
    | some value =>
        cases value with
        | str other =>
            cases hshape
            rfl
        | _ => cases hshape
  · rintro rfl
    exact Same.refl _

theorem same_id_iff {value : JsValue} {id : Option String} :
    Same value (id.map .str) ↔ value = id.map .str := by
  cases id with
  | none => exact ⟨fun h => same_none_iff.mp h.symm, fun h => h ▸ Same.refl _⟩
  | some id => exact same_str_iff

variable {conn : Json}

theorem pairOf_eq_child? (h : conn ≠ .null) :
    pairOf conn = some (conn.child? "source", conn.child? "target") := by
  have hsource : arrayIndex? "source" = none := by decide
  have htarget : arrayIndex? "target" = none := by decide
  cases conn with
  | null => exact absurd rfl h
  | _ => simp [pairOf, readKey, child?, hsource, htarget]

theorem pairOf_congr {left right : Json} (h : Same (some left) (some right)) :
    pairOf left = some (idPair op) → pairOf right = some (idPair op) := by
  intro hpair
  have hleft : left ≠ .null := by
    rintro rfl
    cases hpair
  have hright : right ≠ .null := by
    rintro rfl
    exact hleft (Option.some.inj (same_null_iff.mp h.symm))
  rw [pairOf_eq_child? hleft, Option.some.injEq, idPair, Prod.mk.injEq] at hpair
  rw [pairOf_eq_child? hright, idPair, Option.some.injEq, Prod.mk.injEq]
  have hsource := same_child h "source"
  have htarget := same_child h "target"
  rw [hpair.1] at hsource
  rw [hpair.2] at htarget
  exact ⟨same_id_iff.mp hsource.symm, same_id_iff.mp htarget.symm⟩

theorem child?_arr_toString (items : List Json) (index : Nat) :
    (Json.arr items).child? (toString index) = items[index]? := by
  rw [child?, arrayIndex?_toString, Option.bind_some]

theorem same_arr_iff {left right : List Json} :
    Same (some (.arr left)) (some (.arr right)) ↔ ∀ index : Nat, Same left[index]? right[index]? := by
  constructor
  · intro h index
    have helement := same_child h (toString index)
    rwa [child?_arr_toString, child?_arr_toString] at helement
  · intro h path
    have hlength : left.length = right.length := by
      apply Nat.le_antisymm
      · exact List.getElem?_eq_none_iff.mp
          (same_none_iff.mp (List.getElem?_eq_none (Nat.le_refl right.length) ▸
            (h right.length).symm))
      · exact List.getElem?_eq_none_iff.mp
          (same_none_iff.mp (List.getElem?_eq_none (Nat.le_refl left.length) ▸ h left.length))
    cases path with
    | nil => simp [shape, hlength]
    | cons key path =>
        rw [under_cons, under_cons]
        simp only [child?]
        cases arrayIndex? key with
        | none => rfl
        | some index => exact h index path

theorem same_withConnections_iff {left right : Json} :
    Same (some (withConnections fields left)) (some (withConnections fields right)) ↔
      Same (some left) (some right) := by
  have hchild : Same (some (withConnections fields left))
      (some (withConnections fields right)) ↔ _ :=
    same_iff_child "connections" rfl fun other hne =>
      (Fields.lookup_set_ne hne left fields).trans (Fields.lookup_set_ne hne right fields).symm
  rwa [child?_connections, child?_connections] at hchild

theorem pairOf_of_mem_kept (h : conn ∈ kept op conns) : pairOf conn ≠ some (idPair op) := by
  simpa using (List.mem_filter.mp h).2

theorem kept_eq_self (h : ∀ conn ∈ conns, pairOf conn ≠ some (idPair op)) :
    kept op conns = conns := by
  rw [kept, List.filter_eq_self]
  simpa using h

theorem not_pair_of_same_kept {result : List Json} {index : Nat}
    (hsame : Same (some (.arr result)) (some (.arr conns))) (hconn : conns[index]? = some conn)
    (hresult : ∀ other, result[index]? = some other → pairOf other ≠ some (idPair op)) :
    pairOf conn ≠ some (idPair op) := by
  intro hpair
  have helement := same_arr_iff.mp hsame index
  rw [hconn] at helement
  cases hother : result[index]? with
  | none =>
      rw [hother] at helement
      cases same_none_iff.mp helement
  | some other =>
      rw [hother] at helement
      exact hresult other hother (pairOf_congr helement.symm hpair)

theorem same_after_connect_iff :
    Same (some (.arr (kept op (conns ++ [connectionOf op])))) (some (.arr conns)) ↔
      (∀ conn ∈ conns, pairOf conn ≠ some (idPair op)) ∧
        pairOf (connectionOf op) = some (idPair op) := by
  constructor
  · intro h
    have hothers : ∀ conn ∈ conns, pairOf conn ≠ some (idPair op) := by
      intro conn hconn
      obtain ⟨index, hindex⟩ := List.getElem?_of_mem hconn
      exact not_pair_of_same_kept h hindex fun other hother =>
        pairOf_of_mem_kept (List.mem_of_getElem? hother)
    refine ⟨hothers, ?_⟩
    by_contra hnew
    have hall : kept op (conns ++ [connectionOf op]) = conns ++ [connectionOf op] :=
      kept_eq_self (by
        intro conn hconn
        rcases List.mem_append.mp hconn with hold | hlast
        · exact hothers conn hold
        · rwa [List.mem_singleton.mp hlast])
    rw [hall] at h
    have hlength := h.shape
    simp [shape] at hlength
  · rintro ⟨hothers, hnew⟩
    have hkept : kept op (conns ++ [connectionOf op]) = conns := by
      rw [kept, List.filter_append, ← kept, kept_eq_self hothers]
      simp [hnew]
    rw [hkept]
    exact Same.refl _

theorem same_after_disconnect_iff :
    Same (some (.arr (kept op conns ++ [connectionOf op]))) (some (.arr conns)) ↔
      ∃ front last, conns = front ++ [last] ∧
        (∀ conn ∈ front, pairOf conn ≠ some (idPair op)) ∧
          pairOf last = some (idPair op) ∧ Same (some (connectionOf op)) (some last) := by
  constructor
  · intro h
    have hlength : (kept op conns).length + 1 = conns.length := by
      simpa [shape] using h.shape
    obtain rfl | ⟨front, last, rfl⟩ := List.eq_nil_or_concat conns
    · simp at hlength
    rw [List.concat_eq_append] at h hlength ⊢
    simp only [List.length_append, List.length_singleton, Nat.add_right_cancel_iff] at hlength
    have hfront : ∀ conn ∈ front, pairOf conn ≠ some (idPair op) := by
      intro conn hconn
      obtain ⟨index, hindex⟩ := List.getElem?_of_mem hconn
      obtain ⟨hlt, -⟩ := List.getElem?_eq_some_iff.mp hindex
      refine not_pair_of_same_kept h (List.getElem?_append_left hlt ▸ hindex) fun other hother => ?_
      rw [List.getElem?_append_left (by omega)] at hother
      exact pairOf_of_mem_kept (List.mem_of_getElem? hother)
    have hsplit : kept op (front ++ [last]) = front ++ kept op [last] := by
      rw [kept, List.filter_append, ← kept, ← kept, kept_eq_self hfront]
    have hlast : pairOf last = some (idPair op) := by
      by_contra hnot
      have hsingle : kept op [last] = [last] := kept_eq_self (by simpa using hnot)
      rw [hsplit, hsingle] at hlength
      simp at hlength
    have hnone : kept op [last] = [] := by simp [kept, hlast]
    rw [hsplit, hnone, List.append_nil] at h
    have helement := same_arr_iff.mp h front.length
    simp only [List.getElem?_concat_length] at helement
    exact ⟨front, last, rfl, hfront, hlast, helement⟩
  · rintro ⟨front, last, rfl, hfront, hlast, hsame⟩
    have hkept : kept op (front ++ [last]) = front := by
      rw [kept, List.filter_append, ← kept, kept_eq_self hfront]
      simp [hlast]
    rw [hkept, same_arr_iff]
    intro index
    rcases Nat.lt_trichotomy index front.length with hlt | rfl | hgt
    · rw [List.getElem?_append_left hlt, List.getElem?_append_left hlt]
      exact Same.refl _
    · simpa only [List.getElem?_concat_length] using hsame
    · rw [List.getElem?_eq_none (by simp; omega), List.getElem?_eq_none (by simp; omega)]
      exact Same.refl _

section

variable (h : fields.lookup "connections" = none)
include h

theorem apply_connect_absent (htype : op.type = .connect) :
    apply (.obj fields) op = .ok (withConnections fields (.arr [connectionOf op])) := by
  simp [apply, applyConnect, htype, readKey, h, JsValue.truthy, writeKey, withConnections, bind,
    Except.bind]

theorem apply_disconnect_absent (htype : op.type = .disconnect) :
    apply (.obj fields) op = .ok (.obj fields) := by
  simp [apply, applyDisconnect, htype, readKey, h, JsValue.truthy, bind, Except.bind, pure,
    Except.pure]

theorem not_same_absent {list : Json} :
    ¬Same (some (withConnections fields list)) (some (.obj fields)) := by
  intro hsame
  have hchild := same_child hsame "connections"
  rw [child?_connections, show (Json.obj fields).child? "connections" = none from h] at hchild
  cases same_none_iff.mp hchild.symm

end

theorem undo_connect_iff {doc : Json} (htype : op.type = .connect) (h : HasConnections doc) :
    UndoRestores doc op ↔
      ∃ conns, doc.child? "connections" = some (.arr conns) ∧
        (∀ conn ∈ conns, pairOf conn ≠ some (idPair op)) ∧
          pairOf (connectionOf op) = some (idPair op) := by
  have hinverse : (invert op).toOperation = { op with type := .disconnect } := by
    simp only [invert, htype]
  have hundo : ∀ (fields : List (String × Json)) (list : List Json),
      (∀ conn ∈ list, conn ≠ .null) →
        apply (withConnections fields (.arr list)) { op with type := .disconnect } =
          .ok (withConnections fields (.arr (kept op list))) :=
    fun fields list hlist => apply_disconnect rfl hlist
  obtain ⟨fields, rfl, hlist⟩ := h
  rw [UndoRestores, hinverse]
  cases hlookup : fields.lookup "connections" with
  | none =>
      rw [applyThen_of_ok (apply_connect_absent hlookup htype), hundo fields _ (by
        simpa using connectionOf_ne_null op)]
      refine iff_of_false ?_ ?_
      · rintro ⟨restored, hrestored, hsame⟩
        cases hrestored
        exact not_same_absent hlookup hsame
      · rintro ⟨conns, hconns, -⟩
        cases hlookup.symm.trans hconns
  | some list =>
      obtain ⟨conns, rfl, hnull⟩ := hlist list hlookup
      have hdoc := withConnections_of_lookup hlookup
      rw [hdoc, applyThen_of_ok (apply_connect htype), hundo fields _ (by
        intro conn hconn
        rcases List.mem_append.mp hconn with hold | hnew
        · exact hnull conn hold
        · rw [List.mem_singleton.mp hnew]
          exact connectionOf_ne_null op)]
      simp only [Except.ok.injEq, exists_eq_left', same_withConnections_iff,
        same_after_connect_iff, child?_connections, Option.some.injEq, Json.arr.injEq]

theorem undo_disconnect_iff {doc : Json} (htype : op.type = .disconnect)
    (h : HasConnections doc) :
    UndoRestores doc op ↔
      ∃ front last, doc.child? "connections" = some (.arr (front ++ [last])) ∧
        (∀ conn ∈ front, pairOf conn ≠ some (idPair op)) ∧
          pairOf last = some (idPair op) ∧ Same (some (connectionOf op)) (some last) := by
  have hinverse : (invert op).toOperation = { op with type := .connect } := by
    simp only [invert, htype]
  have hundo : ∀ (fields : List (String × Json)) (list : List Json),
      apply (withConnections fields (.arr list)) { op with type := .connect } =
        .ok (withConnections fields (.arr (list ++ [connectionOf op]))) :=
    fun fields list => apply_connect rfl
  have habsent : ∀ fields : List (String × Json), fields.lookup "connections" = none →
      apply (.obj fields) { op with type := .connect } =
        .ok (withConnections fields (.arr [connectionOf op])) :=
    fun fields hfields => apply_connect_absent hfields rfl
  obtain ⟨fields, rfl, hlist⟩ := h
  rw [UndoRestores, hinverse]
  cases hlookup : fields.lookup "connections" with
  | none =>
      rw [applyThen_of_ok (apply_disconnect_absent hlookup htype), habsent fields hlookup]
      refine iff_of_false ?_ ?_
      · rintro ⟨restored, hrestored, hsame⟩
        cases hrestored
        exact not_same_absent hlookup hsame
      · rintro ⟨front, last, hconns, -⟩
        cases hlookup.symm.trans hconns
  | some list =>
      obtain ⟨conns, rfl, hnull⟩ := hlist list hlookup
      have hdoc := withConnections_of_lookup hlookup
      rw [hdoc, applyThen_of_ok (apply_disconnect htype hnull), hundo]
      simp only [Except.ok.injEq, exists_eq_left', same_withConnections_iff,
        same_after_disconnect_iff, child?_connections, Option.some.injEq, Json.arr.injEq]

end Connections

/-! ### The undo law -/

def prepended : Operation where
  type := .insert
  path := ["items"]
  value := some (.num 2)
  timestamp := 0
  userId := "u"
  operationId := "op"
  position := some 0

def retitled : Operation where
  type := .insert
  path := ["title"]
  value := some (.str "new")
  oldValue := some (.str "old")
  timestamp := 0
  userId := "u"
  operationId := "op"

def unlinked : Operation where
  type := .disconnect
  path := ["connections"]
  oldValue := some (.obj [("id", .str "c1"), ("source", .str "a"), ("target", .str "b")])
  timestamp := 0
  userId := "u"
  operationId := "op"
  sourceId := some "a"
  targetId := some "b"

def titledDoc : Json := .obj [("title", .str "old")]

def linkedDoc : Json :=
  .obj [("actions", .arr [.obj [("id", .str "a")], .obj [("id", .str "b")]]),
    ("connections", .arr
      [.obj [("id", .str "c1"), ("source", .str "a"), ("target", .str "b")],
        .obj [("id", .str "c2"), ("source", .str "b"), ("target", .str "a")]])]

end Qontinui.OperationalTransform
