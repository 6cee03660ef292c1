import Qontinui.Collaboration.SlotActions
import Qontinui.Collaboration.Undo

/-!
`compose`, and pairs of operations that it puts together into one operation with the
effect of both. A pair composes where the second operation writes over the first one,
where the first one does nothing that shows, and for two removals of one connection.
-/

namespace Qontinui.OperationalTransform

open Json ListEdit

structure ComposedOperation extends Operation where
  composedFrom : List Operation
  deriving Repr, DecidableEq

def composeByType (op1 op2 : Operation) : ComposedOperation :=
  match op1.type, op2.type with
  | .insert, .delete =>
      { op1 with type := .update, value := some .null, composedFrom := [op1, op2] }
  | .update, .update => { op1 with value := op2.value, composedFrom := [op1, op2] }
  | .delete, .insert =>
      { op1 with type := .update, value := op2.value, composedFrom := [op1, op2] }
  | _, _ => { op2 with composedFrom := [op1, op2] }

/-- Compose two operations into a single operation. -/
def compose (op1 op2 : Operation) : Js ComposedOperation :=
  if !pathsEqual op1.path op2.path then
    .error (.error "Cannot compose operations on different paths")
  else .ok (composeByType op1 op2)

/-- Where the operations compose at all, the composition does to every document what
they do one after the other. -/
def CompositionLaw (op1 op2 : Operation) : Prop :=
  ∀ doc composed, compose op1 op2 = .ok composed →
    SameOutcome (apply doc composed.toOperation) (applyThen doc op1 op2)

def IdleMove (op : Operation) : Prop :=
  op.type = .move ∧
    (op.pos = 0 ∧ op.newPos = 0 ∨ op.pos ≤ -2 ∧ op.newPos = op.pos + 1)

/-- Nothing is left of what the first operation does to the length of a list once the
second one has set it. -/
def LengthComposes (op1 op2 : Operation) : Prop :=
  match op1.type with
  | .move => True
  | .delete => arrayLength? op2.value = none
  | _ =>
      ∀ length, arrayLength? op2.value = some length →
        ∃ longer, arrayLength? op1.value = some longer ∧ length ≤ longer

def EditsCompose (op1 op2 : Operation) : Prop :=
  match op2.type with
  | .update => op1.path.getLast? = some "length" → LengthComposes op1 op2
  | .delete | .move => IdleMove op1 ∧ op2.pos ≤ 0
  | _ => False

def Composes (op1 op2 : Operation) : Prop :=
  match op1.type, op2.type with
  | .disconnect, .disconnect => sameConnection op1 op2 = true
  | .connect, _ | .disconnect, _ => False
  | _, .connect | _, .disconnect => op1.path = []
  | _, _ => op1.path = [] ∨ EditsCompose op1 op2

variable {op1 op2 : Operation}

theorem compositionLaw_iff (hpath : op1.path = op2.path) :
    CompositionLaw op1 op2 ↔
      ∀ doc, SameOutcome (apply doc (composeByType op1 op2).toOperation)
        (applyThen doc op1 op2) := by
  have hcompose : compose op1 op2 = .ok (composeByType op1 op2) := by
    simp only [compose, (pathsEqual_iff _ _).mpr hpath]
    rfl
  simp only [CompositionLaw, hcompose, Except.ok.injEq, forall_eq']

theorem compositionLaw_of_ne (hpath : op1.path ≠ op2.path) : CompositionLaw op1 op2 := by
  intro doc composed h
  have hequal : pathsEqual op1.path op2.path = false :=
    Bool.eq_false_iff.mpr fun h => hpath ((pathsEqual_iff _ _).mp h)
  simp only [compose, hequal] at h
  cases h

theorem composeByType_path (hpath : op1.path = op2.path) :
    (composeByType op1 op2).path = op1.path := by
  unfold composeByType
  split
  · rfl
  · rfl
  · rfl
  · exact hpath.symm

theorem composeByType_editsPath (h1 : EditsPath op1) (h2 : EditsPath op2) :
    EditsPath (composeByType op1 op2).toOperation := by
  unfold composeByType
  split
  · exact ⟨nofun, nofun⟩
  · exact h1
  · exact ⟨nofun, nofun⟩
  · exact h2

theorem compositionLaw_edits {front : List String} {key : String} (h1 : EditsPath op1)
    (h2 : EditsPath op2) (hpath1 : op1.path = front ++ [key]) (hpath2 : op2.path = front ++ [key]) :
    CompositionLaw op1 op2 ↔
      Composite (navigateToPath (slotAct op1 · key) · front)
        (navigateToPath (slotAct op2 · key) · front)
        (navigateToPath (slotAct (composeByType op1 op2).toOperation · key) · front) := by
  have hpath := hpath1.trans hpath2.symm
  rw [compositionLaw_iff hpath]
  refine forall_congr' fun doc => ?_
  rw [applyThen, apply_concat h1 hpath1,
    apply_concat (composeByType_editsPath h1 h2) ((composeByType_path hpath).trans hpath1)]
  simp only [apply_concat h2 hpath2]

/-! ### A write over an edit -/

section Overwrite

variable {op : Operation} {items : List Json} {key : String} {value : JsValue}

theorem slotAct_plain {parent : Json} {shows : JsValue} (hread : parent.readKey key = .ok shows)
    (hshows : ∀ items, shows ≠ some (.arr items)) (op : Operation) :
    slotAct op parent key = plainAct op parent key := by
  unfold slotAct
  split
  · next hupdate => simp only [plainAct, hupdate]
  · rw [hread]
    cases shows with
    | none => rfl
    | some value =>
        cases value with
        | arr items => exact absurd rfl (hshows items)
        | _ => rfl

theorem writeIndex_writeIndex (items : List Json) (i : Nat) (old value : Json) :
    writeIndex (writeIndex items i old) i value = writeIndex items i value := by
  have hlt : i < (writeIndex items i old).length :=
    (List.getElem?_eq_some_iff.mp (getElem?_writeIndex_self items i old)).1
  rw [writeIndex, if_pos hlt, set_writeIndex]

theorem slotAct_past_end {i : Nat} (hi : arrayIndex? key = some i) (hlt : ¬i < items.length)
    (op : Operation) :
    slotAct op (.arr items) key = .ok (.arr items) ∨
      ∃ old, slotAct op (.arr items) key = .ok (.arr (writeIndex items i old)) := by
  have hread : (Json.arr items).readKey key = .ok none := by
    simp only [readKey, hi, List.getElem?_eq_none (Nat.le_of_not_lt hlt)]
  rw [slotAct_plain hread (by simp) op]
  unfold plainAct
  split
  · refine Or.inl ?_
    simp only [deleteKey, hi, List.set_eq_of_length_le (Nat.le_of_not_lt hlt)]
  · exact Or.inl rfl
  · refine Or.inr ⟨op.value.getD .null, ?_⟩
    simp only [writeKey, hi]

theorem slotAct_no_index (hi : arrayIndex? key = none) (hlength : key ≠ "length")
    (op : Operation) : slotAct op (.arr items) key = .ok (.arr items) := by
  have hread : (Json.arr items).readKey key = .ok none := by
    simp only [readKey, hi, if_neg hlength]
  rw [slotAct_plain hread (by simp) op]
  unfold plainAct
  split
  · simp only [deleteKey, hi, if_neg hlength]
  · rfl
  · simp only [writeKey, hi, if_neg hlength]

def resized (items : List Json) (length : Nat) : List Json :=
  items.take length ++ List.replicate (length - items.length) .null

theorem length_resized (items : List Json) (length : Nat) :
    (resized items length).length = length := by
  simp only [resized, List.length_append, List.length_take, List.length_replicate]
  omega

theorem resized_resized (items : List Json) {length longer : Nat} (h : length ≤ longer) :
    resized (resized items longer) length = resized items length := by
  rw [resized, length_resized, Nat.sub_eq_zero_of_le h, List.replicate_zero, List.append_nil,
    resized, resized, List.take_append, List.take_take, Nat.min_eq_left h, List.take_replicate,
    List.length_take]
  congr 2
  omega

theorem arrayIndex?_length : arrayIndex? "length" = none := by decide

theorem writeKey_length :
    (Json.arr items).writeKey "length" value =
      match arrayLength? value with
      | some length => .ok (.arr (resized items length))
      | none => .error .rangeError := by
  simp only [writeKey, arrayIndex?_length, if_true]
  rfl

theorem slotAct_length (op : Operation) (items : List Json) :
    slotAct op (.arr items) "length" = plainAct op (.arr items) "length" := by
  have hread : (Json.arr items).readKey "length" = .ok (some (.num items.length)) := by
    simp only [readKey, arrayIndex?_length, if_true]
  exact slotAct_plain hread (by simp) op

theorem writeKey_length_twice {first second : JsValue}
    (h : ∀ length, arrayLength? second = some length →
      ∃ longer, arrayLength? first = some longer ∧ length ≤ longer) (items : List Json) :
    SameOutcome ((Json.arr items).writeKey "length" second)
      ((Json.arr items).writeKey "length" first >>= (writeKey · "length" second)) := by
  cases hsecond : arrayLength? second with
  | none =>
      cases hfirst : arrayLength? first with
      | none =>
          simp only [writeKey_length, hsecond, hfirst]
          trivial
      | some longer =>
          simp only [writeKey_length, hsecond, hfirst]
          change SameOutcome _ ((Json.arr (resized items longer)).writeKey "length" second)
          rw [writeKey_length, hsecond]
          trivial
  | some length =>
      obtain ⟨longer, hfirst, hle⟩ := h length hsecond
      simp only [writeKey_length, hsecond, hfirst]
      change SameOutcome _ ((Json.arr (resized items longer)).writeKey "length" second)
      simp only [writeKey_length, hsecond, resized_resized items hle]
      exact SameOutcome.refl _

theorem overwritten_length {op1 op2 : Operation} (hop : EditsPath op1)
    (h : LengthComposes op1 op2) (items : List Json) :
    SameOutcome ((Json.arr items).writeKey "length" op2.value)
      (slotAct op1 (.arr items) "length" >>= (writeKey · "length" op2.value)) := by
  rw [slotAct_length]
  unfold LengthComposes at h
  cases htype : op1.type with
  | connect => exact absurd htype hop.1
  | disconnect => exact absurd htype hop.2
  | move =>
      simp only [plainAct, htype]
      exact SameOutcome.refl _
  | delete =>
      simp only [htype] at h
      simp only [plainAct, htype, deleteKey, arrayIndex?_length, if_true, writeKey_length, h]
      trivial
  | insert | update =>
      simp only [htype] at h
      simp only [plainAct, htype]
      exact writeKey_length_twice h items

/-- A write over an edit leaves nothing of it. -/
theorem overwritten {op1 op2 : Operation} (hop : EditsPath op1)
    (h : key = "length" → LengthComposes op1 op2) :
    Composite (slotAct op1 · key) (writeKey · key op2.value) (writeKey · key op2.value) := by
  intro node
  change SameOutcome (node.writeKey key op2.value)
    (slotAct op1 node key >>= (writeKey · key op2.value))
  by_cases hslot : IsSlot node key
  · have hnext := hslot.assignKey (slotEdit op1 (node.child? key))
    rw [slotAct_slot hop hslot, hslot.writeKey]
    change SameOutcome _
      ((assignKey node key (slotEdit op1 (node.child? key))).writeKey key op2.value)
    rw [hnext.writeKey, sameOutcome_ok]
    exact ((hslot.same_assign_twice_iff _ _ _).mpr (Same.refl _)).symm
  · by_cases hnode : IsContainer node
    · obtain ⟨items, rfl⟩ : ∃ items, node = .arr items := by
        cases node with
        | arr items => exact ⟨items, rfl⟩
        | obj fields => exact absurd (Or.inl ⟨fields, rfl⟩) hslot
        | _ => exact absurd hnode id
      cases hi : arrayIndex? key with
      | some i =>
          have hlt : ¬i < items.length := fun hlt => hslot (Or.inr ⟨items, i, rfl, hi, hlt⟩)
          have hwrite : ∀ list, (Json.arr list).writeKey key op2.value =
              .ok (.arr (writeIndex list i (op2.value.getD .null))) := by
            intro list
            simp only [writeKey, hi]
          rcases slotAct_past_end hi hlt op1 with hkeep | ⟨old, hold⟩
          · rw [hkeep]
            exact SameOutcome.refl _
          · rw [hold, hwrite]
            change SameOutcome _ ((Json.arr (writeIndex items i old)).writeKey key op2.value)
            rw [hwrite, writeIndex_writeIndex]
            exact SameOutcome.refl _
      | none =>
          by_cases hlength : key = "length"
          · subst hlength
            exact overwritten_length hop (h rfl) items
          · rw [slotAct_no_index hi hlength]
            exact SameOutcome.refl _
    · have hleaf : ∃ e, node.writeKey key op2.value = .error e := by
        cases hwrite : node.writeKey key op2.value with
        | error e => exact ⟨e, rfl⟩
        | ok next => exact absurd (isContainer_writeKey hwrite).1 hnode
      obtain ⟨e, he⟩ := hleaf
      rw [he]
      cases hone : slotAct op1 node key with
      | error e' => trivial
      | ok next =>
          rw [(keepsKind_slotAct op1 key).leaf hnode hone]
          change SameOutcome _ (node.writeKey key op2.value)
          rw [he]
          trivial

end Overwrite

/-! ### A move that does nothing -/

section Idle

theorem spliceStart_lt {length : Nat} {start : Int} (hlength : 0 < length)
    (h : start < length) : spliceStart length start < length := by
  unfold spliceStart
  split_ifs <;> omega

theorem spliceStart_first {start : Int} (h : start ≤ 0) : spliceStart 1 start = 0 := by
  unfold spliceStart
  split_ifs <;> omega

theorem spliceStart_nil (start : Int) : spliceStart 0 start = 0 := by
  unfold spliceStart
  split_ifs <;> omega

theorem spliceMove_nil (source target : Int) : spliceMove [] source target = [.null] := by
  simp [spliceMove, splice, spliceStart_nil]

theorem IdleMove.editItems {op : Operation} (h : IdleMove op) {items : List Json}
    (hne : items ≠ []) : OperationalTransform.editItems op items = items := by
  obtain ⟨htype, hpos⟩ := h
  have hlength : 0 < items.length := List.length_pos_of_ne_nil hne
  have hlt : spliceStart items.length op.pos < items.length := spliceStart_lt hlength (by omega)
  have htarget : spliceStart (items.length - 1) op.newPos = spliceStart items.length op.pos := by
    unfold spliceStart
    split_ifs <;> omega
  simp only [OperationalTransform.editItems, htype]
  rw [spliceMove_eq_move hlt, htarget, move_self items hlt]

theorem idle_absorbed {op1 op2 : Operation} (h : IdleMove op1)
    (htype : op2.type = .delete ∨ op2.type = .move) (hpos : op2.pos ≤ 0) (items : List Json) :
    editItems op2 (editItems op1 items) = editItems op2 items := by
  cases items with
  | cons item items => rw [h.editItems (List.cons_ne_nil item items)]
  | nil =>
      have hnull : editItems op1 [] = [.null] := by
        simp only [editItems, h.1, spliceMove_nil]
      rw [hnull]
      rcases htype with htype | htype
      · simp only [editItems, htype, splice_delete, List.length_singleton,
          spliceStart_first hpos]
        rfl
      · simp only [editItems, htype, spliceMove_nil]
        rw [spliceMove_eq_move (by simp [spliceStart_first hpos]), List.length_singleton,
          spliceStart_first hpos, Nat.sub_self, spliceStart_nil, move_self _ Nat.zero_lt_one]

variable {key : String}

theorem readKey_array {parent : Json} {items : List Json}
    (h : parent.readKey key = .ok (some (.arr items))) : parent.child? key = some (.arr items) := by
  cases hchild : parent.child? key with
  | none => exact absurd trivial (not_container_of_not_child h hchild)
  | some child =>
      rw [readKey_of_child? hchild] at h
      exact Except.ok.inj h

theorem slotAct_array {op : Operation} {node : Json} {items : List Json} (htype : op.type ≠ .update)
    (h : node.child? key = some (.arr items)) :
    slotAct op node key = .ok (node.replaceKey key (.arr (editItems op items))) := by
  simp only [slotAct, if_neg htype, readKey_of_child? h]
  rfl

theorem slotAct_error {op : Operation} {node : Json} {e : JsError} (htype : op.type ≠ .update)
    (h : node.readKey key = .error e) : slotAct op node key = .error e := by
  simp only [slotAct, if_neg htype, h]
  rfl

theorem idle_composite {op1 op2 : Operation} (h : IdleMove op1)
    (htype : op2.type = .delete ∨ op2.type = .move) (hpos : op2.pos ≤ 0) (key : String) :
    Composite (slotAct op1 · key) (slotAct op2 · key) (slotAct op2 · key) := by
  intro node
  change SameOutcome (slotAct op2 node key) (slotAct op1 node key >>= (slotAct op2 · key))
  have hedit1 : op1.type ≠ .update := by simp [h.1]
  have hedit2 : op2.type ≠ .update := by
    rcases htype with htype | htype <;> simp [htype]
  cases hread : node.readKey key with
  | error e =>
      rw [slotAct_error hedit2 hread, slotAct_error hedit1 hread]
      trivial
  | ok shows =>
      rcases array_or shows with ⟨items, rfl⟩ | hshows
      · have hchild := readKey_array hread
        have hnext := child?_replaceKey_self hchild (.arr (editItems op1 items))
        rw [slotAct_array hedit2 hchild, slotAct_array hedit1 hchild]
        change SameOutcome _ (slotAct op2 (node.replaceKey key (.arr (editItems op1 items))) key)
        rw [slotAct_array hedit2 hnext, replaceKey_replaceKey, idle_absorbed h htype hpos]
        exact SameOutcome.refl _
      · have hfirst : slotAct op1 node key = .ok node := by
          rw [slotAct_plain hread hshows op1]
          simp only [plainAct, h.1]
          rfl
        rw [hfirst]
        exact SameOutcome.refl _

end Idle

/-! ### Two removals of one connection -/

theorem applyDisconnect_congr (h : sameConnection op1 op2 = true) (doc : Json) :
    applyDisconnect doc op1 = applyDisconnect doc op2 := by
  simp only [sameConnection, Bool.and_eq_true, beq_iff_eq] at h
  simp only [applyDisconnect, isConnection, h.1, h.2]

def keepsConnection (op : Operation) (conn : Json) : Js Bool := do
  pure (!(← isConnection op conn))

theorem applyDisconnect_list {doc : Json} {items : List Json}
    (h : doc.child? "connections" = some (.arr items)) (op : Operation) :
    applyDisconnect doc op =
      (fun list => doc.replaceKey "connections" (.arr list)) <$>
        items.filterM (keepsConnection op) := by
  have hopen : applyDisconnect doc op =
      items.filterM (keepsConnection op) >>= fun list =>
        doc.writeKey "connections" (some (.arr list)) := by
    simp only [applyDisconnect, readKey_of_child? h]
    rfl
  rw [hopen]
  cases items.filterM (keepsConnection op) with
  | error e => rfl
  | ok list => exact writeKey_of_child? h _

/-- What a disconnect leaves, it leaves as it is. -/
theorem disconnect_twice {doc next : Json} {op : Operation}
    (h : applyDisconnect doc op = .ok next) : applyDisconnect next op = .ok next := by
  cases hread : doc.readKey "connections" with
  | error e =>
      simp only [applyDisconnect, hread] at h
      cases h
  | ok connections =>
      cases htruthy : JsValue.truthy connections with
      | false =>
          have hkeep : applyDisconnect doc op = .ok doc := by
            simp only [applyDisconnect, hread, bind, Except.bind, htruthy, Bool.false_eq_true,
              if_false]
            rfl
          cases hkeep.symm.trans h
          exact hkeep
      | true =>
          by_cases harray : ∃ items, connections = some (.arr items)
          · obtain ⟨items, rfl⟩ := harray
            have hchild := readKey_array hread
            rw [applyDisconnect_list hchild] at h
            cases hlist : items.filterM (keepsConnection op) with
            | error e =>
                rw [hlist] at h
                cases h
            | ok list =>
                rw [hlist] at h
                cases h
                rw [applyDisconnect_list (child?_replaceKey_self hchild _),
                  FallibleLoops.filterM_twice hlist]
                simp only [Functor.map, Except.map, replaceKey_replaceKey]
          · exfalso
            simp only [applyDisconnect, hread, bind, Except.bind, htruthy, if_true] at h
            split at h
            · next items => exact harray ⟨items, rfl⟩
            · cases h

/-! ### Sufficiency -/

theorem composes_disconnect (hpath : op1.path = op2.path) (h1 : op1.type = .disconnect)
    (h2 : op2.type = .disconnect) (h : sameConnection op1 op2 = true) : CompositionLaw op1 op2 := by
  rw [compositionLaw_iff hpath]
  intro doc
  have hcomposed : (composeByType op1 op2).toOperation = op2 := by
    simp only [composeByType, h1, h2]
  have happly1 : apply doc op1 = applyDisconnect doc op2 := by
    simp only [apply, h1, applyDisconnect_congr h]
  have happly2 : ∀ doc, apply doc op2 = applyDisconnect doc op2 := by
    intro doc
    simp only [apply, h2]
  rw [hcomposed, applyThen, happly1, happly2]
  cases hone : applyDisconnect doc op2 with
  | error e => trivial
  | ok next =>
      change SameOutcome _ (apply next op2)
      rw [happly2, disconnect_twice hone]
      exact SameOutcome.refl _

theorem composeByType_update (op1 : Operation) (h : op2.type = .update) :
    (composeByType op1 op2).type = .update ∧ (composeByType op1 op2).value = op2.value := by
  cases htype : op1.type <;> simp [composeByType, h, htype]

theorem composeByType_move (h : op1.type = .move) (op2 : Operation) :
    (composeByType op1 op2).toOperation = op2 := by
  simp only [composeByType, h]

theorem slotAct_update {op : Operation} (h : op.type = .update) (parent : Json) (key : String) :
    slotAct op parent key = parent.writeKey key op.value := by
  rw [slotAct, if_pos h]

theorem composes_node (h1 : EditsPath op1) {key : String} (hkey : op1.path.getLast? = some key)
    (h : EditsCompose op1 op2) :
    Composite (slotAct op1 · key) (slotAct op2 · key)
      (slotAct (composeByType op1 op2).toOperation · key) := by
  unfold EditsCompose at h
  cases htype : op2.type with
  | update =>
      simp only [htype, hkey, Option.some.injEq] at h
      obtain ⟨hupdate, hvalue⟩ := composeByType_update op1 htype
      simp only [slotAct_update htype, slotAct_update hupdate, hvalue]
      exact overwritten h1 h
  | delete =>
      simp only [htype] at h
      rw [composeByType_move h.1.1]
      exact idle_composite h.1 (Or.inl htype) h.2 key
  | move =>
      simp only [htype] at h
      rw [composeByType_move h.1.1]
      exact idle_composite h.1 (Or.inr htype) h.2 key
  | insert | connect | disconnect =>
      simp only [htype] at h

theorem composes_edits (h1 : EditsPath op1) (h2 : EditsPath op2) (hpath : op1.path = op2.path)
    (h : op1.path = [] ∨ EditsCompose op1 op2) : CompositionLaw op1 op2 := by
  have hboth := composeByType_editsPath h1 h2
  rcases List.eq_nil_or_concat op1.path with hroot | ⟨front, key, hfront⟩
  · rw [compositionLaw_iff hpath]
    intro doc
    rw [applyThen, apply_root h1 hroot, apply_root hboth ((composeByType_path hpath).trans hroot)]
    change SameOutcome _ (apply doc op2)
    rw [apply_root h2 (hpath.symm.trans hroot)]
    exact SameOutcome.refl _
  · rw [List.concat_eq_append] at hfront
    rw [compositionLaw_edits h1 h2 hfront (hpath.symm.trans hfront)]
    have hcompose : EditsCompose op1 op2 := by
      rcases h with hroot | hcompose
      · simp [hroot] at hfront
      · exact hcompose
    exact composite_navigate (keepsKind_slotAct op1 key) (keepsKind_slotAct op2 key)
      (keepsKind_slotAct _ key) (composes_node h1 (by simp [hfront]) hcompose) front

theorem composes_root (h1 : EditsPath op1) (h2 : EditsConnections op2) (hpath : op1.path = op2.path)
    (hroot : op1.path = []) : CompositionLaw op1 op2 := by
  have hcomposed : (composeByType op1 op2).toOperation = op2 := by
    rcases h2 with h2 | h2 <;> cases h : op1.type <;> simp only [composeByType, h, h2]
  rw [compositionLaw_iff hpath]
  intro doc
  rw [applyThen, apply_root h1 hroot, hcomposed]
  exact SameOutcome.refl _

theorem law_of_composes (hpath : op1.path = op2.path) (h : Composes op1 op2) :
    CompositionLaw op1 op2 := by
  unfold Composes at h
  split at h
  · next h1 h2 => exact composes_disconnect hpath h1 h2 h
  · exact absurd h id
  · exact absurd h id
  · next h2 hconnect hdisconnect =>
      exact composes_root ⟨hconnect, hdisconnect⟩ (Or.inl h2) hpath h
  · next h2 hdisconnect hconnect =>
      exact composes_root ⟨hconnect, hdisconnect⟩ (Or.inr h2) hpath h
  · exact composes_edits ⟨‹_›, ‹_›⟩ ⟨‹_›, ‹_›⟩ hpath h

end Qontinui.OperationalTransform
