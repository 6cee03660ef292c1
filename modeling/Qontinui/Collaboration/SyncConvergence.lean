import Qontinui.Collaboration.NestedConvergence
import Qontinui.Collaboration.SyncLocation
import Qontinui.Collaboration.SyncService

/-!
When two `SyncService` clients converge. The changes they exchange have no
positions and no ids, so of all that `transform` computes only a path, a type or
a value reaches the other client.
-/

namespace Qontinui.SyncService

open Json OperationalTransform

/-! ### What a client receives -/

def OfChange (op : Operation) : Prop := converted op = op

theorem ofChange_changeToOperation (change : Change) : OfChange (changeToOperation change) := rfl

def ClientsAgree (doc : Json) (op1 op2 : Operation) : Prop :=
  ∃ final, applyThen doc op1 (received op1 op2) = .ok final ∧
    applyThen doc op2 (received op2 op1) = .ok final

variable {doc : Json} {op1 op2 : Operation}

theorem ClientsAgree.symm (h : ClientsAgree doc op1 op2) : ClientsAgree doc op2 op1 := by
  obtain ⟨final, h1, h2⟩ := h
  exact ⟨final, h2, h1⟩

theorem clientsAgree_symm : ClientsAgree doc op1 op2 ↔ ClientsAgree doc op2 op1 :=
  ⟨ClientsAgree.symm, ClientsAgree.symm⟩

theorem transformByType_connection {own remote : Operation}
    (h : EditsPath own ↔ ¬ EditsPath remote) :
    transformByType own remote = { op1Prime := own, op2Prime := remote, success := true } := by
  simp only [EditsPath, not_and_or, not_not] at h
  cases hown : own.type <;> cases hremote : remote.type <;>
    simp only [transformByType, hown, hremote] <;> simp [hown, hremote] at h

theorem received_apart {own remote : Operation} (hremote : OfChange remote)
    (hown : EditsPath own ∨ EditsPath remote) (hapart : Apart (touched own) (touched remote)) :
    received own remote = remote := by
  by_cases hboth : EditsPath own ∧ EditsPath remote
  · have htouched : ∀ {op : Operation}, EditsPath op → touched op = op.path := by
      intro op hop
      exact if_neg (not_or.mpr hop)
    rw [htouched hboth.1, htouched hboth.2] at hapart
    have hconflict : pathsConflict own.path remote.path = false := by
      rw [← Bool.not_eq_true, pathsConflict_iff]
      rintro (h | h)
      · exact hapart.1 h
      · exact hapart.2 h
    rw [received, transform_of_not_conflict hconflict]
    exact hremote
  · have hmixed : EditsPath own ↔ ¬ EditsPath remote := by tauto
    have htransform : transform own remote = (own, remote) := by
      unfold transform
      split_ifs
      · rfl
      · rw [transformByType_connection hmixed]
    rw [received, htransform]
    exact hremote

/-- An operation at an existing location and one whose edit is apart from it. -/
structure ApartEdits (doc : Json) (op1 op2 : Operation) : Prop where
  edits : EditsPath op1
  exists_at : ∃ current, doc.at? op1.path = some current
  apart : Apart op1.path (touched op2)
  not_length : "length" ∉ op2.path
  applies : ∃ next, apply doc op2 = .ok next

theorem apart_clients_agree (h1 : OfChange op1) (h2 : OfChange op2) (h : ApartEdits doc op1 op2) :
    ClientsAgree doc op1 op2 := by
  obtain ⟨current, hcurrent⟩ := h.exists_at
  obtain ⟨next, hnext⟩ := h.applies
  have hpath : op1.path ≠ [] := fun hnil => h.apart.1 (hnil ▸ List.nil_prefix)
  have htouched : touched op1 = op1.path := if_neg (not_or.mpr h.edits)
  have hapart : Apart (touched op1) (touched op2) := htouched ▸ h.apart
  obtain ⟨hassign, hkeep⟩ := apply_apart h.not_length h.apart hcurrent
  rw [ClientsAgree, received_apart h2 (Or.inl h.edits) hapart,
    received_apart h1 (Or.inr h.edits) hapart.symm]
  refine ⟨assignAt next op1.path (slotEdit op1 (some current)), ?_, ?_⟩
  · rw [applyThen_of_ok (apply_at hpath hcurrent h.edits), hassign, hnext]
    rfl
  · rw [applyThen_of_ok hnext, apply_at hpath (hkeep next hnext) h.edits]

/-! ### Edits of one location -/

/-- Two edits of one existing location. -/
structure SameLocation (doc : Json) (op1 op2 : Operation) (front : List String) (key : String)
    (parent current : Json) : Prop where
  edits1 : EditsPath op1
  edits2 : EditsPath op2
  path1 : op1.path = front ++ [key]
  path2 : op2.path = front ++ [key]
  parent_at : doc.at? front = some parent
  current_at : parent.child? key = some current

theorem SameLocation.symm {parent current : Json} {front : List String} {key : String}
    (h : SameLocation doc op1 op2 front key parent current) :
    SameLocation doc op2 op1 front key parent current :=
  ⟨h.edits2, h.edits1, h.path2, h.path1, h.parent_at, h.current_at⟩

theorem OfChange.position {op : Operation} (h : OfChange op) : op.position = none :=
  (congrArg Operation.position h).symm

theorem OfChange.newPosition {op : Operation} (h : OfChange op) : op.newPosition = none :=
  (congrArg Operation.newPosition h).symm

theorem slotEdit_ofChange {op : Operation} (h : OfChange op) (hop : EditsPath op)
    (current : JsValue) : slotEdit op current = edited op.type op.value current := by
  obtain ⟨items, rfl⟩ | hcurrent := array_or_not current
  · cases htype : op.type with
    | connect => exact absurd htype hop.1
    | disconnect => exact absurd htype hop.2
    | update => simp [slotEdit, htype]
    | insert | delete =>
        simp [slotEdit, edited, editItems, htype, Operation.pos, h.position, splice, spliceStart]
    | move =>
        cases items <;> simp [slotEdit, edited, editItems, htype, Operation.pos,
          Operation.newPos, h.position, h.newPosition, spliceMove, splice, spliceStart]
  · rw [edited_of_not_array hcurrent]
    apply slotEdit_of_not_array
    rintro items rfl
    cases hcurrent

section Received

variable {own remote : Operation}

theorem received_null (hown : OfChange own) (hremote : OfChange remote)
    (hpath : remote.path = own.path) (h1 : own.type = .delete) (h2 : EditsPath remote)
    (hinsert : remote.type ≠ .insert) : received own remote = nullUpdate remote := by
  have hpos : own.pos = remote.pos := by
    rw [Operation.pos, Operation.pos, hown.position, hremote.position]
  have hequal : pathsEqual own.path remote.path = true := (pathsEqual_iff _ _).mpr hpath.symm
  have hnull : converted (nullUpdate remote) = nullUpdate remote :=
    congrArg (fun op : Operation => nullUpdate op) hremote
  rw [received, transform_same_path hpath]
  cases h2' : remote.type with
  | connect => exact absurd h2' h2.1
  | disconnect => exact absurd h2' h2.2
  | insert => exact absurd h2' hinsert
  | delete =>
      simp only [transformByType, h1, h2']
      rw [transformDeleteDelete, if_pos hpos]
      exact hnull
  | update =>
      simp only [transformByType, h1, h2']
      rw [transformDeleteUpdate, if_pos hequal]
      exact hnull
  | move =>
      simp only [transformByType, h1, h2']
      rw [transformDeleteMove, transformMoveDelete, if_pos hpos]
      exact hnull

theorem adjustPathForInsert_same (path : List String) (position : Int) :
    adjustPathForInsert path path position = path := by
  have hsame : firstDifference path path = none := by
    simpa using firstDifference_append path []
  simp [adjustPathForInsert, hsame]

/-- Every other edit arrives as it was made, but for the old value, which is not
read when it is applied. -/
theorem apply_received_kept (hremote : OfChange remote) (hpath : remote.path = own.path)
    (h1 : EditsPath own) (h2 : EditsPath remote) (h : own.type = .delete → remote.type = .insert)
    (doc : Json) : apply doc (received own remote) = apply doc remote := by
  have hsame : ∀ {op}, op = remote → apply doc op = apply doc remote := congrArg (apply doc)
  -- the conversion drops whatever positions the handler computed
  have hrevised : ∀ oldValue,
      apply doc (converted { remote with oldValue := oldValue }) = apply doc remote :=
    fun oldValue => (rfl : _ = apply doc (converted remote)).trans (hsame hremote)
  rw [received, transform_same_path hpath]
  rcases h1' : own.type with _ | _ | _ | _ | _ | _
  case connect => exact absurd h1' h1.1
  case disconnect => exact absurd h1' h1.2
  case delete =>
    have hby : transformByType own remote = transformDeleteInsert own remote := by
      simp only [transformByType, h1', h h1']
    rw [hby, transformDeleteInsert, transformInsertDelete]
    split_ifs
    · exact hsame hremote
    · exact hsame hremote
  all_goals rcases h2' : remote.type with _ | _ | _ | _ | _ | _
  all_goals try first | exact absurd h2' h2.1 | exact absurd h2' h2.2
  all_goals simp only [transformByType, h1', h2']
  case insert.insert =>
    rw [transformInsertInsert]
    split_ifs <;> exact hsame hremote
  case insert.delete =>
    rw [transformInsertDelete]
    split_ifs <;> exact hsame hremote
  case insert.update =>
    rw [transformInsertUpdate, hpath, adjustPathForInsert_same, ← hpath]
    split_ifs <;> exact hsame hremote
  case update.insert =>
    rw [transformUpdateInsert, transformInsertUpdate]
    split_ifs <;> exact hsame hremote
  case update.delete =>
    rw [transformUpdateDelete, transformDeleteUpdate]
    split_ifs <;> exact hsame hremote
  case update.update =>
    rw [transformUpdateUpdate]
    split_ifs
    · exact hrevised _
    · exact hsame hremote
    · exact hsame hremote
  case move.delete =>
    rw [transformMoveDelete]
    split_ifs <;> exact hsame hremote
  case move.move =>
    rw [transformMoveMove]
    exact hsame hremote
  case insert.move | update.move | move.insert | move.update =>
    exact hsame hremote

end Received

section Location

variable {doc parent current : Json} {op1 op2 : Operation} {front : List String} {key : String}

theorem applyThen_location (hown : OfChange op1) (hremote : OfChange op2)
    (h : SameLocation doc op1 op2 front key parent current) :
    applyThen doc op1 (received op1 op2) =
      .ok (doc.replaceAt front
        (assignKey (assignKey parent key (edited op1.type op1.value (some current))) key
          (editedAfter op1.type op2.type op2.value
            (shown parent (edited op1.type op1.value (some current)))))) := by
  have hslot := isSlot_of_child? h.current_at
  have hpath : op2.path = op1.path := h.path2.trans h.path1.symm
  rw [applyThen_of_ok (apply_slot h.parent_at hslot h.path1 h.edits1), h.current_at,
    slotEdit_ofChange hown h.edits1]
  have hfront := at?_replaceAt_self h.parent_at
    (assignKey parent key (edited op1.type op1.value (some current)))
  have hslot' := hslot.assignKey (edited op1.type op1.value (some current))
  unfold editedAfter
  split_ifs with hnull
  · have hpath' : (nullUpdate op2).path = front ++ [key] := h.path2
    rw [received_null hown hremote hpath hnull.1 h.edits2 hnull.2,
      apply_slot hfront hslot' hpath' ⟨nofun, nofun⟩, replaceAt_replaceAt h.parent_at,
      slotEdit_update rfl]
  · have hinsert : op1.type = .delete → op2.type = .insert := by tauto
    rw [apply_received_kept hremote hpath h.edits1 h.edits2 hinsert,
      apply_slot hfront hslot' h.path2 h.edits2, replaceAt_replaceAt h.parent_at,
      slotEdit_ofChange hremote h.edits2, hslot.child?_assignKey]

theorem location_clients_agree_iff (h1 : OfChange op1) (h2 : OfChange op2)
    (h : SameLocation doc op1 op2 front key parent current) :
    ClientsAgree doc op1 op2 ↔
      LocationAgrees parent key current op1.type op1.value op2.type op2.value := by
  rw [← slotsMeet_iff (isSlot_of_child? h.current_at) h.edits1 h.edits2, ClientsAgree,
    applyThen_location h1 h2 h, applyThen_location h2 h1 h.symm]
  constructor
  · rintro ⟨final, hl, hr⟩
    exact replaceAt_injective h.parent_at (Except.ok.inj (hl.trans hr.symm))
  · intro hmeet
    exact ⟨_, rfl, congrArg (fun node => Except.ok (doc.replaceAt front node)) hmeet.symm⟩

end Location

/-! ### Nested locations -/

section Nested

variable {doc : Json} {op1 op2 : Operation}

theorem apply_converted_update {op : Operation} (htype : op.type = .update) (doc : Json) :
    apply doc (converted op) = apply doc op := by
  simp only [apply, converted, htype]
  rfl

theorem apply_received_update (h1 : op1.type = .update) (h2 : op2.type = .update) (doc : Json) :
    apply doc (received op1 op2) = apply doc op2 := by
  have htype : (transform op1 op2).2.type = .update := by
    unfold transform
    split_ifs
    · exact h2
    · have hby : transformByType op1 op2 = transformUpdateUpdate op1 op2 := by
        simp only [transformByType, h1, h2]
      rw [hby, transformUpdateUpdate]
      split_ifs <;> exact h2
  rw [received, apply_converted_update htype]
  exact (apply_transform_updates h1 h2 doc).2

theorem update_clients_agree_iff {a b : Json} (h1 : op1.type = .update) (h2 : op2.type = .update)
    (ha : doc.at? op1.path = some a) (hb : doc.at? op2.path = some b) :
    ClientsAgree doc op1 op2 ↔ UpdatesAgree doc op1 op2 := by
  rw [← update_orders_agree_iff h1 h2 ha hb]
  simp only [ClientsAgree, applyThen, apply_received_update h1 h2, apply_received_update h2 h1]

/-- An array edit and an update inside an element of the array. -/
structure NestedEdits (doc : Json) (op1 op2 : Operation) (items : List Json) (i : Nat)
    (keys : List String) : Prop where
  nonempty : op1.path ≠ []
  array_at : doc.at? op1.path = some (.arr items)
  edits : EditsArray op1
  updates : UpdatesElement op2 op1.path i keys
  exists_at : ∃ element stored, items[i]? = some element ∧ element.at? keys = some stored

theorem OfChange.pos {op : Operation} (h : OfChange op) : op.pos = 0 := by
  rw [Operation.pos, h.position, Option.getD_none]

theorem OfChange.newPos {op : Operation} (h : OfChange op) : op.newPos = 0 := by
  rw [Operation.newPos, h.newPosition, Option.getD_none]

theorem received_nested {path keys : List String} {i : Nat} (h1 : OfChange op1)
    (h2 : OfChange op2) (hpath : op1.path = path) (hedits : EditsArray op1)
    (hupdates : UpdatesElement op2 path i keys) :
    received op1 op2 = (transform op1 op2).2 ∧ received op2 op1 = (transform op1 op2).1 := by
  subst hpath
  have hswap := transform_update_structural hedits hupdates
  have hkept : ∀ newPath : List String,
      converted { op2 with path := newPath } = { op2 with path := newPath } :=
    fun newPath => congrArg (fun op : Operation => { op with path := newPath }) h2
  rw [received, received, hswap, Prod.snd_swap]
  rcases hedits with hinsert | hdelete | hmove
  · rw [transform_insert_update hinsert (Int.le_of_eq h1.pos.symm) hupdates]
    exact ⟨hkept _, h1⟩
  · rw [transform_delete_or_move_update (Or.inl hdelete) hupdates]
    exact ⟨h2, h1⟩
  · rw [transform_delete_or_move_update (Or.inr hmove) hupdates]
    exact ⟨h2, h1⟩

theorem nested_clients_agree_iff {items : List Json} {i : Nat} {keys : List String}
    (h1 : OfChange op1) (h2 : OfChange op2) (h : NestedEdits doc op1 op2 items i keys) :
    ClientsAgree doc op1 op2 ↔ UpdateReaches op1 op2.value items i keys := by
  obtain ⟨element, stored, helement, hstored⟩ := h.exists_at
  obtain ⟨hleft, hright⟩ := received_nested h1 h2 rfl h.edits h.updates
  have hi : i < items.length := (List.getElem?_eq_some_iff.mp helement).1
  have hpos : op1.pos = 0 := h1.pos
  have hnewPos : op1.newPos = 0 := h1.newPos
  have hholds : HoldsAt items op2.value keys i ↔ ElementHolds op2.value element keys := by
    simp [HoldsAt, helement]
  have hconverges : ClientsAgree doc op1 op2 ↔ Converges doc op1 op2 := by
    rw [ClientsAgree, hleft, hright, Converges, ConvergesUpTo]
    constructor
    · rintro ⟨final, hl, hr⟩
      exact ⟨final, final, hl, hr, rfl⟩
    · rintro ⟨left, right, hl, hr, rfl⟩
      exact ⟨left, hl, hr⟩
  rw [hconverges, UpdateReaches]
  rcases h.edits with htype | htype | htype
  · rw [htype]
    exact iff_true_intro (insert_update_converges h.nonempty h.array_at htype (by omega)
      (by omega) h.updates helement hstored)
  · rw [delete_update_converges_iff h.nonempty h.array_at htype (by omega) (by omega) h.updates
      helement hstored, htype, hholds]
    exact Iff.rfl
  · have hmoves : Moves op1 items.length :=
      ⟨htype, by omega, by omega, by omega, by omega⟩
    rw [move_update_converges_iff h.nonempty h.array_at hmoves h.updates helement hstored, htype,
      hholds]
    exact Iff.rfl

/-- A deletion of a value that is no array, and an update inside that value. -/
structure DeletesAround (doc : Json) (op1 op2 : Operation) (node : Json) (key : String)
    (rest : List String) : Prop where
  nonempty : op1.path ≠ []
  node_at : doc.at? op1.path = some node
  not_array : node.isArray = false
  deletes : op1.type = .delete
  updates : op2.type = .update
  path : op2.path = op1.path ++ key :: rest
  exists_at : ∃ inner, node.at? (key :: rest) = some inner

/-- Whoever deletes first gets the value back, with nothing but the update in it. -/
theorem deleted_around_diverges {node : Json} {key : String} {rest : List String}
    (h1 : OfChange op1) (h2 : OfChange op2) (h : DeletesAround doc op1 op2 node key rest) :
    ¬ ClientsAgree doc op1 op2 := by
  obtain ⟨inner, hinner⟩ := h.exists_at
  have hunequal : pathsEqual op1.path op2.path = false := by
    rw [← Bool.not_eq_true, pathsEqual_iff, h.path]
    simp
  have hconflict : pathsConflict op1.path op2.path = true := by
    rw [h.path]
    exact pathsConflict_append _ _
  have hconflict' : pathsConflict op2.path op1.path = true := by
    rw [h.path]
    exact pathsConflict_append_left _ _
  have hleft : received op1 op2 = op2 := by
    rw [received, transform_of_conflict hconflict]
    simp only [transformByType, h.deletes, h.updates, transformDeleteUpdate, hunequal,
      Bool.false_eq_true, if_false]
    exact h2
  have hright : received op2 op1 = op1 := by
    rw [received, transform_of_conflict hconflict']
    simp only [transformByType, h.deletes, h.updates, transformUpdateDelete,
      transformDeleteUpdate, hunequal, Bool.false_eq_true, if_false]
    exact h1
  -- on a value that is no array, a deletion is an update to `undefined`
  let op1' : Operation := { op1 with type := .update, value := none }
  have hedits : EditsPath op1 := ⟨by simp [h.deletes], by simp [h.deletes]⟩
  have hupdate : ∀ {other stored : Json}, other.at? op1.path = some stored →
      stored.isArray = false → apply other op1 = apply other op1' := by
    intro other stored hstored harray
    have hplain : ∀ items, some stored ≠ some (.arr items) := by
      rintro items heq
      cases heq
      cases harray
    have hassign : apply other op1' = .ok (assignAt other op1.path none) :=
      apply_update_at h.nonempty hstored rfl
    rw [apply_at h.nonempty hstored hedits, slotEdit_of_not_array hplain, h.deletes, hassign]
  obtain ⟨fields, rfl⟩ : ∃ fields, node = .obj fields := by
    obtain ⟨child, hchild, _⟩ := at?_cons hinner
    have harray := h.not_array
    cases node with
    | arr items => cases harray
    | obj fields => exact ⟨fields, rfl⟩
    | _ => simp [child?] at hchild
  have hat : doc.at? op2.path = some inner := by
    rw [h.path, at?_append, h.node_at, Option.bind_some, hinner]
  have hfirst : applyThen doc op1 op2 = applyThen doc op1' op2 := by
    rw [applyThen, applyThen, hupdate h.node_at h.not_array]
  have hsecond : applyThen doc op2 op1 = applyThen doc op2 op1' := by
    obtain ⟨child, hchild, _⟩ := at?_cons hinner
    obtain ⟨fields', hfields'⟩ : ∃ fields', assignAt (.obj fields) (key :: rest) op2.value =
        .obj fields' := by
      rw [assignAt_cons_key hchild]
      cases assignedChild child rest op2.value <;> exact ⟨_, rfl⟩
    have hnext : apply doc op2 = .ok (doc.replaceAt op1.path (.obj fields')) := by
      rw [apply_update_at (by simp [h.path]) hat h.updates, h.path,
        assignAt_append h.node_at (by simp), hfields']
    rw [applyThen_of_ok hnext, applyThen_of_ok hnext,
      hupdate (at?_replaceAt_self h.node_at _) rfl]
  have hdiverges : ¬ ∃ value, op1'.value = some value ∧
      AlreadyThere op2.value value (key :: rest) := by
    rintro ⟨value, hvalue, _⟩
    cases hvalue
  rw [ClientsAgree, hleft, hright, hfirst, hsecond,
    ← converges_updates_iff (rfl : op1'.type = .update) h.updates,
    nested_location_converges_iff (rfl : op1'.type = .update) h.updates h.nonempty h.path h.node_at
      hinner]
  exact hdiverges

end Nested

/-! ### All situations -/

/-- Situations two concurrent operations can meet in, and what the clients need
there to converge. -/
inductive Situation (doc : Json) : Operation → Operation → Prop → Prop
  | apart {op1 op2 : Operation} (h : ApartEdits doc op1 op2) : Situation doc op1 op2 True
  | location {op1 op2 : Operation} {front : List String} {key : String} {parent current : Json}
      (h : SameLocation doc op1 op2 front key parent current) :
      Situation doc op1 op2
        (LocationAgrees parent key current op1.type op1.value op2.type op2.value)
  | updates {op1 op2 : Operation} {a b : Json} (h1 : op1.type = .update) (h2 : op2.type = .update)
      (ha : doc.at? op1.path = some a) (hb : doc.at? op2.path = some b) :
      Situation doc op1 op2 (UpdatesAgree doc op1 op2)
  | nested {op1 op2 : Operation} {items : List Json} {i : Nat} {keys : List String}
      (h : NestedEdits doc op1 op2 items i keys) :
      Situation doc op1 op2 (UpdateReaches op1 op2.value items i keys)
  | deletedAround {op1 op2 : Operation} {node : Json} {key : String} {rest : List String}
      (h : DeletesAround doc op1 op2 node key rest) : Situation doc op1 op2 False
  | symm {op1 op2 : Operation} {agrees : Prop} (h : Situation doc op1 op2 agrees) :
      Situation doc op2 op1 agrees

theorem situation_clients_agree_iff {agrees : Prop} (h : Situation doc op1 op2 agrees)
    (h1 : OfChange op1) (h2 : OfChange op2) : ClientsAgree doc op1 op2 ↔ agrees := by
  induction h with
  | apart h => exact iff_true_intro (apart_clients_agree h1 h2 h)
  | location h => exact location_clients_agree_iff h1 h2 h
  | updates hu1 hu2 ha hb => exact update_clients_agree_iff hu1 hu2 ha hb
  | nested h => exact nested_clients_agree_iff h1 h2 h
  | deletedAround h => exact iff_of_false (deleted_around_diverges h1 h2 h) id
  | symm _ ih => exact clientsAgree_symm.trans (ih h2 h1)

end Qontinui.SyncService
