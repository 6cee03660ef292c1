import Qontinui.Collaboration.ComposeLimits

/-!
Compositions with an edit of the connections. The composition is the second operation, so
all that the first one does is lost, unless it does nothing or both remove the same
connection.
-/

namespace Qontinui.OperationalTransform

open Json ListEdit

variable {op1 op2 op : Operation}

theorem composeByType_second (h : EditsConnections op1 ∨ EditsConnections op2) :
    (composeByType op1 op2).toOperation = op2 := by
  rcases h with (h | h) | (h | h)
  · simp only [composeByType, h]
  · simp only [composeByType, h]
  · cases htype : op1.type <;> simp only [composeByType, h, htype]
  · cases htype : op1.type <;> simp only [composeByType, h, htype]

theorem law_second (hlaw : CompositionLaw op1 op2) (hpath : op1.path = op2.path)
    (h : EditsConnections op1 ∨ EditsConnections op2) (doc : Json) :
    SameOutcome (apply doc op2) (applyThen doc op1 op2) := by
  have hdoc := (compositionLaw_iff hpath).mp hlaw doc
  rwa [composeByType_second h] at hdoc

/-! ### Connections that are no list -/

theorem apply_not_list (h : EditsConnections op) (fields : List (String × Json)) :
    apply (.obj [("connections", .obj fields)]) op = .error .typeError := by
  have hread : (Json.obj [("connections", .obj fields)]).readKey "connections" =
      .ok (some (.obj fields)) := rfl
  rcases h with h | h
  · simp only [apply, h, applyConnect, hread]
    rfl
  · simp only [apply, h, applyDisconnect, hread]
    rfl

theorem apply_objects (h : EditsPath op) :
    ∃ next, apply (.obj [("connections", .obj [])]) op = .ok next := by
  rcases List.eq_nil_or_concat op.path with hroot | ⟨front, key, hpath⟩
  · exact ⟨_, apply_root h hroot _⟩
  · rw [List.concat_eq_append] at hpath
    rw [apply_concat h hpath]
    cases front with
    | nil => exact ⟨_, slotAct_slot h (Or.inl ⟨_, rfl⟩)⟩
    | cons first rest =>
        obtain ⟨fields, hfresh⟩ := navigate_fresh (keepsKind_slotAct op key) rest
        by_cases hfirst : first = "connections"
        · subst hfirst
          have hread : (Json.obj [("connections", .obj [])]).readKey "connections" =
              .ok (some (.obj [])) := rfl
          rw [navigate_enter hread rfl, hfresh]
          exact ⟨_, rfl⟩
        · have hread : (Json.obj [("connections", .obj [])]).readKey first = .ok none := by
            simp [readKey, Fields.lookup_cons, Ne.symm hfirst]
          rw [navigate_create hread rfl, hfresh]
          exact ⟨_, rfl⟩

theorem not_law_edits (hlaw : CompositionLaw op1 op2) (hpath : op1.path = op2.path)
    (h1 : EditsConnections op1) (h2 : EditsPath op2) : False := by
  obtain ⟨next, hnext⟩ := apply_objects h2
  have houtcome := law_second hlaw hpath (Or.inl h1) (.obj [("connections", .obj [])])
  rw [hnext, applyThen, apply_not_list h1] at houtcome
  exact houtcome

/-! ### Both edit the connections -/

def ownConnection (op : Operation) : Json :=
  .obj ((op.sourceId.toList.map fun id => ("source", .str id)) ++
    op.targetId.toList.map fun id => ("target", .str id))

theorem pairOf_ownConnection (op : Operation) : pairOf (ownConnection op) = some (idPair op) := by
  cases hsource : op.sourceId <;> cases htarget : op.targetId <;>
    simp [ownConnection, pairOf, idPair, readKey, hsource, htarget, List.lookup_cons]

theorem ownConnection_ne_null (op : Operation) : ownConnection op ≠ .null := nofun

section Both

variable {op1 op2 : Operation}

theorem apply_disconnect_own (h : op1.type = .disconnect) :
    apply (withConnections [] (.arr [ownConnection op1])) op1 =
      .ok (withConnections [] (.arr [])) := by
  rw [apply_disconnect h (by simpa using ownConnection_ne_null op1), kept,
    List.filter_eq_nil_iff.mpr (by simp [pairOf_ownConnection])]

theorem not_same_connections {left right : List Json} (h : left.length ≠ right.length) :
    ¬SameOutcome (.ok (withConnections [] (.arr left))) (.ok (withConnections [] (.arr right))) :=
  fun hsame => h (length_eq_of_same (same_withConnections_iff.mp hsame))

theorem disconnects_of_law (hlaw : CompositionLaw op1 op2) (hpath : op1.path = op2.path)
    (h1 : EditsConnections op1) (h2 : EditsConnections op2) :
    op1.type = .disconnect ∧ op2.type = .disconnect ∧ sameConnection op1 op2 = true := by
  have houtcome := law_second hlaw hpath (Or.inl h1)
  have hown : ∀ conn ∈ [ownConnection op1], conn ≠ .null := by
    simpa using ownConnection_ne_null op1
  rcases h1 with h1 | h1 <;> rcases h2 with h2 | h2
  · have hdoc := houtcome (.obj [])
    rw [apply_connect_absent rfl h2, applyThen_of_ok (apply_connect_absent rfl h1),
      apply_connect h2] at hdoc
    exact absurd hdoc (not_same_connections (by simp))
  · have hdoc := houtcome (.obj [])
    have hconn : ∀ conn ∈ [connectionOf op1], conn ≠ .null := by
      simpa using connectionOf_ne_null op1
    rw [apply_disconnect_absent rfl h2, applyThen_of_ok (apply_connect_absent rfl h1),
      apply_disconnect h2 hconn] at hdoc
    exact absurd (Same.symm hdoc) (not_same_absent rfl)
  · have hdoc := houtcome (withConnections [] (.arr [ownConnection op1]))
    rw [applyThen_of_ok (apply_disconnect_own h1), apply_connect h2, apply_connect h2] at hdoc
    exact absurd hdoc (not_same_connections (by simp))
  · refine ⟨h1, h2, (sameConnection_iff op1 op2).mpr ?_⟩
    by_contra hpair
    have hdoc := houtcome (withConnections [] (.arr [ownConnection op1]))
    have hkept : kept op2 [ownConnection op1] = [ownConnection op1] := by
      apply kept_eq_self
      simpa [pairOf_ownConnection] using hpair
    rw [applyThen_of_ok (apply_disconnect_own h1), apply_disconnect h2 hown, hkept,
      apply_disconnect h2 (by simp)] at hdoc
    exact absurd hdoc (not_same_connections (by simp [kept]))

end Both

/-! ### An edit of a property first -/

theorem apply_beside (h : EditsConnections op) {fields : List (String × Json)}
    (habsent : fields.lookup "connections" = none) :
    ∃ fields', apply (.obj fields) op = .ok (.obj fields') ∧
      ∀ key, key ≠ "connections" → fields'.lookup key = fields.lookup key := by
  rcases h with h | h
  · exact ⟨_, apply_connect_absent habsent h, fun key hkey => Fields.lookup_set_ne hkey _ _⟩
  · exact ⟨fields, apply_disconnect_absent habsent h, fun key hkey => rfl⟩

theorem apply_created (h : EditsPath op) {first key : String} {rest : List String}
    (hpath : op.path = first :: rest ++ [key]) :
    ∃ fields, apply (.obj []) op = .ok (.obj [(first, .obj fields)]) := by
  obtain ⟨fields, hfresh⟩ := navigate_fresh (keepsKind_slotAct op key) rest
  refine ⟨fields, ?_⟩
  have hread : (Json.obj []).readKey first = .ok none := rfl
  rw [apply_concat h hpath, navigate_create hread rfl, hfresh]
  rfl

section EditFirst

variable {op1 op2 : Operation} {key : String}

theorem not_law_deep (hlaw : CompositionLaw op1 op2) (hpath : op1.path = op2.path)
    (h1 : EditsPath op1) (h2 : EditsConnections op2) {first : String} {rest : List String}
    (hlong : op1.path = first :: rest ++ [key]) : False := by
  obtain ⟨fields, hcreated⟩ := apply_created h1 hlong
  have hempty : List.lookup "connections" ([] : List (String × Json)) = none := rfl
  obtain ⟨alone, halone, halone'⟩ := apply_beside h2 hempty
  have houtcome := law_second hlaw hpath (Or.inr h2) (.obj [])
  rw [halone, applyThen_of_ok hcreated] at houtcome
  by_cases hfirst : first = "connections"
  · subst hfirst
    rw [apply_not_list h2] at houtcome
    exact houtcome
  · have habsent : List.lookup "connections" [(first, Json.obj fields)] = none := by
      simp [Fields.lookup_cons, hfirst]
    obtain ⟨after, hafter, hafter'⟩ := apply_beside h2 habsent
    rw [hafter] at houtcome
    have hchild := same_child houtcome first
    change Same (alone.lookup first) (after.lookup first) at hchild
    rw [halone' first hfirst, hafter' first hfirst] at hchild
    have hleft : List.lookup first ([] : List (String × Json)) = none := rfl
    rw [hleft] at hchild
    have hright := same_none_iff.mp hchild
    simp at hright

theorem not_unchanged (h1 : EditsPath op1) (h : ∀ current, Same current (slotEdit op1 current)) :
    False := by
  cases htype : op1.type with
  | connect => exact absurd htype h1.1
  | disconnect => exact absurd htype h1.2
  | update =>
      have hnone := same_none_iff.mp (slotEdit_update htype none ▸ h none)
      have hnull := same_null_iff.mp (slotEdit_update htype (some .null) ▸ h (some .null))
      cases hnone.symm.trans hnull
  | delete =>
      have hnull := same_null_iff.mp (h (some .null))
      simp [slotEdit, htype] at hnull
  | insert =>
      have hlength := h (some (.arr []))
      rw [slotEdit_array (Or.inl htype)] at hlength
      have := length_eq_of_same hlength
      simp [length_insert htype] at this
  | move =>
      have hlength := h (some (.arr []))
      rw [slotEdit_array (Or.inr (Or.inr htype))] at hlength
      have := length_eq_of_same hlength
      simp [editItems, htype, spliceMove_nil] at this

theorem apply_holder (h : EditsPath op1) (hpath : op1.path = [key]) (current : JsValue) :
    apply (holder key current) op1 =
      .ok (assignKey (holder key current) key (slotEdit op1 current)) := by
  have hroot : (holder key current).at? [] = some (holder key current) := rfl
  rw [apply_slot hroot (isSlot_holder key current) hpath h, child?_holder]
  rfl

theorem assignKey_holder (key : String) (current value : JsValue) :
    assignKey (holder key current) key value = holder key value := by
  cases current <;> cases value <;> simp [holder, assignKey, replaceKey, Fields.set, Fields.erase]

theorem holder_beside (hother : key ≠ "connections") (current : JsValue) :
    ∃ fields, holder key current = .obj fields ∧ fields.lookup "connections" = none ∧
      fields.lookup key = current := by
  cases current with
  | none => exact ⟨[], rfl, rfl, rfl⟩
  | some value =>
      refine ⟨[(key, value)], rfl, ?_, ?_⟩
      · simp [Fields.lookup_cons, hother]
      · simp

theorem not_law_property (hlaw : CompositionLaw op1 op2) (hpath : op1.path = op2.path)
    (h1 : EditsPath op1) (h2 : EditsConnections op2) (hkey : op1.path = [key])
    (hother : key ≠ "connections") : False := by
  refine not_unchanged h1 fun current => ?_
  have houtcome := law_second hlaw hpath (Or.inr h2) (holder key current)
  obtain ⟨fields, hfields, habsent, hcurrent⟩ := holder_beside hother current
  obtain ⟨edited, hedited, habsent', hslot⟩ := holder_beside hother (slotEdit op1 current)
  obtain ⟨alone, halone, halone'⟩ := apply_beside h2 habsent
  obtain ⟨after, hafter, hafter'⟩ := apply_beside h2 habsent'
  rw [applyThen_of_ok (apply_holder h1 hkey current), assignKey_holder, hfields, hedited, halone,
    hafter] at houtcome
  have hchild := same_child houtcome key
  change Same (alone.lookup key) (after.lookup key) at hchild
  rwa [halone' key hother, hafter' key hother, hcurrent, hslot] at hchild

/-! ### An edit of the connections as a property -/

theorem holder_list (items : List Json) :
    holder "connections" (some (.arr items)) = withConnections [] (.arr items) := rfl

theorem not_length_kept (h1 : EditsArray op1)
    (h : ∀ items : List Json, items.length = (editItems op1 items).length) : False := by
  rcases h1 with h1 | h1 | h1
  · have hnil := h []
    simp [length_insert h1] at hnil
  · have hlong := h (List.replicate (op1.pos.toNat + 1) .null)
    have hedited := length_editItems_replicate op1 .null
    simp only [growth, h1] at hedited
    omega
  · have hnil := h []
    simp [editItems, h1, spliceMove_nil] at hnil

theorem not_law_connect (hlaw : CompositionLaw op1 op2) (hpath : op1.path = op2.path)
    (h1 : EditsPath op1) (h2 : op2.type = .connect) (hkey : op1.path = ["connections"]) :
    False := by
  have houtcome : ∀ items : List Json,
      SameOutcome (.ok (withConnections [] (.arr (items ++ [connectionOf op2]))))
        (apply (holder "connections" (slotEdit op1 (some (.arr items)))) op2) := by
    intro items
    have hdoc := law_second hlaw hpath (Or.inr (Or.inl h2))
      (holder "connections" (some (.arr items)))
    rwa [applyThen_of_ok (apply_holder h1 hkey _), assignKey_holder, holder_list,
      apply_connect h2] at hdoc
  by_cases hupdate : op1.type = .update
  · have hnil := houtcome []
    have hone := houtcome [.null]
    rw [slotEdit_update hupdate] at hnil hone
    exact not_same_connections (by simp) (hnil.trans hone.symm)
  · have hedits : EditsArray op1 := by
      cases htype : op1.type with
      | connect => exact absurd htype h1.1
      | disconnect => exact absurd htype h1.2
      | update => exact absurd htype hupdate
      | insert => exact Or.inl htype
      | delete => exact Or.inr (Or.inl htype)
      | move => exact Or.inr (Or.inr htype)
    refine not_length_kept hedits fun items => ?_
    have hdoc := houtcome items
    rw [slotEdit_array hedits, holder_list, apply_connect h2] at hdoc
    simpa using length_eq_of_same (same_withConnections_iff.mp hdoc)

/-- A value at the connections is still there after a disconnect. -/
theorem disconnect_keeps (h2 : op2.type = .disconnect) (value : Json) :
    ¬SameOutcome (.ok (.obj [])) (apply (.obj [("connections", value)]) op2) := by
  have hchild : (Json.obj [("connections", value)]).child? "connections" = some value := by
    simp [child?]
  have hshown : ∀ next, next.child? "connections" ≠ none →
      ¬SameOutcome (.ok (.obj [])) (.ok next) := fun next hnext hsame =>
    hnext (same_none_iff.mp (same_child hsame "connections"))
  have hread := readKey_of_child? hchild
  simp only [apply, h2]
  by_cases harray : ∃ items, value = .arr items
  · obtain ⟨items, rfl⟩ := harray
    rw [applyDisconnect_list hchild]
    cases items.filterM (keepsConnection op2) with
    | error e => exact id
    | ok list =>
        apply hshown
        rw [child?_replaceKey_self hchild]
        simp
  · cases htruthy : value.truthy with
    | false =>
        have hkeep : applyDisconnect (.obj [("connections", value)]) op2 =
            .ok (.obj [("connections", value)]) := by
          simp only [applyDisconnect, hread, bind, Except.bind, JsValue.truthy, htruthy,
            Bool.false_eq_true, if_false]
          rfl
        rw [hkeep]
        exact hshown _ (by simp [child?])
    | true =>
        have herror : applyDisconnect (.obj [("connections", value)]) op2 = .error .typeError := by
          simp only [applyDisconnect, hread, bind, Except.bind, JsValue.truthy, htruthy, if_true]
          cases value with
          | arr items => exact absurd ⟨items, rfl⟩ harray
          | _ => rfl
        rw [herror]
        exact id

def stranger : Json := .obj [("source", .num 0)]

theorem pairOf_stranger (op : Operation) : pairOf stranger ≠ some (idPair op) := by
  have hpair : pairOf stranger = some (some (.num 0), none) := by decide +kernel
  rw [hpair, idPair]
  cases op.sourceId <;> simp

theorem apply_disconnect_strangers (h2 : op2.type = .disconnect) {items : List Json}
    (h : ∀ item ∈ items, item = stranger) :
    apply (withConnections [] (.arr items)) op2 = .ok (withConnections [] (.arr items)) := by
  have hkept : kept op2 items = items :=
    kept_eq_self fun item hitem => h item hitem ▸ pairOf_stranger op2
  rw [apply_disconnect h2 (fun item hitem => h item hitem ▸ nofun), hkept]

/-- A disconnect shows a list that lost an element, and takes a new `null` for an error. -/
theorem not_law_disconnect (hlaw : CompositionLaw op1 op2) (hpath : op1.path = op2.path)
    (h1 : EditsPath op1) (h2 : op2.type = .disconnect) (hkey : op1.path = ["connections"]) :
    False := by
  have houtcome : ∀ current,
      SameOutcome (apply (holder "connections" current) op2)
        (apply (holder "connections" (slotEdit op1 current)) op2) := by
    intro current
    have hdoc := law_second hlaw hpath (Or.inr (Or.inr h2)) (holder "connections" current)
    rwa [applyThen_of_ok (apply_holder h1 hkey _), assignKey_holder] at hdoc
  have hnone : apply (holder "connections" none) op2 = .ok (.obj []) :=
    apply_disconnect_absent rfl h2
  have hempty : apply (holder "connections" (some (.arr []))) op2 =
      .ok (withConnections [] (.arr [])) := by
    rw [holder_list, apply_disconnect h2 (by simp)]
    rfl
  have hnull : ∃ e, apply (holder "connections" (some (.arr [.null]))) op2 = .error e := by
    simp only [apply, h2]
    exact ⟨_, rfl⟩
  have hvalue : ∀ value, slotEdit op1 none ≠ some value := by
    intro value hvalue
    have hdoc := houtcome none
    rw [hnone, hvalue] at hdoc
    exact disconnect_keeps h2 value hdoc
  have helement : slotEdit op1 (some (.arr [])) ≠ some (.arr [.null]) := by
    intro hedit
    obtain ⟨e, he⟩ := hnull
    have hdoc := houtcome (some (.arr []))
    rw [hempty, hedit, he] at hdoc
    exact hdoc
  cases htype : op1.type with
  | connect => exact absurd htype h1.1
  | disconnect => exact absurd htype h1.2
  | insert =>
      cases hv : op1.value with
      | some value => exact hvalue value (by simp [slotEdit, htype, hv])
      | none =>
          apply helement
          simp [slotEdit, htype, editItems, splice_insert, spliceStart_nil, hv]
  | update =>
      cases hv : op1.value with
      | some value => exact hvalue value (by rw [slotEdit_update htype, hv])
      | none =>
          have hdoc := houtcome (some (.arr []))
          rw [hempty, slotEdit_update htype, hv, hnone] at hdoc
          exact not_same_absent rfl hdoc
  | move =>
      apply helement
      simp [slotEdit, htype, editItems, spliceMove_nil]
  | delete =>
      have hedits : EditsArray op1 := Or.inr (Or.inl htype)
      have hstranger : ∀ item ∈ List.replicate (op1.pos.toNat + 1) stranger, item = stranger :=
        fun item hitem => List.eq_of_mem_replicate hitem
      have hedited : ∀ item ∈ editItems op1 (List.replicate (op1.pos.toNat + 1) stranger),
          item = stranger := by
        intro item hitem
        simp only [editItems, htype, splice_delete] at hitem
        exact hstranger item (List.mem_of_mem_eraseIdx hitem)
      have hdoc := houtcome (some (.arr (List.replicate (op1.pos.toNat + 1) stranger)))
      rw [slotEdit_array hedits, holder_list, holder_list, apply_disconnect_strangers h2 hstranger,
        apply_disconnect_strangers h2 hedited] at hdoc
      have hlength := length_eq_of_same (same_withConnections_iff.mp hdoc)
      have hshorter := length_editItems_replicate op1 stranger
      simp only [growth, htype] at hshorter
      omega

theorem root_of_law (hlaw : CompositionLaw op1 op2) (hpath : op1.path = op2.path)
    (h1 : EditsPath op1) (h2 : EditsConnections op2) : op1.path = [] := by
  rcases List.eq_nil_or_concat op1.path with hroot | ⟨front, key, hkey⟩
  · exact hroot
  · exfalso
    rw [List.concat_eq_append] at hkey
    cases front with
    | cons first rest => exact not_law_deep hlaw hpath h1 h2 hkey
    | nil =>
        by_cases hother : key = "connections"
        · subst hother
          rcases h2 with h2 | h2
          · exact not_law_connect hlaw hpath h1 h2 hkey
          · exact not_law_disconnect hlaw hpath h1 h2 hkey
        · exact not_law_property hlaw hpath h1 h2 hkey hother

end EditFirst

/-! ### The composition law -/

theorem edits_or_connections (op : Operation) : EditsPath op ∨ EditsConnections op := by
  cases htype : op.type <;> simp [EditsPath, EditsConnections, htype]

theorem composes_of_edits (h1 : EditsPath op1) (h2 : EditsPath op2)
    (h : op1.path = [] ∨ EditsCompose op1 op2) : Composes op1 op2 := by
  unfold Composes
  split
  · next h1' h2' => exact absurd h1' h1.2
  · next h1' => exact absurd h1' h1.1
  · next h1' _ => exact absurd h1' h1.2
  · next h2' _ _ => exact absurd h2' h2.1
  · next h2' _ _ => exact absurd h2' h2.2
  · exact h

theorem composes_of_root (h1 : EditsPath op1) (h : op1.path = []) (op2 : Operation) :
    Composes op1 op2 := by
  unfold Composes
  split
  · next h1' h2' => exact absurd h1' h1.2
  · next h1' => exact absurd h1' h1.1
  · next h1' _ => exact absurd h1' h1.2
  · exact h
  · exact h
  · exact Or.inl h

/-- Two tags, added one after the other. -/
def tagged (tag : String) (time : Int) : Operation where
  type := .insert
  path := ["tags"]
  value := some (.str tag)
  timestamp := time
  userId := "u"
  operationId := tag
  position := some 0

def untagged : Operation := { tagged "old" 2 with type := .delete }

end Qontinui.OperationalTransform
