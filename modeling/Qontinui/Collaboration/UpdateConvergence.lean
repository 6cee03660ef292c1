import Qontinui.Collaboration.UpdateWrites

/-!
Two concurrent updates. The handler for two updates of one field compares the
timestamps, but what it writes into the operations (`oldValue`) is not read when
they are applied: whichever update is applied last wins, in either order.
-/

namespace Qontinui.OperationalTransform

open Json

theorem apply_transform_updates {op1 op2 : Operation} (h1 : op1.type = .update)
    (h2 : op2.type = .update) (doc : Json) :
    apply doc (transform op1 op2).1 = apply doc op1 ∧
      apply doc (transform op1 op2).2 = apply doc op2 := by
  cases hconflict : pathsConflict op1.path op2.path with
  | false =>
      rw [transform_of_not_conflict hconflict]
      exact ⟨rfl, rfl⟩
  | true =>
      have hby : transformByType op1 op2 = transformUpdateUpdate op1 op2 := by
        simp only [transformByType, h1, h2]
      rw [transform_of_conflict hconflict, hby, transformUpdateUpdate]
      split_ifs <;> exact ⟨rfl, rfl⟩

section Updates

variable {doc : Json} {op1 op2 : Operation}

theorem converges_updates_iff (h1 : op1.type = .update) (h2 : op2.type = .update) :
    Converges doc op1 op2 ↔
      ∃ final, applyThen doc op1 op2 = .ok final ∧ applyThen doc op2 op1 = .ok final := by
  have hleft : applyThen doc op1 (transform op1 op2).2 = applyThen doc op1 op2 := by
    simp only [applyThen, (apply_transform_updates h1 h2 _).2]
  have hright : applyThen doc op2 (transform op1 op2).1 = applyThen doc op2 op1 := by
    simp only [applyThen, (apply_transform_updates h1 h2 _).1]
  simp only [Converges, ConvergesUpTo, hleft, hright]
  constructor
  · rintro ⟨left, right, hl, hr, rfl⟩
    exact ⟨left, hl, hr⟩
  · rintro ⟨final, hl, hr⟩
    exact ⟨final, final, hl, hr, rfl⟩

theorem apply_update_root (htype : op1.type = .update) (hpath : op1.path = []) (doc : Json) :
    apply doc op1 = .ok doc := by
  simp [apply, applyUpdate, mutateProperty, htype, hpath]

variable {node child parent inner : Json} {key : String} {front rest : List String}

theorem apply_update_ok (htype : op1.type = .update) (h : doc.at? op1.path = some node) :
    ∃ next, apply doc op1 = .ok next := by
  rcases eq_or_ne op1.path [] with hpath | hpath
  · exact ⟨doc, apply_update_root htype hpath doc⟩
  · exact ⟨_, apply_update_at hpath h htype⟩

theorem root_update_converges (h1 : op1.type = .update) (h2 : op2.type = .update)
    (hpath : op1.path = []) (h : doc.at? op2.path = some node) : Converges doc op1 op2 := by
  obtain ⟨next, hnext⟩ := apply_update_ok h2 h
  refine (converges_updates_iff h1 h2).mpr ⟨next, ?_, ?_⟩
  · rw [applyThen_of_ok (apply_update_root h1 hpath doc), hnext]
  · rw [applyThen_of_ok hnext, apply_update_root h1 hpath]

theorem converges_updates_symm (h1 : op1.type = .update) (h2 : op2.type = .update) :
    Converges doc op1 op2 ↔ Converges doc op2 op1 := by
  rw [converges_updates_iff h1 h2, converges_updates_iff h2 h1]
  exact exists_congr fun final => And.comm

/-! ### Apart, equal and nested locations -/

theorem apart_updates_converge {a b : Json} (h1 : op1.type = .update) (h2 : op2.type = .update)
    (hapart : Apart op1.path op2.path) (ha : doc.at? op1.path = some a)
    (hb : doc.at? op2.path = some b) : Converges doc op1 op2 := by
  have hpath1 : op1.path ≠ [] := fun h => hapart.1 (h ▸ List.nil_prefix)
  have hpath2 : op2.path ≠ [] := fun h => hapart.2 (h ▸ List.nil_prefix)
  have hb' := (at?_assignAt_of_apart hapart ha op1.value).trans hb
  have ha' := (at?_assignAt_of_apart hapart.symm hb op2.value).trans ha
  refine (converges_updates_iff h1 h2).mpr
    ⟨assignAt (assignAt doc op1.path op1.value) op2.path op2.value, ?_, ?_⟩
  · rw [applyThen_of_ok (apply_update_at hpath1 ha h1), apply_update_at hpath2 hb' h2]
  · rw [applyThen_of_ok (apply_update_at hpath2 hb h2), apply_update_at hpath1 ha' h1,
      assignAt_comm hapart ha hb]

/-- Two updates of one location store the same value: equal values, or two that
an array slot shows as `null`. -/
def SameStored (parent : Json) (value1 value2 : JsValue) : Prop :=
  value1 = value2 ∨ (parent.isArray = true ∧ value1.getD .null = value2.getD .null)

theorem writeKey_assignKey (h : parent.child? key = some child) (first second : JsValue) :
    ∃ result, (assignKey parent key first).writeKey key second = .ok result ∧
      (parent.isArray = false → result.child? key = second) ∧
      (parent.isArray = true → result = parent.replaceKey key (second.getD .null)) := by
  cases parent with
  | arr items =>
      obtain ⟨i, hi, hitem⟩ := Option.bind_eq_some_iff.mp h
      have hlt : i < items.length := (List.getElem?_eq_some_iff.mp hitem).1
      refine ⟨.arr (items.set i (second.getD .null)), ?_, ?_, ?_⟩
      · cases first <;> simp [assignKey, replaceKey, hi, writeKey, writeIndex, hlt]
      · intro hfalse
        cases hfalse
      · intro _
        simp [replaceKey, hi]
  | obj fields =>
      cases first <;> cases second <;>
        exact ⟨_, rfl, fun _ => by simp [child?], fun hfalse => by cases hfalse⟩
  | _ => simp [child?] at h

theorem truthy_assignKey (h : parent.child? key = some child) (value : JsValue) :
    (assignKey parent key value).truthy = true := by
  cases parent with
  | arr items =>
      obtain ⟨i, hi, _⟩ := Option.bind_eq_some_iff.mp h
      cases value <;> simp [assignKey, replaceKey, hi, truthy]
  | obj fields => cases value <;> rfl
  | _ => simp [child?] at h

section

variable (h1 : op1.type = .update)
include h1

section

variable (h2 : op2.type = .update)
include h2

theorem applyThen_same_location (hpath1 : op1.path = front ++ [key])
    (hpath2 : op2.path = front ++ [key]) (hfront : doc.at? front = some parent)
    (hchild : parent.child? key = some child) :
    applyThen doc op1 op2 =
      (doc.replaceAt front ·) <$> (assignKey parent key op1.value).writeKey key op2.value := by
  have hat : doc.at? op1.path = some child := by
    rw [hpath1, at?_append, hfront, Option.bind_some, at?_cons_of_child? hchild, at?_nil]
  rw [applyThen_of_ok (apply_update_at (by simp [hpath1]) hat h1), hpath1,
    assignAt_concat hfront]
  simp only [apply, applyUpdate, h2, hpath2]
  rw [mutateProperty_concat, navigateToPath_of_at? (at?_replaceAt_self hfront _)
    (truthy_assignKey hchild _)]
  simp only [replaceAt_replaceAt hfront]

theorem same_location_converges_iff (hpath1 : op1.path = front ++ [key])
    (hpath2 : op2.path = front ++ [key]) (hfront : doc.at? front = some parent)
    (hchild : parent.child? key = some child) :
    Converges doc op1 op2 ↔ SameStored parent op1.value op2.value := by
  obtain ⟨left, hleft, hleftObj, hleftArr⟩ := writeKey_assignKey hchild op1.value op2.value
  obtain ⟨right, hright, hrightObj, hrightArr⟩ := writeKey_assignKey hchild op2.value op1.value
  rw [converges_updates_iff h1 h2, applyThen_same_location h1 h2 hpath1 hpath2 hfront hchild,
    applyThen_same_location h2 h1 hpath2 hpath1 hfront hchild, hleft, hright]
  have hiff : (∃ final, (doc.replaceAt front ·) <$> (Except.ok left : Js Json) = .ok final ∧
      (doc.replaceAt front ·) <$> (Except.ok right : Js Json) = .ok final) ↔ left = right := by
    constructor
    · rintro ⟨final, hl, hr⟩
      exact replaceAt_injective hfront (Except.ok.inj (hl.trans hr.symm))
    · rintro rfl
      exact ⟨_, rfl, rfl⟩
  rw [hiff]
  cases harray : parent.isArray with
  | true =>
      rw [hleftArr harray, hrightArr harray]
      constructor
      · intro heq
        have hget := child?_replaceKey_self hchild (op2.value.getD .null)
        rw [heq, child?_replaceKey_self hchild] at hget
        exact Or.inr ⟨harray, Option.some.inj hget⟩
      · rintro (heq | ⟨_, heq⟩) <;> rw [heq]
  | false =>
      constructor
      · rintro rfl
        exact Or.inl ((hrightObj harray).symm.trans (hleftObj harray))
      · rintro (heq | ⟨htrue, _⟩)
        · rw [heq] at hleft hright
          exact Except.ok.inj (hleft.symm.trans hright)
        · rw [htrue] at harray
          cases harray

theorem applyThen_inner_outer (hpath1 : op1.path ≠ []) (hpath2 : op2.path = op1.path ++ key :: rest)
    (hnode : doc.at? op1.path = some node) (hinner : node.at? (key :: rest) = some inner) :
    applyThen doc op2 op1 = .ok (assignAt
      (doc.replaceAt op1.path (assignAt node (key :: rest) op2.value)) op1.path op1.value) := by
  have hat : doc.at? op2.path = some inner := by
    rw [hpath2, at?_append, hnode, Option.bind_some, hinner]
  rw [applyThen_of_ok (apply_update_at (by simp [hpath2]) hat h2), hpath2,
    assignAt_append hnode (by simp)]
  exact apply_update_at hpath1 (at?_replaceAt_self hnode _) h1

theorem nested_in_value_iff {value : Json} (hpath1 : op1.path ≠ [])
    (hpath2 : op2.path = op1.path ++ key :: rest) (hnode : doc.at? op1.path = some node)
    (hinner : node.at? (key :: rest) = some inner)
    (hstored : ∀ stored, assignAt (doc.replaceAt op1.path stored) op1.path op1.value =
      doc.replaceAt op1.path value) :
    Converges doc op1 op2 ↔ AlreadyThere op2.value value (key :: rest) := by
  have hright := applyThen_inner_outer h1 h2 hpath1 hpath2 hnode hinner
  have hfirst : apply doc op1 = .ok (doc.replaceAt op1.path value) := by
    rw [apply_update_at hpath1 hnode h1, ← hstored node, replaceAt_at? hnode]
  have hleft : applyThen doc op1 op2 =
      (doc.replaceAt op1.path ·) <$> writeBelow op2.value value (key :: rest) := by
    rw [applyThen_of_ok hfirst, apply_update_below hpath1 (by simp)
      (at?_replaceAt_self hnode value) h2 hpath2]
    simp only [replaceAt_replaceAt hnode]
  obtain ⟨front, last, hsplit⟩ : ∃ front last, key :: rest = front ++ [last] :=
    ⟨_, _, (List.dropLast_append_getLast (by simp)).symm⟩
  rw [converges_updates_iff h1 h2, hleft, hright, hstored, hsplit,
    ← writeBelow_eq_self_iff]
  constructor
  · rintro ⟨final, hl, hr⟩
    cases hwrite : writeBelow op2.value value (front ++ [last]) with
    | error e =>
        rw [hwrite] at hl
        cases hl
    | ok written =>
        rw [hwrite] at hl
        rw [replaceAt_injective hnode (Except.ok.inj (hl.trans hr.symm))]
  · intro hself
    exact ⟨_, by rw [hself]; rfl, rfl⟩

end

end

variable {last : String}

theorem cleared_slot_diverges {items : List Json} (h1 : op1.type = .update)
    (h2 : op2.type = .update) (hvalue : op1.value = none) (hpath1 : op1.path = front ++ [last])
    (hpath2 : op2.path = op1.path ++ key :: rest) (hfront : doc.at? front = some (.arr items))
    (hchild : (Json.arr items).child? last = some node)
    (hinner : node.at? (key :: rest) = some inner) : ¬ Converges doc op1 op2 := by
  have hne : op1.path ≠ [] := by simp [hpath1]
  have hnode : doc.at? op1.path = some node := by
    rw [hpath1, at?_append, hfront, Option.bind_some, at?_cons_of_child? hchild, at?_nil]
  have hstored : ∀ stored, assignAt (doc.replaceAt op1.path stored) op1.path op1.value =
      doc.replaceAt op1.path .null := by
    intro stored
    obtain ⟨items', hitems'⟩ : ∃ items', (Json.arr items).replaceKey last stored =
        .arr items' := by
      simp only [replaceKey]
      split <;> exact ⟨_, rfl⟩
    have hfront' : (doc.replaceAt (front ++ [last]) stored).at? front = some (.arr items') := by
      rw [replaceAt_append hfront, replaceAt_cons hchild, replaceAt_nil, hitems']
      exact at?_replaceAt_self hfront _
    have hslot : (Json.arr items').child? last = some stored := by
      rw [← hitems']
      exact child?_replaceKey_self hchild stored
    rw [hvalue, ← replaceAt_replaceAt hnode stored .null, hpath1]
    exact assignAt_none_array hfront' hslot
  rw [nested_in_value_iff h1 h2 hne hpath2 hnode hinner hstored]
  exact not_alreadyThere_of_primitive (by exact trivial) _

theorem writeBelow_missing {value : JsValue} {fields : List (String × Json)} {result : Json}
    (hmissing : fields.lookup last = none)
    (h : writeBelow value (.obj fields) (last :: key :: rest) = .ok result) :
    ∃ child, result.child? last = some child := by
  obtain ⟨front, final, hsplit⟩ : ∃ front final, key :: rest = front ++ [final] :=
    ⟨_, _, (List.dropLast_append_getLast (by simp)).symm⟩
  rw [hsplit, ← List.cons_append, writeBelow_concat] at h
  rcases navigateToPath_cons_ok h with ⟨child, inner, hread, _⟩ | ⟨_, inner, _, _, _, hwrite⟩
  · have hlookup : fields.lookup last = some child := Except.ok.inj hread
    rw [hmissing] at hlookup
    cases hlookup
  · cases hwrite
    exact ⟨inner, Fields.lookup_set_self _ _ _⟩

/-- An object field that was removed is written anew in one of the orders. -/
theorem removed_field_diverges {fields : List (String × Json)} (h1 : op1.type = .update)
    (h2 : op2.type = .update) (hvalue : op1.value = none) (hpath1 : op1.path = front ++ [last])
    (hpath2 : op2.path = op1.path ++ key :: rest) (hfront : doc.at? front = some (.obj fields))
    (hchild : (Json.obj fields).child? last = some node)
    (hinner : node.at? (key :: rest) = some inner) : ¬ Converges doc op1 op2 := by
  have hne : op1.path ≠ [] := by simp [hpath1]
  have hnode : doc.at? op1.path = some node := by
    rw [hpath1, at?_append, hfront, Option.bind_some, at?_cons_of_child? hchild, at?_nil]
  have hpath2' : op2.path = front ++ (last :: key :: rest) := by
    rw [hpath2, hpath1, List.append_assoc, List.singleton_append]
  have hfirst : apply doc op1 = .ok (doc.replaceAt front (.obj (Fields.erase last fields))) := by
    rw [apply_update_at hne hnode h1, hpath1, hvalue, assignAt_concat hfront]
    rfl
  have hleft : applyThen doc op1 op2 = (doc.replaceAt front ·) <$>
      writeBelow op2.value (.obj (Fields.erase last fields)) (last :: key :: rest) := by
    rw [applyThen_of_ok hfirst, apply_update_in (List.cons_ne_nil _ _)
      (at?_replaceAt_self hfront _) rfl h2 hpath2']
    simp only [replaceAt_replaceAt hfront]
  have hright := applyThen_inner_outer h1 h2 hne hpath2 hnode hinner
  rw [hvalue, hpath1, replaceAt_append hfront, replaceAt_cons hchild,
    assignAt_concat (at?_replaceAt_self hfront _), replaceAt_replaceAt hfront] at hright
  rw [converges_updates_iff h1 h2, hleft, hright]
  rintro ⟨final, hl, hr⟩
  cases hwrite : writeBelow op2.value (.obj (Fields.erase last fields)) (last :: key :: rest) with
  | error e =>
      rw [hwrite] at hl
      cases hl
  | ok written =>
      rw [hwrite] at hl
      have heq := replaceAt_injective hfront (Except.ok.inj (hl.trans hr.symm))
      obtain ⟨child, hwritten⟩ := writeBelow_missing (Fields.lookup_erase_self _ _) hwrite
      rw [heq] at hwritten
      have hgone := (Fields.lookup_erase_self last (Fields.set last
        (assignAt node (key :: rest) op2.value) fields)).symm.trans hwritten
      cases hgone

theorem nested_location_converges_iff (h1 : op1.type = .update) (h2 : op2.type = .update)
    (hpath1 : op1.path ≠ []) (hpath2 : op2.path = op1.path ++ key :: rest)
    (hnode : doc.at? op1.path = some node) (hinner : node.at? (key :: rest) = some inner) :
    Converges doc op1 op2 ↔
      ∃ value, op1.value = some value ∧ AlreadyThere op2.value value (key :: rest) := by
  cases hvalue : op1.value with
  | some value =>
      have hstored : ∀ stored, assignAt (doc.replaceAt op1.path stored) op1.path op1.value =
          doc.replaceAt op1.path value := by
        intro stored
        rw [hvalue, assignAt_some hpath1 (at?_replaceAt_self hnode stored),
          replaceAt_replaceAt hnode]
      rw [nested_in_value_iff h1 h2 hpath1 hpath2 hnode hinner hstored]
      simp
  | none =>
      obtain ⟨front, last, parent, hsplit, hfront, hchild⟩ := at?_parent hpath1 hnode
      refine iff_of_false ?_ (by simp)
      cases parent with
      | arr items =>
          exact cleared_slot_diverges h1 h2 hvalue hsplit hpath2 hfront hchild hinner
      | obj fields =>
          exact removed_field_diverges h1 h2 hvalue hsplit hpath2 hfront hchild hinner
      | _ => simp [child?] at hchild

/-- The updates of which the order does not matter. The first three disjuncts
are about the paths alone; in the others the update applied last finds its value
there already. -/
def UpdatesAgree (doc : Json) (op1 op2 : Operation) : Prop :=
  op1.path = [] ∨ op2.path = [] ∨ pathsConflict op1.path op2.path = false ∨
    (op1.path = op2.path ∧
      ∃ parent, doc.at? op1.path.dropLast = some parent ∧ SameStored parent op1.value op2.value) ∨
    (∃ key rest value, op2.path = op1.path ++ key :: rest ∧ op1.value = some value ∧
      AlreadyThere op2.value value (key :: rest)) ∨
    (∃ key rest value, op1.path = op2.path ++ key :: rest ∧ op2.value = some value ∧
      AlreadyThere op1.value value (key :: rest))

theorem apart_of_not_conflict {path other : List String}
    (h : pathsConflict path other = false) : Apart path other := by
  have hnot : ¬ (path <+: other ∨ other <+: path) := by
    rw [← pathsConflict_iff, h]
    exact Bool.false_ne_true
  exact ⟨fun hleft => hnot (Or.inl hleft), fun hright => hnot (Or.inr hright)⟩

theorem inner_at? {b : Json} {path : List String} (hnode : doc.at? path = some node)
    (h : doc.at? (path ++ rest) = some b) : node.at? rest = some b := by
  rwa [at?_append, hnode, Option.bind_some] at h

/-- The two orders of two updates end in one document exactly when one is about
the root, they do not conflict, or the later write finds its value there. -/
theorem update_orders_agree_iff {a b : Json} (h1 : op1.type = .update)
    (h2 : op2.type = .update) (ha : doc.at? op1.path = some a) (hb : doc.at? op2.path = some b) :
    (∃ final, applyThen doc op1 op2 = .ok final ∧ applyThen doc op2 op1 = .ok final) ↔
      UpdatesAgree doc op1 op2 := by
  rw [← converges_updates_iff h1 h2]
  rcases eq_or_ne op1.path [] with hroot1 | hroot1
  · exact iff_of_true (root_update_converges h1 h2 hroot1 hb) (Or.inl hroot1)
  rcases eq_or_ne op2.path [] with hroot2 | hroot2
  · exact iff_of_true ((converges_updates_symm h1 h2).mpr (root_update_converges h2 h1 hroot2 ha))
      (Or.inr (Or.inl hroot2))
  constructor
  · intro hconverges
    cases hconflict : pathsConflict op1.path op2.path with
    | false => exact Or.inr (Or.inr (Or.inl hconflict))
    | true =>
        right; right; right
        rcases (pathsConflict_iff _ _).mp hconflict with ⟨rest, hrest⟩ | ⟨rest, hrest⟩
        · cases rest with
          | nil =>
              rw [List.append_nil] at hrest
              obtain ⟨front, key, parent, hsplit, hfront, hchild⟩ := at?_parent hroot1 ha
              refine Or.inl ⟨hrest, parent, by rwa [hsplit, List.dropLast_concat], ?_⟩
              exact (same_location_converges_iff h1 h2 hsplit (hrest.symm.trans hsplit) hfront
                hchild).mp hconverges
          | cons key rest =>
              have hinner := inner_at? ha (hrest ▸ hb)
              obtain ⟨value, hvalue, hthere⟩ := (nested_location_converges_iff h1 h2 hroot1
                hrest.symm ha hinner).mp hconverges
              exact Or.inr (Or.inl ⟨key, rest, value, hrest.symm, hvalue, hthere⟩)
        · cases rest with
          | nil =>
              rw [List.append_nil] at hrest
              obtain ⟨front, key, parent, hsplit, hfront, hchild⟩ := at?_parent hroot1 ha
              refine Or.inl ⟨hrest.symm, parent, by rwa [hsplit, List.dropLast_concat], ?_⟩
              exact (same_location_converges_iff h1 h2 hsplit (hrest.trans hsplit) hfront
                hchild).mp hconverges
          | cons key rest =>
              have hinner := inner_at? hb (hrest ▸ ha)
              obtain ⟨value, hvalue, hthere⟩ := (nested_location_converges_iff h2 h1 hroot2
                hrest.symm hb hinner).mp ((converges_updates_symm h1 h2).mp hconverges)
              exact Or.inr (Or.inr ⟨key, rest, value, hrest.symm, hvalue, hthere⟩)
  · rintro (hroot | hroot | hapart | ⟨hsame, parent, hparent, hstored⟩ |
      ⟨key, rest, value, hpath, hvalue, hthere⟩ | ⟨key, rest, value, hpath, hvalue, hthere⟩)
    · exact absurd hroot hroot1
    · exact absurd hroot hroot2
    · exact apart_updates_converge h1 h2 (apart_of_not_conflict hapart) ha hb
    · obtain ⟨front, key, parent', hsplit, hfront, hchild⟩ := at?_parent hroot1 ha
      rw [hsplit, List.dropLast_concat, hfront] at hparent
      cases hparent
      exact (same_location_converges_iff h1 h2 hsplit (hsame.symm.trans hsplit) hfront
        hchild).mpr hstored
    · exact (nested_location_converges_iff h1 h2 hroot1 hpath ha (inner_at? ha (hpath ▸ hb))).mpr
        ⟨value, hvalue, hthere⟩
    · apply (converges_updates_symm h1 h2).mpr
      exact (nested_location_converges_iff h2 h1 hroot2 hpath hb (inner_at? hb (hpath ▸ ha))).mpr
        ⟨value, hvalue, hthere⟩

/-- Two updates of existing locations converge exactly when their order does not
matter: the transform does not give either of them priority. -/
theorem updates_converge_iff {a b : Json} (h1 : op1.type = .update) (h2 : op2.type = .update)
    (ha : doc.at? op1.path = some a) (hb : doc.at? op2.path = some b) :
    Converges doc op1 op2 ↔ UpdatesAgree doc op1 op2 := by
  rw [converges_updates_iff h1 h2]
  exact update_orders_agree_iff h1 h2 ha hb

end Updates

/-- Two users update different fields of one action. -/
theorem updates_converge_iff_actions :
    let doc : Json := .obj [("name", .str "click"), ("delay", .num 1)]
    let op1 : Operation :=
      { type := .update, path := ["name"], value := some (.str "drag"), timestamp := 1
        userId := "user-1", operationId := "op-1" }
    let op2 : Operation :=
      { type := .update, path := ["delay"], value := some (.num 2), timestamp := 2
        userId := "user-2", operationId := "op-2" }
    Converges doc op1 op2 ↔ UpdatesAgree doc op1 op2 := by
  intro doc op1 op2
  have hname : doc.at? op1.path = some (.str "click") := rfl
  have hdelay : doc.at? op2.path = some (.num 1) := rfl
  exact updates_converge_iff rfl rfl hname hdelay

/-- Two users rename one action: each of them ends with the other one's name. -/
theorem updates_diverge_name :
    let doc : Json := .obj [("name", .str "click")]
    let op1 : Operation :=
      { type := .update, path := ["name"], value := some (.str "drag"), timestamp := 1
        userId := "user-1", operationId := "op-1" }
    let op2 : Operation :=
      { type := .update, path := ["name"], value := some (.str "type"), timestamp := 2
        userId := "user-2", operationId := "op-2" }
    doc.at? op1.path = some (.str "click") ∧ doc.at? op2.path = some (.str "click") ∧
      ¬ Converges doc op1 op2 := by
  intro doc op1 op2
  have hleft : applyThen doc op1 (transform op1 op2).2 = .ok (.obj [("name", .str "type")]) := by
    decide +kernel
  have hright : applyThen doc op2 (transform op1 op2).1 = .ok (.obj [("name", .str "drag")]) := by
    decide +kernel
  refine ⟨rfl, rfl, ?_⟩
  rw [converges_iff hleft hright]
  decide

end Qontinui.OperationalTransform
