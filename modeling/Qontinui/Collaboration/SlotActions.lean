import Qontinui.Collaboration.SlotOutcome

/-!
An edit of a path as an action on the node that holds the last key. A law about
three such actions on every node is one about the edits of every document: walking
down to the node adds nothing that two edits one after the other would show.
-/

namespace Qontinui.OperationalTransform

open Json

/-- What an edit does to a node whose last key shows no array. -/
def plainAct (op : Operation) (parent : Json) (key : String) : Js Json :=
  match op.type with
  | .delete => parent.deleteKey key
  | .move => pure parent
  | _ => parent.writeKey key op.value

/-- What an edit does to the node its path leads to. -/
def slotAct (op : Operation) (parent : Json) (key : String) : Js Json :=
  if op.type = .update then parent.writeKey key op.value
  else do
    match ← parent.readKey key with
    | some (.arr items) => pure (parent.replaceKey key (.arr (editItems op items)))
    | _ => plainAct op parent key

variable {op : Operation} {key : String} {doc : Json} {act : Json → Js Json}

section

variable (hop : EditsPath op)
include hop

theorem apply_eq_mutate (doc : Json) : apply doc op = mutateProperty (slotAct op) doc op.path := by
  cases htype : op.type with
  | connect => exact absurd htype hop.1
  | disconnect => exact absurd htype hop.2
  | update =>
      simp only [apply, applyUpdate, htype]
      congr 1
      funext parent key
      simp only [slotAct, htype, if_true]
  | insert | delete | move =>
      simp only [apply, applyInsert, applyDelete, applyMove, htype]
      congr 1
      funext parent key
      simp only [slotAct, plainAct, editItems, htype, reduceCtorEq, if_false]
      all_goals rfl

theorem apply_concat {front : List String} (hpath : op.path = front ++ [key]) (doc : Json) :
    apply doc op = navigateToPath (slotAct op · key) doc front := by
  rw [apply_eq_mutate hop, hpath, mutateProperty_concat]

theorem apply_root (hpath : op.path = []) (doc : Json) : apply doc op = .ok doc := by
  rw [apply_eq_mutate hop, hpath]
  rfl

theorem slotAct_slot {parent : Json} (h : IsSlot parent key) :
    slotAct op parent key =
      .ok (assignKey parent key (slotEdit op (parent.child? key))) := by
  have hroot : parent.at? [] = some parent := rfl
  have hedits : EditsPath { op with path := [key] } := hop
  have happly := apply_slot hroot h (List.nil_append [key]).symm hedits
  rwa [apply_concat hedits (List.nil_append [key]).symm] at happly

end

/-! ### Outcomes -/

/-- Two computations both throw, or give documents of the same structure. -/
def SameOutcome : Js Json → Js Json → Prop
  | .ok left, .ok right => Same (some left) (some right)
  | .error _, .error _ => True
  | _, _ => False

theorem SameOutcome.refl (outcome : Js Json) : SameOutcome outcome outcome := by
  cases outcome with
  | error e => trivial
  | ok doc => exact Same.refl _

theorem SameOutcome.symm {left right : Js Json} (h : SameOutcome left right) :
    SameOutcome right left := by
  cases left with
  | error e => cases right <;> exact h
  | ok left =>
      cases right with
      | error e => exact h
      | ok right => exact Same.symm h

theorem SameOutcome.trans {first second third : Js Json} (h : SameOutcome first second)
    (h' : SameOutcome second third) : SameOutcome first third := by
  cases first <;> cases second <;> cases third <;> first | trivial | cases h | cases h' | skip
  exact Same.trans h h'

theorem sameOutcome_ok {left right : Json} :
    SameOutcome (.ok left) (.ok right) ↔ Same (some left) (some right) := Iff.rfl

theorem same_replaceKey {left right : Json} (h : Same (some left) (some right)) (doc : Json)
    (key : String) : Same (some (doc.replaceKey key left)) (some (doc.replaceKey key right)) := by
  rw [same_iff_child key (by rw [shape_replaceKey, shape_replaceKey])]
  · cases doc with
    | arr items =>
        cases hi : arrayIndex? key with
        | none => simp only [replaceKey, hi]; exact Same.refl _
        | some i =>
            simp only [replaceKey, hi, child?, Option.bind_some, List.getElem?_set_self']
            cases items[i]? with
            | none => exact Same.refl _
            | some old => exact h
    | obj fields => simpa only [replaceKey, child?, Fields.lookup_set_self] using h
    | _ => exact Same.refl _
  · intro other hne
    rw [child?_replaceKey_ne hne, child?_replaceKey_ne hne]

theorem SameOutcome.replaceKey {left right : Js Json} (h : SameOutcome left right) (doc : Json)
    (key : String) :
    SameOutcome ((doc.replaceKey key ·) <$> left) ((doc.replaceKey key ·) <$> right) := by
  cases left with
  | error e =>
      cases right with
      | error e' => trivial
      | ok right => exact h
  | ok left =>
      cases right with
      | error e' => exact h
      | ok right => exact same_replaceKey h doc key

/-! ### Actions on nodes -/

def IsContainer : Json → Prop
  | .arr _ | .obj _ => True
  | _ => False

theorem IsContainer.truthy (h : IsContainer doc) : doc.truthy = true := by
  cases doc with
  | arr | obj => rfl
  | _ => exact absurd h id

theorem isContainer_replaceKey (h : IsContainer doc) (key : String) (value : Json) :
    IsContainer (doc.replaceKey key value) := by
  cases doc with
  | arr items => cases hi : arrayIndex? key <;> simp [Json.replaceKey, hi, IsContainer]
  | obj fields => trivial
  | _ => exact absurd h id

theorem replaceKey_leaf (h : ¬IsContainer doc) (key : String) (value : Json) :
    doc.replaceKey key value = doc := by
  cases doc with
  | arr | obj => exact absurd trivial h
  | _ => rfl

variable {next : Json}

theorem isContainer_writeKey {value : JsValue} (h : doc.writeKey key value = .ok next) :
    IsContainer doc ∧ IsContainer next := by
  cases doc with
  | arr items =>
      refine ⟨trivial, ?_⟩
      simp only [writeKey] at h
      split at h
      · cases h; trivial
      · split at h
        · split at h
          · cases h; trivial
          · cases h
        · cases h; trivial
  | obj fields =>
      refine ⟨trivial, ?_⟩
      cases value with
      | none | some => cases h; trivial
  | _ => cases h

theorem deleteKey_kind (h : doc.deleteKey key = .ok next) :
    IsContainer doc ∧ IsContainer next ∨ next = doc := by
  cases doc with
  | null => cases h
  | bool | num => cases h; exact Or.inr rfl
  | str text =>
      simp only [deleteKey] at h
      split at h <;> split at h <;> first | cases h; exact Or.inr rfl | cases h
  | arr items =>
      refine Or.inl ⟨trivial, ?_⟩
      simp only [deleteKey] at h
      split at h
      · cases h; trivial
      · split at h
        · cases h
        · cases h; trivial
  | obj fields => cases h; exact Or.inl ⟨trivial, trivial⟩

/-- An action that keeps leaves as they are and containers containers, and that leaves an
object of a new one. -/
structure KeepsKind (act : Json → Js Json) : Prop where
  kind : ∀ {doc next}, act doc = .ok next → IsContainer doc ∧ IsContainer next ∨ next = doc
  fresh : ∃ fields, act (.obj []) = .ok (.obj fields)

theorem KeepsKind.leaf (h : KeepsKind act) (hdoc : ¬IsContainer doc) (hact : act doc = .ok next) :
    next = doc :=
  (h.kind hact).resolve_left fun hkind => hdoc hkind.1

theorem KeepsKind.truthy {act : Json → Js Json} (h : KeepsKind act) {doc next : Json}
    (hdoc : doc.truthy = true) (hact : act doc = .ok next) : next.truthy = true := by
  rcases h.kind hact with ⟨_, hnext⟩ | rfl
  · exact hnext.truthy
  · exact hdoc

theorem replaceKey_kind (doc value : Json) (key : String) :
    IsContainer doc ∧ IsContainer (doc.replaceKey key value) ∨
      doc.replaceKey key value = doc := by
  by_cases hdoc : IsContainer doc
  · exact Or.inl ⟨hdoc, isContainer_replaceKey hdoc key value⟩
  · exact Or.inr (replaceKey_leaf hdoc key value)

theorem writeKey_fresh (key : String) (value : JsValue) :
    ∃ fields, (Json.obj []).writeKey key value = .ok (.obj fields) := by
  cases value with
  | none | some => exact ⟨_, rfl⟩

theorem plainAct_kind {parent : Json} (h : plainAct op parent key = .ok next) :
    IsContainer parent ∧ IsContainer next ∨ next = parent := by
  unfold plainAct at h
  split at h
  · exact deleteKey_kind h
  · cases h
    exact Or.inr rfl
  · exact Or.inl (isContainer_writeKey h)

theorem keepsKind_slotAct (op : Operation) (key : String) : KeepsKind (slotAct op · key) where
  kind := by
    intro parent next h
    unfold slotAct at h
    split at h
    · exact Or.inl (isContainer_writeKey h)
    · cases hread : parent.readKey key with
      | error e =>
          rw [hread] at h
          cases h
      | ok value =>
          rw [hread] at h
          simp only [bind, Except.bind] at h
          split at h
          · cases h
            exact replaceKey_kind parent _ key
          · exact plainAct_kind h
  fresh := by
    unfold slotAct
    split
    · exact writeKey_fresh key _
    · change ∃ fields, plainAct op (.obj []) key = .ok (.obj fields)
      unfold plainAct
      split
      · exact ⟨[], rfl⟩
      · exact ⟨[], rfl⟩
      · exact writeKey_fresh key _

theorem navigate_fresh (h : KeepsKind act) (front : List String) :
    ∃ fields, navigateToPath act (.obj []) front = .ok (.obj fields) := by
  induction front with
  | nil => exact h.fresh
  | cons key rest ih =>
      obtain ⟨fields, hinner⟩ := ih
      refine ⟨[(key, .obj fields)], ?_⟩
      change (navigateToPath act (.obj []) rest >>= fun child =>
        (Json.obj []).writeKey key (some child)) = _
      rw [hinner]
      rfl

theorem keepsKind_navigate (h : KeepsKind act) (front : List String) :
    KeepsKind (navigateToPath act · front) where
  kind := by
    intro doc next hnext
    cases front with
    | nil => exact h.kind hnext
    | cons key rest =>
        rcases navigateToPath_cons_ok hnext with
          ⟨_, inner, _, _, _, rfl⟩ | ⟨_, inner, _, _, _, hwrite⟩
        · exact replaceKey_kind doc inner key
        · exact Or.inl (isContainer_writeKey hwrite)
  fresh := navigate_fresh h front

/-! ### Two actions after each other -/

section Navigate

variable {act : Json → Js Json} {doc child : Json} {key : String} {rest : List String}

theorem navigate_error {e : JsError} (h : doc.readKey key = .error e) :
    navigateToPath act doc (key :: rest) = .error e := by
  simp only [navigateToPath, h, bind, Except.bind]

theorem navigate_enter (h : doc.readKey key = .ok (some child)) (htruthy : child.truthy = true) :
    navigateToPath act doc (key :: rest) =
      (doc.replaceKey key ·) <$> navigateToPath act child rest := by
  simp only [navigateToPath, h, bind, Except.bind, htruthy, if_true]
  cases navigateToPath act child rest <;> rfl

theorem navigate_create {old : JsValue} (h : doc.readKey key = .ok old)
    (hfalsy : JsValue.truthy old = false) :
    navigateToPath act doc (key :: rest) =
      navigateToPath act (.obj []) rest >>= fun child => doc.writeKey key (some child) := by
  cases old with
  | none => simp only [navigateToPath, h, bind, Except.bind]
  | some child =>
      have hchild : child.truthy = false := hfalsy
      simp only [navigateToPath, h, bind, Except.bind, hchild, Bool.false_eq_true, if_false]

section

variable (h : doc.readKey key = .ok (some child))
include h

theorem replaceKey_of_not_child (hchild : doc.child? key = none) (value : Json) :
    doc.replaceKey key value = doc := by
  cases doc with
  | arr items =>
      cases hi : arrayIndex? key with
      | none => simp only [replaceKey, hi]
      | some i =>
          simp only [readKey, hi, Except.ok.injEq] at h
          simp only [child?, hi, Option.bind_some, h, reduceCtorEq] at hchild
  | obj fields =>
      rw [child?] at hchild
      simp only [readKey, hchild, Except.ok.injEq, reduceCtorEq] at h
  | _ => rfl

theorem not_container_of_not_child (hchild : doc.child? key = none) : ¬IsContainer child := by
  cases doc with
  | null | bool | num => cases h
  | str text =>
      simp only [readKey] at h
      split at h
      · next i hi =>
          cases hc : text.toList[i]? with
          | none => simp only [hc, Option.map_none, Except.ok.injEq, reduceCtorEq] at h
          | some c =>
              simp only [hc, Option.map_some, Except.ok.injEq, Option.some.injEq] at h
              subst h
              exact id
      · split at h
        · cases h
          exact id
        · cases h
  | arr items =>
      cases hi : arrayIndex? key with
      | none =>
          simp only [readKey, hi] at h
          split at h
          · cases h
            exact id
          · cases h
      | some i =>
          simp only [readKey, hi, Except.ok.injEq] at h
          simp only [child?, hi, Option.bind_some, h, reduceCtorEq] at hchild
  | obj fields =>
      rw [child?] at hchild
      simp only [readKey, hchild, Except.ok.injEq, reduceCtorEq] at h

theorem navigate_replaced {child' : Json} (htruthy : child'.truthy = true)
    (hkind : doc.child? key = none → child' = child) (act : Json → Js Json) (rest : List String) :
    navigateToPath act (doc.replaceKey key child') (key :: rest) =
      (doc.replaceKey key ·) <$> navigateToPath act child' rest := by
  cases hchild : doc.child? key with
  | some old =>
      rw [navigate_enter (readKey_of_child? (child?_replaceKey_self hchild child')) htruthy]
      simp only [replaceKey_replaceKey]
  | none =>
      have hkeep := replaceKey_of_not_child h hchild
      rw [hkeep, hkind hchild, navigate_enter h (hkind hchild ▸ htruthy)]

end

theorem getElem?_writeIndex_self (items : List Json) (i : Nat) (value : Json) :
    (writeIndex items i value)[i]? = some value := by
  unfold writeIndex
  split
  · next hlt => simp [hlt]
  · next hge =>
      have hlength : (items ++ List.replicate (i - items.length) Json.null).length = i := by
        simp only [List.length_append, List.length_replicate]
        omega
      rw [List.getElem?_append_right (by omega), hlength, Nat.sub_self]
      rfl

theorem set_writeIndex (items : List Json) (i : Nat) (old value : Json) :
    (writeIndex items i old).set i value = writeIndex items i value := by
  unfold writeIndex
  split
  · rw [List.set_set]
  · next hge =>
      have hlength : (items ++ List.replicate (i - items.length) Json.null).length = i := by
        simp only [List.length_append, List.length_replicate]
        omega
      rw [List.set_append_right _ _ (by omega), hlength, Nat.sub_self]
      rfl

theorem writeKey_object (doc : Json) (key : String) :
    (∀ fields, ∃ e, doc.writeKey key (some (.obj fields)) = .error e) ∨
      (doc.readKey key = .ok none ∧
        ∀ fields, doc.writeKey key (some (.obj fields)) = .ok doc) ∨
        ∃ (base old : Json), base.child? key = some old ∧
          ∀ fields, doc.writeKey key (some (.obj fields)) =
            .ok (base.replaceKey key (.obj fields)) := by
  cases doc with
  | arr items =>
      cases hi : arrayIndex? key with
      | none =>
          by_cases hlength : key = "length"
          · refine Or.inl fun fields => ⟨.rangeError, ?_⟩
            simp only [writeKey, hi, if_pos hlength, arrayLength?]
          · refine Or.inr (Or.inl ⟨?_, fun fields => ?_⟩)
            · simp [readKey, hi, hlength]
            · simp [writeKey, hi, hlength]
      | some i =>
          refine Or.inr (Or.inr ⟨.arr (writeIndex items i .null), .null, ?_, fun fields => ?_⟩)
          · simpa only [child?, hi, Option.bind_some] using getElem?_writeIndex_self items i .null
          · simp only [writeKey, replaceKey, hi, Option.getD_some, set_writeIndex]
  | obj fields =>
      refine Or.inr (Or.inr ⟨.obj (Fields.set key .null fields), .null,
        Fields.lookup_set_self _ _ _, fun inner => ?_⟩)
      simp only [writeKey, replaceKey, Fields.set_set]
  | _ => exact Or.inl fun fields => ⟨.typeError, rfl⟩

end Navigate

/-- The action `both` is the action `first` and then `second`. -/
def Composite (first second both : Json → Js Json) : Prop :=
  ∀ node, SameOutcome (both node) (first node >>= second)

section Absorb

variable {first second both : Json → Js Json} {front : List String} {doc : Json} {key : String}

theorem composite_enter {child : Json} (hfirst : KeepsKind first)
    (ih : Composite (navigateToPath first · front) (navigateToPath second · front)
      (navigateToPath both · front))
    (hread : doc.readKey key = .ok (some child)) (htruthy : child.truthy = true) :
    SameOutcome (navigateToPath both doc (key :: front))
      (navigateToPath first doc (key :: front) >>= (navigateToPath second · (key :: front))) := by
  rw [navigate_enter hread htruthy, navigate_enter hread htruthy]
  have hchild := ih child
  cases hone : navigateToPath first child front with
  | error e =>
      simp only [hone] at hchild
      exact hchild.replaceKey doc key
  | ok child' =>
      have hkind := keepsKind_navigate hfirst front
      have hleaf : doc.child? key = none → child' = child := fun hnone =>
        hkind.leaf (not_container_of_not_child hread hnone) hone
      simp only [hone] at hchild
      change SameOutcome _ (navigateToPath second (doc.replaceKey key child') (key :: front))
      rw [navigate_replaced hread (hkind.truthy htruthy hone) hleaf]
      exact hchild.replaceKey doc key

theorem composite_create {old : JsValue} (hfirst : KeepsKind first) (hsecond : KeepsKind second)
    (hboth : KeepsKind both)
    (ih : Composite (navigateToPath first · front) (navigateToPath second · front)
      (navigateToPath both · front))
    (hread : doc.readKey key = .ok old) (hfalsy : JsValue.truthy old = false) :
    SameOutcome (navigateToPath both doc (key :: front))
      (navigateToPath first doc (key :: front) >>= (navigateToPath second · (key :: front))) := by
  obtain ⟨fields1, hone⟩ := navigate_fresh hfirst front
  obtain ⟨fields2, htwo⟩ := navigate_fresh hsecond front
  obtain ⟨fields, hall⟩ := navigate_fresh hboth front
  rw [navigate_create hread hfalsy, navigate_create hread hfalsy, hone, hall]
  change SameOutcome (doc.writeKey key (some (.obj fields)))
    (doc.writeKey key (some (.obj fields1)) >>= (navigateToPath second · (key :: front)))
  rcases writeKey_object doc key with herror | ⟨hnone, hdrop⟩ | ⟨base, old', hbase, hwrite⟩
  · obtain ⟨e, he⟩ := herror fields
    obtain ⟨e1, he1⟩ := herror fields1
    rw [he, he1]
    trivial
  · rw [hdrop, hdrop]
    change SameOutcome _ (navigateToPath second doc (key :: front))
    rw [navigate_create hnone rfl, htwo]
    change SameOutcome _ (doc.writeKey key (some (.obj fields2)))
    rw [hdrop]
    exact SameOutcome.refl _
  · rw [hwrite, hwrite]
    change SameOutcome _ (navigateToPath second (base.replaceKey key (.obj fields1)) (key :: front))
    rw [navigate_replaced (readKey_of_child? hbase) rfl (by rw [hbase]; exact nofun)]
    have hfresh := ih (.obj [])
    simp only [hone, hall] at hfresh
    exact hfresh.replaceKey base key

theorem composite_navigate (hfirst : KeepsKind first) (hsecond : KeepsKind second)
    (hboth : KeepsKind both) (h : Composite first second both) (front : List String) :
    Composite (navigateToPath first · front) (navigateToPath second · front)
      (navigateToPath both · front) := by
  induction front with
  | nil => exact h
  | cons key front ih =>
      intro doc
      cases hread : doc.readKey key with
      | error e =>
          simp only [navigate_error hread]
          trivial
      | ok old =>
          cases htruthy : JsValue.truthy old with
          | false => exact composite_create hfirst hsecond hboth ih hread htruthy
          | true =>
              cases old with
              | none => cases htruthy
              | some child => exact composite_enter hfirst ih hread htruthy

theorem sameOutcome_replaceAt {target : Json} (hdoc : doc.at? front = some target)
    (left right : Js Json) :
    SameOutcome ((doc.replaceAt front ·) <$> left) ((doc.replaceAt front ·) <$> right) ↔
      SameOutcome left right := by
  cases left with
  | error e => cases right <;> exact Iff.rfl
  | ok left =>
      cases right with
      | error e => exact Iff.rfl
      | ok right => exact same_replaceAt_iff hdoc left right

theorem composite_node {parent : Json} (hfirst : KeepsKind first)
    (hparent : parent.truthy = true) (hdoc : doc.at? front = some parent) :
    SameOutcome (navigateToPath both doc front)
        (navigateToPath first doc front >>= (navigateToPath second · front)) ↔
      SameOutcome (both parent) (first parent >>= second) := by
  rw [navigateToPath_of_at? hdoc hparent, navigateToPath_of_at? hdoc hparent]
  cases hone : first parent with
  | error e =>
      cases both parent with
      | error | ok => exact Iff.rfl
  | ok next =>
      have hnext := at?_replaceAt_self hdoc next
      change SameOutcome _ (navigateToPath second (doc.replaceAt front next) front) ↔
        SameOutcome _ (second next)
      rw [navigateToPath_of_at? hnext (hfirst.truthy hparent hone)]
      simp only [replaceAt_replaceAt hdoc]
      exact sameOutcome_replaceAt hdoc _ _

end Absorb

end Qontinui.OperationalTransform
