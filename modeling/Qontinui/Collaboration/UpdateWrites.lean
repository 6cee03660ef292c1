import Qontinui.Collaboration.Apply

/-!
What an update writes: at an existing location, below an existing location
whose inner path may be missing, and when the write finds its value there
already.
-/

namespace Qontinui.OperationalTransform

open Json

theorem navigateToPath_append (act : Json → Js Json) (doc : Json) (front rest : List String) :
    navigateToPath act doc (front ++ rest) =
      navigateToPath (fun node => navigateToPath act node rest) doc front := by
  induction front generalizing doc with
  | nil => rfl
  | cons key front ih => simp only [List.cons_append, navigateToPath, ih]

/-- The node the navigation enters: an empty object replaces a falsy value. -/
def entered (doc : Json) : Json := if doc.truthy then doc else .obj []

variable {doc child node : Json} {act : Json → Js Json} {key : String} {path rest : List String}
  {value : JsValue}

theorem entered_of_truthy (h : doc.truthy = true) : entered doc = doc := if_pos h

/-- Write `value` at `path` below `doc`, creating objects on the way. -/
def writeBelow (value : JsValue) (doc : Json) (path : List String) : Js Json :=
  mutateProperty (fun parent key => parent.writeKey key value) (entered doc) path

theorem writeBelow_concat (value : JsValue) (doc : Json) (front : List String) (key : String) :
    writeBelow value doc (front ++ [key]) =
      navigateToPath (fun parent => parent.writeKey key value) (entered doc) front :=
  mutateProperty_concat _ _ _ _

theorem navigateToPath_cons_of_child? (h : doc.child? key = some child) (rest : List String) :
    navigateToPath act doc (key :: rest) =
      (doc.replaceKey key ·) <$> navigateToPath act (entered child) rest := by
  simp only [navigateToPath, readKey_of_child? h, bind, Except.bind, entered]
  cases htruthy : child.truthy with
  | true =>
      simp only [if_true]
      cases navigateToPath act child rest <;> rfl
  | false =>
      simp only [Bool.false_eq_true, if_false, writeKey_of_child? h]
      cases navigateToPath act (.obj []) rest <;> rfl

theorem navigateToPath_below (hpath : path ≠ []) (h : doc.at? path = some node) (rest : List String) :
    navigateToPath act doc (path ++ rest) =
      (doc.replaceAt path ·) <$> navigateToPath act (entered node) rest := by
  obtain ⟨front, key, parent, rfl, hfront, hchild⟩ := at?_parent hpath h
  rw [List.append_assoc, navigateToPath_append,
    navigateToPath_of_at? hfront (truthy_of_child? hchild), List.singleton_append,
    navigateToPath_cons_of_child? hchild]
  cases navigateToPath act (entered node) rest with
  | error e => rfl
  | ok value =>
      simp only [Functor.map, Except.map]
      rw [replaceAt_append hfront, replaceAt_cons hchild]
      rfl

variable {op : Operation}

theorem apply_update_below (hpath : path ≠ []) (hrest : rest ≠ []) (h : doc.at? path = some node)
    (htype : op.type = .update) (hop : op.path = path ++ rest) :
    apply doc op = (doc.replaceAt path ·) <$> writeBelow op.value node rest := by
  obtain ⟨front, key, rfl⟩ : ∃ front key, rest = front ++ [key] :=
    ⟨_, _, (List.dropLast_append_getLast hrest).symm⟩
  rw [writeBelow_concat, ← navigateToPath_below hpath h]
  simp only [apply, applyUpdate, htype, hop, ← List.append_assoc]
  exact mutateProperty_concat _ _ _ _

theorem apply_update_in (hrest : rest ≠ []) (h : doc.at? path = some node)
    (hnode : node.truthy = true) (htype : op.type = .update) (hop : op.path = path ++ rest) :
    apply doc op = (doc.replaceAt path ·) <$> writeBelow op.value node rest := by
  obtain ⟨front, key, rfl⟩ : ∃ front key, rest = front ++ [key] :=
    ⟨_, _, (List.dropLast_append_getLast hrest).symm⟩
  have hwalk := navigateToPath_append (fun parent => parent.writeKey key op.value) doc path front
  rw [navigateToPath_of_at? h hnode] at hwalk
  rw [writeBelow_concat, entered_of_truthy hnode, ← hwalk]
  simp only [apply, applyUpdate, htype, hop, ← List.append_assoc]
  exact mutateProperty_concat _ _ _ _

/-! ### Writes at existing locations -/

/-- `current[key] = value` for an existing child: `undefined` removes a field and
leaves a `null` in an array. -/
def assignKey (doc : Json) (key : String) : JsValue → Json
  | some value => doc.replaceKey key value
  | none =>
      match doc with
      | .obj fields => .obj (Fields.erase key fields)
      | _ => doc.replaceKey key .null

/-- The write of `value` at an existing path. -/
def assignAt : Json → List String → JsValue → Json
  | doc, [], _ => doc
  | doc, [key], value => assignKey doc key value
  | doc, key :: next :: rest, value =>
      match doc.child? key with
      | some child => doc.replaceKey key (assignAt child (next :: rest) value)
      | none => doc

theorem writeKey_eq_assignKey (h : doc.child? key = some child) (value : JsValue) :
    doc.writeKey key value = .ok (assignKey doc key value) := by
  cases value with
  | some value => exact writeKey_of_child? h value
  | none =>
      cases doc with
      | arr items =>
          obtain ⟨i, hi, hitem⟩ := Option.bind_eq_some_iff.mp h
          have hlt : i < items.length := (List.getElem?_eq_some_iff.mp hitem).1
          simp [writeKey, assignKey, replaceKey, hi, writeIndex, hlt]
      | obj fields => rfl
      | _ => simp [child?] at h

theorem child?_assignKey_ne {other : String} (hne : other ≠ key) (doc : Json) (value : JsValue) :
    (assignKey doc key value).child? other = doc.child? other := by
  cases value with
  | some value => exact child?_replaceKey_ne hne doc value
  | none =>
      cases doc with
      | obj fields => exact Fields.lookup_erase_ne hne fields
      | arr items => exact child?_replaceKey_ne hne (.arr items) .null
      | _ => rfl

theorem assignKey_comm {a : Json} {other : String} (hne : key ≠ other)
    (hkey : doc.child? key = some a) (x y : JsValue) :
    assignKey (assignKey doc key x) other y = assignKey (assignKey doc other y) key x := by
  cases doc with
  | obj fields =>
      cases x with
      | some x =>
          cases y with
          | some y => exact replaceKey_comm hne hkey x y
          | none => exact congrArg Json.obj (Fields.erase_set_of_ne hne.symm x fields)
      | none =>
          cases y with
          | some y => exact congrArg Json.obj (Fields.erase_set_of_ne hne y fields).symm
          | none => exact congrArg Json.obj (Fields.erase_comm _ _ fields)
  | arr items =>
      have hassign : ∀ (xs : List Json) (k : String) (v : JsValue),
          assignKey (.arr xs) k v = (Json.arr xs).replaceKey k (v.getD .null) := by
        intro xs k v
        cases v <;> rfl
      have hreplace : ∀ (xs : List Json) (k : String) (v : Json),
          ∃ ys, (Json.arr xs).replaceKey k v = .arr ys := by
        intro xs k v
        simp only [replaceKey]
        split <;> exact ⟨_, rfl⟩
      obtain ⟨xs, hxs⟩ := hreplace items key (x.getD .null)
      obtain ⟨ys, hys⟩ := hreplace items other (y.getD .null)
      rw [hassign, hassign items other, hxs, hys, hassign, hassign, ← hxs, ← hys]
      exact replaceKey_comm hne hkey _ _
  | _ => simp [child?] at hkey

theorem assignAt_cons (h : doc.child? key = some child) (hrest : rest ≠ []) (value : JsValue) :
    assignAt doc (key :: rest) value = doc.replaceKey key (assignAt child rest value) := by
  cases rest with
  | nil => exact absurd rfl hrest
  | cons next rest => simp [assignAt, h]

def assignedChild (child : Json) (rest : List String) (value : JsValue) : JsValue :=
  if rest = [] then value else some (assignAt child rest value)

theorem assignAt_cons_key (h : doc.child? key = some child) (rest : List String) (value : JsValue) :
    assignAt doc (key :: rest) value = assignKey doc key (assignedChild child rest value) := by
  cases rest with
  | nil => rfl
  | cons next rest =>
      rw [assignAt_cons h (by simp)]
      rfl

theorem assignAt_concat {parent : Json} {front : List String} (h : doc.at? front = some parent)
    (key : String) (value : JsValue) :
    assignAt doc (front ++ [key]) value = doc.replaceAt front (assignKey parent key value) := by
  induction front generalizing doc with
  | nil =>
      cases h
      rfl
  | cons head front ih =>
      obtain ⟨child, hchild, hrest⟩ := at?_cons h
      rw [List.cons_append, assignAt_cons hchild (by simp), ih hrest, replaceAt_cons hchild]

theorem assignAt_append (h : doc.at? path = some node) (hrest : rest ≠ []) (value : JsValue) :
    assignAt doc (path ++ rest) value = doc.replaceAt path (assignAt node rest value) := by
  induction path generalizing doc with
  | nil =>
      cases h
      rfl
  | cons key path ih =>
      obtain ⟨child, hchild, htail⟩ := at?_cons h
      rw [List.cons_append, assignAt_cons hchild (by simp [hrest]), ih htail,
        replaceAt_cons hchild]

theorem assignAt_some (hpath : path ≠ []) (h : doc.at? path = some node) (value : Json) :
    assignAt doc path (some value) = doc.replaceAt path value := by
  obtain ⟨front, key, parent, rfl, hfront, hchild⟩ := at?_parent hpath h
  rw [assignAt_concat hfront, replaceAt_append hfront, replaceAt_cons hchild]
  rfl

theorem assignAt_none_array {front : List String} {items : List Json}
    (h : doc.at? front = some (.arr items)) (hchild : (Json.arr items).child? key = some child) :
    assignAt doc (front ++ [key]) none = doc.replaceAt (front ++ [key]) .null := by
  rw [assignAt_concat h, replaceAt_append h, replaceAt_cons hchild]
  rfl

theorem apply_update_at (hpath : op.path ≠ []) (h : doc.at? op.path = some node)
    (htype : op.type = .update) : apply doc op = .ok (assignAt doc op.path op.value) := by
  obtain ⟨front, key, parent, hsplit, hfront, hchild⟩ := at?_parent hpath h
  simp only [apply, applyUpdate, htype, hsplit]
  rw [mutateProperty_concat, navigateToPath_of_at? hfront (truthy_of_child? hchild),
    writeKey_eq_assignKey hchild, assignAt_concat hfront]
  rfl

theorem at?_assignAt_of_apart {a : Json} {other : List String} (hapart : Apart path other)
    (h : doc.at? path = some a) (value : JsValue) :
    (assignAt doc path value).at? other = doc.at? other := by
  induction path generalizing doc other with
  | nil => rfl
  | cons key rest ih =>
      obtain ⟨child, hchild, hrest⟩ := at?_cons h
      cases other with
      | nil => exact absurd List.nil_prefix hapart.2
      | cons key' other =>
          rcases eq_or_ne key' key with rfl | hne
          · have hne : rest ≠ [] := by
              rintro rfl
              exact hapart.1 (List.cons_prefix_cons.mpr ⟨rfl, List.nil_prefix⟩)
            rw [assignAt_cons hchild hne, at?_cons_of_child? (child?_replaceKey_self hchild _),
              at?_cons_of_child? hchild]
            exact ih hapart.tail hrest
          · simp only [assignAt_cons_key hchild, at?, child?_assignKey_ne hne]

theorem assignAt_comm {a b : Json} {other : List String} (hapart : Apart path other)
    (hpath : doc.at? path = some a) (hother : doc.at? other = some b) (x y : JsValue) :
    assignAt (assignAt doc path x) other y = assignAt (assignAt doc other y) path x := by
  induction path generalizing doc other with
  | nil => exact absurd List.nil_prefix hapart.1
  | cons key path ih =>
      obtain ⟨child, hchild, hrest⟩ := at?_cons hpath
      cases other with
      | nil => exact absurd List.nil_prefix hapart.2
      | cons key' other =>
          obtain ⟨child', hchild', hrest'⟩ := at?_cons hother
          rcases eq_or_ne key' key with rfl | hne
          · cases hchild.symm.trans hchild'
            have hpathNe : path ≠ [] := by
              rintro rfl
              exact hapart.1 (List.cons_prefix_cons.mpr ⟨rfl, List.nil_prefix⟩)
            have hotherNe : other ≠ [] := by
              rintro rfl
              exact hapart.2 (List.cons_prefix_cons.mpr ⟨rfl, List.nil_prefix⟩)
            rw [assignAt_cons hchild hpathNe, assignAt_cons hchild hotherNe,
              assignAt_cons (child?_replaceKey_self hchild _) hotherNe,
              assignAt_cons (child?_replaceKey_self hchild _) hpathNe, replaceKey_replaceKey,
              replaceKey_replaceKey, ih hapart.tail hrest hrest']
          · rw [assignAt_cons_key hchild, assignAt_cons_key hchild',
              assignAt_cons_key ((child?_assignKey_ne hne doc _).trans hchild'),
              assignAt_cons_key ((child?_assignKey_ne hne.symm doc _).trans hchild)]
            exact assignKey_comm hne.symm hchild _ _

/-! ### Writes that change nothing -/

/-- Writing `value` at `path` below `doc` finds it there already. The second
disjunct is about a named property of an array, which is not part of the
document. -/
def AlreadyThere (value : JsValue) : Json → List String → Prop
  | _, [] => False
  | doc, [key] => doc.writeKey key value = .ok doc
  | doc, key :: next :: rest =>
      (∃ child, doc.child? key = some child ∧ AlreadyThere value child (next :: rest)) ∨
        (doc.isArray = true ∧ arrayIndex? key = none ∧ key ≠ "length")

theorem alreadyThere_cons (hrest : rest ≠ []) :
    AlreadyThere value doc (key :: rest) ↔
      (∃ child, doc.child? key = some child ∧ AlreadyThere value child rest) ∨
        (doc.isArray = true ∧ arrayIndex? key = none ∧ key ≠ "length") := by
  cases rest with
  | nil => exact absurd rfl hrest
  | cons next rest => exact Iff.rfl

def IsPrimitive : Json → Prop
  | .arr _ | .obj _ => False
  | _ => True

theorem truthy_of_not_primitive (h : ¬ IsPrimitive doc) : doc.truthy = true := by
  cases doc <;> simp_all [IsPrimitive, truthy]

theorem not_alreadyThere_of_primitive (h : IsPrimitive doc) (path : List String) :
    ¬ AlreadyThere value doc path := by
  match path with
  | [] => exact id
  | [key] => cases doc <;> simp_all [IsPrimitive, AlreadyThere, writeKey]
  | key :: next :: rest => cases doc <;> simp_all [IsPrimitive, AlreadyThere, child?, isArray]

/-- The two ways in which a navigation step succeeds: into a truthy value, or
into a fresh object that is then assigned. -/
theorem navigateToPath_cons_ok {result : Json}
    (h : navigateToPath act doc (key :: rest) = .ok result) :
    (∃ child inner, doc.readKey key = .ok (some child) ∧ child.truthy = true ∧
      navigateToPath act child rest = .ok inner ∧ result = doc.replaceKey key inner) ∨
    (∃ old inner, doc.readKey key = .ok old ∧ JsValue.truthy old = false ∧
      navigateToPath act (.obj []) rest = .ok inner ∧
      doc.writeKey key (some inner) = .ok result) := by
  simp only [navigateToPath, bind, Except.bind] at h
  cases hread : doc.readKey key with
  | error e => simp [hread] at h
  | ok old =>
      simp only [hread] at h
      cases old with
      | none =>
          cases hinner : navigateToPath act (.obj []) rest with
          | error e => simp [hinner] at h
          | ok inner =>
              simp only [hinner] at h
              exact Or.inr ⟨none, inner, rfl, rfl, rfl, h⟩
      | some child =>
          cases htruthy : child.truthy with
          | true =>
              cases hinner : navigateToPath act child rest with
              | error e => simp [htruthy, hinner] at h
              | ok inner =>
                  simp only [htruthy, hinner, if_true] at h
                  cases h
                  exact Or.inl ⟨child, inner, rfl, htruthy, hinner, rfl⟩
          | false =>
              cases hinner : navigateToPath act (.obj []) rest with
              | error e => simp [htruthy, hinner] at h
              | ok inner =>
                  simp only [htruthy, hinner, Bool.false_eq_true, if_false] at h
                  exact Or.inr ⟨some child, inner, rfl, htruthy, rfl, h⟩

section Write

variable {value : JsValue} {last : String}

theorem navigateToPath_primitive {doc : Json} (h : IsPrimitive doc) (front : List String)
    (result : Json) :
    navigateToPath (fun parent => parent.writeKey last value) doc front ≠ .ok result := by
  induction front generalizing doc result with
  | nil => cases doc <;> simp_all [IsPrimitive, navigateToPath, writeKey]
  | cons key front ih =>
      intro hok
      rcases navigateToPath_cons_ok hok with ⟨child, inner, hread, _, hinner, _⟩ |
        ⟨_, inner, _, _, _, hwrite⟩
      · have hchild : IsPrimitive child := by
          cases doc with
          | str s =>
              simp only [readKey] at hread
              split at hread
              · obtain ⟨c, _, rfl⟩ := Option.map_eq_some_iff.mp (Except.ok.inj hread)
                trivial
              · split_ifs at hread
                · cases hread
                  trivial
                · cases hread
          | _ => simp_all [IsPrimitive, readKey]
        exact ih hchild inner hinner
      · cases doc <;> simp_all [IsPrimitive, writeKey]

/-- A write below an object or an array leaves an object or an array. -/
theorem navigateToPath_container {doc result : Json} (h : ¬ IsPrimitive doc)
    {front : List String}
    (hok : navigateToPath (fun parent => parent.writeKey last value) doc front = .ok result) :
    ¬ IsPrimitive result := by
  have hwritten : ∀ {key : String} {v : JsValue}, doc.writeKey key v = .ok result →
      ¬ IsPrimitive result := by
    intro key v hwrite
    cases doc with
    | arr items =>
        simp only [writeKey] at hwrite
        split at hwrite
        · cases hwrite
          exact id
        · split_ifs at hwrite
          · split at hwrite
            · cases hwrite
              exact id
            · cases hwrite
          · cases hwrite
            exact id
    | obj fields => cases v <;> cases hwrite <;> exact id
    | _ => exact absurd trivial h
  cases front with
  | nil => exact hwritten hok
  | cons key front =>
      rcases navigateToPath_cons_ok hok with ⟨_, inner, _, _, _, rfl⟩ |
        ⟨_, inner, _, _, _, hwrite⟩
      · cases doc with
        | arr items =>
            simp only [replaceKey]
            split <;> exact id
        | obj fields => exact id
        | _ => exact absurd trivial h
      · exact hwritten hwrite

theorem navigateToPath_empty (front : List String) :
    ∃ result, navigateToPath (fun parent => parent.writeKey last value) (.obj []) front =
      .ok result := by
  induction front with
  | nil => cases value <;> exact ⟨_, rfl⟩
  | cons key front ih =>
      obtain ⟨inner, hinner⟩ := ih
      simp only [navigateToPath, readKey, List.lookup_nil, bind, Except.bind, hinner]
      exact ⟨_, rfl⟩

/-- Assigning an object leaves a document as it is only when the object is
there already, or when it becomes a named property of an array. -/
theorem writeKey_eq_self {doc inner : Json} {key : String} (hinner : ¬ IsPrimitive inner)
    (h : doc.writeKey key (some inner) = .ok doc) :
    doc.child? key = some inner ∨
      (doc.isArray = true ∧ arrayIndex? key = none ∧ key ≠ "length") := by
  cases doc with
  | arr items =>
      simp only [writeKey] at h
      cases hi : arrayIndex? key with
      | some i =>
          simp only [hi, Option.getD_some, writeIndex] at h
          left
          split_ifs at h with hlt
          · have hset := Json.arr.inj (Except.ok.inj h)
            have hget := congrArg (·[i]?) hset
            simp only [List.getElem?_set_self hlt] at hget
            simp only [child?, hi, Option.bind_some, ← hget]
          · have hlength := congrArg List.length (Json.arr.inj (Except.ok.inj h))
            simp only [List.length_append, List.length_replicate, List.length_singleton]
              at hlength
            omega
      | none =>
          right
          refine ⟨rfl, rfl, ?_⟩
          rintro rfl
          cases inner <;> simp_all [IsPrimitive, arrayLength?]
  | obj fields =>
      left
      have hset := Json.obj.inj (Except.ok.inj h)
      rw [child?, ← hset]
      exact Fields.lookup_set_self key inner fields
  | _ => simp [writeKey] at h

theorem writeBelow_primitive {doc : Json} (h : IsPrimitive doc) (front : List String) :
    writeBelow value doc (front ++ [last]) ≠ .ok doc := by
  rw [writeBelow_concat]
  cases htruthy : doc.truthy with
  | true =>
      rw [entered_of_truthy htruthy]
      exact navigateToPath_primitive h front doc
  | false =>
      rw [entered, if_neg (by simp [htruthy])]
      intro hok
      exact navigateToPath_container id hok h

/-- Writing below a value leaves it as it is exactly when the value written is
there already. The induction follows the keys of the path. -/
theorem writeBelow_eq_self_iff (doc : Json) (front : List String) :
    writeBelow value doc (front ++ [last]) = .ok doc ↔
      AlreadyThere value doc (front ++ [last]) := by
  induction front generalizing doc with
  | nil =>
      by_cases hdoc : IsPrimitive doc
      · exact iff_of_false (writeBelow_primitive hdoc []) (not_alreadyThere_of_primitive hdoc _)
      · rw [writeBelow_concat, entered_of_truthy (truthy_of_not_primitive hdoc)]
        exact Iff.rfl
  | cons key front ih =>
      by_cases hdoc : IsPrimitive doc
      · exact iff_of_false (writeBelow_primitive hdoc _) (not_alreadyThere_of_primitive hdoc _)
      rw [writeBelow_concat, entered_of_truthy (truthy_of_not_primitive hdoc), List.cons_append,
        alreadyThere_cons (by simp)]
      constructor
      · intro hok
        rcases navigateToPath_cons_ok hok with ⟨child, inner, hread, htruthy, hinner, heq⟩ |
          ⟨old, inner, hread, hfalsy, hinner, hwrite⟩
        · -- the child that is entered must come out as it was
          have hchild : doc.child? key = some child := by
            cases doc with
            | arr items =>
                simp only [readKey] at hread
                cases hi : arrayIndex? key with
                | some i => simpa [child?, hi] using hread
                | none =>
                    simp only [hi] at hread
                    split_ifs at hread with hlength
                    · cases hread
                      exact absurd hinner
                        (navigateToPath_primitive (by exact trivial) front inner)
                    · cases hread
            | obj fields => simpa [child?, readKey] using hread
            | _ => exact absurd trivial hdoc
          have hself := child?_replaceKey_self hchild inner
          rw [← heq, hchild] at hself
          cases hself
          refine Or.inl ⟨child, hchild, (ih child).mp ?_⟩
          rw [writeBelow_concat, entered_of_truthy htruthy]
          exact hinner
        · -- a fresh object can only vanish among the named properties of an array
          have hcontainer : ¬ IsPrimitive inner := navigateToPath_container id hinner
          rcases writeKey_eq_self hcontainer hwrite with hchild | hnamed
          · have hold := hread.symm.trans (readKey_of_child? hchild)
            cases hold
            rw [JsValue.truthy, truthy_of_not_primitive hcontainer] at hfalsy
            cases hfalsy
          · exact Or.inr hnamed
      · rintro (⟨child, hchild, hthere⟩ | ⟨harray, hindex, hlength⟩)
        · have hrest := (ih child).mpr hthere
          rw [writeBelow_concat] at hrest
          rw [navigateToPath_cons_of_child? hchild, hrest]
          exact congrArg Except.ok (replaceKey_child hchild)
        · obtain ⟨inner, hinner⟩ := @navigateToPath_empty value last front
          cases doc with
          | arr items =>
              simp only [navigateToPath, readKey, hindex, hlength, if_false, bind, Except.bind,
                hinner]
              simp only [writeKey, hindex, hlength, if_false]
          | _ => cases harray

end Write

/-! ### Writes inside an element of an array -/

/-- What an update with the remaining `keys` makes of the element it reaches. -/
def writeElement (value : JsValue) (element : Json) (keys : List String) : Js Json :=
  if keys = [] then .ok (value.getD .null) else writeBelow value element keys

/-- The element holds at `keys` what the update writes. -/
def ElementHolds (value : JsValue) (element : Json) (keys : List String) : Prop :=
  if keys = [] then element = value.getD .null else AlreadyThere value element keys

theorem writeElement_eq_self_iff {element : Json} {keys : List String} :
    writeElement value element keys = .ok element ↔ ElementHolds value element keys := by
  unfold writeElement ElementHolds
  split_ifs with hkeys
  · constructor
    · intro h
      exact (Except.ok.inj h).symm
    · intro h
      rw [← h]
  · rw [← List.dropLast_append_getLast hkeys]
    exact writeBelow_eq_self_iff element _

theorem writeElement_existing {element stored : Json} {keys : List String}
    (h : element.at? keys = some stored) :
    ∃ written, writeElement value element keys = .ok written := by
  unfold writeElement
  split_ifs with hkeys
  · exact ⟨_, rfl⟩
  · obtain ⟨front, key, parent, rfl, hfront, hchild⟩ := at?_parent hkeys h
    have htruthy : element.truthy = true := by
      cases front with
      | nil =>
          cases hfront
          exact truthy_of_child? hchild
      | cons head front =>
          obtain ⟨child, hhead, _⟩ := at?_cons hfront
          exact truthy_of_child? hhead
    rw [writeBelow_concat, entered_of_truthy htruthy,
      navigateToPath_of_at? hfront (truthy_of_child? hchild), writeKey_eq_assignKey hchild]
    exact ⟨_, rfl⟩

end Qontinui.OperationalTransform
