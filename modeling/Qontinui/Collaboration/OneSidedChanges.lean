import Qontinui.Collaboration.StructuralConflicts

/-!
Where the merge writes. A resolution replaces the value at its path when the merged
version has one there, and a change that no conflict is near replaces a whole top-level
value.

What a merge that reports success keeps of a change that one side alone has made. Under
a key at which two numbers were merged nothing but those numbers changes; under any
other key the whole value is that of the remote where the remote has changed it, else
that of the local version. A key that a side has deleted stays.
-/

namespace Qontinui.ConflictDetector

section Writes

open Json

variable {keys : List String} {key : String} {target : Json} {lastKey : String}

theorem truthy_of_at? {doc : Json} (h : doc.at? (keys ++ [lastKey]) = some target) :
    doc.truthy = true := by
  cases keys with
  | nil | cons =>
      obtain ⟨child, hchild, _⟩ := at?_cons h
      exact truthy_of_child? hchild

theorem setBelow_eq_replaceAt {current : Json} (h : current.at? (keys ++ [lastKey]) = some target)
    (value : Json) :
    setBelow current lastKey (some value) keys =
      .ok (current.replaceAt (keys ++ [lastKey]) value) := by
  induction keys generalizing current with
  | nil =>
      obtain ⟨child, hchild, _⟩ := at?_cons h
      rw [List.nil_append, replaceAt_cons hchild]
      exact writeKey_of_child? hchild value
  | cons key keys ih =>
      obtain ⟨child, hchild, hrest⟩ := at?_cons h
      rw [List.cons_append, replaceAt_cons hchild, setBelow, readKey_of_child? hchild]
      change (if child.truthy = true then _ else _) = _
      rw [if_pos (truthy_of_at? hrest), ih hrest]
      rfl

theorem property_replaceKey_ne {other : String} (hne : other ≠ key) (doc value : Json) :
    (doc.replaceKey key value).property other = doc.property other := by
  cases doc with
  | obj fields => exact Fields.lookup_set_ne hne value fields
  | arr items =>
      cases hi : arrayIndex? key with
      | none => simp [replaceKey, hi]
      | some i =>
          cases hj : arrayIndex? other with
          | none => simp [property, readKey, replaceKey, hi, hj]
          | some j =>
              have hij : i ≠ j := by
                rintro rfl
                exact hne ((toString_of_arrayIndex? hj).symm.trans (toString_of_arrayIndex? hi))
              simp [property, readKey, replaceKey, hi, hj, List.getElem?_set_ne hij]
  | _ => rfl

theorem applyResolution_below {merge : Merge} {path : List String} {value : JsValue}
    {child written : Json} (hlast : path.getLast? = some lastKey)
    (hkeys : path.dropLast.filter (fun key => key ≠ "") = key :: keys)
    (hchild : merge.merged.lookup key = some child) (htruthy : child.truthy = true)
    (hwritten : setBelow child lastKey value keys = .ok written) :
    applyResolution merge path value =
      .ok { merge with
        merged := Fields.set key written merge.merged
        base := if key ∈ merge.owned then merge.base else merge.base.replaceKey key written } := by
  simp only [applyResolution, hlast, hkeys, hchild, JsValue.truthy, htruthy, if_true,
    Option.getD_some, hwritten]
  rfl

theorem applyResolution_eq {merge : Merge} {path : List String}
    (hkeys : "" ∉ (key :: path).dropLast)
    (h : (Json.obj merge.merged).at? (key :: path) = some target) (value : Json) :
    ∃ written, applyResolution merge (key :: path) (some value) = .ok written ∧
      Json.obj written.merged = (Json.obj merge.merged).replaceAt (key :: path) value ∧
      ∀ other, other ≠ key → written.base.property other = merge.base.property other := by
  obtain ⟨child, hchild, hrest⟩ := at?_cons h
  rcases List.eq_nil_or_concat path with rfl | ⟨keys, lastKey, rfl⟩
  · refine ⟨_, rfl, ?_, fun _ _ => rfl⟩
    rw [replaceAt_cons hchild]
    rfl
  · rw [List.concat_eq_append, ← List.cons_append] at hkeys ⊢
    rw [List.concat_eq_append] at hrest
    have hfilter : (key :: keys).filter (fun key => key ≠ "") = key :: keys := by
      refine List.filter_eq_self.mpr fun other hother => ?_
      rw [List.dropLast_concat] at hkeys
      simpa using fun heq : other = "" => hkeys (heq ▸ hother)
    refine ⟨_, applyResolution_below List.getLast?_concat
      (by rw [List.dropLast_concat, hfilter]) hchild (truthy_of_at? hrest)
      (setBelow_eq_replaceAt hrest value), ?_, ?_⟩
    · rw [List.cons_append, replaceAt_cons hchild]
      rfl
    · intro other hne
      dsimp only
      split_ifs
      · rfl
      · exact property_replaceKey_ne hne _ _

theorem lookup_setProperty_self (fields : List (String × Json)) (key : String) (value : JsValue) :
    (setProperty fields key value).lookup key = value := by
  cases value with
  | none => exact Fields.lookup_erase_self key fields
  | some value => exact Fields.lookup_set_self key value fields

theorem lookup_setProperty_ne {other : String} (hne : other ≠ key) (fields : List (String × Json))
    (value : JsValue) : (setProperty fields key value).lookup other = fields.lookup other := by
  cases value with
  | none => exact Fields.lookup_erase_ne hne fields
  | some value => exact Fields.lookup_set_ne hne value fields

/-- The step of `applyNonConflictingChanges` at one key. -/
def applyChange (source base : Json) (conflicts : List Conflict)
    (target : List (String × Json)) (key : String) : List (String × Json) :=
  if hasConflict conflicts key then target
  else if source.property key ≠ base.property key then setProperty target key (source.property key)
  else target

/-- A change is taken over where no conflict is near and the texts differ. -/
def TakenOver (source base : Json) (conflicts : List Conflict) (key : String) : Prop :=
  hasConflict conflicts key = false ∧ source.property key ≠ base.property key

instance (source base : Json) (conflicts : List Conflict) (key : String) :
    Decidable (TakenOver source base conflicts key) :=
  inferInstanceAs (Decidable (_ ∧ _))

theorem lookup_applyChange (source base : Json) (conflicts : List Conflict)
    (target : List (String × Json)) (key other : String) :
    (applyChange source base conflicts target key).lookup other =
      if other = key ∧ TakenOver source base conflicts other then source.property other
      else target.lookup other := by
  unfold applyChange TakenOver
  by_cases hother : other = key
  · subst hother
    split_ifs <;> simp_all [lookup_setProperty_self]
  · split_ifs <;> simp_all [lookup_setProperty_ne]

theorem lookup_foldl_applyChange (source base : Json) (conflicts : List Conflict)
    (keys : List String) (target : List (String × Json)) (key : String) :
    (keys.foldl (applyChange source base conflicts) target).lookup key =
      if key ∈ keys ∧ TakenOver source base conflicts key then source.property key
      else target.lookup key := by
  induction keys generalizing target with
  | nil => simp
  | cons head keys ih =>
      rw [List.foldl_cons, ih, lookup_applyChange]
      by_cases hhead : key = head
      · subst hhead
        by_cases htaken : TakenOver source base conflicts key <;> simp [htaken]
      · simp [hhead]

theorem lookup_applyNonConflictingChanges (target fields : List (String × Json)) (base : Json)
    (conflicts : List Conflict) (key : String) :
    (applyNonConflictingChanges target (.obj fields) base conflicts).lookup key =
      if fields.lookup key ≠ none ∧ TakenOver (.obj fields) base conflicts key
      then fields.lookup key else target.lookup key := by
  have hfold := lookup_foldl_applyChange (.obj fields) base conflicts (Json.obj fields).keys
    target key
  simp only [mem_keys_obj, property_obj] at hfold
  exact hfold

end Writes

open Json FallibleLoops

/-- One version differs from the base at a path, and the other does not. -/
def OneSided (version other base : Json) (path : List String) : Prop :=
  ¬ Same (version.at? path) (base.at? path) ∧ Same (other.at? path) (base.at? path)

/-- Three different numbers meet at a path. -/
def Collision (localVersion remote base : Json) (path : List String) : Prop :=
  ∃ x y z, localVersion.at? path = some (.num x) ∧ remote.at? path = some (.num y) ∧
    base.at? path = some (.num z) ∧ x ≠ z ∧ y ≠ z ∧ x ≠ y

/-- The merged version has every one-sided change of a property. -/
def KeepsOneSided (localVersion remote base merged : Json) : Prop :=
  ∀ key path,
    (OneSided localVersion remote base (key :: path) →
      Same (merged.at? (key :: path)) (localVersion.at? (key :: path))) ∧
    (OneSided remote localVersion base (key :: path) →
      Same (merged.at? (key :: path)) (remote.at? (key :: path)))

/-- No number that both sides have changed comes with a one-sided change under its
top-level key, a one-sided change deletes no top-level key, and the remote has the text
of the base for a top-level key under which the local version alone has changed. -/
structure MergeKeeps (localVersion remote base : Json) : Prop where
  alone : ∀ key, (∃ path, Collision localVersion remote base (key :: path)) →
    ∀ path, ¬ OneSided localVersion remote base (key :: path) ∧
      ¬ OneSided remote localVersion base (key :: path)
  fromLocal : ∀ key path, OneSided localVersion remote base (key :: path) →
    localVersion.property key ≠ none ∧ remote.property key = base.property key
  fromRemote : ∀ key path, OneSided remote localVersion base (key :: path) →
    remote.property key ≠ none

section Collisions

variable {localVersion remote base : Json}

theorem Collision.symm {path : List String} (h : Collision localVersion remote base path) :
    Collision remote localVersion base path := by
  obtain ⟨x, y, z, hx, hy, hz, hxz, hyz, hxy⟩ := h
  exact ⟨y, x, z, hy, hx, hz, hyz, hxz, hxy.symm⟩

variable {path : List String}

theorem at?_below_num {doc : Json} {rest : List String} {x : Rat} (h : doc.at? path = some (.num x))
    (hrest : rest ≠ []) : doc.at? (path ++ rest) = none := by
  rw [at?_append, h]
  cases rest with
  | nil => exact absurd rfl hrest
  | cons key rest => rfl

theorem not_same_num {x y : Rat} (h : x ≠ y) : ¬ Same (some (.num x)) (some (.num y)) := by
  intro hsame
  exact h (by simpa [Json.shape] using hsame.shape)

theorem Collision.apart {other : List String} (h : Collision localVersion remote base path)
    (hother : Collision localVersion remote base other) (hne : path ≠ other) :
    Apart path other := by
  obtain ⟨x, _, _, hx, -⟩ := h
  obtain ⟨x', _, _, hx', -⟩ := hother
  constructor
  · rintro ⟨rest, rfl⟩
    rw [at?_below_num hx (by rintro rfl; simp at hne)] at hx'
    cases hx'
  · rintro ⟨rest, rfl⟩
    rw [at?_below_num hx' (by rintro rfl; simp at hne)] at hx
    cases hx

theorem OneSided.apart {other : List String} (h : OneSided localVersion remote base path)
    (hother : Collision localVersion remote base other) : Apart other path := by
  obtain ⟨x, y, z, hx, hy, hz, hxz, hyz, hxy⟩ := hother
  constructor
  · rintro ⟨rest, rfl⟩
    by_cases hrest : rest = []
    · subst hrest
      rw [List.append_nil] at h
      exact not_same_num hyz (hy ▸ hz ▸ h.2)
    · apply h.1
      rw [at?_below_num hx hrest, at?_below_num hz hrest]
      exact Same.refl none
  · rintro ⟨rest, rfl⟩
    have hsame := h.2.under rest
    rw [under, under, ← at?_append, ← at?_append, hy, hz] at hsame
    exact not_same_num hyz hsame

end Collisions

def NumberConflict (localVersion remote base : Json) (conflict : Conflict) : Prop :=
  ∃ key path, conflictKeys conflict = key :: path ∧
    conflict.path.head? = some (some (.str key)) ∧
    Collision localVersion remote base (key :: path) ∧ conflict.autoResolvable = true ∧
    ∃ merged, resolveConflict conflict .merge = .ok (some (.num merged))

/-- The merge under way differs from the base at the numbers that collide only. -/
structure Resolved (localVersion remote base : Json) (merge : Merge) : Prop where
  numbers : ∀ path, Collision localVersion remote base path →
    ∃ n, (Json.obj merge.merged).at? path = some (.num n)
  kept : ∀ path, (∀ other, Collision localVersion remote base other → Apart other path) →
    (Json.obj merge.merged).at? path = base.at? path
  base : ∀ key, (∀ path, ¬ Collision localVersion remote base (key :: path)) →
    merge.base.property key = base.property key

theorem resolved_copied (localVersion remote : Json) (base : List (String × Json)) :
    Resolved localVersion remote (.obj base) { merged := base, base := .obj base } where
  numbers := by
    rintro path ⟨_, _, z, _, _, hz, -⟩
    exact ⟨z, hz⟩
  kept := fun _ _ => rfl
  base := fun _ _ => rfl

section Resolutions

variable {localVersion remote base : Json}

theorem Resolved.autoResolve {state : Merge × List Resolution} {conflict : Conflict}
    (h : Resolved localVersion remote base state.1)
    (hkeys : ∀ path, Collision localVersion remote base path → "" ∉ path.dropLast)
    (hconflict : NumberConflict localVersion remote base conflict) :
    Resolved localVersion remote base (autoResolve state conflict).1 := by
  obtain ⟨key, path, hpath, _, hcollision, hauto, merged, hmerged⟩ := hconflict
  obtain ⟨n, hn⟩ := h.numbers _ hcollision
  obtain ⟨written, happly, hreplaced, hbase⟩ :=
    applyResolution_eq (hkeys _ hcollision) hn (.num merged)
  have hstep : (ConflictDetector.autoResolve state conflict).1 = written := by
    simp [ConflictDetector.autoResolve, hauto, hmerged, hpath, happly, bind, Except.bind, pure,
      Except.pure]
  rw [hstep]
  constructor
  · intro other hother
    rw [hreplaced]
    by_cases heq : key :: path = other
    · subst heq
      exact ⟨merged, at?_replaceAt_self hn _⟩
    · rw [at?_replaceAt_of_apart (hcollision.apart hother heq) hn]
      exact h.numbers other hother
  · intro other hother
    rw [hreplaced, at?_replaceAt_of_apart (hother _ hcollision) hn]
    exact h.kept other hother
  · intro other hother
    rw [hbase other (by rintro rfl; exact hother path hcollision)]
    exact h.base other hother

theorem Resolved.foldl {conflicts : List Conflict} {state : Merge × List Resolution}
    (h : Resolved localVersion remote base state.1)
    (hkeys : ∀ path, Collision localVersion remote base path → "" ∉ path.dropLast)
    (hconflicts : ∀ conflict ∈ conflicts, NumberConflict localVersion remote base conflict) :
    Resolved localVersion remote base (conflicts.foldl ConflictDetector.autoResolve state).1 := by
  induction conflicts generalizing state with
  | nil => exact h
  | cons conflict conflicts ih =>
      have hhead := hconflicts conflict List.mem_cons_self
      exact ih (h.autoResolve hkeys hhead) fun other hother =>
        hconflicts other (List.mem_cons_of_mem _ hother)

end Resolutions

section Detection

variable {localVersion remote base : JsValue} {path : List String}

theorem strictEquals_of_under {value other : JsValue} {key : String} {target : Json}
    (h : under value (key :: path) = some target) : strictEquals value other = false := by
  cases value with
  | none => cases h
  | some value =>
      obtain ⟨child, hchild, _⟩ := at?_cons h
      cases value <;> first | rfl | cases hchild

theorem truthy_of_under {value : JsValue} {key : String} {target : Json}
    (h : under value (key :: path) = some target) : JsValue.truthy value = true := by
  cases value with
  | none => cases h
  | some value =>
      obtain ⟨child, hchild, _⟩ := at?_cons h
      exact truthy_of_child? hchild

theorem isAutoResolvable_values
    (h : isAutoResolvable .propertyChanged localVersion remote base = true) :
    ∃ x y z, localVersion = some (.num x) ∧ remote = some (.num y) ∧ base = some (.num z) := by
  simp only [isAutoResolvable] at h
  split at h
  · next x y z => exact ⟨x, y, z, rfl, rfl, rfl⟩
  · cases h

theorem numbers_of_auto {keyed : List String} {conflict : Conflict}
    (h : conflict ∈ valueConflicts localVersion remote base keyed)
    (hauto : conflict.autoResolvable = true) :
    ∃ x y z, localVersion = some (.num x) ∧ remote = some (.num y) ∧ base = some (.num z) ∧
      x ≠ z ∧ y ≠ z ∧ x ≠ y ∧
      conflict = createConflict .propertyChanged (some (.num x)) (some (.num y)) (some (.num z))
        (keyPath keyed) := by
  rcases List.mem_append.mp h with hmem | hmem <;> split at hmem <;> simp at hmem
  · next hdiffer =>
      subst hmem
      obtain ⟨x, y, z, rfl, rfl, rfl⟩ := isAutoResolvable_values hauto
      have hdistinct : (x ≠ z ∧ y ≠ z) ∧ x ≠ y := by
        simpa [allDiffer, strictEquals] using (Bool.and_eq_true_iff.mp hdiffer).1
      exact ⟨x, y, z, rfl, rfl, rfl, hdistinct.1.1, hdistinct.1.2, hdistinct.2, rfl⟩
  · subst hmem
    cases hauto

/-- Where nothing but numbers is in conflict, objects lead to every collision. -/
theorem searched_of_collision {keyed : List String} {x y z : Rat}
    (hauto : ∀ path, Searched localVersion remote base path → ∀ conflict ∈
      valueConflicts (under localVersion path) (under remote path) (under base path)
        (keyed ++ path), conflict.autoResolvable = true)
    (hx : under localVersion path = some (.num x)) (hy : under remote path = some (.num y))
    (hz : under base path = some (.num z)) : Searched localVersion remote base path := by
  induction path generalizing localVersion remote base keyed with
  | nil => trivial
  | cons key path ih =>
      have hobjects : AllObjects localVersion remote base := by
        by_contra hobjects
        have hrecords : allRecords localVersion remote base = false := by
          by_contra hrecords
          simp only [allRecords, Bool.not_eq_false, Bool.and_eq_true] at hrecords
          obtain ⟨l, hl⟩ := exists_obj_of_isRecord hrecords.1.1 (truthy_of_under hx)
          obtain ⟨r, hr⟩ := exists_obj_of_isRecord hrecords.1.2 (truthy_of_under hy)
          obtain ⟨b, hb⟩ := exists_obj_of_isRecord hrecords.2 (truthy_of_under hz)
          exact hobjects ⟨l, r, b, hl, hr, hb⟩
        have hdiffer : allDiffer localVersion remote base = true := by
          simp [allDiffer, strictEquals_of_under hx, strictEquals_of_under hy]
        have hmem : createConflict .propertyChanged localVersion remote base (keyPath keyed) ∈
            valueConflicts localVersion remote base keyed := by
          simp [valueConflicts, hdiffer, hrecords]
        have hnumbers := hauto [] trivial _ (by simpa using hmem)
        obtain ⟨_, _, _, rfl, -⟩ := numbers_of_auto hmem hnumbers
        cases hx
      obtain ⟨l, r, b, rfl, rfl, rfl⟩ := hobjects
      have hbelow : ∀ rest, Searched (l.lookup key) (r.lookup key) (b.lookup key) rest →
          ∀ conflict ∈ valueConflicts (under (l.lookup key) rest) (under (r.lookup key) rest)
            (under (b.lookup key) rest) (keyed ++ [key] ++ rest),
            conflict.autoResolvable = true := by
        intro rest hrest conflict hconflict
        exact hauto (key :: rest) hrest conflict (by simpa [under_obj] using hconflict)
      exact ih hbelow hx hy hz

end Detection

section Success

variable {localVersion remote base : List (String × Json)} {conflicts : List Conflict}

section

variable (hdetect : detectConflicts {} (.obj localVersion) (.obj remote) (.obj base) = .ok conflicts)
include hdetect

theorem numberConflict_of_auto (hauto : ∀ conflict ∈ conflicts, conflict.autoResolvable = true)
    {conflict : Conflict} (h : conflict ∈ conflicts) :
    NumberConflict (.obj localVersion) (.obj remote) (.obj base) conflict := by
  obtain ⟨structural, hstructural, rfl⟩ := detectConflicts_default.mp hdetect
  rcases List.mem_append.mp h with hproperty | hmem
  · rw [detect_root] at hproperty
    obtain ⟨path, hsearched, hpath⟩ := exists_of_mem_keyConflicts hproperty
    obtain ⟨x, y, z, hx, hy, hz, hxz, hyz, hxy, rfl⟩ := numbers_of_auto hpath (hauto _ h)
    cases path with
    | nil => cases hx
    | cons key path =>
        exact ⟨key, path, by simp [conflictKeys, createConflict, keyPath],
          by simp [createConflict, keyPath], ⟨x, y, z, hx, hy, hz, hxz, hyz, hxy⟩, rfl,
          _, rfl⟩
  · have hfalse := (mem_detectStructuralConflicts hstructural hmem).1
    rw [hauto _ h] at hfalse
    cases hfalse

theorem hasConflict_of_collision (hauto : ∀ conflict ∈ conflicts, conflict.autoResolvable = true)
    {key : String} {path : List String}
    (h : Collision (.obj localVersion) (.obj remote) (.obj base) (key :: path)) :
    hasConflict conflicts key = true := by
  obtain ⟨structural, hstructural, rfl⟩ := detectConflicts_default.mp hdetect
  obtain ⟨x, y, z, hx, hy, hz, hxz, hyz, hxy⟩ := h
  rw [← under_some] at hx hy hz
  have hfound : ∀ rest, Searched (some (.obj localVersion)) (some (.obj remote))
      (some (.obj base)) rest → ∀ conflict ∈ valueConflicts (under (some (.obj localVersion)) rest)
        (under (some (.obj remote)) rest) (under (some (.obj base)) rest) ([] ++ rest),
      conflict ∈ detectPropertyConflicts (some (.obj localVersion)) (some (.obj remote))
        (some (.obj base)) [] := by
    intro rest hsearched conflict hconflict
    rw [detect_root]
    exact mem_keyConflicts hsearched hconflict
  have hsearched := searched_of_collision (fun rest hrest conflict hconflict =>
    hauto conflict (List.mem_append_left _ (hfound rest hrest conflict hconflict))) hx hy hz
  have hmem : createConflict .propertyChanged (some (.num x)) (some (.num y)) (some (.num z))
      (keyPath (key :: path)) ∈ valueConflicts (some (.num x)) (some (.num y)) (some (.num z))
        ([] ++ key :: path) := by
    simp [valueConflicts, allDiffer, strictEquals, allRecords, isRecord, hxz, hyz, hxy]
  have hreported := hfound _ hsearched _ (by rw [← hx, ← hy, ← hz] at hmem; exact hmem)
  exact List.any_eq_true.mpr ⟨_, List.mem_append_left _ hreported, by
    simp [createConflict, keyPath]⟩

theorem not_removed_of_auto (hauto : ∀ conflict ∈ conflicts, conflict.autoResolvable = true)
    (key : String) :
    removedOrChanged (localVersion.lookup key) (remote.lookup key) (base.lookup key) = false := by
  obtain ⟨structural, hstructural, rfl⟩ := detectConflicts_default.mp hdetect
  by_contra hremoved
  have hsearched : Searched (some (.obj localVersion)) (some (.obj remote)) (some (.obj base))
      [key] := trivial
  have hmem : createConflict .actionRemoved (localVersion.lookup key) (remote.lookup key)
      (base.lookup key) (keyPath [key]) ∈ valueConflicts (localVersion.lookup key)
        (remote.lookup key) (base.lookup key) ([] ++ [key]) := by
    simp [valueConflicts, Bool.not_eq_false _ ▸ hremoved]
  have hreported := mem_keyConflicts hsearched (by simpa only [under_obj, under_nil] using hmem)
  rw [← detect_root] at hreported
  cases hauto _ (List.mem_append_left _ hreported)

end

/-- The value of a top-level key without collisions: that of the remote where it has
another text than the base, else that of the local version where it has. -/
def chosen (localValue remoteValue baseValue : JsValue) : JsValue :=
  if remoteValue ≠ none ∧ remoteValue ≠ baseValue then remoteValue
  else if localValue ≠ none ∧ localValue ≠ baseValue then localValue
  else baseValue

/-- What a merge without unresolved conflicts makes of the top-level keys. -/
structure MergedValues (localVersion remote base merged : List (String × Json)) : Prop where
  removed : ∀ key,
    removedOrChanged (localVersion.lookup key) (remote.lookup key) (base.lookup key) = false
  collided : ∀ key path,
    (∃ rest, Collision (.obj localVersion) (.obj remote) (.obj base) (key :: rest)) →
    (∀ other, Collision (.obj localVersion) (.obj remote) (.obj base) other →
      Apart other (key :: path)) →
    (Json.obj merged).at? (key :: path) = (Json.obj base).at? (key :: path)
  whole : ∀ key,
    (∀ rest, ¬ Collision (.obj localVersion) (.obj remote) (.obj base) (key :: rest)) →
    merged.lookup key =
      chosen (localVersion.lookup key) (remote.lookup key) (base.lookup key)

theorem apart_of_head_ne {key other : String} (h : key ≠ other) (path rest : List String) :
    Apart (key :: path) (other :: rest) :=
  ⟨fun hp => h (List.cons_prefix_cons.mp hp).1, fun hp => h (List.cons_prefix_cons.mp hp).1.symm⟩

theorem at?_key (fields : List (String × Json)) (key : String) (path : List String) :
    (Json.obj fields).at? (key :: path) = under (fields.lookup key) path := rfl

/-- The passes over both sides, where every conflict is one of numbers. -/
theorem Resolved.mergedValues {merge : Merge}
    (h : Resolved (.obj localVersion) (.obj remote) (.obj base) merge)
    (hremoved : ∀ key, removedOrChanged (localVersion.lookup key) (remote.lookup key)
      (base.lookup key) = false)
    (hconflict : ∀ key, hasConflict conflicts key = true ↔
      ∃ rest, Collision (.obj localVersion) (.obj remote) (.obj base) (key :: rest)) :
    MergedValues localVersion remote base
      (applyNonConflictingChanges
        (applyNonConflictingChanges merge.merged (.obj localVersion) merge.base conflicts)
        (.obj remote) merge.base conflicts) where
  removed := hremoved
  collided := by
    intro key path hcollision hapart
    have hnear := (hconflict key).mpr hcollision
    have hkept := h.kept (key :: path) hapart
    rw [at?_key] at hkept ⊢
    simp only [lookup_applyNonConflictingChanges, TakenOver, hnear, Bool.true_eq_false, false_and,
      and_false, if_false]
    exact hkept
  whole := by
    intro key hcollision
    have hnear : hasConflict conflicts key = false := by
      by_contra hnear
      obtain ⟨rest, hrest⟩ := (hconflict key).mp (by simpa using hnear)
      exact hcollision rest hrest
    have hbase : merge.base.property key = base.lookup key := h.base key hcollision
    have hmerged : merge.merged.lookup key = base.lookup key := by
      have hkept := h.kept [key] ?_
      · simpa [at?_key] using hkept
      · intro other hother
        cases other with
        | nil =>
            obtain ⟨_, _, _, hroot, -⟩ := hother
            cases hroot
        | cons other rest =>
            exact apart_of_head_ne (by rintro rfl; exact hcollision rest hother) rest []
    simp only [lookup_applyNonConflictingChanges, TakenOver, hnear, true_and, property_obj, hbase,
      hmerged, chosen]

theorem mergedValues {result : MergeResult}
    (hmerge : threeWayMerge {} (.obj localVersion) (.obj remote) (.obj base) = .ok result)
    (hsuccess : result.success = true)
    (hkeys : ∀ path, Collision (.obj localVersion) (.obj remote) (.obj base) path →
      "" ∉ path.dropLast) :
    ∃ merged, result.mergedVersion = .obj merged ∧
      MergedValues localVersion remote base merged := by
  simp only [threeWayMerge, bind_eq_ok_iff, pure_ok_iff] at hmerge
  obtain ⟨conflicts, hdetect, rfl⟩ := hmerge
  have hauto : ∀ conflict ∈ conflicts, conflict.autoResolvable = true := by
    intro conflict hconflict
    have hnone := List.filter_eq_nil_iff.mp (List.isEmpty_iff.mp hsuccess) conflict hconflict
    simpa using hnone
  have hnumbers : ∀ conflict ∈ conflicts,
      NumberConflict (.obj localVersion) (.obj remote) (.obj base) conflict :=
    fun conflict hconflict => numberConflict_of_auto hdetect hauto hconflict
  have hcopied : Resolved (.obj localVersion) (.obj remote) (.obj base)
      ({ merged := base, base := .obj base }, ([] : List Resolution)).1 := resolved_copied _ _ _
  refine ⟨_, rfl, (hcopied.foldl hkeys hnumbers).mergedValues
    (not_removed_of_auto hdetect hauto) fun key => ⟨fun hnear => ?_, ?_⟩⟩
  · obtain ⟨conflict, hmem, hhead⟩ := List.any_eq_true.mp hnear
    obtain ⟨head, path, _, hpath, hcollision, _⟩ := hnumbers conflict hmem
    have heq : head = key := by simpa [hpath] using hhead
    exact ⟨path, heq ▸ hcollision⟩
  · rintro ⟨rest, hrest⟩
    exact hasConflict_of_collision hdetect hauto hrest

end Success

/-- A change of the local version alone is kept where the key is, and the remote has the
text of the base. -/
theorem same_chosen_local {localValue remoteValue baseValue : JsValue} {path : List String}
    (hremoved : removedOrChanged localValue remoteValue baseValue = false)
    (hdiffers : ¬ Same (under localValue path) (under baseValue path))
    (hsame : Same (under remoteValue path) (under baseValue path)) :
    Same (under (chosen localValue remoteValue baseValue) path) (under localValue path) ↔
      localValue ≠ none ∧ remoteValue = baseValue := by
  constructor
  · intro hkept
    have hother : ¬ Same (under (chosen localValue remoteValue baseValue) path)
        (under baseValue path) := fun h => hdiffers (hkept.symm.trans h)
    unfold chosen at hother
    split_ifs at hother with hremote hlocal
    · exact absurd hsame hother
    · refine ⟨hlocal.1, ?_⟩
      by_contra hne
      have habsent : remoteValue = none := by
        by_contra hpresent
        exact hremote ⟨hpresent, hne⟩
      subst habsent
      have hequal : strictEquals localValue baseValue = true := by
        cases baseValue with
        | none => exact absurd rfl hne
        | some base =>
            simp only [removedOrChanged, Option.isNone_none, Option.isSome_some, Bool.true_and,
              Bool.and_true, Bool.or_eq_false_iff, Bool.not_eq_false'] at hremoved
            exact hremoved.2
      exact hlocal.2 (eq_of_strictEquals hequal)
    · exact absurd (Same.refl _) hother
  · rintro ⟨hlocal, rfl⟩
    have hne : localValue ≠ remoteValue := by
      rintro rfl
      exact hdiffers (Same.refl _)
    rw [chosen, if_neg (by simp), if_pos ⟨hlocal, hne⟩]
    exact Same.refl _

theorem same_chosen_remote {localValue remoteValue baseValue : JsValue} {path : List String}
    (hdiffers : ¬ Same (under remoteValue path) (under baseValue path))
    (hsame : Same (under localValue path) (under baseValue path)) :
    Same (under (chosen localValue remoteValue baseValue) path) (under remoteValue path) ↔
      remoteValue ≠ none := by
  have hne : remoteValue ≠ baseValue := by
    rintro rfl
    exact hdiffers (Same.refl _)
  constructor
  · rintro hkept rfl
    have hbase : Same (under (chosen localValue none baseValue) path) (under baseValue path) := by
      unfold chosen
      split_ifs
      · next hremote => exact absurd rfl hremote.1
      · exact hsame
      · exact Same.refl _
    exact hdiffers (hkept.symm.trans hbase)
  · intro hremote
    rw [chosen, if_pos ⟨hremote, hne⟩]
    exact Same.refl _

section Keeps

variable {localVersion remote base merged : List (String × Json)}

theorem MergedValues.not_oneSided (h : MergedValues localVersion remote base merged)
    (hkeeps : KeepsOneSided (.obj localVersion) (.obj remote) (.obj base) (.obj merged))
    {key : String}
    (hcollision : ∃ rest, Collision (.obj localVersion) (.obj remote) (.obj base) (key :: rest))
    (path : List String) :
    ¬ OneSided (.obj localVersion) (.obj remote) (.obj base) (key :: path) ∧
      ¬ OneSided (.obj remote) (.obj localVersion) (.obj base) (key :: path) := by
  constructor
  · intro hlocal
    have hkept := (hkeeps key path).1 hlocal
    rw [h.collided key path hcollision fun _ hother => hlocal.apart hother] at hkept
    exact hlocal.1 hkept.symm
  · intro hremote
    have hkept := (hkeeps key path).2 hremote
    rw [h.collided key path hcollision fun _ hother => hremote.apart hother.symm] at hkept
    exact hremote.1 hkept.symm

theorem MergedValues.mergeKeeps (h : MergedValues localVersion remote base merged)
    (hkeeps : KeepsOneSided (.obj localVersion) (.obj remote) (.obj base) (.obj merged)) :
    MergeKeeps (.obj localVersion) (.obj remote) (.obj base) where
  alone := fun key hcollision path => h.not_oneSided hkeeps hcollision path
  fromLocal := by
    intro key path hlocal
    have hwhole := h.whole key fun rest hrest =>
      (h.not_oneSided hkeeps ⟨rest, hrest⟩ path).1 hlocal
    have hkept := (hkeeps key path).1 hlocal
    rw [at?_key, at?_key, hwhole] at hkept
    exact (same_chosen_local (h.removed key) hlocal.1 hlocal.2).mp hkept
  fromRemote := by
    intro key path hremote
    have hwhole := h.whole key fun rest hrest =>
      (h.not_oneSided hkeeps ⟨rest, hrest⟩ path).2 hremote
    have hkept := (hkeeps key path).2 hremote
    rw [at?_key, at?_key, hwhole] at hkept
    exact (same_chosen_remote hremote.1 hremote.2).mp hkept

theorem MergedValues.keepsOneSided (h : MergedValues localVersion remote base merged)
    (hkeeps : MergeKeeps (.obj localVersion) (.obj remote) (.obj base)) :
    KeepsOneSided (.obj localVersion) (.obj remote) (.obj base) (.obj merged) := by
  intro key path
  constructor
  · intro hlocal
    have hwhole := h.whole key fun rest hrest => (hkeeps.alone key ⟨rest, hrest⟩ path).1 hlocal
    rw [at?_key, at?_key, hwhole]
    exact (same_chosen_local (h.removed key) hlocal.1 hlocal.2).mpr
      (hkeeps.fromLocal key path hlocal)
  · intro hremote
    have hwhole := h.whole key fun rest hrest => (hkeeps.alone key ⟨rest, hrest⟩ path).2 hremote
    rw [at?_key, at?_key, hwhole]
    exact (same_chosen_remote hremote.1 hremote.2).mpr (hkeeps.fromRemote key path hremote)

end Keeps

/-- A merge that reports success, with no merged number below an empty key, has every
one-sided change exactly where `MergeKeeps` says. -/
theorem one_sided_kept_iff {localVersion remote base : List (String × Json)} {result : MergeResult}
    (hmerge : threeWayMerge {} (.obj localVersion) (.obj remote) (.obj base) = .ok result)
    (hsuccess : result.success = true)
    (hkeys : ∀ path, Collision (.obj localVersion) (.obj remote) (.obj base) path →
      "" ∉ path.dropLast) :
    KeepsOneSided (.obj localVersion) (.obj remote) (.obj base) result.mergedVersion ↔
      MergeKeeps (.obj localVersion) (.obj remote) (.obj base) := by
  obtain ⟨merged, hmerged, hvalues⟩ := mergedValues hmerge hsuccess hkeys
  rw [hmerged]
  exact ⟨hvalues.mergeKeeps, hvalues.keepsOneSided⟩

theorem one_sided_kept_iff_flat :
    KeepsOneSided (.obj [("count", .num 2), ("title", .str "b")])
        (.obj [("count", .num 4), ("title", .str "a")])
        (.obj [("count", .num 1), ("title", .str "a")])
        (.obj [("count", .num 5), ("title", .str "b")]) ↔
      MergeKeeps (.obj [("count", .num 2), ("title", .str "b")])
        (.obj [("count", .num 4), ("title", .str "a")])
        (.obj [("count", .num 1), ("title", .str "a")]) := by
  have hdetect : detectConflicts {} (.obj [("count", .num 2), ("title", .str "b")])
      (.obj [("count", .num 4), ("title", .str "a")])
      (.obj [("count", .num 1), ("title", .str "a")]) =
        .ok [createConflict .propertyChanged (some (.num 2)) (some (.num 4)) (some (.num 1))
          [some (.str "count")]] := by
    refine detectConflicts_default.mpr ⟨[], by decide, ?_⟩
    rw [detect_root, keyConflicts_objects]
    rfl
  have hmerge : threeWayMerge {} (.obj [("count", .num 2), ("title", .str "b")])
      (.obj [("count", .num 4), ("title", .str "a")])
      (.obj [("count", .num 1), ("title", .str "a")]) =
        .ok ⟨true, [], .obj [("count", .num 5), ("title", .str "b")],
          [⟨createConflict .propertyChanged (some (.num 2)) (some (.num 4)) (some (.num 1))
            [some (.str "count")], .merge, some (.num 5)⟩]⟩ := by
    simp only [threeWayMerge, hdetect]
    decide +kernel
  apply one_sided_kept_iff hmerge rfl
  rintro (_ | ⟨key, _ | ⟨below, rest⟩⟩) ⟨x, _, _, hx, -⟩
  · simp
  · simp
  · rw [at?_key] at hx
    by_cases hcount : "count" = key
    · subst hcount
      cases hx
    · by_cases htitle : "title" = key
      · subst htitle
        cases hx
      · simp [Fields.lookup_cons, hcount, htitle, under] at hx

/-- Both sides have changed one of two fields of an object: the remote's object replaces
that of the local version, and no conflict is reported. -/
theorem one_sided_change_lost :
    ∃ result, threeWayMerge {}
        (.obj [("viewport", .obj [("x", .num 2), ("y", .num 1)])])
        (.obj [("viewport", .obj [("x", .num 1), ("y", .num 2)])])
        (.obj [("viewport", .obj [("x", .num 1), ("y", .num 1)])]) = .ok result ∧
      result.success = true ∧
      ¬ KeepsOneSided (.obj [("viewport", .obj [("x", .num 2), ("y", .num 1)])])
        (.obj [("viewport", .obj [("x", .num 1), ("y", .num 2)])])
        (.obj [("viewport", .obj [("x", .num 1), ("y", .num 1)])]) result.mergedVersion := by
  have hdetect : detectConflicts {}
      (.obj [("viewport", .obj [("x", .num 2), ("y", .num 1)])])
      (.obj [("viewport", .obj [("x", .num 1), ("y", .num 2)])])
      (.obj [("viewport", .obj [("x", .num 1), ("y", .num 1)])]) = .ok [] := by
    refine detectConflicts_default.mpr ⟨[], by decide, ?_⟩
    rw [detect_root, keyConflicts_objects]
    change [] =
      (keyConflicts (some (.obj _)) (some (.obj _)) (some (.obj _)) ["viewport"] ++ []) ++ []
    rw [keyConflicts_objects]
    rfl
  refine ⟨⟨true, [], .obj [("viewport", .obj [("x", .num 1), ("y", .num 2)])], []⟩, ?_, rfl, ?_⟩
  · simp only [threeWayMerge, hdetect]
    rfl
  · intro hkeeps
    have hkept := (hkeeps "viewport" ["x"]).1 ⟨not_same_num (by decide), Same.refl _⟩
    exact not_same_num (by decide) hkept

end Qontinui.ConflictDetector
