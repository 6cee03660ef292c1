import Qontinui.MergeService.MergedObjects

/-!
What a merge without conflicts keeps of a change that one side alone has made: all of it,
except that a deleted key stays. The merge reads the deletion as the value `None` and
writes that.
-/

namespace Qontinui.ConflictResolution

/-- At the path, `side` differs from the base and `other` does not. -/
def OneSided (baseData side other : Dict) (path : List String) : Prop :=
  ¬ SameAt (valueAt side path) (valueAt baseData path) ∧
    SameAt (valueAt other path) (valueAt baseData path)

/-- At every key path at which one side alone differs from the base, the merged document
has exactly what that side has, which may be nothing. -/
def KeepsOneSided (baseData localData remoteData merged : Dict) : Prop :=
  ∀ path, path ≠ [] →
    (OneSided baseData localData remoteData path → valueAt merged path = valueAt localData path) ∧
    (OneSided baseData remoteData localData path → valueAt merged path = valueAt remoteData path)

/-- `side` has deleted what the base has at the path, and `other` has left it alone. -/
def DeletedAt (baseData side other : Dict) (path : List String) : Prop :=
  valueAt side path = none ∧ (valueAt baseData path).isSome ∧
    SameAt (valueAt other path) (valueAt baseData path)

/-- In no object that is merged key by key has one side alone deleted a key. -/
def NoLoneDeletion (baseData localData remoteData : Dict) : Prop :=
  ∀ path key, MergedAt baseData localData remoteData path →
    ¬ DeletedAt baseData localData remoteData (path ++ [key]) ∧
    ¬ DeletedAt baseData remoteData localData (path ++ [key])

variable {baseData localData remoteData : Dict} {key : String} {order : SetOrder}
  {side other : Dict}

theorem DeletedAt.oneSided {path : List String} (h : DeletedAt baseData side other path) :
    OneSided baseData side other path := by
  obtain ⟨hside, hbase, hother⟩ := h
  refine ⟨?_, hother⟩
  obtain ⟨value, hvalue⟩ := Option.isSome_iff_exists.mp hbase
  rw [hside, hvalue]
  exact id

theorem valueAt_append_key (data fields : Dict) (path : List String) (key : String)
    (h : valueAt data path = some (.obj fields)) :
    valueAt data (path ++ [key]) = fields.lookup key := by
  unfold valueAt at h ⊢
  generalize some (Json.obj data) = value at h ⊢
  induction path generalizing value with
  | nil =>
      rw [below_nil] at h
      rw [h, List.nil_append, below_obj, below_nil]
  | cons next path ih =>
      cases value with
      | none => simp at h
      | some value =>
          cases value with
          | obj values => exact ih (values.lookup next) h
          | null | bool | num | str | arr => cases h

theorem lookup_recursiveMerge_ne_none (h : (baseData.lookup key).isSome) :
    (recursiveMerge order baseData localData remoteData).lookup key ≠ none := by
  rw [lookup_recursiveMerge, if_pos (.inl h)]
  exact Option.some_ne_none _

theorem noLoneDeletion_of_keeps (h : KeepsOneSided baseData localData remoteData
      (recursiveMerge order baseData localData remoteData)) :
    NoLoneDeletion baseData localData remoteData := by
  intro path key hpath
  obtain ⟨baseFields, localFields, remoteFields, hb, -, -, hmerged⟩ :=
    hpath.valueAt_recursiveMerge order
  have hkept := h (path ++ [key]) (by simp)
  have hthere : valueAt baseData (path ++ [key]) = baseFields.lookup key :=
    valueAt_append_key _ _ _ _ hb
  rw [valueAt_append_key _ _ _ _ hmerged] at hkept
  constructor
  · intro hdeleted
    apply lookup_recursiveMerge_ne_none (hthere ▸ hdeleted.2.1)
    rw [hkept.1 hdeleted.oneSided, hdeleted.1]
  · intro hdeleted
    apply lookup_recursiveMerge_ne_none (hthere ▸ hdeleted.2.1)
    rw [hkept.2 hdeleted.oneSided, hdeleted.1]

theorem OneSided.lookup_side (h : OneSided baseData side other [key])
    (hkept : ¬ DeletedAt baseData side other [key]) : ∃ value, side.lookup key = some value := by
  apply Option.ne_none_iff_exists'.mp
  intro hnone
  have hside : valueAt side [key] = none := by rw [valueAt_cons, below_nil, hnone]
  apply hkept
  refine ⟨hside, ?_, h.2⟩
  rw [← Option.ne_none_iff_isSome]
  intro hbase
  apply h.1
  rw [hside, hbase]
  trivial

theorem OneSided.agree_other (h : OneSided baseData side other [key]) :
    valuesEqual (other.get key) (baseData.get key) = true := by
  have hother := h.2
  rw [valueAt_cons, below_nil, valueAt_cons, below_nil] at hother
  exact hother.agree

theorem valuesEqual_of_common {a b c : Json} (h : valuesEqual a c = true)
    (h' : valuesEqual b c = true) : valuesEqual a b = true :=
  valuesEqual_trans a c b h (valuesEqual_symm b c h')

theorem mergedValue_of_local (order : SetOrder) {baseValue localValue remoteValue : Json}
    (h : valuesEqual remoteValue baseValue = true) :
    mergedValue order baseValue localValue remoteValue = localValue := by
  cases keyMerge order order "" baseValue localValue remoteValue with
  | sides _ hmerged => exact hmerged
  | takesLocal _ _ hmerged => exact hmerged
  | takesRemote hsides hlocal _ => exact absurd (valuesEqual_of_common hlocal h) hsides
  | nested _ _ _ _ _ _ _ _ hremote _ _ => exact absurd h hremote
  | reported _ hremote _ => exact absurd h hremote

theorem mergedValue_of_remote (order : SetOrder) {baseValue localValue remoteValue : Json}
    (h : valuesEqual localValue baseValue = true) :
    mergedValue order baseValue localValue remoteValue =
      if valuesEqual localValue remoteValue then localValue else remoteValue := by
  cases keyMerge order order "" baseValue localValue remoteValue with
  | sides hsides hmerged => rw [hmerged, if_pos hsides]
  | takesRemote hsides _ hmerged => rw [hmerged, if_neg hsides]
  | takesLocal hsides hremote _ => exact absurd (valuesEqual_of_common h hremote) hsides
  | nested _ _ _ _ _ _ _ hlocal _ _ _ => exact absurd h hlocal
  | reported hlocal _ _ => exact absurd h hlocal

theorem value_eq_of_agree {a b c : Option Json} {value : Json} (hb : b = some value)
    (hagree : Agree a b) (hone : ¬ SameAt b c) (hother : SameAt a c) :
    a.getD .null = value := by
  subst hb
  rcases hagree.sameAt_or with hsame | ⟨rfl, hnull⟩ | ⟨_, hnone⟩
  · exact absurd (hsame.symm.trans hother) hone
  · cases hnull
    rfl
  · cases hnone

theorem keeps_key (hlocal : ¬ DeletedAt baseData localData remoteData [key])
    (hremote : ¬ DeletedAt baseData remoteData localData [key]) :
    (OneSided baseData localData remoteData [key] →
      (recursiveMerge order baseData localData remoteData).lookup key = localData.lookup key) ∧
    (OneSided baseData remoteData localData [key] →
      (recursiveMerge order baseData localData remoteData).lookup key = remoteData.lookup key) := by
  constructor
  · intro hone
    obtain ⟨value, hvalue⟩ := hone.lookup_side hlocal
    rw [lookup_recursiveMerge, if_pos (by simp [hvalue]),
      mergedValue_of_local order hone.agree_other, Dict.get_eq, hvalue]
    rfl
  · intro hone
    obtain ⟨value, hvalue⟩ := hone.lookup_side hremote
    rw [lookup_recursiveMerge, if_pos (by simp [hvalue]),
      mergedValue_of_remote order hone.agree_other]
    have hdiffers := hone.1
    have hother := hone.2
    rw [valueAt_cons, valueAt_cons, below_nil, below_nil] at hdiffers hother
    split
    · next hsides => rw [Dict.get_eq, value_eq_of_agree hvalue hsides hdiffers hother, hvalue]
    · rw [Dict.get_eq, hvalue]
      rfl

theorem valueAt_below (data : Dict) (key next : String) (path : List String) :
    valueAt data (key :: next :: path) = below (some (data.get key)) (next :: path) := by
  rw [below_get, valueAt_cons]

theorem NoLoneDeletion.nested {baseFields localFields remoteFields : Dict}
    (h : NoLoneDeletion baseData localData remoteData) (hb : baseData.get key = .obj baseFields)
    (hl : localData.get key = .obj localFields) (hr : remoteData.get key = .obj remoteFields)
    (hsides : Unequal (.obj localFields) (.obj remoteFields))
    (hlocal : Unequal (.obj localFields) (.obj baseFields))
    (hremote : Unequal (.obj remoteFields) (.obj baseFields)) :
    NoLoneDeletion baseFields localFields remoteFields := by
  intro path next hpath
  have hat := h (key :: path) next
    ⟨_, _, _, hb, hl, hr, hsides, hlocal, hremote, hpath⟩
  simp only [DeletedAt, List.cons_append, valueAt_cons, lookup_of_get hb, lookup_of_get hl,
    lookup_of_get hr] at hat
  exact hat

theorem keeps_of_noLoneDeletion {order' : SetOrder} {field : String}
    (hconflicts : detectConflicts order baseData localData remoteData field = [])
    (h : NoLoneDeletion baseData localData remoteData) :
    KeepsOneSided baseData localData remoteData
      (recursiveMerge order' baseData localData remoteData) := by
  intro path hpath
  induction path generalizing baseData localData remoteData field with
  | nil => exact absurd rfl hpath
  | cons key path ih =>
      cases path with
      | nil =>
          have hkey := h [] key trivial
          simpa only [valueAt_cons, below_nil] using keeps_key hkey.1 hkey.2
      | cons next path =>
          have hhere : conflictsAt order (fieldPath field key) (baseData.get key)
              (localData.get key) (remoteData.get key) = [] := by
            apply List.eq_nil_iff_forall_not_mem.mpr
            intro conflict hconflict
            have hmem := mem_detectConflicts.mpr ⟨key, hconflict⟩
            rw [hconflicts] at hmem
            cases hmem
          cases keyMerge order order' (fieldPath field key) (baseData.get key)
            (localData.get key) (remoteData.get key) with
          | reported _ _ hreported =>
              rw [hreported] at hhere
              cases hhere
          | nested baseFields localFields remoteFields hb hl hr hsides hlocal hremote hnested
              hmerged =>
              rw [hnested] at hhere
              rw [hl, hr] at hsides
              rw [hl, hb] at hlocal
              rw [hr, hb] at hremote
              have hrest := h.nested hb hl hr hsides hlocal hremote
              have hkeeps := ih hhere hrest (List.cons_ne_nil next path)
              simp only [OneSided, valueAt_below, get_recursiveMerge, hmerged]
              rw [hb, hl, hr]
              exact hkeeps
          | sides hsides hmerged =>
              have hsame := Agree.sameAt_below (a := some _) (b := some _) hsides next path
              simp only [OneSided, valueAt_below, get_recursiveMerge, hmerged, implies_true,
                true_and]
              rintro ⟨hdiffers, hother⟩
              exact absurd (hsame.symm.trans hother) hdiffers
          | takesRemote _ hlocal hmerged =>
              have hsame := Agree.sameAt_below (a := some _) (b := some _) hlocal next path
              simp only [OneSided, valueAt_below, get_recursiveMerge, hmerged, implies_true,
                and_true]
              rintro ⟨hdiffers, -⟩
              exact absurd hsame hdiffers
          | takesLocal _ hremote hmerged =>
              have hsame := Agree.sameAt_below (a := some _) (b := some _) hremote next path
              simp only [OneSided, valueAt_below, get_recursiveMerge, hmerged, implies_true,
                true_and]
              rintro ⟨hdiffers, -⟩
              exact absurd hsame hdiffers

/-- Where no conflict is detected, the recursive merge keeps every change of one side
alone if and only if no such change deletes a key of an object that is merged key by key. -/
theorem recursive_keeps_oneSided_iff (order order' : SetOrder)
    (baseData localData remoteData : Dict)
    (hconflicts : detectConflicts order baseData localData remoteData "" = []) :
    (∃ merged, applyMergeStrategy order' (some baseData) (some localData) (some remoteData)
        "recursive" = .ok merged ∧ KeepsOneSided baseData localData remoteData merged) ↔
      NoLoneDeletion baseData localData remoteData := by
  constructor
  · rintro ⟨merged, hmerged, hkeeps⟩
    cases hmerged
    exact noLoneDeletion_of_keeps hkeeps
  · intro h
    exact ⟨_, rfl, keeps_of_noLoneDeletion hconflicts h⟩

/-- The remote alone changes a number: there is no deletion, and the change is kept. -/
theorem recursive_keeps_oneSided_changed :
    detectConflicts insertionOrder [("a", .num 1)] [("a", .num 1)] [("a", .num 2)] "" = [] ∧
    ((∃ merged, applyMergeStrategy insertionOrder (some [("a", .num 1)]) (some [("a", .num 1)])
          (some [("a", .num 2)]) "recursive" = .ok merged ∧
        KeepsOneSided [("a", .num 1)] [("a", .num 1)] [("a", .num 2)] merged) ↔
      NoLoneDeletion [("a", .num 1)] [("a", .num 1)] [("a", .num 2)]) := by
  have hconflicts : detectConflicts insertionOrder [("a", .num 1)] [("a", .num 1)]
      [("a", .num 2)] "" = [] := by
    rw [detectConflicts_eq]
    decide +kernel
  exact ⟨hconflicts, recursive_keeps_oneSided_iff insertionOrder insertionOrder _ _ _ hconflicts⟩

/-- The local side alone deletes a key: no conflict is detected, and the merged document has
the key, with the value `None`. -/
theorem recursive_keeps_deleted_key :
    detectConflicts insertionOrder [("a", .num 1)] [] [("a", .num 1)] "" = [] ∧
    ¬ ∃ merged, applyMergeStrategy insertionOrder (some [("a", .num 1)]) (some [])
        (some [("a", .num 1)]) "recursive" = .ok merged ∧
      KeepsOneSided [("a", .num 1)] [] [("a", .num 1)] merged := by
  constructor
  · rw [detectConflicts_eq]
    decide +kernel
  · rintro ⟨merged, hmerged, hkeeps⟩
    cases hmerged
    apply (noLoneDeletion_of_keeps hkeeps [] "a" trivial).1
    exact ⟨rfl, rfl, SameAt.refl _⟩

end Qontinui.ConflictResolution
