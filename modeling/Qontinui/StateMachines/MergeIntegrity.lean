import Qontinui.StateMachines.Converter

/-!
What a merge keeps of the generated config. Everything is copied, but a reference is renamed to
the copy of what it named only where the last entry of that name in the shared mapping is that
of what it named, and the state references of incoming transitions are not renamed at all.
-/

namespace Qontinui.StateMachines

open Numbered

/-! ### The mapping -/

def imageEntries (config : QontinuiConfig) : List (String × Nat) :=
  config.images.zipIdx.map fun img => (img.1.id, img.2)

/-- What is written for a state: its own entry, and those of its state images. -/
def stateEntries (state : State × Nat) : List (String × Nat) :=
  (state.1.id, state.2) :: state.1.stateImages.zipIdx.map fun si => (si.1.id, si.2)

def allEntries (config : QontinuiConfig) : List (String × Nat) :=
  imageEntries config ++ config.states.zipIdx.flatMap stateEntries

/-- What has been written when the patterns of a state image are copied, the one at `j` of the
state at `i`. -/
def entriesUpTo (config : QontinuiConfig) (i : Nat) (state : State) (j : Nat) :
    List (String × Nat) :=
  imageEntries config ++ (config.states.take i).zipIdx.flatMap stateEntries ++
    stateEntries ({ state with stateImages := state.stateImages.take (j + 1) }, i)

/-- The mapping holds for each name the last entry of that name. -/
def Tracks (timestamp : Nat) (idMapping : IdMapping) (entries : List (String × Nat)) : Prop :=
  ∀ id, idMapping.get? id = (lastPosition entries id).map (freshId id timestamp)

section Mapping

variable {timestamp : Nat} {idMapping : IdMapping} {entries : List (String × Nat)}

theorem Tracks.set (h : Tracks timestamp idMapping entries) (id : String) (i : Nat) :
    Tracks timestamp (idMapping.set id (freshId id timestamp i)) (entries ++ [(id, i)]) := by
  intro other
  rw [lastPosition_concat]
  split_ifs with heq
  · rw [heq, ObjectMap.get?_set_self]
    rfl
  · rw [ObjectMap.get?_set_ne _ heq]
    exact h other

theorem Tracks.images (timestamp : Nat) (generated : QontinuiConfig) :
    Tracks timestamp (newImages timestamp generated).2 (imageEntries generated) := by
  have hempty : Tracks timestamp ObjectMap.empty [] := fun id => rfl
  rw [imageEntries, List.map_eq_flatMap]
  exact mapIndexed_state (copyImage timestamp) (Tracks timestamp) (fun img => [(img.1.id, img.2)])
    (fun i _ img _ hs => hs.set img.id i) generated.images 0 hempty

theorem Tracks.stateImages (h : Tracks timestamp idMapping entries)
    (stateImages : List StateImage) :
    Tracks timestamp (mapIndexed (copyStateImage timestamp) 0 idMapping stateImages).2
      (entries ++ stateImages.zipIdx.map fun si => (si.1.id, si.2)) := by
  rw [List.map_eq_flatMap]
  exact mapIndexed_state (copyStateImage timestamp) (Tracks timestamp) (fun si => [(si.1.id, si.2)])
    (fun i _ si _ hs => hs.set si.id i) stateImages 0 h

theorem Tracks.state (h : Tracks timestamp idMapping entries) (i : Nat) (id : String)
    (stateImages : List StateImage) :
    Tracks timestamp (mapIndexed (copyStateImage timestamp) 0
        (idMapping.set id (freshId id timestamp i)) stateImages).2
      (entries ++ (id, i) :: stateImages.zipIdx.map fun si => (si.1.id, si.2)) := by
  rw [List.append_cons]
  exact (h.set id i).stateImages stateImages

theorem Tracks.states (timestamp : Nat) (generated : QontinuiConfig) (states : List State) :
    Tracks timestamp
      (mapIndexed (copyState timestamp) 0 (newImages timestamp generated).2 states).2
      (imageEntries generated ++ states.zipIdx.flatMap stateEntries) :=
  mapIndexed_state (copyState timestamp) (Tracks timestamp) stateEntries
    (fun i _ state _ hs => hs.state i state.id state.stateImages) states 0
    (.images timestamp generated)

theorem Tracks.renamed_eq (h : Tracks timestamp idMapping entries) {id : String} {n : Nat}
    (hlast : lastPosition entries id = some n) : renamed idMapping id = freshId id timestamp n := by
  rw [renamed, h id, hlast]
  exact if_neg (freshId_ne_empty id timestamp n)

theorem Tracks.renamed_iff (h : Tracks timestamp idMapping entries) {id : String} {m : Nat}
    (hmem : (id, m) ∈ entries) :
    renamed idMapping id = freshId id timestamp m ↔ lastPosition entries id = some m := by
  obtain ⟨n, hlast⟩ := lastPosition_isSome hmem
  rw [h.renamed_eq hlast, hlast]
  constructor
  · intro heq
    rw [(freshId_inj heq).2]
  · intro heq
    rw [Option.some.inj heq]

end Mapping

/-! ### The copies -/

section Copies

variable {timestamp : Nat} {generated : QontinuiConfig}

theorem newImages_getElem? (m : Nat) : (newImages timestamp generated).1[m]? =
    generated.images[m]?.map fun img => { img with id := freshId img.id timestamp m } := by
  rw [newImages, getElem?_mapIndexed, Nat.zero_add]
  rfl

theorem newStates_getElem? (i : Nat) : (newStates timestamp generated).1[i]? =
    generated.states[i]?.map fun state => (copyState timestamp i
      (mapIndexed (copyState timestamp) 0 (newImages timestamp generated).2
        (generated.states.take i)).2 state).1 := by
  rw [newStates, getElem?_mapIndexed, Nat.zero_add]

theorem newStates_id {m : Nat} {state copy : State} (hstate : generated.states[m]? = some state)
    (hcopy : (newStates timestamp generated).1[m]? = some copy) :
    copy.id = freshId state.id timestamp m := by
  rw [newStates_getElem?, hstate] at hcopy
  cases hcopy
  rfl

theorem mem_imageEntries {m : Nat} {img : ImageAsset} (himg : generated.images[m]? = some img) :
    (img.id, m) ∈ imageEntries generated := by
  apply List.mem_map.mpr
  exact ⟨(img, m), List.mem_zipIdx_iff_getElem?.mpr himg, rfl⟩

theorem mem_allEntries {m : Nat} {state : State} (hstate : generated.states[m]? = some state) :
    (state.id, m) ∈ allEntries generated := by
  apply List.mem_append_right
  apply List.mem_flatMap.mpr
  exact ⟨(state, m), List.mem_zipIdx_iff_getElem?.mpr hstate, List.mem_cons_self⟩

theorem pattern_copy {i j k : Nat} {state : State} {si : StateImage} {p : Pattern}
    {state' : State} {si' : StateImage} {p' : Pattern}
    (hstate : generated.states[i]? = some state) (hsi : state.stateImages[j]? = some si)
    (hp : si.patterns[k]? = some p) (hstate' : (newStates timestamp generated).1[i]? = some state')
    (hsi' : state'.stateImages[j]? = some si') (hp' : si'.patterns[k]? = some p') :
    ∃ idMapping, Tracks timestamp idMapping (entriesUpTo generated i state j) ∧
      p'.imageId = renamed idMapping p.imageId := by
  rw [newStates_getElem?, hstate] at hstate'
  cases hstate'
  change (mapIndexed (copyStateImage timestamp) 0 _ state.stateImages).1[j]? = some si' at hsi'
  rw [getElem?_mapIndexed, hsi, Nat.zero_add] at hsi'
  cases hsi'
  change (si.patterns.mapIdx _)[k]? = some p' at hp'
  rw [List.getElem?_mapIdx, hp] at hp'
  cases hp'
  refine ⟨_, ?_, rfl⟩
  have htracks := ((Tracks.states timestamp generated (generated.states.take i)).state i state.id
    (state.stateImages.take j)).set si.id j
  rw [entriesUpTo, stateEntries, zipIdx_take_succ hsi, List.map_append]
  simpa [List.append_assoc] using htracks

end Copies

/-! ### What the merge should keep -/

def ImageCopied (img copy : ImageAsset) : Prop := copy = { img with id := copy.id }

def PatternCopied (p copy : Pattern) : Prop :=
  copy = { p with id := copy.id, imageId := copy.imageId }

def StateImageCopied (si copy : StateImage) : Prop :=
  copy = { si with id := copy.id, patterns := copy.patterns } ∧
    List.Forall₂ PatternCopied si.patterns copy.patterns

def StateCopied (state copy : State) : Prop :=
  copy = { state with id := copy.id, stateImages := copy.stateImages } ∧
    List.Forall₂ StateImageCopied state.stateImages copy.stateImages

/-- A copy is of the same type and differs in the id and in the states. -/
inductive TransitionCopied : Transition → Transition → Prop
  | outgoing {t : OutgoingTransition} {id fromState toState : String}
      {activateStates deactivateStates : List String}
      (hactivate : activateStates.length = t.activateStates.length)
      (hdeactivate : deactivateStates.length = t.deactivateStates.length) :
      TransitionCopied (.outgoing t) (.outgoing
        { t with id, fromState, toState, activateStates, deactivateStates })
  | incoming {t : IncomingTransition} {id toState : String} :
      TransitionCopied (.incoming t) (.incoming { t with id, toState })

def Transition.stateReferences : Transition → List String
  | .outgoing t => t.fromState :: t.toState :: (t.activateStates ++ t.deactivateStates)
  | .incoming t => [t.toState]

def added {α : Type} (old merged : List α) : List α := merged.drop old.length

/-- The pattern copies name the copies of the images that the patterns name. -/
def ImagesFollow (generated : QontinuiConfig) (images : List ImageAsset) (states : List State) :
    Prop :=
  ∀ (i j k m : Nat) (state state' : State) (si si' : StateImage) (p p' : Pattern)
    (img img' : ImageAsset), generated.states[i]? = some state → states[i]? = some state' →
    state.stateImages[j]? = some si → state'.stateImages[j]? = some si' →
    si.patterns[k]? = some p → si'.patterns[k]? = some p' →
    generated.images[m]? = some img → images[m]? = some img' →
    img.id = p.imageId → p'.imageId = img'.id

/-- The transition copies name the copies of the states that the transitions name. -/
def StatesFollow (generated : QontinuiConfig) (states : List State)
    (transitions : List Transition) : Prop :=
  ∀ (q n m : Nat) (t t' : Transition) (r r' : String) (state state' : State),
    generated.transitions[q]? = some t → transitions[q]? = some t' →
    t.stateReferences[n]? = some r → t'.stateReferences[n]? = some r' →
    generated.states[m]? = some state → states[m]? = some state' →
    state.id = r → r' = state'.id

/-- The existing parts are first, the generated ones are copied behind them, and the copies
name each other as the originals do. -/
structure Intact (existing generated merged : QontinuiConfig) : Prop where
  images_first : existing.images <+: merged.images
  states_first : existing.states <+: merged.states
  transitions_first : existing.transitions <+: merged.transitions
  images : List.Forall₂ ImageCopied generated.images (added existing.images merged.images)
  states : List.Forall₂ StateCopied generated.states (added existing.states merged.states)
  transitions : List.Forall₂ TransitionCopied generated.transitions
    (added existing.transitions merged.transitions)
  images_follow : ImagesFollow generated (added existing.images merged.images)
    (added existing.states merged.states)
  states_follow : StatesFollow generated (added existing.states merged.states)
    (added existing.transitions merged.transitions)

/-- The entry of an image is the last of its name when a pattern that names it is copied; one
that was overwritten for the same position does as well. -/
def ImagesUncrossed (generated : QontinuiConfig) : Prop :=
  ∀ (i j m : Nat) (state : State) (si : StateImage) (p : Pattern) (img : ImageAsset),
    generated.states[i]? = some state → state.stateImages[j]? = some si → p ∈ si.patterns →
    generated.images[m]? = some img → img.id = p.imageId →
    lastPosition (entriesUpTo generated i state j) p.imageId = some m

/-- The entry of a state that an outgoing transition names is the last of its name, and no
incoming transition names a generated state. -/
def StatesUncrossed (generated : QontinuiConfig) : Prop :=
  ∀ t ∈ generated.transitions, ∀ r ∈ t.stateReferences, ∀ (m : Nat) (state : State),
    generated.states[m]? = some state → state.id = r →
    match t with
    | .outgoing _ => lastPosition (allEntries generated) r = some m
    | .incoming _ => False

section Merge

variable {existing generated : QontinuiConfig} {timestamp : Nat} {now : String}

theorem added_append {α : Type} (old new : List α) : added old (old ++ new) = new :=
  List.drop_left

theorem copyState_copied (i : Nat) (idMapping : IdMapping) (state : State) :
    StateCopied state (copyState timestamp i idMapping state).1 := by
  have hpattern : ∀ idMapping k p, PatternCopied p (copyPattern timestamp idMapping k p) :=
    fun _ _ _ => rfl
  exact ⟨rfl, forall₂_mapIndexed
    (fun j s si => ⟨rfl, forall₂_mapIdx (hpattern _) si.patterns⟩) _ _ _⟩

theorem newImages_copied :
    List.Forall₂ ImageCopied generated.images (newImages timestamp generated).1 :=
  forall₂_mapIndexed (f := copyImage timestamp) (fun _ _ _ => rfl) _ _ _

theorem newStates_copied :
    List.Forall₂ StateCopied generated.states (newStates timestamp generated).1 :=
  forall₂_mapIndexed (fun i s state => copyState_copied i s state) _ _ _

theorem copyTransition_copied (i : Nat) (idMapping : IdMapping) (t : Transition) :
    TransitionCopied t (copyTransition timestamp idMapping i t) := by
  cases t with
  | outgoing t => exact .outgoing (List.length_map _) (List.length_map _)
  | incoming t => exact .incoming

theorem newTransitions_copied :
    List.Forall₂ TransitionCopied generated.transitions (newTransitions timestamp generated) :=
  forall₂_mapIdx (fun i t => copyTransition_copied i _ t) _

/-- The patterns name the copies of their images where the entries are not crossed. -/
theorem imagesFollow_iff (timestamp : Nat) :
    ImagesFollow generated (newImages timestamp generated).1 (newStates timestamp generated).1 ↔
      ImagesUncrossed generated := by
  -- a pattern that names an image is renamed by the last entry of that name
  have hcopied : ∀ {i j k m : Nat} {state state' : State} {si si' : StateImage} {p p' : Pattern}
      {img img' : ImageAsset}, generated.states[i]? = some state →
      (newStates timestamp generated).1[i]? = some state' → state.stateImages[j]? = some si →
      state'.stateImages[j]? = some si' → si.patterns[k]? = some p → si'.patterns[k]? = some p' →
      generated.images[m]? = some img → (newImages timestamp generated).1[m]? = some img' →
      img.id = p.imageId → (p'.imageId = img'.id ↔
        lastPosition (entriesUpTo generated i state j) p.imageId = some m) := by
    intro i j k m state state' si si' p p' img img' hstate hstate' hsi hsi' hp hp' himg himg' hid
    obtain ⟨idMapping, htracks, hp'⟩ := pattern_copy hstate hsi hp hstate' hsi' hp'
    rw [newImages_getElem?, himg] at himg'
    cases himg'
    have hnew : freshId img.id timestamp m = freshId p.imageId timestamp m := by rw [hid]
    have hmem : (p.imageId, m) ∈ entriesUpTo generated i state j := by
      rw [← hid]
      exact List.mem_append_left _ (List.mem_append_left _ (mem_imageEntries himg))
    rw [hp']
    exact (Eq.congr_right hnew).trans (htracks.renamed_iff hmem)
  constructor
  · intro h i j m state si p img hstate hsi hp himg hid
    obtain ⟨k, hp⟩ := List.getElem?_of_mem hp
    obtain ⟨state', hstate', _, hstateImages⟩ := getElem?_of_forall₂ newStates_copied hstate
    obtain ⟨si', hsi', _, hpatterns⟩ := getElem?_of_forall₂ hstateImages hsi
    obtain ⟨p', hp', _⟩ := getElem?_of_forall₂ hpatterns hp
    obtain ⟨img', himg', _⟩ := getElem?_of_forall₂ newImages_copied himg
    exact (hcopied hstate hstate' hsi hsi' hp hp' himg himg' hid).mp
      (h i j k m state state' si si' p p' img img' hstate hstate' hsi hsi' hp hp' himg himg' hid)
  · intro h i j k m state state' si si' p p' img img' hstate hstate' hsi hsi' hp hp' himg himg' hid
    exact (hcopied hstate hstate' hsi hsi' hp hp' himg himg' hid).mpr
      (h i j m state si p img hstate hsi (List.mem_of_getElem? hp) himg hid)

theorem stateReferences_copy (timestamp : Nat) (idMapping : IdMapping) (q : Nat)
    (t : OutgoingTransition) :
    (copyTransition timestamp idMapping q (.outgoing t)).stateReferences =
      (Transition.outgoing t).stateReferences.map (renamed idMapping) := by
  simp [copyTransition, Transition.stateReferences]

/-- The transitions name the copies of their states where the entries are not crossed, and
where none of them comes in. -/
theorem statesFollow_iff (timestamp : Nat) :
    StatesFollow generated (newStates timestamp generated).1
        (newTransitions timestamp generated) ↔ StatesUncrossed generated := by
  have htracks : Tracks timestamp (newStates timestamp generated).2 (allEntries generated) :=
    Tracks.states timestamp generated generated.states
  have hcopy : ∀ {q : Nat} {t : Transition}, generated.transitions[q]? = some t →
      (newTransitions timestamp generated)[q]? =
        some (copyTransition timestamp (newStates timestamp generated).2 q t) := by
    intro q t ht
    rw [newTransitions, List.getElem?_mapIdx, ht]
    rfl
  constructor
  · intro h t ht r hr m state hstate hid
    obtain ⟨q, ht⟩ := List.getElem?_of_mem ht
    obtain ⟨n, hr⟩ := List.getElem?_of_mem hr
    obtain ⟨state', hstate', _⟩ := getElem?_of_forall₂ newStates_copied hstate
    have hid' := newStates_id hstate hstate'
    cases t with
    | outgoing t =>
        have hr' := stateReferences_copy timestamp (newStates timestamp generated).2 q t
        have hfollow := h q n m _ _ r (renamed (newStates timestamp generated).2 r) state state' ht
          (hcopy ht) hr (by rw [hr', List.getElem?_map, hr]; rfl) hstate hstate' hid
        have hmem : (r, m) ∈ allEntries generated := hid ▸ mem_allEntries hstate
        rw [hid', hid] at hfollow
        exact (htracks.renamed_iff hmem).mp hfollow
    | incoming t =>
        have hfollow := h q n m _ _ r r state state' ht (hcopy ht) hr hr hstate hstate' hid
        rw [hid', hid] at hfollow
        exact freshId_ne_self r timestamp m hfollow.symm
  · intro h q n m t t' r r' state state' ht ht' hr hr' hstate hstate' hid
    rw [hcopy ht] at ht'
    cases ht'
    have huncrossed := h t (List.mem_of_getElem? ht) r (List.mem_of_getElem? hr) m state hstate hid
    cases t with
    | outgoing t =>
        rw [stateReferences_copy, List.getElem?_map, hr] at hr'
        cases hr'
        rw [newStates_id hstate hstate', hid]
        exact htracks.renamed_eq huncrossed
    | incoming t => cases huncrossed

/-- A merge keeps the generated config intact exactly where its entries are not crossed. -/
theorem intact_merge_iff :
    Intact existing generated (mergeWithExistingConfig existing generated timestamp now) ↔
      ImagesUncrossed generated ∧ StatesUncrossed generated := by
  rw [← imagesFollow_iff timestamp, ← statesFollow_iff timestamp]
  have himages : added existing.images (existing.images ++ (newImages timestamp generated).1) = _ :=
    added_append _ _
  have hstates : added existing.states (existing.states ++ (newStates timestamp generated).1) = _ :=
    added_append _ _
  have htransitions : added existing.transitions
      (existing.transitions ++ newTransitions timestamp generated) = _ := added_append _ _
  constructor
  · intro h
    have hfollow := h.images_follow
    have hfollow' := h.states_follow
    rw [mergeWithExistingConfig, himages, hstates] at hfollow
    rw [mergeWithExistingConfig, hstates, htransitions] at hfollow'
    exact ⟨hfollow, hfollow'⟩
  · rintro ⟨hfollow, hfollow'⟩
    rw [mergeWithExistingConfig]
    constructor
    · exact List.prefix_append _ _
    · exact List.prefix_append _ _
    · exact List.prefix_append _ _
    · rw [himages]
      exact newImages_copied
    · rw [hstates]
      exact newStates_copied
    · rw [htransitions]
      exact newTransitions_copied
    · rw [himages, hstates]
      exact hfollow
    · rw [hstates, htransitions]
      exact hfollow'

end Merge

/-! ### Distinct ids -/

def stateImageIds (states : List State) : List String :=
  states.flatMap fun state => state.stateImages.map (·.id)

/-- No two images, states, state images or transitions have one id. -/
structure DistinctIds (config : QontinuiConfig) : Prop where
  images : (config.images.map (·.id)).Nodup
  states : (config.states.map (·.id)).Nodup
  stateImages : (stateImageIds config.states).Nodup
  transitions : (config.transitions.map (·.id)).Nodup

/-- No id ends in the timestamp and a number. -/
structure FreeOfSuffix (timestamp : Nat) (config : QontinuiConfig) : Prop where
  images : ∀ id ∈ config.images.map (·.id), ∀ name i, id ≠ freshId name timestamp i
  states : ∀ id ∈ config.states.map (·.id), ∀ name i, id ≠ freshId name timestamp i
  stateImages : ∀ id ∈ stateImageIds config.states, ∀ name i, id ≠ freshId name timestamp i
  transitions : ∀ id ∈ config.transitions.map (·.id), ∀ name i, id ≠ freshId name timestamp i

/-- No two states have a state image of one id at one position. -/
def StateImagesApart (config : QontinuiConfig) : Prop :=
  ∀ (i i' j : Nat) (state state' : State) (si si' : StateImage),
    config.states[i]? = some state → config.states[i']? = some state' →
    state.stateImages[j]? = some si → state'.stateImages[j]? = some si' →
    si.id = si'.id → i = i'

section Distinct

variable {existing generated : QontinuiConfig} {timestamp : Nat} {now : String}

theorem newImages_ids : (newImages timestamp generated).1.map (·.id) =
    generated.images.zipIdx.map fun img => freshId img.1.id timestamp img.2 := by
  apply List.ext_getElem?
  intro m
  rw [List.getElem?_map, newImages_getElem?, List.getElem?_map, List.getElem?_zipIdx,
    Nat.zero_add]
  cases generated.images[m]? <;> rfl

theorem newStates_ids : (newStates timestamp generated).1.map (·.id) =
    generated.states.zipIdx.map fun state => freshId state.1.id timestamp state.2 := by
  apply List.ext_getElem?
  intro m
  rw [List.getElem?_map, newStates_getElem?, List.getElem?_map, List.getElem?_zipIdx,
    Nat.zero_add]
  cases generated.states[m]? <;> rfl

theorem newTransitions_ids : (newTransitions timestamp generated).map (·.id) =
    generated.transitions.zipIdx.map fun t => freshId "transition" timestamp t.2 := by
  apply List.ext_getElem?
  intro q
  rw [List.getElem?_map, newTransitions, List.getElem?_mapIdx, List.getElem?_map,
    List.getElem?_zipIdx, Nat.zero_add]
  cases generated.transitions[q]? with
  | none => rfl
  | some t => cases t <;> rfl

def newStateImageIds (timestamp : Nat) (state : State) : List String :=
  state.stateImages.zipIdx.map fun si => freshId si.1.id timestamp si.2

theorem copyState_stateImageIds (i : Nat) (idMapping : IdMapping) (state : State) :
    (copyState timestamp i idMapping state).1.stateImages.map (·.id) =
      newStateImageIds timestamp state := by
  apply List.ext_getElem?
  intro j
  rw [copyState, List.getElem?_map, getElem?_mapIndexed, newStateImageIds, List.getElem?_map,
    List.getElem?_zipIdx, Nat.zero_add]
  cases state.stateImages[j]? <;> rfl

theorem newStates_stateImageIds : stateImageIds (newStates timestamp generated).1 =
    generated.states.flatMap (newStateImageIds timestamp) := by
  have hcopies : List.Forall₂
      (fun state copy => copy.stateImages.map (·.id) = newStateImageIds timestamp state)
      generated.states (newStates timestamp generated).1 :=
    forall₂_mapIndexed (fun i s state => copyState_stateImageIds i s state) _ _ _
  rw [stateImageIds]
  generalize (newStates timestamp generated).1 = copies at hcopies
  generalize generated.states = states at hcopies
  induction hcopies with
  | nil => rfl
  | cons hcopy _ ih => rw [List.flatMap_cons, hcopy, ih, List.flatMap_cons]

theorem nodup_newStateImageIds_iff :
    (generated.states.flatMap (newStateImageIds timestamp)).Nodup ↔ StateImagesApart generated := by
  have hmem : ∀ {state : State} {id : String}, id ∈ newStateImageIds timestamp state ↔
      ∃ j si, state.stateImages[j]? = some si ∧ freshId si.id timestamp j = id := by
    intro state id
    rw [newStateImageIds, List.mem_map]
    constructor
    · rintro ⟨⟨si, j⟩, hsi, rfl⟩
      exact ⟨j, si, List.mem_zipIdx_iff_getElem?.mp hsi, rfl⟩
    · rintro ⟨j, si, hsi, rfl⟩
      exact ⟨(si, j), List.mem_zipIdx_iff_getElem?.mpr hsi, rfl⟩
  have heach : ∀ state ∈ generated.states, (newStateImageIds timestamp state).Nodup :=
    fun state _ => nodup_numbered (fun a b heq => (freshId_inj heq).2) _ _
  rw [List.nodup_flatMap, and_iff_right heach, List.pairwise_iff_getElem]
  constructor
  · intro h i i' j state state' si si' hstate hstate' hsi hsi' hid
    have hapart : ∀ {i i' : Nat} {state state' : State} {si si' : StateImage},
        generated.states[i]? = some state → generated.states[i']? = some state' →
        state.stateImages[j]? = some si → state'.stateImages[j]? = some si' →
        si.id = si'.id → ¬i < i' := by
      intro i i' state state' si si' hstate hstate' hsi hsi' hid hlt
      obtain ⟨hi, rfl⟩ := List.getElem?_eq_some_iff.mp hstate
      obtain ⟨hi', rfl⟩ := List.getElem?_eq_some_iff.mp hstate'
      exact h i i' hi hi' hlt (hmem.mpr ⟨j, si, hsi, rfl⟩) (hmem.mpr ⟨j, si', hsi', by rw [hid]⟩)
    have hle := hapart hstate hstate' hsi hsi' hid
    have hge := hapart hstate' hstate hsi' hsi hid.symm
    omega
  · intro h i i' hi hi' hlt id hid hid'
    obtain ⟨j, si, hsi, rfl⟩ := hmem.mp hid
    obtain ⟨j', si', hsi', heq⟩ := hmem.mp hid'
    obtain ⟨hname, rfl⟩ := freshId_inj heq
    have hsame := h i i' j' _ _ si si' (List.getElem?_eq_getElem hi)
      (List.getElem?_eq_getElem hi') hsi hsi' hname.symm
    omega

theorem nodup_append_fresh {old new : List String}
    (hold : ∀ id ∈ old, ∀ name i, id ≠ freshId name timestamp i)
    (hnew : ∀ id ∈ new, ∃ name i, id = freshId name timestamp i) :
    (old ++ new).Nodup ↔ old.Nodup ∧ new.Nodup := by
  rw [List.nodup_append]
  constructor
  · exact fun h => ⟨h.1, h.2.1⟩
  · rintro ⟨h, h'⟩
    refine ⟨h, h', fun id hid other hother => ?_⟩
    obtain ⟨name, i, rfl⟩ := hnew other hother
    exact hold id hid name i

theorem nodup_append_numbered {α : Type} {old : List String}
    (hold : ∀ id ∈ old, ∀ name i, id ≠ freshId name timestamp i) (name : α → String)
    (xs : List α) :
    (old ++ xs.zipIdx.map fun a => freshId (name a.1) timestamp a.2).Nodup ↔ old.Nodup := by
  rw [nodup_append_fresh hold]
  · exact and_iff_left (nodup_numbered (fun a b heq => (freshId_inj heq).2) xs 0)
  · intro id hid
    obtain ⟨a, _, rfl⟩ := List.mem_map.mp hid
    exact ⟨_, _, rfl⟩

/-- The merged ids are distinct exactly where the existing ones are and no two states bring a
state image of one id at one position. -/
theorem distinct_merge_iff (hfree : FreeOfSuffix timestamp existing) :
    DistinctIds (mergeWithExistingConfig existing generated timestamp now) ↔
      DistinctIds existing ∧ StateImagesApart generated := by
  have himages : ((existing.images ++ (newImages timestamp generated).1).map (·.id)).Nodup ↔
      (existing.images.map (·.id)).Nodup := by
    rw [List.map_append, newImages_ids]
    exact nodup_append_numbered hfree.images ImageAsset.id generated.images
  have hstates : ((existing.states ++ (newStates timestamp generated).1).map (·.id)).Nodup ↔
      (existing.states.map (·.id)).Nodup := by
    rw [List.map_append, newStates_ids]
    exact nodup_append_numbered hfree.states State.id generated.states
  have htransitions :
      ((existing.transitions ++ newTransitions timestamp generated).map (·.id)).Nodup ↔
        (existing.transitions.map (·.id)).Nodup := by
    rw [List.map_append, newTransitions_ids]
    exact nodup_append_numbered hfree.transitions (fun _ => "transition") generated.transitions
  have hstateImages :
      (stateImageIds (existing.states ++ (newStates timestamp generated).1)).Nodup ↔
        (stateImageIds existing.states).Nodup ∧ StateImagesApart generated := by
    have hsplit : stateImageIds (existing.states ++ (newStates timestamp generated).1) =
        stateImageIds existing.states ++
          generated.states.flatMap (newStateImageIds timestamp) := by
      rw [← newStates_stateImageIds]
      exact List.flatMap_append
    rw [hsplit, nodup_append_fresh hfree.stateImages, nodup_newStateImageIds_iff]
    intro id hid
    obtain ⟨state, _, hid⟩ := List.mem_flatMap.mp hid
    obtain ⟨si, _, rfl⟩ := List.mem_map.mp hid
    exact ⟨_, _, rfl⟩
  constructor
  · intro h
    obtain ⟨hold, hapart⟩ := hstateImages.mp h.stateImages
    exact ⟨⟨himages.mp h.images, hstates.mp h.states, hold, htransitions.mp h.transitions⟩, hapart⟩
  · rintro ⟨h, hapart⟩
    exact ⟨himages.mpr h.images, hstates.mpr h.states, hstateImages.mpr ⟨h.stateImages, hapart⟩,
      htransitions.mpr h.transitions⟩

/-- A merge keeps the generated config intact and the ids distinct exactly where no entry of
the shared mapping is crossed, no incoming transition names a generated state, and no two
states bring a state image of one id at one position. -/
theorem merge_intact_and_distinct_iff (existing generated : QontinuiConfig) (timestamp : Nat)
    (now : String) :
    (Intact existing generated (mergeWithExistingConfig existing generated timestamp now) ∧
      (FreeOfSuffix timestamp existing →
        DistinctIds (mergeWithExistingConfig existing generated timestamp now))) ↔
    (ImagesUncrossed generated ∧ StatesUncrossed generated) ∧
      (FreeOfSuffix timestamp existing → DistinctIds existing ∧ StateImagesApart generated) := by
  apply and_congr intact_merge_iff
  exact forall_congr' fun hfree => distinct_merge_iff hfree

end Distinct

def emptyProject : QontinuiConfig where
  version := "2.12.0"
  metadata := { name := "Shop", modified := "" }
  images := []
  states := []
  transitions := []

def withIncoming : QontinuiConfig where
  version := "2.12.0"
  metadata := { name := "Login", modified := "" }
  images := []
  states := [{ id := "login", stateImages := [] }]
  transitions := [.incoming { id := "t", toState := "login" }]

/-- A generated config in which an image and a state have one id at different positions. -/
def withSharedId : QontinuiConfig where
  version := "2.12.0"
  metadata := { name := "Login", modified := "" }
  images := [{ id := "button" }, { id := "login" }]
  states := [{ id := "login", stateImages :=
    [{ id := "si", name := "Login", patterns := [{ id := "p", imageId := "login" }] }] }]
  transitions := []

/-- A generated config with a state image that two states have. -/
def withSharedImage : QontinuiConfig where
  version := "2.12.0"
  metadata := { name := "Login", modified := "" }
  images := []
  states := [{ id := "login", stateImages := [{ id := "si", name := "Logo", patterns := [] }] },
    { id := "home", stateImages := [{ id := "si", name := "Logo", patterns := [] }] }]
  transitions := []

/-- Each of the three configs is accepted and has unique ids of images, states and transitions.
The merge leaves the first reference as it is, names the wrong image in the second, and gives
two state images one id in the third. -/
theorem merge_crosses_references :
    (∀ generated ∈ [withIncoming, withSharedId, withSharedImage],
      (validateGeneratedConfig generated).valid = true ∧
      (generated.images.map (·.id)).Nodup ∧ (generated.states.map (·.id)).Nodup ∧
      (generated.transitions.map (·.id)).Nodup) ∧
    ¬Intact emptyProject withIncoming (mergeWithExistingConfig emptyProject withIncoming 7 "") ∧
    ¬Intact emptyProject withSharedId (mergeWithExistingConfig emptyProject withSharedId 7 "") ∧
    FreeOfSuffix 7 emptyProject ∧ DistinctIds emptyProject ∧
    ¬DistinctIds (mergeWithExistingConfig emptyProject withSharedImage 7 "") := by
  have hfree : FreeOfSuffix 7 emptyProject := ⟨nofun, nofun, nofun, nofun⟩
  refine ⟨by decide +kernel, ?_, ?_, hfree, ⟨by decide, by decide, by decide, by decide⟩, ?_⟩
  · intro h
    exact (intact_merge_iff.mp h).2 _ List.mem_cons_self "login" List.mem_cons_self 0 _ rfl rfl
  · intro h
    have hlast := (intact_merge_iff.mp h).1 0 0 1 _ _ _ _ rfl rfl List.mem_cons_self rfl rfl
    revert hlast
    decide
  · intro h
    have hsame := ((distinct_merge_iff hfree).mp h).2 0 1 0 _ _ _ _ rfl rfl rfl rfl rfl
    cases hsame

end Qontinui.StateMachines
