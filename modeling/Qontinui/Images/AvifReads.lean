import Qontinui.Images.SampleCounts

/-!
Which programs of the walk read within the bounds of the data: those of every box but
`iloc`, whose own reads fault in one place.
-/

namespace Qontinui.Images

open Stopping

/-- The program neither faults nor hangs. -/
abbrev Safe {α : Type} (m : Walk α) : Prop := FaultFree Stop.Faulty m fun _ => True

section Rules

variable {α β : Type} {m m' : Walk α} {f : α → Walk β}

theorem Safe.bind (hm : Safe m) (hf : ∀ a, Safe (f a)) : Safe (m >>= f) :=
  FaultFree.bind hm fun a _ => hf a

theorem Safe.pure (a : α) : Safe (Pure.pure a : Walk α) := FaultFree.pure trivial

theorem Safe.ite {c : Prop} [Decidable c] (hthen : c → Safe m) (helse : ¬ c → Safe m') :
    Safe (if c then m else m') := FaultFree.ite hthen helse

theorem safe_get : Safe (get : Walk AvifContainer) := FaultFree.get fun _ => trivial

theorem safe_modify (change : AvifContainer → AvifContainer) : Safe (modify change : Walk Unit) :=
  FaultFree.modify change

theorem safe_refuseIf {c : Prop} [Decidable c] (message code : String) :
    Safe (refuseIf c message code) :=
  .ite (fun _ => .throw (not_faulty_refused message code)) fun _ => .pure ()

theorem safe_count {c : AvifContainer → Prop} [DecidablePred c] {message code : String}
    (change : AvifContainer → AvifContainer) :
    Safe (do modify change; refuseIf (c (← get)) message code) :=
  (safe_modify change).bind fun _ => safe_get.bind fun _ => safe_refuseIf _ _

theorem safe_read {data : Bytes} {pos width : Nat} (h : pos + width ≤ data.length) :
    Safe (read data pos width) := .lift (unpack_eq_ok h) trivial

theorem safe_elementAt {elements : List α} {i : Nat} (h : i < elements.length) :
    Safe (elementAt elements i) := by
  rw [elementAt, List.getElem?_eq_getElem h]
  exact .pure _

theorem Safe.forEach {body : β → α → Walk (ForInStep β)} {P : α → Prop}
    {items : List (Except Stop α)} (hitems : Streams Stop.Faulty P items)
    (hbody : ∀ acc x, P x → Safe (body acc x)) (acc : β) : Safe (forEach body acc items) :=
  FaultFree.forEach (fun acc x _ hx => hbody acc x hx) hitems trivial

theorem Safe.forRange {body : β → Nat → Walk (ForInStep β)} (hbody : ∀ acc n, Safe (body acc n))
    (acc : β) (first times : Nat) : Safe (forRange body acc first times) :=
  FaultFree.forRange (fun acc n _ => hbody acc n) trivial first times

end Rules

theorem safe_avifSamples (chunks : Nat) (runs : List (Nat × Nat)) :
    Safe (avifSamples chunks runs) := by
  intro walk
  obtain ⟨samples, swept, hrun, -⟩ :=
    forRange_chunkSamples_run walk chunks (swept_start runs 1) (Nat.zero_le maxFrames)
  refine ⟨(faults_bind_of_run hrun).not.mpr (not_faults_pure _ _), fun _ _ _ => trivial⟩

section Boxes

variable {data : Bytes} {box : Box}

theorem streams_boxes {pos stop : Nat} (hstop : stop ≤ data.length) :
    Streams Stop.Faulty (fun child => child.stop ≤ data.length)
      (avifBoxes data pos stop false) :=
  (streams_avifBoxes hstop).mono fun _ h => h.stop_le.trans hstop

namespace AvifContainer

theorem streams_children (hbox : box.stop ≤ data.length) (skip : Nat) :
    Streams Stop.Faulty (fun child => child.stop ≤ data.length) (children data box skip) := by
  intro item hitem
  obtain ⟨numbered, hnumbered, rfl⟩ := List.mem_map.mp hitem
  obtain ⟨hok, herror⟩ := (streams_boxes hbox).enumerate numbered hnumbered
  cases numbered with
  | error e =>
      refine ⟨nofun, ?_⟩
      rintro _ ⟨⟩
      exact herror e rfl
  | ok counted =>
      obtain ⟨count, child⟩ := counted
      simp only [bind, Except.bind]
      split
      · refine ⟨nofun, ?_⟩
        rintro _ ⟨⟩
        exact not_faulty_refused _ _
      · refine ⟨?_, nofun⟩
        rintro _ ⟨⟩
        exact hok _ rfl

theorem safe_item (itemId : Nat) : Safe (item itemId) :=
  .ite (fun _ => .pure ()) fun _ => safe_count _

theorem safe_entries (count : Nat) (kind : String) : Safe (entries count kind) :=
  safe_refuseIf _ _

theorem safe_countReferences (more : Nat) : Safe (countReferences more) := safe_count _

theorem safe_itemInfoEntry (acc : Unit) (numbered : Nat × Box)
    (hbox : numbered.2.stop ≤ data.length) : Safe (itemInfoEntry data acc numbered) := by
  obtain ⟨count, entry⟩ := numbered
  have hnamed : ∀ itemId itemType, Safe (itemInfoEntry.named itemId itemType) :=
    fun itemId itemType => (safe_item itemId).bind fun _ => (safe_modify _).bind fun _ => .pure _
  refine (safe_entries count _).bind fun _ => .ite (fun _ => .pure _) fun hlong => ?_
  have hlong : entry.start + 12 ≤ data.length := by
    rw [not_or] at hlong
    exact (Nat.not_lt.mp hlong.2).trans hbox
  refine (safe_read (by omega)).bind fun version => .ite (fun _ => .pure _) fun _ => ?_
  refine .ite (fun _ => (safe_read (by omega)).bind fun _ => hnamed _ _) fun _ => ?_
  exact .ite (fun _ => .pure _) fun _ => (safe_read (by omega)).bind fun _ => hnamed _ _

theorem safe_itemInfo (hbox : box.stop ≤ data.length) : Safe (itemInfo data box) := by
  have hlisted : ∀ declared pos, Safe (itemInfo.listed data box declared pos) :=
    fun declared pos =>
      .forEach ((streams_boxes hbox).take declared).enumerate safe_itemInfoEntry ()
  refine .ite (fun _ => .pure _) fun _ => (safe_read (by omega)).bind fun version => ?_
  refine .ite (fun _ => .pure _) fun _ => ?_
  refine .ite (fun _ => (safe_read (by omega)).bind fun _ => hlisted _ _) fun _ => ?_
  exact .ite (fun _ => .pure _) fun _ => (safe_read (by omega)).bind fun _ => hlisted _ _

theorem safe_property (parsed : List Bytes) (copied : List Nat) (prop : Box) :
    Safe (property parsed copied prop) :=
  (safe_modify _).bind fun _ => safe_get.bind fun _ => (safe_refuseIf _ _).bind fun _ => .pure _

theorem safe_propertyList (hbox : box.stop ≤ data.length) (skip : Nat) (track : Bool) :
    Safe (propertyList data box skip track) :=
  .forEach (streams_boxes hbox) (fun copied prop _ => safe_property _ copied prop) []

theorem safe_association (pos width : Nat) (copied : List Nat) (acc : Unit) (k : Nat) :
    Safe (association data pos width copied acc k) :=
  .ite (fun hindex => (safe_elementAt (by omega)).bind fun _ => (safe_modify _).bind fun _ =>
    .pure _) fun _ => .pure _

variable {stop : Nat}

theorem safe_associationEntry (hstop : stop ≤ data.length) (idSize width : Nat) (copied : List Nat)
    (pos count : Nat) : Safe (associationEntry data idSize width stop copied pos count) := by
  refine (safe_entries count _).bind fun _ => .ite (fun _ => .pure _) fun _ => ?_
  refine (safe_read (by omega)).bind fun _ => (safe_item _).bind fun _ => ?_
  refine (safe_read (by omega)).bind fun associations => .ite (fun _ => .pure _) fun _ => ?_
  refine (safe_modify _).bind fun _ => safe_get.bind fun _ => (safe_refuseIf _ _).bind fun _ => ?_
  refine Safe.bind (.forRange (safe_association _ _ copied) () 0 associations) fun _ => ?_
  exact safe_get.bind fun _ => (safe_refuseIf _ _).bind fun _ => .pure _

theorem safe_propertyAssociations (hbox : box.stop ≤ data.length) (copied : List Nat) :
    Safe (propertyAssociations data box copied) := by
  refine .ite (fun _ => .pure _) fun _ => (safe_read (by omega)).bind fun version => ?_
  refine (safe_read (by omega)).bind fun flags => (safe_read (by omega)).bind fun declared => ?_
  exact Safe.bind (.forRange (safe_associationEntry hbox _ _ copied) _ 1 declared) fun _ => .pure _

theorem safe_itemProperties (hbox : box.stop ≤ data.length) : Safe (itemProperties data box) := by
  have hchildren := streams_children hbox 0
  rw [itemProperties]
  cases hsplit : children data box 0 with
  | nil => exact .pure _
  | cons first rest =>
      rw [hsplit] at hchildren
      have hrest : Streams Stop.Faulty (fun child => child.stop ≤ data.length) rest :=
        fun child hchild => hchildren child (by simp [hchild])
      cases first with
      | error e => exact .throw ((hchildren (.error e) (by simp)).2 e rfl)
      | ok container =>
          have hcontainer := (hchildren (.ok container) (by simp)).1 container rfl
          refine .ite (fun _ => .pure _) fun _ => ?_
          refine (safe_propertyList hcontainer 0 false).bind fun copied => ?_
          refine .forEach hrest (fun _ child hchild => ?_) ()
          exact .ite (fun _ => .pure _) fun _ =>
            (safe_propertyAssociations hchild copied).bind fun _ => .pure _

theorem safe_unpackIds {pos idSize listed : Nat} (h : pos + listed * idSize ≤ data.length) :
    Safe (unpackIds data pos idSize listed) :=
  .lift (by rw [unpackBytes_eq_ok h]; rfl) trivial

theorem safe_reference (idSize : Nat) (acc : Unit) (reference : Box)
    (hbox : reference.stop ≤ data.length) :
    Safe (AvifContainer.reference data idSize acc reference) := by
  refine .ite (fun _ => (safe_countReferences 1).bind fun _ => .pure _) fun _ => ?_
  refine (safe_read (by omega)).bind fun declared => ?_
  refine (safe_countReferences _).bind fun _ => (safe_item _).bind fun _ => ?_
  refine .ite (fun _ => ?_) fun _ => .pure _
  have hlisted : min declared ((reference.stop - (reference.start + idSize + 2)) / idSize) * idSize
      ≤ reference.stop - (reference.start + idSize + 2) :=
    (Nat.mul_le_mul_right idSize (min_le_right _ _)).trans (Nat.div_mul_le_self _ _)
  refine (safe_unpackIds (by omega)).bind fun ids => ?_
  refine Safe.bind ?_ fun _ => .pure _
  exact .forEach (Streams.ok ids fun _ _ => trivial)
    (fun _ toId _ => (safe_item toId).bind fun _ => .pure _) ()

theorem safe_itemReferences (hbox : box.stop ≤ data.length) : Safe (itemReferences data box) := by
  refine .ite (fun _ => .pure _) fun _ => (safe_read (by omega)).bind fun version => ?_
  exact .ite (fun _ => .pure _) fun _ => .forEach (streams_boxes hbox) (safe_reference _) ()

theorem safe_entityGroupsFrom {fuel : Nat} (hstop : stop ≤ data.length) (groups pos : Nat)
    (hfuel : 0 < fuel) (hleft : stop < pos + fuel) :
    Safe (entityGroupsFrom data stop fuel groups pos) := by
  induction fuel generalizing groups pos with
  | zero => cases hfuel
  | succ fuel ih =>
      have hboxes : Streams Stop.Faulty (fun group => group.Within pos stop)
          (avifBoxes data pos stop false) := streams_avifBoxes hstop
      rw [entityGroupsFrom]
      cases hsplit : avifBoxes data pos stop false with
      | nil => exact .pure _
      | cons first rest =>
          rw [hsplit] at hboxes
          cases first with
          | error e => exact .throw ((hboxes (.error e) (by simp)).2 e rfl)
          | ok group =>
              obtain ⟨hstart, -, -⟩ := (hboxes (.ok group) (by simp)).1 group rfl
              refine (safe_refuseIf _ _).bind fun _ => .ite (fun _ => .pure _) fun _ => ?_
              refine (safe_read (by omega)).bind fun declared => ?_
              refine (safe_modify _).bind fun _ => safe_get.bind fun _ => ?_
              refine (safe_refuseIf _ _).bind fun _ => .ite (fun _ => .pure _) fun _ => ?_
              exact ih _ _ (by omega) (by omega)

theorem safe_entityGroups (hbox : box.stop ≤ data.length) : Safe (entityGroups data box) :=
  safe_entityGroupsFrom hbox 0 box.start (by omega) (by omega)

theorem safe_extent (layout : LocationLayout) (stop : Nat) (reached : Nat × Bool) (n : Nat) :
    Safe (extent data layout stop reached n) := by
  obtain ⟨pos, _⟩ := reached
  refine (safe_modify _).bind fun _ => safe_get.bind fun _ => (safe_refuseIf _ _).bind fun _ => ?_
  refine .ite (fun _ => .pure _) fun _ => (safe_modify _).bind fun _ => ?_
  exact safe_get.bind fun _ => (safe_refuseIf _ _).bind fun _ => .pure _

theorem safe_locationEntry (hstop : stop ≤ data.length) (layout : LocationLayout) (pos count : Nat) :
    Safe (locationEntry data layout stop pos count) := by
  have hfields : layout.idSize + 4 ≤ layout.fields := by
    rw [LocationLayout.fields]
    omega
  refine (safe_entries count _).bind fun _ => .ite (fun _ => .pure _) fun _ => ?_
  refine (safe_read (by omega)).bind fun _ => (safe_item _).bind fun _ => ?_
  refine (safe_read (by omega)).bind fun extents => ?_
  refine Safe.bind (.forRange (safe_extent layout stop) _ 0 extents) fun ⟨_, ended⟩ => ?_
  exact .ite (fun _ => .pure _) fun _ => .pure _

theorem safe_locationEntries (hstop : stop ≤ data.length) (layout : LocationLayout)
    (pos declared : Nat) : Safe (forRange (locationEntry data layout stop) pos 1 declared) :=
  .forRange (safe_locationEntry hstop layout) pos 1 declared

theorem safe_tableEntries (box : Box) (declared size fields before : Nat) :
    Safe (tableEntries box declared size fields before) :=
  (safe_refuseIf _ _).bind fun _ => .pure _

theorem safe_sampleDescription (acc : Unit) (numbered : Nat × Box)
    (hbox : numbered.2.stop ≤ data.length) : Safe (sampleDescription data acc numbered) := by
  obtain ⟨count, entry⟩ := numbered
  refine (safe_refuseIf _ _).bind fun _ => .ite (fun _ => ?_) fun _ => .pure _
  exact (safe_propertyList hbox _ true).bind fun _ => .pure _

theorem safe_sampleDescriptions (hbox : box.stop ≤ data.length) (declared : Nat) :
    Safe (sampleDescriptions data box declared) :=
  .forEach ((streams_boxes hbox).take declared).enumerate safe_sampleDescription ()

theorem faultFree_tableEntries (box : Box) (declared size fields before : Nat) :
    FaultFree Stop.Faulty (tableEntries box declared size fields before)
      fun present => size * present ≤ box.stop - box.start - fields :=
  FaultFree.bind (safe_refuseIf _ _) fun _ _ =>
    .pure ((Nat.mul_le_mul_left size (min_le_right _ _)).trans (Nat.mul_div_le _ _))

theorem safe_iterUnpackRuns {pos present : Nat} (h : pos + 12 * present ≤ data.length) :
    Safe (iterUnpackRuns (slice data pos (pos + 12 * present))) := by
  have hlength : (slice data pos (pos + 12 * present)).length = 12 * present := by
    rw [slice, List.length_take, List.length_drop]
    omega
  rw [iterUnpackRuns, hlength, if_pos (Nat.mul_mod_right 12 present)]
  exact .pure _

theorem safe_sampleTablePart (hbox : box.stop ≤ data.length) (hlong : box.start + 8 ≤ box.stop)
    (tables : Nat × List (Nat × Nat)) (declared : Nat) :
    Safe (sampleTablePart data tables box declared) := by
  obtain ⟨chunks, runs⟩ := tables
  refine .ite (fun _ => (safe_tableEntries _ _ _ _ _).bind fun _ => .pure _) fun _ => ?_
  refine .ite (fun _ => (safe_tableEntries _ _ _ _ _).bind fun _ => .pure _) fun _ => ?_
  refine .ite (fun _ => ?_) fun _ => ?_
  · refine FaultFree.bind (faultFree_tableEntries _ _ _ _ _) fun present hpresent => ?_
    exact (safe_iterUnpackRuns (by omega)).bind fun _ => .pure _
  refine .ite (fun _ => .ite (fun _ => .pure _) fun _ => ?_) fun _ => ?_
  · refine (safe_read (by omega)).bind fun sampleSize => (safe_read (by omega)).bind fun count => ?_
    exact .ite (fun _ => (safe_tableEntries _ _ _ _ _).bind fun _ => .pure _) fun _ => .pure _
  refine .ite (fun _ => (safe_tableEntries _ _ _ _ _).bind fun _ => .pure _) fun _ => ?_
  refine .ite (fun _ => (safe_tableEntries _ _ _ _ _).bind fun _ => .pure _) fun _ => ?_
  exact .ite (fun _ => (safe_sampleDescriptions hbox declared).bind fun _ => .pure _)
    fun _ => .pure _

theorem safe_sampleTable (hbox : box.stop ≤ data.length) : Safe (sampleTable data box) := by
  have htable : ∀ tables (table : Box), table.stop ≤ data.length →
      Safe (sampleTableChild data tables table) := fun tables table hstop =>
    .ite (fun _ => .pure _) fun hlong => (safe_read (by omega)).bind fun declared =>
      (safe_sampleTablePart hstop (Nat.not_lt.mp hlong) tables declared).bind fun _ => .pure _
  refine Safe.bind (.forEach (streams_children hbox 0) htable _) fun ⟨chunks, runs⟩ => ?_
  exact (safe_avifSamples chunks runs).bind fun _ => safe_refuseIf _ _

end AvifContainer

end Boxes

end Qontinui.Images
