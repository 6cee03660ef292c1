import Qontinui.Images.AvifReads

/-!
Where the walk of an AVIF's container faults: it asks an `iloc` box for eight bytes
and, at version 2, reads ten.
-/

namespace Qontinui.Images

open Stopping AvifContainer

/-- `data[pos]`, in the bounds of the data. -/
def byteAt (data : Bytes) (pos : Nat) : Nat := bigEndian (slice data pos (pos + 1))

/-- An `iloc` box of version 2, of sizes libavif knows, whose body begins less than ten
bytes before the end of the file: it has its first eight, and its count of entries is
not all there. -/
structure ShortLocations (data : Bytes) (box : Box) : Prop where
  body : box.start + 8 ≤ box.stop
  version : byteAt data box.start = 2
  known : (LocationLayout.ofBytes 2 (byteAt data (box.start + 4))
    (byteAt data (box.start + 5))).Known
  short : data.length < box.start + 10

/-- The walk of a `meta` box comes to such an `iloc` box. -/
def MetaReaches (data : Bytes) (box : Box) (walk : AvifContainer) : Prop :=
  box.stop - box.start ≤ maxAvifMetaBytes ∧
    Reaches (metaChild data) () (children data box 4) walk fun child _ =>
      child.kind = ascii ['i', 'l', 'o', 'c'] ∧ ShortLocations data child

/-- The walk of a `moov` box comes to such an `iloc` box, in the `meta` box of a track. -/
def MovieReaches (data : Bytes) (box : Box) (walk : AvifContainer) : Prop :=
  box.stop - box.start ≤ maxAvifMovieBytes ∧
    Reaches (movieChild data) () (children data box 0) walk fun child walk =>
      child.kind = ascii ['t', 'r', 'a', 'k'] ∧ walk.tracks + 1 ≤ maxAvifTracks ∧
        Reaches (trackChild data) () (children data child 0)
          { walk with tracks := walk.tracks + 1 } fun part walk =>
            part.kind = ascii ['m', 'e', 't', 'a'] ∧ MetaReaches data part walk

/-- The walk of the file comes to such an `iloc` box. -/
def ReachesShortLocations (data : Bytes) : Prop :=
  ∃ listed brands, ftyp data = some (listed, brands) ∧ listed ≤ maxAvifBrands ∧
    Reaches (containerBox data brands) {} (enumerate (avifBoxes data 0 data.length true)) {}
      fun (count, box) walk => count ≤ maxAvifBoxesPerContainer ∧
        (box.kind = ascii ['m', 'e', 't', 'a'] ∧ MetaReaches data box walk ∨
          box.kind = ascii ['m', 'o', 'o', 'v'] ∧ MovieReaches data box walk)

def Answers (result : Except Stop Unit) : Prop :=
  result = .ok () ∨ ∃ message code, result = .error (.refused message code)

section Faults

variable {data : Bytes} {box : Box} {walk : AvifContainer}

theorem run_readByte {pos : Nat} (h : pos < data.length) :
    (read data pos 1).run walk = .ok (byteAt data pos, walk) := by
  rw [read, unpack_eq_ok h]
  rfl

theorem faults_read_iff {pos width : Nat} :
    Faults Stop.Faulty (read data pos width) walk ↔ data.length < pos + width := by
  constructor
  · intro h
    by_contra hbounds
    exact (safe_read (Nat.not_lt.mp hbounds)).not_faults walk h
  · intro h
    refine ⟨.fault, trivial, ?_⟩
    rw [read, unpack_eq_fault h]
    rfl

theorem faults_refuseIf_bind_iff {β : Type} {c : Prop} [Decidable c] {message code : String}
    {f : Unit → Walk β} :
    Faults Stop.Faulty (refuseIf c message code >>= f) walk ↔
      ¬ c ∧ Faults Stop.Faulty (f ()) walk := by
  by_cases hc : c
  · rw [refuseIf, if_pos hc]
    refine ⟨?_, fun h => absurd hc h.1⟩
    rintro ⟨e, he, hrun⟩
    cases hrun
    exact he.elim
  · rw [refuseIf, if_neg hc]
    exact (faults_bind_of_run rfl).trans (and_iff_right hc).symm

section

variable (hbox : box.stop ≤ data.length)
include hbox

/-- An `iloc` box faults where its count of entries is not all in the file. -/
theorem faults_itemLocations_iff :
    Faults Stop.Faulty (itemLocations data box) walk ↔ ShortLocations data box := by
  by_cases hbody : box.stop < box.start + 8
  · rw [itemLocations, if_pos hbody]
    exact iff_of_false (not_faults_pure _ _) fun h => by have := h.body; omega
  rw [itemLocations, if_neg hbody, faults_bind_of_run (run_readByte (by omega))]
  by_cases hversion : byteAt data box.start > 2
  · rw [if_pos hversion]
    exact iff_of_false (not_faults_pure _ _) fun h => by have := h.version; omega
  rw [if_neg hversion, faults_bind_of_run (run_readByte (by omega)),
    faults_bind_of_run (run_readByte (by omega))]
  set layout := LocationLayout.ofBytes (byteAt data box.start) (byteAt data (box.start + 4))
    (byteAt data (box.start + 5)) with hlayout
  by_cases hknown : layout.Known
  · rw [if_neg (not_not_intro hknown), faults_bind_iff, faults_read_iff]
    -- past its count of entries the box is read within its bounds
    have hrest : ∀ pos declared walk, ¬ Faults Stop.Faulty
        (forRange (locationEntry data layout box.stop) pos 1 declared >>= fun _ => pure ())
        walk := fun pos declared walk =>
      (Safe.bind (safe_locationEntries hbox layout pos declared) fun _ => .pure ()).not_faults walk
    constructor
    · rintro (hshort | ⟨declared, walk', -, hfault⟩)
      · have hsize : layout.idSize = if byteAt data box.start < 2 then 2 else 4 := rfl
        have htwo : byteAt data box.start = 2 := by
          by_contra hne
          rw [hsize, if_pos (by omega)] at hshort
          omega
        rw [hsize, htwo] at hshort
        refine ⟨by omega, htwo, ?_, hshort⟩
        rwa [hlayout, htwo] at hknown
      · exact absurd hfault (hrest _ declared walk')
    · intro h
      refine .inl ?_
      rw [hlayout, h.version]
      exact h.short
  · rw [if_pos hknown]
    refine iff_of_false (not_faults_pure _ _) fun h => hknown ?_
    rw [hlayout, h.version]
    exact h.known

theorem faults_metaPart_iff :
    Faults Stop.Faulty (metaPart data box) walk ↔
      box.kind = ascii ['i', 'l', 'o', 'c'] ∧ ShortLocations data box := by
  by_cases hkind : box.kind = ascii ['i', 'l', 'o', 'c']
  · have hne : box.kind ≠ ascii ['i', 'i', 'n', 'f'] := by
      rw [hkind]
      decide
    rw [metaPart, if_neg hne, if_pos hkind, faults_itemLocations_iff hbox, and_iff_right hkind]
  · have hother : Safe (metaPart data box) := by
      rw [metaPart, if_neg hkind]
      refine .ite (fun _ => safe_itemInfo hbox) fun _ => ?_
      refine .ite (fun _ => safe_itemProperties hbox) fun _ => ?_
      refine .ite (fun _ => safe_itemReferences hbox) fun _ => ?_
      exact .ite (fun _ => safe_entityGroups hbox) fun _ => .pure ()
    exact iff_of_false (hother.not_faults walk) fun h => hkind h.1

theorem faults_metaBox_iff :
    Faults Stop.Faulty (metaBox data box) walk ↔ MetaReaches data box walk := by
  rw [metaBox, faults_refuseIf_bind_iff, Nat.not_lt]
  refine and_congr_right fun _ => faults_forEach_iff (streams_children hbox 4) ?_
  intro acc child walk hchild
  exact faults_bind_pure_iff.trans (faults_metaPart_iff hchild)

theorem safe_mediaBoxes : Safe (forEach (mediaChild data) () (children data box 0)) := by
  refine .forEach (streams_children hbox 0) (fun _ media hmedia => ?_) ()
  refine .ite (fun _ => .pure _) fun _ => Safe.bind ?_ fun _ => .pure _
  refine .forEach (streams_children hmedia 0) (fun _ information hinformation => ?_) ()
  exact .ite (fun _ => (safe_sampleTable hinformation).bind fun _ => .pure _) fun _ => .pure _

theorem faults_trackChild_iff :
    Faults Stop.Faulty (trackChild data () box) walk ↔
      box.kind = ascii ['m', 'e', 't', 'a'] ∧ MetaReaches data box walk := by
  by_cases hkind : box.kind = ascii ['m', 'e', 't', 'a']
  · rw [trackChild, if_pos hkind, and_iff_right hkind]
    exact faults_bind_pure_iff.trans (faults_metaBox_iff hbox)
  · have hother : Safe (trackChild data () box) := by
      rw [trackChild, if_neg hkind]
      exact .ite (fun _ => (safe_mediaBoxes hbox).bind fun _ => .pure _) fun _ => .pure _
    exact iff_of_false (hother.not_faults walk) fun h => hkind h.1

theorem faults_movieChild_iff :
    Faults Stop.Faulty (movieChild data () box) walk ↔
      box.kind = ascii ['t', 'r', 'a', 'k'] ∧ walk.tracks + 1 ≤ maxAvifTracks ∧
        Reaches (trackChild data) () (children data box 0)
          { walk with tracks := walk.tracks + 1 } fun part walk =>
            part.kind = ascii ['m', 'e', 't', 'a'] ∧ MetaReaches data part walk := by
  by_cases hkind : box.kind = ascii ['t', 'r', 'a', 'k']
  · rw [movieChild, if_neg (not_not_intro hkind), and_iff_right hkind, faults_bind_of_run rfl,
      faults_bind_of_run rfl, faults_refuseIf_bind_iff, Nat.not_lt]
    refine and_congr_right fun _ => faults_bind_pure_iff.trans ?_
    exact faults_forEach_iff (streams_children hbox 0)
      fun _ part walk hpart => faults_trackChild_iff hpart
  · rw [movieChild, if_pos hkind]
    exact iff_of_false (not_faults_pure _ _) fun h => hkind h.1

theorem faults_movie_iff :
    Faults Stop.Faulty (movie data box) walk ↔ MovieReaches data box walk := by
  rw [movie, faults_refuseIf_bind_iff, Nat.not_lt]
  exact and_congr_right fun _ => faults_forEach_iff (streams_children hbox 0)
    fun _ child walk hchild => faults_movieChild_iff hchild

theorem faults_containerBox_iff {brands : List Bytes} {seen : Seen} {count : Nat} :
    Faults Stop.Faulty (containerBox data brands seen (count, box)) walk ↔
      count ≤ maxAvifBoxesPerContainer ∧
        (box.kind = ascii ['m', 'e', 't', 'a'] ∧ MetaReaches data box walk ∨
          box.kind = ascii ['m', 'o', 'o', 'v'] ∧ MovieReaches data box walk) := by
  rw [containerBox, faults_refuseIf_bind_iff, Nat.not_lt]
  refine and_congr_right fun _ => (faults_bind_iff_left fun seen walk => ?_).trans ?_
  · have hend : Safe (do
        if (seen.metaSeen ∨ ¬ (avif ∈ brands ∨ tmap ∈ brands)) ∧
            (seen.movieSeen ∨ avis ∉ brands) ∧ ((← get).toneMapItem ∨ tmap ∉ brands) then
          return ForInStep.done seen
        else return ForInStep.yield seen) :=
      safe_get.bind fun _ => .ite (fun _ => .pure _) fun _ => .pure _
    exact hend.not_faults walk
  rw [containerBox.topLevelBox]
  by_cases hmeta : box.kind = ascii ['m', 'e', 't', 'a']
  · have hne : box.kind ≠ ascii ['m', 'o', 'o', 'v'] := by
      rw [hmeta]
      decide
    rw [if_pos hmeta, faults_bind_pure_iff, faults_metaBox_iff hbox, and_iff_right hmeta]
    exact (or_iff_left fun h => hne h.1).symm
  · rw [if_neg hmeta, or_iff_right fun h => hmeta h.1]
    by_cases hmovie : box.kind = ascii ['m', 'o', 'o', 'v']
    · rw [if_pos hmovie, faults_bind_pure_iff, faults_movie_iff hbox, and_iff_right hmovie]
    · rw [if_neg hmovie]
      exact iff_of_false (not_faults_pure _ _) fun h => hmovie h.1

end

theorem faults_containerWalk_iff {brands : List Bytes} :
    Faults Stop.Faulty (containerWalk data brands) walk ↔
      Reaches (containerBox data brands) {} (enumerate (avifBoxes data 0 data.length true)) walk
        fun (count, box) walk => count ≤ maxAvifBoxesPerContainer ∧
          (box.kind = ascii ['m', 'e', 't', 'a'] ∧ MetaReaches data box walk ∨
            box.kind = ascii ['m', 'o', 'o', 'v'] ∧ MovieReaches data box walk) := by
  apply faults_bind_pure_iff.trans
  exact faults_forEach_iff (streams_avifBoxes le_rfl).enumerate
    fun seen (count, box) walk hbox => faults_containerBox_iff hbox.stop_le

end Faults

theorem exists_ftyp_of_isAvif {data : Bytes} (h : isAvif data) :
    ∃ listed brands, ftyp data = some (listed, brands) := by
  cases hftyp : ftyp data with
  | none =>
      rw [isAvif, hftyp] at h
      cases h
  | some found => exact ⟨found.1, found.2, rfl⟩

theorem answers_containerWalk_iff {data : Bytes} {listed : Nat} {brands : List Bytes}
    (hftyp : ftyp data = some (listed, brands)) (hlisted : listed ≤ maxAvifBrands) :
    Answers (avifContainer data) ↔ ¬ Faults Stop.Faulty (containerWalk data brands) {} := by
  have hwalk : avifContainer data = (do let _ ← (containerWalk data brands).run {}) := by
    rw [avifContainer, hftyp]
    exact if_neg (Nat.not_lt.mpr hlisted)
  rw [hwalk]
  cases hrun : (containerWalk data brands).run {} with
  | ok result => exact iff_of_true (.inl rfl) fun ⟨e, _, he⟩ => by cases hrun.symm.trans he
  | error e =>
      cases e with
      | refused message code =>
          refine iff_of_true (.inr ⟨message, code, rfl⟩) fun ⟨e, hfaulty, he⟩ => ?_
          cases hrun.symm.trans he
          exact hfaulty
      | fault =>
          refine iff_of_false ?_ (not_not_intro ⟨.fault, trivial, hrun⟩)
          rintro (h | ⟨_, _, h⟩) <;> cases h
      | hang =>
          refine iff_of_false ?_ (not_not_intro ⟨.hang, trivial, hrun⟩)
          rintro (h | ⟨_, _, h⟩) <;> cases h

/-- For every file with an AVIF signature, the walk returns or refuses the file just when
it does not come to an `iloc` box of version 2 that the file ends before it can count
the entries of. -/
theorem container_answers_iff (data : Bytes) (h : isAvif data) :
    Answers (avifContainer data) ↔ ¬ ReachesShortLocations data := by
  obtain ⟨listed, brands, hftyp⟩ := exists_ftyp_of_isAvif h
  by_cases hlisted : listed ≤ maxAvifBrands
  · rw [answers_containerWalk_iff hftyp hlisted, faults_containerWalk_iff, not_iff_not]
    constructor
    · exact fun hreaches => ⟨listed, brands, hftyp, hlisted, hreaches⟩
    · rintro ⟨_, _, hfound, -, hreaches⟩
      cases hftyp.symm.trans hfound
      exact hreaches
  · refine iff_of_true (.inr ?_) ?_
    · rw [avifContainer, hftyp]
      exact ⟨_, _, if_pos (Nat.not_le.mp hlisted)⟩
    · rintro ⟨_, _, hfound, hle, -⟩
      cases hftyp.symm.trans hfound
      exact hlisted hle

/-- A file of 44 bytes: an `ftyp` box, and a `meta` box of one `iloc` box of version 2
that is eight bytes long and ends the file. -/
def shortFile : Bytes :=
  [0, 0, 0, 16] ++ ascii ['f', 't', 'y', 'p', 'a', 'v', 'i', 'f'] ++ [0, 0, 0, 0] ++
    [0, 0, 0, 28] ++ ascii ['m', 'e', 't', 'a'] ++ [0, 0, 0, 0] ++
      [0, 0, 0, 16] ++ ascii ['i', 'l', 'o', 'c'] ++ [2, 0, 0, 0, 0x44, 0, 0, 0]

theorem container_faults_on_shortFile :
    isAvif shortFile ∧ avifContainer shortFile = .error .fault ∧
      ¬ Answers (avifContainer shortFile) := by
  have hfault : avifContainer shortFile = .error .fault := by decide
  refine ⟨by decide, hfault, ?_⟩
  rw [hfault]
  rintro (h | ⟨_, _, h⟩) <;> cases h

/-- Two bytes more, of no box, and the walk returns. -/
theorem container_answers_iff_padded : Answers (avifContainer (shortFile ++ [0, 0])) ∧
    (Answers (avifContainer (shortFile ++ [0, 0])) ↔
      ¬ ReachesShortLocations (shortFile ++ [0, 0])) :=
  ⟨.inl (by decide), container_answers_iff (shortFile ++ [0, 0]) (by decide)⟩

end Qontinui.Images
