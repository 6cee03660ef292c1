import Qontinui.Images.AvifContainer
import Qontinui.Images.ExifDirectories

/-!
The walk of a GIF's blocks from `image_sniff.py`, which counts the frames and the canvas
they need and refuses the file past its caps, and a walk of the same blocks that has no
caps: bytes that start no block one at a time, and sub-block by sub-block.
-/

namespace Qontinui.Images

open FallibleLoops

def maxGifExtensionsPerFrame : Nat := 64
def maxGifBlocks : Nat := 8 * maxFrames
def maxGifCommentSubBlocksPerFrame : Nat := 256
def maxGifSubBlocks : Nat := 1 <<< 18
def maxGifStrayBytesBeforeFirstFrame : Nat := 256

/-- `_StructureRefused`, where the condition holds. -/
def refuseWhen (c : Prop) [Decidable c] (message code : String) : Except Stop Unit :=
  if c then throw (.refused message code) else return ()

def imageUnreadable : String := "image_unreadable"

/-- `_GIF_BLOCK_START`: the bytes an extension, an image descriptor or the trailer starts
with. -/
def startsBlock (byte : UInt8) : Bool := byte = 0x21 ∨ byte = 0x2C ∨ byte = 0x3B

/-- `_GIF_BLOCK_START.search(data, pos)`. -/
def gifBlockStart (data : Bytes) (pos : Nat) : Option Nat :=
  ((data.drop pos).findIdx? startsBlock).map fun skipped => pos + skipped

def colorTableBytes (flags : Nat) : Nat :=
  if flags &&& 0x80 ≠ 0 then 3 <<< ((flags &&& 7) + 1) else 0

structure GifWalk where
  pos : Nat
  width : Nat
  height : Nat
  subBlocks : Nat := 0
  frames : Nat := 0
  blocks : Nat := 0
  extensions : Nat := 0
  commentPieces : Nat := 0
  stray : Int := 0
deriving DecidableEq, Repr

section Walk

variable (data : Bytes)

/-- The loop of `past_sub_blocks`, with `subBlocks` held before it. Each turn of it takes
a byte, so a fuel of more than the bytes that are left is never used up. -/
def pastSubBlocksFrom (subBlocks : Nat) (budget : Option Nat) :
    Nat → Nat → Nat → Except Stop (Nat × Nat)
  | 0, _, _ => throw .hang
  | fuel + 1, pos, pieces =>
      if pos < data.length then do
        let size ← unpack data pos 1
        let pos := pos + (1 + size)
        if size = 0 then return (pos, pieces)
        else
          let pieces := pieces + 1
          refuseWhen (∃ most ∈ budget, most < pieces)
            s!"a GIF frame's comments hold more than {maxGifCommentSubBlocksPerFrame} sub-blocks"
            "image_too_many_comment_sub_blocks"
          refuseWhen (maxGifSubBlocks < subBlocks + pieces)
            s!"a GIF holds more than {maxGifSubBlocks} data sub-blocks"
            "image_too_many_sub_blocks"
          pastSubBlocksFrom subBlocks budget fuel pos pieces
      else return (pos, pieces)

/-- The walk past the sub-blocks at its position, and how many held data. -/
def pastSubBlocks (walk : GifWalk) (budget : Option Nat) : Except Stop (GifWalk × Nat) := do
  let (pos, pieces) ←
    pastSubBlocksFrom data walk.subBlocks budget (data.length - walk.pos + 1) walk.pos 0
  return ({ walk with pos := pos, subBlocks := walk.subBlocks + pieces }, pieces)

def netscape : Bytes := ascii ['N', 'E', 'T', 'S', 'C', 'A', 'P', 'E', '2', '.', '0']

/-- What Pillow's walk would raise for, or lose its place at, in the extension of the
label whose first sub-block is at `pos` and holds `size` bytes. -/
def checkFirstSubBlock (label frames pos size : Nat) : Except Stop Unit := do
  let block := slice data (pos + 1) (pos + 1 + size)
  let after := pos + 1 + size
  refuseWhen (label ≠ 0xFE ∧ size = 0) "a GIF extension has an empty first sub-block"
    imageUnreadable
  refuseWhen (label = 0xF9 ∧ size ≠ 0 ∧ (block.length < 3 ∨
      (block.getD 0 0).toNat &&& 1 ≠ 0 ∧ block.length < 4))
    "a GIF graphic control block is too short" imageUnreadable
  refuseWhen (label = 0xFF ∧ frames = 0 ∧ size ≠ 0 ∧ netscape <+: block ∧
      after < data.length ∧ data.getD after 0 = 0)
    "a GIF NETSCAPE2.0 block is cut short" imageUnreadable

/-- The checks of an extension's first sub-block, where the data does not end before it. -/
def checkExtension (label frames pos : Nat) : Except Stop Unit :=
  if pos < data.length then do checkFirstSubBlock data label frames pos (← unpack data pos 1)
  else return ()

def gifExtension (walk : GifWalk) : Except Stop GifWalk := do
  let walk := { walk with extensions := walk.extensions + 1 }
  refuseWhen (maxGifExtensionsPerFrame < walk.extensions)
    s!"a GIF frame is preceded by more than {maxGifExtensionsPerFrame} extension blocks"
    "image_too_many_extensions"
  refuseWhen (data.length ≤ walk.pos) "a GIF extension is cut off before its label"
    imageUnreadable
  let label ← unpack data walk.pos 1
  let walk := { walk with pos := walk.pos + 1 }
  checkExtension data label walk.frames walk.pos
  if label = 0xFE then
    let (walk, pieces) ←
      pastSubBlocks data walk (some (maxGifCommentSubBlocksPerFrame - walk.commentPieces))
    return { walk with commentPieces := walk.commentPieces + pieces }
  else
    let (walk, _) ← pastSubBlocks data walk none
    return walk

/-- The image descriptor of a frame, which ends in its flags. -/
structure GifDescriptor where
  left : Nat
  top : Nat
  width : Nat
  height : Nat
  flags : Nat
deriving DecidableEq, Repr

/-- `struct.unpack_from("<HHHHB", data, pos)`. -/
def unpackDescriptor (pos : Nat) : Except Stop GifDescriptor := do
  let left ← unpackNumber .little data pos 2
  let top ← unpackNumber .little data (pos + 2) 2
  let width ← unpackNumber .little data (pos + 4) 2
  let height ← unpackNumber .little data (pos + 6) 2
  let flags ← unpack data (pos + 8) 1
  return { left, top, width, height, flags }

def gifFrame (walk : GifWalk) : Except Stop GifWalk := do
  refuseWhen (data.length < walk.pos + 9) "a GIF image descriptor is cut off" imageUnreadable
  let frame ← unpackDescriptor data walk.pos
  let walk := { walk with
    width := max walk.width (frame.left + frame.width)
    height := max walk.height (frame.top + frame.height)
    frames := walk.frames + 1
    extensions := 0
    commentPieces := 0
    pos := walk.pos + 9 + colorTableBytes frame.flags }
  refuseWhen (data.length ≤ walk.pos) "a GIF frame is cut off before its LZW code size"
    imageUnreadable
  let (walk, _) ← pastSubBlocks data { walk with pos := walk.pos + 1 } none
  return walk

/-- The bytes that start no block, up to `start`, count before the first frame. -/
def countStray (walk : GifWalk) (start : Nat) : Except Stop GifWalk :=
  if walk.frames = 0 then do
    let stray := walk.stray + (start - walk.pos : Int)
    refuseWhen (maxGifStrayBytesBeforeFirstFrame < stray)
      s!"a GIF holds more than {
        maxGifStrayBytesBeforeFirstFrame} bytes before its first frame that start no block"
      "image_too_many_stray_bytes"
    return { walk with stray := stray }
  else return walk

/-- The body of the walk's loop, which leaves it at the trailer and where no block starts. -/
def gifBlock (walk : GifWalk) : Except Stop (ForInStep GifWalk) := do
  let found := gifBlockStart data walk.pos
  let walk ← countStray walk (found.getD data.length)
  match found with
  | none => return .done walk
  | some start =>
      let introducer ← unpack data start 1
      let walk := { walk with pos := start + 1 }
      if introducer = 0x3B then return .done walk
      else
        let walk := { walk with blocks := walk.blocks + 1 }
        refuseWhen (maxGifBlocks < walk.blocks) s!"a GIF holds more than {maxGifBlocks} blocks"
          "image_too_many_blocks"
        if introducer = 0x21 then return .yield (← gifExtension data walk)
        else return .yield (← gifFrame data walk)

/-- The walk's loop. Each turn of it takes the byte a block starts with, so a fuel of more
than the bytes that are left is never used up. -/
def gifBlocks (stopAfter : Nat) : Nat → GifWalk → Except Stop GifWalk
  | 0, _ => throw .hang
  | fuel + 1, walk =>
      if walk.frames < stopAfter then do
        match ← gifBlock data walk with
        | .done walk => return walk
        | .yield walk => gifBlocks stopAfter fuel walk
      else return walk

def gifStructure (stopAfter : Nat) : Except Stop (Nat × Nat × Nat) := do
  refuseWhen (data.length < 13) "the GIF logical screen descriptor is cut off" imageUnreadable
  let width ← unpackNumber .little data 6 2
  let height ← unpackNumber .little data 8 2
  let flags ← unpack data 10 1
  let walk ← gifBlocks data stopAfter (data.length + 1)
    { pos := 13 + colorTableBytes flags, width, height }
  return (walk.frames, walk.width, walk.height)

end Walk

/-- Past the sub-blocks at `pos`, however many there are. -/
def subBlocksEnd (data : Bytes) (pos : Nat) : Nat :=
  if _h : data.length ≤ pos then pos
  else if data.getD pos 0 = 0 then pos + 1
  else subBlocksEnd data (pos + 1 + (data.getD pos 0).toNat)
termination_by data.length - pos

/-- The image descriptor at `pos`. -/
def descriptorAt (data : Bytes) (pos : Nat) : GifDescriptor where
  left := Endian.little.number (slice data pos (pos + 2))
  top := Endian.little.number (slice data (pos + 2) (pos + 4))
  width := Endian.little.number (slice data (pos + 4) (pos + 6))
  height := Endian.little.number (slice data (pos + 6) (pos + 8))
  flags := (data.getD (pos + 8) 0).toNat

theorem le_subBlocksEnd (data : Bytes) (pos : Nat) : pos ≤ subBlocksEnd data pos := by
  induction pos using subBlocksEnd.induct data with
  | case1 pos h => rw [subBlocksEnd, dif_pos h]
  | case2 pos h hzero =>
      rw [subBlocksEnd, dif_neg h, if_pos hzero]
      omega
  | case3 pos h hsize ih =>
      rw [subBlocksEnd, dif_neg h, if_neg hsize]
      omega

/-- The image descriptors of the blocks from `pos`, to the trailer or the end; one that is
cut off is the end. -/
def gifDescriptors (data : Bytes) (pos : Nat) : List GifDescriptor :=
  if data.length ≤ pos then []
  else if data.getD pos 0 = 0x3B then []
  else if data.getD pos 0 = 0x21 then gifDescriptors data (subBlocksEnd data (pos + 2))
  else if data.getD pos 0 = 0x2C then
    if data.length < pos + 10 then []
    else
      let frame := descriptorAt data (pos + 1)
      frame :: gifDescriptors data
        (subBlocksEnd data (pos + 10 + colorTableBytes frame.flags + 1))
  else gifDescriptors data (pos + 1)
termination_by data.length - pos
decreasing_by
  · have hle := le_subBlocksEnd data (pos + 2)
    omega
  · have hle := le_subBlocksEnd data 
      (pos + 10 + colorTableBytes (descriptorAt data (pos + 1)).flags + 1)
    omega
  · omega

/-- The canvas grown to cover the frame's extent. -/
def growCanvas (canvas : Nat × Nat) (frame : GifDescriptor) : Nat × Nat :=
  (max canvas.1 (frame.left + frame.width), max canvas.2 (frame.top + frame.height))

/-- The frames of the file, up to `stopAfter` of them, and the canvas they need. -/
def gifReference (data : Bytes) (stopAfter : Nat) : Nat × Nat × Nat :=
  let screen := (Endian.little.number (slice data 6 8), Endian.little.number (slice data 8 10))
  let flags := (data.getD 10 0).toNat
  let frames := (gifDescriptors data (13 + colorTableBytes flags)).take stopAfter
  (frames.length, frames.foldl growCanvas screen)

theorem clean_refuseWhen {c : Prop} [Decidable c] (message code : String) :
    Clean Stop.Faulty (refuseWhen c message code) fun _ => ¬ c :=
  Clean.ite (fun _ => clean_refused message code) fun hnot => Clean.pure hnot

section Blocks

variable {data : Bytes} {pos : Nat}

theorem clean_byte (h : pos < data.length) :
    Clean Stop.Faulty (unpack data pos 1) (· = (data.getD pos 0).toNat) :=
  Clean.of_eq_ok (byte_unpack h) rfl

theorem clean_number {width : Nat} (h : pos + width ≤ data.length) :
    Clean Stop.Faulty (unpackNumber .little data pos width)
      (· = Endian.little.number (slice data pos (pos + width))) :=
  Clean.of_eq_ok (unpackNumber_eq_ok h) rfl

theorem toNat_eq_zero_iff {byte : UInt8} : byte.toNat = 0 ↔ byte = 0 := by
  rw [← UInt8.toNat_inj]
  rfl

theorem clean_pastSubBlocksFrom {subBlocks fuel pieces : Nat} {budget : Option Nat}
    (hfuel : 0 < fuel) (hleft : data.length < pos + fuel) :
    Clean Stop.Faulty (pastSubBlocksFrom data subBlocks budget fuel pos pieces)
      fun past => past.1 = subBlocksEnd data pos := by
  induction fuel generalizing pos pieces with
  | zero => cases hfuel
  | succ fuel ih =>
      refine Clean.ite (fun hpos => ?_) fun hend => ?_
      · refine (clean_byte hpos).bind fun size hsize => ?_
        refine Clean.ite (fun hzero => Clean.pure ?_) fun hdata => ?_
        · rw [subBlocksEnd, dif_neg (by omega), if_pos (toNat_eq_zero_iff.mp (hsize ▸ hzero)),
            hzero]
        · refine (clean_refuseWhen _ _).bind fun _ _ => (clean_refuseWhen _ _).bind fun _ _ => ?_
          have hbyte : data.getD pos 0 ≠ 0 := fun h => hdata (hsize.trans (toNat_eq_zero_iff.mpr h))
          rw [subBlocksEnd, dif_neg (by omega), if_neg hbyte, ← hsize, Nat.add_assoc]
          exact ih (by omega) (by omega)
      · rw [subBlocksEnd, dif_pos (by omega)]
        exact Clean.pure rfl

/-- The walk's frames and canvas are as they were. -/
structure GifWalk.SameTally (walk walk' : GifWalk) : Prop where
  frames : walk'.frames = walk.frames
  width : walk'.width = walk.width
  height : walk'.height = walk.height

def GifWalk.canvas (walk : GifWalk) : Nat × Nat := (walk.width, walk.height)

theorem GifWalk.SameTally.canvas {walk walk' : GifWalk} (h : walk.SameTally walk') :
    walk'.canvas = walk.canvas := by
  rw [GifWalk.canvas, h.width, h.height, GifWalk.canvas]

theorem clean_pastSubBlocks (walk : GifWalk) (budget : Option Nat) :
    Clean Stop.Faulty (pastSubBlocks data walk budget) fun past =>
      past.1.pos = subBlocksEnd data walk.pos ∧ walk.SameTally past.1 :=
  (clean_pastSubBlocksFrom (Nat.succ_pos _) (by omega)).bind fun _ hpast =>
    Clean.pure ⟨hpast, rfl, rfl, rfl⟩

theorem clean_checkExtension (label frames pos : Nat) :
    Clean Stop.Faulty (checkExtension data label frames pos) fun _ => True := by
  refine Clean.ite (fun hpos => ?_) fun _ => Clean.pure trivial
  refine (clean_byte hpos).bind fun size _ => ?_
  refine (clean_refuseWhen _ _).bind fun _ _ => (clean_refuseWhen _ _).bind fun _ _ => ?_
  exact (clean_refuseWhen _ _).mono fun _ _ => trivial

theorem clean_gifExtension (walk : GifWalk) :
    Clean Stop.Faulty (gifExtension data walk) fun walk' =>
      walk'.pos = subBlocksEnd data (walk.pos + 1) ∧ walk.SameTally walk' := by
  refine (clean_refuseWhen _ _).bind fun _ _ => (clean_refuseWhen _ _).bind fun _ hpos => ?_
  refine (clean_byte (Nat.not_le.mp hpos)).bind fun label _ => ?_
  refine (clean_checkExtension _ _ _).bind fun _ _ => ?_
  refine Clean.ite (fun _ => ?_) fun _ => ?_
  all_goals
    refine (clean_pastSubBlocks _ _).bind fun past hpast => Clean.pure ?_
    exact ⟨hpast.1, hpast.2.frames, hpast.2.width, hpast.2.height⟩

theorem clean_unpackDescriptor (h : pos + 9 ≤ data.length) :
    Clean Stop.Faulty (unpackDescriptor data pos) (· = descriptorAt data pos) := by
  refine (clean_number (by omega)).bind fun left hleft => ?_
  refine (clean_number (by omega)).bind fun top htop => ?_
  refine (clean_number (by omega)).bind fun width hwidth => ?_
  refine (clean_number (by omega)).bind fun height hheight => ?_
  refine (clean_byte (by omega)).bind fun flags hflags => Clean.pure ?_
  rw [hleft, htop, hwidth, hheight, hflags]
  rfl

/-- The walk has counted one more frame, and its canvas covers the frame's extent. -/
structure GifWalk.Counts (walk : GifWalk) (frame : GifDescriptor) (walk' : GifWalk) : Prop where
  frames : walk'.frames = walk.frames + 1
  canvas : walk'.canvas = growCanvas walk.canvas frame

theorem clean_gifFrame (walk : GifWalk) :
    Clean Stop.Faulty (gifFrame data walk) fun walk' =>
      walk.pos + 9 ≤ data.length ∧
        walk'.pos = subBlocksEnd data
          (walk.pos + 9 + colorTableBytes (descriptorAt data walk.pos).flags + 1) ∧
        walk.Counts (descriptorAt data walk.pos) walk' := by
  refine (clean_refuseWhen _ _).bind fun _ hpos => ?_
  have hinside : walk.pos + 9 ≤ data.length := Nat.not_lt.mp hpos
  refine (clean_unpackDescriptor hinside).bind fun frame hframe => ?_
  refine (clean_refuseWhen _ _).bind fun _ _ => ?_
  refine (clean_pastSubBlocks _ _).bind fun past hpast => Clean.pure ?_
  obtain ⟨hend, hframes, hwidth, hheight⟩ := hpast
  rw [← hframe]
  exact ⟨hinside, hend, hframes, Prod.ext hwidth hheight⟩

theorem gifBlockStart_of_end (h : data.length ≤ pos) : gifBlockStart data pos = none := by
  rw [gifBlockStart, List.drop_eq_nil_of_le h]
  rfl

theorem gifBlockStart_of_inside (h : pos < data.length) :
    gifBlockStart data pos =
      if startsBlock (data.getD pos 0) then some pos else gifBlockStart data (pos + 1) := by
  rw [gifBlockStart, gifBlockStart, List.drop_eq_getElem_cons h, List.findIdx?_cons,
    List.getD_eq_getElem?_getD, List.getElem?_eq_getElem h, Option.getD_some]
  split
  · rfl
  · cases List.findIdx? startsBlock (data.drop (pos + 1)) with
    | none => rfl
    | some skipped =>
        simp only [Option.map_some, Option.some.injEq]
        omega

theorem gifDescriptors_of_end (h : data.length ≤ pos) : gifDescriptors data pos = [] := by
  rw [gifDescriptors, if_pos h]

theorem gifDescriptors_of_stray (h : pos < data.length)
    (hstray : ¬ startsBlock (data.getD pos 0)) :
    gifDescriptors data pos = gifDescriptors data (pos + 1) := by
  simp only [startsBlock, decide_eq_true_eq, not_or] at hstray
  obtain ⟨hextension, himage, htrailer⟩ := hstray
  rw [gifDescriptors, if_neg (by omega), if_neg htrailer, if_neg hextension, if_neg himage]

theorem gifDescriptors_of_trailer (h : pos < data.length) (hbyte : data.getD pos 0 = 0x3B) :
    gifDescriptors data pos = [] := by
  rw [gifDescriptors, if_neg (by omega), if_pos hbyte]

theorem gifDescriptors_of_extension (h : pos < data.length) (hbyte : data.getD pos 0 = 0x21) :
    gifDescriptors data pos = gifDescriptors data (subBlocksEnd data (pos + 2)) := by
  rw [gifDescriptors, if_neg (by omega), hbyte]
  rfl

theorem gifDescriptors_of_image (h : pos + 10 ≤ data.length) (hbyte : data.getD pos 0 = 0x2C) :
    gifDescriptors data pos = descriptorAt data (pos + 1) :: gifDescriptors data
      (subBlocksEnd data (pos + 10 + colorTableBytes (descriptorAt data (pos + 1)).flags + 1)) := by
  rw [gifDescriptors, if_neg (by omega), if_neg (by rw [hbyte]; decide),
    if_neg (by rw [hbyte]; decide), if_pos hbyte, if_neg (by omega)]

theorem gifBlockStart_spec (data : Bytes) (pos : Nat) :
    (gifBlockStart data pos = none ∧ gifDescriptors data pos = []) ∨
      ∃ start, gifBlockStart data pos = some start ∧ pos ≤ start ∧ start < data.length ∧
        startsBlock (data.getD start 0) ∧
        gifDescriptors data pos = gifDescriptors data start := by
  induction hleft : data.length - pos generalizing pos with
  | zero =>
      have hend : data.length ≤ pos := by omega
      exact .inl ⟨gifBlockStart_of_end hend, gifDescriptors_of_end hend⟩
  | succ left ih =>
      have hpos : pos < data.length := by omega
      rw [gifBlockStart_of_inside hpos]
      by_cases hstarts : startsBlock (data.getD pos 0)
      · rw [if_pos hstarts]
        exact .inr ⟨pos, rfl, Nat.le_refl pos, hpos, hstarts, rfl⟩
      · rw [if_neg hstarts, gifDescriptors_of_stray hpos hstarts]
        rcases ih (pos + 1) (by omega) with hnone | ⟨start, hfound, hle, hstart⟩
        · exact .inl hnone
        · exact .inr ⟨start, hfound, by omega, hstart⟩

theorem clean_countStray (walk : GifWalk) (start : Nat) :
    Clean Stop.Faulty (countStray walk start) fun walk' =>
      walk'.pos = walk.pos ∧ walk.SameTally walk' :=
  Clean.ite (fun _ => (clean_refuseWhen _ _).bind fun _ _ => Clean.pure ⟨rfl, rfl, rfl, rfl⟩)
    fun _ => Clean.pure ⟨rfl, rfl, rfl, rfl⟩

/-- What one turn of the loop does: it ends at the last block, or goes past an extension,
or past a frame that it counts. -/
inductive Covers (data : Bytes) (walk : GifWalk) : ForInStep GifWalk → Prop
  | ends {walk' : GifWalk} (hlast : gifDescriptors data walk.pos = [])
      (hsame : walk.SameTally walk') : Covers data walk (.done walk')
  | extension {walk' : GifWalk} (hinside : walk.pos < data.length) (hpos : walk.pos < walk'.pos)
      (hrest : gifDescriptors data walk.pos = gifDescriptors data walk'.pos)
      (hsame : walk.SameTally walk') : Covers data walk (.yield walk')
  | frame {walk' : GifWalk} {frame : GifDescriptor} (hinside : walk.pos < data.length)
      (hpos : walk.pos < walk'.pos)
      (hrest : gifDescriptors data walk.pos = frame :: gifDescriptors data walk'.pos)
      (hcounts : walk.Counts frame walk') : Covers data walk (.yield walk')

theorem clean_gifBlock (walk : GifWalk) :
    Clean Stop.Faulty (gifBlock data walk) (Covers data walk) := by
  rcases gifBlockStart_spec data walk.pos with ⟨hnone, hlast⟩ |
    ⟨start, hfound, hle, hstart, hstarts, hrest⟩
  · rw [gifBlock, hnone]
    exact (clean_countStray walk _).bind fun walk' hwalk => Clean.pure (.ends hlast hwalk.2)
  · rw [gifBlock, hfound]
    refine (clean_countStray walk _).bind fun counted hcounted => ?_
    obtain ⟨-, hframes, hwidth, hheight⟩ := hcounted
    refine (clean_byte hstart).bind fun introducer hbyte => ?_
    refine Clean.ite (fun htrailer => Clean.pure ?_) fun hblock => ?_
    · have hlast : data.getD start 0 = 0x3B := UInt8.toNat_inj.mp (hbyte.symm.trans htrailer)
      exact .ends (hrest.trans (gifDescriptors_of_trailer hstart hlast)) ⟨hframes, hwidth, hheight⟩
    · refine (clean_refuseWhen _ _).bind fun _ _ => ?_
      refine Clean.ite (fun hextension => ?_) fun himage => ?_
      · have hbyte : data.getD start 0 = 0x21 := UInt8.toNat_inj.mp (hbyte.symm.trans hextension)
        refine (clean_gifExtension _).bind fun walk' hwalk => Clean.pure ?_
        obtain ⟨hend, hframes', hwidth', hheight'⟩ := hwalk
        have hend : walk'.pos = subBlocksEnd data (start + 2) := hend
        have hpast := le_subBlocksEnd data (start + 2)
        refine .extension (by omega) (by omega) ?_
          ⟨hframes'.trans hframes, hwidth'.trans hwidth, hheight'.trans hheight⟩
        rw [hrest, gifDescriptors_of_extension hstart hbyte, hend]
      · have himage : data.getD start 0 = 0x2C := by
          simp only [startsBlock, decide_eq_true_eq] at hstarts
          rw [hbyte] at hblock himage
          rcases hstarts with h | h | h
          · exact absurd (congrArg UInt8.toNat h) himage
          · exact h
          · exact absurd (congrArg UInt8.toNat h) hblock
        refine (clean_gifFrame _).bind fun walk' hwalk => Clean.pure ?_
        obtain ⟨hinside, hend, hframes', hcanvas'⟩ := hwalk
        have hinside : start + 1 + 9 ≤ data.length := hinside
        have hend : walk'.pos = subBlocksEnd data
          (start + 10 + colorTableBytes (descriptorAt data (start + 1)).flags + 1) := hend
        have hpast := le_subBlocksEnd data
          (start + 10 + colorTableBytes (descriptorAt data (start + 1)).flags + 1)
        have hcanvas : (counted.width, counted.height) = walk.canvas := Prod.ext hwidth hheight
        refine @Covers.frame _ _ _ (descriptorAt data (start + 1)) (by omega) (by omega) ?_
          ⟨hframes'.trans (congrArg (· + 1) hframes), hcanvas'.trans ?_⟩
        · rw [hrest, gifDescriptors_of_image (by omega) himage, hend]
        · exact congrArg (growCanvas · _) hcanvas

theorem clean_gifBlocks {stopAfter fuel : Nat} {walk : GifWalk} (hfuel : 0 < fuel)
    (hleft : data.length < walk.pos + fuel) :
    Clean Stop.Faulty (gifBlocks data stopAfter fuel walk) fun last =>
      last.frames = walk.frames +
          ((gifDescriptors data walk.pos).take (stopAfter - walk.frames)).length ∧
        last.canvas = ((gifDescriptors data walk.pos).take (stopAfter - walk.frames)).foldl
          growCanvas walk.canvas := by
  induction fuel generalizing walk with
  | zero => cases hfuel
  | succ fuel ih =>
      refine Clean.ite (fun hmore => ?_) fun hstop => ?_
      · refine (clean_gifBlock walk).bind fun step hcovers => ?_
        cases hcovers with
        | ends hlast hsame =>
            rw [hlast, List.take_nil]
            exact Clean.pure ⟨hsame.frames, hsame.canvas⟩
        | extension hinside hpos hrest hsame =>
            rw [hrest, ← hsame.frames, ← hsame.canvas]
            exact ih (by omega) (by omega)
        | frame hinside hpos hrest hcounts =>
            have hframes := hcounts.frames
            have htake : stopAfter - walk.frames = stopAfter - (walk.frames + 1) + 1 := by omega
            rw [hrest, htake, ← hframes, List.take_succ_cons, List.length_cons, List.foldl_cons,
              ← hcounts.canvas]
            refine (ih (by omega) (by omega)).mono fun last hlast => ⟨?_, hlast.2⟩
            rw [hlast.1]
            omega
      · have hnone : stopAfter - walk.frames = 0 := by omega
        rw [hnone, List.take_zero]
        exact Clean.pure ⟨rfl, rfl⟩

end Blocks

/-- For every byte string and every bound on the frames, the walk refuses the file and
nothing else, or its frames and its canvas are those of the walk that has no caps. -/
theorem gif_walk_counts (data : Bytes) (stopAfter : Nat) :
    (∃ message code, gifStructure data stopAfter = .error (.refused message code)) ∨
      gifStructure data stopAfter = .ok (gifReference data stopAfter) := by
  have hclean : Clean Stop.Faulty (gifStructure data stopAfter)
      (· = gifReference data stopAfter) := by
    refine (clean_refuseWhen _ _).bind fun _ hlong => ?_
    refine (clean_number (by omega)).bind fun width hwidth => ?_
    refine (clean_number (by omega)).bind fun height hheight => ?_
    refine (clean_byte (by omega)).bind fun flags hflags => ?_
    refine (clean_gifBlocks (Nat.succ_pos _) (by dsimp only; omega)).bind fun walk hwalk => ?_
    subst hwidth hheight hflags
    obtain ⟨hframes, hcanvas⟩ := hwalk
    refine Clean.pure (Prod.ext ?_ hcanvas)
    exact hframes.trans (Nat.zero_add _)
  rcases Settles.of_clean hclean with ⟨value, hvalue⟩ | hrefused
  · exact .inr (hvalue.trans (congrArg Except.ok (hclean.2 value hvalue)))
  · exact .inl hrefused

end Qontinui.Images
