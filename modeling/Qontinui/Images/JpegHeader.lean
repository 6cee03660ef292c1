import Qontinui.Images.ExifDirectories

/-!
The walk of a JPEG's header from `image_sniff.py`, which matches what lies between two
markers with one bounded call of a regular expression, and a parser that goes over the
same bytes one at a time. Which markers are known, and which of them carry a length, is
Pillow's table.
-/

namespace Qontinui.Images

open FallibleLoops

def maxJpegSegments : Nat := 1024
def maxJpegFrameHeaders : Nat := 4
def maxJpegQuantizationSegments : Nat := 8
def maxDqtLength : Nat := 2 + 4 * (1 + 2 * 64)
def maxJpegPhotoshopBytes : Nat := 256 * 1024
def maxJpegExifSegments : Nat := 8
def maxJpegStrayBytes : Nat := 64 * 1024

/-- `_JPEG_SOS`. -/
def jpegSos : Nat := 0xFFDA

/-- `_PILLOW_JPEG_DECODED_TAGS`. -/
def pillowJpegDecodedTags : List Nat := [0x0128, 0x011A]

def photoshopHeader : Bytes :=
  ascii ['P', 'h', 'o', 't', 'o', 's', 'h', 'o', 'p', ' ', '3', '.', '0'] ++ [0]

def mpfHeader : Bytes := ascii ['M', 'P', 'F'] ++ [0]

/-- The handlers of `JpegImagePlugin` that the walk tells apart. -/
inductive SegmentHandler
  | sof
  | dqt
  | app
  | other
deriving DecidableEq, Repr

/-- `JpegImagePlugin.MARKER`: the known markers, and the handler of those that carry a
length. -/
abbrev MarkerTable := Nat → Option (Option SegmentHandler)

structure JpegHeaderSegments where
  frameHeaders : Nat := 0
  quantizationSegments : Nat := 0
  photoshopBytes : Nat := 0
  exif : List Bytes := []
  mpIndex : Option Bytes := none
deriving DecidableEq, Repr

namespace JpegHeaderSegments

def components (data : Bytes) (start stop : Nat) : Except Stop Nat :=
  if 5 < stop - start then unpack data (start + 5) 1 else return 0

def sof (parsed : JpegHeaderSegments) (length : Nat) (data : Bytes) (start stop : Nat) :
    Except Stop JpegHeaderSegments := do
  let frameHeaders := parsed.frameHeaders + 1
  if maxJpegFrameHeaders < frameHeaders then
    throw (.refused s!"a JPEG header holds more than {
      maxJpegFrameHeaders} frame headers before its image data" "image_too_many_frame_headers")
  else
    let components ← components data start stop
    if components ∉ [1, 3, 4] ∨ length ≠ 8 + 3 * components then
      throw (.refused
        "a JPEG frame header is not 8 + 3 bytes per component long, for 1, 3 or 4 components"
        "image_frame_header_invalid")
    else return { parsed with frameHeaders := frameHeaders }

def dqt (parsed : JpegHeaderSegments) (length : Nat) : Except Stop JpegHeaderSegments :=
  let quantizationSegments := parsed.quantizationSegments + 1
  if maxJpegQuantizationSegments < quantizationSegments then
    throw (.refused s!"a JPEG header holds more than {
      maxJpegQuantizationSegments} quantization-table segments"
      "image_too_many_quantization_segments")
  else if maxDqtLength < length then
    throw (.refused "a JPEG quantization-table segment holds more than four tables"
      "image_quantization_segment_too_long")
  else return { parsed with quantizationSegments := quantizationSegments }

def app (parsed : JpegHeaderSegments) (marker : Nat) (data : Bytes) (start stop : Nat) :
    Except Stop JpegHeaderSegments :=
  let body := slice data start stop
  if marker = 0xFFE1 ∧ exifHeader <+: body then
    if parsed.exif.length = maxJpegExifSegments then
      throw (.refused s!"a JPEG header holds more than {maxJpegExifSegments} EXIF segments"
        "image_too_many_exif_segments")
    else
      -- Pillow keeps the first whole and joins each later one's body
      let skip := if parsed.exif ≠ [] then exifHeader.length else 0
      return { parsed with exif := parsed.exif ++ [slice data (start + skip) stop] }
  else if marker = 0xFFED ∧ photoshopHeader <+: body then
    let photoshopBytes := parsed.photoshopBytes + (stop - start)
    if maxJpegPhotoshopBytes < photoshopBytes then
      throw (.refused s!"a JPEG header holds more than {
        maxJpegPhotoshopBytes} bytes of Photoshop resources" "image_too_much_photoshop_metadata")
    else return { parsed with photoshopBytes := photoshopBytes }
  else if marker = 0xFFE2 ∧ mpfHeader <+: body then
    return { parsed with mpIndex := some (slice data (start + 4) stop) }
  else return parsed

def segment (markers : MarkerTable) (data : Bytes) (parsed : JpegHeaderSegments)
    (marker length start stop : Nat) : Except Stop JpegHeaderSegments :=
  match markers marker with
  | none => throw .fault
  | some none => return parsed
  | some (some .sof) => parsed.sof length data start stop
  | some (some .dqt) => parsed.dqt length
  | some (some .app) => parsed.app marker data start stop
  | some (some .other) => return parsed

def finishExif (tables : TiffTables) (parsed : JpegHeaderSegments) : Except Stop Unit :=
  if parsed.exif = [] then return ()
  else do
    let directory ← exifDirectory tables parsed.exif.flatten
    let entries := (directory.map Prod.snd).getD []
    if ∃ entry ∈ entries, entry.tag ∈ pillowJpegDecodedTags ∧ entry.count ≠ 1 then
      throw (.refused "its EXIF resolution is not one value" "image_exif_resolution_invalid")
    else return ()

/-- At the SOS: the blocks Pillow's open reads with its TIFF reader. -/
def finish (tables : TiffTables) (parsed : JpegHeaderSegments) : Except Stop Unit := do
  parsed.finishExif tables
  match parsed.mpIndex with
  | none => return ()
  | some index =>
      let _ ← tiffFirstDirectory tables index "multi-picture index" "image_mp_index"

end JpegHeaderSegments

/-- One turn of `_JPEG_SKIPPED` at `pos`, in data that ends at `stop`, and how many bytes
it takes: any byte but 0xFF, a stuffed 0xFF00, or an 0xFF before another. -/
def skippedTurn (data : Bytes) (stop pos : Nat) : Option Nat :=
  if stop ≤ pos then none
  else if data.getD pos 0 ≠ 0xFF then some 1
  else if stop ≤ pos + 1 then none
  else if data.getD (pos + 1) 0 = 0 then some 2
  else if data.getD (pos + 1) 0 = 0xFF then some 1
  else none

theorem skippedTurn_bounds {data : Bytes} {stop pos n : Nat}
    (h : skippedTurn data stop pos = some n) : 0 < n ∧ pos + n ≤ stop := by
  unfold skippedTurn at h
  split at h
  · cases h
  · split at h
    · cases h
      omega
    · split at h
      · cases h
      · split at h
        · cases h
          omega
        · split at h
          · cases h
            omega
          · cases h

/-- Where the match of `_JPEG_SKIPPED` at `pos` ends: it takes every turn it can. -/
def skippedEnd (data : Bytes) (stop pos : Nat) : Nat :=
  match _h : skippedTurn data stop pos with
  | none => pos
  | some n => skippedEnd data stop (pos + n)
termination_by stop - pos
decreasing_by
  have hbounds := skippedTurn_bounds _h
  omega

/-- `_JPEG_SKIPPED.match(data, pos, stop)`, which finds nothing where it would end before
it starts. -/
def jpegSkipped (data : Bytes) (pos stop : Nat) : Option Nat :=
  if stop < pos then none else some (skippedEnd data stop pos)

def tooManyStrayBytes : Stop :=
  .refused s!"a JPEG header holds more than {maxJpegStrayBytes} fill or stray bytes"
    "image_too_many_stray_bytes"

def tooManySegments : Stop :=
  .refused s!"a JPEG header holds more than {maxJpegSegments} markers before its image data"
    "image_too_many_segments"

section Walk

variable (tables : TiffTables) (markers : MarkerTable) (data : Bytes) (stop : Nat)

def cutMidRun (pos : Nat) : Except Stop Bool :=
  if pos + 1 < stop then return (← unpack data (pos + 1) 1) ∈ [0x00, 0xFF] else return false

/-- What follows a marker: where it ends and what the segments hold then, or nothing
where it is cut off. A marker whose handler is nothing stands alone. -/
def headerSegment (handler : Option SegmentHandler) (marker pos : Nat)
    (parsed : JpegHeaderSegments) : Except Stop (Option (Nat × JpegHeaderSegments)) :=
  match handler with
  | none => return some (pos, parsed)
  | some _ =>
      if stop < pos + 2 then return none
      else do
        let length ← unpack data pos 2
        let body := pos + 2
        let pos := body + (length - 2)
        if stop < pos then return none
        else
          let parsed ← parsed.segment markers data marker length body pos
          return some (pos, parsed)

/-- The marker at `pos` and what follows it; `go` is the loop's next turn, from past it. -/
def headerMarker (go : Nat → Nat → JpegHeaderSegments → Except Stop (Option Nat))
    (pos segments : Nat) (parsed : JpegHeaderSegments) : Except Stop (Option Nat) := do
  let marker := 0xFF00 ||| (← unpack data (pos + 1) 1)
  match markers marker with
  | none => return none
  | some handler =>
      if maxJpegSegments < segments + 1 then throw tooManySegments
      else
        match ← headerSegment markers data stop handler marker (pos + 2) parsed with
        | none => return none
        | some (pos, parsed) =>
            if marker = jpegSos then
              parsed.finish tables
              return some pos
            else go pos (segments + 1) parsed

/-- The loop of `_jpeg_header_end`. Each turn of it takes a marker's two bytes, so a fuel
of more than the bytes that are left is never used up. -/
def jpegHeaderFrom : Nat → Nat → Nat → Nat → JpegHeaderSegments → Except Stop (Option Nat)
  | 0, _, _, _, _ => throw .hang
  | fuel + 1, pos, segments, skipped, parsed => do
      let window := min stop (pos + maxJpegStrayBytes - skipped + 1)
      match jpegSkipped data pos window with
      | none => throw .fault
      | some run =>
          let skipped := skipped + (run - pos)
          let cut ← cutMidRun data stop run
          if maxJpegStrayBytes < skipped ∨ cut then throw tooManyStrayBytes
          else if stop ≤ run + 1 then return none
          else
            headerMarker tables markers data stop
              (fun pos segments parsed => jpegHeaderFrom fuel pos segments skipped parsed)
              run segments parsed

def jpegHeaderEnd (start : Nat) : Except Stop (Option Nat) :=
  jpegHeaderFrom tables markers data stop (stop - start + 1) (start + 2) 0 0 {}

end Walk

/-- What a parser of the header meets: bytes it steps over, a marker, and a segment with
its body. -/
inductive HeaderEvent
  | skipped (bytes : Nat)
  | marker (marker : Nat)
  | segment (marker length start stop : Nat)
deriving DecidableEq, Repr

/-- What a parser of the header makes of it: what it meets, in order, and where the first
SOS ends, if it comes to one. -/
structure HeaderParse where
  events : List HeaderEvent
  headerEnd : Option Nat
deriving DecidableEq, Repr

def HeaderParse.after (event : HeaderEvent) (parse : HeaderParse) : HeaderParse :=
  { parse with events := event :: parse.events }

/-- The length field at `pos`. -/
def lengthAt (data : Bytes) (pos : Nat) : Nat :=
  (data.getD pos 0).toNat * 256 + (data.getD (pos + 1) 0).toNat

/-- The parser at `pos`, one step at a time. -/
def headerParse (markers : MarkerTable) (data : Bytes) (stop pos : Nat) : HeaderParse :=
  if _hpos : stop ≤ pos then ⟨[], none⟩
  else if data.getD pos 0 ≠ 0xFF then
    (headerParse markers data stop (pos + 1)).after (.skipped 1)
  else if stop ≤ pos + 1 then ⟨[], none⟩
  else if data.getD (pos + 1) 0 = 0 then
    (headerParse markers data stop (pos + 2)).after (.skipped 2)
  else if data.getD (pos + 1) 0 = 0xFF then
    (headerParse markers data stop (pos + 1)).after (.skipped 1)
  else
    let marker := 0xFF00 ||| (data.getD (pos + 1) 0).toNat
    match markers marker with
    | none => ⟨[], none⟩
    | some none =>
        if marker = jpegSos then ⟨[.marker marker], some (pos + 2)⟩
        else (headerParse markers data stop (pos + 2)).after (.marker marker)
    | some (some _) =>
        if stop < pos + 4 then ⟨[.marker marker], none⟩
        else
          let length := lengthAt data (pos + 2)
          let next := pos + 4 + (length - 2)
          if stop < next then ⟨[.marker marker], none⟩
          else
            let segment := HeaderEvent.segment marker length (pos + 4) next
            if marker = jpegSos then ⟨[.marker marker, segment], some next⟩
            else ((headerParse markers data stop next).after segment).after (.marker marker)
termination_by stop - pos

namespace HeaderEvent

def skippedBytes : HeaderEvent → Nat
  | .skipped bytes => bytes
  | .marker _ => 0
  | .segment _ _ _ _ => 0

def markerCount : HeaderEvent → Nat
  | .skipped _ => 0
  | .marker _ => 1
  | .segment _ _ _ _ => 0

def take (markers : MarkerTable) (data : Bytes) (parsed : JpegHeaderSegments) :
    HeaderEvent → Except Stop JpegHeaderSegments
  | .skipped _ => return parsed
  | .marker _ => return parsed
  | .segment kind length start stop => parsed.segment markers data kind length start stop

end HeaderEvent

def skippedOf (events : List HeaderEvent) : Nat := (events.map HeaderEvent.skippedBytes).sum
def markersOf (events : List HeaderEvent) : Nat := (events.map HeaderEvent.markerCount).sum

/-- What the segments among the events hold, where none of them passes a cap of its kind. -/
def segmentsOf (markers : MarkerTable) (data : Bytes) (events : List HeaderEvent) :
    Except Stop JpegHeaderSegments :=
  events.foldlM (HeaderEvent.take markers data) {}

def cappedParse (tables : TiffTables) (markers : MarkerTable) (data : Bytes)
    (headerEnd : Option Nat) :
    List HeaderEvent → Nat → Nat → JpegHeaderSegments → Except Stop (Option Nat)
  | [], _, _, parsed =>
      match headerEnd with
      | none => return none
      | some pos => do
          parsed.finish tables
          return some pos
  | .skipped bytes :: rest, segments, skipped, parsed =>
      if maxJpegStrayBytes < skipped + bytes then throw tooManyStrayBytes
      else cappedParse tables markers data headerEnd rest segments (skipped + bytes) parsed
  | .marker _ :: rest, segments, skipped, parsed =>
      if maxJpegSegments < segments + 1 then throw tooManySegments
      else cappedParse tables markers data headerEnd rest (segments + 1) skipped parsed
  | .segment marker length start stop :: rest, segments, skipped, parsed => do
      let parsed ← parsed.segment markers data marker length start stop
      cappedParse tables markers data headerEnd rest segments skipped parsed

section Runs

variable {data : Bytes} {window stop pos : Nat}

theorem skippedEnd_of_turn {n : Nat} (h : skippedTurn data stop pos = some n) :
    skippedEnd data stop pos = skippedEnd data stop (pos + n) := by
  rw [skippedEnd]
  split
  · next hnone => cases hnone.symm.trans h
  · next m hsome =>
      cases hsome.symm.trans h
      rfl

theorem skippedEnd_of_stuck (h : skippedTurn data stop pos = none) :
    skippedEnd data stop pos = pos := by
  rw [skippedEnd]
  split
  · rfl
  · next hsome => cases hsome.symm.trans h

theorem le_skippedEnd (data : Bytes) (stop pos : Nat) : pos ≤ skippedEnd data stop pos := by
  induction pos using skippedEnd.induct data stop with
  | case1 pos h => exact Nat.le_of_eq (skippedEnd_of_stuck h).symm
  | case2 pos n h ih =>
      rw [skippedEnd_of_turn h]
      omega

theorem skippedEnd_le (h : pos ≤ stop) : skippedEnd data stop pos ≤ stop := by
  induction pos using skippedEnd.induct data stop with
  | case1 pos hstuck => rwa [skippedEnd_of_stuck hstuck]
  | case2 pos n hturn ih =>
      rw [skippedEnd_of_turn hturn]
      exact ih (skippedTurn_bounds hturn).2

theorem skippedTurn_skippedEnd (data : Bytes) (stop pos : Nat) :
    skippedTurn data stop (skippedEnd data stop pos) = none := by
  induction pos using skippedEnd.induct data stop with
  | case1 pos h => rwa [skippedEnd_of_stuck h]
  | case2 pos n h ih => rwa [skippedEnd_of_turn h]

/-- The byte after the one at `pos` makes the two a turn. -/
def Cut (data : Bytes) (stop pos : Nat) : Prop :=
  pos + 1 < stop ∧ (data.getD (pos + 1) 0 = 0 ∨ data.getD (pos + 1) 0 = 0xFF)

instance : Decidable (Cut data stop pos) := inferInstanceAs (Decidable (_ ∧ _))

theorem not_cut_of_stuck (h : skippedTurn data stop pos = none) : ¬ Cut data stop pos := by
  rintro ⟨hpos, hbyte⟩
  unfold skippedTurn at h
  rw [if_neg (by omega)] at h
  split at h
  · cases h
  · rw [if_neg (by omega)] at h
    rcases hbyte with hzero | hfill
    · rw [if_pos hzero] at h
      cases h
    · rw [if_pos hfill] at h
      split at h <;> cases h

theorem skippedTurn_mono {n : Nat} (hwindow : window ≤ stop)
    (h : skippedTurn data window pos = some n) : skippedTurn data stop pos = some n := by
  have hbounds := skippedTurn_bounds h
  unfold skippedTurn at h ⊢
  rw [if_neg (by omega)] at h
  rw [if_neg (by omega)]
  split
  · next hbyte => rwa [if_pos hbyte] at h
  · next hbyte =>
      rw [if_neg hbyte] at h
      split at h
      · cases h
      · rwa [if_neg (by omega)]

theorem cut_of_turn {n : Nat} (hwindow : window ≤ stop) (hpos : pos ≤ window)
    (h : skippedTurn data window pos = none) (hturn : skippedTurn data stop pos = some n) :
    pos = window ∨ pos + 1 = window ∧ Cut data stop pos := by
  by_cases hend : pos = window
  · exact .inl hend
  · right
    unfold skippedTurn at h hturn
    rw [if_neg (by omega)] at h
    split at h
    · cases h
    · next hbyte =>
        split at hturn
        · cases hturn
        · by_cases hlast : window ≤ pos + 1
          · split at hturn
            · cases hturn
            · refine ⟨by omega, by omega, ?_⟩
              split at hturn
              · next hzero => exact .inl hzero
              · split at hturn
                · next hfill => exact .inr hfill
                · cases hturn
          · rw [if_neg hlast] at h
            rw [if_neg (by omega)] at hturn
            cases h.symm.trans hturn

theorem skippedEnd_window (hwindow : window ≤ stop) (hpos : pos ≤ window) :
    skippedEnd data window pos = skippedEnd data stop pos ∨
      skippedEnd data window pos < skippedEnd data stop pos ∧
        (skippedEnd data window pos = window ∨ skippedEnd data window pos + 1 = window ∧
          Cut data stop (skippedEnd data window pos)) := by
  induction pos using skippedEnd.induct data window with
  | case1 pos hstuck =>
      rw [skippedEnd_of_stuck hstuck]
      cases hturn : skippedTurn data stop pos with
      | none => exact .inl (skippedEnd_of_stuck hturn).symm
      | some n =>
          refine .inr ⟨?_, cut_of_turn hwindow hpos hstuck hturn⟩
          rw [skippedEnd_of_turn hturn]
          have hle := le_skippedEnd data stop (pos + n)
          have hbounds := skippedTurn_bounds hturn
          omega
  | case2 pos n hturn ih =>
      rw [skippedEnd_of_turn hturn, skippedEnd_of_turn (skippedTurn_mono hwindow hturn)]
      exact ih (skippedTurn_bounds hturn).2

theorem jpegSkipped_spec {skipped : Nat} (hskipped : skipped ≤ maxJpegStrayBytes)
    (hpos : pos ≤ stop) :
    ∃ run, jpegSkipped data pos (min stop (pos + maxJpegStrayBytes - skipped + 1)) = some run ∧
      run ≤ stop ∧
      (maxJpegStrayBytes < skipped + (skippedEnd data stop pos - pos) ∧
          (maxJpegStrayBytes < skipped + (run - pos) ∨ Cut data stop run) ∨
        skipped + (skippedEnd data stop pos - pos) ≤ maxJpegStrayBytes ∧
          run = skippedEnd data stop pos) := by
  generalize hwindow : min stop (pos + maxJpegStrayBytes - skipped + 1) = window
  have hle : pos ≤ window := by omega
  have hstop : window ≤ stop := by omega
  have hend : skippedEnd data window pos ≤ window := skippedEnd_le hle
  have hrun : skippedEnd data stop pos ≤ stop := skippedEnd_le hpos
  have hstart := le_skippedEnd data stop pos
  have hstart' := le_skippedEnd data window pos
  refine ⟨skippedEnd data window pos, if_neg (by omega), by omega, ?_⟩
  rcases @skippedEnd_window data _ _ _ hstop hle with heq | ⟨hlt, hcut⟩
  · rw [heq] at hend ⊢
    omega
  · left
    rcases hcut with hcut | ⟨hcut, hturn⟩
    · omega
    · have hinside := hturn.1
      exact ⟨by omega, .inr hturn⟩

theorem length_unpack (h : pos + 2 ≤ data.length) :
    unpack data pos 2 = .ok (lengthAt data pos) := by
  have hfirst : pos < data.length := by omega
  have hsecond : pos + 1 < data.length := by omega
  rw [unpack_eq_ok h, slice, Nat.add_sub_cancel_left, List.drop_eq_getElem_cons hfirst,
    List.drop_eq_getElem_cons hsecond, lengthAt, List.getD_eq_getElem?_getD,
    List.getD_eq_getElem?_getD, List.getElem?_eq_getElem hfirst,
    List.getElem?_eq_getElem hsecond]
  simp only [List.take_succ_cons, List.take_zero, bigEndian, List.foldl_cons, List.foldl_nil,
    Nat.zero_mul, Nat.zero_add, Option.getD_some]

theorem cutMidRun_eq (hstop : stop ≤ data.length) :
    cutMidRun data stop pos = .ok (decide (Cut data stop pos)) := by
  rw [cutMidRun]
  split
  · next hpos =>
      rw [byte_unpack (by omega)]
      refine congrArg Except.ok (decide_eq_decide.mpr ?_)
      have hzero : (data.getD (pos + 1) 0).toNat = 0 ↔ data.getD (pos + 1) 0 = 0 := by
        rw [← UInt8.toNat_inj]
        rfl
      have hfill : (data.getD (pos + 1) 0).toNat = 0xFF ↔ data.getD (pos + 1) 0 = 0xFF := by
        rw [← UInt8.toNat_inj]
        rfl
      rw [List.mem_cons, List.mem_singleton, hzero, hfill, Cut, and_iff_right hpos]
  · next hpos => exact congrArg Except.ok (decide_eq_false fun hcut => hpos hcut.1).symm

end Runs

section Agreement

variable {tables : TiffTables} {markers : MarkerTable} {data : Bytes} {stop pos : Nat}

theorem headerParse_of_turn {n : Nat} (h : skippedTurn data stop pos = some n) :
    headerParse markers data stop pos =
      (headerParse markers data stop (pos + n)).after (.skipped n) := by
  unfold skippedTurn at h
  rw [headerParse]
  split at h
  · cases h
  · next hpos =>
      rw [dif_neg hpos]
      split at h
      · next hbyte =>
          cases h
          rw [if_pos hbyte]
      · next hbyte =>
          rw [if_neg hbyte]
          split at h
          · cases h
          · next hlast =>
              rw [if_neg hlast]
              split at h
              · next hzero =>
                  cases h
                  rw [if_pos hzero]
              · next hzero =>
                  rw [if_neg hzero]
                  split at h
                  · next hfill =>
                      cases h
                      rw [if_pos hfill]
                  · cases h

def markerParse (markers : MarkerTable) (data : Bytes) (stop pos : Nat) : HeaderParse :=
  let marker := 0xFF00 ||| (data.getD (pos + 1) 0).toNat
  match markers marker with
  | none => ⟨[], none⟩
  | some none =>
      if marker = jpegSos then ⟨[.marker marker], some (pos + 2)⟩
      else (headerParse markers data stop (pos + 2)).after (.marker marker)
  | some (some _) =>
      if stop < pos + 4 then ⟨[.marker marker], none⟩
      else
        let length := lengthAt data (pos + 2)
        let next := pos + 4 + (length - 2)
        if stop < next then ⟨[.marker marker], none⟩
        else
          let segment := HeaderEvent.segment marker length (pos + 4) next
          if marker = jpegSos then ⟨[.marker marker, segment], some next⟩
          else ((headerParse markers data stop next).after segment).after (.marker marker)

theorem headerParse_of_stuck (h : skippedTurn data stop pos = none) :
    headerParse markers data stop pos =
      if stop ≤ pos + 1 then ⟨[], none⟩ else markerParse markers data stop pos := by
  have hcut := not_cut_of_stuck h
  unfold skippedTurn at h
  rw [headerParse]
  split at h
  · next hpos => rw [dif_pos hpos, if_pos (by omega)]
  · next hpos =>
      rw [dif_neg hpos]
      split at h
      · cases h
      · next hbyte =>
          rw [if_neg hbyte]
          by_cases hlast : stop ≤ pos + 1
          · rw [if_pos hlast, if_pos hlast]
          · have hinside : pos + 1 < stop := Nat.not_le.mp hlast
            rw [if_neg hlast, if_neg hlast, if_neg fun hzero => hcut ⟨hinside, .inl hzero⟩,
              if_neg fun hfill => hcut ⟨hinside, .inr hfill⟩, markerParse]

abbrev HeaderParse.capped (tables : TiffTables) (markers : MarkerTable) (data : Bytes)
    (parse : HeaderParse) : Nat → Nat → JpegHeaderSegments → Except Stop (Option Nat) :=
  cappedParse tables markers data parse.headerEnd parse.events

variable {parsed : JpegHeaderSegments} {segments skipped : Nat}

theorem capped_skippedEnd (hskipped : skipped ≤ maxJpegStrayBytes) :
    (headerParse markers data stop pos).capped tables markers data segments skipped parsed =
      if maxJpegStrayBytes < skipped + (skippedEnd data stop pos - pos) then
        throw tooManyStrayBytes
      else (headerParse markers data stop (skippedEnd data stop pos)).capped tables markers data
        segments (skipped + (skippedEnd data stop pos - pos)) parsed := by
  induction pos using skippedEnd.induct data stop generalizing skipped with
  | case1 pos h =>
      rw [skippedEnd_of_stuck h, Nat.sub_self, Nat.add_zero, if_neg (by omega)]
  | case2 pos n h ih =>
      have hle := le_skippedEnd data stop (pos + n)
      have hsum : skipped + n + (skippedEnd data stop (pos + n) - (pos + n)) =
          skipped + (skippedEnd data stop (pos + n) - pos) := by omega
      rw [headerParse_of_turn h, skippedEnd_of_turn h]
      by_cases hcap : maxJpegStrayBytes < skipped + n
      · rw [if_pos (by omega)]
        exact if_pos hcap
      · rw [← hsum, ← ih (Nat.not_lt.mp hcap)]
        exact if_neg hcap

theorem headerSegment_none {marker : Nat} :
    headerSegment markers data stop none marker pos parsed = .ok (some (pos, parsed)) := rfl

theorem headerSegment_some {handler : SegmentHandler} {marker : Nat} (hstop : stop ≤ data.length) :
    headerSegment markers data stop (some handler) marker pos parsed =
      if stop < pos + 2 then .ok none
      else if stop < pos + 2 + (lengthAt data pos - 2) then .ok none
      else (parsed.segment markers data marker (lengthAt data pos) (pos + 2)
        (pos + 2 + (lengthAt data pos - 2))).map
          fun parsed => some (pos + 2 + (lengthAt data pos - 2), parsed) := by
  rw [headerSegment]
  dsimp only
  split
  · rfl
  next hinside =>
    rw [length_unpack (by omega)]
    simp only [bind, Except.bind]
    split
    · rfl
    · cases parsed.segment markers data marker (lengthAt data pos) (pos + 2) _ <;> rfl

/-- The walk of one marker is the parser's, when the walk past it is. -/
theorem headerMarker_eq {go : Nat → Nat → JpegHeaderSegments → Except Stop (Option Nat)}
    (hstop : stop ≤ data.length) (hpos : pos + 1 < stop)
    (hgo : ∀ next segments parsed, pos + 2 ≤ next → next ≤ stop →
      go next segments parsed = (headerParse markers data stop next).capped tables markers data
        segments skipped parsed) :
    headerMarker tables markers data stop go pos segments parsed =
      (markerParse markers data stop pos).capped tables markers data segments skipped parsed := by
  rw [headerMarker, byte_unpack (by omega), markerParse]
  generalize hmarker : 0xFF00 ||| (data.getD (pos + 1) 0).toNat = marker
  simp only [bind, Except.bind]
  rw [hmarker]
  cases hknown : markers marker with
  | none => rfl
  | some handler =>
      cases handler with
      | none =>
          by_cases hsos : marker = jpegSos
          · simp only [headerSegment_none, if_pos hsos]
            rfl
          · simp only [headerSegment_none, if_neg hsos, hgo _ _ _ (Nat.le_refl _) hpos]
            rfl
      | some handler =>
          simp only [headerSegment_some hstop, show pos + 2 + 2 = pos + 4 from rfl]
          by_cases hlength : stop < pos + 4
          · simp only [if_pos hlength]
            rfl
          · simp only [if_neg hlength]
            generalize lengthAt data (pos + 2) = length
            by_cases hbody : stop < pos + 4 + (length - 2)
            · simp only [if_pos hbody]
              rfl
            · have hnext : pos + 2 ≤ pos + 4 + (length - 2) := by omega
              simp only [if_neg hbody, HeaderParse.capped]
              by_cases hsos : marker = jpegSos
              · simp only [if_pos hsos, cappedParse, bind, Except.bind]
                cases parsed.segment markers data marker length (pos + 4) _ <;> rfl
              · simp only [if_neg hsos, HeaderParse.after, cappedParse, bind, Except.bind]
                cases parsed.segment markers data marker length (pos + 4) _ with
                | error e => rfl
                | ok taken =>
                    simp only [Except.map, hgo _ _ _ hnext (Nat.not_lt.mp hbody)]

theorem jpegHeaderFrom_eq {fuel : Nat} (hstop : stop ≤ data.length) (hpos : pos ≤ stop)
    (hfuel : stop < pos + fuel) (hskipped : skipped ≤ maxJpegStrayBytes) :
    jpegHeaderFrom tables markers data stop fuel pos segments skipped parsed =
      (headerParse markers data stop pos).capped tables markers data segments skipped parsed := by
  induction fuel generalizing pos segments skipped parsed with
  | zero => omega
  | succ fuel ih =>
      obtain ⟨run, hmatch, hle, hcase⟩ := @jpegSkipped_spec data _ _ _ hskipped hpos
      have hstart := le_skippedEnd data stop pos
      rw [jpegHeaderFrom, capped_skippedEnd hskipped]
      simp only [hmatch, cutMidRun_eq hstop, bind, Except.bind, decide_eq_true_eq]
      rcases hcase with ⟨hcap, hpasses⟩ | ⟨hcap, rfl⟩
      · rw [if_pos hcap, if_pos hpasses]
      · have hstuck := skippedTurn_skippedEnd data stop pos
        have hnot : ¬ (maxJpegStrayBytes < skipped + (skippedEnd data stop pos - pos) ∨
            Cut data stop (skippedEnd data stop pos)) :=
          not_or.mpr ⟨Nat.not_lt.mpr hcap, not_cut_of_stuck hstuck⟩
        rw [if_neg hnot, if_neg (Nat.not_lt.mpr hcap), headerParse_of_stuck hstuck]
        by_cases hlast : stop ≤ skippedEnd data stop pos + 1
        · rw [if_pos hlast, if_pos hlast]
          rfl
        · rw [if_neg hlast, if_neg hlast]
          refine headerMarker_eq hstop (Nat.not_le.mp hlast) ?_
          intro next segments parsed hnext hle
          exact ih hle (by omega) hcap

theorem jpegHeaderEnd_eq {start : Nat} (hstop : stop ≤ data.length) (h : start + 2 ≤ stop) :
    jpegHeaderEnd tables markers data stop start =
      (headerParse markers data stop (start + 2)).capped tables markers data 0 0 {} :=
  jpegHeaderFrom_eq hstop h (by omega) (Nat.zero_le _)

theorem jpegHeaderEnd_of_short {start : Nat} (h : stop < start + 2) :
    jpegHeaderEnd tables markers data stop start = .error .fault := by
  have hmatch : jpegSkipped data (start + 2)
      (min stop (start + 2 + maxJpegStrayBytes - 0 + 1)) = none := if_pos (by omega)
  rw [jpegHeaderEnd, jpegHeaderFrom]
  simp only [hmatch]
  rfl

theorem headerParse_of_le (h : stop ≤ pos) : headerParse markers data stop pos = ⟨[], none⟩ := by
  rw [headerParse, dif_pos h]

/-- Events that pass no cap are passed through. -/
theorem cappedParse_append {headerEnd : Option Nat} {before rest : List HeaderEvent}
    {parsed' : JpegHeaderSegments} (hskipped : skipped + skippedOf before ≤ maxJpegStrayBytes)
    (hmarkers : segments + markersOf before ≤ maxJpegSegments)
    (hsegments : before.foldlM (HeaderEvent.take markers data) parsed = .ok parsed') :
    cappedParse tables markers data headerEnd (before ++ rest) segments skipped parsed =
      cappedParse tables markers data headerEnd rest (segments + markersOf before)
        (skipped + skippedOf before) parsed' := by
  induction before generalizing segments skipped parsed with
  | nil =>
      cases hsegments
      rfl
  | cons event before ih =>
      rw [List.foldlM_cons, bind_eq_ok_iff] at hsegments
      obtain ⟨taken, htake, hrest⟩ := hsegments
      simp only [skippedOf, markersOf, List.map_cons, List.sum_cons, ← Nat.add_assoc]
        at hskipped hmarkers ⊢
      cases event with
      | skipped bytes =>
          cases htake
          rw [List.cons_append, cappedParse, if_neg (by
            simp only [HeaderEvent.skippedBytes] at hskipped
            omega)]
          exact ih hskipped hmarkers hrest
      | marker kind =>
          cases htake
          rw [List.cons_append, cappedParse, if_neg (by
            simp only [HeaderEvent.markerCount] at hmarkers
            omega)]
          exact ih hskipped hmarkers hrest
      | segment kind length start stop =>
          rw [HeaderEvent.take] at htake
          rw [List.cons_append, cappedParse, htake]
          exact ih hskipped hmarkers hrest

theorem capped_prefix {parse : HeaderParse} {before rest : List HeaderEvent}
    (hevents : parse.events = before ++ rest) (hskipped : skippedOf before ≤ maxJpegStrayBytes)
    (hmarkers : markersOf before ≤ maxJpegSegments)
    (hsegments : segmentsOf markers data before = .ok parsed) :
    parse.capped tables markers data 0 0 {} =
      cappedParse tables markers data parse.headerEnd rest (markersOf before) (skippedOf before)
        parsed := by
  have happend : cappedParse tables markers data parse.headerEnd (before ++ rest) 0 0 {} =
      cappedParse tables markers data parse.headerEnd rest (0 + markersOf before)
        (0 + skippedOf before) parsed :=
    cappedParse_append ((Nat.zero_add _).trans_le hskipped)
      ((Nat.zero_add _).trans_le hmarkers) hsegments
  rwa [Nat.zero_add, Nat.zero_add, ← hevents] at happend

end Agreement

/-- The walk of `data[start : stop]` agrees with the parser: where the parser passes no
cap the walk returns what the parser does, and where the parser passes the cap on skipped
bytes or on markers before any other, the walk refuses the file with that cap's code. -/
structure AgreesWithParser (tables : TiffTables) (markers : MarkerTable) (data : Bytes)
    (start stop : Nat) : Prop where
  returns : ∀ parse parsed, headerParse markers data stop (start + 2) = parse →
    skippedOf parse.events ≤ maxJpegStrayBytes → markersOf parse.events ≤ maxJpegSegments →
    segmentsOf markers data parse.events = .ok parsed →
    (parse.headerEnd.isSome → parsed.finish tables = .ok ()) →
    jpegHeaderEnd tables markers data stop start = .ok parse.headerEnd
  refuses_stray : ∀ parse before bytes after parsed,
    headerParse markers data stop (start + 2) = parse →
    parse.events = before ++ .skipped bytes :: after →
    skippedOf before ≤ maxJpegStrayBytes → markersOf before ≤ maxJpegSegments →
    segmentsOf markers data before = .ok parsed →
    maxJpegStrayBytes < skippedOf before + bytes →
    jpegHeaderEnd tables markers data stop start = .error tooManyStrayBytes
  refuses_segments : ∀ parse before marker after parsed,
    headerParse markers data stop (start + 2) = parse →
    parse.events = before ++ .marker marker :: after →
    skippedOf before ≤ maxJpegStrayBytes → markersOf before ≤ maxJpegSegments →
    segmentsOf markers data before = .ok parsed →
    maxJpegSegments < markersOf before + 1 →
    jpegHeaderEnd tables markers data stop start = .error tooManySegments

section Claim

variable {tables : TiffTables} {markers : MarkerTable} {data : Bytes} {start stop : Nat}

theorem agrees_of_room (hstop : stop ≤ data.length) (h : start + 2 ≤ stop) :
    AgreesWithParser tables markers data start stop := by
  have hwalk := @jpegHeaderEnd_eq tables markers _ _ _ hstop h
  refine ⟨?_, ?_, ?_⟩
  · rintro parse parsed rfl hskipped hmarkers hsegments hfinish
    rw [hwalk, capped_prefix (List.append_nil _).symm hskipped hmarkers hsegments]
    cases hend : (headerParse markers data stop (start + 2)).headerEnd with
    | none => rfl
    | some pos =>
        rw [cappedParse, hfinish (by rw [hend]; rfl)]
        rfl
  · rintro parse before bytes after parsed rfl hevents hskipped hmarkers hsegments hcap
    rw [hwalk, capped_prefix hevents hskipped hmarkers hsegments]
    exact if_pos hcap
  · rintro parse before marker after parsed rfl hevents hskipped hmarkers hsegments hcap
    rw [hwalk, capped_prefix hevents hskipped hmarkers hsegments]
    exact if_pos hcap

theorem not_agrees_of_short (h : stop < start + 2) :
    ¬ AgreesWithParser tables markers data start stop := by
  intro hagrees
  have hreturns := hagrees.returns ⟨[], none⟩ {} (headerParse_of_le (by omega))
    (Nat.zero_le _) (Nat.zero_le _) rfl (by simp)
  rw [jpegHeaderEnd_of_short h] at hreturns
  cases hreturns

end Claim

def scanMarkers : MarkerTable := fun marker => if marker = jpegSos then some (some .other) else none

/-- A header of an SOI, two bytes of fill and an empty start of scan. -/
def filledHeader : Bytes := [0xFF, 0xD8, 0xFF, 0xFF, 0xFF, 0xDA, 0, 2]

end Qontinui.Images
