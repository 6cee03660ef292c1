import Mathlib.Algebra.GroupWithZero.Nat
import Qontinui.Base.FallibleLoops
import Qontinui.Images.AvifBoxes

/-!
The TIFF structure of an EXIF block as `image_sniff.py` walks it: the entries of a
directory with one budget for the values that lie outside them, the directories an
entry points at, and the orientation. Whatever a block holds and whatever size a value
of a type has, the walk reads inside the block.
-/

namespace Qontinui.Images

open FallibleLoops

def maxTiffEntries : Nat := 512
def maxExifHeaders : Nat := 2
def maxAvifExifBytes : Nat := 128 * 1024

def Settles {α : Type} (result : Except Stop α) : Prop :=
  (∃ value, result = .ok value) ∨ ∃ message code, result = .error (.refused message code)

/-- The byte order `struct` reads a number in: `">"` or `"<"`. -/
inductive Endian
  | big
  | little
deriving DecidableEq, Repr

def Endian.number : Endian → Bytes → Nat
  | .big, bytes => bigEndian bytes
  | .little, bytes => bigEndian bytes.reverse

/-- An integer format of `struct`. -/
structure IntegerFormat where
  width : Nat
  signed : Bool
deriving DecidableEq, Repr

/-- The number the bytes stand for, in two's complement where the format is signed. -/
def IntegerFormat.value (format : IntegerFormat) (endian : Endian) (bytes : Bytes) : Int :=
  let n := endian.number bytes
  if format.signed ∧ 256 ^ format.width ≤ 2 * n then n - (256 ^ format.width : Nat) else n

/-- `struct.unpack_from(endian + format, data, at)[0]`. -/
def unpackInteger (endian : Endian) (format : IntegerFormat) (data : Bytes) (pos : Nat) :
    Except Stop Int :=
  (unpackBytes data pos format.width).map (format.value endian)

/-- `struct.unpack_from(endian + "H", data, at)` and the like, of an unsigned number. -/
def unpackNumber (endian : Endian) (data : Bytes) (pos width : Nat) : Except Stop Nat :=
  (unpackBytes data pos width).map endian.number

/-- `_INTEGER_TYPES`. -/
def integerTypes : Nat → Option IntegerFormat
  | 3 => some ⟨2, false⟩
  | 4 => some ⟨4, false⟩
  | 6 => some ⟨1, true⟩
  | 8 => some ⟨2, true⟩
  | 9 => some ⟨4, true⟩
  | 13 => some ⟨4, false⟩
  | 16 => some ⟨8, false⟩
  | _ => none

/-- `_ORIENTATION_TYPES`. -/
def orientationTypes : Nat → Option IntegerFormat
  | 3 => some ⟨2, false⟩
  | 4 => some ⟨4, false⟩
  | _ => none

/-- Pillow's tables: the headers its TIFF reader accepts, and the size of one value of
each entry type it reads, which an integer of the type fits in. -/
structure TiffTables where
  prefixes : List Bytes
  sizes : Nat → Option Nat
  positive : ∀ type size, sizes type = some size → 0 < size
  fits : ∀ type size format, sizes type = some size → integerTypes type = some format →
    format.width ≤ size

/-- One entry of a TIFF directory, with its four-byte value field. -/
structure TiffEntry where
  tag : Nat
  entryType : Nat
  count : Nat
  value : Bytes
  four : value.length = 4
deriving DecidableEq

variable {data : Bytes}

theorem slice_length {start stop : Nat} (h : stop ≤ data.length) :
    (slice data start stop).length = stop - start := by
  rw [slice, List.length_take, List.length_drop]
  omega

variable {pos width : Nat} {endian : Endian}

theorem slice_length_add {skip : Nat} (h : pos + (skip + width) ≤ data.length) :
    (slice data (pos + skip) (pos + (skip + width))).length = width := by
  rw [slice_length h]
  omega

section Walk

variable (tables : TiffTables) (block : Bytes)

/-- `struct.unpack_from(endian + "HHL4s", block, pos)`. -/
def tiffEntryAt (endian : Endian) (pos : Nat) : Except Stop TiffEntry :=
  if h : pos + (8 + 4) ≤ block.length then
    .ok {
      tag := endian.number (slice block pos (pos + 2))
      entryType := endian.number (slice block (pos + 2) (pos + 4))
      count := endian.number (slice block (pos + 4) (pos + 8))
      value := slice block (pos + 8) (pos + (8 + 4))
      four := slice_length_add h }
  else .error .fault

/-- The byte order and the first directory's offset, where Pillow's TIFF reader accepts
the header. -/
def tiffHeader : Except Stop (Option (Endian × Nat)) :=
  if block.length < 8 ∨ (∀ header ∈ tables.prefixes, ¬ header <+: block) ∨
      block[2]? = some 0x2B then
    return none
  else do
    let endian := if ascii ['M', 'M'] <+: block then Endian.big else .little
    let offset ← unpackNumber endian block 4 4
    return some (endian, offset)

/-- The loop over the entries that are present, from `pos`: a type Pillow skips is
skipped, and a value that runs past the block ends the directory. -/
def tiffEntries (endian : Endian) (name code : String) :
    Nat → Nat → List TiffEntry → Nat → Except Stop (List TiffEntry × Nat)
  | 0, _, entries, read => return (entries, read)
  | present + 1, pos, entries, read => do
      let entry ← tiffEntryAt block endian pos
      match tables.sizes entry.entryType with
      | none => tiffEntries endian name code present (pos + 12) entries read
      | some unit =>
          let size := entry.count * unit
          if 4 < size then
            let start ← unpackNumber endian entry.value 0 4
            let read := read + min size (block.length - start)
            if block.length < read then
              throw (.refused s!"its {name} directories' values add up to more than the {
                block.length}-byte block that holds them" s!"{code}_values_reread")
            else if block.length < start + size then return (entries, read)
            else tiffEntries endian name code present (pos + 12) (entries ++ [entry]) read
          else tiffEntries endian name code present (pos + 12) (entries ++ [entry]) read

/-- The entries Pillow's TIFF reader reads from the directory at `offset`, and `read`
plus the bytes of value it reads for them. -/
def tiffDirectory (endian : Endian) (offset : Nat) (name code : String) (read : Nat) :
    Except Stop (List TiffEntry × Nat) :=
  if block.length < offset + 2 then return ([], read)
  else do
    let declared ← unpackNumber endian block offset 2
    let pos := offset + 2
    let present := min declared ((block.length - pos) / 12)
    if maxTiffEntries < present then
      throw (.refused s!"its {name} directory holds more than {maxTiffEntries} entries"
        s!"{code}_too_many_entries")
    else tiffEntries tables block endian name code present pos [] read

def tiffFirstDirectory (name code : String) : Except Stop (Option (Endian × List TiffEntry)) := do
  match ← tiffHeader tables block with
  | none => return none
  | some (endian, offset) =>
      let (entries, _) ← tiffDirectory tables block endian offset name code 0
      return some (endian, entries)

end Walk

/-- `_EXIF_HEADER`. -/
def exifHeader : Bytes := ascii ['E', 'x', 'i', 'f'] ++ [0, 0]

/-- The loop past the headers. Each is six bytes of the block, so a fuel of more than
the block's bytes is never used up. -/
def exifTiffFrom (raw : Bytes) : Nat → Nat → Except Stop Bytes
  | 0, _ => throw .hang
  | fuel + 1, start =>
      if exifHeader <+: raw.drop start then
        if maxExifHeaders * exifHeader.length < start + exifHeader.length then
          throw (.refused s!"its EXIF block repeats its header more than {maxExifHeaders} times"
            "image_exif_header_repeated")
        else exifTiffFrom raw fuel (start + exifHeader.length)
      else return raw.drop start

def exifTiff (raw : Bytes) : Except Stop Bytes := exifTiffFrom raw (raw.length + 1) 0

def exifDirectory (tables : TiffTables) (raw : Bytes) :
    Except Stop (Option (Endian × List TiffEntry)) := do
  tiffFirstDirectory tables (← exifTiff raw) "EXIF" "image_exif"

/-- `_TIFF_TYPE_SIZES[entry_type]`, which raises where the table has no such type. -/
def TiffTables.sizeOf (tables : TiffTables) (type : Nat) : Except Stop Nat :=
  match tables.sizes type with
  | some size => return size
  | none => throw .fault

def exifSubDirectory : Nat := 0x8769
def gpsSubDirectory : Nat := 0x8825
def interopSubDirectory : Nat := 0xA005

def entryPointer (tables : TiffTables) (block : Bytes) (endian : Endian) (entry : TiffEntry) :
    Except Stop (Option Int) :=
  match integerTypes entry.entryType with
  | none => return none
  | some format =>
      if entry.count < 1 then return none
      else do
        let width ← tables.sizeOf entry.entryType
        if entry.count * width ≤ 4 then return some (← unpackInteger endian format entry.value 0)
        else
          let start ← unpackNumber endian entry.value 0 4
          return some (← unpackInteger endian format block start)

/-- Where the last entry of the tag points, read as Pillow reads it. -/
def directoryPointer (tables : TiffTables) (block : Bytes) (endian : Endian)
    (entries : List TiffEntry) (tag : Nat) : Except Stop (Option Nat) := do
  let pointer ← entries.foldlM (fun pointer entry =>
    if entry.tag ≠ tag then return pointer else entryPointer tables block endian entry) none
  return (pointer.filter fun pointer => 0 ≤ pointer).map Int.toNat

/-- What a walk of an EXIF block's directories has read: the block they are in, the
entries it kept of each, and the bytes of value it counted for them all. -/
structure ExifReads where
  block : Bytes
  endian : Endian
  directories : List (List TiffEntry)
  read : Nat

def ExifReads.directory (tables : TiffTables) (reads : ExifReads) (offset : Nat) :
    Except Stop (List TiffEntry × ExifReads) := do
  let (entries, read) ←
    tiffDirectory tables reads.block reads.endian offset "EXIF" "image_exif" reads.read
  return (entries,
    { reads with directories := reads.directories ++ [entries], read := read })

def ExifReads.interop (tables : TiffTables) (reads : ExifReads) (sub : List TiffEntry)
    (tag : Nat) : Except Stop (Option Nat) :=
  if tag = exifSubDirectory then
    directoryPointer tables reads.block reads.endian sub interopSubDirectory
  else return none

/-- The walk of the directory an entry of IFD0 points at, and of the Interoperability
directory that the Exif directory points at. -/
def ExifReads.subDirectory (tables : TiffTables) (entries : List TiffEntry) (reads : ExifReads)
    (tag : Nat) : Except Stop ExifReads := do
  match ← directoryPointer tables reads.block reads.endian entries tag with
  | none => return reads
  | some start =>
      let (sub, reads) ← reads.directory tables start
      match ← reads.interop tables sub tag with
      | none => return reads
      | some start =>
          let (_, reads) ← reads.directory tables start
          return reads

/-- The body of `_avif_exif_directories`, with what its variables hold at the end. -/
def avifExifReads (tables : TiffTables) (raw : Bytes) : Except Stop (Option ExifReads) := do
  if maxAvifExifBytes < raw.length then
    throw (.refused s!"its EXIF block is over {maxAvifExifBytes} bytes"
      "image_avif_exif_too_large")
  else
    let block ← exifTiff raw
    match ← tiffHeader tables block with
    | none => return none
    | some (endian, offset) =>
        let (entries, reads) ←
          ExifReads.directory tables { block, endian, directories := [], read := 0 } offset
        let reads ← [exifSubDirectory, gpsSubDirectory].foldlM
          (ExifReads.subDirectory tables entries) reads
        return some reads

def avifExifDirectories (tables : TiffTables) (raw : Bytes) : Except Stop Unit := do
  let _ ← avifExifReads tables raw

def exifOrientationTag : Nat := 0x0112

def entryOrientation (tables : TiffTables) (endian : Endian) (entry : TiffEntry) :
    Except Stop (Option Int) :=
  match orientationTypes entry.entryType with
  | none => return none
  | some format =>
      if entry.count < 1 then return none
      else do
        if entry.count * (← tables.sizeOf entry.entryType) ≤ 4 then
          return some (← unpackInteger endian format entry.value 0)
        else return none

/-- The EXIF orientation the file declares; `rawExif` is nothing where the metadata is
not of bytes. -/
def orientation (tables : TiffTables) (rawExif : Option Bytes) : Except Stop (Option Int) := do
  match rawExif with
  | none => return none
  | some raw =>
      if raw = [] then return none
      else
        match ← exifDirectory tables raw with
        | none => return none
        | some (endian, entries) =>
            let value ← entries.foldlM (fun value entry =>
              if entry.tag = exifOrientationTag then entryOrientation tables endian entry
              else return value) none
            return value.filter fun value => 1 ≤ value ∧ value ≤ 8

theorem Settles.of_clean {α : Type} {result : Except Stop α} {post : α → Prop}
    (h : Clean Stop.Faulty result post) : Settles result := by
  cases result with
  | ok value => exact .inl ⟨value, rfl⟩
  | error e =>
      cases e with
      | refused message code => exact .inr ⟨message, code, rfl⟩
      | fault => exact absurd trivial (h.1 .fault rfl)
      | hang => exact absurd trivial (h.1 .hang rfl)

theorem clean_refused {α : Type} {post : α → Prop} (message code : String) :
    Clean Stop.Faulty (throw (.refused message code)) post :=
  Clean.throw (not_faulty_refused message code)

theorem unpackNumber_eq_ok (h : pos + width ≤ data.length) :
    unpackNumber endian data pos width = .ok (endian.number (slice data pos (pos + width))) := by
  rw [unpackNumber, unpackBytes_eq_ok h]
  rfl

theorem clean_unpackNumber (h : pos + width ≤ data.length) :
    Clean Stop.Faulty (unpackNumber endian data pos width) fun _ => True :=
  Clean.of_eq_ok (unpackNumber_eq_ok h) trivial

theorem clean_unpackInteger {format : IntegerFormat} (h : pos + format.width ≤ data.length) :
    Clean Stop.Faulty (unpackInteger endian format data pos) fun _ => True := by
  rw [unpackInteger, unpackBytes_eq_ok h]
  exact Clean.pure trivial

theorem TiffEntry.unpackNumber_value (entry : TiffEntry) (endian : Endian) :
    unpackNumber endian entry.value 0 4 = .ok (endian.number entry.value) := by
  rw [unpackNumber_eq_ok (Nat.le_of_eq entry.four.symm), slice, List.drop_zero,
    List.take_of_length_le (Nat.le_of_eq entry.four)]

section Bounds

variable {tables : TiffTables} {block : Bytes} {endian : Endian}

/-- Where the value of the entry at `pos` starts: at the entry's own field where it fits
there, and else where the field points. -/
def TiffEntry.valueStart (entry : TiffEntry) (endian : Endian) (pos size : Nat) : Nat :=
  if 4 < size then endian.number entry.value else pos + 8

/-- The entry was read from the block, and its value lies in the block. -/
def TiffEntry.Inside (tables : TiffTables) (block : Bytes) (endian : Endian)
    (entry : TiffEntry) : Prop :=
  ∃ pos unit, tiffEntryAt block endian pos = .ok entry ∧
    tables.sizes entry.entryType = some unit ∧
    entry.valueStart endian pos (entry.count * unit) + entry.count * unit ≤ block.length

def TiffTables.valueBytes (tables : TiffTables) (entry : TiffEntry) : Nat :=
  match tables.sizes entry.entryType with
  | none => 0
  | some unit => if 4 < entry.count * unit then entry.count * unit else 0

/-- What the walk of a directory has kept and counted, from `before` bytes on: entries
whose values are in the block, and no fewer bytes than they hold or more than the block's. -/
structure WithinBudget (tables : TiffTables) (block : Bytes) (endian : Endian) (before : Nat)
    (kept : List TiffEntry × Nat) : Prop where
  inside : ∀ entry ∈ kept.1, entry.Inside tables block endian
  counted : before + (kept.1.map tables.valueBytes).sum ≤ kept.2
  bounded : kept.2 ≤ block.length

variable {before : Nat} {entries : List TiffEntry} {entry : TiffEntry}

theorem WithinBudget.nothing (h : before ≤ block.length) :
    WithinBudget tables block endian before ([], before) :=
  ⟨by simp, by simp, h⟩

variable {read type : Nat} {name code : String}

section

variable (h : WithinBudget tables block endian before (entries, read))
include h

theorem WithinBudget.more {read' : Nat} (hmore : read ≤ read') (hbound : read' ≤ block.length) :
    WithinBudget tables block endian before (entries, read') :=
  ⟨h.inside, Nat.le_trans h.counted hmore, hbound⟩

theorem WithinBudget.append {read' : Nat} (hentry : entry.Inside tables block endian)
    (hmore : read + tables.valueBytes entry ≤ read') (hbound : read' ≤ block.length) :
    WithinBudget tables block endian before (entries ++ [entry], read') := by
  refine ⟨?_, ?_, hbound⟩
  · intro other hother
    rcases List.mem_append.mp hother with hmem | hlast
    · exact h.inside other hmem
    · rw [List.mem_singleton.mp hlast]
      exact hentry
  · have hcounted := h.counted
    simp only [List.map_append, List.map_cons, List.map_nil, List.sum_append,
      List.sum_singleton] at hcounted ⊢
    omega

end

theorem valueBytes_eq {unit : Nat} (h : tables.sizes entry.entryType = some unit) :
    tables.valueBytes entry = if 4 < entry.count * unit then entry.count * unit else 0 := by
  rw [TiffTables.valueBytes, h]

theorem tiffEntryAt_eq_ok {pos : Nat} (h : pos + 12 ≤ block.length) :
    ∃ entry, tiffEntryAt block endian pos = .ok entry :=
  ⟨_, dif_pos h⟩

/-- The loop over entries that lie in the block keeps to the budget. -/
theorem clean_tiffEntries {present pos : Nat} (hpos : pos + 12 * present ≤ block.length)
    (h : WithinBudget tables block endian before (entries, read)) :
    Clean Stop.Faulty (tiffEntries tables block endian name code present pos entries read)
      (WithinBudget tables block endian before) := by
  induction present generalizing pos entries read with
  | zero => exact Clean.pure h
  | succ present ih =>
      obtain ⟨entry, hentry⟩ := @tiffEntryAt_eq_ok block endian pos (by omega)
      have hrest : pos + 12 + 12 * present ≤ block.length := by omega
      rw [tiffEntries]
      refine (Clean.of_eq_ok hentry (rfl : entry = entry)).bind fun _ heq => ?_
      subst heq
      split
      · exact ih hrest h
      next unit hunit =>
        have hbytes := valueBytes_eq hunit
        refine Clean.ite (fun hlarge => ?_) fun hsmall => ?_
        · rw [if_pos hlarge] at hbytes
          rw [TiffEntry.unpackNumber_value]
          refine Clean.ite (fun _ => clean_refused _ _) fun hbudget => ?_
          have hbudget := Nat.not_lt.mp hbudget
          refine Clean.ite (fun _ => Clean.pure ?_) fun hfits => ih hrest ?_
          · exact h.more (Nat.le_add_right _ _) hbudget
          · have hfits := Nat.not_lt.mp hfits
            refine h.append ⟨pos, unit, hentry, hunit, ?_⟩ ?_ hbudget
            · rwa [TiffEntry.valueStart, if_pos hlarge]
            · rw [hbytes]
              omega
        · rw [if_neg hsmall] at hbytes
          refine ih hrest (h.append ⟨pos, unit, hentry, hunit, ?_⟩ ?_ h.bounded)
          · rw [TiffEntry.valueStart, if_neg hsmall]
            omega
          · rw [hbytes]
            exact Nat.le_refl read

theorem clean_tiffDirectory {offset : Nat} (h : read ≤ block.length) :
    Clean Stop.Faulty (tiffDirectory tables block endian offset name code read)
      (WithinBudget tables block endian read) := by
  refine Clean.ite (fun _ => Clean.pure (.nothing h)) fun hoffset => ?_
  rw [unpackNumber_eq_ok (by omega)]
  refine Clean.ite (fun _ => clean_refused _ _) fun _ => clean_tiffEntries ?_ (.nothing h)
  have hpresent := Nat.div_mul_le_self (block.length - (offset + 2)) 12
  omega

theorem clean_tiffHeader : Clean Stop.Faulty (tiffHeader tables block) fun _ => True := by
  refine Clean.ite (fun _ => Clean.pure trivial) fun hheader => ?_
  have hlong : 8 ≤ block.length := Nat.not_lt.mp fun hshort => hheader (.inl hshort)
  exact (clean_unpackNumber hlong).bind fun _ _ => Clean.pure trivial

theorem clean_tiffFirstDirectory :
    Clean Stop.Faulty (tiffFirstDirectory tables block name code) fun found =>
      ∀ endian entries, found = some (endian, entries) →
        ∀ entry ∈ entries, entry.Inside tables block endian := by
  refine clean_tiffHeader.bind fun header _ => ?_
  cases header with
  | none => exact Clean.pure (by simp)
  | some header =>
      refine (clean_tiffDirectory (Nat.zero_le _)).bind fun kept hkept => Clean.pure ?_
      rintro _ _ ⟨⟩
      exact hkept.inside

theorem clean_exifTiffFrom {raw : Bytes} {fuel start : Nat} (h : raw.length < start + fuel)
    (hfuel : 0 < fuel) : Clean Stop.Faulty (exifTiffFrom raw fuel start) fun _ => True := by
  induction fuel generalizing start with
  | zero => cases hfuel
  | succ fuel ih =>
      refine Clean.ite (fun hheader => ?_) fun _ => Clean.pure trivial
      have hlength : exifHeader.length = 6 := rfl
      have hlong := hheader.length_le
      rw [List.length_drop] at hlong
      exact Clean.ite (fun _ => clean_refused _ _) fun _ => ih (by omega) (by omega)

theorem clean_exifTiff (raw : Bytes) : Clean Stop.Faulty (exifTiff raw) fun _ => True :=
  clean_exifTiffFrom (by omega) (Nat.succ_pos _)

theorem sizeOf_eq_ok {size : Nat} (h : tables.sizes type = some size) :
    tables.sizeOf type = .ok size := by
  rw [TiffTables.sizeOf, h]
  rfl

theorem width_le_mul {size count : Nat} {format : IntegerFormat}
    (hsize : tables.sizes type = some size) (hformat : integerTypes type = some format)
    (hcount : ¬ count < 1) : format.width ≤ count * size :=
  Nat.le_trans (tables.fits type size format hsize hformat)
    (Nat.le_mul_of_pos_left size (Nat.not_lt.mp hcount))

theorem clean_entryPointer (h : entry.Inside tables block endian) :
    Clean Stop.Faulty (entryPointer tables block endian entry) fun _ => True := by
  obtain ⟨pos, size, -, hsize, hstart⟩ := h
  rw [entryPointer]
  split
  · exact Clean.pure trivial
  next format hformat =>
    refine Clean.ite (fun _ => Clean.pure trivial) fun hcount => ?_
    have hwidth := width_le_mul hsize hformat hcount
    rw [sizeOf_eq_ok hsize]
    refine Clean.ite (fun hsmall => ?_) fun hlarge => ?_
    · have hfour := entry.four
      exact (clean_unpackInteger (by omega)).bind fun _ _ => Clean.pure trivial
    · rw [TiffEntry.valueStart, if_pos (Nat.not_le.mp hlarge)] at hstart
      rw [TiffEntry.unpackNumber_value]
      exact (clean_unpackInteger (by omega)).bind fun _ _ => Clean.pure trivial

theorem clean_directoryPointer {tag : Nat} (h : ∀ entry ∈ entries, entry.Inside tables block endian) :
    Clean Stop.Faulty (directoryPointer tables block endian entries tag) fun _ => True := by
  refine (Clean.loop (fun pointer entry hentry => ?_) none).bind fun _ _ => Clean.pure trivial
  exact Clean.ite (fun _ => Clean.pure trivial) fun _ => clean_entryPointer (h entry hentry)

/-- What the walk of an EXIF block has read keeps to one budget, the block's length. -/
structure ExifReads.WithinBudget (tables : TiffTables) (block : Bytes) (endian : Endian)
    (reads : ExifReads) : Prop where
  block_eq : reads.block = block
  endian_eq : reads.endian = endian
  inside : ∀ entries ∈ reads.directories, ∀ entry ∈ entries, entry.Inside tables block endian
  counted : (reads.directories.flatten.map tables.valueBytes).sum ≤ reads.read
  bounded : reads.read ≤ block.length

namespace ExifReads

theorem clean_directory {reads : ExifReads} (h : reads.WithinBudget tables block endian)
    (offset : Nat) :
    Clean Stop.Faulty (reads.directory tables offset) fun walked =>
      (∀ entry ∈ walked.1, entry.Inside tables block endian) ∧
        walked.2.WithinBudget tables block endian := by
  obtain ⟨rfl, rfl, hinside, hcounted, hbounded⟩ := h
  refine (clean_tiffDirectory hbounded).bind fun kept hkept => Clean.pure ⟨hkept.inside, ?_⟩
  refine ⟨rfl, rfl, ?_, ?_, hkept.bounded⟩
  · intro entries hentries
    rcases List.mem_append.mp hentries with hmem | hlast
    · exact hinside entries hmem
    · rw [List.mem_singleton.mp hlast]
      exact hkept.inside
  · have hmore := hkept.counted
    simp only [List.flatten_append, List.flatten_singleton, List.map_append, List.sum_append]
    omega

theorem clean_subDirectory {entries : List TiffEntry}
    (hentries : ∀ entry ∈ entries, entry.Inside tables block endian) {reads : ExifReads}
    (h : reads.WithinBudget tables block endian) (tag : Nat) :
    Clean Stop.Faulty (reads.subDirectory tables entries tag)
      (WithinBudget tables block endian) := by
  have hpointer : ∀ {reads' : ExifReads} {kept : List TiffEntry} (other : Nat),
      reads'.WithinBudget tables block endian →
      (∀ entry ∈ kept, entry.Inside tables block endian) →
      Clean Stop.Faulty (directoryPointer tables reads'.block reads'.endian kept other)
        fun _ => True := by
    intro reads' kept other hreads hkept
    rw [hreads.block_eq, hreads.endian_eq]
    exact clean_directoryPointer hkept
  refine (hpointer tag h hentries).bind fun start _ => ?_
  cases start with
  | none => exact Clean.pure h
  | some start =>
      refine (clean_directory h start).bind fun walked hwalked => ?_
      obtain ⟨sub, reads'⟩ := walked
      have hinterop : Clean Stop.Faulty (reads'.interop tables sub tag) fun _ => True :=
        Clean.ite (fun _ => hpointer _ hwalked.2 hwalked.1) fun _ => Clean.pure trivial
      refine hinterop.bind fun interop _ => ?_
      cases interop with
      | none => exact Clean.pure hwalked.2
      | some start =>
          exact (clean_directory hwalked.2 start).bind fun _ hlast => Clean.pure hlast.2

end ExifReads

theorem clean_avifExifReads (raw : Bytes) :
    Clean Stop.Faulty (avifExifReads tables raw) fun found =>
      ∀ reads, found = some reads → exifTiff raw = .ok reads.block ∧
        reads.WithinBudget tables reads.block reads.endian := by
  rw [avifExifReads]
  refine Clean.ite (fun _ => clean_refused _ _) fun _ => ?_
  refine (clean_exifTiff raw).returned.bind fun block hblock => ?_
  refine clean_tiffHeader.bind fun header _ => ?_
  cases header with
  | none => exact Clean.pure (by simp)
  | some header =>
      obtain ⟨endian, offset⟩ := header
      have hstart : ExifReads.WithinBudget tables block endian ⟨block, endian, [], 0⟩ :=
        ⟨rfl, rfl, by simp, by simp, Nat.zero_le _⟩
      refine (ExifReads.clean_directory hstart offset).bind fun walked hwalked => ?_
      refine (Clean.foldlM (fun reads tag _ hreads =>
        ExifReads.clean_subDirectory hwalked.1 hreads tag) hwalked.2).bind fun reads hreads => ?_
      refine Clean.pure ?_
      rintro _ ⟨⟩
      obtain ⟨rfl, rfl, hinside, hcounted, hbounded⟩ := hreads
      exact ⟨hblock, rfl, rfl, hinside, hcounted, hbounded⟩

theorem integerTypes_of_orientationTypes {format : IntegerFormat}
    (h : orientationTypes type = some format) : integerTypes type = some format := by
  unfold orientationTypes at h
  split at h
  · exact h
  · exact h
  · cases h

theorem clean_entryOrientation (h : entry.Inside tables block endian) :
    Clean Stop.Faulty (entryOrientation tables endian entry) fun _ => True := by
  obtain ⟨pos, size, -, hsize, -⟩ := h
  rw [entryOrientation]
  split
  · exact Clean.pure trivial
  next format hformat =>
    refine Clean.ite (fun _ => Clean.pure trivial) fun hcount => ?_
    have hwidth := width_le_mul hsize (integerTypes_of_orientationTypes hformat) hcount
    rw [sizeOf_eq_ok hsize]
    refine Clean.ite (fun hsmall => ?_) fun _ => Clean.pure trivial
    have hfour := entry.four
    exact (clean_unpackInteger (by omega)).bind fun _ _ => Clean.pure trivial

theorem clean_exifDirectory (raw : Bytes) :
    Clean Stop.Faulty (exifDirectory tables raw) fun found =>
      ∀ endian entries, found = some (endian, entries) →
        ∃ block, ∀ entry ∈ entries, entry.Inside tables block endian := by
  refine (clean_exifTiff raw).bind fun block _ => clean_tiffFirstDirectory.mono ?_
  intro found hfound endian entries heq
  exact ⟨block, hfound endian entries heq⟩

theorem clean_orientation (rawExif : Option Bytes) :
    Clean Stop.Faulty (orientation tables rawExif) fun _ => True := by
  cases rawExif with
  | none => exact Clean.pure trivial
  | some raw =>
      refine Clean.ite (fun _ => Clean.pure trivial) fun _ => ?_
      refine (clean_exifDirectory raw).bind fun found hfound => ?_
      cases found with
      | none => exact Clean.pure trivial
      | some found =>
          obtain ⟨endian, entries⟩ := found
          obtain ⟨block, hinside⟩ := hfound endian entries rfl
          refine (Clean.loop (fun value entry hentry => ?_) none).bind
            fun _ _ => Clean.pure trivial
          refine Clean.ite (fun _ => ?_) fun _ => Clean.pure trivial
          exact clean_entryOrientation (hinside entry hentry)

end Bounds

/-- For every EXIF block and every table of sizes, the walks of the EXIF directories and
of the orientation read inside the block: they return or refuse the file. Where the walk
of the directories returns, the bytes of value it counted are at least those of the
entries it kept and at most the block's, and every entry it kept has its value inside
the block. -/
theorem exif_reads_within_budget (tables : TiffTables) (raw : Bytes) (rawExif : Option Bytes) :
    Settles (avifExifDirectories tables raw) ∧ Settles (orientation tables rawExif) ∧
      ∀ reads, avifExifReads tables raw = .ok (some reads) →
        exifTiff raw = .ok reads.block ∧
          (reads.directories.flatten.map tables.valueBytes).sum ≤ reads.read ∧
            reads.read ≤ reads.block.length ∧
              ∀ entries ∈ reads.directories, ∀ entry ∈ entries,
                entry.Inside tables reads.block reads.endian := by
  have hreads := @clean_avifExifReads tables raw
  have hdirectories : Clean Stop.Faulty (avifExifDirectories tables raw) fun _ => True :=
    hreads.bind fun _ _ => Clean.pure trivial
  refine ⟨.of_clean hdirectories, .of_clean (clean_orientation rawExif), fun reads hok => ?_⟩
  obtain ⟨hblock, hwithin⟩ := hreads.2 (some reads) hok reads rfl
  exact ⟨hblock, hwithin.counted, hwithin.bounded, hwithin.inside⟩

/-- The types of TIFF 6.0, the directory's own and the 64-bit integer, by their sizes. -/
def namedSizes : Nat → Option Nat
  | 1 | 2 | 6 | 7 => some 1
  | 3 | 8 => some 2
  | 4 | 9 | 11 | 13 => some 4
  | 5 | 10 | 12 | 16 => some 8
  | _ => none

theorem namedSizes_pos (type size : Nat) (h : namedSizes type = some size) : 0 < size := by
  unfold namedSizes at h
  split at h <;> cases h <;> decide

theorem namedSizes_fit (type size : Nat) (format : IntegerFormat)
    (h : namedSizes type = some size) (hformat : integerTypes type = some format) :
    format.width ≤ size := by
  unfold integerTypes at hformat
  split at hformat <;> cases hformat <;> cases h <;> decide

def namedTables : TiffTables where
  prefixes := [[0x4D, 0x4D, 0, 0x2A], [0x49, 0x49, 0x2A, 0]]
  sizes := namedSizes
  positive := namedSizes_pos
  fits := namedSizes_fit

/-- An EXIF block whose IFD0 points at an Exif directory of one eight-byte note. -/
def noteBlock : Bytes :=
  exifHeader ++ [0x49, 0x49, 0x2A, 0, 8, 0, 0, 0] ++
    [1, 0, 0x69, 0x87, 4, 0, 1, 0, 0, 0, 22, 0, 0, 0] ++
      [1, 0, 0x7C, 0x92, 7, 0, 8, 0, 0, 0, 36, 0, 0, 0] ++ List.replicate 8 0

theorem note_reads_within_budget :
    ∃ reads, avifExifReads namedTables noteBlock = .ok (some reads) ∧
      reads.directories.length = 2 ∧ reads.read = 8 ∧ reads.read ≤ reads.block.length := by
  have hwalk : (avifExifReads namedTables noteBlock).toOption.join.map
      (fun reads => (reads.directories.length, reads.read)) = some (2, 8) := by decide
  obtain ⟨reads, hreads, hread⟩ := Option.map_eq_some_iff.mp hwalk
  obtain ⟨hlength, hread⟩ := Prod.mk.inj hread
  have hok : avifExifReads namedTables noteBlock = .ok (some reads) := by
    cases hresult : avifExifReads namedTables noteBlock with
    | error e =>
        rw [hresult] at hreads
        cases hreads
    | ok found =>
        rw [hresult] at hreads
        exact congrArg Except.ok hreads
  obtain ⟨-, -, hreturned⟩ := exif_reads_within_budget namedTables noteBlock none
  exact ⟨reads, hok, hlength, hread, (hreturned reads hok).2.2.1⟩

end Qontinui.Images
