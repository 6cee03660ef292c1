import Mathlib.Data.List.Sort
import Qontinui.Images.AvifBoxes

/-!
The walk of an AVIF's container from `image_sniff.py`: what libavif's parse allocates
and searches is counted against the caps as the walk meets it, and the walk refuses
the file past a cap. A box's method is a program over the counters, and the body of
each of its loops is a program of its own.
-/

namespace Qontinui.Images

open Stopping

def maxFrames : Nat := 1000
def maxAvifBrands : Nat := 64
def maxAvifBoxesPerContainer : Nat := 64
def maxAvifMetaBytes : Nat := 1024 * 1024
def maxAvifMovieBytes : Nat := maxAvifMetaBytes
def maxAvifItems : Nat := 4096
def maxAvifExtents : Nat := 2 * maxAvifItems
def maxAvifReferences : Nat := 2 * maxAvifItems
def maxAvifGroupedEntities : Nat := maxAvifItems
def maxAvifProperties : Nat := 4 * maxAvifItems
def maxAvifAssociations : Nat := 8 * maxAvifItems
def maxAvifTracks : Nat := 8
def maxAvifSampleDescriptions : Nat := 4

/-- The item properties libavif parses into a record of its own. -/
def avifParsedProperties : List Bytes :=
  [ascii ['i', 's', 'p', 'e'], ascii ['c', 'o', 'l', 'r'], ascii ['a', 'v', '1', 'C'],
    ascii ['p', 'a', 's', 'p'], ascii ['c', 'l', 'a', 'p'], ascii ['i', 'r', 'o', 't'],
    ascii ['i', 'm', 'i', 'r'], ascii ['p', 'i', 'x', 'i'], ascii ['a', '1', 'o', 'p'],
    ascii ['l', 's', 'e', 'l'], ascii ['a', '1', 'l', 'x'], ascii ['c', 'l', 'l', 'i']]

def avifVisualSampleEntry : Nat := 78
def avifAv1SampleEntry : Bytes := ascii ['a', 'v', '0', '1']

/-- The counters of a walk; `items` holds each item ID once. -/
structure AvifContainer where
  items : List Nat := []
  extents : Nat := 0
  extentBytes : Nat := 0
  references : Nat := 0
  groupedEntities : Nat := 0
  properties : Nat := 0
  associations : Nat := 0
  copiedBytes : Nat := 0
  tracks : Nat := 0
  toneMapItem : Bool := false
deriving DecidableEq, Repr

abbrev Walk := StateT AvifContainer (Except Stop)

/-- `_StructureRefused`, where the condition holds. -/
def refuseIf (c : Prop) [Decidable c] (message code : String) : Walk Unit :=
  if c then throw (.refused message code) else pure ()

def read (data : Bytes) (pos width : Nat) : Walk Nat := StateT.lift (unpack data pos width)

/-- `elements[i]`, which raises out of range. -/
def elementAt {α : Type} (elements : List α) (i : Nat) : Walk α :=
  match elements[i]? with
  | some x => pure x
  | none => throw .fault

/-- How many samples libavif makes of `chunks` chunks and the sample-to-chunk runs. The
runs still to be taken are in the order of their first chunks. -/
def takeRuns (runs : List (Nat × Nat)) (chunk : Nat) :
    List Nat → Option Nat → Walk (List Nat × Option Nat)
  | [], latest => return ([], latest)
  | run :: waiting, latest => do
      let (first, _) ← elementAt runs run
      if first ≤ chunk then takeRuns runs chunk waiting (max latest (some run))
      else return (run :: waiting, latest)

def chunkSamples (runs : List (Nat × Nat)) (counted : Nat × List Nat × Option Nat) (chunk : Nat) :
    Walk (ForInStep (Nat × List Nat × Option Nat)) := do
  let (samples, waiting, latest) := counted
  let (waiting, latest) ← takeRuns runs chunk waiting latest
  match latest with
  | none => return .yield (samples, waiting, none)
  | some run =>
      let (_, perChunk) ← elementAt runs run
      let samples := samples + perChunk
      if samples > maxFrames then return .done (samples, waiting, some run)
      else return .yield (samples, waiting, some run)

def avifSamples (chunks : Nat) (runs : List (Nat × Nat)) : Walk Nat := do
  let byFirst := (runs.zipIdx.insertionSort fun a b => a.1.1 ≤ b.1.1).map Prod.snd
  let (samples, _) ← forRange (chunkSamples runs) (0, byFirst, none) 1 chunks
  return samples

/-- `struct.iter_unpack(">III", buffer)`, less the third number of each entry. -/
def iterUnpackRuns (buffer : Bytes) : Walk (List (Nat × Nat)) :=
  if buffer.length % 12 = 0 then
    return (List.range (buffer.length / 12)).map fun k =>
      (bigEndian (slice buffer (12 * k) (12 * k + 4)),
        bigEndian (slice buffer (12 * k + 4) (12 * k + 8)))
  else throw .fault

namespace AvifContainer

variable (data : Bytes)

/-- The boxes inside `box`, past `skip` bytes of its own fields, refused past the cap. -/
def children (box : Box) (skip : Nat) : List (Except Stop Box) :=
  (enumerate (avifBoxes data (box.start + skip) box.stop false)).map fun item => do
    let (count, child) ← item
    if count > maxAvifBoxesPerContainer then
      throw (.refused s!"an AVIF '{decodeLatin1 box.kind}' box holds more than {
        maxAvifBoxesPerContainer} boxes" "image_avif_too_many_boxes")
    else return child

/-- An item libavif finds or creates; an ID of 0 it refuses. -/
def item (itemId : Nat) : Walk Unit :=
  if itemId = 0 then return ()
  else do
    modify fun walk => { walk with items := walk.items.insert itemId }
    refuseIf ((← get).items.length > maxAvifItems)
      s!"an AVIF names more than {maxAvifItems} items" "image_avif_too_many_items"

/-- One more entry of a box whose every entry is an item lookup. -/
def entries (count : Nat) (kind : String) : Walk Unit :=
  refuseIf (count > maxAvifItems)
    s!"an AVIF '{kind}' box holds more than {maxAvifItems} entries" "image_avif_too_many_items"

/-- One `infe` entry of an `iinf` box. -/
def itemInfoEntry (_ : Unit) (numbered : Nat × Box) : Walk (ForInStep Unit) := do
  let (count, entry) := numbered
  entries count "iinf"
  if entry.kind ≠ ascii ['i', 'n', 'f', 'e'] ∨ entry.stop < entry.start + 12 then
    return .done ()
  else
    let version ← read data entry.start 1
    if version ≠ 2 ∧ version ≠ 3 then return .done ()
    else if version = 2 then
      named (← read data (entry.start + 4) 2)
        (slice data (entry.start + 8) (entry.start + 12))
    else if entry.stop < entry.start + 14 then return .done ()
    else
      named (← read data (entry.start + 4) 4)
        (slice data (entry.start + 10) (entry.start + 14))
where
  named (itemId : Nat) (itemType : Bytes) : Walk (ForInStep Unit) := do
    item itemId
    modify fun walk =>
      if itemType = ascii ['t', 'm', 'a', 'p'] then { walk with toneMapItem := true } else walk
    return .yield ()

/-- `iinf`: version 0 counts its entries in 16 bits, 1 in 32. -/
def itemInfo (box : Box) : Walk Unit :=
  if box.stop < box.start + 6 then return ()
  else do
    let version ← read data box.start 1
    if version > 1 then return ()
    else if version = 0 then
      listed (← read data (box.start + 4) 2) (box.start + 6)
    else if box.stop < box.start + 8 then return ()
    else listed (← read data (box.start + 4) 4) (box.start + 8)
where
  listed (declared pos : Nat) : Walk Unit :=
    forEach (itemInfoEntry data) ()
      (enumerate ((avifBoxes data pos box.stop false).take declared))

/-- The widths of the fields of an `iloc` box's entries. -/
structure LocationLayout where
  version : Nat
  offsetSize : Nat
  lengthSize : Nat
  baseSize : Nat
  indexSize : Nat

namespace LocationLayout

variable (layout : LocationLayout)

def ofBytes (version sizes more : Nat) : LocationLayout where
  version := version
  offsetSize := sizes / 16
  lengthSize := sizes % 16
  baseSize := more / 16
  indexSize := if version = 0 then 0 else more % 16

/-- Every size is one of those libavif knows. -/
def Known : Prop :=
  ∀ n ∈ [layout.offsetSize, layout.lengthSize, layout.baseSize, layout.indexSize],
    n ∈ [0, 4, 8]

instance : Decidable layout.Known := by unfold Known; infer_instance

def idSize : Nat := if layout.version < 2 then 2 else 4

def perExtent : Nat := layout.indexSize + layout.offsetSize + layout.lengthSize

def fields : Nat :=
  layout.idSize + (if layout.version = 0 then 0 else 2) + 2 + layout.baseSize + 2

end LocationLayout

/-- One extent of an item: where the next begins, and whether the box ended here. -/
def extent (layout : LocationLayout) (stop : Nat) (reached : Nat × Bool) (_ : Nat) :
    Walk (ForInStep (Nat × Bool)) := do
  let (pos, _) := reached
  modify fun walk => { walk with extents := walk.extents + 1 }
  refuseIf ((← get).extents > maxAvifExtents)
    s!"an AVIF's items hold more than {maxAvifExtents} extents" "image_avif_too_many_extents"
  if stop < pos + layout.perExtent then return .done (pos, true)
  else
    let lengthAt := pos + layout.indexSize + layout.offsetSize
    let length := bigEndian (slice data lengthAt (lengthAt + layout.lengthSize))
    modify fun walk => { walk with extentBytes := walk.extentBytes + length }
    refuseIf ((← get).extentBytes > data.length)
      s!"an AVIF's item extents add up to more than the {data.length}-byte file"
      "image_avif_item_data_reread"
    return .yield (pos + layout.perExtent, false)

/-- One entry of an `iloc` box, with its extents. -/
def locationEntry (layout : LocationLayout) (stop pos count : Nat) : Walk (ForInStep Nat) := do
  entries count "iloc"
  if stop < pos + layout.fields then return .done pos
  else
    item (← read data pos layout.idSize)
    let extents ← read data (pos + layout.fields - 2) 2
    let (pos, ended) ←
      forRange (extent data layout stop) (pos + layout.fields, false) 0 extents
    if ended then return .done pos else return .yield pos

/-- `iloc`, versions 0 to 2. -/
def itemLocations (box : Box) : Walk Unit :=
  if box.stop < box.start + 8 then return ()
  else do
    let version ← read data box.start 1
    if version > 2 then return ()
    else
      let sizes ← read data (box.start + 4) 1
      let more ← read data (box.start + 5) 1
      let layout := LocationLayout.ofBytes version sizes more
      if ¬ layout.Known then return ()
      else
        let declared ← read data (box.start + 6) layout.idSize
        let _ ← forRange (locationEntry data layout box.stop)
          (box.start + 6 + layout.idSize) 1 declared

/-- One property of a list: to the payload bytes an association copies it adds its own. -/
def property (parsed : List Bytes) (copied : List Nat) (prop : Box) :
    Walk (ForInStep (List Nat)) := do
  modify fun walk => { walk with properties := walk.properties + 1 }
  refuseIf ((← get).properties > maxAvifProperties)
    s!"an AVIF holds more than {maxAvifProperties} item properties"
    "image_avif_too_many_properties"
  return .yield (copied ++ [if prop.kind ∈ parsed then 0 else prop.stop - prop.start])

/-- The properties in an `ipco`, or in a sample entry past its fixed fields. -/
def propertyList (box : Box) (skip : Nat) (track : Bool) : Walk (List Nat) :=
  let parsed := avifParsedProperties ++
    [if track then ascii ['a', 'u', 'x', 'i'] else ascii ['a', 'u', 'x', 'C']]
  forEach (property parsed) [] (avifBoxes data (box.start + skip) box.stop false)

/-- One association of an `ipma` entry: it copies the payload of the property it names. -/
def association (pos width : Nat) (copied : List Nat) (_ : Unit) (k : Nat) :
    Walk (ForInStep Unit) := do
  let field := bigEndian (slice data (pos + k * width) (pos + (k + 1) * width))
  let index := field % (if width = 2 then 0x8000 else 0x80)
  if 0 < index ∧ index ≤ copied.length then
    let bytes ← elementAt copied (index - 1)
    modify fun walk => { walk with copiedBytes := walk.copiedBytes + bytes }
    return .yield ()
  else return .yield ()

/-- One entry of an `ipma` box, with its associations. -/
def associationEntry (idSize width stop : Nat) (copied : List Nat) (pos count : Nat) :
    Walk (ForInStep Nat) := do
  entries count "ipma"
  if stop < pos + idSize + 1 then return .done pos
  else
    item (← read data pos idSize)
    let associations ← read data (pos + idSize) 1
    let pos := pos + idSize + 1
    if stop < pos + associations * width then return .done pos
    else
      modify fun walk => { walk with associations := walk.associations + associations }
      refuseIf ((← get).associations > maxAvifAssociations)
        s!"an AVIF makes more than {maxAvifAssociations} property associations"
        "image_avif_too_many_associations"
      forRange (association data pos width copied) () 0 associations
      refuseIf ((← get).copiedBytes > maxAvifMetaBytes)
        s!"an AVIF's property associations copy more than {
          maxAvifMetaBytes} bytes of property data"
        "image_avif_property_data_recopied"
      return .yield (pos + associations * width)

/-- `ipma`: an item's ID in 16 bits at version 0, 32 above; a property's index in 7
bits, or 15 with flag 1. -/
def propertyAssociations (box : Box) (copied : List Nat) : Walk Unit :=
  if box.stop < box.start + 8 then return ()
  else do
    let version ← read data box.start 1
    let flags ← read data (box.start + 3) 1
    let idSize := if version = 0 then 2 else 4
    let width := if flags % 2 = 1 then 2 else 1
    let declared ← read data (box.start + 4) 4
    let _ ← forRange (associationEntry data idSize width box.stop copied) (box.start + 8) 1
      declared

def propertyAssociationsChild (copied : List Nat) (_ : Unit) (child : Box) :
    Walk (ForInStep Unit) := do
  if child.kind ≠ ascii ['i', 'p', 'm', 'a'] then return .done ()
  else
    propertyAssociations data child copied
    return .yield ()

/-- `iprp`: its `ipco`, then its `ipma` boxes. -/
def itemProperties (box : Box) : Walk Unit :=
  match children data box 0 with
  | [] => return ()
  | .error e :: _ => throw e
  | .ok container :: rest =>
      if container.kind ≠ ascii ['i', 'p', 'c', 'o'] then return ()
      else do
        let copied ← propertyList data container 0 false
        forEach (propertyAssociationsChild data copied) () rest

def countReferences (more : Nat) : Walk Unit := do
  modify fun walk => { walk with references := walk.references + more }
  refuseIf ((← get).references > maxAvifReferences)
    s!"an AVIF holds more than {maxAvifReferences} item references"
    "image_avif_too_many_references"

/-- The IDs a reference lists, by one `struct.unpack_from`. -/
def unpackIds (pos idSize listed : Nat) : Walk (List Nat) :=
  StateT.lift <| (unpackBytes data pos (listed * idSize)).map fun bytes =>
    (List.range listed).map fun k => bigEndian (slice bytes (k * idSize) ((k + 1) * idSize))

/-- One reference box of an `iref` box. -/
def reference (idSize : Nat) (_ : Unit) (reference : Box) : Walk (ForInStep Unit) :=
  if reference.stop < reference.start + idSize + 2 then do
    countReferences 1
    return .done ()
  else do
    let fromId := bigEndian (slice data reference.start (reference.start + idSize))
    let declared ← read data (reference.start + idSize) 2
    let first := reference.start + idSize + 2
    let listed := min declared ((reference.stop - first) / idSize)
    countReferences (1 + listed)
    item fromId
    if reference.kind = ascii ['d', 'i', 'm', 'g'] then
      let ids ← unpackIds data first idSize listed
      forEach (fun _ toId => do item toId; return .yield ()) () (ids.map .ok)
      return .yield ()
    else return .yield ()

/-- `iref`, version 0 (16-bit item IDs) or 1 (32-bit). -/
def itemReferences (box : Box) : Walk Unit :=
  if box.stop < box.start + 4 then return ()
  else do
    let version ← read data box.start 1
    if version > 1 then return ()
    else
      forEach (reference data (if version = 0 then 2 else 4)) ()
        (avifBoxes data (box.start + 4) box.stop false)

/-- The groups of a `grpl` box from `pos` on, each read on from where the last one's
IDs end. -/
def entityGroupsFrom (stop : Nat) : Nat → Nat → Nat → Walk Unit
  | 0, _, _ => throw .hang
  | fuel + 1, groups, pos =>
      match avifBoxes data pos stop false with
      | [] => return ()
      | .error e :: _ => throw e
      | .ok group :: _ => do
          refuseIf (groups + 1 > maxAvifBoxesPerContainer)
            s!"an AVIF 'grpl' box holds more than {maxAvifBoxesPerContainer} boxes"
            "image_avif_too_many_boxes"
          if stop < group.start + 12 then return ()
          else
            let declared ← read data (group.start + 8) 4
            let pos := group.start + 12
            let listed := min declared ((stop - pos) / 4)
            modify fun walk => { walk with groupedEntities := walk.groupedEntities + listed }
            refuseIf ((← get).groupedEntities > maxAvifGroupedEntities)
              s!"an AVIF's entity groups list more than {maxAvifGroupedEntities} entity IDs"
              "image_avif_too_many_grouped_entities"
            if listed < declared then return ()
            else entityGroupsFrom stop fuel (groups + 1) (pos + 4 * listed)

def entityGroups (box : Box) : Walk Unit :=
  entityGroupsFrom data box.stop (box.stop - box.start + 1) 0 box.start

/-- A box inside a `meta` box, by its type. -/
def metaPart (child : Box) : Walk Unit :=
  if child.kind = ascii ['i', 'i', 'n', 'f'] then itemInfo data child
  else if child.kind = ascii ['i', 'l', 'o', 'c'] then itemLocations data child
  else if child.kind = ascii ['i', 'p', 'r', 'p'] then itemProperties data child
  else if child.kind = ascii ['i', 'r', 'e', 'f'] then itemReferences data child
  else if child.kind = ascii ['g', 'r', 'p', 'l'] then entityGroups data child
  else return ()

def metaChild (_ : Unit) (child : Box) : Walk (ForInStep Unit) := do
  metaPart data child
  return .yield ()

/-- A `meta` box: past its version and flags, its item boxes. -/
def metaBox (box : Box) : Walk Unit := do
  refuseIf (box.stop - box.start > maxAvifMetaBytes)
    s!"an AVIF 'meta' box is over {maxAvifMetaBytes} bytes" "image_avif_meta_too_large"
  forEach (metaChild data) () (children data box 4)

/-- How many of `declared` entries of `size` bytes, after `fields` bytes of the box's own,
the box holds; refused once they and the `before` entries already in the same table pass
the cap on frames. -/
def tableEntries (box : Box) (declared size fields before : Nat) : Walk Nat := do
  let present := min declared ((box.stop - box.start - fields) / size)
  refuseIf (before + present > maxFrames)
    s!"an AVIF '{decodeLatin1 box.kind}' sample table holds more than {maxFrames} entries"
    "image_avif_sample_table_too_large"
  return present

/-- One `stsd` entry: an AV1 entry's properties count. -/
def sampleDescription (_ : Unit) (numbered : Nat × Box) : Walk (ForInStep Unit) := do
  let (count, entry) := numbered
  refuseIf (count > maxAvifSampleDescriptions)
    s!"an AVIF track holds more than {maxAvifSampleDescriptions} sample descriptions"
    "image_avif_too_many_sample_descriptions"
  if entry.kind = avifAv1SampleEntry ∧ entry.start + avifVisualSampleEntry ≤ entry.stop then
    let _ ← propertyList data entry avifVisualSampleEntry true
    return .yield ()
  else return .yield ()

def sampleDescriptions (box : Box) (declared : Nat) : Walk Unit :=
  forEach (sampleDescription data) ()
    (enumerate ((avifBoxes data (box.start + 8) box.stop false).take declared))

/-- One table of an `stbl` box: the chunks and the sample-to-chunk runs so far. libavif
appends every chunk-offset and sample-to-chunk box to one table each. -/
def sampleTablePart (tables : Nat × List (Nat × Nat)) (table : Box) (declared : Nat) :
    Walk (Nat × List (Nat × Nat)) := do
  let (chunks, runs) := tables
  if table.kind = ascii ['s', 't', 'c', 'o'] then
    return (chunks + (← tableEntries table declared 4 8 chunks), runs)
  else if table.kind = ascii ['c', 'o', '6', '4'] then
    return (chunks + (← tableEntries table declared 8 8 chunks), runs)
  else if table.kind = ascii ['s', 't', 's', 'c'] then
    let present ← tableEntries table declared 12 8 runs.length
    let more ← iterUnpackRuns (slice data (table.start + 8) (table.start + 8 + 12 * present))
    return (chunks, runs ++ more)
  else if table.kind = ascii ['s', 't', 's', 'z'] then
    if table.stop < table.start + 12 then return tables
    else
      let sampleSize ← read data (table.start + 4) 4
      let count ← read data (table.start + 8) 4
      if sampleSize = 0 then
        let _ ← tableEntries table count 4 12 0
        return tables
      else return tables
  else if table.kind = ascii ['s', 't', 't', 's'] then
    let _ ← tableEntries table declared 8 8 0
    return tables
  else if table.kind = ascii ['s', 't', 's', 's'] then
    let _ ← tableEntries table declared 4 8 0
    return tables
  else if table.kind = ascii ['s', 't', 's', 'd'] then
    sampleDescriptions data table declared
    return tables
  else return tables

def sampleTableChild (tables : Nat × List (Nat × Nat)) (table : Box) :
    Walk (ForInStep (Nat × List (Nat × Nat))) :=
  if table.stop < table.start + 8 then return .yield tables
  else do
    let declared ← read data (table.start + 4) 4
    return .yield (← sampleTablePart data tables table declared)

/-- `stbl`: its sample descriptions, and the samples its chunk tables declare. -/
def sampleTable (box : Box) : Walk Unit := do
  let (chunks, runs) ← forEach (sampleTableChild data) (0, []) (children data box 0)
  let samples ← avifSamples chunks runs
  refuseIf (samples > maxFrames) s!"an AVIF track holds more than {maxFrames} frames"
    "image_too_many_frames"

def mediaInformationChild (_ : Unit) (information : Box) : Walk (ForInStep Unit) := do
  if information.kind = ascii ['s', 't', 'b', 'l'] then
    sampleTable data information
    return .yield ()
  else return .yield ()

def mediaChild (_ : Unit) (media : Box) : Walk (ForInStep Unit) := do
  if media.kind ≠ ascii ['m', 'i', 'n', 'f'] then return .yield ()
  else
    forEach (mediaInformationChild data) () (children data media 0)
    return .yield ()

def trackChild (_ : Unit) (part : Box) : Walk (ForInStep Unit) := do
  if part.kind = ascii ['m', 'e', 't', 'a'] then
    metaBox data part
    return .yield ()
  else if part.kind = ascii ['m', 'd', 'i', 'a'] then
    forEach (mediaChild data) () (children data part 0)
    return .yield ()
  else return .yield ()

def movieChild (_ : Unit) (child : Box) : Walk (ForInStep Unit) := do
  if child.kind ≠ ascii ['t', 'r', 'a', 'k'] then return .yield ()
  else
    modify fun walk => { walk with tracks := walk.tracks + 1 }
    refuseIf ((← get).tracks > maxAvifTracks)
      s!"an AVIF holds more than {maxAvifTracks} tracks" "image_avif_too_many_tracks"
    forEach (trackChild data) () (children data child 0)
    return .yield ()

/-- A `moov` box: its tracks. -/
def movie (box : Box) : Walk Unit := do
  refuseIf (box.stop - box.start > maxAvifMovieBytes)
    s!"an AVIF 'moov' box is over {maxAvifMovieBytes} bytes" "image_avif_movie_too_large"
  forEach (movieChild data) () (children data box 0)

end AvifContainer

/-- The `ftyp` box at the start of the data: how many compatible brands it lists, and its
major brand with the first of them. -/
def ftyp (data : Bytes) : Option (Nat × List Bytes) :=
  if data.length < 16 ∨ slice data 4 8 ≠ ascii ['f', 't', 'y', 'p'] then none
  else
    let boxSize := bigEndian (slice data 0 4)
    if boxSize < 16 ∨ boxSize > data.length then none
    else
      let listed := (boxSize - 16) / 4
      let brands := (List.range (min listed maxAvifBrands)).map fun i =>
        slice data (16 + 4 * i) (20 + 4 * i)
      some (listed, slice data 8 12 :: brands)

def avif : Bytes := ascii ['a', 'v', 'i', 'f']
def avis : Bytes := ascii ['a', 'v', 'i', 's']
def tmap : Bytes := ascii ['t', 'm', 'a', 'p']

/-- `_is_avif`: an `ftyp` box that names an AVIF brand. -/
def isAvif (data : Bytes) : Bool :=
  match ftyp data with
  | none => false
  | some (_, brands) => brands.any fun brand => brand = avif ∨ brand = avis

/-- What libavif has met of the boxes its brands require. -/
structure Seen where
  metaSeen : Bool := false
  movieSeen : Bool := false

/-- One box at the top level: the walk ends once libavif has what it needs. -/
def containerBox (data : Bytes) (brands : List Bytes) (seen : Seen) (numbered : Nat × Box) :
    Walk (ForInStep Seen) := do
  let (count, box) := numbered
  refuseIf (count > maxAvifBoxesPerContainer)
    s!"an AVIF holds more than {maxAvifBoxesPerContainer
      } top-level boxes before what libavif reads" "image_avif_too_many_boxes"
  let seen ← topLevelBox seen box
  if (seen.metaSeen ∨ ¬ (avif ∈ brands ∨ tmap ∈ brands)) ∧ (seen.movieSeen ∨ avis ∉ brands) ∧
      ((← get).toneMapItem ∨ tmap ∉ brands) then
    return .done seen
  else return .yield seen
where
  topLevelBox (seen : Seen) (box : Box) : Walk Seen := do
    if box.kind = ascii ['m', 'e', 't', 'a'] then
      AvifContainer.metaBox data box
      return { seen with metaSeen := true }
    else if box.kind = ascii ['m', 'o', 'o', 'v'] then
      AvifContainer.movie data box
      return { seen with movieSeen := true }
    else return seen

def containerWalk (data : Bytes) (brands : List Bytes) : Walk Unit := do
  let _ ← forEach (containerBox data brands) {} (enumerate (avifBoxes data 0 data.length true))

/-- Walk an AVIF's container the way libavif's parse does, before it parses it. Without
an `ftyp` box it is a `TypeError`. -/
def avifContainer (data : Bytes) : Except Stop Unit := do
  match ftyp data with
  | none => throw .fault
  | some (listed, brands) =>
      if listed > maxAvifBrands then
        throw (.refused s!"an AVIF's 'ftyp' box lists more than {maxAvifBrands} brands"
          "image_avif_too_many_brands")
      else
        let _ ← (containerWalk data brands).run {}

end Qontinui.Images
