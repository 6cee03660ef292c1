import Qontinui.Base.Faults

/-!
The bytes of an uploaded image and the boxes of an AVIF's container, as
`image_sniff.py` reads them: fixed-width reads that fault out of the bounds of
the data, slices that never do, and the generator of the boxes in a range.
-/

namespace Qontinui.Images

open Stopping

/-- Python `bytes`. -/
abbrev Bytes := List UInt8

def ascii (text : List Char) : Bytes := text.map fun c => UInt8.ofNat c.toNat

/-- `decode('latin-1')`: every byte is the code point of its value. -/
def decodeLatin1 (bytes : Bytes) : String :=
  String.ofList (bytes.map fun b => Char.ofNat b.toNat)

/-- `int.from_bytes(bytes, "big")`. -/
def bigEndian (bytes : Bytes) : Nat := bytes.foldl (fun n b => n * 256 + b.toNat) 0

/-- `data[start : stop]`, which is cut where the data ends. -/
def slice (data : Bytes) (start stop : Nat) : Bytes := (data.drop start).take (stop - start)

/-- Why a walk of the upload's structure stops: it refuses the structure, or it
faults, or it never ends. -/
inductive Stop
  | refused (message code : String)
  | fault
  | hang
deriving DecidableEq, Repr

/-- What `_walking` does not turn into a refusal of the file. -/
def Stop.Faulty : Stop → Prop
  | .refused _ _ => False
  | .fault => True
  | .hang => True

/-- `width` bytes at `pos`, by `struct.unpack_from`, which raises where they are not all
in the bounds of the data. -/
def unpackBytes (data : Bytes) (pos width : Nat) : Except Stop Bytes :=
  if data.length < pos + width then .error .fault else .ok (slice data pos (pos + width))

/-- An unsigned big-endian field of `width` bytes at `pos`; one byte wide, it is
`data[pos]`, which raises in the same places. -/
def unpack (data : Bytes) (pos width : Nat) : Except Stop Nat :=
  (unpackBytes data pos width).map bigEndian

/-- An ISO-BMFF box: its type and its body, from `start` to before `stop`. -/
structure Box where
  kind : Bytes
  start : Nat
  stop : Nat
deriving DecidableEq, Repr

def uuid : Bytes := ascii ['u', 'u', 'i', 'd']

/-- What a box header says: the box's type and size, and how long the header is. -/
structure BoxHeader where
  kind : Bytes
  length : Nat
  size : Nat

/-- The header of the box at `pos`, with its 64-bit size where the 32-bit one is 1;
nothing where the bytes run out. -/
def boxHeader (data : Bytes) (pos stop : Nat) : Except Stop (Option BoxHeader) := do
  let size ← unpack data pos 4
  let kind ← unpackBytes data (pos + 4) 4
  if size = 1 then
    if stop < pos + 16 then return none
    else
      let size ← unpack data (pos + 8) 8
      return some ⟨kind, 16, size⟩
  else return some ⟨kind, 8, size⟩

/-- The boxes in `data[pos : stop]`: they end at a header too small for itself, at a
box that runs past its container and where the bytes run out. No box is empty, so a
fuel of more than the bytes that are left is never used up. -/
def avifBoxesFrom (data : Bytes) (stop : Nat) (topLevel : Bool) :
    Nat → Nat → List (Except Stop Box)
  | 0, _ => [.error .hang]
  | fuel + 1, pos =>
      if stop < pos + 8 then []
      else
        match boxHeader data pos stop with
        | .error e => [.error e]
        | .ok none => []
        | .ok (some found) =>
            let header := if found.kind = uuid then found.length + 16 else found.length
            let size := if found.size = 0 ∧ topLevel then stop - pos else found.size
            if size < header ∨ stop < pos + size then []
            else .ok ⟨found.kind, pos + header, pos + size⟩ ::
              avifBoxesFrom data stop topLevel fuel (pos + size)

def avifBoxes (data : Bytes) (start stop : Nat) (topLevel : Bool) : List (Except Stop Box) :=
  avifBoxesFrom data stop topLevel (stop - start + 1) start

theorem not_faulty_refused (message code : String) : ¬ (Stop.refused message code).Faulty := id

variable {data : Bytes} {pos : Nat} {width stop : Nat}

theorem unpackBytes_eq_ok (h : pos + width ≤ data.length) :
    unpackBytes data pos width = .ok (slice data pos (pos + width)) :=
  if_neg (by omega)

theorem unpack_eq_ok (h : pos + width ≤ data.length) :
    unpack data pos width = .ok (bigEndian (slice data pos (pos + width))) := by
  rw [unpack, unpackBytes_eq_ok h]
  rfl

theorem byte_unpack (h : pos < data.length) : unpack data pos 1 = .ok (data.getD pos 0).toNat := by
  rw [unpack_eq_ok h, slice, Nat.add_sub_cancel_left, List.drop_eq_getElem_cons h,
    List.getD_eq_getElem?_getD, List.getElem?_eq_getElem h]
  simp only [List.take_succ_cons, List.take_zero, bigEndian, List.foldl_cons, List.foldl_nil,
    Nat.zero_mul, Nat.zero_add, Option.getD_some]

theorem unpack_eq_fault (h : data.length < pos + width) :
    unpack data pos width = .error .fault := by
  rw [unpack, unpackBytes, if_pos h]
  rfl

/-- A box in `data[pos : stop]`: past its header, and not past the end. -/
structure Box.Within (box : Box) (pos stop : Nat) : Prop where
  start_le : pos + 8 ≤ box.start
  le_stop : box.start ≤ box.stop
  stop_le : box.stop ≤ stop

theorem boxHeader_ok (hdata : stop ≤ data.length) (hpos : pos + 8 ≤ stop) :
    ∃ header, boxHeader data pos stop = .ok header ∧ ∀ found ∈ header, 8 ≤ found.length := by
  have hsize : unpack data pos 4 = .ok _ := unpack_eq_ok (by omega)
  have hkind : unpackBytes data (pos + 4) 4 = .ok _ := unpackBytes_eq_ok (by omega)
  generalize bigEndian (slice data pos (pos + 4)) = size at hsize
  generalize slice data (pos + 4) (pos + 4 + 4) = kind at hkind
  simp only [boxHeader, hsize, hkind, bind, Except.bind]
  split
  · split
    · exact ⟨none, rfl, nofun⟩
    · rw [unpack_eq_ok (by omega)]
      exact ⟨some ⟨kind, 16, _⟩, rfl, by rintro _ ⟨⟩; simp⟩
  · exact ⟨some ⟨kind, 8, size⟩, rfl, by rintro _ ⟨⟩; simp⟩

/-- The boxes of a range of the data lie in it, and reading them neither faults nor
goes on for ever. -/
theorem streams_avifBoxesFrom {fuel : Nat} {topLevel : Bool} (hdata : stop ≤ data.length)
    (hfuel : 0 < fuel) (hleft : stop < pos + fuel) :
    Streams Stop.Faulty (fun box => box.Within pos stop)
      (avifBoxesFrom data stop topLevel fuel pos) := by
  induction fuel generalizing pos with
  | zero => cases hfuel
  | succ fuel ih =>
      rw [avifBoxesFrom]
      split
      · exact nofun
      next hpos =>
        obtain ⟨header, hheader, hlength⟩ := boxHeader_ok hdata (Nat.not_lt.mp hpos)
        simp only [hheader]
        cases header with
        | none => exact nofun
        | some found =>
            have h8 := hlength found rfl
            dsimp only
            generalize hlong : (if found.kind = uuid then _ else _) = header
            generalize (if found.size = 0 ∧ topLevel = true then _ else _) = size
            have hheader8 : 8 ≤ header := by split at hlong <;> omega
            split
            · exact nofun
            next hsize =>
              intro item hitem
              rcases List.mem_cons.mp hitem with rfl | hrest
              · refine ⟨?_, nofun⟩
                rintro _ ⟨⟩
                exact ⟨by simp; omega, by simp; omega, by simp; omega⟩
              · obtain ⟨hok, herror⟩ := @ih (pos + size) (by omega) (by omega) item hrest
                refine ⟨fun box hbox => ?_, herror⟩
                obtain ⟨hstart, hbody, hend⟩ := hok box hbox
                exact ⟨by omega, hbody, hend⟩

theorem streams_avifBoxes {start : Nat} {topLevel : Bool} (hdata : stop ≤ data.length) :
    Streams Stop.Faulty (fun box => box.Within start stop)
      (avifBoxes data start stop topLevel) :=
  streams_avifBoxesFrom hdata (by omega) (by omega)

end Qontinui.Images
