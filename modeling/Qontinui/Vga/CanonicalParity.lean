import Mathlib.Data.List.Sort
import Mathlib.Data.String.Basic
import Qontinui.Base.JsonParts

/-!
The canonical JSON of a state machine: keys sorted recursively, then `JSON.stringify`; and what
`json.dumps(data, sort_keys=True, separators=(",", ":"))` writes for the same data. The data are
documents whose objects have distinct keys, and whose numbers are safe integers.

The two serializers agree on data whose keys and strings are ASCII below DEL, without the
key `__proto__`, and where the array indices among the keys of an object come in the order of
the keys' texts. The texts are compared by their quotes, by their characters, and by their one
reading.
-/

namespace Qontinui.Vga

open JsonDoc

/-- A `VgaCanonicalExport`: an object of the data the two serializers share. -/
structure CanonicalExport where
  fields : List (String × JsonDoc)
  distinct : ∀ inner, Occurs (.obj inner) (.obj fields) → (inner.map Prod.fst).Nodup
  safe : ∀ n, Occurs (.int n) (.obj fields) → n.natAbs ≤ 2 ^ 53 - 1

def indexKey? (key : String) : Option Nat := (arrayIndex? key).filter fun i => i < 2 ^ 32 - 1

/-- The order of `sort()`: by UTF-16 code units. -/
def byUnits (a b : String × JsonDoc) : Bool := decide (charCodes a.1 ≤ charCodes b.1)

def byIndex (a b : String × JsonDoc) : Bool :=
  decide ((indexKey? a.1).getD 0 ≤ (indexKey? b.1).getD 0)

/-- The own properties of an object in the order `JSON.stringify` meets them: array indices
ascending, then the other keys as they were added. -/
def ownProperties (added : List (String × JsonDoc)) : List (String × JsonDoc) :=
  (added.filter fun field => (indexKey? field.1).isSome).mergeSort byIndex ++
    added.filter fun field => (indexKey? field.1).isNone

/-- The object that `sorted[key] = …` fills, key after sorted key: an assignment to `__proto__`
adds no property. -/
def sortedFields (fields : List (String × JsonDoc)) : List (String × JsonDoc) :=
  ownProperties ((fields.mergeSort byUnits).filter fun field => field.1 != "__proto__")

def sortJsonValue : JsonDoc → JsonDoc := mapFields sortedFields

def canonicalJsonString (data : CanonicalExport) : String :=
  String.ofList (text jsonChar (sortJsonValue (.obj data.fields)))

/-! ### The Python form -/

/-- A character as `json.dumps` writes it, with `ensure_ascii`. -/
def pyChar (c : Char) : List Char :=
  if c.toNat = 34 || c.toNat = 92 then [Char.ofNat 92, c]
  else if c.toNat = 8 then [Char.ofNat 92, 'b']
  else if c.toNat = 9 then [Char.ofNat 92, 't']
  else if c.toNat = 10 then [Char.ofNat 92, 'n']
  else if c.toNat = 12 then [Char.ofNat 92, 'f']
  else if c.toNat = 13 then [Char.ofNat 92, 'r']
  else if 32 ≤ c.toNat && c.toNat ≤ 126 then [c]
  else (utf16Char c).flatMap fun unit => Char.ofNat 92 :: 'u' :: hexDigits 4 unit

/-- The order of `sorted()`: by code points. -/
def byPoints (a b : String × JsonDoc) : Bool := decide (a.1 ≤ b.1)

def dumpedFields (fields : List (String × JsonDoc)) : List (String × JsonDoc) :=
  fields.mergeSort byPoints

/-- `json.dumps(data, sort_keys=True, separators=(",", ":"))`. -/
def dumps (data : CanonicalExport) : String :=
  String.ofList (text pyChar (mapFields dumpedFields (.obj data.fields)))

/-! ### The orders -/

theorem pairwise_sorted {α κ : Type*} [LE κ] {le : α → α → Bool} (rank : α → κ)
    (hle : ∀ a b, le a b = true ↔ rank a ≤ rank b) (htotal : ∀ a b : κ, a ≤ b ∨ b ≤ a)
    (htrans : ∀ {a b c : κ}, a ≤ b → b ≤ c → a ≤ c) (items : List α) :
    (items.mergeSort le).Pairwise fun a b => rank a ≤ rank b := by
  refine (List.pairwise_mergeSort (fun a b c => ?_) (fun a b => ?_) items).imp (hle _ _).mp
  · rw [hle, hle, hle]
    exact htrans
  · rw [Bool.or_eq_true, hle, hle]
    exact htotal _ _

theorem ownProperties_perm (added : List (String × JsonDoc)) :
    (ownProperties added).Perm added := by
  have hindex : (fun field : String × JsonDoc => (indexKey? field.1).isNone) =
      fun field => !(indexKey? field.1).isSome := by
    funext field
    rw [Option.not_isSome]
  rw [ownProperties, hindex]
  exact ((List.mergeSort_perm _ _).append_right _).trans (List.filter_append_perm _ _)

variable (fields : List (String × JsonDoc))

theorem sortedFields_perm :
    (sortedFields fields).Perm (fields.filter fun field => field.1 != "__proto__") :=
  (ownProperties_perm _).trans ((List.mergeSort_perm _ _).filter _)

theorem sortedFields_subperm : (sortedFields fields).Subperm fields :=
  (sortedFields_perm fields).subperm.trans (List.filter_sublist.subperm)

theorem dumpedFields_perm : (dumpedFields fields).Perm fields :=
  List.mergeSort_perm _ _

/-- How two properties of an object stand: no other key before an array index, the indices
ascending, the other keys by their code units. -/
def Stands (a b : String × JsonDoc) : Prop :=
  (∀ j, indexKey? b.1 = some j → ∃ i, indexKey? a.1 = some i ∧ i ≤ j) ∧
    (indexKey? a.1 = none → charCodes a.1 ≤ charCodes b.1)

theorem sortedFields_stands : (sortedFields fields).Pairwise Stands := by
  have hunits : ((fields.mergeSort byUnits).filter fun field =>
      field.1 != "__proto__").Pairwise fun a b => charCodes a.1 ≤ charCodes b.1 :=
    (pairwise_sorted (fun field => charCodes field.1) (fun _ _ => decide_eq_true_iff) le_total
      le_trans fields).filter _
  rw [sortedFields, ownProperties, List.pairwise_append]
  refine ⟨?_, ?_, ?_⟩
  · have hle (a b : String × JsonDoc) : byIndex a b = true ↔
        (indexKey? a.1).getD 0 ≤ (indexKey? b.1).getD 0 := by rw [byIndex, decide_eq_true_iff]
    refine List.Pairwise.imp_of_mem ?_ (pairwise_sorted _ hle Nat.le_total Nat.le_trans _)
    intro a b ha hb hle
    rw [List.mem_mergeSort, List.mem_filter, Option.isSome_iff_exists] at ha hb
    obtain ⟨i, hi⟩ := ha.2
    obtain ⟨j, hj⟩ := hb.2
    rw [hi, hj] at hle
    refine ⟨fun k hk => ⟨i, hi, ?_⟩, fun hnone => nomatch hi.symm.trans hnone⟩
    cases hj.symm.trans hk
    exact hle
  · refine List.Pairwise.imp_of_mem ?_ (hunits.filter _)
    intro a b _ hb hle
    rw [List.mem_filter, Option.isNone_iff_eq_none] at hb
    exact ⟨fun j hj => (nomatch hb.2.symm.trans hj), fun _ => hle⟩
  · intro a ha b hb
    rw [List.mem_mergeSort, List.mem_filter, Option.isSome_iff_exists] at ha
    rw [List.mem_filter, Option.isNone_iff_eq_none] at hb
    obtain ⟨i, hi⟩ := ha.2
    exact ⟨fun j hj => (nomatch hb.2.symm.trans hj), fun hnone => nomatch hi.symm.trans hnone⟩

theorem dumpedFields_sorted : (dumpedFields fields).Pairwise fun a b => a.1 ≤ b.1 :=
  pairwise_sorted Prod.fst (fun _ _ => decide_eq_true_iff) String.le_total String.le_trans fields

open JsonDoc

/-! ### The codes of characters -/

def readEscape : List Char → Option (Char × List Char)
  | 'b' :: rest => some (Char.ofNat 8, rest)
  | 't' :: rest => some (Char.ofNat 9, rest)
  | 'n' :: rest => some (Char.ofNat 10, rest)
  | 'f' :: rest => some (Char.ofNat 12, rest)
  | 'r' :: rest => some (Char.ofNat 13, rest)
  | 'u' :: _ :: _ :: high :: low :: rest =>
      let digit := low.toNat - if low.isDigit then 48 else 87
      some (Char.ofNat (16 * (high.toNat - 48) + digit), rest)
  | c :: rest => some (c, rest)
  | [] => none

/-- The character of the code that a text begins with, and what follows the code. -/
def readChar : List Char → Option (Char × List Char)
  | [] => none
  | c :: rest => if c = Char.ofNat 92 then readEscape rest else some (c, rest)

theorem hexDigits_control : ∀ n < 32, hexDigits 4 n =
    ['0', '0', digitChar (n / 16), digitChar (n % 16)] := by
  decide

theorem readChar_jsonChar (c : Char) (s : List Char) :
    readChar (jsonChar c ++ s) = some (c, s) := by
  have hchar : ∀ n, c.toNat = n → c = Char.ofNat n := by
    rintro n rfl
    exact (Char.ofNat_toNat c).symm
  rw [jsonChar]
  split_ifs with h1 h2 h3 h4 h5 h6 h7
  · rw [Bool.or_eq_true, decide_eq_true_iff, decide_eq_true_iff] at h1
    rcases h1 with h | h
    · rw [hchar _ h]
      rfl
    · rw [hchar _ h]
      rfl
  · rw [hchar _ h2]
    rfl
  · rw [hchar _ h3]
    rfl
  · rw [hchar _ h4]
    rfl
  · rw [hchar _ h5]
    rfl
  · rw [hchar _ h6]
    rfl
  · rw [hexDigits_control _ h7]
    have hread : ∀ n < 32, Char.ofNat (16 * ((digitChar (n / 16)).toNat - 48) +
        ((digitChar (n % 16)).toNat - if (digitChar (n % 16)).isDigit then 48 else 87)) =
        Char.ofNat n := by decide
    change some _ = some _
    rw [hread _ h7, Char.ofNat_toNat]
    rfl
  · have hne : c ≠ Char.ofNat 92 := by
      rintro rfl
      exact h1 (by decide)
    rw [List.singleton_append, readChar, if_neg hne]

theorem jsonChar_isCode : IsCode jsonChar where
  inj {c d s t} h := by
    have hread := congrArg readChar h
    rw [readChar_jsonChar, readChar_jsonChar, Option.some.injEq, Prod.mk.injEq] at hread
    exact hread
  no_quote {c s t} h := by
    have hread := congrArg readChar h
    have hquote : readChar (quote :: t) = some (quote, t) := by
      rw [readChar, if_neg (by decide)]
    rw [readChar_jsonChar, hquote, Option.some.injEq, Prod.mk.injEq] at hread
    obtain ⟨rfl, rfl⟩ := hread
    rw [show jsonChar quote = [Char.ofNat 92, quote] by decide] at h
    exact absurd (List.cons.inj h).1 (by decide)

theorem of_mem_escapes {units : List Nat} {d : Char}
    (h : d ∈ units.flatMap fun unit => Char.ofNat 92 :: 'u' :: hexDigits 4 unit) :
    d.toNat < 127 ∧ d ≠ quote := by
  obtain ⟨unit, _, hd⟩ := List.mem_flatMap.mp h
  rcases List.mem_cons.mp hd with rfl | hd
  · decide
  rcases List.mem_cons.mp hd with rfl | hd
  · decide
  obtain ⟨i, _, rfl⟩ := List.mem_map.mp hd
  have hdigit : ∀ d < 16, (digitChar d).toNat < 127 ∧ digitChar d ≠ quote := by decide
  exact hdigit _ (Nat.mod_lt _ (by decide))

variable {c : Char} {v : JsonDoc}

theorem jsonChar_eq_pyChar (h : c.toNat < 127) : jsonChar c = pyChar c := by
  rw [jsonChar, pyChar]
  split_ifs with h1 h2 h3 h4 h5 h6 h7 h8 h8
  all_goals try rfl
  · rw [Bool.and_eq_true, decide_eq_true_iff, decide_eq_true_iff] at h8
    omega
  · rw [utf16Char, if_pos (by omega), List.flatMap_singleton]
  · rw [Bool.and_eq_true, decide_eq_true_iff, decide_eq_true_iff] at h8
    omega

theorem jsonChar_of_not_plain (h : 127 ≤ c.toNat) : jsonChar c = [c] := by
  have h34 : ¬ (decide (c.toNat = 34) || decide (c.toNat = 92)) = true := by
    rw [Bool.or_eq_true, decide_eq_true_iff, decide_eq_true_iff]
    omega
  rw [jsonChar, if_neg h34, if_neg (by omega), if_neg (by omega), if_neg (by omega),
    if_neg (by omega), if_neg (by omega), if_neg (by omega)]

theorem pyChar_ascii {d : Char} (h : d ∈ pyChar c) : d.toNat < 127 := by
  have hpair : ∀ e : Char, e.toNat < 127 → d ∈ [Char.ofNat 92, e] → d.toNat < 127 := by
    intro e he hd
    rcases List.mem_cons.mp hd with rfl | hd
    · decide
    · rw [List.mem_singleton.mp hd]
      exact he
  rw [pyChar] at h
  split_ifs at h with h1 h2 h3 h4 h5 h6 h7
  · rw [Bool.or_eq_true, decide_eq_true_iff, decide_eq_true_iff] at h1
    exact hpair c (by omega) h
  · exact hpair 'b' (by decide) h
  · exact hpair 't' (by decide) h
  · exact hpair 'n' (by decide) h
  · exact hpair 'f' (by decide) h
  · exact hpair 'r' (by decide) h
  · rw [Bool.and_eq_true, decide_eq_true_iff, decide_eq_true_iff] at h7
    rw [List.mem_singleton.mp h]
    omega
  · exact (of_mem_escapes h).1

theorem count_quote_codes (c : Char) : (jsonChar c).count quote = (pyChar c).count quote := by
  by_cases hplain : c.toNat < 127
  · rw [jsonChar_eq_pyChar hplain]
  · have hquote : quote ∉ [c] := by
      rw [List.mem_singleton]
      rintro rfl
      exact hplain (by decide)
    have hescape : quote ∉ pyChar c := by
      have hnot : ¬ (decide (c.toNat = 34) || decide (c.toNat = 92)) = true := by
        rw [Bool.or_eq_true, decide_eq_true_iff, decide_eq_true_iff]
        omega
      have hrange : ¬ (decide (32 ≤ c.toNat) && decide (c.toNat ≤ 126)) = true := by
        rw [Bool.and_eq_true, decide_eq_true_iff, decide_eq_true_iff]
        omega
      rw [pyChar, if_neg hnot, if_neg (by omega), if_neg (by omega), if_neg (by omega),
        if_neg (by omega), if_neg (by omega), if_neg hrange]
      exact fun h => (of_mem_escapes h).2 rfl
    rw [jsonChar_of_not_plain (by omega), List.count_eq_zero.mpr hquote,
      List.count_eq_zero.mpr hescape]

/-! ### The data the two agree on -/

def Plain (s : String) : Prop := ∀ c ∈ s.toList, c.toNat < 127

/-- Every array index among the keys follows only smaller ones in the order of the texts. -/
def IndicesLead (keys : List String) : Prop :=
  ∀ a ∈ keys, ∀ b ∈ keys, a < b → ∀ j, indexKey? b = some j → ∃ i, indexKey? a = some i ∧ i ≤ j

/-- Data that JavaScript neither loses, reorders nor leaves unescaped. -/
structure Portable (v : JsonDoc) : Prop where
  plain : ∀ s, Holds v s → Plain s
  no_proto : ∀ fields, Occurs (.obj fields) v → "__proto__" ∉ fields.map Prod.fst
  indices : ∀ fields, Occurs (.obj fields) v → IndicesLead (fields.map Prod.fst)

theorem charCodes_le_iff {a b : String} (ha : Plain a) (hb : Plain b) :
    charCodes a ≤ charCodes b ↔ a ≤ b := by
  have hcodes : ∀ {s : String}, Plain s → charCodes s = s.toList.map Char.toNat := by
    intro s hs
    have hunit : ∀ c ∈ s.toList, utf16Char c = [c.toNat] := by
      intro c hc
      have hlt := hs c hc
      exact if_pos (by omega)
    rw [charCodes, List.flatMap_congr hunit, ← List.map_eq_flatMap]
  have hmono : StrictMono (List.map Char.toNat) := fun xs ys hlt => List.map_lt (fun _ _ h => h) hlt
  rw [hcodes ha, hcodes hb, hmono.le_iff_le, String.le_iff_toList_le]

/-! ### One object -/

variable {fields}

theorem filter_proto (h : "__proto__" ∉ fields.map Prod.fst) :
    fields.filter (fun field => field.1 != "__proto__") = fields := by
  rw [List.filter_eq_self]
  intro field hmem
  rw [bne_iff_ne]
  rintro heq
  exact h (heq ▸ List.mem_map_of_mem hmem)

theorem no_proto_of_perm (h : (sortedFields fields).Perm fields) :
    "__proto__" ∉ fields.map Prod.fst := by
  have hall := List.length_filter_eq_length_iff.mp
    ((sortedFields_perm fields).symm.trans h).length_eq
  intro hkey
  obtain ⟨field, hmem, hproto⟩ := List.mem_map.mp hkey
  exact absurd hproto (bne_iff_ne.mp (hall field hmem))

theorem indicesLead_of_eq (hperm : (sortedFields fields).Perm fields)
    (h : sortedFields fields = dumpedFields fields) : IndicesLead (fields.map Prod.fst) := by
  have hsorted : (sortedFields fields).Pairwise fun x y => x.1 ≤ y.1 := by
    rw [h]
    exact dumpedFields_sorted fields
  have hforall := List.Pairwise.forall_of_forall_of_flip
    (R := fun x y => x.1 < y.1 → ∀ j, indexKey? y.1 = some j → ∃ i, indexKey? x.1 = some i ∧ i ≤ j)
    (fun x _ hlt => absurd hlt (lt_irrefl _))
    ((sortedFields_stands fields).imp fun hstands _ => hstands.1)
    (hsorted.imp fun hle hlt => absurd hlt (not_lt.mpr hle))
  intro a ha b hb
  obtain ⟨x, hx, rfl⟩ := List.mem_map.mp ha
  obtain ⟨y, hy, rfl⟩ := List.mem_map.mp hb
  exact hforall (hperm.mem_iff.mpr hx) (hperm.mem_iff.mpr hy)

theorem indexKey?_inj {a b : String} {i : Nat} (ha : indexKey? a = some i)
    (hb : indexKey? b = some i) : a = b := by
  rw [indexKey?, Option.filter_eq_some_iff] at ha hb
  rw [← toString_of_arrayIndex? ha.1, toString_of_arrayIndex? hb.1]

theorem le_of_stands {keys : List String} (hlead : IndicesLead keys)
    (hplain : ∀ key ∈ keys, Plain key) {x y : String × JsonDoc} (hx : x.1 ∈ keys) (hy : y.1 ∈ keys)
    (h : Stands x y) : x.1 ≤ y.1 := by
  by_contra hnot
  have hlt := not_le.mp hnot
  cases hindex : indexKey? x.1 with
  | none => exact hnot ((charCodes_le_iff (hplain _ hx) (hplain _ hy)).mp (h.2 hindex))
  | some j =>
      obtain ⟨i, hi, hij⟩ := hlead _ hy _ hx hlt j hindex
      obtain ⟨k, hk, hki⟩ := h.1 i hi
      cases hindex.symm.trans hk
      rw [Nat.le_antisymm hij hki] at hi
      exact absurd (indexKey?_inj hi hindex) (ne_of_lt hlt)

theorem eq_of_indicesLead (hdistinct : (fields.map Prod.fst).Nodup)
    (hplain : ∀ key ∈ fields.map Prod.fst, Plain key) (hproto : "__proto__" ∉ fields.map Prod.fst)
    (hlead : IndicesLead (fields.map Prod.fst)) : sortedFields fields = dumpedFields fields := by
  have hperm : (sortedFields fields).Perm fields := by
    have hkept := sortedFields_perm fields
    rwa [filter_proto hproto] at hkept
  have hkey : ∀ {x}, x ∈ sortedFields fields → x.1 ∈ fields.map Prod.fst := fun hx =>
    List.mem_map_of_mem (hperm.mem_iff.mp hx)
  have hsorted : (sortedFields fields).Pairwise fun x y => x.1 ≤ y.1 :=
    (sortedFields_stands fields).imp_of_mem fun hx hy hstands =>
      le_of_stands hlead hplain (hkey hx) (hkey hy) hstands
  refine List.Perm.eq_of_pairwise ?_ hsorted (dumpedFields_sorted fields)
    (hperm.trans (dumpedFields_perm fields).symm)
  intro x y hx hy hxy hyx
  exact List.inj_on_of_nodup_map hdistinct (hperm.mem_iff.mp hx)
    ((dumpedFields_perm fields).mem_iff.mp hy) (le_antisymm hxy hyx)

/-! ### Whole documents -/

/-- The two sorted documents are one exactly where the indices lead in every object. -/
theorem sorted_eq_iff (hdistinct : ∀ fields, Occurs (.obj fields) v → (fields.map Prod.fst).Nodup)
    (hplain : ∀ s, Holds v s → Plain s)
    (hproto : ∀ fields, Occurs (.obj fields) v → "__proto__" ∉ fields.map Prod.fst) :
    sortJsonValue v = mapFields dumpedFields v ↔
      ∀ fields, Occurs (.obj fields) v → IndicesLead (fields.map Prod.fst) := by
  induction v using JsonDoc.induction with
  | null | bool | int | str =>
      rw [sortJsonValue, mapFields, mapFields]
      exact ⟨fun _ _ hobj => (by cases hobj), fun _ => rfl⟩
  | arr items ih =>
      have hitem : ∀ item ∈ items, sortJsonValue item = mapFields dumpedFields item ↔
          ∀ fields, Occurs (.obj fields) item → IndicesLead (fields.map Prod.fst) :=
        fun item hmem => ih item hmem (fun fields hobj => hdistinct fields (.item hmem hobj))
          (fun s hs => hplain s (hs.item hmem)) (fun fields hobj => hproto fields (.item hmem hobj))
      rw [sortJsonValue, mapFields, mapFields, JsonDoc.arr.injEq, mapItems_eq, mapItems_eq,
        List.map_inj_left]
      constructor
      · intro h fields hobj
        cases hobj with
        | item hmem hobj => exact (hitem _ hmem).mp (h _ hmem) fields hobj
      · intro h item hmem
        exact (hitem item hmem).mpr fun fields hobj => h fields (.item hmem hobj)
  | obj fields ih =>
      have hvalue : ∀ field ∈ fields, sortJsonValue field.2 = mapFields dumpedFields field.2 ↔
          ∀ inner, Occurs (.obj inner) field.2 → IndicesLead (inner.map Prod.fst) :=
        fun field hmem => ih field hmem (fun inner hobj => hdistinct inner (.value hmem hobj))
          (fun s hs => hplain s (hs.value hmem))
          (fun inner hobj => hproto inner (.value hmem hobj))
      have hkeys := mapValues_keys sortedFields fields
      have hperm : (sortedFields (mapValues sortedFields fields)).Perm
          (mapValues sortedFields fields) := by
        have hkept := sortedFields_perm (mapValues sortedFields fields)
        rwa [filter_proto (by rw [hkeys]; exact hproto fields .self)] at hkept
      rw [sortJsonValue, mapFields, mapFields, JsonDoc.obj.injEq]
      have hsame : (∀ field ∈ fields, sortJsonValue field.2 = mapFields dumpedFields field.2) →
          mapValues dumpedFields fields = mapValues sortedFields fields := by
        intro h
        rw [mapValues_eq, mapValues_eq]
        exact List.map_congr_left fun field hmem => by rw [← h field hmem, sortJsonValue]
      constructor
      · intro h
        have hvalues : ∀ field ∈ fields,
            sortJsonValue field.2 = mapFields dumpedFields field.2 := by
          intro field hmem
          have hmoved : (field.1, sortJsonValue field.2) ∈ mapValues dumpedFields fields := by
            rw [← (dumpedFields_perm _).mem_iff, ← h, hperm.mem_iff, mapValues_eq]
            exact List.mem_map_of_mem hmem
          rw [mapValues_eq] at hmoved
          obtain ⟨other, hother, heq⟩ := List.mem_map.mp hmoved
          obtain ⟨hkey, hdoc⟩ := Prod.mk.inj heq
          cases List.inj_on_of_nodup_map (hdistinct fields .self) hother hmem hkey
          exact hdoc.symm
        rw [hsame hvalues] at h
        intro inner hobj
        cases hobj with
        | self =>
            have hlead := indicesLead_of_eq hperm h
            rwa [hkeys] at hlead
        | value hmem hobj => exact (hvalue _ hmem).mp (hvalues _ hmem) inner hobj
      · intro h
        have hvalues := hsame fun field hmem =>
          (hvalue field hmem).mpr fun inner hobj => h inner (.value hmem hobj)
        rw [hvalues]
        apply eq_of_indicesLead
        · rw [hkeys]
          exact hdistinct fields .self
        · rw [hkeys]
          exact fun key hkey => hplain key (.inr ⟨fields, .self, hkey⟩)
        · rw [hkeys]
          exact hproto fields .self
        · rw [hkeys]
          exact h fields .self

theorem keeps_of_text_eq
    (h : text jsonChar (sortJsonValue v) = text pyChar (mapFields dumpedFields v)) :
    Keeps sortedFields v := by
  have hquotes : quotes jsonChar v = quotes jsonChar (sortJsonValue v) :=
    calc quotes jsonChar v
        = quotes pyChar v := quotes_congr count_quote_codes v
      _ = quotes pyChar (mapFields dumpedFields v) :=
        (quotes_mapFields_eq dumpedFields_perm v).symm
      _ = quotes jsonChar (sortJsonValue v) := by rw [quotes, quotes, h]
  exact keeps_of_quotes_le sortedFields_subperm v hquotes.le

theorem numeral_ascii (h : isNumeral c = true) : c.toNat < 127 := by
  rw [isNumeral, Bool.or_eq_true] at h
  rcases h with hdigit | hminus
  · rw [Char.isDigit, Bool.and_eq_true, decide_eq_true_iff, decide_eq_true_iff] at hdigit
    exact Nat.lt_of_le_of_lt hdigit.2 (by decide)
  · rw [beq_iff_eq.mp hminus]
    decide

theorem text_ascii {encode : Char → List Char}
    (hcode : ∀ c, ∀ d ∈ encode c, d.toNat < 127) (v : JsonDoc) :
    ∀ c ∈ text encode v, c.toNat < 127 :=
  forall_mem_text (List.forall_iff_forall_mem.mp (by decide +kernel)) (fun _ => numeral_ascii)
    hcode v

theorem plain_of_text_eq
    (h : text jsonChar (sortJsonValue v) = text pyChar (mapFields dumpedFields v)) {s : String}
    (hs : Holds v s) : Plain s := by
  intro c hc
  by_contra hnot
  have hcode : c ∈ jsonChar c := by
    rw [jsonChar_of_not_plain (by omega)]
    exact List.mem_singleton_self c
  have hshown : c ∈ text pyChar (mapFields dumpedFields v) := by
    rw [← h]
    exact ((keeps_of_text_eq h).holds hs).mem_text hc hcode
  exact hnot (text_ascii (fun _ _ => pyChar_ascii) _ c hshown)

theorem text_eq_iff (hplain : ∀ s, Holds v s → Plain s) :
    text jsonChar (sortJsonValue v) = text pyChar (mapFields dumpedFields v) ↔
      sortJsonValue v = mapFields dumpedFields v := by
  have hcodes : text jsonChar (mapFields dumpedFields v) =
      text pyChar (mapFields dumpedFields v) := by
    refine text_congr fun s hs c hc => jsonChar_eq_pyChar ?_
    exact hplain s (holds_of_mapFields (fun fields => (dumpedFields_perm fields).subset) hs) c hc
  rw [← hcodes]
  exact ⟨text_injective jsonChar_isCode, fun h => by rw [h]⟩

theorem canonicalJsonString_eq_dumps_iff (data : CanonicalExport) :
    canonicalJsonString data = dumps data ↔ Portable (.obj data.fields) := by
  rw [canonicalJsonString, dumps, String.ofList_inj]
  constructor
  · intro h
    have hplain : ∀ s, Holds (.obj data.fields) s → Plain s := fun s hs => plain_of_text_eq h hs
    have hproto : ∀ fields, Occurs (.obj fields) (.obj data.fields) →
        "__proto__" ∉ fields.map Prod.fst := by
      intro fields hobj
      rw [← mapValues_keys sortedFields]
      exact no_proto_of_perm (keeps_of_text_eq h fields hobj)
    exact ⟨hplain, hproto, (sorted_eq_iff data.distinct hplain hproto).mp
      ((text_eq_iff hplain).mp h)⟩
  · intro h
    exact (text_eq_iff h.plain).mpr
      ((sorted_eq_iff data.distinct h.plain h.no_proto).mpr h.indices)

def accentedFields : List (String × JsonDoc) :=
  [("id", .str "m1"), ("name", .str "Menú"), ("target_process", .str "app.exe"),
    ("target_os", .str "windows"), ("grounding_model", .str "v1"), ("private", .bool false),
    ("states", .arr []), ("transitions", .arr [])]

theorem occurs_accentedFields {w : JsonDoc} (h : Occurs w (.obj accentedFields)) :
    w = .obj accentedFields ∨ w ∈ accentedFields.map Prod.snd := by
  cases h with
  | self => exact .inl rfl
  | @value fields field hmem h =>
      have hleaf : w = field.2 := by
        simp only [accentedFields, List.mem_cons, List.not_mem_nil, or_false] at hmem
        rcases hmem with rfl | rfl | rfl | rfl | rfl | rfl | rfl | rfl
        all_goals rcases h with _ | ⟨⟨⟩, _⟩ | _
        all_goals rfl
      rw [hleaf]
      exact .inr (List.mem_map_of_mem hmem)

def accented : CanonicalExport where
  fields := accentedFields
  distinct inner hobj := by
    rcases occurs_accentedFields hobj with h | h
    · cases h
      decide
    · simp [accentedFields] at h
  safe n hint := by
    rcases occurs_accentedFields hint with h | h
    · cases h
    · simp [accentedFields] at h

/-- The accent stays itself in the JavaScript text and is escaped in the Python one. -/
theorem accented_texts_differ : ¬ ∀ data, canonicalJsonString data = dumps data := by
  intro h
  have htexts := h accented
  rw [canonicalJsonString, dumps, String.ofList_inj] at htexts
  have hname : Holds (.obj accentedFields) "Menú" :=
    .inl (.value (List.mem_cons_of_mem _ List.mem_cons_self) .self)
  have hplain := plain_of_text_eq htexts hname
  exact absurd (hplain 'ú' (by decide)) (by decide)

/-! ### What the text tells apart -/

theorem utf16Char_append_inj {c d : Char} {s t : List Nat}
    (h : utf16Char c ++ s = utf16Char d ++ t) : c = d ∧ s = t := by
  have hc : c.toNat < 0xd800 ∨ 0xdfff < c.toNat ∧ c.toNat < 0x110000 := c.valid
  have hd : d.toNat < 0xd800 ∨ 0xdfff < d.toNat ∧ d.toNat < 0x110000 := d.valid
  suffices hcode : c.toNat = d.toNat ∧ s = t from ⟨Char.toNat_inj.mp hcode.1, hcode.2⟩
  unfold utf16Char at h
  split_ifs at h
  all_goals
    simp only [List.cons_append, List.nil_append, List.cons.injEq] at h
    first
    | exact h
    | omega
    | exact ⟨by omega, h.2.2⟩

theorem charCodes_injective : Function.Injective charCodes := by
  intro a b h
  have hne (c : Char) (rest : List Nat) : utf16Char c ++ rest ≠ [] := by
    rw [utf16Char]
    split <;> simp
  have hcodes : a.toList.flatMap utf16Char ++ [] = b.toList.flatMap utf16Char ++ [] :=
    congrArg (· ++ []) h
  have hlist := flatMap_inj (P := fun _ => True) (fun _ _ {_ _ _} _ _ h => utf16Char_append_inj h)
    (fun _ => trivial) (fun _ => trivial) hne hne hcodes
  exact String.toList_inj.mp hlist.1

theorem key_eq_of_stands {x y : String × JsonDoc} (hxy : Stands x y) (hyx : Stands y x) :
    x.1 = y.1 := by
  cases hx : indexKey? x.1 with
  | none =>
      cases hy : indexKey? y.1 with
      | none => exact charCodes_injective (le_antisymm (hxy.2 hx) (hyx.2 hy))
      | some j =>
          obtain ⟨i, hi, -⟩ := hxy.1 j hy
          cases hx.symm.trans hi
  | some i =>
      obtain ⟨j, hj, hji⟩ := hyx.1 i hx
      obtain ⟨k, hk, hkj⟩ := hxy.1 j hj
      cases hx.symm.trans hk
      exact indexKey?_inj hx (Nat.le_antisymm hkj hji ▸ hj)

/-- The same data but for the order of properties and for those named `__proto__`. -/
@[mk_iff]
inductive SameData : JsonDoc → JsonDoc → Prop
  | leaf {v : JsonDoc} (harr : ∀ items, v ≠ .arr items) (hobj : ∀ fields, v ≠ .obj fields) :
      SameData v v
  | arr {items items' : List JsonDoc} (h : List.Forall₂ SameData items items') :
      SameData (.arr items) (.arr items')
  | obj {fields fields' : List (String × JsonDoc)}
      (h : ∀ key ≠ "__proto__", Option.Rel SameData (fields.lookup key) (fields'.lookup key)) :
      SameData (.obj fields) (.obj fields')

section Sorted

variable {fields fields' : List (String × JsonDoc)} (hnodup : (fields.map Prod.fst).Nodup)
  (hnodup' : (fields'.map Prod.fst).Nodup)
include hnodup

theorem sortedValues_nodup :
    ((sortedFields (mapValues sortedFields fields)).map Prod.fst).Nodup := by
  rw [((sortedFields_perm _).map Prod.fst).nodup_iff]
  rw [← mapValues_keys sortedFields] at hnodup
  exact hnodup.sublist (List.filter_sublist.map _)

theorem mem_sortedValues {moved : String × JsonDoc} :
    moved ∈ sortedFields (mapValues sortedFields fields) ↔
      moved.1 ≠ "__proto__" ∧ (fields.lookup moved.1).map sortJsonValue = some moved.2 := by
  rw [(sortedFields_perm _).mem_iff, List.mem_filter, bne_iff_ne, mapValues_eq, List.mem_map,
    and_comm, Option.map_eq_some_iff]
  refine and_congr_right fun _ => ⟨?_, ?_⟩
  · rintro ⟨field, hmem, rfl⟩
    exact ⟨field.2, (Fields.lookup_eq_some_iff hnodup).mpr hmem, rfl⟩
  · rintro ⟨value, hlookup, hsort⟩
    exact ⟨(moved.1, value), Fields.mem_of_lookup hlookup, Prod.ext rfl hsort⟩

include hnodup'

/-- What a sorted object gives for its keys determines it. -/
theorem sortedValues_eq_iff :
    sortedFields (mapValues sortedFields fields) = sortedFields (mapValues sortedFields fields') ↔
      ∀ key ≠ "__proto__", (fields.lookup key).map sortJsonValue =
        (fields'.lookup key).map sortJsonValue := by
  constructor
  · intro h key hproto
    ext value
    have hmem : (key, value) ∈ sortedFields (mapValues sortedFields fields) ↔
        (key, value) ∈ sortedFields (mapValues sortedFields fields') := by rw [h]
    rw [mem_sortedValues hnodup, mem_sortedValues hnodup'] at hmem
    simpa [hproto] using hmem
  · intro h
    have hperm : (sortedFields (mapValues sortedFields fields)).Perm
        (sortedFields (mapValues sortedFields fields')) := by
      rw [List.perm_ext_iff_of_nodup (sortedValues_nodup hnodup).of_map
        (sortedValues_nodup hnodup').of_map]
      intro moved
      rw [mem_sortedValues hnodup, mem_sortedValues hnodup']
      exact and_congr_right fun hproto => by rw [h _ hproto]
    refine hperm.eq_of_pairwise ?_ (sortedFields_stands _) (sortedFields_stands _)
    intro x y hx hy hxy hyx
    exact List.inj_on_of_nodup_map (sortedValues_nodup hnodup) hx (hperm.mem_iff.mpr hy)
      (key_eq_of_stands hxy hyx)

end Sorted

/-- Sorting tells two documents apart exactly where their data differ. -/
theorem sortJsonValue_eq_iff {v w : JsonDoc}
    (hv : ∀ inner, Occurs (.obj inner) v → (inner.map Prod.fst).Nodup)
    (hw : ∀ inner, Occurs (.obj inner) w → (inner.map Prod.fst).Nodup) :
    sortJsonValue v = sortJsonValue w ↔ SameData v w := by
  induction v using JsonDoc.induction generalizing w with
  | arr items ih =>
      cases w with
      | arr items' =>
          have hitem {a b : JsonDoc} (hmem : (a, b) ∈ items.zip items') :
              sortJsonValue a = sortJsonValue b ↔ SameData a b := by
            obtain ⟨ha, hb⟩ := List.of_mem_zip hmem
            exact ih a ha (fun inner hobj => hv inner (.item ha hobj))
              (fun inner hobj => hw inner (.item hb hobj))
          have hitems : sortJsonValue (.arr items) = sortJsonValue (.arr items') ↔
              List.Forall₂ SameData items items' := by
            unfold sortJsonValue at hitem ⊢
            rw [mapFields, mapFields, JsonDoc.arr.injEq, mapItems_eq, mapItems_eq,
              ← List.forall₂_eq_eq_eq, List.forall₂_map_left_iff, List.forall₂_map_right_iff,
              List.forall₂_iff_zip, List.forall₂_iff_zip]
            exact and_congr_right fun _ => forall₂_congr fun a b => forall_congr' hitem
          rw [hitems, sameData_iff (.arr items)]
          simp
      | _ => simp [sortJsonValue, mapFields, sameData_iff]
  | obj fields ih =>
      cases w with
      | obj fields' =>
          have hvalue (key : String) : (fields.lookup key).map sortJsonValue =
              (fields'.lookup key).map sortJsonValue ↔
                Option.Rel SameData (fields.lookup key) (fields'.lookup key) := by
            cases hfield : fields.lookup key with
            | none => cases fields'.lookup key <;> simp
            | some value =>
                cases hfield' : fields'.lookup key with
                | none => simp
                | some value' =>
                    have hmem := Fields.mem_of_lookup hfield
                    have hmem' := Fields.mem_of_lookup hfield'
                    simpa using ih _ hmem (fun inner hobj => hv inner (.value hmem hobj))
                      (fun inner hobj => hw inner (.value hmem' hobj))
          have hfields : sortJsonValue (.obj fields) = sortJsonValue (.obj fields') ↔
              ∀ key ≠ "__proto__",
                Option.Rel SameData (fields.lookup key) (fields'.lookup key) := by
            unfold sortJsonValue
            rw [mapFields, mapFields, JsonDoc.obj.injEq,
              sortedValues_eq_iff (hv fields .self) (hw fields' .self)]
            exact forall₂_congr fun key _ => hvalue key
          rw [hfields, sameData_iff (.obj fields)]
          simp
      | _ => simp [sortJsonValue, mapFields, sameData_iff]
  | _ => cases w <;> simp [sortJsonValue, mapFields, sameData_iff, eq_comm]

/-- Two exports get one text, and so one content hash, exactly where their data are the same
but for the order of properties and those named `__proto__`. -/
theorem canonicalJsonString_eq_iff (data data' : CanonicalExport) :
    canonicalJsonString data = canonicalJsonString data' ↔
      SameData (.obj data.fields) (.obj data'.fields) := by
  rw [canonicalJsonString, canonicalJsonString, String.ofList_inj,
    ← sortJsonValue_eq_iff data.distinct data'.distinct]
  exact ⟨fun h => text_injective jsonChar_isCode h, fun h => by rw [h]⟩

end Qontinui.Vga
