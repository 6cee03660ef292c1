import Mathlib.Algebra.Order.BigOperators.Group.List
import Qontinui.Base.JsonDoc

/-!
The parts of a JSON document, what its text shows of them, and the documents that have their
properties in another order or less of them.
-/

namespace Qontinui

namespace JsonDoc

/-- A document occurs in itself, in its elements and in the values of its properties. -/
inductive Occurs (w : JsonDoc) : JsonDoc → Prop
  | self : Occurs w w
  | item {items : List JsonDoc} {v : JsonDoc} (hmem : v ∈ items) (h : Occurs w v) :
      Occurs w (.arr items)
  | value {fields : List (String × JsonDoc)} {field : String × JsonDoc} (hmem : field ∈ fields)
      (h : Occurs w field.2) : Occurs w (.obj fields)

def Holds (v : JsonDoc) (s : String) : Prop :=
  Occurs (.str s) v ∨ ∃ fields, Occurs (.obj fields) v ∧ s ∈ fields.map Prod.fst

section Shown

variable {encode encode' : Char → List Char}

theorem mem_tail_flatMap {α : Type} {f : α → List Char} {xs : List α} {x : α} (hx : x ∈ xs)
    {c : Char} (hc : c ∈ (f x).tail) : c ∈ (xs.flatMap f).tail := by
  induction xs with
  | nil => cases hx
  | cons y rest ih =>
      rw [List.flatMap_cons]
      rcases List.mem_cons.mp hx with rfl | hx
      · rw [List.tail_append_of_ne_nil (List.ne_nil_of_mem (List.mem_of_mem_tail hc))]
        exact List.mem_append_left _ hc
      · have hrest := ih hx
        cases hy : f y with
        | nil => exact hrest
        | cons d ds =>
            rw [List.cons_append, List.tail_cons]
            exact List.mem_append_right _ (List.mem_of_mem_tail hrest)

theorem Occurs.mem_text {w v : JsonDoc} (h : Occurs w v) {c : Char} (hc : c ∈ text encode w) :
    c ∈ text encode v := by
  induction h with
  | self => exact hc
  | item hmem _ ih =>
      rw [text, itemsText_eq]
      exact List.mem_cons_of_mem _ (List.mem_append_left _ (mem_tail_flatMap hmem ih))
  | value hmem _ ih =>
      rw [text, fieldsText_eq]
      refine List.mem_cons_of_mem _ (List.mem_append_left _ (mem_tail_flatMap hmem ?_))
      exact List.mem_append_right _ (List.mem_cons_of_mem _ ih)

theorem Holds.mem_text {v : JsonDoc} {s : String} (h : Holds v s) {c : Char} (hc : c ∈ s.toList)
    {d : Char} (hd : d ∈ encode c) : d ∈ text encode v := by
  have hquoted : d ∈ quoted encode s := by
    apply List.mem_cons_of_mem
    exact List.mem_append_left _ (List.mem_flatMap.mpr ⟨c, hc, hd⟩)
  rcases h with hstr | ⟨fields, hobj, hkey⟩
  · apply hstr.mem_text
    rw [text]
    exact hquoted
  · apply hobj.mem_text
    obtain ⟨field, hmem, rfl⟩ := List.mem_map.mp hkey
    rw [text, fieldsText_eq]
    refine List.mem_cons_of_mem _ (List.mem_append_left _ (mem_tail_flatMap hmem ?_))
    exact List.mem_append_left _ hquoted

theorem Holds.item {items : List JsonDoc} {v : JsonDoc} (hmem : v ∈ items) {s : String}
    (h : Holds v s) : Holds (.arr items) s :=
  h.imp (.item hmem) fun ⟨fields, hobj, hkey⟩ => ⟨fields, .item hmem hobj, hkey⟩

theorem Holds.value {fields : List (String × JsonDoc)} {field : String × JsonDoc}
    (hmem : field ∈ fields) {s : String} (h : Holds field.2 s) : Holds (.obj fields) s :=
  h.imp (.value hmem) fun ⟨inner, hobj, hkey⟩ => ⟨inner, .value hmem hobj, hkey⟩

variable {s : String}

theorem Holds.of_arr {items : List JsonDoc} (h : Holds (.arr items) s) :
    ∃ v ∈ items, Holds v s := by
  rcases h with hstr | ⟨fields, hobj, hkey⟩
  · cases hstr with
    | item hmem h => exact ⟨_, hmem, .inl h⟩
  · cases hobj with
    | item hmem h => exact ⟨_, hmem, .inr ⟨fields, h, hkey⟩⟩

theorem Holds.of_obj {fields : List (String × JsonDoc)} (h : Holds (.obj fields) s) :
    s ∈ fields.map Prod.fst ∨ ∃ field ∈ fields, Holds field.2 s := by
  rcases h with hstr | ⟨inner, hobj, hkey⟩
  · cases hstr with
    | value hmem h => exact .inr ⟨_, hmem, .inl h⟩
  · cases hobj with
    | self => exact .inl hkey
    | value hmem h => exact .inr ⟨_, hmem, .inr ⟨inner, h, hkey⟩⟩

theorem Holds.key {fields : List (String × JsonDoc)} {field : String × JsonDoc}
    (hmem : field ∈ fields) : Holds (.obj fields) field.1 :=
  .inr ⟨fields, .self, List.mem_map_of_mem hmem⟩

theorem quoted_congr (h : ∀ c ∈ s.toList, encode c = encode' c) :
    quoted encode s = quoted encode' s := by
  rw [quoted, quoted, List.flatMap_congr h]

theorem text_congr {v : JsonDoc}
    (h : ∀ s, Holds v s → ∀ c ∈ s.toList, encode c = encode' c) :
    text encode v = text encode' v := by
  induction v using JsonDoc.induction with
  | null => rw [text, text]
  | bool b => cases b <;> rw [text, text]
  | int n => rw [text, text]
  | str s =>
      rw [text, text]
      exact quoted_congr (h s (.inl .self))
  | arr items ih =>
      have hitems : ∀ v ∈ items, ',' :: text encode v = ',' :: text encode' v := fun v hmem => by
        rw [ih v hmem fun s hs => h s (hs.item hmem)]
      rw [text, text, itemsText_eq, itemsText_eq, List.flatMap_congr hitems]
  | obj fields ih =>
      have hfields : ∀ field ∈ fields, fieldText encode field = fieldText encode' field := by
        intro field hmem
        rw [fieldText, fieldText, quoted_congr (h field.1 (.key hmem)),
          ih field hmem fun s hs => h s (hs.value hmem)]
      rw [text, text, fieldsText_eq, fieldsText_eq, List.flatMap_congr hfields]

/-- The characters of a text are those of the syntax, of numerals and of the codes. -/
theorem forall_mem_text {P : Char → Prop} (hmarks : ∀ c ∈ ['n', 'u', 'l', 't', 'r', 'e', 'f',
      'a', 's', '[', ']', ',', ':', quote, Char.ofNat 123, Char.ofNat 125], P c)
    (hnumeral : ∀ c, isNumeral c = true → P c) (hcode : ∀ c, ∀ d ∈ encode c, P d) (v : JsonDoc) :
    ∀ c ∈ text encode v, P c := by
  have hquoted : ∀ (s : String), ∀ c ∈ quoted encode s, P c := by
    intro s c hc
    rcases List.mem_cons.mp hc with rfl | hc
    · exact hmarks _ (by decide)
    · rcases List.mem_append.mp hc with hc | hc
      · obtain ⟨d, _, hd⟩ := List.mem_flatMap.mp hc
        exact hcode d c hd
      · rw [List.mem_singleton.mp hc]
        exact hmarks _ (by decide)
  have htail : ∀ {α : Type} {f : α → List Char} {xs : List α}, (∀ x ∈ xs, ∀ c ∈ f x, P c) →
      ∀ c ∈ (xs.flatMap f).tail, P c := by
    intro α f xs hf c hc
    obtain ⟨x, hx, hcx⟩ := List.mem_flatMap.mp (List.mem_of_mem_tail hc)
    exact hf x hx c hcx
  have hword : ∀ word : List Char, word ⊆ ['n', 'u', 'l', 't', 'r', 'e', 'f', 'a', 's', '[', ']',
      ',', ':', quote, Char.ofNat 123, Char.ofNat 125] → ∀ c ∈ word, P c :=
    fun word hsub c hc => hmarks c (hsub hc)
  induction v using JsonDoc.induction with
  | null =>
      rw [text]
      exact hword _ (by decide)
  | bool b =>
      cases b with
      | true | false =>
          rw [text]
          exact hword _ (by decide)
  | int n =>
      rw [text]
      exact fun c hc => hnumeral c (isNumeral_of_mem hc)
  | str s =>
      rw [text]
      exact hquoted s
  | arr items ih =>
      rw [text, itemsText_eq]
      intro c hc
      rcases List.mem_cons.mp hc with rfl | hc
      · exact hmarks _ (by decide)
      rcases List.mem_append.mp hc with hc | hc
      · refine htail (fun v hv d hd => ?_) c hc
        rcases List.mem_cons.mp hd with rfl | hd
        · exact hmarks _ (by decide)
        · exact ih v hv d hd
      · exact hword _ (by decide) c hc
  | obj fields ih =>
      rw [text, fieldsText_eq]
      intro c hc
      rcases List.mem_cons.mp hc with rfl | hc
      · exact hmarks _ (by decide)
      rcases List.mem_append.mp hc with hc | hc
      · refine htail (fun field hmem d hd => ?_) c hc
        rcases List.mem_cons.mp hd with rfl | hd
        · exact hmarks _ (by decide)
        rcases List.mem_append.mp hd with hd | hd
        · exact hquoted field.1 d hd
        rcases List.mem_cons.mp hd with rfl | hd
        · exact hmarks _ (by decide)
        · exact ih field hmem d hd
      · exact hword _ (by decide) c hc

end Shown

/-! ### Counting quotes -/

section Quotes

variable (encode : Char → List Char)

def quotes (v : JsonDoc) : Nat := (text encode v).count quote

def fieldQuotes (field : String × JsonDoc) : Nat :=
  (quoted encode field.1).count quote + quotes encode field.2

theorem fieldQuotes_pos (field : String × JsonDoc) : 0 < fieldQuotes encode field := by
  rw [fieldQuotes, quoted, List.count_cons_self]
  omega

theorem count_tail_flatMap {α : Type} (g : α → List Char) (xs : List α) :
    (xs.flatMap fun x => ',' :: g x).tail.count quote =
      (xs.map fun x => (g x).count quote).sum := by
  have hwhole : (xs.flatMap fun x => ',' :: g x).count quote =
      (xs.map fun x => (g x).count quote).sum := by
    rw [List.count_flatMap]
    congr 1
  rw [← hwhole]
  cases xs with
  | nil => rfl
  | cons x rest =>
      rw [List.flatMap_cons, List.cons_append, List.tail_cons, List.count_cons_of_ne (by decide)]

theorem quotes_arr (items : List JsonDoc) :
    quotes encode (.arr items) = (items.map (quotes encode)).sum := by
  rw [quotes, text, itemsText_eq, List.count_cons_of_ne (by decide), List.count_append,
    count_tail_flatMap]
  rfl

theorem quotes_obj (fields : List (String × JsonDoc)) :
    quotes encode (.obj fields) = (fields.map (fieldQuotes encode)).sum := by
  have hfield : ∀ field : String × JsonDoc,
      (quoted encode field.1 ++ ':' :: text encode field.2).count quote =
        fieldQuotes encode field := fun field => by
    rw [List.count_append, List.count_cons_of_ne (by decide)]
    rfl
  rw [quotes, text, fieldsText_eq, List.count_cons_of_ne (by decide), List.count_append]
  unfold fieldText
  rw [count_tail_flatMap]
  simp only [hfield]
  rfl

variable {encode} {encode' : Char → List Char}

theorem quotes_congr (h : ∀ c, (encode c).count quote = (encode' c).count quote) (v : JsonDoc) :
    quotes encode v = quotes encode' v := by
  have hquoted : ∀ s, (quoted encode s).count quote = (quoted encode' s).count quote := by
    intro s
    rw [quoted, quoted, List.count_cons_self, List.count_cons_self, List.count_append,
      List.count_append, List.count_flatMap, List.count_flatMap]
    congr 3
    exact List.map_congr_left fun c _ => h c
  induction v using JsonDoc.induction with
  | null => rw [quotes, quotes, text, text]
  | bool b => cases b <;> rw [quotes, quotes, text, text]
  | int n => rw [quotes, quotes, text, text]
  | str s => rw [quotes, quotes, text, text, hquoted]
  | arr items ih => rw [quotes_arr, quotes_arr, List.map_congr_left ih]
  | obj fields ih =>
      rw [quotes_obj, quotes_obj]
      congr 1
      refine List.map_congr_left fun field hmem => ?_
      rw [fieldQuotes, fieldQuotes, hquoted, ih field hmem]

end Quotes

/-! ### Other orders of the properties -/

section MapFields

variable (order : List (String × JsonDoc) → List (String × JsonDoc))

mutual

/-- A document with the properties of every object put through `order`, innermost first. -/
def mapFields : JsonDoc → JsonDoc
  | .null => .null
  | .bool b => .bool b
  | .int n => .int n
  | .str s => .str s
  | .arr items => .arr (mapItems items)
  | .obj fields => .obj (order (mapValues fields))

def mapItems : List JsonDoc → List JsonDoc
  | [] => []
  | item :: rest => mapFields item :: mapItems rest

def mapValues : List (String × JsonDoc) → List (String × JsonDoc)
  | [] => []
  | (key, value) :: rest => (key, mapFields value) :: mapValues rest

end

theorem mapItems_eq (items : List JsonDoc) : mapItems order items = items.map (mapFields order) := by
  induction items with
  | nil => rw [mapItems, List.map_nil]
  | cons item rest ih => rw [mapItems, ih, List.map_cons]

theorem mapValues_eq (fields : List (String × JsonDoc)) :
    mapValues order fields = fields.map fun field => (field.1, mapFields order field.2) := by
  induction fields with
  | nil => rw [mapValues, List.map_nil]
  | cons field rest ih => rw [mapValues, ih, List.map_cons]

theorem mapValues_keys (fields : List (String × JsonDoc)) :
    (mapValues order fields).map Prod.fst = fields.map Prod.fst := by
  rw [mapValues_eq, List.map_map]
  rfl

/-- Every property of an object of the document keeps its place under `order`. -/
def Keeps (v : JsonDoc) : Prop :=
  ∀ fields, Occurs (.obj fields) v → (order (mapValues order fields)).Perm (mapValues order fields)

variable {order} {v : JsonDoc} {w : JsonDoc}

theorem Occurs.trans {u : JsonDoc} (huv : Occurs u v) (hvw : Occurs v w) : Occurs u w := by
  induction hvw with
  | self => exact huv
  | item hmem _ ih => exact .item hmem ih
  | value hmem _ ih => exact .value hmem ih

theorem Keeps.of_occurs (h : Keeps order v) (hw : Occurs w v) : Keeps order w :=
  fun fields hobj => h fields (hobj.trans hw)

theorem Keeps.occurs (h : Keeps order v) (hw : Occurs w v) :
    Occurs (mapFields order w) (mapFields order v) := by
  induction hw with
  | self => exact .self
  | @item items v hmem _ ih =>
      rw [mapFields, mapItems_eq]
      exact .item (List.mem_map_of_mem hmem) (ih (h.of_occurs (.item hmem .self)))
  | @value fields field hmem _ ih =>
      have hvalue : (field.1, mapFields order field.2) ∈ mapValues order fields := by
        rw [mapValues_eq]
        exact List.mem_map_of_mem hmem
      rw [mapFields]
      exact .value ((h fields .self).mem_iff.mpr hvalue) (ih (h.of_occurs (.value hmem .self)))

theorem Keeps.holds (h : Keeps order v) {s : String} (hs : Holds v s) :
    Holds (mapFields order v) s := by
  rcases hs with hstr | ⟨fields, hobj, hkey⟩
  · have hocc := h.occurs hstr
    rw [mapFields] at hocc
    exact .inl hocc
  · have hocc := h.occurs hobj
    rw [mapFields] at hocc
    refine .inr ⟨_, hocc, ?_⟩
    rw [((h fields hobj).map Prod.fst).mem_iff, mapValues_keys]
    exact hkey

/-- An `order` that invents no properties invents no strings. -/
theorem holds_of_mapFields (hsub : ∀ fields, order fields ⊆ fields) {s : String} :
    Holds (mapFields order v) s → Holds v s := by
  induction v using JsonDoc.induction with
  | null | bool | int | str =>
      rw [mapFields]
      exact id
  | arr items ih =>
      intro hs
      rw [mapFields, mapItems_eq] at hs
      obtain ⟨w, hw, hs⟩ := hs.of_arr
      obtain ⟨v, hv, rfl⟩ := List.mem_map.mp hw
      exact (ih v hv hs).item hv
  | obj fields ih =>
      intro hs
      rw [mapFields] at hs
      rcases hs.of_obj with hkey | ⟨moved, hmoved, hs⟩
      · obtain ⟨moved, hmoved, rfl⟩ := List.mem_map.mp hkey
        refine .inr ⟨fields, .self, ?_⟩
        rw [← mapValues_keys order]
        exact List.mem_map_of_mem (hsub _ hmoved)
      · have hvalue := hsub _ hmoved
        rw [mapValues_eq] at hvalue
        obtain ⟨field, hmem, rfl⟩ := List.mem_map.mp hvalue
        exact (ih field hmem hs).value hmem

/-! ### Lost properties -/

theorem sum_le_of_subperm {α : Type} {f : α → Nat} {xs ys : List α} (h : xs.Subperm ys) :
    (xs.map f).sum ≤ (ys.map f).sum := by
  obtain ⟨kept, hperm, hsub⟩ := h
  rw [← (hperm.map f).sum_eq]
  exact (hsub.map f).sum_le_sum fun _ _ => Nat.zero_le _

theorem perm_of_sum_le {α : Type} {f : α → Nat} (hpos : ∀ x, 0 < f x) {xs ys : List α}
    (hsub : xs.Subperm ys) (hsum : (ys.map f).sum ≤ (xs.map f).sum) : xs.Perm ys := by
  refine hsub.perm_of_length_le (Nat.le_of_not_lt fun hlt => ?_)
  obtain ⟨x, hmore⟩ := hsub.exists_of_length_lt hlt
  have hle := sum_le_of_subperm (f := f) hmore
  rw [List.map_cons, List.sum_cons] at hle
  have hx := hpos x
  omega

theorem eq_of_sum_le {α : Type} {f g : α → Nat} {xs : List α} (hle : ∀ x ∈ xs, f x ≤ g x)
    (hsum : (xs.map g).sum ≤ (xs.map f).sum) : ∀ x ∈ xs, g x ≤ f x := by
  intro x hx
  refine Nat.le_of_not_lt fun hlt => ?_
  have hmore := List.sum_lt_sum f g hle ⟨x, hx, hlt⟩
  omega

variable {encode : Char → List Char}

theorem sum_mapItems (items : List JsonDoc) : ((mapItems order items).map (quotes encode)).sum =
    (items.map fun v => quotes encode (mapFields order v)).sum := by
  rw [mapItems_eq, List.map_map]
  rfl

theorem sum_mapValues (fields : List (String × JsonDoc)) :
    ((mapValues order fields).map (fieldQuotes encode)).sum =
      (fields.map fun field => fieldQuotes encode (field.1, mapFields order field.2)).sum := by
  rw [mapValues_eq, List.map_map]
  rfl

theorem quotes_mapFields_le (hsub : ∀ fields, (order fields).Subperm fields) (v : JsonDoc) :
    quotes encode (mapFields order v) ≤ quotes encode v := by
  induction v using JsonDoc.induction with
  | null | bool | int | str => rw [mapFields]
  | arr items ih =>
      rw [mapFields, quotes_arr, quotes_arr, sum_mapItems]
      exact List.sum_le_sum ih
  | obj fields ih =>
      rw [mapFields, quotes_obj, quotes_obj]
      calc ((order (mapValues order fields)).map (fieldQuotes encode)).sum
          ≤ ((mapValues order fields).map (fieldQuotes encode)).sum := sum_le_of_subperm (hsub _)
        _ = (fields.map fun field => fieldQuotes encode (field.1, mapFields order field.2)).sum :=
          sum_mapValues fields
        _ ≤ (fields.map (fieldQuotes encode)).sum :=
          List.sum_le_sum fun field hmem => Nat.add_le_add_left (ih field hmem) _

theorem quotes_mapFields_eq (hperm : ∀ fields, (order fields).Perm fields) (v : JsonDoc) :
    quotes encode (mapFields order v) = quotes encode v := by
  induction v using JsonDoc.induction with
  | null | bool | int | str => rw [mapFields]
  | arr items ih =>
      rw [mapFields, quotes_arr, quotes_arr, sum_mapItems]
      exact congrArg List.sum (List.map_congr_left ih)
  | obj fields ih =>
      rw [mapFields, quotes_obj, quotes_obj, ((hperm _).map (fieldQuotes encode)).sum_eq,
        sum_mapValues]
      refine congrArg List.sum (List.map_congr_left fun field hmem => ?_)
      rw [fieldQuotes, fieldQuotes, ih field hmem]

theorem keeps_of_quotes_le (hsub : ∀ fields, (order fields).Subperm fields) (v : JsonDoc)
    (h : quotes encode v ≤ quotes encode (mapFields order v)) : Keeps order v := by
  induction v using JsonDoc.induction with
  | null | bool | int | str => exact fun _ hobj => nomatch hobj
  | arr items ih =>
      rw [mapFields, quotes_arr, quotes_arr, sum_mapItems] at h
      have hitems := eq_of_sum_le (fun v _ => quotes_mapFields_le hsub v) h
      intro fields hobj
      cases hobj with
      | item hmem hobj => exact ih _ hmem (hitems _ hmem) fields hobj
  | obj fields ih =>
      have hvalue : ∀ field ∈ fields, fieldQuotes encode (field.1, mapFields order field.2) ≤
          fieldQuotes encode field := fun field _ =>
        Nat.add_le_add_left (quotes_mapFields_le hsub field.2) _
      have hlost := sum_le_of_subperm (f := fieldQuotes encode) (hsub (mapValues order fields))
      have hvalues := List.sum_le_sum hvalue
      rw [mapFields, quotes_obj, quotes_obj] at h
      intro inner hobj
      cases hobj with
      | self =>
          refine perm_of_sum_le (fieldQuotes_pos encode) (hsub _) ?_
          rw [sum_mapValues]
          exact hvalues.trans h
      | value hmem hobj =>
          have hfields := eq_of_sum_le hvalue (h.trans (hlost.trans (sum_mapValues fields).le))
          exact ih _ hmem (Nat.le_of_add_le_add_left (hfields _ hmem)) inner hobj

end MapFields

end JsonDoc

end Qontinui
