import Mathlib.Data.List.TakeWhile
import Qontinui.Base.JsText

/-!
JSON documents with whole numbers, whose objects keep their keys in an order, and their compact
texts under an encoding of the characters of strings. A text has one reading, where the
encoding has.
-/

namespace Qontinui

inductive JsonDoc
  | null
  | bool (b : Bool)
  | int (n : Int)
  | str (s : String)
  | arr (items : List JsonDoc)
  | obj (fields : List (String × JsonDoc))
deriving Repr

namespace JsonDoc

def quote : Char := Char.ofNat 34

section Text

variable (encode : Char → List Char)

def quoted (s : String) : List Char := quote :: (s.toList.flatMap encode ++ [quote])

mutual

def text : JsonDoc → List Char
  | .null => ['n', 'u', 'l', 'l']
  | .bool true => ['t', 'r', 'u', 'e']
  | .bool false => ['f', 'a', 'l', 's', 'e']
  | .int n => (toString n).toList
  | .str s => quoted encode s
  | .arr items => '[' :: itemsText items
  | .obj fields => Char.ofNat 123 :: fieldsText fields

def itemsText : List JsonDoc → List Char
  | [] => [']']
  | item :: rest => text item ++ moreItems rest

def moreItems : List JsonDoc → List Char
  | [] => [']']
  | item :: rest => ',' :: (text item ++ moreItems rest)

def fieldsText : List (String × JsonDoc) → List Char
  | [] => [Char.ofNat 125]
  | (key, value) :: rest => quoted encode key ++ ':' :: (text value ++ moreFields rest)

def moreFields : List (String × JsonDoc) → List Char
  | [] => [Char.ofNat 125]
  | (key, value) :: rest => ',' :: (quoted encode key ++ ':' :: (text value ++ moreFields rest))

end

theorem itemsText_eq (items : List JsonDoc) :
    itemsText encode items = (items.flatMap fun v => ',' :: text encode v).tail ++ [']'] := by
  have hmore : ∀ rest, moreItems encode rest =
      (rest.flatMap fun v => ',' :: text encode v) ++ [']'] := by
    intro rest
    induction rest with
    | nil => rw [moreItems, List.flatMap_nil, List.nil_append]
    | cons v rest ih => rw [moreItems, ih, List.flatMap_cons, List.append_assoc, List.cons_append]
  cases items with
  | nil => rw [itemsText, List.flatMap_nil, List.tail_nil, List.nil_append]
  | cons v rest =>
      rw [itemsText, hmore, List.flatMap_cons, List.cons_append, List.tail_cons,
        List.append_assoc]

def fieldText (field : String × JsonDoc) : List Char :=
  ',' :: (quoted encode field.1 ++ ':' :: text encode field.2)

theorem fieldsText_eq (fields : List (String × JsonDoc)) :
    fieldsText encode fields = (fields.flatMap (fieldText encode)).tail ++ [Char.ofNat 125] := by
  have hmore : ∀ rest, moreFields encode rest =
      rest.flatMap (fieldText encode) ++ [Char.ofNat 125] := by
    intro rest
    induction rest with
    | nil => rw [moreFields, List.flatMap_nil, List.nil_append]
    | cons field rest ih =>
        rw [moreFields, ih, List.flatMap_cons, fieldText, List.append_assoc, List.cons_append,
          List.append_assoc, List.cons_append]
  cases fields with
  | nil => rw [fieldsText, List.flatMap_nil, List.tail_nil, List.nil_append]
  | cons field rest =>
      rw [fieldsText, hmore, List.flatMap_cons, fieldText, List.cons_append, List.tail_cons,
        List.append_assoc, List.append_assoc, List.cons_append]

end Text

/-! ### Induction -/

theorem sizeOf_value_lt {fields : List (String × JsonDoc)} {field : String × JsonDoc}
    (hmem : field ∈ fields) : sizeOf field.2 < sizeOf fields := by
  have hlt := List.sizeOf_lt_of_mem hmem
  obtain ⟨key, value⟩ := field
  rw [Prod.mk.sizeOf_spec] at hlt
  change sizeOf value < _
  omega

@[elab_as_elim]
theorem induction {motive : JsonDoc → Prop} (null : motive .null) (bool : ∀ b, motive (.bool b))
    (int : ∀ n, motive (.int n)) (str : ∀ s, motive (.str s))
    (arr : ∀ items, (∀ v ∈ items, motive v) → motive (.arr items))
    (obj : ∀ fields, (∀ field ∈ fields, motive field.2) → motive (.obj fields)) :
    ∀ v, motive v
  | .null => null
  | .bool b => bool b
  | .int n => int n
  | .str s => str s
  | .arr items => arr items fun v _ => induction null bool int str arr obj v
  | .obj fields => obj fields fun field hmem => by
      have hsize := sizeOf_value_lt hmem
      exact induction null bool int str arr obj field.2

/-! ### Numerals -/

theorem toList_ofNat (m : Nat) : (toString (Int.ofNat m)).toList = Nat.toDigits 10 m := by
  change (Nat.repr m).toList = _
  simp

theorem toList_negSucc (m : Nat) :
    (toString (Int.negSucc m)).toList = '-' :: Nat.toDigits 10 (m + 1) := by
  simp [Int.toString_eq_repr, Int.repr]

def isNumeral (c : Char) : Bool := c.isDigit || c == '-'

variable {c : Char}

theorem isNumeral_of_digits {m : Nat} (h : c ∈ Nat.toDigits 10 m) : isNumeral c = true := by
  rw [isNumeral, Nat.isDigit_of_mem_toDigits (by decide) (by decide) h, Bool.true_or]

theorem isNumeral_of_mem {n : Int} (h : c ∈ (toString n).toList) : isNumeral c = true := by
  cases n with
  | ofNat m =>
      rw [toList_ofNat] at h
      exact isNumeral_of_digits h
  | negSucc m =>
      rw [toList_negSucc] at h
      rcases List.mem_cons.mp h with rfl | h
      · rfl
      · exact isNumeral_of_digits h

theorem toDigits_inj {m n : Nat} (h : Nat.toDigits 10 m = Nat.toDigits 10 n) : m = n := by
  have hvalue := congrArg (fun digits => Nat.ofDigitChars 10 digits 0) h
  simpa using hvalue

theorem minus_notMem_digits (m : Nat) : '-' ∉ Nat.toDigits 10 m := by
  intro h
  have hdigit := Nat.isDigit_of_mem_toDigits (by decide) (by decide) h
  revert hdigit
  decide

theorem numeral_inj {m n : Int} (h : (toString m).toList = (toString n).toList) : m = n := by
  cases m with
  | ofNat m =>
      cases n with
      | ofNat n =>
          rw [toList_ofNat, toList_ofNat] at h
          rw [toDigits_inj h]
      | negSucc n =>
          rw [toList_ofNat, toList_negSucc] at h
          exact absurd (h ▸ List.mem_cons_self) (minus_notMem_digits m)
  | negSucc m =>
      cases n with
      | ofNat n =>
          rw [toList_ofNat, toList_negSucc] at h
          exact absurd (h ▸ List.mem_cons_self) (minus_notMem_digits n)
      | negSucc n =>
          rw [toList_negSucc, toList_negSucc, List.cons.injEq] at h
          have hsucc := toDigits_inj h.2
          rw [Nat.succ.inj hsucc]

theorem numeral_ne_nil (n : Int) : (toString n).toList ≠ [] := by
  cases n with
  | ofNat m =>
      rw [toList_ofNat]
      simp
  | negSucc m =>
      rw [toList_negSucc]
      exact List.cons_ne_nil _ _

/-! ### Reading -/

/-- What may follow a document: nothing that continues a numeral. -/
def Ends (s : List Char) : Prop := ∀ c rest, s = c :: rest → isNumeral c = false

theorem ends_cons (h : isNumeral c = false) (rest : List Char) : Ends (c :: rest) := by
  intro c' rest' heq
  cases heq
  exact h

theorem takeWhile_numeral {digits s : List Char} (hdigits : ∀ c ∈ digits, isNumeral c = true)
    (hs : Ends s) : (digits ++ s).takeWhile isNumeral = digits := by
  rw [List.takeWhile_append_of_pos hdigits]
  cases s with
  | nil => simp
  | cons c rest => rw [List.takeWhile_cons_of_neg (by simp [hs c rest rfl]), List.append_nil]

/-- The kinds of documents, as their first characters show them. -/
def kind : JsonDoc → Nat
  | .null => 0
  | .bool true => 1
  | .bool false => 2
  | .int _ => 3
  | .str _ => 4
  | .arr _ => 5
  | .obj _ => 6

def kindOf (c : Char) : Nat :=
  if c = 'n' then 0 else if c = 't' then 1 else if c = 'f' then 2
  else if isNumeral c then 3 else if c = quote then 4 else if c = '[' then 5
  else if c = Char.ofNat 123 then 6 else 7

theorem kindOf_numeral (h : isNumeral c = true) : kindOf c = 3 := by
  have hne : ∀ d, isNumeral d = false → c ≠ d := by
    rintro d hd rfl
    cases h.symm.trans hd
  rw [kindOf, if_neg (hne _ (by decide)), if_neg (hne _ (by decide)), if_neg (hne _ (by decide)),
    if_pos h]

theorem text_head (encode : Char → List Char) (v : JsonDoc) :
    ∃ c rest, text encode v = c :: rest ∧ kindOf c = kind v := by
  cases v with
  | null => exact ⟨'n', _, by rw [text], by decide⟩
  | bool b =>
      cases b with
      | true => exact ⟨'t', _, by rw [text], by decide⟩
      | false => exact ⟨'f', _, by rw [text], by decide⟩
  | int n =>
      obtain ⟨c, rest, hcons⟩ := List.exists_cons_of_ne_nil (numeral_ne_nil n)
      refine ⟨c, rest, by rw [text, hcons], kindOf_numeral ?_⟩
      apply isNumeral_of_mem (n := n)
      rw [hcons]
      exact List.mem_cons_self
  | str s => exact ⟨quote, _, by rw [text, quoted], (by decide : kindOf quote = 4)⟩
  | arr items => exact ⟨'[', _, by rw [text], (by decide : kindOf '[' = 5)⟩
  | obj fields =>
      exact ⟨Char.ofNat 123, _, by rw [text], (by decide : kindOf (Char.ofNat 123) = 6)⟩

theorem text_ne_close {encode : Char → List Char} {v : JsonDoc} {s t : List Char}
    (hc : kindOf c = 7) : text encode v ++ s ≠ c :: t := by
  obtain ⟨d, rest, htext, hkind⟩ := text_head encode v
  rw [htext]
  intro h
  cases h
  rw [hc] at hkind
  cases v with
  | bool b => cases b <;> cases hkind
  | _ => cases hkind

/-- Codes have one reading where none begins another, or what follows them all. -/
theorem flatMap_inj {α β : Type} {f : α → List β} {P : List β → Prop} {s t : List β}
    {xs ys : List α}
    (hread : ∀ x ∈ xs, ∀ {y s t}, P s → P t → f x ++ s = f y ++ t → x = y ∧ s = t)
    (hs : ∀ rest : List α, P (rest.flatMap f ++ s)) (ht : ∀ rest : List α, P (rest.flatMap f ++ t))
    (hstop : ∀ x rest, f x ++ rest ≠ t) (hstop' : ∀ y rest, f y ++ rest ≠ s)
    (h : xs.flatMap f ++ s = ys.flatMap f ++ t) : xs = ys ∧ s = t := by
  induction xs generalizing ys with
  | nil =>
      cases ys with
      | nil => exact ⟨rfl, h⟩
      | cons y ys =>
          rw [List.flatMap_cons, List.append_assoc] at h
          exact absurd h.symm (hstop' y _)
  | cons x xs ih =>
      rw [List.flatMap_cons, List.append_assoc] at h
      cases ys with
      | nil => exact absurd h (hstop x _)
      | cons y ys =>
          rw [List.flatMap_cons, List.append_assoc] at h
          obtain ⟨hx, hrest⟩ := hread x List.mem_cons_self (hs xs) (ht ys) h
          obtain ⟨hxs, hst⟩ := ih (fun x hx => hread x (List.mem_cons_of_mem _ hx)) hrest
          exact ⟨by rw [hx, hxs], hst⟩

/-- An encoding of characters in which no code begins another, or with the closing quote. -/
structure IsCode (encode : Char → List Char) : Prop where
  inj : ∀ {c d : Char} {s t : List Char}, encode c ++ s = encode d ++ t → c = d ∧ s = t
  no_quote : ∀ {c : Char} {s t : List Char}, encode c ++ s ≠ quote :: t

section Reading

variable {encode : Char → List Char}

theorem quoted_inj (hcode : IsCode encode) {k l : String} {s t : List Char}
    (h : quoted encode k ++ s = quoted encode l ++ t) : k = l ∧ s = t := by
  rw [quoted, quoted, List.cons_append, List.cons_append, List.cons.injEq, List.append_assoc,
    List.append_assoc] at h
  obtain ⟨hlist, hs⟩ := flatMap_inj (P := fun _ => True)
    (fun _ _ {_ _ _} _ _ h => hcode.inj h) (fun _ => trivial) (fun _ => trivial)
    (fun _ _ => hcode.no_quote) (fun _ _ => hcode.no_quote) h.2
  exact ⟨String.toList_inj.mp hlist, (List.cons.inj hs).2⟩

section Separated

variable {α : Type} {f : α → List Char} {close : Char} {s t : List Char}

theorem ends_separated (hclose : isNumeral close = false) (xs : List α) (s : List Char) :
    Ends ((xs.flatMap fun x => ',' :: f x) ++ close :: s) := by
  cases xs with
  | nil => exact ends_cons hclose s
  | cons x rest =>
      rw [List.flatMap_cons]
      exact ends_cons (by decide) _

variable {xs ys : List α} (hclose : isNumeral close = false)
  (hread : ∀ x ∈ xs, ∀ {y s t}, Ends s → Ends t → f x ++ s = f y ++ t → x = y ∧ s = t)
include hclose hread

theorem separated_inj (hcomma : close ≠ ',')
    (h : (xs.flatMap fun x => ',' :: f x) ++ close :: s =
      (ys.flatMap fun y => ',' :: f y) ++ close :: t) : xs = ys ∧ s = t := by
  obtain ⟨hxs, hst⟩ := flatMap_inj (f := fun x => ',' :: f x) (P := Ends)
    (fun x hx {_ _ _} hs ht h => hread x hx hs ht (List.cons.inj h).2)
    (fun rest => ends_separated hclose rest s) (fun rest => ends_separated hclose rest t)
    (fun _ _ h => hcomma (List.cons.inj h).1.symm) (fun _ _ h => hcomma (List.cons.inj h).1.symm) h
  exact ⟨hxs, (List.cons.inj hst).2⟩

theorem listed_inj (hcomma : close ≠ ',') (hopen : ∀ x s, f x ++ s ≠ close :: t)
    (hopen' : ∀ x t, f x ++ t ≠ close :: s)
    (h : (xs.flatMap fun x => ',' :: f x).tail ++ close :: s =
      (ys.flatMap fun y => ',' :: f y).tail ++ close :: t) : xs = ys ∧ s = t := by
  cases xs with
  | nil =>
      cases ys with
      | nil => exact ⟨rfl, (List.cons.inj h).2⟩
      | cons y ys =>
          rw [List.flatMap_cons, List.cons_append, List.tail_cons, List.append_assoc] at h
          exact absurd h.symm (hopen' y _)
  | cons x xs =>
      cases ys with
      | nil =>
          rw [List.flatMap_cons, List.cons_append, List.tail_cons, List.append_assoc] at h
          exact absurd h (hopen x _)
      | cons y ys => exact separated_inj hclose hread hcomma (congrArg (List.cons ',') h)

end Separated

/-- A text has one reading, whatever follows it. -/
theorem text_inj (hcode : IsCode encode) (v w : JsonDoc) {s t : List Char} (hs : Ends s)
    (ht : Ends t) (h : text encode v ++ s = text encode w ++ t) : v = w ∧ s = t := by
  have hkind : kind v = kind w := by
    obtain ⟨c, rest, hv, hc⟩ := text_head encode v
    obtain ⟨d, rest', hw, hd⟩ := text_head encode w
    rw [hv, hw, List.cons_append, List.cons_append, List.cons.injEq] at h
    rw [← hc, ← hd, h.1]
  match v, w with
  | .null, .null => exact ⟨rfl, List.append_cancel_left h⟩
  | .bool true, .bool true => exact ⟨rfl, List.append_cancel_left h⟩
  | .bool false, .bool false => exact ⟨rfl, List.append_cancel_left h⟩
  | .int m, .int n =>
      rw [text, text] at h
      have hdigits := congrArg (List.takeWhile isNumeral) h
      rw [takeWhile_numeral (fun _ => isNumeral_of_mem) hs,
        takeWhile_numeral (fun _ => isNumeral_of_mem) ht] at hdigits
      rw [hdigits] at h
      exact ⟨by rw [numeral_inj hdigits], List.append_cancel_left h⟩
  | .str k, .str l =>
      rw [text, text] at h
      obtain ⟨rfl, hrest⟩ := quoted_inj hcode h
      exact ⟨rfl, hrest⟩
  | .arr xs, .arr ys =>
      rw [text, text, itemsText_eq, itemsText_eq, List.cons_append, List.cons_append,
        List.cons.injEq, List.append_assoc, List.append_assoc] at h
      obtain ⟨rfl, hrest⟩ := listed_inj (by decide)
        (fun x hx {y s t} hs ht h => text_inj hcode x y hs ht h) (by decide)
        (fun x s => text_ne_close (by decide)) (fun x t => text_ne_close (by decide)) h.2
      exact ⟨rfl, hrest⟩
  | .obj xs, .obj ys =>
      have hread : ∀ x ∈ xs, ∀ {y s t}, Ends s → Ends t →
          (quoted encode x.1 ++ ':' :: text encode x.2) ++ s =
            (quoted encode y.1 ++ ':' :: text encode y.2) ++ t → x = y ∧ s = t := by
        intro x hx y s t hs ht h
        rw [List.append_assoc, List.append_assoc] at h
        obtain ⟨hkey, hrest⟩ := quoted_inj hcode h
        have hsize := sizeOf_value_lt hx
        obtain ⟨hvalue, hst⟩ := text_inj hcode x.2 y.2 hs ht (List.cons.inj hrest).2
        exact ⟨Prod.ext hkey hvalue, hst⟩
      rw [text, text, fieldsText_eq, fieldsText_eq, List.cons_append, List.cons_append,
        List.cons.injEq, List.append_assoc, List.append_assoc] at h
      obtain ⟨rfl, hrest⟩ := listed_inj (by decide) hread (by decide)
        (fun x s h => absurd (List.cons.inj h).1 (by decide))
        (fun x t h => absurd (List.cons.inj h).1 (by decide)) h.2
      exact ⟨rfl, hrest⟩
termination_by v

theorem text_injective (hcode : IsCode encode) {v w : JsonDoc}
    (h : text encode v = text encode w) : v = w := by
  have hnil : Ends [] := fun _ _ hcons => nomatch hcons
  exact (text_inj hcode v w hnil hnil (by rw [h])).1

end Reading

end JsonDoc

end Qontinui
