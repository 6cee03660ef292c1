import Qontinui.Collaboration.Compose

/-!
Pairs of operations that do not compose: for each there is a document on which the
composition and the two operations differ.
-/

namespace Qontinui.OperationalTransform

open Json ListEdit

/-! ### Edits of one property -/

def holder (key : String) : JsValue → Json
  | some value => .obj [(key, value)]
  | none => .obj []

theorem child?_holder (key : String) (current : JsValue) :
    (holder key current).child? key = current := by
  cases current with
  | none => rfl
  | some value => simp [holder, child?]

theorem isSlot_holder (key : String) (current : JsValue) : IsSlot (holder key current) key := by
  cases current with
  | none | some => exact Or.inl ⟨_, rfl⟩

theorem shown_holder (key : String) (current value : JsValue) :
    shown (holder key current) value = value := by
  cases current <;> rfl

theorem length_eq_of_same {left right : List Json}
    (h : Same (some (.arr left)) (some (.arr right))) : left.length = right.length :=
  Shape.arr.inj h.shape

section Edits

variable {op1 op2 : Operation} {front : List String} {key : String}

theorem law_node (hlaw : CompositionLaw op1 op2) (h1 : EditsPath op1) (h2 : EditsPath op2)
    (hpath1 : op1.path = front ++ [key]) (hpath2 : op2.path = front ++ [key]) {parent : Json}
    (hparent : parent.truthy = true) :
    SameOutcome (slotAct (composeByType op1 op2).toOperation parent key)
      (slotAct op1 parent key >>= (slotAct op2 · key)) :=
  (composite_node (keepsKind_slotAct op1 key) hparent (at?_nest front parent)).mp
    ((compositionLaw_edits h1 h2 hpath1 hpath2).mp hlaw (nest front parent))

theorem law_slot (hlaw : CompositionLaw op1 op2) (h1 : EditsPath op1) (h2 : EditsPath op2)
    (hpath1 : op1.path = front ++ [key]) (hpath2 : op2.path = front ++ [key])
    (current : JsValue) :
    Same (slotEdit (composeByType op1 op2).toOperation current)
      (slotEdit op2 (slotEdit op1 current)) := by
  have hslot := isSlot_holder key current
  have hnext := hslot.assignKey (slotEdit op1 current)
  have hnode := law_node hlaw h1 h2 hpath1 hpath2 hslot.truthy
  rw [slotAct_slot (composeByType_editsPath h1 h2) hslot, slotAct_slot h1 hslot,
    child?_holder] at hnode
  change SameOutcome _
    (slotAct op2 (assignKey (holder key current) key (slotEdit op1 current)) key) at hnode
  rw [slotAct_slot h2 hnext, hslot.child?_assignKey, shown_holder, sameOutcome_ok] at hnode
  have hshown := (hslot.same_assign_twice_iff _ _ _).mp hnode.symm
  rw [shown_holder, shown_holder] at hshown
  exact hshown.symm

end Edits

variable {op : Operation} {items : List Json}

theorem EditsArray.editsPath (h : EditsArray op) : EditsPath op := by
  rcases h with h | h | h <;> simp [EditsPath, h]

theorem slotEdit_array (h : EditsArray op) (items : List Json) :
    slotEdit op (some (.arr items)) = some (.arr (editItems op items)) := by
  rcases h with h | h | h <;> simp [slotEdit, h]

/-- By how much an edit lengthens a long list. -/
def growth (op : Operation) : Int :=
  match op.type with
  | .insert => 1
  | .delete => -1
  | _ => 0

theorem spliceStart_le (length : Nat) (start : Int) : spliceStart length start ≤ length := by
  unfold spliceStart
  split_ifs <;> omega

theorem length_insert (htype : op.type = .insert) (items : List Json) :
    (editItems op items).length = items.length + 1 := by
  simp only [editItems, htype, splice_insert,
    List.length_insertIdx_of_le_length (spliceStart_le _ _)]

theorem length_editItems (op : Operation) (hne : 0 < items.length) (h : op.pos < items.length) :
    ((editItems op items).length : Int) = items.length + growth op := by
  have hlt := spliceStart_lt hne h
  cases htype : op.type with
  | insert =>
      simp only [length_insert htype, growth, htype]
      omega
  | delete =>
      simp only [editItems, growth, htype, splice_delete, List.length_eraseIdx_of_lt hlt]
      omega
  | move =>
      have htarget : spliceStart (items.length - 1) op.newPos < items.length :=
        Nat.lt_of_le_of_lt (spliceStart_le _ _) (by omega)
      simp only [editItems, growth, htype, spliceMove_eq_move hlt, length_move items hlt htarget]
      omega
  | update | connect | disconnect => simp [editItems, growth, htype]

theorem length_editItems_replicate (op : Operation) (item : Json) :
    ((editItems op (List.replicate (op.pos.toNat + 1) item)).length : Int) =
      (List.replicate (op.pos.toNat + 1) item).length + growth op :=
  length_editItems op (by simp) (by rw [List.length_replicate]; omega)

theorem not_constant {edit : List Json → List Json} {shift : Int} {long : Nat}
    (hedit : ∀ items : List Json, long ≤ items.length →
      ((edit items).length : Int) = items.length + shift) {value : JsValue}
    (h : ∀ items, Same value (some (.arr (edit items)))) : False := by
  have hfirst := hedit (List.replicate long .null) (by simp)
  have hsecond := hedit (List.replicate (long + 1) .null) (by simp)
  have hsame := length_eq_of_same ((h (List.replicate long .null)).symm.trans
    (h (List.replicate (long + 1) .null)))
  simp only [List.length_replicate] at hfirst hsecond
  omega

/-- A length at which neither edit reaches past the end. -/
def longEnough (op1 op2 : Operation) : Nat := op1.pos.natAbs + op2.pos.natAbs + 2

theorem length_second {op1 op2 : Operation} (h : longEnough op1 op2 ≤ items.length) :
    ((editItems op2 items).length : Int) = items.length + growth op2 := by
  unfold longEnough at h
  exact length_editItems op2 (by omega) (by omega)

theorem length_both {op1 op2 : Operation} (h : longEnough op1 op2 ≤ items.length) :
    ((editItems op2 (editItems op1 items)).length : Int) =
      items.length + (growth op1 + growth op2) := by
  unfold longEnough at h
  have hfirst : ((editItems op1 items).length : Int) = items.length + growth op1 :=
    length_editItems op1 (by omega) (by omega)
  have hgrowth : -1 ≤ growth op1 := by
    unfold growth
    split <;> omega
  rw [length_editItems op2 (by omega) (by omega), hfirst, Int.add_assoc]

section Limits

variable {op1 op2 : Operation} {front : List String} {key : String}

section

variable (hlaw : CompositionLaw op1 op2)
include hlaw

section

variable (hpath2 : op2.path = front ++ [key])
include hpath2

section

variable (hpath1 : op1.path = front ++ [key])
include hpath1

theorem not_law_update (h1 : EditsArray op1) (h2 : EditsArray op2)
    (hupdate : (composeByType op1 op2).type = .update) : False := by
  have hsame : ∀ items, Same (composeByType op1 op2).value
      (some (.arr (editItems op2 (editItems op1 items)))) := by
    intro items
    have hslot := law_slot hlaw h1.editsPath h2.editsPath hpath1 hpath2 (some (.arr items))
    rwa [slotEdit_update hupdate, slotEdit_array h1, slotEdit_array h2] at hslot
  exact not_constant (fun items => length_both) hsame

theorem not_law_after_update (h1 : op1.type = .update) (h2 : EditsArray op2) : False := by
  have hedits1 : EditsPath op1 := by simp [EditsPath, h1]
  have hcomposed : (composeByType op1 op2).toOperation = op2 := by
    rcases h2 with h2 | h2 | h2 <;> simp only [composeByType, h1, h2]
  have hsame : ∀ items, Same (slotEdit op2 op1.value) (some (.arr (editItems op2 items))) := by
    intro items
    have hslot := law_slot hlaw hedits1 h2.editsPath hpath1 hpath2 (some (.arr items))
    rw [hcomposed, slotEdit_update h1, slotEdit_array h2] at hslot
    exact hslot.symm
  have hlength : ∀ items : List Json, longEnough op1 op2 ≤ items.length →
      ((editItems op2 items).length : Int) = items.length + growth op2 :=
    fun items => length_second
  exact not_constant hlength hsame

theorem law_items (h1 : EditsArray op1) (h2 : EditsArray op2)
    (hsecond : (composeByType op1 op2).toOperation = op2) (items : List Json) :
    Same (some (.arr (editItems op2 items)))
      (some (.arr (editItems op2 (editItems op1 items)))) := by
  have hslot := law_slot hlaw h1.editsPath h2.editsPath hpath1 hpath2 (some (.arr items))
  rwa [hsecond, slotEdit_array h1, slotEdit_array h2, slotEdit_array h2] at hslot

end

end

end

theorem growth_eq_zero
    (h : ∀ items, Same (some (.arr (editItems op2 items)))
      (some (.arr (editItems op2 (editItems op1 items))))) : growth op1 = 0 := by
  have hlong : longEnough op1 op2 ≤
      (List.replicate (longEnough op1 op2) Json.null).length := by simp
  have hsame := length_eq_of_same (h (List.replicate (longEnough op1 op2) .null))
  have hsecond := length_second hlong
  have hboth := length_both hlong
  omega

/-! ### Moves -/

variable {length : Nat}

theorem spliceStart_past {start : Int} (h : (length : Int) ≤ start) :
    spliceStart length start = length := by
  unfold spliceStart
  split_ifs <;> omega

theorem length_move_past {op : Operation} {items : List Json} (htype : op.type = .move)
    (h : (items.length : Int) ≤ op.pos) : (editItems op items).length = items.length + 1 := by
  simp only [editItems, htype, spliceMove, splice_insert, splice_delete, spliceStart_past h,
    List.eraseIdx_of_length_le (Nat.le_refl _)]
  exact List.length_insertIdx_of_le_length (spliceStart_le _ _) _

section

variable (h : ∀ items, Same (some (.arr (editItems op2 items))) (some (.arr (editItems op2 (editItems op1 items)))))
include h

theorem second_pos_le (h1 : op1.type = .move) (h2 : EditsArray op2) :
    (op2.type = .delete ∨ op2.type = .move) ∧ op2.pos ≤ 0 := by
  have hnull : editItems op1 [] = [.null] := by
    simp only [editItems, h1, spliceMove_nil]
  have hsame := length_eq_of_same (h [])
  rw [hnull] at hsame
  rcases h2 with h2 | h2 | h2
  · simp [length_insert h2] at hsame
  · refine ⟨Or.inl h2, ?_⟩
    by_contra hpos
    have hpast : spliceStart 1 op2.pos = 1 := spliceStart_past (by omega)
    simp [editItems, h2, splice_delete, hpast] at hsame
  · refine ⟨Or.inr h2, ?_⟩
    by_contra hpos
    have hpast : (editItems op2 [Json.null]).length = 1 + 1 :=
      length_move_past h2 (by simp; omega)
    rw [hpast] at hsame
    simp [editItems, h2, spliceMove_nil] at hsame

theorem first_pos_le (h1 : op1.type = .move) (hpos : op2.pos ≤ 0) : op1.pos ≤ 0 := by
  by_contra hfirst
  have hlength : ((List.replicate op1.pos.toNat Json.null).length : Int) = op1.pos := by
    rw [List.length_replicate]
    omega
  have hsame := length_eq_of_same (h (List.replicate op1.pos.toNat .null))
  have hmoved := length_move_past h1 (Int.le_of_eq hlength)
  have hedited : ∀ items : List Json, 0 < items.length →
      ((editItems op2 items).length : Int) = items.length + growth op2 :=
    fun items hne => length_editItems op2 hne (by omega)
  have hsecond := hedited (List.replicate op1.pos.toNat .null) (by omega)
  have hboth := hedited (editItems op1 (List.replicate op1.pos.toNat .null)) (by omega)
  omega

end

def numbered (n : Nat) : List Json := (List.range n).map fun i : Nat => .num (i : Rat)

theorem length_numbered (n : Nat) : (numbered n).length = n := by simp [numbered]

theorem eq_of_same_numbered {n i j : Nat} (hi : i < n)
    (h : Same (numbered n)[i]? (numbered n)[j]?) : j = i := by
  have hshape := h.shape
  have hleft : (numbered n)[i]? = some (.num i) := by simp [numbered, hi]
  rw [hleft] at hshape
  by_cases hj : j < n
  · have hright : (numbered n)[j]? = some (.num j) := by simp [numbered, hj]
    rw [hright] at hshape
    have hnum := Shape.num.inj hshape
    exact_mod_cast hnum.symm
  · rw [List.getElem?_eq_none (by rw [length_numbered]; omega)] at hshape
    cases hshape

theorem edit_shows {n : Nat} (hn : 0 < n) (h2 : op2.type = .delete ∨ op2.type = .move)
    (hpos : op2.pos ≤ 0) :
    ∃ gap : Nat, ∀ j : Nat, j ≠ gap → ∃ k : Nat, ∀ items : List Json, items.length = n →
      (editItems op2 items)[k]? = items[j]? := by
  have hlt : spliceStart n op2.pos < n := spliceStart_lt hn (by omega)
  rcases h2 with h2 | h2
  · refine ⟨spliceStart n op2.pos,
      fun j hj => ⟨if j < spliceStart n op2.pos then j else j - 1, ?_⟩⟩
    rintro items rfl
    have hskip : skip (spliceStart items.length op2.pos)
        (if j < spliceStart items.length op2.pos then j else j - 1) = j := by
      unfold skip
      split_ifs <;> omega
    simp only [editItems, h2, splice_delete]
    rw [getElem?_eraseIdx_skip, hskip]
  · refine ⟨n, fun j _ => ⟨moveSource (spliceStart (n - 1) op2.newPos)
      (spliceStart n op2.pos) j, ?_⟩⟩
    rintro items rfl
    have htarget : spliceStart (items.length - 1) op2.newPos < items.length :=
      Nat.lt_of_le_of_lt (spliceStart_le _ _) (by omega)
    simp only [editItems, h2, spliceMove_eq_move hlt]
    rw [getElem?_move items hlt htarget, moveSource_reverse]

theorem moveSource_moves {source target : Nat} (h : source ≠ target) :
    moveSource source target source ≠ source ∧ moveSource source target target ≠ target := by
  unfold moveSource
  split_ifs <;> omega

/-- A move that another edit of every list hides is idle. -/
theorem idle_of_hidden
    (h : ∀ items, Same (some (.arr (editItems op2 items)))
      (some (.arr (editItems op2 (editItems op1 items))))) (h1 : op1.type = .move)
    (h2 : op2.type = .delete ∨ op2.type = .move) (hpos : op2.pos ≤ 0) : IdleMove op1 := by
  have hfirst := first_pos_le h h1 hpos
  -- a length at which the ends of the list are apart
  obtain ⟨n, hn⟩ : ∃ n, n = op1.pos.natAbs + op1.newPos.natAbs + 2 := ⟨_, rfl⟩
  have hsource : spliceStart n op1.pos < n := spliceStart_lt (by omega) (by omega)
  have htarget : spliceStart (n - 1) op1.newPos < n :=
    Nat.lt_of_le_of_lt (spliceStart_le _ _) (by omega)
  have hlength := length_numbered n
  have hmove : editItems op1 (numbered n) =
      move (numbered n) (spliceStart n op1.pos) (spliceStart (n - 1) op1.newPos) := by
    simp only [editItems, h1]
    rw [spliceMove_eq_move (by rwa [hlength]), hlength]
  have hmoved : (move (numbered n) (spliceStart n op1.pos)
      (spliceStart (n - 1) op1.newPos)).length = n := by
    rw [length_move _ (by rwa [hlength]) (by rwa [hlength]), hlength]
  obtain ⟨gap, hshows⟩ := edit_shows (n := n) (by omega) h2 hpos
  have hstays : ∀ j, j < n → j ≠ gap →
      moveSource (spliceStart n op1.pos) (spliceStart (n - 1) op1.newPos) j = j := by
    intro j hj hgap
    obtain ⟨k, hk⟩ := hshows j hgap
    have hsame := same_arr_iff.mp (h (numbered n)) k
    rw [hmove, hk _ hlength, hk _ hmoved, getElem?_move _ (by rwa [hlength]) (by rwa [hlength])]
      at hsame
    exact eq_of_same_numbered hj hsame
  have hequal : spliceStart n op1.pos = spliceStart (n - 1) op1.newPos := by
    by_contra hne
    obtain ⟨hmoves, hmoves'⟩ := moveSource_moves hne
    by_cases hgap : spliceStart n op1.pos = gap
    · exact hmoves' (hstays _ htarget (by omega))
    · exact hmoves (hstays _ hsource hgap)
  refine ⟨h1, ?_⟩
  clear hshows hstays hmove
  unfold spliceStart at hequal
  split_ifs at hequal <;> omega

/-! ### Lengths -/

theorem resized_self (items : List Json) : resized items items.length = items := by
  simp [resized]

theorem getElem?_resized_past {items : List Json} {i : Nat} (h : items.length ≤ i)
    (hlt : i < length) : (resized items length)[i]? = some .null := by
  have htake : (items.take length).length ≤ i := by
    rw [List.length_take]
    omega
  rw [resized, List.getElem?_append_right htake, List.getElem?_replicate, List.length_take]
  exact if_pos (by omega)

theorem not_same_cut {shorter : Nat} (h : shorter < length) :
    ¬Same (some (.arr (List.replicate length (.bool true))))
      (some (.arr (resized (resized (List.replicate length (.bool true)) shorter) length))) := by
  intro hsame
  have helement := same_arr_iff.mp hsame shorter
  rw [getElem?_resized_past (length_resized _ _).le h, List.getElem?_replicate, if_pos h]
    at helement
  cases helement.shape

section

variable (hlaw : CompositionLaw op1 op2)
include hlaw

theorem law_length (h1 : EditsPath op1) (h2 : op2.type = .update)
    (hpath1 : op1.path = front ++ ["length"]) (hpath2 : op2.path = front ++ ["length"])
    (items : List Json) :
    SameOutcome ((Json.arr items).writeKey "length" op2.value)
      (plainAct op1 (.arr items) "length" >>= (writeKey · "length" op2.value)) := by
  obtain ⟨hupdate, hvalue⟩ := composeByType_update op1 h2
  have htruthy : (Json.arr items).truthy = true := rfl
  have hnode := law_node hlaw h1 (by simp [EditsPath, h2]) hpath1 hpath2 htruthy
  rw [slotAct_update hupdate, hvalue, slotAct_length] at hnode
  simpa only [slotAct_update h2] using hnode

theorem lengthComposes_of_law (h1 : EditsPath op1) (h2 : op2.type = .update)
    (hpath1 : op1.path = front ++ ["length"]) (hpath2 : op2.path = front ++ ["length"]) :
    LengthComposes op1 op2 := by
  have hlength := law_length hlaw h1 h2 hpath1 hpath2
  unfold LengthComposes
  cases htype : op1.type with
  | connect => exact absurd htype h1.1
  | disconnect => exact absurd htype h1.2
  | move => trivial
  | delete =>
      cases hsecond : arrayLength? op2.value with
      | none => rfl
      | some length =>
          have houtcome := hlength []
          simp only [writeKey_length, hsecond, plainAct, htype, deleteKey, arrayIndex?_length,
            if_true] at houtcome
          exact absurd houtcome id
  | insert | update =>
      intro length hsecond
      have houtcome := hlength (List.replicate length (.bool true))
      simp only [writeKey_length, hsecond, plainAct, htype] at houtcome
      cases hfirst : arrayLength? op1.value with
      | none =>
          rw [hfirst] at houtcome
          exact absurd houtcome id
      | some shorter =>
          refine ⟨shorter, rfl, ?_⟩
          by_contra hlt
          have hself : resized (List.replicate length (Json.bool true)) length =
              List.replicate length (.bool true) := by
            simpa only [List.length_replicate] using
              resized_self (List.replicate length (Json.bool true))
          rw [hfirst, hself] at houtcome
          change SameOutcome _
            ((Json.arr (resized (List.replicate length (.bool true)) shorter)).writeKey
              "length" op2.value) at houtcome
          rw [writeKey_length, hsecond] at houtcome
          exact not_same_cut (by omega) houtcome

/-! ### The edits that compose -/

theorem not_law_second (h1 : EditsArray op1) (h2 : EditsArray op2)
    (hpath1 : op1.path = front ++ [key]) (hpath2 : op2.path = front ++ [key])
    (hsecond : (composeByType op1 op2).toOperation = op2) (hgrowth : growth op1 ≠ 0) : False :=
  hgrowth (growth_eq_zero (law_items hlaw hpath2 hpath1 h1 h2 hsecond))

theorem idle_of_law (h1 : EditsPath op1) (h2 : EditsArray op2) (hpath1 : op1.path = front ++ [key])
    (hpath2 : op2.path = front ++ [key]) :
    IdleMove op1 ∧ (op2.type = .delete ∨ op2.type = .move) ∧ op2.pos ≤ 0 := by
  cases htype : op1.type with
  | connect => exact absurd htype h1.1
  | disconnect => exact absurd htype h1.2
  | update => exact (not_law_after_update hlaw hpath2 hpath1 htype h2).elim
  | insert =>
      have hedits : EditsArray op1 := Or.inl htype
      have hgrowth : growth op1 ≠ 0 := by simp [growth, htype]
      exfalso
      rcases id h2 with h | h | h
      · exact not_law_second hlaw hedits h2 hpath1 hpath2
          (by simp only [composeByType, htype, h]) hgrowth
      · exact not_law_update hlaw hpath2 hpath1 hedits h2 (by simp only [composeByType, htype, h])
      · exact not_law_second hlaw hedits h2 hpath1 hpath2
          (by simp only [composeByType, htype, h]) hgrowth
  | delete =>
      have hedits : EditsArray op1 := Or.inr (Or.inl htype)
      have hgrowth : growth op1 ≠ 0 := by simp [growth, htype]
      exfalso
      rcases id h2 with h | h | h
      · exact not_law_update hlaw hpath2 hpath1 hedits h2 (by simp only [composeByType, htype, h])
      · exact not_law_second hlaw hedits h2 hpath1 hpath2
          (by simp only [composeByType, htype, h]) hgrowth
      · exact not_law_second hlaw hedits h2 hpath1 hpath2
          (by simp only [composeByType, htype, h]) hgrowth
  | move =>
      have hitems := law_items hlaw hpath2 hpath1 (Or.inr (Or.inr htype)) h2
        (composeByType_move htype op2)
      obtain ⟨h2type, hpos⟩ := second_pos_le hitems htype h2
      exact ⟨idle_of_hidden hitems htype h2type hpos, h2type, hpos⟩

theorem editsCompose_of_law (h1 : EditsPath op1) (h2 : EditsPath op2)
    (hpath1 : op1.path = front ++ [key]) (hpath2 : op2.path = front ++ [key]) :
    EditsCompose op1 op2 := by
  have hidle := fun h2 : EditsArray op2 => idle_of_law hlaw h1 h2 hpath1 hpath2
  unfold EditsCompose
  cases htype : op2.type with
  | connect => exact absurd htype h2.1
  | disconnect => exact absurd htype h2.2
  | update =>
      intro hlast
      have hkey : key = "length" := by simpa [hpath1] using hlast
      subst hkey
      exact lengthComposes_of_law hlaw h1 htype hpath1 hpath2
  | insert =>
      obtain ⟨-, hother | hother, -⟩ := hidle (Or.inl htype)
      · cases htype.symm.trans hother
      · cases htype.symm.trans hother
  | delete =>
      obtain ⟨hmove, -, hpos⟩ := hidle (Or.inr (Or.inl htype))
      exact ⟨hmove, hpos⟩
  | move =>
      obtain ⟨hmove, -, hpos⟩ := hidle (Or.inr (Or.inr htype))
      exact ⟨hmove, hpos⟩

end

end Limits

end Qontinui.OperationalTransform
