import Qontinui.Collaboration.Apply

/-!
Concurrent insertions and deletions in one array: the two orders agree, and
what they agree on keeps every element that no user deleted, except when both
users delete the same element.
-/

namespace Qontinui.OperationalTransform

open Json ListEdit

variable {a : Operation} {l : List Json}

theorem editItems_insert (htype : a.type = .insert) (h0 : 0 ≤ a.pos) (h : a.pos ≤ l.length) :
    editItems a l = l.insertIdx a.pos.toNat (a.value.getD .null) := by
  simp only [editItems, htype]
  rw [splice_insert, spliceStart_of_nat h0 h]

theorem editItems_delete (htype : a.type = .delete) (h0 : 0 ≤ a.pos) (h : a.pos ≤ l.length) :
    editItems a l = l.eraseIdx a.pos.toNat := by
  simp only [editItems, htype]
  rw [splice_delete, spliceStart_of_nat h0 h]

theorem length_editItems_insert (htype : a.type = .insert) (h0 : 0 ≤ a.pos) (h : a.pos ≤ l.length) :
    (editItems a l).length = l.length + 1 := by
  rw [editItems_insert htype h0 h, List.length_insertIdx_of_le_length (by omega)]

theorem length_editItems_delete (htype : a.type = .delete) (h0 : 0 ≤ a.pos) (h : a.pos < l.length) :
    (editItems a l).length = l.length - 1 := by
  rw [editItems_delete htype h0 (by omega), List.length_eraseIdx_of_lt (by omega)]

/-! ### Shifting one edit past another -/

section Shift

variable {a b : Operation} {items : List Json}

theorem insert_past_insert (ha : a.type = .insert) (hb : b.type = .insert) (ha0 : 0 ≤ a.pos)
    (hab : a.pos ≤ b.pos) (hbn : b.pos ≤ items.length) :
    editItems (atPosition b (b.pos + 1)) (editItems a items) =
      editItems a (editItems b items) := by
  have hla := length_editItems_insert ha ha0 (l := items) (by omega)
  have hlb := length_editItems_insert hb (l := items) (by omega) hbn
  rw [editItems_insert (a := atPosition b (b.pos + 1)) hb (by simp; omega) (by simp; omega),
    editItems_insert ha ha0 (l := editItems b items) (by omega),
    editItems_insert ha ha0 (by omega), editItems_insert hb (by omega) hbn, atPosition_pos,
    show (b.pos + 1).toNat = b.pos.toNat + 1 by omega]
  exact List.insertIdx_comm _ _ (by omega) (by omega)

theorem delete_past_insert (ha : a.type = .insert) (hb : b.type = .delete) (ha0 : 0 ≤ a.pos)
    (hab : a.pos ≤ b.pos) (hbn : b.pos < items.length) :
    editItems (atPosition b (b.pos + 1)) (editItems a items) =
      editItems a (editItems b items) := by
  have hla := length_editItems_insert ha ha0 (l := items) (by omega)
  have hlb := length_editItems_delete hb (l := items) (by omega) hbn
  rw [editItems_delete (a := atPosition b (b.pos + 1)) hb (by simp; omega) (by simp; omega),
    editItems_insert ha ha0 (l := editItems b items) (by omega),
    editItems_insert ha ha0 (by omega), editItems_delete hb (by omega) (by omega), atPosition_pos,
    show (b.pos + 1).toNat = b.pos.toNat + 1 by omega]
  exact (List.insertIdx_eraseIdx_of_le (by omega) (by omega)).symm

theorem insert_past_delete (ha : a.type = .insert) (hb : b.type = .delete) (hb0 : 0 ≤ b.pos)
    (hba : b.pos < a.pos) (han : a.pos ≤ items.length) :
    editItems b (editItems a items) =
      editItems (atPosition a (a.pos - 1)) (editItems b items) := by
  have hla := length_editItems_insert ha (l := items) (by omega) han
  have hlb := length_editItems_delete hb hb0 (l := items) (by omega)
  rw [editItems_insert (a := atPosition a (a.pos - 1)) ha (by simp; omega) (by simp; omega),
    editItems_delete hb hb0 (l := editItems a items) (by omega),
    editItems_insert ha (by omega) han, editItems_delete hb hb0 (by omega), atPosition_pos,
    show a.pos.toNat = (a.pos - 1).toNat + 1 by omega]
  exact (List.insertIdx_eraseIdx_of_ge (by omega) (by omega)).symm

theorem delete_past_delete (ha : a.type = .delete) (hb : b.type = .delete) (ha0 : 0 ≤ a.pos)
    (hab : a.pos < b.pos) (hbn : b.pos < items.length) :
    editItems (atPosition b (b.pos - 1)) (editItems a items) =
      editItems a (editItems b items) := by
  have hla := length_editItems_delete ha ha0 (l := items) (by omega)
  have hlb := length_editItems_delete hb (l := items) (by omega) hbn
  rw [editItems_delete (a := atPosition b (b.pos - 1)) hb (by simp; omega) (by simp; omega),
    editItems_delete ha ha0 (l := editItems b items) (by omega),
    editItems_delete ha ha0 (by omega), editItems_delete hb (by omega) (by omega), atPosition_pos,
    show b.pos.toNat = (b.pos - 1).toNat + 1 by omega]
  exact (eraseIdx_eraseIdx_of_le items (by omega)).symm

end Shift

/-! ### What `transform` returns for two edits of one array -/

section Transform

variable {op1 op2 : Operation}

theorem transform_insert_insert (hsame : op2.path = op1.path) (h1 : op1.type = .insert)
    (h2 : op2.type = .insert) :
    transform op1 op2 =
      if op1.pos < op2.pos ∨ (op1.pos = op2.pos ∧ op1.timestamp < op2.timestamp) then
        (op1, atPosition op2 (op2.pos + 1))
      else (atPosition op1 (op1.pos + 1), op2) := by
  have hby : transformByType op1 op2 = transformInsertInsert op1 op2 := by
    simp only [transformByType, h1, h2]
  rw [transform_same_path hsame, hby, transformInsertInsert]
  rcases Int.lt_trichotomy op1.pos op2.pos with h | h | h
  · simp [h]
  · by_cases ht : op1.timestamp < op2.timestamp <;> simp [h, ht]
  · have hlt : ¬ op1.pos < op2.pos := by omega
    have hne : op1.pos ≠ op2.pos := by omega
    simp [h, hlt, hne]

theorem transform_insert_delete (hsame : op2.path = op1.path) (h1 : op1.type = .insert)
    (h2 : op2.type = .delete) :
    transform op1 op2 =
      if op1.pos ≤ op2.pos then (op1, atPosition op2 (op2.pos + 1))
      else (atPosition op1 (op1.pos - 1), op2) := by
  have hby : transformByType op1 op2 = transformInsertDelete op1 op2 := by
    simp only [transformByType, h1, h2]
  rw [transform_same_path hsame, hby, transformInsertDelete]
  split_ifs <;> rfl

theorem transform_delete_delete (hsame : op2.path = op1.path) (h1 : op1.type = .delete)
    (h2 : op2.type = .delete) :
    transform op1 op2 =
      if op1.pos = op2.pos then
        (nullUpdate op1, nullUpdate op2)
      else if op1.pos < op2.pos then (op1, atPosition op2 (op2.pos - 1))
      else (atPosition op1 (op1.pos - 1), op2) := by
  have hby : transformByType op1 op2 = transformDeleteDelete op1 op2 := by
    simp only [transformByType, h1, h2]
  rw [transform_same_path hsame, hby, transformDeleteDelete]
  split_ifs <;> rfl

end Transform

/-- An insert or delete whose position lies inside an array of this length. -/
def InsertsOrDeletes (op : Operation) (length : Nat) : Prop :=
  (op.type = .insert ∧ 0 ≤ op.pos ∧ op.pos ≤ length) ∨
    (op.type = .delete ∧ 0 ≤ op.pos ∧ op.pos < length)

/-- Both operations delete the element at one index. -/
def DeleteSame (op1 op2 : Operation) : Prop :=
  op1.type = .delete ∧ op2.type = .delete ∧ op1.pos = op2.pos

/-- The transformed pair edits the array at the same path, and both orders leave
the same array. -/
structure EditsAgree (op1 op2 : Operation) (items : List Json)
    (pair : Operation × Operation) : Prop where
  path1 : pair.1.path = op1.path
  path2 : pair.2.path = op1.path
  edit1 : EditsArray pair.1
  edit2 : EditsArray pair.2
  agree : editItems pair.2 (editItems op1 items) = editItems pair.1 (editItems op2 items)

variable {items : List Json} {op : Operation}

theorem edits_agree {op1 op2 : Operation} (hsame : op2.path = op1.path)
    (h1 : InsertsOrDeletes op1 items.length) (h2 : InsertsOrDeletes op2 items.length)
    (hdelete : ¬ DeleteSame op1 op2) : EditsAgree op1 op2 items (transform op1 op2) := by
  rcases h1 with ⟨ht1, hp1, hn1⟩ | ⟨ht1, hp1, hn1⟩ <;>
    rcases h2 with ⟨ht2, hp2, hn2⟩ | ⟨ht2, hp2, hn2⟩
  · rw [transform_insert_insert hsame ht1 ht2]
    split_ifs with h
    · exact ⟨rfl, hsame, Or.inl ht1, Or.inl ht2,
        insert_past_insert ht1 ht2 hp1 (by omega) hn2⟩
    · exact ⟨rfl, hsame, Or.inl ht1, Or.inl ht2,
        (insert_past_insert ht2 ht1 hp2 (by omega) hn1).symm⟩
  · rw [transform_insert_delete hsame ht1 ht2]
    split_ifs with h
    · exact ⟨rfl, hsame, Or.inl ht1, Or.inr (Or.inl ht2),
        delete_past_insert ht1 ht2 hp1 h hn2⟩
    · exact ⟨rfl, hsame, Or.inl ht1, Or.inr (Or.inl ht2),
        insert_past_delete ht1 ht2 hp2 (Int.not_le.mp h) hn1⟩
  · rw [transform_swap_of_type (by rw [ht1, ht2]; decide),
      transform_insert_delete hsame.symm ht2 ht1]
    split_ifs with h
    · exact ⟨rfl, hsame, Or.inr (Or.inl ht1), Or.inl ht2,
        (delete_past_insert ht2 ht1 hp2 h hn1).symm⟩
    · exact ⟨rfl, hsame, Or.inr (Or.inl ht1), Or.inl ht2,
        (insert_past_delete ht2 ht1 hp1 (by omega) hn2).symm⟩
  · rw [transform_delete_delete hsame ht1 ht2, if_neg fun h => hdelete ⟨ht1, ht2, h⟩]
    have hne : op1.pos ≠ op2.pos := fun h => hdelete ⟨ht1, ht2, h⟩
    split_ifs with h
    · exact ⟨rfl, hsame, Or.inr (Or.inl ht1), Or.inr (Or.inl ht2),
        delete_past_delete ht1 ht2 hp1 h hn2⟩
    · exact ⟨rfl, hsame, Or.inr (Or.inl ht1), Or.inr (Or.inl ht2),
        (delete_past_delete ht2 ht1 hp2 (by omega) hn1).symm⟩

theorem InsertsOrDeletes.editsArray {length : Nat} (h : InsertsOrDeletes op length) :
    EditsArray op := by
  rcases h with ⟨htype, _⟩ | ⟨htype, _⟩
  · exact Or.inl htype
  · exact Or.inr (Or.inl htype)

/-- Concurrent insertions and deletions in one array converge. Two deletions of
one element converge too, on a document whose array is replaced by `null`. -/
theorem array_edits_converge {doc : Json} {items : List Json} {op1 op2 : Operation}
    (hpath : op1.path ≠ []) (hsame : op2.path = op1.path)
    (hdoc : doc.at? op1.path = some (.arr items))
    (h1 : InsertsOrDeletes op1 items.length) (h2 : InsertsOrDeletes op2 items.length) :
    Converges doc op1 op2 := by
  have hpath2 : op2.path ≠ [] := by rwa [hsame]
  have hdoc2 : doc.at? op2.path = some (.arr items) := by rwa [hsame]
  by_cases hdelete : DeleteSame op1 op2
  · obtain ⟨ht1, ht2, hpos⟩ := hdelete
    have htransform := transform_delete_delete hsame ht1 ht2
    rw [if_pos hpos] at htransform
    refine (converges_iff (l := doc.replaceAt op1.path .null)
      (r := doc.replaceAt op2.path .null) ?_ ?_).mpr (by rw [hsame])
    · rw [htransform]
      exact applyThen_array_null hpath hsame hdoc h1.editsArray
    · rw [htransform]
      exact applyThen_array_null hpath2 hsame.symm hdoc2 h2.editsArray
  · have hedits := edits_agree hsame h1 h2 hdelete
    exact (converges_iff_items hpath hsame hdoc h1.editsArray h2.editsArray hedits.path1
      hedits.path2 hedits.edit1 hedits.edit2).mpr hedits.agree

/-- Two users insert at the front and delete the last of three elements. -/
theorem array_edits_converge_actions :
    Converges (.obj [("actions", .arr [.num 1, .num 2, .num 3])])
      { type := .insert, path := ["actions"], value := some (.num 9), timestamp := 1
        userId := "user-1", operationId := "op-1", position := some 0 }
      { type := .delete, path := ["actions"], timestamp := 2
        userId := "user-2", operationId := "op-2", position := some 2 } :=
  array_edits_converge (by decide) rfl
    (show _ = some (Json.arr [.num 1, .num 2, .num 3]) from rfl)
    (Or.inl ⟨rfl, by decide, by decide⟩) (Or.inr ⟨rfl, by decide, by decide⟩)

/-! ### What survives -/

/-- The operation deletes the element at index `i`. -/
def deletes (op : Operation) (i : Nat) : Bool := op.type == .delete && op.pos == (i : Int)

def inserted (op : Operation) : List Json :=
  if op.type = .insert then [op.value.getD .null] else []

/-- After `result` the array at `path` holds the elements that neither operation
deletes, in their original order, and each inserted value once. -/
def LosesNothing (path : List String) (items : List Json) (op1 op2 : Operation)
    (result : Js Json) : Prop :=
  ∃ after left, result = .ok after ∧ after.at? path = some (.arr left) ∧
    Merges (survivors (fun i => deletes op1 i || deletes op2 i) items)
      (inserted op1 ++ inserted op2) left

theorem merges_editItems_insert {kept added : List Json} (h : Merges kept added items)
    (htype : a.type = .insert) (h0 : 0 ≤ a.pos) (hn : a.pos ≤ items.length) :
    Merges kept (a.value.getD .null :: added) (editItems a items) := by
  rw [editItems_insert htype h0 hn]
  exact h.insertIdx _ (by omega)

theorem deletes_of_insert (h : op.type = .insert) : deletes op = fun _ => false := by
  funext i
  simp [deletes, h]

theorem deletes_of_delete (h : op.type = .delete) (h0 : 0 ≤ op.pos) :
    deletes op = fun i => op.pos.toNat == i := by
  funext i
  simp only [deletes, h, beq_self_eq_true, Bool.true_and]
  rw [Bool.eq_iff_iff, beq_iff_eq, beq_iff_eq]
  omega

/-- The array that both orders agree on merges the survivors with the inserted
values. -/
theorem edits_merge {op1 op2 : Operation} (hsame : op2.path = op1.path)
    (h1 : InsertsOrDeletes op1 items.length) (h2 : InsertsOrDeletes op2 items.length)
    (hdelete : ¬ DeleteSame op1 op2) :
    Merges (survivors (fun i => deletes op1 i || deletes op2 i) items)
      (inserted op1 ++ inserted op2)
      (editItems (transform op1 op2).2 (editItems op1 items)) := by
  have hagree := (edits_agree hsame h1 h2 hdelete).agree
  rcases h1 with ⟨ht1, hp1, hn1⟩ | ⟨ht1, hp1, hn1⟩ <;>
    rcases h2 with ⟨ht2, hp2, hn2⟩ | ⟨ht2, hp2, hn2⟩
  · have hfirst := merges_editItems_insert (Merges.refl items) ht1 hp1 hn1
    have hlen := length_editItems_insert ht1 hp1 hn1
    simp only [deletes_of_insert ht1, deletes_of_insert ht2, Bool.or_self, survivors_none,
      inserted, ht1, ht2, if_true]
    refine Merges.perm ?_ (List.Perm.swap _ _ [])
    rw [transform_insert_insert hsame ht1 ht2]
    split_ifs with h
    · exact merges_editItems_insert hfirst (a := atPosition op2 (op2.pos + 1)) ht2
        (by simp; omega) (by simp; omega)
    · exact merges_editItems_insert hfirst ht2 hp2 (by omega)
  · -- the deletion is applied first, so that the survivors are at hand
    rw [hagree]
    have hlen := length_editItems_delete ht2 hp2 hn2
    have hkept : survivors (fun i => deletes op1 i || deletes op2 i) items =
        editItems op2 items := by
      simp only [deletes_of_insert ht1, deletes_of_delete ht2 hp2, Bool.false_or]
      rw [survivors_one, editItems_delete ht2 hp2 (by omega)]
    rw [hkept, transform_insert_delete hsame ht1 ht2]
    simp only [inserted, ht1, ht2, if_true, reduceCtorEq, if_false, List.append_nil]
    split_ifs with h
    · exact merges_editItems_insert (Merges.refl _) ht1 hp1 (by omega)
    · exact merges_editItems_insert (Merges.refl _) (a := atPosition op1 (op1.pos - 1)) ht1
        (by simp; omega) (by simp; omega)
  · have hlen := length_editItems_delete ht1 hp1 hn1
    have hkept : survivors (fun i => deletes op1 i || deletes op2 i) items =
        editItems op1 items := by
      simp only [deletes_of_insert ht2, deletes_of_delete ht1 hp1, Bool.or_false]
      rw [survivors_one, editItems_delete ht1 hp1 (by omega)]
    rw [hkept, transform_swap_of_type (by rw [ht1, ht2]; decide),
      transform_insert_delete hsame.symm ht2 ht1]
    simp only [inserted, ht1, ht2, if_true, reduceCtorEq, if_false, List.nil_append]
    split_ifs with h
    · exact merges_editItems_insert (Merges.refl _) ht2 hp2 (by omega)
    · exact merges_editItems_insert (Merges.refl _) (a := atPosition op2 (op2.pos - 1)) ht2
        (by simp; omega) (by simp; omega)
  · have hne : op1.pos ≠ op2.pos := fun h => hdelete ⟨ht1, ht2, h⟩
    have hlen1 := length_editItems_delete ht1 hp1 hn1
    have hlen2 := length_editItems_delete ht2 hp2 hn2
    simp only [inserted, ht1, ht2, reduceCtorEq, if_false, List.append_nil,
      deletes_of_delete ht1 hp1, deletes_of_delete ht2 hp2]
    rw [transform_delete_delete hsame ht1 ht2, if_neg hne]
    split_ifs with h
    · rw [delete_past_delete ht1 ht2 hp1 h hn2, survivors_two items (by omega),
        editItems_delete ht1 hp1 (by omega), editItems_delete ht2 hp2 (by omega)]
      exact Merges.refl _
    · rw [editItems_delete ht2 hp2 (by omega), editItems_delete ht1 hp1 (by omega)]
      rw [show (fun i => op1.pos.toNat == i || op2.pos.toNat == i) =
        fun i => op2.pos.toNat == i || op1.pos.toNat == i from funext fun i => Bool.or_comm _ _,
        survivors_two items (by omega)]
      exact Merges.refl _

/-- Nothing is lost exactly when the two operations do not delete the same
element. Two deletions of one element overwrite the whole array with `null`. -/
theorem array_edits_lose_nothing_iff {doc : Json} {items : List Json} {op1 op2 : Operation}
    (hpath : op1.path ≠ []) (hsame : op2.path = op1.path)
    (hdoc : doc.at? op1.path = some (.arr items))
    (h1 : InsertsOrDeletes op1 items.length) (h2 : InsertsOrDeletes op2 items.length) :
    (LosesNothing op1.path items op1 op2 (applyThen doc op1 (transform op1 op2).2) ∧
      LosesNothing op1.path items op1 op2 (applyThen doc op2 (transform op1 op2).1)) ↔
    ¬ DeleteSame op1 op2 := by
  have hpath2 : op2.path ≠ [] := by rwa [hsame]
  have hdoc2 : doc.at? op2.path = some (.arr items) := by rwa [hsame]
  constructor
  · rintro ⟨⟨after, left, hafter, hleft, _⟩, _⟩ ⟨ht1, ht2, hpos⟩
    rw [transform_delete_delete hsame ht1 ht2, if_pos hpos,
      applyThen_array_null hpath hsame hdoc h1.editsArray] at hafter
    cases hafter
    rw [at?_replaceAt_self hdoc] at hleft
    cases hleft
  · intro hdelete
    have hedits := edits_agree hsame h1 h2 hdelete
    have hmerge := edits_merge hsame h1 h2 hdelete
    constructor
    · exact ⟨_, _, applyThen_array hpath hedits.path2 hdoc h1.editsArray hedits.edit2,
        at?_replaceAt_self hdoc _, hmerge⟩
    · refine ⟨_, editItems (transform op1 op2).2 (editItems op1 items),
        applyThen_array hpath2 (hedits.path1.trans hsame.symm) hdoc2 h2.editsArray
          hedits.edit1, ?_, hmerge⟩
      rw [hsame, hedits.agree]
      exact at?_replaceAt_self hdoc _

/-- An insertion next to a deletion of another element keeps everything. -/
theorem array_edits_lose_nothing_iff_actions :
    let doc : Json := .obj [("actions", .arr [.num 1, .num 2])]
    let op1 : Operation :=
      { type := .insert, path := ["actions"], value := some (.num 9), timestamp := 1
        userId := "user-1", operationId := "op-1", position := some 2 }
    let op2 : Operation :=
      { type := .delete, path := ["actions"], timestamp := 2
        userId := "user-2", operationId := "op-2", position := some 0 }
    (LosesNothing ["actions"] [.num 1, .num 2] op1 op2 (applyThen doc op1 (transform op1 op2).2) ∧
      LosesNothing ["actions"] [.num 1, .num 2] op1 op2
        (applyThen doc op2 (transform op1 op2).1)) ↔
    ¬ DeleteSame op1 op2 :=
  array_edits_lose_nothing_iff (by decide) rfl rfl (Or.inl ⟨rfl, by decide, by decide⟩)
    (Or.inr ⟨rfl, by decide, by decide⟩)

/-- Both users delete the first of two actions: the second action is lost. -/
theorem double_delete_loses_array :
    let doc : Json := .obj [("actions", .arr [.str "first", .str "second"])]
    let op1 : Operation :=
      { type := .delete, path := ["actions"], timestamp := 1
        userId := "user-1", operationId := "op-1", position := some 0 }
    let op2 : Operation :=
      { type := .delete, path := ["actions"], timestamp := 2
        userId := "user-2", operationId := "op-2", position := some 0 }
    InsertsOrDeletes op1 2 ∧ InsertsOrDeletes op2 2 ∧
      applyThen doc op1 (transform op1 op2).2 = .ok (.obj [("actions", .null)]) ∧
      ¬ LosesNothing ["actions"] [.str "first", .str "second"] op1 op2
        (applyThen doc op1 (transform op1 op2).2) := by
  intro doc op1 op2
  have hrun : applyThen doc op1 (transform op1 op2).2 = .ok (.obj [("actions", .null)]) := rfl
  refine ⟨Or.inr ⟨rfl, by decide, by decide⟩, Or.inr ⟨rfl, by decide, by decide⟩, hrun, ?_⟩
  rintro ⟨after, left, hafter, hleft, _⟩
  cases hrun.symm.trans hafter
  have hnull : (Json.obj [("actions", .null)]).at? ["actions"] = some .null := rfl
  cases hnull.symm.trans hleft

end Qontinui.OperationalTransform
