import Qontinui.Collaboration.ArrayConvergence

/-!
Concurrent edits of one array when at least one of them is a move. The handlers
adjust the indices of a move without regard to where the partner's element ends
up, so that the two orders agree for a few relative positions only. These
positions are determined here: the orders are compared by the index of the
original array that each position of the result shows.
-/

namespace Qontinui.OperationalTransform

open Json ListEdit

/-! ### Two moves as index maps -/

/-- The index at which `splice` looks after `shiftForMove`. -/
def aimAfterMove (source target index length : Nat) : Nat :=
  spliceStart length (shiftForMove source target index)

section Aim

variable {source target index length : Nat}

theorem aim_below (h : index < source) (hlen : index ≤ length) :
    aimAfterMove source target index length = index := by
  have : shiftForMove source target index = index := by
    simp only [shiftForMove]
    split_ifs <;> omega
  rw [aimAfterMove, this, spliceStart_of_nat (by omega) (by omega), Int.toNat_natCast]

theorem aim_above (h : source < index) (hlen : index ≤ length + 1) :
    aimAfterMove source target index length = index - 1 := by
  have : shiftForMove source target index = (index - 1 : Nat) := by
    simp only [shiftForMove]
    split_ifs <;> omega
  rw [aimAfterMove, this, spliceStart_of_nat (by omega) (by omega), Int.toNat_natCast]

theorem aim_source_stays (h : target ≤ source) (hlen : source ≤ length) :
    aimAfterMove source target source length = source := by
  have : shiftForMove source target source = source := by
    simp only [shiftForMove]
    split_ifs <;> omega
  rw [aimAfterMove, this, spliceStart_of_nat (by omega) (by omega), Int.toNat_natCast]

theorem aim_source_moves (h : source < target) (hlen : source ≤ length) :
    aimAfterMove source target source length = if source = 0 then length - 1 else source - 1 := by
  have : shiftForMove source target source = (source : Int) - 1 := by
    simp only [shiftForMove]
    split_ifs <;> omega
  rw [aimAfterMove, this]
  simp only [spliceStart]
  split_ifs <;> omega

theorem aim_lt (h : index < length) : aimAfterMove source target index length < length := by
  simp only [aimAfterMove, shiftForMove, spliceStart]
  split_ifs <;> omega

theorem aim_le : aimAfterMove source target index length ≤ length := by
  simp only [aimAfterMove, spliceStart]
  split_ifs <;> omega

end Aim

/-- Two moves with `f1 < f2`, of an array of length `n`, that the handler gets
right: the later move keeps its element in place and the earlier one does not
pass it, or the earlier move takes the later one's index and the later one
stays between the two sources. The last disjunct is a coincidence of three. -/
def AgreeBefore (f1 t1 f2 t2 n : Nat) : Prop :=
  (t2 = f2 ∧ t1 ≤ f2) ∨ (t1 = f2 ∧ f1 < t2 ∧ t2 < f2) ∨
    (n = 3 ∧ f1 = 0 ∧ t1 = 1 ∧ f2 = 1 ∧ t2 = 0)

/-- Two moves of one element that the handler gets right. In the last disjunct
the decremented index `-1` happens to be the index meant. -/
def AgreeFrom (f t1 t2 n : Nat) : Prop :=
  t1 = t2 ∨ (t1 = f ∧ t2 ≤ f) ∨ (t2 = f ∧ t1 ≤ f) ∨
    (f = 0 ∧ ((t1 = 0 ∧ t2 = n - 1) ∨ (t2 = 0 ∧ t1 = n - 1)))

/-- Position `k` shows the same original element in both orders. -/
def ReadSame (f1 t1 f2 t2 n k : Nat) : Prop :=
  moveSource f1 t1 (moveSource (aimAfterMove f1 t1 f2 n) (aimAfterMove f1 t1 t2 (n - 1)) k) =
    moveSource f2 t2 (moveSource (aimAfterMove f2 t2 f1 n) (aimAfterMove f2 t2 t1 (n - 1)) k)

section MoveMove

variable {f1 t1 f2 t2 n : Nat}

theorem read_same_before (hlt : f1 < f2) (h2 : f2 < n) (ht1 : t1 < n) (ht2 : t2 < n)
    (h : AgreeBefore f1 t1 f2 t2 n) (k : Nat) : ReadSame f1 t1 f2 t2 n k := by
  rcases h with ⟨rfl, hle⟩ | ⟨rfl, hf, ht⟩ | ⟨rfl, rfl, rfl, rfl, rfl⟩
  · have hd : aimAfterMove t2 t2 t1 (n - 1) = t1 := by
      rcases Nat.lt_or_eq_of_le hle with hlt' | rfl
      · exact aim_below hlt' (by omega)
      · exact aim_source_stays (by omega) (by omega)
    rw [ReadSame, aim_above hlt (by omega), aim_above hlt (by omega), moveSource_self,
      moveSource_self, aim_below hlt (by omega), hd]
  · rw [ReadSame, aim_above hlt (by omega), aim_above hf (by omega), aim_below hlt (by omega),
      aim_source_stays (by omega) (by omega)]
    grind [moveSource]
  · have hf : aimAfterMove 0 1 1 3 = 0 := rfl
    have hb : aimAfterMove 0 1 0 2 = 1 := rfl
    have hc : aimAfterMove 1 0 0 3 = 0 := rfl
    have hd : aimAfterMove 1 0 1 2 = 1 := rfl
    simp only [ReadSame, hf, hb, hc, hd, Nat.add_one_sub_one]
    grind [moveSource]

/-- Where the handler is wrong, the position at which one of the transformed
moves puts its element tells the orders apart, or one beside it. -/
theorem agree_before_of_read_same (hlt : f1 < f2) (h2 : f2 < n) (ht1 : t1 < n) (ht2 : t2 < n)
    (h : ∀ k < n, ReadSame f1 t1 f2 t2 n k) : AgreeBefore f1 t1 f2 t2 n := by
  have ha : aimAfterMove f1 t1 f2 n = f2 - 1 := aim_above hlt (by omega)
  have hc : aimAfterMove f2 t2 f1 n = f1 := aim_below hlt (by omega)
  simp only [ReadSame, ha, hc] at h
  unfold AgreeBefore
  rcases Nat.lt_trichotomy t2 f2 with hb | hb | hb
  · rcases Nat.lt_trichotomy t2 f1 with hb' | hb' | hb'
    · rw [aim_below hb' (by omega)] at h
      rcases Nat.lt_trichotomy t1 f2 with hd | hd | hd
      · rw [aim_below hd (by omega)] at h
        have hk := h f2 h2
        have hk' := h t2 ht2
        grind [moveSource]
      · subst hd
        rw [aim_source_stays (by omega) (by omega)] at h
        have hk := h t1 ht1
        grind [moveSource]
      · rw [aim_above hd (by omega)] at h
        have hk := h (t1 - 1) (by omega)
        grind [moveSource]
    · subst hb'
      rcases Nat.lt_or_ge t2 t1 with hup | hup
      · rw [aim_source_moves hup (by omega)] at h
        rcases Nat.lt_trichotomy t1 f2 with hd | hd | hd
        · rw [aim_below hd (by omega)] at h
          have hk := h t2 ht2
          grind [moveSource]
        · subst hd
          rw [aim_source_stays (by omega) (by omega)] at h
          rcases Nat.eq_zero_or_pos t2 with rfl | hpos
          · have hk := h 0 (by omega)
            have hk' := h (n - 2) (by omega)
            rw [if_pos rfl] at hk hk'
            clear h
            grind [moveSource]
          · have hk := h (t2 - 1) (by omega)
            grind [moveSource]
        · rw [aim_above hd (by omega)] at h
          have hk := h t1 ht1
          grind [moveSource]
      · rw [aim_source_stays hup (by omega), aim_below (by omega) (by omega)] at h
        have hk := h t1 ht1
        have hk' := h t2 ht2
        grind [moveSource]
    · rw [aim_above (by omega) (by omega)] at h
      rcases Nat.lt_trichotomy t1 f2 with hd | hd | hd
      · rw [aim_below hd (by omega)] at h
        have hk := h (t2 - 1) (by omega)
        grind [moveSource]
      · exact Or.inr (Or.inl ⟨hd, hb', hb⟩)
      · rw [aim_above hd (by omega)] at h
        have hk := h (t1 - 1) (by omega)
        grind [moveSource]
  · rcases Nat.lt_or_ge f2 t1 with hd | hd
    · rw [aim_above (by omega) (by omega), aim_above hd (by omega)] at h
      have hk := h (t1 - 1) (by omega)
      grind [moveSource]
    · exact Or.inl ⟨hb, hd⟩
  · rw [aim_above (by omega) (by omega)] at h
    rcases Nat.lt_trichotomy t1 f2 with hd | hd | hd
    · rw [aim_below hd (by omega)] at h
      have hk := h (t2 - 1) (by omega)
      grind [moveSource]
    · subst hd
      rw [aim_source_moves hb (by omega)] at h
      have hk := h (t2 - 1) (by omega)
      grind [moveSource]
    · rw [aim_above hd (by omega)] at h
      have hk := h (t2 - 1) (by omega)
      have hk' := h (t1 - 1) (by omega)
      grind [moveSource]

theorem read_same_from {f : Nat} (hf : f < n) (ht1 : t1 < n) (ht2 : t2 < n)
    (h : AgreeFrom f t1 t2 n) (k : Nat) : ReadSame f t1 f t2 n k := by
  -- one of the two moves stays where it is
  have hstays : ∀ {t : Nat}, t ≤ f → ReadSame f f f t n k := by
    intro t ht
    have hb : aimAfterMove f f t (n - 1) = t := by
      rcases Nat.lt_or_eq_of_le ht with hlt | rfl
      · exact aim_below hlt (by omega)
      · exact aim_source_stays (by omega) (by omega)
    rw [ReadSame, aim_source_stays (by omega) (by omega), hb, aim_source_stays ht (by omega),
      aim_source_stays ht (by omega), moveSource_self, moveSource_self]
  have hwraps : ∀ {t : Nat}, f = 0 → t = n - 1 → ReadSame f f f t n k := by
    rintro t rfl rfl
    rcases Nat.lt_or_ge 1 n with hn | hn
    · rw [ReadSame, aim_source_stays (by omega) (by omega), aim_above (by omega) (by omega),
        aim_source_moves (by omega) (by omega), aim_source_moves (by omega) (by omega),
        moveSource_self]
      grind [moveSource]
    · obtain rfl : n = 1 := by omega
      rfl
  rcases h with rfl | ⟨rfl, hle⟩ | ⟨rfl, hle⟩ | ⟨hzero, ⟨ht, hlast⟩ | ⟨ht, hlast⟩⟩
  · rfl
  · exact hstays hle
  · exact (hstays hle).symm
  · rw [ht, ← hzero]
    exact hwraps hzero hlast
  · rw [ht, ← hzero]
    exact (hwraps hzero hlast).symm

theorem agree_from_of_le {f : Nat} (hle : t1 ≤ t2) (hf : f < n) (ht2 : t2 < n)
    (h : ∀ k < n, ReadSame f t1 f t2 n k) : AgreeFrom f t1 t2 n := by
  simp only [ReadSame] at h
  unfold AgreeFrom
  rcases Nat.lt_trichotomy t2 f with hb | hb | hb
  · have hk := h t2 ht2
    rw [aim_source_stays (by omega) (by omega), aim_source_stays (by omega) (by omega),
      aim_below hb (by omega), aim_below (by omega) (by omega)] at hk
    grind [moveSource]
  · exact Or.inr (Or.inr (Or.inl ⟨hb, by omega⟩))
  · have hk := h (t2 - 1) (by omega)
    rw [aim_above hb (by omega), aim_source_moves hb (by omega)] at hk
    rcases Nat.lt_trichotomy t1 f with hd | hd | hd
    · rw [aim_source_stays (by omega) (by omega), aim_below hd (by omega)] at hk
      clear h
      grind [moveSource]
    · subst hd
      rw [aim_source_stays (by omega) (by omega), aim_source_moves hb (by omega)] at hk
      clear h
      grind [moveSource]
    · rw [aim_source_moves hd (by omega), aim_above hd (by omega)] at hk
      clear h
      grind [moveSource]

/-- Two moves of an array of length `n` on which the handler is right. -/
def MovesAgree (f1 t1 f2 t2 n : Nat) : Prop :=
  if f1 < f2 then AgreeBefore f1 t1 f2 t2 n
  else if f2 < f1 then AgreeBefore f2 t2 f1 t1 n
  else AgreeFrom f1 t1 t2 n

theorem read_same_of_agree (h1 : f1 < n) (ht1 : t1 < n) (h2 : f2 < n) (ht2 : t2 < n)
    (h : MovesAgree f1 t1 f2 t2 n) (k : Nat) : ReadSame f1 t1 f2 t2 n k := by
  unfold MovesAgree at h
  split_ifs at h with hlt hgt
  · exact read_same_before hlt h2 ht1 ht2 h k
  · exact (read_same_before hgt h1 ht2 ht1 h k).symm
  · obtain rfl : f1 = f2 := by omega
    exact read_same_from h1 ht1 ht2 h k

theorem agree_of_read_same (h1 : f1 < n) (ht1 : t1 < n) (h2 : f2 < n) (ht2 : t2 < n)
    (h : ∀ k < n, ReadSame f1 t1 f2 t2 n k) : MovesAgree f1 t1 f2 t2 n := by
  unfold MovesAgree
  split_ifs with hlt hgt
  · exact agree_before_of_read_same hlt h2 ht1 ht2 h
  · exact agree_before_of_read_same hgt h1 ht2 ht1 fun k hk => (h k hk).symm
  · obtain rfl : f1 = f2 := by omega
    rcases Nat.le_total t1 t2 with hle | hle
    · exact agree_from_of_le hle h1 ht2 h
    · rcases agree_from_of_le hle h1 ht1 fun k hk => (h k hk).symm with
        heq | hstays | hstays | ⟨hzero, hlast⟩
      · exact Or.inl heq.symm
      · exact Or.inr (Or.inr (Or.inl hstays))
      · exact Or.inr (Or.inl hstays)
      · exact Or.inr (Or.inr (Or.inr ⟨hzero, hlast.symm⟩))

end MoveMove

/-! ### A move and an insertion or a deletion as index maps -/

section MoveOther

variable {f t p n : Nat}

/-- A move and an insertion at `p`, neither of which is adjusted: the move stays
in place or the insertion is behind all it touches. -/
def InsertAgrees (f t p : Nat) : Prop := f = t ∨ (f < p ∧ t < p)

/-- A move and a deletion at `p` that lies on one side of all the move touches. -/
def DeleteAgrees (f t p : Nat) : Prop := (p < f ∧ p < t) ∨ (f < p ∧ t < p)

/-- The index, in the array that holds the inserted element, that position `k`
shows when the insertion at `p` comes after the move. -/
def insertAfterMove (f t p k : Nat) : Nat :=
  if k < p then skip p (moveSource f t k)
  else if k = p then p
  else skip p (moveSource f t (k - 1))

theorem insert_reads_same_iff (ht : t < n) (hp : p ≤ n) :
    (∀ k ≤ n, insertAfterMove f t p k = moveSource f t k) ↔ InsertAgrees f t p := by
  unfold InsertAgrees
  constructor
  · intro h
    have hgap := h p hp
    have hnext := h (t + 1) (by omega)
    clear h
    unfold insertAfterMove at hgap hnext
    grind [moveSource, skip]
  · rintro (rfl | ⟨hfp, htp⟩) k _
    · unfold insertAfterMove
      simp only [moveSource_self]
      grind [skip]
    · unfold insertAfterMove
      grind [moveSource, skip]

/-- The index that position `k` shows when the adjusted move follows the
deletion at `p` of an array of length `n`. -/
def moveAfterDelete (f t p n k : Nat) : Nat :=
  skip p (moveSource (if p < f then f - 1 else f)
    (spliceStart (n - 2) (if p < t then t - 1 else t : Nat)) k)

theorem delete_reads_same_iff (hf : f < n) (ht : t < n) (hp : p < n) (hne : p ≠ f) :
    (∀ k < n - 1, moveSource f t (skip p k) = moveAfterDelete f t p n k) ↔
      DeleteAgrees f t p := by
  have htarget : p < f → p < t → spliceStart (n - 2) ((t - 1 : Nat) : Int) = t - 1 := by
    intro _ _
    rw [spliceStart_of_nat (by omega) (by omega), Int.toNat_natCast]
  unfold moveAfterDelete DeleteAgrees
  constructor
  · intro h
    rcases Nat.lt_or_gt_of_ne hne with hpf | hfp
    · refine Or.inl ⟨hpf, ?_⟩
      by_contra htp
      have hk := h p (by omega)
      rw [if_pos hpf, if_neg htp, spliceStart_of_nat (by omega) (by omega),
        Int.toNat_natCast] at hk
      clear h
      grind [moveSource, skip]
    · refine Or.inr ⟨hfp, ?_⟩
      by_contra htp
      have hk := h (p - 1) (by omega)
      rw [if_neg (by omega)] at hk
      clear h
      unfold spliceStart at hk
      grind [moveSource, skip]
  · rintro (⟨hpf, hpt⟩ | ⟨hfp, htp⟩) k hk
    · rw [if_pos hpf, if_pos hpt, htarget hpf hpt]
      grind [moveSource, skip]
    · rw [if_neg (by omega), if_neg (by omega), spliceStart_of_nat (by omega) (by omega),
        Int.toNat_natCast]
      grind [moveSource, skip]

end MoveOther

/-! ### The operations -/

variable {items : List Json} {op : Operation}

theorem spliceMove_eq_move {position newPosition : Int}
    (h : spliceStart items.length position < items.length) :
    spliceMove items position newPosition =
      move items (spliceStart items.length position)
        (spliceStart (items.length - 1) newPosition) := by
  simp only [spliceMove, splice_insert, splice_delete, splice_removed, move,
    List.getElem?_eq_getElem h, Option.toList_some, List.head?_cons, Option.getD_some,
    List.length_eraseIdx_of_lt h]

/-- A move between two positions of an array of this length. -/
structure Moves (op : Operation) (length : Nat) : Prop where
  type : op.type = .move
  pos_nonneg : 0 ≤ op.pos
  pos_lt : op.pos < length
  newPos_nonneg : 0 ≤ op.newPos
  newPos_lt : op.newPos < length

variable {length : Nat}

theorem Moves.editsArray (h : Moves op length) : EditsArray op :=
  Or.inr (Or.inr h.type)

theorem Moves.source_lt (h : Moves op length) : op.pos.toNat < length := by
  have := h.pos_nonneg
  have := h.pos_lt
  omega

theorem Moves.target_lt (h : Moves op length) : op.newPos.toNat < length := by
  have := h.newPos_nonneg
  have := h.newPos_lt
  omega

theorem editItems_move {n : Nat} (h : Moves op n) (hlen : n ≤ items.length) :
    editItems op items = move items op.pos.toNat op.newPos.toNat := by
  obtain ⟨htype, hp, hpn, hq, hqn⟩ := h
  simp only [editItems, htype]
  have hsource : spliceStart items.length op.pos = op.pos.toNat :=
    spliceStart_of_nat hp (by omega)
  have htarget : spliceStart (items.length - 1) op.newPos = op.newPos.toNat :=
    spliceStart_of_nat hq (by omega)
  rw [spliceMove_eq_move (by rw [hsource]; omega), hsource, htarget]

abbrev shiftedMove (op partner : Operation) : Operation :=
  { op with
    position := some (shiftForMove partner.pos partner.newPos op.pos)
    newPosition := some (shiftForMove partner.pos partner.newPos op.newPos) }

theorem editItems_shiftedMove {partner : Operation} {n : Nat} (h : Moves op n)
    (hpartner : Moves partner n) (hlen : items.length = n) :
    editItems (shiftedMove op partner) items =
      move items (aimAfterMove partner.pos.toNat partner.newPos.toNat op.pos.toNat n)
        (aimAfterMove partner.pos.toNat partner.newPos.toNat op.newPos.toNat (n - 1)) := by
  subst hlen
  have hlt := @aim_lt partner.pos.toNat partner.newPos.toNat _ _ h.source_lt
  simp only [editItems, h.type]
  unfold aimAfterMove at hlt ⊢
  simp only [Int.toNat_of_nonneg h.pos_nonneg, Int.toNat_of_nonneg h.newPos_nonneg,
    Int.toNat_of_nonneg hpartner.pos_nonneg, Int.toNat_of_nonneg hpartner.newPos_nonneg]
    at hlt ⊢
  exact spliceMove_eq_move hlt

theorem getElem?_shiftedMove_move {op1 op2 : Operation} (h1 : Moves op1 items.length)
    (h2 : Moves op2 items.length) (k : Nat) :
    (editItems (shiftedMove op2 op1) (editItems op1 items))[k]? =
      items[moveSource op1.pos.toNat op1.newPos.toNat (moveSource
        (aimAfterMove op1.pos.toNat op1.newPos.toNat op2.pos.toNat items.length)
        (aimAfterMove op1.pos.toNat op1.newPos.toNat op2.newPos.toNat (items.length - 1)) k)]? := by
  have hlen := length_move items h1.source_lt h1.target_lt
  have hsource := @aim_lt op1.pos.toNat op1.newPos.toNat _ _ h2.source_lt
  have htarget := @aim_le op1.pos.toNat op1.newPos.toNat op2.newPos.toNat (items.length - 1)
  have hpos := h1.source_lt
  rw [editItems_move h1 (Nat.le_refl _), editItems_shiftedMove h2 h1 hlen,
    getElem?_move _ (by omega) (by omega), getElem?_move _ h1.source_lt h1.target_lt]

theorem length_shiftedMove_move {op1 op2 : Operation} (h1 : Moves op1 items.length)
    (h2 : Moves op2 items.length) :
    (editItems (shiftedMove op2 op1) (editItems op1 items)).length = items.length := by
  have hlen := length_move items h1.source_lt h1.target_lt
  have hsource := @aim_lt op1.pos.toNat op1.newPos.toNat _ _ h2.source_lt
  have htarget := @aim_le op1.pos.toNat op1.newPos.toNat op2.newPos.toNat (items.length - 1)
  have hpos := h1.source_lt
  rw [editItems_move h1 (Nat.le_refl _), editItems_shiftedMove h2 h1 hlen,
    length_move _ (by omega) (by omega), hlen]

section Handlers

variable {op1 op2 : Operation}

theorem transform_move_move (hsame : op2.path = op1.path) (h1 : op1.type = .move)
    (h2 : op2.type = .move) :
    transform op1 op2 = (shiftedMove op1 op2, shiftedMove op2 op1) := by
  have hby : transformByType op1 op2 = transformMoveMove op1 op2 := by
    simp only [transformByType, h1, h2]
  rw [transform_same_path hsame, hby]
  rfl

theorem transform_move_insert (hsame : op2.path = op1.path) (h1 : op1.type = .move)
    (h2 : op2.type = .insert) : transform op1 op2 = (op1, op2) := by
  rw [transform_same_path hsame]
  simp only [transformByType, h1, h2]

abbrev loweredMove (op : Operation) (deleted : Int) : Operation :=
  { op with
    position := some (if deleted < op.pos then op.pos - 1 else op.pos)
    newPosition := some (if deleted < op.newPos then op.newPos - 1 else op.newPos) }

theorem transform_move_delete (hsame : op2.path = op1.path) (h1 : op1.type = .move)
    (h2 : op2.type = .delete) :
    transform op1 op2 =
      if op2.pos = op1.pos then (nullUpdate op1, op2) else (loweredMove op1 op2.pos, op2) := by
  have hby : transformByType op1 op2 = transformMoveDelete op1 op2 := by
    simp only [transformByType, h1, h2]
  rw [transform_same_path hsame, hby]
  rcases eq_or_ne op2.pos op1.pos with h | h
  · simp only [transformMoveDelete, h, if_true]
  · simp only [transformMoveDelete, h, if_false]

end Handlers

/-! ### When the two orders agree -/

/-- The condition on the two positions under which the handlers are right. -/
def SameOrder (op1 op2 : Operation) (length : Nat) : Prop :=
  match op1.type, op2.type with
  | .move, .move =>
      MovesAgree op1.pos.toNat op1.newPos.toNat op2.pos.toNat op2.newPos.toNat length
  | .move, .insert => InsertAgrees op1.pos.toNat op1.newPos.toNat op2.pos.toNat
  | .insert, .move => InsertAgrees op2.pos.toNat op2.newPos.toNat op1.pos.toNat
  | .move, .delete => DeleteAgrees op1.pos.toNat op1.newPos.toNat op2.pos.toNat
  | .delete, .move => DeleteAgrees op2.pos.toNat op2.newPos.toNat op1.pos.toNat
  | _, _ => False

/-- The array has no repetitions and the inserted values are new to it. -/
def Distinct (op1 op2 : Operation) (items : List Json) : Prop :=
  items.Nodup ∧ ∀ value ∈ inserted op1 ++ inserted op2, value ∉ items

section Pairs

variable {op1 op2 : Operation} {items : List Json}

theorem move_move_agree (h1 : Moves op1 items.length) (h2 : Moves op2 items.length) :
    let left := editItems (shiftedMove op2 op1) (editItems op1 items)
    let right := editItems (shiftedMove op1 op2) (editItems op2 items)
    let agree :=
      MovesAgree op1.pos.toNat op1.newPos.toNat op2.pos.toNat op2.newPos.toNat items.length
    (agree → left = right) ∧ (items.Nodup → left = right → agree) := by
  intro left right agree
  have hlength : left.length = items.length := length_shiftedMove_move h1 h2
  have hlength' : right.length = items.length := length_shiftedMove_move h2 h1
  have hleft := fun k (_ : k < left.length) => getElem?_shiftedMove_move h1 h2 k
  have hright := fun k (_ : k < left.length) => getElem?_shiftedMove_move h2 h1 k
  constructor
  · intro hagree
    exact eq_of_reads (hlength.trans hlength'.symm) hleft hright fun k _ =>
      read_same_of_agree h1.source_lt h1.target_lt h2.source_lt h2.target_lt hagree k
  · intro hnodup heq
    have hreads := reads_of_eq hnodup hleft hright heq
    rw [hlength] at hreads
    exact agree_of_read_same h1.source_lt h1.target_lt h2.source_lt h2.target_lt hreads

/-- The insertion is applied unadjusted before or after the move. -/
theorem move_insert_agree (h1 : Moves op1 items.length) (h2 : op2.type = .insert)
    (h0 : 0 ≤ op2.pos) (hn : op2.pos ≤ items.length) :
    let left := editItems op2 (editItems op1 items)
    let right := editItems op1 (editItems op2 items)
    let agree := InsertAgrees op1.pos.toNat op1.newPos.toNat op2.pos.toNat
    (agree → left = right) ∧
      (items.Nodup → op2.value.getD .null ∉ items → left = right → agree) := by
  intro left right agree
  have hf := h1.source_lt
  have ht := h1.target_lt
  have hp : op2.pos.toNat ≤ items.length := by omega
  have hmoved := length_move items hf ht
  have hinserted : editItems op2 items = items.insertIdx op2.pos.toNat (op2.value.getD .null) :=
    editItems_insert h2 h0 hn
  have hlength : (editItems op2 items).length = items.length + 1 :=
    length_editItems_insert h2 h0 hn
  have hleft : left = (move items op1.pos.toNat op1.newPos.toNat).insertIdx op2.pos.toNat
      (op2.value.getD .null) := by
    rw [← editItems_move h1 (Nat.le_refl _)]
    apply editItems_insert h2 h0
    rw [editItems_move h1 (Nat.le_refl _)]
    omega
  have hright : right = move (editItems op2 items) op1.pos.toNat op1.newPos.toNat :=
    editItems_move h1 (by omega)
  -- both orders read the array that holds the inserted element
  have hreadLeft : ∀ k < left.length, left[k]? =
      (editItems op2 items)[insertAfterMove op1.pos.toNat op1.newPos.toNat op2.pos.toNat k]? := by
    intro k _
    rw [hleft, hinserted, List.getElem?_insertIdx, insertAfterMove]
    split_ifs with hlt heq hle
    · rw [getElem?_insertIdx_skip, getElem?_move _ hf ht]
    · rw [getElem?_insertIdx_gap _ _ hp]
    · omega
    · rw [getElem?_insertIdx_skip, getElem?_move _ hf ht]
  have hreadRight : ∀ k < left.length, right[k]? =
      (editItems op2 items)[moveSource op1.pos.toNat op1.newPos.toNat k]? := by
    intro k _
    rw [hright, getElem?_move _ (by omega) (by omega)]
  have hleftLength : left.length = items.length + 1 := by
    rw [hleft, List.length_insertIdx_of_le_length (by omega), hmoved]
  have hrightLength : right.length = items.length + 1 := by
    rw [hright, length_move _ (by omega) (by omega), hlength]
  have hiff := insert_reads_same_iff (f := op1.pos.toNat) ht hp
  constructor
  · intro hagree
    exact eq_of_reads (hleftLength.trans hrightLength.symm) hreadLeft hreadRight fun k hk =>
      hiff.mpr hagree k (by omega)
  · intro hnodup hfresh heq
    have hbase : (editItems op2 items).Nodup := by
      rw [hinserted, (List.perm_insertIdx _ _ hp).nodup_iff]
      exact List.nodup_cons.mpr ⟨hfresh, hnodup⟩
    have hreads := reads_of_eq hbase hreadLeft hreadRight heq
    exact hiff.mp fun k hk => hreads k (by omega)

theorem lowered_toNat {deleted index : Int} (hd : 0 ≤ deleted) (hi : 0 ≤ index) :
    (if deleted < index then index - 1 else index) =
      ((if deleted.toNat < index.toNat then index.toNat - 1 else index.toNat : Nat) : Int) := by
  split_ifs <;> omega

/-- The deletion is applied unadjusted after the move, and the move with
lowered indices after the deletion. -/
theorem move_delete_agree (h1 : Moves op1 items.length) (h2 : op2.type = .delete)
    (h0 : 0 ≤ op2.pos) (hn : op2.pos < items.length) (hne : op2.pos ≠ op1.pos) :
    let left := editItems op2 (editItems op1 items)
    let right := editItems (loweredMove op1 op2.pos) (editItems op2 items)
    let agree := DeleteAgrees op1.pos.toNat op1.newPos.toNat op2.pos.toNat
    (agree → left = right) ∧ (items.Nodup → left = right → agree) := by
  intro left right agree
  have hf := h1.source_lt
  have ht := h1.target_lt
  have hp0 := h1.pos_nonneg
  have hq0 := h1.newPos_nonneg
  have hpn := h1.pos_lt
  have hmoved := length_move items hf ht
  have hlength : (editItems op2 items).length = items.length - 1 :=
    length_editItems_delete h2 h0 hn
  have hdeleted : editItems op2 items = items.eraseIdx op2.pos.toNat :=
    editItems_delete h2 h0 (by omega)
  have hleft : left = (move items op1.pos.toNat op1.newPos.toNat).eraseIdx op2.pos.toNat := by
    rw [← editItems_move h1 (Nat.le_refl _)]
    apply editItems_delete h2 h0
    rw [editItems_move h1 (Nat.le_refl _)]
    omega
  have hsource : spliceStart (editItems op2 items).length (loweredMove op1 op2.pos).pos =
      if op2.pos.toNat < op1.pos.toNat then op1.pos.toNat - 1 else op1.pos.toNat := by
    change spliceStart _ (if op2.pos < op1.pos then op1.pos - 1 else op1.pos) = _
    rw [lowered_toNat h0 hp0, hlength, spliceStart_of_nat (by omega) (by split_ifs <;> omega),
      Int.toNat_natCast]
  have hright : right = move (editItems op2 items)
      (if op2.pos.toNat < op1.pos.toNat then op1.pos.toNat - 1 else op1.pos.toNat)
      (spliceStart (items.length - 2)
        (if op2.pos.toNat < op1.newPos.toNat then op1.newPos.toNat - 1
          else op1.newPos.toNat : Nat)) := by
    have hmove : right = spliceMove (editItems op2 items) (loweredMove op1 op2.pos).pos
        (if op2.pos < op1.newPos then op1.newPos - 1 else op1.newPos) := by
      simp only [right, editItems, h1.type]
      rfl
    rw [hmove, spliceMove_eq_move (by rw [hsource, hlength]; split_ifs <;> omega), hsource,
      hlength, lowered_toNat h0 hq0]
    rfl
  have hreadLeft : ∀ k < left.length, left[k]? =
      items[moveSource op1.pos.toNat op1.newPos.toNat (skip op2.pos.toNat k)]? := by
    intro k _
    rw [hleft, getElem?_eraseIdx_skip, getElem?_move _ hf ht]
  have hrange : spliceStart (items.length - 2) (if op2.pos.toNat < op1.newPos.toNat
      then op1.newPos.toNat - 1 else op1.newPos.toNat : Nat) ≤ items.length - 2 := by
    unfold spliceStart
    split_ifs <;> omega
  have hrange' : (if op2.pos.toNat < op1.pos.toNat then op1.pos.toNat - 1 else op1.pos.toNat) <
      items.length - 1 := by
    split_ifs <;> omega
  have hreadRight : ∀ k < left.length, right[k]? =
      items[moveAfterDelete op1.pos.toNat op1.newPos.toNat op2.pos.toNat items.length k]? := by
    intro k _
    rw [hright, getElem?_move _ (by omega) (by omega), hdeleted, getElem?_eraseIdx_skip,
      moveAfterDelete]
  have hleftLength : left.length = items.length - 1 := by
    rw [hleft, List.length_eraseIdx_of_lt (by omega), hmoved]
  have hrightLength : right.length = items.length - 1 := by
    rw [hright, length_move _ (by omega) (by omega), hlength]
  have hiff := delete_reads_same_iff hf ht (p := op2.pos.toNat) (by omega) (by omega)
  constructor
  · intro hagree
    exact eq_of_reads (hleftLength.trans hrightLength.symm) hreadLeft hreadRight fun k hk =>
      hiff.mpr hagree k (by omega)
  · intro hnodup heq
    have hreads := reads_of_eq hnodup hreadLeft hreadRight heq
    exact hiff.mp fun k hk => hreads k (by omega)

end Pairs

/-- An insert, delete or move whose positions lie inside an array of this length. -/
def InRange (op : Operation) (length : Nat) : Prop :=
  InsertsOrDeletes op length ∨ Moves op length

section Converge

variable {doc : Json} {op1 op2 : Operation} {items : List Json}

section

variable (hdoc : doc.at? op1.path = some (.arr items))
include hdoc

theorem move_move_converges (hpath : op1.path ≠ []) (hsame : op2.path = op1.path)
    (h1 : Moves op1 items.length) (h2 : Moves op2 items.length) :
    (SameOrder op1 op2 items.length → Converges doc op1 op2) ∧
      (items.Nodup → Converges doc op1 op2 → SameOrder op1 op2 items.length) := by
  have htransform := transform_move_move hsame h1.type h2.type
  have hiff : Converges doc op1 op2 ↔ _ :=
    converges_iff_items hpath hsame hdoc h1.editsArray h2.editsArray (by rw [htransform])
      (by rw [htransform]; exact hsame) (by rw [htransform]; exact Or.inr (Or.inr h1.type))
      (by rw [htransform]; exact Or.inr (Or.inr h2.type))
  rw [htransform] at hiff
  have hagree := move_move_agree h1 h2
  simp only [SameOrder, h1.type, h2.type, hiff]
  exact hagree

theorem move_insert_converges (hpath : op1.path ≠ []) (hsame : op2.path = op1.path)
    (h1 : Moves op1 items.length) (h2 : op2.type = .insert) (h0 : 0 ≤ op2.pos)
    (hn : op2.pos ≤ items.length) :
    (SameOrder op1 op2 items.length → Converges doc op1 op2) ∧
      (Distinct op1 op2 items → Converges doc op1 op2 → SameOrder op1 op2 items.length) := by
  have htransform := transform_move_insert hsame h1.type h2
  have hiff : Converges doc op1 op2 ↔ _ :=
    converges_iff_items hpath hsame hdoc h1.editsArray (Or.inl h2) (by rw [htransform])
      (by rw [htransform]; exact hsame) (by rw [htransform]; exact h1.editsArray)
      (by rw [htransform]; exact Or.inl h2)
  rw [htransform] at hiff
  obtain ⟨hsuff, hnec⟩ := move_insert_agree h1 h2 h0 hn
  simp only [SameOrder, h1.type, h2, hiff]
  refine ⟨hsuff, fun hdistinct => hnec hdistinct.1 (hdistinct.2 _ ?_)⟩
  simp [inserted, h2]

theorem move_delete_converges (hpath : op1.path ≠ []) (hsame : op2.path = op1.path)
    (h1 : Moves op1 items.length) (h2 : op2.type = .delete) (h0 : 0 ≤ op2.pos)
    (hn : op2.pos < items.length) :
    (SameOrder op1 op2 items.length → Converges doc op1 op2) ∧
      (items.Nodup → Converges doc op1 op2 → SameOrder op1 op2 items.length) := by
  have htransform := transform_move_delete hsame h1.type h2
  have hdelete : EditsArray op2 := Or.inr (Or.inl h2)
  simp only [SameOrder, h1.type, h2]
  rcases eq_or_ne op2.pos op1.pos with heq | hne
  · -- the moved element is deleted: one order keeps the array, the other writes `null`
    rw [if_pos heq] at htransform
    have hdiverges : ¬ Converges doc op1 op2 := by
      rw [converges_iff
        (l := doc.replaceAt op1.path (.arr (editItems op2 (editItems op1 items))))
        (r := doc.replaceAt op1.path .null)]
      · intro h
        cases replaceAt_injective hdoc h
      · rw [htransform]
        exact applyThen_array hpath hsame hdoc h1.editsArray hdelete
      · rw [htransform, ← hsame]
        exact applyThen_array_null (by rwa [hsame]) hsame.symm (by rwa [hsame]) hdelete
    refine ⟨fun hagree => ?_, fun _ hconverges => absurd hconverges hdiverges⟩
    rcases hagree with ⟨hlt, _⟩ | ⟨hlt, _⟩ <;> omega
  · rw [if_neg hne] at htransform
    have hiff : Converges doc op1 op2 ↔ _ :=
      converges_iff_items hpath hsame hdoc h1.editsArray hdelete (by rw [htransform])
        (by rw [htransform]; exact hsame) (by rw [htransform]; exact Or.inr (Or.inr h1.type))
        (by rw [htransform]; exact hdelete)
    rw [htransform] at hiff
    have hagree := move_delete_agree h1 h2 h0 hn hne
    simp only [hiff]
    exact hagree

end

theorem move_second_converges (htransform : transform op1 op2 = (transform op2 op1).swap)
    (horder : SameOrder op1 op2 items.length ↔ SameOrder op2 op1 items.length)
    (h : (SameOrder op2 op1 items.length → Converges doc op2 op1) ∧
      (Distinct op2 op1 items → Converges doc op2 op1 → SameOrder op2 op1 items.length)) :
    (SameOrder op1 op2 items.length → Converges doc op1 op2) ∧
      (Distinct op1 op2 items → Converges doc op1 op2 → SameOrder op1 op2 items.length) := by
  rw [converges_swap htransform, horder]
  refine ⟨h.1, fun hdistinct => h.2 ⟨hdistinct.1, fun value hvalue => hdistinct.2 value ?_⟩⟩
  rw [List.mem_append] at hvalue ⊢
  exact hvalue.symm

theorem move_edits_converge (hpath : op1.path ≠ []) (hsame : op2.path = op1.path)
    (hdoc : doc.at? op1.path = some (.arr items)) (h1 : InRange op1 items.length)
    (h2 : InRange op2 items.length) (hmove : op1.type = .move ∨ op2.type = .move) :
    (SameOrder op1 op2 items.length → Converges doc op1 op2) ∧
      (Distinct op1 op2 items → Converges doc op1 op2 → SameOrder op1 op2 items.length) := by
  have hpath2 : op2.path ≠ [] := by rwa [hsame]
  have hdoc2 : doc.at? op2.path = some (.arr items) := by rwa [hsame]
  rcases h1 with (⟨ht1, h0, hn⟩ | ⟨ht1, h0, hn⟩) | h1 <;>
    rcases h2 with (⟨ht2, h0', hn'⟩ | ⟨ht2, h0', hn'⟩) | h2
  · simp [ht1, ht2] at hmove
  · simp [ht1, ht2] at hmove
  · refine move_second_converges (transform_swap_of_type (by rw [ht1, h2.type]; decide)) ?_
      (move_insert_converges hdoc2 hpath2 hsame.symm h2 ht1 h0 hn)
    simp only [SameOrder, ht1, h2.type]
  · simp [ht1, ht2] at hmove
  · simp [ht1, ht2] at hmove
  · have hconverges := move_delete_converges hdoc2 hpath2 hsame.symm h2 ht1 h0 hn
    refine move_second_converges (transform_swap_of_type (by rw [ht1, h2.type]; decide)) ?_
      ⟨hconverges.1, fun hdistinct => hconverges.2 hdistinct.1⟩
    simp only [SameOrder, ht1, h2.type]
  · exact move_insert_converges hdoc hpath hsame h1 ht2 h0' hn'
  · have hconverges := move_delete_converges hdoc hpath hsame h1 ht2 h0' hn'
    exact ⟨hconverges.1, fun hdistinct => hconverges.2 hdistinct.1⟩
  · have hconverges := move_move_converges hdoc hpath hsame h1 h2
    exact ⟨hconverges.1, fun hdistinct => hconverges.2 hdistinct.1⟩

end Converge

/-- `length` different elements, none of which is `a` or `b`. -/
def freshItems (a b : Json) (length : Nat) : List Json :=
  (List.range length).map fun i => .arr (a :: b :: List.replicate i .null)

theorem freshItems_nodup (a b : Json) (length : Nat) : (freshItems a b length).Nodup := by
  refine List.Nodup.map ?_ List.nodup_range
  intro i j h
  have := congrArg List.length (Json.arr.inj h)
  simpa using this

theorem not_mem_freshItems (a b : Json) (length : Nat) :
    a ∉ freshItems a b length ∧ b ∉ freshItems a b length := by
  constructor <;>
  · intro h
    obtain ⟨i, _, heq⟩ := List.mem_map.mp h
    have := congrArg sizeOf heq
    simp only [Json.arr.sizeOf_spec, List.cons.sizeOf_spec] at this
    omega

/-- A pair of edits with a move converges on every array of length `n` exactly
when its positions are in one of the orders that the handlers get right; on an
array of distinct elements no other pair converges even once. -/
theorem move_edits_converge_iff {op1 op2 : Operation} {n : Nat} (hpath : op1.path ≠ [])
    (hsame : op2.path = op1.path) (h1 : InRange op1 n) (h2 : InRange op2 n)
    (hmove : op1.type = .move ∨ op2.type = .move) :
    ((∀ doc items, doc.at? op1.path = some (.arr items) → items.length = n →
        Converges doc op1 op2) ↔ SameOrder op1 op2 n) ∧
      ∀ doc items, doc.at? op1.path = some (.arr items) → items.length = n →
        Distinct op1 op2 items → (Converges doc op1 op2 ↔ SameOrder op1 op2 n) := by
  have hdistinct : ∀ doc items, doc.at? op1.path = some (.arr items) → items.length = n →
      Distinct op1 op2 items → (Converges doc op1 op2 ↔ SameOrder op1 op2 n) := by
    rintro doc items hdoc rfl hdistinct
    obtain ⟨hsuff, hnec⟩ := move_edits_converge hpath hsame hdoc h1 h2 hmove
    exact ⟨hnec hdistinct, hsuff⟩
  refine ⟨⟨fun h => ?_, ?_⟩, hdistinct⟩
  · have hlength : (freshItems (op1.value.getD .null) (op2.value.getD .null) n).length = n := by
      simp [freshItems]
    have hfresh := not_mem_freshItems (op1.value.getD .null) (op2.value.getD .null) n
    refine (hdistinct _ _ (at?_nest _ _) hlength ⟨freshItems_nodup _ _ n, ?_⟩).mp
      (h _ _ (at?_nest _ _) hlength)
    intro value hvalue
    simp only [inserted] at hvalue
    split_ifs at hvalue <;> simp at hvalue <;> grind
  · rintro horder doc items hdoc rfl
    exact (move_edits_converge hpath hsame hdoc h1 h2 hmove).1 horder

/-- Two users move the first of three actions to the end. -/
theorem move_edits_converge_iff_actions :
    let op1 : Operation :=
      { type := .move, path := ["actions"], timestamp := 1, userId := "user-1"
        operationId := "op-1", position := some 0, newPosition := some 2 }
    let op2 : Operation :=
      { type := .move, path := ["actions"], timestamp := 2, userId := "user-2"
        operationId := "op-2", position := some 0, newPosition := some 2 }
    ((∀ doc items, doc.at? ["actions"] = some (.arr items) → items.length = 3 →
        Converges doc op1 op2) ↔ SameOrder op1 op2 3) ∧
      ∀ doc items, doc.at? ["actions"] = some (.arr items) → items.length = 3 →
        Distinct op1 op2 items → (Converges doc op1 op2 ↔ SameOrder op1 op2 3) := by
  intro op1 op2
  have h1 : InRange op1 3 := Or.inr ⟨rfl, by decide, by decide, by decide, by decide⟩
  have h2 : InRange op2 3 := Or.inr ⟨rfl, by decide, by decide, by decide, by decide⟩
  have hpath : op1.path ≠ [] := by decide
  exact move_edits_converge_iff hpath rfl h1 h2 (Or.inl rfl)

/-- One user moves the first of three actions to the end while the other one
moves the second to the front. -/
theorem move_edits_diverge_actions :
    let doc : Json := .obj [("actions", .arr [.str "a", .str "b", .str "c"])]
    let op1 : Operation :=
      { type := .move, path := ["actions"], timestamp := 1, userId := "user-1"
        operationId := "op-1", position := some 0, newPosition := some 2 }
    let op2 : Operation :=
      { type := .move, path := ["actions"], timestamp := 2, userId := "user-2"
        operationId := "op-2", position := some 1, newPosition := some 0 }
    Moves op1 3 ∧ Moves op2 3 ∧ ¬ Converges doc op1 op2 := by
  intro doc op1 op2
  refine ⟨⟨rfl, by decide, by decide, by decide, by decide⟩,
    ⟨rfl, by decide, by decide, by decide, by decide⟩, ?_⟩
  have hleft : applyThen doc op1 (transform op1 op2).2 =
      .ok (.obj [("actions", .arr [.str "c", .str "b", .str "a"])]) := by decide +kernel
  have hright : applyThen doc op2 (transform op1 op2).1 =
      .ok (.obj [("actions", .arr [.str "a", .str "b", .str "c"])]) := by decide +kernel
  rw [converges_iff hleft hright]
  decide

end Qontinui.OperationalTransform
