import Qontinui.Base.JsBuiltins
import Qontinui.Collaboration.ConflictTypes

/-!
`OperationalTransformService.transform`: two concurrent operations are adjusted
so that each one can be applied after the other. The handler is chosen by the
pair of types; pairs without a handler are returned unchanged.
-/

namespace Qontinui.OperationalTransform

def pathsConflict (path1 path2 : List String) : Bool :=
  (path1.zip path2).all fun segments => segments.1 == segments.2

def operationsConflict (op1 op2 : Operation) : Bool :=
  pathsConflict op1.path op2.path

def pathsEqual (path1 path2 : List String) : Bool :=
  path1.length == path2.length &&
    (path1.zip path2).all fun segments => segments.1 == segments.2

/-- The path with segment `i` moved up by one, when that segment is an index at
or after `position`. -/
def shiftSegment (path : List String) (i : Nat) (position : Int) : Option (List String) :=
  match path[i]? with
  | none => none
  | some segment =>
      if segment = "" then none
      else
        match parseInt segment with
        | none => none
        | some pathIndex =>
            if pathIndex ≥ position then some (path.set i (toString (pathIndex + 1))) else none

/-- The first index below the common length at which the two paths differ. -/
def firstDifference (path insertPath : List String) : Option Nat :=
  (path.zip insertPath).findIdx? fun segments => segments.1 != segments.2

def adjustPathForInsert (path insertPath : List String) (position : Int) : List String :=
  if !pathsConflict path insertPath then path
  else
    -- the loop over the common segments stops at the first one that differs
    match (firstDifference path insertPath).bind fun i => shiftSegment path i position with
    | some newPath => newPath
    | none =>
        if insertPath.length < path.length then
          (shiftSegment path insertPath.length position).getD path
        else path

def transformInsertInsert (op1 op2 : Operation) : TransformResult :=
  let pos1 := op1.pos
  let pos2 := op2.pos
  if pos1 < pos2 then
    { op1Prime := op1, op2Prime := { op2 with position := some (pos2 + 1) }, success := true }
  else if pos1 > pos2 then
    { op1Prime := { op1 with position := some (pos1 + 1) }, op2Prime := op2, success := true }
  else if op1.timestamp < op2.timestamp then
    { op1Prime := op1, op2Prime := { op2 with position := some (pos2 + 1) }, success := true }
  else
    { op1Prime := { op1 with position := some (pos1 + 1) }, op2Prime := op2, success := true }

def transformInsertDelete (op1 op2 : Operation) : TransformResult :=
  let pos1 := op1.pos
  let pos2 := op2.pos
  if pos1 ≤ pos2 then
    { op1Prime := op1, op2Prime := { op2 with position := some (pos2 + 1) }, success := true }
  else
    { op1Prime := { op1 with position := some (pos1 - 1) }, op2Prime := op2, success := true }

def transformDeleteInsert (op1 op2 : Operation) : TransformResult :=
  let result := transformInsertDelete op2 op1
  { op1Prime := result.op2Prime, op2Prime := result.op1Prime, success := result.success }

def transformInsertUpdate (op1 op2 : Operation) : TransformResult :=
  if !pathsConflict op1.path op2.path then
    { op1Prime := op1, op2Prime := op2, success := true }
  else
    let transformedPath := adjustPathForInsert op2.path op1.path op1.pos
    { op1Prime := op1, op2Prime := { op2 with path := transformedPath }, success := true }

def transformUpdateInsert (op1 op2 : Operation) : TransformResult :=
  let result := transformInsertUpdate op2 op1
  { op1Prime := result.op2Prime, op2Prime := result.op1Prime, success := result.success }

def transformDeleteDelete (op1 op2 : Operation) : TransformResult :=
  let pos1 := op1.pos
  let pos2 := op2.pos
  if pos1 = pos2 then
    { op1Prime := { op1 with type := .update, value := some .null }
      op2Prime := { op2 with type := .update, value := some .null }
      success := true
      warnings := some ["Both operations deleted the same item"] }
  else if pos1 < pos2 then
    { op1Prime := op1, op2Prime := { op2 with position := some (pos2 - 1) }, success := true }
  else
    { op1Prime := { op1 with position := some (pos1 - 1) }, op2Prime := op2, success := true }

def transformDeleteUpdate (op1 op2 : Operation) : TransformResult :=
  if pathsEqual op1.path op2.path then
    { op1Prime := op1
      op2Prime := { op2 with type := .update, value := some .null }
      success := true
      warnings := some ["Update target was deleted"] }
  else { op1Prime := op1, op2Prime := op2, success := true }

def transformUpdateDelete (op1 op2 : Operation) : TransformResult :=
  let result := transformDeleteUpdate op2 op1
  { op1Prime := result.op2Prime, op2Prime := result.op1Prime, success := result.success
    warnings := result.warnings }

def transformUpdateUpdate (op1 op2 : Operation) : TransformResult :=
  if pathsEqual op1.path op2.path then
    if op1.timestamp < op2.timestamp then
      { op1Prime := op1
        op2Prime := { op2 with oldValue := op1.value }
        success := true
        warnings := some ["Concurrent updates to same field - using timestamp ordering"] }
    else
      { op1Prime := { op1 with oldValue := op2.value }
        op2Prime := op2
        success := true
        warnings := some ["Concurrent updates to same field - using timestamp ordering"] }
  else { op1Prime := op1, op2Prime := op2, success := true }

/-- The index an operation aims at, after its partner moved `source` to
`target`: the two decrements of the handler. -/
def shiftForMove (source target index : Int) : Int :=
  let index' := if source ≤ index ∧ target > index then index - 1 else index
  if source < index ∧ target ≤ index then index' - 1 else index'

def transformMoveMove (op1 op2 : Operation) : TransformResult :=
  let from1 := op1.pos
  let to1 := op1.newPos
  let from2 := op2.pos
  let to2 := op2.newPos
  let newFrom1 := shiftForMove from2 to2 from1
  let newTo1 := shiftForMove from2 to2 to1
  let newFrom2 := shiftForMove from1 to1 from2
  let newTo2 := shiftForMove from1 to1 to2
  { op1Prime := { op1 with position := some newFrom1, newPosition := some newTo1 }
    op2Prime := { op2 with position := some newFrom2, newPosition := some newTo2 }
    success := true }

def transformMoveDelete (op1 op2 : Operation) : TransformResult :=
  let moveFrom := op1.pos
  let moveTo := op1.newPos
  let deletePos := op2.pos
  if deletePos = moveFrom then
    { op1Prime := { op1 with type := .update, value := some .null }
      op2Prime := op2
      success := true
      warnings := some ["Move source was deleted"] }
  else
    let newFrom := if deletePos < moveFrom then moveFrom - 1 else moveFrom
    let newTo := if deletePos < moveTo then moveTo - 1 else moveTo
    { op1Prime := { op1 with position := some newFrom, newPosition := some newTo }
      op2Prime := op2
      success := true }

def transformDeleteMove (op1 op2 : Operation) : TransformResult :=
  let result := transformMoveDelete op2 op1
  { op1Prime := result.op2Prime, op2Prime := result.op1Prime, success := result.success
    warnings := result.warnings }

def sameConnection (op1 op2 : Operation) : Bool :=
  op1.sourceId == op2.sourceId && op1.targetId == op2.targetId

def transformConnectDisconnect (op1 op2 : Operation) : TransformResult :=
  if sameConnection op1 op2 then
    if op1.timestamp < op2.timestamp then
      { op1Prime := op1
        op2Prime := op2
        success := true
        warnings := some ["Concurrent connect/disconnect - using timestamp ordering"] }
    else
      { op1Prime := { op1 with type := .update, value := some .null }
        op2Prime := op2
        success := true
        warnings := some ["Connection was disconnected before connect completed"] }
  else { op1Prime := op1, op2Prime := op2, success := true }

def transformDisconnectConnect (op1 op2 : Operation) : TransformResult :=
  let result := transformConnectDisconnect op2 op1
  { op1Prime := result.op2Prime, op2Prime := result.op1Prime, success := result.success
    warnings := result.warnings }

/-- The second of two equal connection edits becomes the null update. -/
def transformDuplicate (warning : String) (op1 op2 : Operation) : TransformResult :=
  if sameConnection op1 op2 then
    { op1Prime := op1
      op2Prime := { op2 with type := .update, value := some .null }
      success := true
      warnings := some [warning] }
  else { op1Prime := op1, op2Prime := op2, success := true }

def transformConnectConnect : Operation → Operation → TransformResult :=
  transformDuplicate "Duplicate connection attempt"

def transformDisconnectDisconnect : Operation → Operation → TransformResult :=
  transformDuplicate "Duplicate disconnect attempt"

def transformByType (op1 op2 : Operation) : TransformResult :=
  match op1.type, op2.type with
  | .insert, .insert => transformInsertInsert op1 op2
  | .insert, .delete => transformInsertDelete op1 op2
  | .delete, .insert => transformDeleteInsert op1 op2
  | .insert, .update => transformInsertUpdate op1 op2
  | .update, .insert => transformUpdateInsert op1 op2
  | .delete, .delete => transformDeleteDelete op1 op2
  | .delete, .update => transformDeleteUpdate op1 op2
  | .update, .delete => transformUpdateDelete op1 op2
  | .update, .update => transformUpdateUpdate op1 op2
  | .move, .move => transformMoveMove op1 op2
  | .move, .delete => transformMoveDelete op1 op2
  | .delete, .move => transformDeleteMove op1 op2
  | .connect, .disconnect => transformConnectDisconnect op1 op2
  | .disconnect, .connect => transformDisconnectConnect op1 op2
  | .connect, .connect => transformConnectConnect op1 op2
  | .disconnect, .disconnect => transformDisconnectDisconnect op1 op2
  | _, _ => { op1Prime := op1, op2Prime := op2, success := true }

/-- Transform two concurrent operations against each other. -/
def transform (op1 op2 : Operation) : Operation × Operation :=
  if !operationsConflict op1 op2 then (op1, op2)
  else
    let result := transformByType op1 op2
    (result.op1Prime, result.op2Prime)

abbrev atPosition (op : Operation) (p : Int) : Operation := { op with position := some p }

@[simp] theorem atPosition_pos (op : Operation) (p : Int) : (atPosition op p).pos = p := rfl

/-- What the handlers turn an operation into that should do nothing. -/
abbrev nullUpdate (op : Operation) : Operation := { op with type := .update, value := some .null }

theorem pathsConflict_iff (path1 path2 : List String) :
    pathsConflict path1 path2 = true ↔ path1 <+: path2 ∨ path2 <+: path1 := by
  induction path1 generalizing path2 with
  | nil => simp [pathsConflict]
  | cons key path1 ih =>
      cases path2 with
      | nil => simp [pathsConflict]
      | cons key' path2 =>
          have := ih path2
          simp only [pathsConflict] at this
          by_cases h : key = key'
          · subst h
            simp [pathsConflict, this]
          · simp [pathsConflict, h, List.cons_prefix_cons, Ne.symm h]

@[simp] theorem pathsConflict_self (path : List String) : pathsConflict path path = true :=
  (pathsConflict_iff path path).mpr (Or.inl (List.prefix_refl path))

@[simp] theorem pathsConflict_append (path rest : List String) :
    pathsConflict path (path ++ rest) = true :=
  (pathsConflict_iff _ _).mpr (Or.inl (List.prefix_append path rest))

@[simp] theorem pathsConflict_append_left (path rest : List String) :
    pathsConflict (path ++ rest) path = true :=
  (pathsConflict_iff _ _).mpr (Or.inr (List.prefix_append path rest))

theorem pathsEqual_iff (path1 path2 : List String) :
    pathsEqual path1 path2 = true ↔ path1 = path2 := by
  induction path1 generalizing path2 with
  | nil => cases path2 <;> simp [pathsEqual]
  | cons key path1 ih =>
      cases path2 with
      | nil => simp [pathsEqual]
      | cons key' path2 =>
          have := ih path2
          simp only [pathsEqual, Bool.and_eq_true, beq_iff_eq] at this
          simp only [pathsEqual, List.length_cons, List.zip_cons_cons, List.all_cons,
            Bool.and_eq_true, beq_iff_eq, Nat.add_right_cancel_iff, List.cons.injEq]
          rw [← this]
          tauto

variable {op1 op2 : Operation}

theorem transform_of_not_conflict (h : pathsConflict op1.path op2.path = false) :
    transform op1 op2 = (op1, op2) := by
  simp [transform, operationsConflict, h]

theorem transform_of_conflict (h : pathsConflict op1.path op2.path = true) :
    transform op1 op2 =
      ((transformByType op1 op2).op1Prime, (transformByType op1 op2).op2Prime) := by
  simp [transform, operationsConflict, h]

theorem transform_same_path (hsame : op2.path = op1.path) :
    transform op1 op2 =
      ((transformByType op1 op2).op1Prime, (transformByType op1 op2).op2Prime) :=
  transform_of_conflict (by rw [hsame]; exact pathsConflict_self _)

theorem pathsConflict_comm (path1 path2 : List String) :
    pathsConflict path1 path2 = pathsConflict path2 path1 := by
  rw [Bool.eq_iff_iff, pathsConflict_iff, pathsConflict_iff, or_comm]

theorem sameConnection_comm (op1 op2 : Operation) :
    sameConnection op1 op2 = sameConnection op2 op1 := by
  simp only [sameConnection, Bool.beq_comm]

/-- The two operations a handler returns. -/
def primes (result : TransformResult) : Operation × Operation :=
  (result.op1Prime, result.op2Prime)

theorem transform_swap_of_primes
    (h : primes (transformByType op2 op1) = (primes (transformByType op1 op2)).swap) :
    transform op2 op1 = (transform op1 op2).swap := by
  have hcomm := pathsConflict_comm op2.path op1.path
  cases hconflict : pathsConflict op1.path op2.path with
  | false =>
      rw [transform_of_not_conflict hconflict, transform_of_not_conflict (hcomm.trans hconflict)]
      rfl
  | true =>
      rw [transform_of_conflict hconflict, transform_of_conflict (hcomm.trans hconflict)]
      exact h

/-- The handlers of two types come in pairs: one is the other, its operations exchanged. -/
theorem transform_swap_of_type (hne : op1.type ≠ op2.type) :
    transform op2 op1 = (transform op1 op2).swap := by
  apply transform_swap_of_primes
  cases h1 : op1.type <;> cases h2 : op2.type <;>
    first
      | exact absurd (h1.trans h2.symm) hne
      | simp only [transformByType, h1, h2]; rfl

theorem primes_duplicate_iff (warning : String) (h : op2.type ≠ .update) :
    primes (transformDuplicate warning op2 op1) =
        (primes (transformDuplicate warning op1 op2)).swap ↔ sameConnection op1 op2 = false := by
  unfold transformDuplicate
  rw [sameConnection_comm op2 op1]
  split
  · next hsame =>
      rw [hsame]
      refine iff_of_false (fun heq => h ?_) (by simp)
      exact congrArg (fun pair => pair.1.type) heq
  · next hne => exact iff_of_true rfl (by simpa using hne)

/-- Two operations that make, or that break, one connection. -/
structure Duplicates (op1 op2 : Operation) : Prop where
  conflict : pathsConflict op1.path op2.path = true
  type : op1.type = op2.type
  connects : op1.type = .connect ∨ op1.type = .disconnect
  same : sameConnection op1 op2 = true

/-- It does not matter to `transform` which operation comes first, except to a pair that
makes, or that breaks, one connection: there the second becomes a null update. -/
theorem transform_swap_iff (htime : op1.timestamp ≠ op2.timestamp) :
    transform op2 op1 = (transform op1 op2).swap ↔ ¬ Duplicates op1 op2 := by
  by_cases hdup : (op1.type = .connect ∨ op1.type = .disconnect) ∧ op1.type = op2.type
  · obtain ⟨hconnects, htype⟩ := hdup
    have hcomm := pathsConflict_comm op2.path op1.path
    cases hconflict : pathsConflict op1.path op2.path with
    | false =>
        have hswap := transform_of_not_conflict (hcomm.trans hconflict)
        rw [transform_of_not_conflict hconflict, hswap]
        exact iff_of_true rfl fun h => Bool.false_ne_true (hconflict.symm.trans h.conflict)
    | true =>
        have hsame : Duplicates op1 op2 ↔ sameConnection op1 op2 = true :=
          ⟨Duplicates.same, Duplicates.mk hconflict htype hconnects⟩
        rw [transform_of_conflict hconflict, transform_of_conflict (hcomm.trans hconflict), hsame,
          Bool.not_eq_true]
        rcases hconnects with h1 | h1 <;> have h2 := htype.symm.trans h1 <;>
          simp only [transformByType, h1, h2] <;>
          exact primes_duplicate_iff _ (by simp [h2])
  · refine iff_of_true ?_ fun h => hdup ⟨h.connects, h.type⟩
    by_cases htype : op1.type = op2.type
    · apply transform_swap_of_primes
      cases h2 : op2.type <;> have h1 := htype.trans h2 <;> simp only [transformByType, h1, h2]
      case insert | delete | update =>
        simp only [transformInsertInsert, transformDeleteDelete, transformUpdateUpdate, primes,
          pathsEqual_iff, eq_comm (a := op2.path)]
        split_ifs <;> first | rfl | omega
      case move => rfl
      all_goals exact absurd ⟨by simp [h1], htype⟩ hdup
    · exact transform_swap_of_type htype

/-- Two inserts at one place: the same pair comes back in either order. -/
theorem transform_swap_inserts :
    let op1 : Operation := { type := .insert, path := ["a"], timestamp := 1, userId := "u"
                             operationId := "1" }
    let op2 : Operation := { op1 with timestamp := 2, userId := "v", operationId := "2" }
    op1.timestamp ≠ op2.timestamp ∧
      (transform op2 op1 = (transform op1 op2).swap ↔ ¬ Duplicates op1 op2) :=
  ⟨by decide, transform_swap_iff (by decide)⟩

end Qontinui.OperationalTransform
