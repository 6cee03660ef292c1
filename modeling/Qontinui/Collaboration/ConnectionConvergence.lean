import Mathlib.Data.Set.Basic
import Qontinui.Base.FallibleLoops
import Qontinui.Collaboration.UpdateWrites

/-!
Concurrent connect and disconnect operations. They ignore their path when they
are applied, but a transform that turns one of them into the null update makes
it write `null` at that path.
-/

namespace Qontinui.OperationalTransform

open Json

/-! ### The connections of a workflow document -/

/-- The source and the target of a connection; `null` has neither. -/
def pairOf (conn : Json) : Option (JsValue × JsValue) :=
  match conn.readKey "source", conn.readKey "target" with
  | .ok source, .ok target => some (source, target)
  | _, _ => none

/-- The pairs in a connections list; another value has none. -/
def pairsOf : Json → Set (JsValue × JsValue)
  | .arr conns => {pair | ∃ conn ∈ conns, pairOf conn = some pair}
  | _ => ∅

/-- Two workflow documents with the same connections and nothing else different. -/
structure SameWorkflow (left right : Json) : Prop where
  pairs : ((left.child? "connections").elim ∅ pairsOf : Set (JsValue × JsValue)) =
    (right.child? "connections").elim ∅ pairsOf
  outside : ∀ key, key ≠ "connections" → left.child? key = right.child? key

theorem SameWorkflow.symm {left right : Json} (h : SameWorkflow left right) :
    SameWorkflow right left :=
  ⟨h.pairs.symm, fun key hkey => (h.outside key hkey).symm⟩

def withConnections (fields : List (String × Json)) (list : Json) : Json :=
  .obj (Fields.set "connections" list fields)

def idPair (op : Operation) : JsValue × JsValue :=
  (op.sourceId.map .str, op.targetId.map .str)

def kept (op : Operation) (conns : List Json) : List Json :=
  conns.filter fun conn => pairOf conn ≠ some (idPair op)

theorem withConnections_of_lookup {fields : List (String × Json)} {list : Json}
    (h : fields.lookup "connections" = some list) :
    Json.obj fields = withConnections fields list := by
  rw [withConnections, Fields.set_of_lookup h]

theorem child?_connections (fields : List (String × Json)) (list : Json) :
    (withConnections fields list).child? "connections" = some list :=
  Fields.lookup_set_self _ _ _

theorem sameWorkflow_withConnections_iff {fields : List (String × Json)} {left right : Json} :
    SameWorkflow (withConnections fields left) (withConnections fields right) ↔
      pairsOf left = pairsOf right := by
  constructor
  · intro h
    simpa only [child?_connections, Option.elim_some] using h.pairs
  · intro h
    refine ⟨by simpa only [child?_connections, Option.elim_some] using h, fun key hkey => ?_⟩
    exact (Fields.lookup_set_ne hkey left fields).trans
      (Fields.lookup_set_ne hkey right fields).symm

variable {pair : JsValue × JsValue}

theorem mem_pairsOf {conns : List Json} :
    pair ∈ pairsOf (.arr conns) ↔ ∃ conn ∈ conns, pairOf conn = some pair := Iff.rfl

theorem mem_pairsOf_append {first second : List Json} :
    pair ∈ pairsOf (.arr (first ++ second)) ↔
      pair ∈ pairsOf (.arr first) ∨ pair ∈ pairsOf (.arr second) := by
  simp only [mem_pairsOf, List.mem_append]
  constructor
  · rintro ⟨conn, hmem | hmem, hpair⟩
    · exact Or.inl ⟨conn, hmem, hpair⟩
    · exact Or.inr ⟨conn, hmem, hpair⟩
  · rintro (⟨conn, hmem, hpair⟩ | ⟨conn, hmem, hpair⟩)
    · exact ⟨conn, Or.inl hmem, hpair⟩
    · exact ⟨conn, Or.inr hmem, hpair⟩

theorem mem_pairsOf_kept {op : Operation} {conns : List Json} :
    pair ∈ pairsOf (.arr (kept op conns)) ↔
      pair ∈ pairsOf (.arr conns) ∧ pair ≠ idPair op := by
  simp only [mem_pairsOf, kept, List.mem_filter, decide_eq_true_eq]
  constructor
  · rintro ⟨conn, ⟨hmem, hkept⟩, hpair⟩
    refine ⟨⟨conn, hmem, hpair⟩, ?_⟩
    rintro rfl
    exact hkept hpair
  · rintro ⟨⟨conn, hmem, hpair⟩, hne⟩
    refine ⟨conn, ⟨hmem, fun h => hne ?_⟩, hpair⟩
    exact Option.some.inj (hpair.symm.trans h)

/-! ### Applying connects and disconnects -/

variable {conn : Json}

theorem readKey_of_ne_null (h : conn ≠ .null) {key : String} (hkey : arrayIndex? key = none) :
    ∃ value, conn.readKey key = .ok value := by
  cases conn with
  | null => exact absurd rfl h
  | _ => simp [readKey, hkey]

theorem pairOf_of_ne_null (h : conn ≠ .null) :
    ∃ source target, conn.readKey "source" = .ok source ∧ conn.readKey "target" = .ok target ∧
      pairOf conn = some (source, target) := by
  obtain ⟨source, hsource⟩ := readKey_of_ne_null h (show arrayIndex? "source" = none by decide)
  obtain ⟨target, htarget⟩ := readKey_of_ne_null h (show arrayIndex? "target" = none by decide)
  exact ⟨source, target, hsource, htarget, by simp only [pairOf, hsource, htarget]⟩

theorem isConnection_eq (h : conn ≠ .null) (op : Operation) :
    isConnection op conn = .ok (decide (pairOf conn = some (idPair op))) := by
  obtain ⟨source, target, hsource, htarget, hpair⟩ := pairOf_of_ne_null h
  simp only [isConnection, hsource, htarget, hpair, idPair, bind, Except.bind, Option.some.injEq,
    Prod.mk.injEq, pure, Except.pure]
  by_cases hs : source = op.sourceId.map .str <;> simp [hs]

section Apply

variable {fields : List (String × Json)} {op : Operation} {conns : List Json}

theorem apply_connect (htype : op.type = .connect) :
    apply (withConnections fields (.arr conns)) op =
      .ok (withConnections fields (.arr (conns ++ [connectionOf op]))) := by
  have hread : (withConnections fields (.arr conns)).readKey "connections" =
      .ok (some (.arr conns)) := readKey_of_child? (child?_connections fields _)
  simp only [apply, applyConnect, htype, hread, bind, Except.bind, JsValue.truthy, truthy,
    if_true]
  simp only [withConnections, replaceKey, Fields.set_set]
  rfl

theorem apply_disconnect (htype : op.type = .disconnect) (h : ∀ conn ∈ conns, conn ≠ .null) :
    apply (withConnections fields (.arr conns)) op =
      .ok (withConnections fields (.arr (kept op conns))) := by
  have hread : (withConnections fields (.arr conns)).readKey "connections" =
      .ok (some (.arr conns)) := readKey_of_child? (child?_connections fields _)
  have hfilter : conns.filterM (fun conn => do pure (!(← isConnection op conn))) =
      .ok (kept op conns) := by
    refine FallibleLoops.filterM_eq_ok fun conn hmem => ?_
    rw [isConnection_eq (h conn hmem)]
    simp [bind, Except.bind, pure, Except.pure]
  simp only [apply, applyDisconnect, htype, hread]
  simp only [bind, Except.bind] at hfilter
  simp only [bind, Except.bind, JsValue.truthy, truthy, if_true, hfilter]
  simp only [withConnections, writeKey, Fields.set_set]

theorem connectionOf_ne_null (op : Operation) : connectionOf op ≠ .null := by
  rintro h
  cases h

variable {rest : List String} {list : Json} {key : String}

theorem apply_nullUpdate_list (hpath : op.path = "connections" :: rest) :
    apply (withConnections fields list) (nullUpdate op) =
      withConnections fields <$> writeElement (some .null) list rest := by
  have hat : (withConnections fields list).at? ["connections"] = some list := by
    rw [at?_cons_of_child? (child?_connections fields list), at?_nil]
  have hreplace : ∀ value, (withConnections fields list).replaceAt ["connections"] value =
      withConnections fields value := by
    intro value
    rw [replaceAt_cons (child?_connections fields list), replaceAt_nil]
    simp only [withConnections, replaceKey, Fields.set_set]
  unfold writeElement
  split_ifs with hrest
  · subst hrest
    rw [apply_update (by simp [hpath]) (by rw [hpath]; exact hat)
      (rfl : (nullUpdate op).type = .update) rfl, hpath, hreplace]
    rfl
  · rw [apply_update_below (by simp) hrest hat rfl (by rw [hpath]; rfl)]
    simp only [hreplace]

theorem writeBelow_obj {value next : Json}
    (h : writeBelow (some value) (.obj fields) (key :: rest) = .ok next) :
    ∃ child, next = .obj (Fields.set key child fields) := by
  cases rest with
  | nil =>
      cases h
      exact ⟨value, rfl⟩
  | cons next rest =>
      obtain ⟨front, last, hsplit⟩ : ∃ front last, next :: rest = front ++ [last] :=
        ⟨_, _, (List.dropLast_append_getLast (by simp)).symm⟩
      rw [hsplit, ← List.cons_append, writeBelow_concat] at h
      rcases navigateToPath_cons_ok h with ⟨_, inner, _, _, _, rfl⟩ | ⟨_, inner, _, _, _, hwrite⟩
      · exact ⟨inner, rfl⟩
      · cases hwrite
        exact ⟨inner, rfl⟩

theorem apply_nullUpdate_outside (hpath : op.path = key :: rest) :
    apply (withConnections fields list) (nullUpdate op) =
      writeBelow (some .null) (withConnections fields list) (key :: rest) := by
  have hroot : (withConnections fields list).at? [] = some (withConnections fields list) := rfl
  rw [apply_update_in (List.cons_ne_nil key rest) hroot rfl
    (rfl : (nullUpdate op).type = .update) hpath]
  cases writeBelow (some .null) (withConnections fields list) (key :: rest) <;> rfl

/-- Writing `null` at `path` of the document with connections `list` leaves the
pairs of `other` and nothing else changed. -/
def NullAgrees (fields : List (String × Json)) (list other : List Json) : List String → Prop
  | [] => pairsOf (.arr list) = pairsOf (.arr other)
  | key :: rest =>
      if key = "connections" then
        ∃ written, writeElement (some .null) (.arr list) rest = .ok written ∧
          pairsOf written = pairsOf (.arr other)
      else
        AlreadyThere (some .null) (.obj fields) (key :: rest) ∧
          pairsOf (.arr list) = pairsOf (.arr other)

theorem alreadyThere_withConnections {value : Json} (hkey : key ≠ "connections") :
    AlreadyThere (some value) (withConnections fields list) (key :: rest) ↔
      AlreadyThere (some value) (.obj fields) (key :: rest) := by
  have hlookup := Fields.lookup_set_ne hkey list fields
  cases rest with
  | nil =>
      have hslot : ∀ fs : List (String × Json), AlreadyThere (some value) (.obj fs) [key] ↔
          fs.lookup key = some value := by
        intro fs
        simp only [AlreadyThere, writeKey, Except.ok.injEq, Json.obj.injEq]
        constructor
        · intro h
          rw [← h]
          exact Fields.lookup_set_self key value fs
        · exact Fields.set_of_lookup
      rw [withConnections, hslot, hslot, hlookup]
  | cons next rest =>
      simp only [withConnections, AlreadyThere, child?, hlookup, isArray]

theorem nullUpdate_agrees_iff {list other : List Json} :
    (∃ next, apply (withConnections fields (.arr list)) (nullUpdate op) = .ok next ∧
      SameWorkflow next (withConnections fields (.arr other))) ↔
    NullAgrees fields list other op.path := by
  cases hpath : op.path with
  | nil =>
      have happly : apply (withConnections fields (.arr list)) (nullUpdate op) =
          .ok (withConnections fields (.arr list)) := by
        simp [apply, applyUpdate, mutateProperty, hpath]
      simp only [happly, Except.ok.injEq, exists_eq_left', sameWorkflow_withConnections_iff]
      exact Iff.rfl
  | cons key rest =>
      simp only [NullAgrees]
      split_ifs with hkey
      · subst hkey
        rw [apply_nullUpdate_list hpath]
        cases hwrite : writeElement (some .null) (.arr list) rest with
        | error e => simp
        | ok written =>
            simp only [Functor.map, Except.map, Except.ok.injEq, exists_eq_left',
              sameWorkflow_withConnections_iff]
      · rw [apply_nullUpdate_outside hpath,
          ← @alreadyThere_withConnections fields _ (.arr list) _ _ hkey]
        obtain ⟨front, last, hsplit⟩ : ∃ front last, key :: rest = front ++ [last] :=
          ⟨_, _, (List.dropLast_append_getLast (by simp)).symm⟩
        rw [hsplit, ← writeBelow_eq_self_iff, ← hsplit]
        constructor
        · rintro ⟨next, hnext, hsame⟩
          obtain ⟨child, rfl⟩ := writeBelow_obj hnext
          -- the other order leaves the field alone, so this one must have, too
          have hfield : fields.lookup key = some child := by
            have hout := hsame.outside key hkey
            simp only [withConnections, child?, Fields.lookup_set_self,
              Fields.lookup_set_ne hkey] at hout
            exact hout.symm
          have hself : Json.obj (Fields.set key child (Fields.set "connections" (.arr list) fields)) =
              withConnections fields (.arr list) := by
            rw [Fields.set_of_lookup ((Fields.lookup_set_ne hkey _ fields).trans hfield)]
            rfl
          rw [hself] at hnext hsame
          exact ⟨hnext, sameWorkflow_withConnections_iff.mp hsame⟩
        · rintro ⟨hself, hpairs⟩
          exact ⟨_, hself, sameWorkflow_withConnections_iff.mpr hpairs⟩

end Apply

/-! ### Convergence -/

def EditsConnections (op : Operation) : Prop := op.type = .connect ∨ op.type = .disconnect

theorem sameConnection_iff (op1 op2 : Operation) :
    sameConnection op1 op2 = true ↔ idPair op1 = idPair op2 := by
  have hinj : Function.Injective (Option.map Json.str) :=
    Option.map_injective fun a b h => Json.str.inj h
  simp [sameConnection, idPair, hinj.eq_iff]

/-- A connect and a disconnect whose order does not matter: unless the connect
is the later one of the same pair, what it adds must not be what the disconnect
removes. -/
def ConnectDisconnectAgree (fields : List (String × Json)) (conns : List Json)
    (connect disconnect : Operation) : Prop :=
  if idPair connect = idPair disconnect ∧ ¬ connect.timestamp < disconnect.timestamp then
    NullAgrees fields (kept disconnect conns)
      (kept disconnect (conns ++ [connectionOf connect])) connect.path
  else pairOf (connectionOf connect) ≠ some (idPair disconnect)

def ConnectionsAgree (fields : List (String × Json)) (conns : List Json)
    (op1 op2 : Operation) : Prop :=
  match op1.type, op2.type with
  | .connect, .connect =>
      idPair op1 ≠ idPair op2 ∨ NullAgrees fields (conns ++ [connectionOf op1])
        (conns ++ [connectionOf op2] ++ [connectionOf op1]) op2.path
  | .disconnect, .disconnect =>
      idPair op1 ≠ idPair op2 ∨ NullAgrees fields (kept op1 conns) (kept op1 conns) op2.path
  | .connect, .disconnect => ConnectDisconnectAgree fields conns op1 op2
  | .disconnect, .connect => ConnectDisconnectAgree fields conns op2 op1
  | _, _ => False

section Converge

variable {fields : List (String × Json)} {conns : List Json} {op1 op2 : Operation}

theorem sameWorkflow_converges_iff {doc left right : Json}
    (hleft : applyThen doc op1 (transform op1 op2).2 = .ok left)
    (hright : applyThen doc op2 (transform op1 op2).1 = .ok right) :
    ConvergesUpTo SameWorkflow doc op1 op2 ↔ SameWorkflow left right := by
  constructor
  · rintro ⟨left', right', hl, hr, hsame⟩
    cases hleft.symm.trans hl
    cases hright.symm.trans hr
    exact hsame
  · intro hsame
    exact ⟨left, right, hleft, hright, hsame⟩

theorem null_second_converges_iff {doc : Json} {list other : List Json}
    (htransform : transform op1 op2 = (op1, nullUpdate op2))
    (hmid : apply doc op1 = .ok (withConnections fields (.arr list)))
    (hright : applyThen doc op2 op1 = .ok (withConnections fields (.arr other))) :
    ConvergesUpTo SameWorkflow doc op1 op2 ↔ NullAgrees fields list other op2.path := by
  rw [← nullUpdate_agrees_iff]
  simp only [ConvergesUpTo, htransform, hright, applyThen_of_ok hmid]
  constructor
  · rintro ⟨left, right, hl, hr, hsame⟩
    cases hr
    exact ⟨left, hl, hsame⟩
  · rintro ⟨next, hnext, hsame⟩
    exact ⟨next, _, hnext, rfl, hsame⟩

theorem mem_pairsOf_pushed {pair : JsValue × JsValue} {op : Operation} :
    pair ∈ pairsOf (.arr [connectionOf op]) ↔ pairOf (connectionOf op) = some pair := by
  simp [mem_pairsOf]

/-- Of two edits of one pair the second becomes the null update; others commute. -/
theorem duplicate_converges_iff {doc : Json} {list left right : List Json} {warning : String}
    (hpath : op2.path = op1.path)
    (hby : transformByType op1 op2 = transformDuplicate warning op1 op2)
    (hfirst : apply doc op1 = .ok (withConnections fields (.arr list)))
    (hleft : applyThen doc op1 op2 = .ok (withConnections fields (.arr left)))
    (hright : applyThen doc op2 op1 = .ok (withConnections fields (.arr right)))
    (hpairs : pairsOf (.arr left) = pairsOf (.arr right)) :
    ConvergesUpTo SameWorkflow doc op1 op2 ↔
      idPair op1 ≠ idPair op2 ∨ NullAgrees fields list right op2.path := by
  rcases eq_or_ne (idPair op1) (idPair op2) with heq | hne
  · have htransform : transform op1 op2 = (op1, nullUpdate op2) := by
      rw [transform_same_path hpath, hby, transformDuplicate,
        if_pos ((sameConnection_iff op1 op2).mpr heq)]
    rw [null_second_converges_iff htransform hfirst hright]
    simp [heq]
  · have htransform : transform op1 op2 = (op1, op2) := by
      rw [transform_same_path hpath, hby, transformDuplicate,
        if_neg fun h => hne ((sameConnection_iff op1 op2).mp h)]
    refine iff_of_true ?_ (Or.inl hne)
    rw [sameWorkflow_converges_iff (by rw [htransform]; exact hleft)
      (by rw [htransform]; exact hright), sameWorkflow_withConnections_iff]
    exact hpairs

theorem connect_connect_converges_iff (hpath : op2.path = op1.path) (h1 : op1.type = .connect)
    (h2 : op2.type = .connect) :
    ConvergesUpTo SameWorkflow (withConnections fields (.arr conns)) op1 op2 ↔
      idPair op1 ≠ idPair op2 ∨ NullAgrees fields (conns ++ [connectionOf op1])
        (conns ++ [connectionOf op2] ++ [connectionOf op1]) op2.path := by
  have hby : transformByType op1 op2 = transformConnectConnect op1 op2 := by
    simp only [transformByType, h1, h2]
  have hpairs : pairsOf (.arr (conns ++ [connectionOf op1] ++ [connectionOf op2])) =
      pairsOf (.arr (conns ++ [connectionOf op2] ++ [connectionOf op1])) := by
    ext pair
    simp only [mem_pairsOf_append]
    tauto
  refine duplicate_converges_iff hpath hby (apply_connect h1) ?_ ?_ hpairs
  · rw [applyThen_of_ok (apply_connect h1), apply_connect h2]
  · rw [applyThen_of_ok (apply_connect h2), apply_connect h1]

theorem kept_kept (op : Operation) (conns : List Json) : kept op (kept op conns) = kept op conns := by
  simp [kept, List.filter_filter]

theorem kept_of_idPair (h : idPair op1 = idPair op2) (conns : List Json) :
    kept op1 conns = kept op2 conns := by
  simp only [kept, h]

theorem kept_ne_null {op : Operation} (h : ∀ conn ∈ conns, conn ≠ .null) :
    ∀ conn ∈ kept op conns, conn ≠ .null :=
  fun conn hmem => h conn (List.mem_of_mem_filter hmem)

section

variable (hconns : ∀ conn ∈ conns, conn ≠ .null)
include hconns

theorem disconnect_disconnect_converges_iff (hpath : op2.path = op1.path)
    (h1 : op1.type = .disconnect) (h2 : op2.type = .disconnect) :
    ConvergesUpTo SameWorkflow (withConnections fields (.arr conns)) op1 op2 ↔
      idPair op1 ≠ idPair op2 ∨ NullAgrees fields (kept op1 conns) (kept op1 conns) op2.path := by
  have hby : transformByType op1 op2 = transformDisconnectDisconnect op1 op2 := by
    simp only [transformByType, h1, h2]
  have hpairs : pairsOf (.arr (kept op2 (kept op1 conns))) =
      pairsOf (.arr (kept op1 (kept op2 conns))) := by
    ext pair
    simp only [mem_pairsOf_kept]
    tauto
  refine (duplicate_converges_iff hpath hby (apply_disconnect h1 hconns) ?_ ?_ hpairs).trans ?_
  · rw [applyThen_of_ok (apply_disconnect h1 hconns), apply_disconnect h2 (kept_ne_null hconns)]
  · rw [applyThen_of_ok (apply_disconnect h2 hconns), apply_disconnect h1 (kept_ne_null hconns)]
  · refine or_congr_right' fun heq => ?_
    rw [← kept_of_idPair (not_not.mp heq), kept_kept]

theorem connect_disconnect_converges_iff (hpath : op2.path = op1.path) (h1 : op1.type = .connect)
    (h2 : op2.type = .disconnect) :
    ConvergesUpTo SameWorkflow (withConnections fields (.arr conns)) op1 op2 ↔
      ConnectDisconnectAgree fields conns op1 op2 := by
  have hpushed : ∀ conn ∈ conns ++ [connectionOf op1], conn ≠ .null := by
    intro conn hmem
    rcases List.mem_append.mp hmem with hmem | hmem
    · exact hconns conn hmem
    · rw [List.mem_singleton.mp hmem]
      exact connectionOf_ne_null op1
  have hleft : applyThen (withConnections fields (.arr conns)) op1 op2 =
      .ok (withConnections fields (.arr (kept op2 (conns ++ [connectionOf op1])))) := by
    rw [applyThen_of_ok (apply_connect h1), apply_disconnect h2 hpushed]
  have hright : applyThen (withConnections fields (.arr conns)) op2 op1 =
      .ok (withConnections fields (.arr (kept op2 conns ++ [connectionOf op1]))) := by
    rw [applyThen_of_ok (apply_disconnect h2 hconns), apply_connect h1]
  have hby : transformByType op1 op2 = transformConnectDisconnect op1 op2 := by
    simp only [transformByType, h1, h2]
  unfold ConnectDisconnectAgree
  split_ifs with hlate
  · have htransform : transform op1 op2 = (nullUpdate op1, op2) := by
      rw [transform_same_path hpath, hby, transformConnectDisconnect,
        if_pos ((sameConnection_iff op1 op2).mpr hlate.1), if_neg hlate.2]
    rw [← nullUpdate_agrees_iff]
    simp only [ConvergesUpTo, htransform, hleft, applyThen_of_ok (apply_disconnect h2 hconns)]
    constructor
    · rintro ⟨left, right, hl, hr, hsame⟩
      cases hl
      exact ⟨right, hr, hsame.symm⟩
    · rintro ⟨next, hnext, hsame⟩
      exact ⟨_, next, rfl, hnext, hsame.symm⟩
  · have htransform : transform op1 op2 = (op1, op2) := by
      rw [transform_same_path hpath, hby, transformConnectDisconnect]
      split_ifs with hsame hearlier
      · rfl
      · exact absurd ⟨(sameConnection_iff op1 op2).mp hsame, hearlier⟩ hlate
      · rfl
    rw [sameWorkflow_converges_iff (by rw [htransform]; exact hleft)
      (by rw [htransform]; exact hright), sameWorkflow_withConnections_iff]
    constructor
    · intro hpairs hpair
      have hmem : idPair op2 ∈ pairsOf (.arr (kept op2 (conns ++ [connectionOf op1]))) := by
        rw [hpairs, mem_pairsOf_append, mem_pairsOf_pushed]
        exact Or.inr hpair
      exact (mem_pairsOf_kept.mp hmem).2 rfl
    · intro hpair
      ext pair
      simp only [mem_pairsOf_kept, mem_pairsOf_append, mem_pairsOf_pushed]
      constructor
      · rintro ⟨hmem | hmem, hne⟩
        · exact Or.inl ⟨hmem, hne⟩
        · exact Or.inr hmem
      · rintro (⟨hmem, hne⟩ | hmem)
        · exact ⟨Or.inl hmem, hne⟩
        · refine ⟨Or.inr hmem, ?_⟩
          rintro rfl
          exact hpair hmem

theorem disconnect_connect_converges_iff (hpath : op2.path = op1.path) (h1 : op1.type = .disconnect)
    (h2 : op2.type = .connect) :
    ConvergesUpTo SameWorkflow (withConnections fields (.arr conns)) op1 op2 ↔
      ConnectDisconnectAgree fields conns op2 op1 := by
  rw [convergesUpTo_swap (fun _ _ => SameWorkflow.symm)
    (transform_swap_of_type (by rw [h1, h2]; decide))]
  exact connect_disconnect_converges_iff hconns hpath.symm h2 h1

end

/-- Two connection edits converge exactly when they name different pairs, or the
one that the handler replaces by the null update leaves the other one's result. -/
theorem connections_converge_iff (hlist : fields.lookup "connections" = some (.arr conns))
    (hconns : ∀ conn ∈ conns, conn ≠ .null) (h1 : EditsConnections op1)
    (h2 : EditsConnections op2) (hpath : op2.path = op1.path) :
    ConvergesUpTo SameWorkflow (.obj fields) op1 op2 ↔ ConnectionsAgree fields conns op1 op2 := by
  rw [withConnections_of_lookup hlist, ConnectionsAgree]
  rcases h1 with h1 | h1 <;> rcases h2 with h2 | h2 <;> rw [h1, h2]
  · exact connect_connect_converges_iff hpath h1 h2
  · exact connect_disconnect_converges_iff hconns hpath h1 h2
  · exact disconnect_connect_converges_iff hconns hpath h1 h2
  · exact disconnect_disconnect_converges_iff hconns hpath h1 h2

end Converge

/-- Two users add different connections to a workflow. -/
theorem connections_converge_iff_workflow :
    let op1 : Operation :=
      { type := .connect, path := [], timestamp := 1, userId := "user-1", operationId := "op-1"
        sourceId := some "a", targetId := some "b" }
    let op2 : Operation :=
      { type := .connect, path := [], timestamp := 2, userId := "user-2", operationId := "op-2"
        sourceId := some "b", targetId := some "c" }
    ConvergesUpTo SameWorkflow (.obj [("name", .str "login"), ("connections", .arr [])]) op1 op2 ↔
      ConnectionsAgree [("name", .str "login"), ("connections", .arr [])] [] op1 op2 := by
  intro op1 op2
  have hlist : List.lookup "connections" [("name", Json.str "login"), ("connections", .arr [])] =
      some (.arr []) := rfl
  exact connections_converge_iff hlist (fun _ hmem => absurd hmem List.not_mem_nil) (Or.inl rfl)
    (Or.inl rfl) rfl

/-- One user connects again what the other one, later, disconnects: the
connection is gone in one order and there in the other. -/
theorem reconnect_diverges_workflow :
    let conn : Json := .obj [("id", .str "c1"), ("source", .str "a"), ("target", .str "b")]
    let doc : Json := .obj [("connections", .arr [conn])]
    let op1 : Operation :=
      { type := .connect, path := ["connections"], timestamp := 1, userId := "user-1"
        operationId := "op-1", sourceId := some "a", targetId := some "b" }
    let op2 : Operation :=
      { type := .disconnect, path := ["connections"], timestamp := 2, userId := "user-2"
        operationId := "op-2", sourceId := some "a", targetId := some "b" }
    applyThen doc op1 (transform op1 op2).2 = .ok (.obj [("connections", .arr [])]) ∧
      ¬ ConvergesUpTo SameWorkflow doc op1 op2 := by
  intro conn doc op1 op2
  have hleft : applyThen doc op1 (transform op1 op2).2 =
      .ok (.obj [("connections", .arr [])]) := by decide +kernel
  have hright : applyThen doc op2 (transform op1 op2).1 = .ok (.obj [("connections", .arr
      [.obj [("id", .str "op-1"), ("source", .str "a"), ("target", .str "b")]])]) := by
    decide +kernel
  refine ⟨hleft, fun h => ?_⟩
  have hpairs := ((sameWorkflow_converges_iff hleft hright).mp h).pairs
  have hmem : (some (.str "a"), some (.str "b")) ∈ pairsOf (.arr
      [.obj [("id", .str "op-1"), ("source", .str "a"), ("target", .str "b")]]) :=
    ⟨_, List.mem_singleton.mpr rfl, rfl⟩
  have hgone : (some (.str "a"), some (.str "b")) ∈ pairsOf (.arr []) := by
    have hempty : pairsOf (.arr []) = pairsOf (.arr
      [.obj [("id", .str "op-1"), ("source", .str "a"), ("target", .str "b")]]) := hpairs
    rw [hempty]
    exact hmem
  obtain ⟨_, hnil, _⟩ := hgone
  cases hnil

end Qontinui.OperationalTransform
