import Qontinui.Base.JsonPath
import Qontinui.Collaboration.OperationalTransform

/-!
`OperationalTransformService.apply`: an operation is applied to a clone of the
document. The mutation of the node that `navigateToPath` reaches is a function
from that node to its new value, and the nodes above it are rebuilt around it.
-/

namespace Qontinui.OperationalTransform

open Json

/-- Walk down `path`, creating an object wherever the next value is falsy, and
mutate the node reached with `act`. -/
def navigateToPath (act : Json → Js Json) : Json → List String → Js Json
  | current, [] => act current
  | current, segment :: rest => do
      match ← current.readKey segment with
      | some child =>
          if child.truthy then
            let child ← navigateToPath act child rest
            pure (current.replaceKey segment child)
          else
            let child ← navigateToPath act (.obj []) rest
            current.writeKey segment (some child)
      | none =>
          let child ← navigateToPath act (.obj []) rest
          current.writeKey segment (some child)

/-- Mutate the property that `path` ends in; the empty path has none. -/
def mutateProperty (act : Json → String → Js Json) (doc : Json) (path : List String) : Js Json :=
  match path.getLast? with
  | none => .ok doc
  | some key => navigateToPath (fun parent => act parent key) doc path.dropLast

def applyInsert (doc : Json) (op : Operation) : Js Json :=
  mutateProperty (fun parent key => do
    match ← parent.readKey key with
    | some (.arr items) =>
        pure (parent.replaceKey key (.arr (splice items op.pos 0 [op.value.getD .null]).2))
    | _ => parent.writeKey key op.value) doc op.path

def applyDelete (doc : Json) (op : Operation) : Js Json :=
  mutateProperty (fun parent key => do
    match ← parent.readKey key with
    | some (.arr items) => pure (parent.replaceKey key (.arr (splice items op.pos 1 []).2))
    | _ => parent.deleteKey key) doc op.path

def applyUpdate (doc : Json) (op : Operation) : Js Json :=
  mutateProperty (fun parent key => parent.writeKey key op.value) doc op.path

/-- `const item = items.splice(position, 1)[0]; items.splice(newPosition, 0, item)`.
Without an item, `undefined` is what is inserted. -/
def spliceMove (items : List Json) (position newPosition : Int) : List Json :=
  let removed := splice items position 1 []
  (splice removed.2 newPosition 0 [removed.1.head?.getD .null]).2

def applyMove (doc : Json) (op : Operation) : Js Json :=
  mutateProperty (fun parent key => do
    match ← parent.readKey key with
    | some (.arr items) =>
        pure (parent.replaceKey key (.arr (spliceMove items op.pos op.newPos)))
    | _ => pure parent) doc op.path

/-- The properties that `...(op.value as Record<string, unknown>)` copies. -/
def spreadFields : JsValue → List (String × Json)
  | some (.obj fields) => fields
  | some (.arr items) => items.zipIdx.map fun (item, i) => (toString i, item)
  | some (.str s) => s.toList.zipIdx.map fun (c, i) => (toString i, .str c.toString)
  | _ => []

/-- The connection object that `applyConnect` pushes. -/
def connectionOf (op : Operation) : Json :=
  let own : List (String × JsValue) :=
    [("id", some (.str op.operationId)), ("source", op.sourceId.map .str),
      ("target", op.targetId.map .str)]
  let all := (spreadFields op.value).foldl (fun fields field =>
    Fields.set field.1 (some field.2) fields) own
  .obj (all.filterMap fun field => field.2.map fun value => (field.1, value))

def applyConnect (doc : Json) (op : Operation) : Js Json := do
  let connections ← doc.readKey "connections"
  if JsValue.truthy connections then
    match connections with
    | some (.arr items) => pure (doc.replaceKey "connections" (.arr (items ++ [connectionOf op])))
    | _ => .error .typeError
  else doc.writeKey "connections" (some (.arr [connectionOf op]))

/-- `conn.source === op.sourceId && conn.target === op.targetId`. -/
def isConnection (op : Operation) (conn : Json) : Js Bool := do
  let source ← conn.readKey "source"
  if source = op.sourceId.map .str then
    let target ← conn.readKey "target"
    pure (target = op.targetId.map .str)
  else pure false

def applyDisconnect (doc : Json) (op : Operation) : Js Json := do
  let connections ← doc.readKey "connections"
  if JsValue.truthy connections then
    match connections with
    | some (.arr items) =>
        let kept ← items.filterM fun conn => do pure (!(← isConnection op conn))
        doc.writeKey "connections" (some (.arr kept))
    | _ => .error .typeError
  else pure doc

def apply (doc : Json) (op : Operation) : Js Json :=
  match op.type with
  | .insert => applyInsert doc op
  | .delete => applyDelete doc op
  | .update => applyUpdate doc op
  | .move => applyMove doc op
  | .connect => applyConnect doc op
  | .disconnect => applyDisconnect doc op

/-! ### What an operation does at an existing location -/

variable {doc : Json} {path : List String} {items : List Json} {op1 op2 : Operation}

theorem navigateToPath_of_at? {act : Json → Js Json} {parent : Json}
    (h : doc.at? path = some parent) (hparent : parent.truthy = true) :
    navigateToPath act doc path = (doc.replaceAt path ·) <$> act parent := by
  induction path generalizing doc with
  | nil =>
      cases h
      simp [navigateToPath]
  | cons key rest ih =>
      obtain ⟨child, hchild, hrest⟩ := at?_cons h
      have htruthy : child.truthy = true := by
        cases rest with
        | nil => cases hrest; exact hparent
        | cons key' rest' =>
            obtain ⟨_, hgrandchild, _⟩ := at?_cons hrest
            exact truthy_of_child? hgrandchild
      simp only [navigateToPath, readKey_of_child? hchild, bind, Except.bind, htruthy, if_true,
        ih hrest]
      cases act parent with
      | error e => rfl
      | ok value => simp [pure, Except.pure, replaceAt_cons hchild, Functor.map, Except.map]

theorem mutateProperty_concat (act : Json → String → Js Json) (doc : Json) (path : List String)
    (key : String) :
    mutateProperty act doc (path ++ [key]) =
      navigateToPath (fun parent => act parent key) doc path := by
  simp [mutateProperty]

variable {target : Json} {first : Operation}

theorem at?_parent (hpath : path ≠ []) (h : doc.at? path = some target) :
    ∃ front key parent, path = front ++ [key] ∧ doc.at? front = some parent ∧
      parent.child? key = some target := by
  refine ⟨path.dropLast, path.getLast hpath, ?_⟩
  have hsplit := List.dropLast_append_getLast hpath
  rw [← hsplit, at?_append] at h
  obtain ⟨parent, hparent, hlast⟩ := Option.bind_eq_some_iff.mp h
  obtain ⟨child, hchild, hnil⟩ := at?_cons hlast
  cases hnil
  exact ⟨parent, hsplit.symm, hparent, hchild⟩

theorem mutateProperty_of_at? {act : Json → String → Js Json} {value : Json} (hpath : path ≠ [])
    (h : doc.at? path = some target) (hact : ∀ parent key, parent.child? key = some target →
      act parent key = .ok (parent.replaceKey key value)) :
    mutateProperty act doc path = .ok (doc.replaceAt path value) := by
  obtain ⟨front, key, parent, rfl, hfront, hchild⟩ := at?_parent hpath h
  rw [mutateProperty_concat, navigateToPath_of_at? hfront (truthy_of_child? hchild),
    hact parent key hchild, replaceAt_append hfront, replaceAt_cons hchild]
  rfl

/-- What an insert, delete or move does to the array it addresses. -/
def editItems (op : Operation) (items : List Json) : List Json :=
  match op.type with
  | .insert => (splice items op.pos 0 [op.value.getD .null]).2
  | .delete => (splice items op.pos 1 []).2
  | .move => spliceMove items op.pos op.newPos
  | _ => items

def EditsArray (op : Operation) : Prop :=
  op.type = .insert ∨ op.type = .delete ∨ op.type = .move

theorem apply_array {op : Operation} (hpath : op.path ≠ [])
    (h : doc.at? op.path = some (.arr items)) (hop : EditsArray op) :
    apply doc op = .ok (doc.replaceAt op.path (.arr (editItems op items))) := by
  rcases hop with htype | htype | htype <;>
    simp only [apply, applyInsert, applyDelete, applyMove, editItems, htype] <;>
    refine mutateProperty_of_at? hpath h fun parent key hchild => ?_ <;>
    rw [readKey_of_child? hchild] <;> rfl

theorem apply_update {value : Json} {op : Operation} (hpath : op.path ≠ [])
    (h : doc.at? op.path = some target) (htype : op.type = .update) (hvalue : op.value = some value) :
    apply doc op = .ok (doc.replaceAt op.path value) := by
  simp only [apply, applyUpdate, htype, hvalue]
  exact mutateProperty_of_at? hpath h fun parent key hchild =>
    writeKey_of_child? hchild value

def applyThen (doc : Json) (first second : Operation) : Js Json :=
  apply doc first >>= fun next => apply next second

/-- Both orders of applying two concurrent operations, each followed by the
transformed partner, end in documents related by `same`. -/
def ConvergesUpTo (same : Json → Json → Prop) (doc : Json) (op1 op2 : Operation) : Prop :=
  ∃ left right, applyThen doc op1 (transform op1 op2).2 = .ok left ∧
    applyThen doc op2 (transform op1 op2).1 = .ok right ∧ same left right

/-- Both orders end in the same document. -/
def Converges (doc : Json) (op1 op2 : Operation) : Prop :=
  ConvergesUpTo Eq doc op1 op2

theorem converges_iff {l r : Json} (hleft : applyThen doc op1 (transform op1 op2).2 = .ok l)
    (hright : applyThen doc op2 (transform op1 op2).1 = .ok r) : Converges doc op1 op2 ↔ l = r := by
  constructor
  · rintro ⟨left', right', hleft', hright', heq⟩
    cases hleft.symm.trans hleft'
    cases hright.symm.trans hright'
    exact heq
  · intro heq
    exact ⟨l, r, hleft, hright, heq⟩

theorem applyThen_of_ok {next : Json} (h : apply doc first = .ok next) (second : Operation) :
    applyThen doc first second = apply next second := by
  simp [applyThen, h, bind, Except.bind]

theorem applyThen_array {second : Operation} (hpath : first.path ≠ [])
    (hsame : second.path = first.path) (h : doc.at? first.path = some (.arr items))
    (hfirst : EditsArray first) (hsecond : EditsArray second) :
    applyThen doc first second =
      .ok (doc.replaceAt first.path (.arr (editItems second (editItems first items)))) := by
  rw [applyThen_of_ok (apply_array hpath h hfirst)]
  have hnext := at?_replaceAt_self h (.arr (editItems first items))
  rw [apply_array (by rwa [hsame]) (by rwa [hsame]) hsecond, hsame, replaceAt_replaceAt h]

theorem converges_iff_items (hpath : op1.path ≠ []) (hsame : op2.path = op1.path)
    (hdoc : doc.at? op1.path = some (.arr items)) (h1 : EditsArray op1) (h2 : EditsArray op2)
    (hpath1 : (transform op1 op2).1.path = op1.path)
    (hpath2 : (transform op1 op2).2.path = op1.path) (h1' : EditsArray (transform op1 op2).1)
    (h2' : EditsArray (transform op1 op2).2) :
    Converges doc op1 op2 ↔
      editItems (transform op1 op2).2 (editItems op1 items) =
        editItems (transform op1 op2).1 (editItems op2 items) := by
  rw [converges_iff (applyThen_array hpath hpath2 hdoc h1 h2')
    (applyThen_array (by rwa [hsame]) (hpath1.trans hsame.symm) (by rwa [hsame]) h2 h1'), hsame]
  constructor
  · intro h
    exact Json.arr.inj (replaceAt_injective hdoc h)
  · intro h
    rw [h]

theorem convergesUpTo_swap {same : Json → Json → Prop} (hsymm : ∀ a b, same a b → same b a)
    (h : transform op2 op1 = (transform op1 op2).swap) :
    ConvergesUpTo same doc op2 op1 ↔ ConvergesUpTo same doc op1 op2 := by
  simp only [ConvergesUpTo, h, Prod.fst_swap, Prod.snd_swap]
  constructor
  · rintro ⟨left, right, hleft, hright, heq⟩
    exact ⟨right, left, hright, hleft, hsymm _ _ heq⟩
  · rintro ⟨left, right, hleft, hright, heq⟩
    exact ⟨right, left, hright, hleft, hsymm _ _ heq⟩

theorem converges_swap (h : transform op2 op1 = (transform op1 op2).swap) :
    Converges doc op2 op1 ↔ Converges doc op1 op2 :=
  convergesUpTo_swap (fun _ _ => Eq.symm) h

theorem applyThen_array_null {second : Operation} (hpath : first.path ≠ [])
    (hsame : second.path = first.path) (h : doc.at? first.path = some (.arr items))
    (hfirst : EditsArray first) :
    applyThen doc first (nullUpdate second) = .ok (doc.replaceAt first.path .null) := by
  rw [applyThen_of_ok (apply_array hpath h hfirst)]
  have hnext := at?_replaceAt_self h (.arr (editItems first items))
  rw [apply_update (by rwa [hsame]) (by rw [hsame]; exact hnext)
    (rfl : (nullUpdate second).type = .update) rfl, hsame, replaceAt_replaceAt h]

end Qontinui.OperationalTransform
