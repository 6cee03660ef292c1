import Qontinui.BuildRecords.Violations

/-!
What the build-record gate promises: it returns a list for every document, and every value of a
document with an empty list stands at an allowlisted place and passed the scan. It keeps the
promise but for the documents whose text has no UTF-8 form.
-/

namespace Qontinui.BuildRecords

open PyJson (get? mem_of_get? depth_of_get? depth_le_items hasSurrogate_dumpsText)

/-! ### Places -/

inductive Step where
  | key (key : PyStr)
  | index (i : Nat)
  deriving Repr, DecidableEq

/-- A value stands at the end of a path through a document. -/
inductive At (v : PyJson) : List Step → PyJson → Prop
  | root : At v [] v
  | key {fields : List (PyStr × PyJson)} {key : PyStr} {sub : PyJson} {path : List Step}
      (hmem : (key, sub) ∈ fields) (h : At v path sub) : At v (.key key :: path) (.dict fields)
  | index {items : List PyJson} {i : Nat} {item : PyJson} {path : List Step}
      (hget : items[i]? = some item) (h : At v path item) : At v (.index i :: path) (.list items)

def shapeAt? : Shape → List Step → Option Shape
  | shape, [] => some shape
  | .keys allowed, .key key :: path => (shapeOf? allowed key).bind fun entry => shapeAt? entry.2 path
  | .list item, .index _ :: path => shapeAt? item path
  | _, _ :: _ => none

section Python

variable (py : Python)

/-- What the content scan promises of a string. -/
structure Scanned (repos : List PyStr) (text : PyStr) : Prop where
  no_hidden : hasHiddenCharacters py text = false
  no_uuid : searchUuid (normalizeForScan py text) = false
  no_email : searchEmail (normalizeForScan py text) = false
  tokens : ∀ token ∈ repoTokens py (normalizeForScan py text), token ∈ repos

/-- A publishable document: every value of it at a declared place, and every string but the
schema literal scanned. -/
structure Publishable (fields : List (PyStr × PyJson)) : Prop where
  placed : ∀ path v, At v path (.dict fields) → (shapeAt? buildRecordAllowlist path).isSome
  scanned : ∀ path s, At (.str s) path (.dict fields) →
    ∃ slot, shapeAt? buildRecordAllowlist path = some (.leaf slot) ∧
      (slot = .schema ∧ s = codePoints buildRecordSchema ∨
        slot ≠ .schema ∧ Scanned py (publicRepos py fields) s)

/-! ### The walk -/

variable {py}

theorem append_out_eq_nil {first second : Findings} (h : (first.append second).out = []) :
    first.out = [] ∧ second.out = [] :=
  List.append_eq_nil_iff.mp h

variable {fields : List (PyStr × PyJson)} {path : String} {shape : Shape} {names : List PyStr}
  {document : PyJson}

theorem walkFields_mem {allowed : List (String × Shape)}
    (h : (walkFields py fields allowed path).out = []) {key : PyStr} {sub : PyJson}
    (hmem : (key, sub) ∈ fields) : ∃ name shape child, shapeOf? allowed key = some (name, shape) ∧
      (walk py sub shape child).out = [] ∧
      (walk py sub shape child).strings ⊆ (walkFields py fields allowed path).strings := by
  induction fields with
  | nil => cases hmem
  | cons field rest ih =>
      obtain ⟨k, value⟩ := field
      rw [walkFields] at h ⊢
      obtain ⟨hfirst, hrest⟩ := append_out_eq_nil h
      rcases List.mem_cons.mp hmem with heq | hmem
      · cases heq
        cases hshape : shapeOf? allowed key with
        | none =>
            rw [hshape] at hfirst
            cases hfirst
        | some entry =>
            rw [hshape] at hfirst
            exact ⟨entry.1, entry.2, _, rfl, hfirst, List.subset_append_left _ _⟩
      · obtain ⟨name, shape, child, hshape, hout, hsub⟩ := ih hrest hmem
        exact ⟨name, shape, child, hshape, hout,
          fun entry hentry => List.mem_append_right _ (hsub hentry)⟩

theorem walkItems_mem {items : List PyJson} {index i : Nat}
    (h : (walkItems py items shape path index).out = []) {item : PyJson}
    (hget : items[i]? = some item) : ∃ child, (walk py item shape child).out = [] ∧
      (walk py item shape child).strings ⊆ (walkItems py items shape path index).strings := by
  induction items generalizing index i with
  | nil => cases hget
  | cons first rest ih =>
      rw [walkItems] at h ⊢
      obtain ⟨hfirst, hrest⟩ := append_out_eq_nil h
      cases i with
      | zero =>
          cases hget
          exact ⟨_, hfirst, List.subset_append_left _ _⟩
      | succ i =>
          obtain ⟨child, hout, hsub⟩ := ih hrest hget
          exact ⟨child, hout, fun entry hentry => List.mem_append_right _ (hsub hentry)⟩

theorem walk_dict (h : (walk py (.dict fields) shape path).out = []) :
    ∃ allowed, shape = .keys allowed ∧
      walk py (.dict fields) shape path = walkFields py fields allowed path := by
  cases shape with
  | leaf slot =>
      rw [walk] at h
      cases h
  | list item =>
      rw [walk] at h
      · cases h
      · rintro _ ⟨⟩
  | keys allowed => exact ⟨allowed, rfl, by rw [walk]⟩

theorem walk_list {items : List PyJson} (h : (walk py (.list items) shape path).out = []) :
    ∃ item, shape = .list item ∧
      walk py (.list items) shape path = walkItems py items item path 0 := by
  cases shape with
  | leaf slot =>
      rw [walk] at h
      cases h
  | list item => exact ⟨item, rfl, by rw [walk]⟩
  | keys allowed =>
      rw [walk] at h
      · cases h
      · rintro _ ⟨⟩

theorem walk_str {s : PyStr} (h : (walk py (.str s) shape path).out = []) :
    ∃ slot, shape = .leaf slot ∧
      (slot = .schema ∧ s = codePoints buildRecordSchema ∨
        slot ≠ .schema ∧ (placeOf path, s) ∈ (walk py (.str s) shape path).strings) := by
  cases shape with
  | keys | list =>
      rw [walk] at h
      · cases h
      · rintro _ ⟨⟩
  | leaf slot =>
      refine ⟨slot, rfl, ?_⟩
      rw [walk, walkLeaf] at h ⊢
      dsimp only at h ⊢
      split at h
      · cases h
      · rename_i hlong
        rw [if_neg hlong]
        split at h
        · rename_i hok
          rw [if_pos hok]
          by_cases hschema : slot = .schema
          · subst hschema
            exact .inl ⟨rfl, beq_iff_eq.mp hok⟩
          · rw [if_neg hschema]
            exact .inr ⟨hschema, List.mem_singleton_self _⟩
        · cases h

theorem walk_at {v w : PyJson} {steps : List Step} (hat : At w steps v)
    (h : (walk py v shape path).out = []) :
    ∃ sub child, shapeAt? shape steps = some sub ∧ (walk py w sub child).out = [] ∧
      (walk py w sub child).strings ⊆ (walk py v shape path).strings := by
  induction hat generalizing shape path with
  | root => exact ⟨shape, path, by rw [shapeAt?], h, List.Subset.refl _⟩
  | key hmem _ ih =>
      obtain ⟨allowed, rfl, hwalk⟩ := walk_dict h
      rw [hwalk] at h ⊢
      obtain ⟨name, sub, child, hshape, hout, hsub⟩ := walkFields_mem h hmem
      obtain ⟨inner, place, hinner, hclean, hstrings⟩ := ih hout
      refine ⟨inner, place, ?_, hclean, List.Subset.trans hstrings hsub⟩
      rw [shapeAt?, hshape]
      exact hinner
  | index hget _ ih =>
      obtain ⟨item, rfl, hwalk⟩ := walk_list h
      rw [hwalk] at h ⊢
      obtain ⟨child, hout, hsub⟩ := walkItems_mem h hget
      obtain ⟨inner, place, hinner, hclean, hstrings⟩ := ih hout
      exact ⟨inner, place, by rw [shapeAt?, hinner], hclean, List.Subset.trans hstrings hsub⟩

/-! ### The scan -/

theorem scanned_of_scanString {repos : List PyStr} {place : String} {text : PyStr}
    (h : scanString py names repos place text = []) : Scanned py repos text := by
  rw [scanString] at h
  split at h
  · cases h
  · rename_i hhidden
    dsimp only at h
    obtain ⟨hrest, hemail⟩ := List.append_eq_nil_iff.mp h
    obtain ⟨hrest, huuid⟩ := List.append_eq_nil_iff.mp hrest
    obtain ⟨_, htokens⟩ := List.append_eq_nil_iff.mp hrest
    have hfalse : ∀ {b : Bool} {message : String},
        (if b = true then [message] else []) = [] → b = false := by
      intro b message hnil
      cases b with
      | false => rfl
      | true => cases hnil
    refine ⟨Bool.eq_false_iff.mpr hhidden, hfalse huuid, hfalse hemail, fun token htoken => ?_⟩
    have hnone := List.any_eq_false.mp (hfalse htokens) token htoken
    rw [Bool.not_eq_true, Bool.not_eq_false', List.contains_iff_mem] at hnone
    exact hnone

/-! ### What is raised -/

theorem tooLarge_of_deep (h : py.dumpsDepth < document.depth) :
    tooLarge py document = .ok true := by
  rw [tooLarge, dumps, if_pos h]

theorem tooLarge_of_encodable (hdeep : document.depth ≤ py.dumpsDepth)
    (h : ∀ s ∈ document.strings, hasSurrogate s = false) :
    ∃ large, tooLarge py document = .ok large := by
  have htext : hasSurrogate document.dumpsText = false := by
    rw [hasSurrogate_dumpsText, List.any_eq_false]
    intro s hs
    rw [h s hs]
    decide
  rw [tooLarge, dumps, if_neg (by omega)]
  dsimp only
  rw [encodedLength_eq_ok htext]
  exact ⟨_, rfl⟩

theorem tooLarge_of_surrogate (hdeep : document.depth ≤ py.dumpsDepth) {s : PyStr}
    (hs : s ∈ document.strings) (h : hasSurrogate s = true) :
    tooLarge py document = .error .unicodeEncodeError := by
  have htext : hasSurrogate document.dumpsText = true := by
    rw [hasSurrogate_dumpsText, List.any_eq_true]
    exact ⟨s, hs, h⟩
  rw [tooLarge, dumps, if_neg (by omega)]
  dsimp only
  rw [encodedLength_eq_error htext]
  rfl

theorem pyString_ok {value : PyJson} (h : value.depth ≤ py.reprDepth) :
    ∃ text, pyString py value = .ok text := by
  by_cases hstr : ∃ s, value = .str s
  · obtain ⟨s, rfl⟩ := hstr
    exact ⟨s, rfl⟩
  · refine ⟨value.reprText py.isprintable, ?_⟩
    rw [pyString, if_neg (Nat.not_lt.mpr h)]
    rintro s rfl
    exact hstr ⟨s, rfl⟩

theorem prViolations_ok {repos : List PyStr} {prs : List PyJson}
    (h : ∀ pr ∈ prs, pr.depth ≤ py.reprDepth) (index : Nat) :
    ∃ out, prViolations py repos prs index = .ok out := by
  induction prs generalizing index with
  | nil => exact ⟨[], rfl⟩
  | cons pr rest ih =>
      obtain ⟨later, hlater⟩ := ih (fun pr hpr => h pr (List.mem_cons_of_mem _ hpr)) (index + 1)
      by_cases hdict : ∃ fields, pr = .dict fields
      · obtain ⟨fields, rfl⟩ := hdict
        have hdepth : ((get? fields "repo").getD (.str [])).depth ≤ py.reprDepth := by
          cases hrepo : get? fields "repo" with
          | none => exact Nat.zero_le _
          | some repo => exact (depth_of_get? hrepo).le.trans (h _ List.mem_cons_self)
        obtain ⟨repo, hrepo⟩ := pyString_ok hdepth
        rw [prViolations, hrepo, hlater]
        exact ⟨_, rfl⟩
      · refine ⟨later, ?_⟩
        rw [prViolations, hlater]
        rintro fields rfl
        exact hdict ⟨fields, rfl⟩

theorem depth_of_prs : ∀ pr ∈ prsOf fields, pr.depth ≤ (PyJson.dict fields).depth := by
  intro pr hpr
  rw [prsOf] at hpr
  split at hpr
  · rename_i prs hprs
    have hlist := depth_of_get? hprs
    have hitem := depth_le_items hpr
    rw [PyJson.depth] at hlist
    omega
  · cases hpr

theorem violations_of_dict (h : tooLarge py (.dict fields) = .ok false) :
    ∃ prs, ∀ names, buildRecordViolations py (.dict fields) names =
      .ok ((walk py (.dict fields) buildRecordAllowlist "").out ++ schemaViolations fields ++
        (walk py (.dict fields) buildRecordAllowlist "").strings.flatMap (fun entry =>
          scanString py names (publicRepos py fields) entry.1 entry.2) ++ prs) := by
  have hdeep : (PyJson.dict fields).depth ≤ py.dumpsDepth := by
    refine Nat.le_of_not_lt fun hlt => ?_
    rw [tooLarge_of_deep hlt] at h
    cases h
  have hrepr : ∀ pr ∈ prsOf fields, pr.depth ≤ py.reprDepth := fun pr hpr =>
    (depth_of_prs pr hpr).trans (hdeep.trans py.dumps_le_repr)
  obtain ⟨prs, hprs⟩ : ∃ prs, prViolations py (publicRepos py fields) (prsOf fields) 0 = .ok prs :=
    prViolations_ok hrepr 0
  refine ⟨prs, fun names => ?_⟩
  rw [buildRecordViolations, h]
  change (prViolations py (publicRepos py fields) (prsOf fields) 0 >>= _) = _
  rw [hprs]
  rfl

theorem violations_of_not_dict (h : tooLarge py document = .ok false)
    (hdict : ∀ fields, document ≠ .dict fields) :
    buildRecordViolations py document names =
      .ok ["<root>: expected an object, got " ++ document.typeName] := by
  have hwalk : walk py document buildRecordAllowlist "" =
      .violation (placeOf "" ++ ": expected an object, got " ++ document.typeName) := by
    rw [buildRecordAllowlist, walk]
    exact hdict
  rw [buildRecordViolations, h]
  cases document with
  | dict fields => exact absurd rfl (hdict fields)
  | _ => exact congrArg (fun found => Except.ok (Findings.out found)) hwalk

theorem publishable_of_tooLarge {large : Bool} (h : tooLarge py document = .ok large) :
    ∃ out, buildRecordViolations py document names = .ok out ∧
      (out = [] → ∃ fields, document = .dict fields ∧ Publishable py fields) := by
  cases large with
  | true =>
      refine ⟨["<root>: larger than " ++ toString maxDocumentBytes ++ " bytes serialized"], ?_,
        fun hnil => nomatch hnil⟩
      rw [buildRecordViolations, h]
      rfl
  | false =>
      by_cases hdict : ∃ fields, document = .dict fields
      · obtain ⟨fields, rfl⟩ := hdict
        obtain ⟨prs, hout⟩ := violations_of_dict h
        refine ⟨_, hout names, fun hnil => ⟨fields, rfl, ?_⟩⟩
        obtain ⟨hnil, _⟩ := List.append_eq_nil_iff.mp hnil
        obtain ⟨hnil, hscans⟩ := List.append_eq_nil_iff.mp hnil
        obtain ⟨hwalk, _⟩ := List.append_eq_nil_iff.mp hnil
        refine ⟨fun path v hat => ?_, fun path s hat => ?_⟩
        · obtain ⟨shape, _, hshape, _⟩ := walk_at hat hwalk
          rw [hshape]
          rfl
        · obtain ⟨shape, child, hshape, hclean, hstrings⟩ := walk_at hat hwalk
          obtain ⟨slot, rfl, hslot⟩ := walk_str hclean
          refine ⟨slot, hshape, hslot.imp_right fun hcollected => ⟨hcollected.1, ?_⟩⟩
          exact scanned_of_scanString
            (List.flatMap_eq_nil_iff.mp hscans _ (hstrings hcollected.2))
      · refine ⟨_, violations_of_not_dict h fun fields heq => hdict ⟨fields, heq⟩,
          fun hnil => nomatch hnil⟩

end Python

/-- The gate keeps its promise on a document exactly where `json.dumps` refuses it for its depth,
or no string or key of it has a lone surrogate. -/
theorem gate_refuses_or_scans_iff (py : Python) (document : PyJson) (names : List PyStr) :
    (∃ out, buildRecordViolations py document names = .ok out ∧
      (out = [] → ∃ fields, document = .dict fields ∧ Publishable py fields)) ↔
    (py.dumpsDepth < document.depth ∨ ∀ s ∈ document.strings, hasSurrogate s = false) := by
  constructor
  · rintro ⟨out, hout, _⟩
    by_contra hnot
    obtain ⟨hdeep, hstrings⟩ := not_or.mp hnot
    obtain ⟨s, hs⟩ := not_forall.mp hstrings
    obtain ⟨hmem, hsurrogate⟩ := Classical.not_imp.mp hs
    rw [buildRecordViolations, tooLarge_of_surrogate (Nat.le_of_not_lt hdeep) hmem
      (Bool.eq_true_of_not_eq_false hsurrogate)] at hout
    cases hout
  · rintro (hdeep | hstrings)
    · exact publishable_of_tooLarge (tooLarge_of_deep hdeep)
    · by_cases hdeep : py.dumpsDepth < document.depth
      · exact publishable_of_tooLarge (tooLarge_of_deep hdeep)
      · obtain ⟨large, hlarge⟩ := tooLarge_of_encodable (Nat.le_of_not_lt hdeep) hstrings
        exact publishable_of_tooLarge hlarge

example : buildRecordViolations .ascii (.dict [
    (codePoints "schema", .str (codePoints buildRecordSchema)),
    (codePoints "product", .dict [
      (codePoints "title", .str (codePoints "Ship acme / site")),
      (codePoints "repos", .list [.str (codePoints "Acme/Site")])])]) [] = .ok [] := by
  decide +kernel

def surrogateTitle : PyJson :=
  .dict [(codePoints "schema", .str (codePoints buildRecordSchema)),
    (codePoints "product", .dict [(codePoints "title", .str [0xd800])])]

/-- The encoding of the size check raises on it. -/
theorem surrogate_title_raises : ¬ ∀ (py : Python) (document : PyJson) (names : List PyStr),
    ∃ out, buildRecordViolations py document names = .ok out ∧
      (out = [] → ∃ fields, document = .dict fields ∧ Publishable py fields) := by
  intro h
  obtain ⟨out, hout, _⟩ := h .ascii surrogateTitle []
  have hraise : tooLarge .ascii surrogateTitle = .error .unicodeEncodeError :=
    tooLarge_of_surrogate (s := [0xd800]) (by decide) (by decide) (by decide)
  rw [buildRecordViolations, hraise] at hout
  cases hout

end Qontinui.BuildRecords
