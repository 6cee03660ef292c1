import Qontinui.BuildRecords.Gate

/-!
What the messages of `build_record_violations` are made of: the allowlisted keys, the places
of the unlisted ones, the names of types and the checks that fail. Two documents alike in these
get the same messages, whatever their strings, their unlisted keys and the excluded names say.
-/

namespace Qontinui.BuildRecords

open PyJson (get?)

/-- The checks of the content scan. -/
inductive Check where
  | hidden
  | excludedName
  | repoToken
  | uuid
  | email
deriving DecidableEq, Repr

def Check.message : Check → String
  | .hidden => ": contains an invisible, control or overlay character"
  | .excludedName => ": names a repo excluded as not known public"
  | .repoToken => ": names an owner/name not in product.repos"
  | .uuid => ": contains a UUID-shaped identifier"
  | .email => ": contains an email-shaped identity"

inductive LeafCheck where
  | scalar
  | length
  | slot
deriving DecidableEq, Repr

section Python

variable (py : Python)

def failedChecks (excludedNames repos : List PyStr) (place : String) (text : PyStr) :
    List Check :=
  if hasHiddenCharacters py text then [.hidden]
  else
    let normalized := normalizeForScan py text
    let exempt := (excludedNameExemptPaths.map codePoints).contains
      (subIndex (isDecimal py) (codePoints place))
    (if !exempt && searchNames py excludedNames (py.lower normalized) then [.excludedName]
      else []) ++
    (if (repoTokens py normalized).any (fun token => !repos.contains token) then [.repoToken]
      else []) ++
    (if searchUuid normalized then [.uuid] else []) ++
    (if searchEmail normalized then [.email] else [])

def failedLeafCheck (slot : Slot) : PyJson → Option LeafCheck
  | .list _ => some .scalar
  | .dict _ => some .scalar
  | .str s =>
      if tooLong py s then some .length
      else if slotOk py slot (.str s) then none else some .slot
  | value => if slotOk py slot value then none else some .slot

/-- Whether the repo of a pull request is none of `product.repos`. -/
def failsRepo (repos : List PyStr) (pr : List (PyStr × PyJson)) : Except PyError Bool := do
  let repo ← pyString py ((get? pr "repo").getD (.str []))
  return !repos.contains (py.lower repo)

end Python

/-- The checks that a string at a place fails, in each of two runs. -/
structure TwoRuns where
  py : Python
  first : String → PyStr → List Check
  second : String → PyStr → List Check

section Alike

variable (runs : TwoRuns) (typeOf : PyJson → String)

/-- Two leaves of one type that fail the same checks. -/
structure AlikeLeaf (slot : Slot) (place : String) (v w : PyJson) : Prop where
  type : typeOf v = typeOf w
  leaf : failedLeafCheck runs.py slot v = failedLeafCheck runs.py slot w
  content : ∀ s t, v = .str s → w = .str t → runs.first place s = runs.second place t

mutual

/-- Two values alike at a place of the allowlist. -/
inductive Alike : PyJson → PyJson → Shape → String → Prop
  | leaf {v w : PyJson} {slot : Slot} {path : String}
      (h : AlikeLeaf runs typeOf slot (placeOf path) v w) : Alike v w (.leaf slot) path
  | object {fields others : List (PyStr × PyJson)} {allowed : List (String × Shape)}
      {path : String} (h : AlikeFields fields others allowed path) :
      Alike (.dict fields) (.dict others) (.keys allowed) path
  | noObject {v w : PyJson} {allowed : List (String × Shape)} {path : String}
      (hv : v.typeName ≠ "dict") (hw : w.typeName ≠ "dict") (h : typeOf v = typeOf w) :
      Alike v w (.keys allowed) path
  | list {items others : List PyJson} {item : Shape} {path : String}
      (h : AlikeItems items others item path 0) : Alike (.list items) (.list others) (.list item) path
  | noList {v w : PyJson} {item : Shape} {path : String}
      (hv : v.typeName ≠ "list") (hw : w.typeName ≠ "list") (h : typeOf v = typeOf w) :
      Alike v w (.list item) path

/-- Two objects with the same allowlisted keys, and unlisted ones at the same places. -/
inductive AlikeFields : List (PyStr × PyJson) → List (PyStr × PyJson) →
    List (String × Shape) → String → Prop
  | nil {allowed : List (String × Shape)} {path : String} : AlikeFields [] [] allowed path
  | listed {key : PyStr} {v w : PyJson} {name : String} {shape : Shape}
      {fields others : List (PyStr × PyJson)} {allowed : List (String × Shape)} {path : String}
      (hkey : shapeOf? allowed key = some (name, shape))
      (h : Alike v w shape (if path = "" then name else path ++ "." ++ name))
      (hrest : AlikeFields fields others allowed path) :
      AlikeFields ((key, v) :: fields) ((key, w) :: others) allowed path
  | unlisted {key other : PyStr} {v w : PyJson} {fields others : List (PyStr × PyJson)}
      {allowed : List (String × Shape)} {path : String} (hkey : shapeOf? allowed key = none)
      (hother : shapeOf? allowed other = none) (hrest : AlikeFields fields others allowed path) :
      AlikeFields ((key, v) :: fields) ((other, w) :: others) allowed path

/-- Two lists of one length whose items are alike. -/
inductive AlikeItems : List PyJson → List PyJson → Shape → String → Nat → Prop
  | nil {shape : Shape} {path : String} {index : Nat} : AlikeItems [] [] shape path index
  | cons {v w : PyJson} {items others : List PyJson} {shape : Shape} {path : String} {index : Nat}
      (h : Alike v w shape (path ++ "[" ++ toString index ++ "]"))
      (hrest : AlikeItems items others shape path (index + 1)) :
      AlikeItems (v :: items) (w :: others) shape path index

end

end Alike

section Walk

variable {runs : TwoRuns}

/-- Two walks with the same violations, and strings at the same places that fail the same
checks. -/
structure AlikeFindings (runs : TwoRuns) (found other : Findings) : Prop where
  out : found.out = other.out
  strings : List.Forall₂ (fun a b => a.1 = b.1 ∧ runs.first a.1 a.2 = runs.second b.1 b.2)
    found.strings other.strings

theorem AlikeFindings.violation (message : String) :
    AlikeFindings runs (.violation message) (.violation message) := ⟨rfl, .nil⟩

theorem AlikeFindings.append {found other found' other' : Findings}
    (h : AlikeFindings runs found other) (h' : AlikeFindings runs found' other') :
    AlikeFindings runs (found.append found') (other.append other') :=
  ⟨congrArg₂ (· ++ ·) h.out h'.out, List.rel_append h.strings h'.strings⟩

def LeafCheck.message (slot : Slot) (place typeName : String) : LeafCheck → String
  | .scalar => place ++ ": expected a scalar, got " ++ typeName
  | .length => place ++ ": longer than " ++ toString maxScannedStringChars ++ " characters"
  | .slot => place ++ ": not a valid " ++ slot.value ++ " value"

theorem walkLeaf_out (py : Python) (slot : Slot) (v : PyJson) (path : String) :
    (walkLeaf py slot v path).out = (failedLeafCheck py slot v).toList.map
      (LeafCheck.message slot (placeOf path) v.typeName) := by
  unfold walkLeaf failedLeafCheck
  cases v with
  | list items =>
      have hmessage : LeafCheck.message slot (placeOf path) (PyJson.list items).typeName .scalar =
          placeOf path ++ ": expected a scalar, got list" := String.append_assoc
      exact congrArg (fun message => [message]) hmessage.symm
  | dict fields =>
      have hmessage : LeafCheck.message slot (placeOf path) (PyJson.dict fields).typeName .scalar =
          placeOf path ++ ": expected a scalar, got dict" := String.append_assoc
      exact congrArg (fun message => [message]) hmessage.symm
  | str | _ =>
      dsimp only
      split_ifs <;> rfl

def textOf : PyJson → List PyStr
  | .str s => [s]
  | _ => []

theorem walkLeaf_strings (py : Python) (slot : Slot) (v : PyJson) (path : String) :
    (walkLeaf py slot v path).strings =
      if failedLeafCheck py slot v = none ∧ slot ≠ .schema then
        (textOf v).map fun s => (placeOf path, s)
      else [] := by
  unfold walkLeaf failedLeafCheck textOf
  cases v with
  | str s =>
      dsimp only
      by_cases hlong : tooLong py s = true
      · simp [hlong, Findings.violation]
      · by_cases hslot : slotOk py slot (.str s) = true
        · cases slot <;> simp [hlong, hslot]
        · simp [hlong, hslot, Findings.violation]
  | list | dict => rfl
  | _ =>
      dsimp only
      split_ifs <;> rfl

variable {v : PyJson}

theorem str_of_typeName (h : v.typeName = "str") : ∃ s, v = .str s := by
  cases v with
  | str s => exact ⟨s, rfl⟩
  | _ => simp [PyJson.typeName] at h

theorem textOf_eq_nil (h : v.typeName ≠ "str") : textOf v = [] := by
  cases v with
  | str s => exact absurd rfl h
  | _ => rfl

theorem texts_alike {slot : Slot} {place : String} {w : PyJson}
    (h : AlikeLeaf runs PyJson.typeName slot place v w) :
    List.Forall₂ (fun s t => runs.first place s = runs.second place t) (textOf v) (textOf w) := by
  by_cases hstr : v.typeName = "str"
  · obtain ⟨s, rfl⟩ := str_of_typeName hstr
    obtain ⟨t, rfl⟩ := str_of_typeName (h.type.symm.trans hstr)
    exact .cons (h.content s t rfl rfl) .nil
  · rw [textOf_eq_nil hstr, textOf_eq_nil (h.type ▸ hstr)]
    exact .nil

theorem walkLeaf_alike {slot : Slot} {path : String} {w : PyJson}
    (h : AlikeLeaf runs PyJson.typeName slot (placeOf path) v w) :
    AlikeFindings runs (walkLeaf runs.py slot v path) (walkLeaf runs.py slot w path) := by
  constructor
  · rw [walkLeaf_out, walkLeaf_out, h.leaf, h.type]
  · rw [walkLeaf_strings, walkLeaf_strings, h.leaf]
    split
    · rw [List.forall₂_map_left_iff, List.forall₂_map_right_iff]
      exact (texts_alike h).imp fun s t hst => ⟨rfl, hst⟩
    · exact .nil

theorem walk_noObject (py : Python) (h : v.typeName ≠ "dict") (allowed : List (String × Shape))
    (path : String) : walk py v (.keys allowed) path =
      .violation (placeOf path ++ ": expected an object, got " ++ v.typeName) := by
  rw [walk]
  rintro fields rfl
  exact h rfl

theorem walk_noList (py : Python) (h : v.typeName ≠ "list") (item : Shape) (path : String) :
    walk py v (.list item) path =
      .violation (placeOf path ++ ": expected a list, got " ++ v.typeName) := by
  rw [walk]
  rintro items rfl
  exact h rfl

mutual

theorem walk_alike {v w : PyJson} {shape : Shape} {path : String}
    (h : Alike runs PyJson.typeName v w shape path) :
    AlikeFindings runs (walk runs.py v shape path) (walk runs.py w shape path) := by
  cases h with
  | leaf h =>
      rw [walk, walk]
      exact walkLeaf_alike h
  | object h =>
      rw [walk, walk]
      exact walkFields_alike h
  | noObject hv hw h =>
      rw [walk_noObject _ hv, walk_noObject _ hw, h]
      exact .violation _
  | list h =>
      rw [walk, walk]
      exact walkItems_alike h
  | noList hv hw h =>
      rw [walk_noList _ hv, walk_noList _ hw, h]
      exact .violation _

theorem walkFields_alike {fields others : List (PyStr × PyJson)}
    {allowed : List (String × Shape)} {path : String}
    (h : AlikeFields runs PyJson.typeName fields others allowed path) :
    AlikeFindings runs (walkFields runs.py fields allowed path)
      (walkFields runs.py others allowed path) := by
  cases h with
  | nil => exact ⟨by rw [walkFields], by rw [walkFields]; exact .nil⟩
  | listed hkey h hrest =>
      rw [walkFields, walkFields, hkey]
      exact (walk_alike h).append (walkFields_alike hrest)
  | unlisted hkey hother hrest =>
      rw [walkFields, walkFields, hkey, hother]
      exact (AlikeFindings.violation _).append (walkFields_alike hrest)

theorem walkItems_alike {items others : List PyJson} {shape : Shape} {path : String}
    {index : Nat} (h : AlikeItems runs PyJson.typeName items others shape path index) :
    AlikeFindings runs (walkItems runs.py items shape path index)
      (walkItems runs.py others shape path index) := by
  cases h with
  | nil => exact ⟨by rw [walkItems], by rw [walkItems]; exact .nil⟩
  | cons h hrest =>
      rw [walkItems, walkItems]
      exact (walk_alike h).append (walkItems_alike hrest)

end

end Walk

/-! ### The scan and the pull requests -/

section Rest

theorem scanString_eq (py : Python) (names repos : List PyStr) (place : String) (text : PyStr) :
    scanString py names repos place text =
      (failedChecks py names repos place text).map fun check => place ++ check.message := by
  unfold scanString failedChecks
  split
  · rfl
  · dsimp only
    split_ifs <;> rfl

theorem get?_cons (field : PyStr × PyJson) (fields : List (PyStr × PyJson)) (key : String) :
    get? (field :: fields) key =
      if field.1 = codePoints key then some field.2 else get? fields key := by
  unfold get?
  rw [List.find?_cons]
  by_cases h : field.1 = codePoints key
  · simp [h]
  · rw [if_neg h, beq_eq_false_iff_ne.mpr h]

variable {runs : TwoRuns} {typeOf : PyJson → String}

theorem get?_alike {fields others : List (PyStr × PyJson)} {allowed : List (String × Shape)}
    {path key : String} {shape : Shape}
    (h : AlikeFields runs typeOf fields others allowed path)
    (hshape : shapeOf? allowed (codePoints key) = some (key, shape)) :
    (get? fields key = none ∧ get? others key = none) ∨
      ∃ v w, get? fields key = some v ∧ get? others key = some w ∧
        Alike runs typeOf v w shape (if path = "" then key else path ++ "." ++ key) := by
  have hne : ∀ k, shapeOf? allowed k = none → k ≠ codePoints key := by
    rintro k hnone rfl
    cases hshape.symm.trans hnone
  induction fields generalizing others with
  | nil =>
      cases h
      exact .inl ⟨rfl, rfl⟩
  | cons field fields ih =>
      cases h with
      | @listed k v w name other _ others _ _ hkey h hrest =>
          rw [get?_cons, get?_cons]
          by_cases heq : k = codePoints key
          · subst heq
            cases hshape.symm.trans hkey
            rw [if_pos rfl, if_pos rfl]
            exact .inr ⟨v, w, rfl, rfl, h⟩
          · rw [if_neg heq, if_neg heq]
            exact ih hrest
      | unlisted hkey hother hrest =>
          rw [get?_cons, get?_cons, if_neg (hne _ hkey), if_neg (hne _ hother)]
          exact ih hrest

theorem prViolations_dict (py : Python) (repos : List PyStr) (pr : List (PyStr × PyJson))
    (rest : List PyJson) (index : Nat) : prViolations py repos (.dict pr :: rest) index = (do
      let fails ← failsRepo py repos pr
      let later ← prViolations py repos rest (index + 1)
      return (if fails then ["prs[" ++ toString index ++
        "].repo: not one of product.repos, so not known public"] else []) ++ later) := by
  rw [prViolations, failsRepo]
  cases hrepo : pyString py ((get? pr "repo").getD (.str [])) with
  | error e => rfl
  | ok repo =>
      cases hlater : prViolations py repos rest (index + 1) with
      | error e => rfl
      | ok later =>
          dsimp only [bind, Except.bind, pure, Except.pure]
          cases repos.contains (py.lower repo) <;> rfl

theorem prViolations_noObject (py : Python) (repos : List PyStr) {v : PyJson}
    (h : v.typeName ≠ "dict") (rest : List PyJson) (index : Nat) :
    prViolations py repos (v :: rest) index = prViolations py repos rest (index + 1) := by
  rw [prViolations]
  rintro pr rfl
  exact h rfl

theorem prViolations_alike {py : Python} {repos repos' : List PyStr} {items others : List PyJson}
    {allowed : List (String × Shape)} {path : String} {place : Nat} (index : Nat)
    (h : AlikeItems runs typeOf items others (.keys allowed) path place)
    (hfails : ∀ (i : Nat) pr other, items[i]? = some (PyJson.dict pr) →
      others[i]? = some (PyJson.dict other) → failsRepo py repos pr = failsRepo py repos' other) :
    prViolations py repos items index = prViolations py repos' others index := by
  induction items generalizing others index place with
  | nil =>
      cases h
      rw [prViolations, prViolations]
  | cons v items ih =>
      cases h with
      | cons h hrest =>
          have hlater := ih (index + 1) hrest fun i pr other hpr hother =>
            hfails (i + 1) pr other hpr hother
          cases h with
          | object h =>
              rw [prViolations_dict, prViolations_dict, hfails 0 _ _ rfl rfl, hlater]
          | noObject hv hw h =>
              rw [prViolations_noObject _ _ hv, prViolations_noObject _ _ hw, hlater]

theorem scans_alike {py : Python} {names names' repos repos' : List PyStr}
    {strings others : List (String × PyStr)}
    (h : List.Forall₂ (fun a b => a.1 = b.1 ∧
      failedChecks py names repos a.1 a.2 = failedChecks py names' repos' b.1 b.2)
      strings others) :
    strings.flatMap (fun entry => scanString py names repos entry.1 entry.2) =
      others.flatMap fun entry => scanString py names' repos' entry.1 entry.2 := by
  induction h with
  | nil => rfl
  | cons hentry _ ih =>
      obtain ⟨hplace, hchecks⟩ := hentry
      rw [List.flatMap_cons, List.flatMap_cons, ih, scanString_eq, scanString_eq, hchecks, hplace]

end Rest

/-! ### Documents -/

def fieldsOf : PyJson → List (PyStr × PyJson)
  | .dict fields => fields
  | _ => []

/-- What the strings of two documents fail, each with the names excluded in its run. -/
def runsOn (py : Python) (names names' : List PyStr) (document document' : PyJson) : TwoRuns where
  py := py
  first := failedChecks py names (publicRepos py (fieldsOf document))
  second := failedChecks py names' (publicRepos py (fieldsOf document'))

/-- Two documents of one shape whose leaves, and whose pull requests, fail the same checks. -/
structure AlikeDocuments (typeOf : PyJson → String) (py : Python) (names names' : List PyStr)
    (document document' : PyJson) : Prop where
  alike : Alike (runsOn py names names' document document') typeOf document document'
    buildRecordAllowlist ""
  repos : ∀ (i : Nat) pr other, (prsOf (fieldsOf document))[i]? = some (.dict pr) →
    (prsOf (fieldsOf document'))[i]? = some (.dict other) →
    failsRepo py (publicRepos py (fieldsOf document)) pr =
      failsRepo py (publicRepos py (fieldsOf document')) other

section Documents

variable {py : Python} {names names' : List PyStr} {fields others : List (PyStr × PyJson)}

theorem schemaViolations_alike {runs : TwoRuns} {typeOf : PyJson → String}
    {allowed : List (String × Shape)} {path : String}
    (h : AlikeFields runs typeOf fields others allowed path) {shape : Shape}
    (hschema : shapeOf? allowed (codePoints "schema") = some ("schema", shape)) :
    schemaViolations fields = schemaViolations others := by
  unfold schemaViolations
  rcases get?_alike h hschema with ⟨hnone, hnone'⟩ | ⟨v, w, hv, hw, -⟩
  · rw [hnone, hnone']
  · rw [hv, hw]
    rfl

theorem prsOf_eq {items : List PyJson} (h : get? fields "prs" = some (.list items)) :
    prsOf fields = items := by
  rw [prsOf, h]

theorem prsOf_eq_nil (h : ∀ items, get? fields "prs" ≠ some (.list items)) :
    prsOf fields = [] := by
  unfold prsOf
  split
  · next items hitems => exact absurd hitems (h items)
  · rfl

theorem prs_alike {runs : TwoRuns} {typeOf : PyJson → String}
    {allowed : List (String × Shape)} {path : String}
    (h : AlikeFields runs typeOf fields others allowed path) {prKeys : List (String × Shape)}
    (hprs : shapeOf? allowed (codePoints "prs") = some ("prs", .list (.keys prKeys)))
    {repos repos' : List PyStr}
    (hfails : ∀ (i : Nat) pr other, (prsOf fields)[i]? = some (.dict pr) →
      (prsOf others)[i]? = some (.dict other) →
      failsRepo py repos pr = failsRepo py repos' other) :
    prViolations py repos (prsOf fields) 0 = prViolations py repos' (prsOf others) 0 := by
  rcases get?_alike h hprs with ⟨hnone, hnone'⟩ | ⟨v, w, hv, hw, halike⟩
  · rw [prsOf_eq_nil (by simp [hnone]), prsOf_eq_nil (by simp [hnone'])]
    rfl
  · cases halike with
    | list hitems =>
        rw [prsOf_eq hv, prsOf_eq hw] at *
        exact prViolations_alike 0 hitems hfails
    | noList hv' hw' _ =>
        have hne : ∀ {v : PyJson}, v.typeName ≠ "list" → ∀ items, some v ≠ some (.list items) := by
          rintro v htype items ⟨⟩
          exact htype rfl
        rw [prsOf_eq_nil (hv ▸ hne hv'), prsOf_eq_nil (hw ▸ hne hw')]
        rfl

theorem allowlist_keys : ∃ allowed prKeys, buildRecordAllowlist = .keys allowed ∧
    shapeOf? allowed (codePoints "schema") = some ("schema", .leaf .schema) ∧
    shapeOf? allowed (codePoints "prs") = some ("prs", .list (.keys prKeys)) := by
  exact ⟨_, _, rfl, rfl, rfl⟩

theorem violations_dict (h : tooLarge py (.dict fields) = .ok false) :
    buildRecordViolations py (.dict fields) names = (do
      let prs ← prViolations py (publicRepos py fields) (prsOf fields) 0
      return (walk py (.dict fields) buildRecordAllowlist "").out ++ schemaViolations fields ++
        (walk py (.dict fields) buildRecordAllowlist "").strings.flatMap (fun entry =>
          scanString py names (publicRepos py fields) entry.1 entry.2) ++ prs) := by
  rw [buildRecordViolations, h]
  rfl

theorem violations_alike {document document' : PyJson}
    (h : AlikeDocuments PyJson.typeName py names names' document document')
    (hsize : tooLarge py document = .ok false) (hsize' : tooLarge py document' = .ok false) :
    buildRecordViolations py document names = buildRecordViolations py document' names' := by
  have halike := h.alike
  have hfound := walk_alike halike
  obtain ⟨allowed, prKeys, hallowed, hschema, hprs⟩ := allowlist_keys
  rw [hallowed] at halike
  cases halike with
  | @object fields others _ _ hfields =>
      have hout : (walk py (.dict fields) buildRecordAllowlist "").out =
        (walk py (.dict others) buildRecordAllowlist "").out := hfound.out
      have hscans : (walk py (.dict fields) buildRecordAllowlist "").strings.flatMap (fun entry =>
            scanString py names (publicRepos py fields) entry.1 entry.2) =
          (walk py (.dict others) buildRecordAllowlist "").strings.flatMap (fun entry =>
            scanString py names' (publicRepos py others) entry.1 entry.2) :=
        scans_alike hfound.strings
      have hrepos : prViolations py (publicRepos py fields) (prsOf fields) 0 =
          prViolations py (publicRepos py others) (prsOf others) 0 :=
        prs_alike hfields hprs h.repos
      rw [violations_dict hsize, violations_dict hsize', hout, hscans, hrepos,
        schemaViolations_alike hfields hschema]
  | noObject hv hw htype =>
      have hne : ∀ {v : PyJson}, v.typeName ≠ "dict" → ∀ fields, v ≠ .dict fields := by
        rintro v hdict fields rfl
        exact hdict rfl
      rw [violations_of_not_dict hsize (hne hv), violations_of_not_dict hsize' (hne hw), htype]

end Documents

theorem AlikeLeaf.str {runs : TwoRuns} {slot : Slot} {place : String} {s t : PyStr}
    (hleaf : failedLeafCheck runs.py slot (.str s) = failedLeafCheck runs.py slot (.str t))
    (hcontent : runs.first place s = runs.second place t) :
    AlikeLeaf runs PyJson.typeName slot place (.str s) (.str t) := by
  refine ⟨rfl, hleaf, ?_⟩
  rintro _ _ ⟨⟩ ⟨⟩
  exact hcontent

def titled (unlisted : String) (value : PyJson) (title : String) : PyJson :=
  .dict [(codePoints unlisted, value),
    (codePoints "product", .dict [(codePoints "title", .str (codePoints title))])]

def jsonType : PyJson → String
  | .null => "null"
  | .bool _ => "boolean"
  | .int _ => "number"
  | .float _ => "number"
  | .str _ => "string"
  | .list _ => "array"
  | .dict _ => "object"

def ofProduct (product : PyJson) : PyJson := .dict [(codePoints "product", product)]

/-- A record with one repo, and a pull request that names none. -/
def unnamedRepo (repo : String) : PyJson :=
  .dict [(codePoints "product", .dict [(codePoints "repos", .list [.str (codePoints repo)])]),
    (codePoints "prs", .list [.dict []])]

end Qontinui.BuildRecords
