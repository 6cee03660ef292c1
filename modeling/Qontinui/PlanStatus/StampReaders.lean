import Mathlib.Data.List.Induction
import Qontinui.PlanStatus.Classifier

/-!
The two readers of a document stamp: the adapter's, by the phrase that begins it, and that of
the cascade, by the whole of it. They agree on a terminal phrase only where nothing but
white space and marks follows it.
-/

namespace Qontinui.PlanStatus

/-! ### White space and marks -/

/-- The characters `normalize_status_word` strips at the end of a stamp. -/
def statusMarks : List Char := [',', '.', ':', '*']

/-- The text does not begin with white space. -/
def Begun (chars : List Char) : Prop := ∀ c ∈ chars.head?, isPySpace c = false

section Strip

variable {chars prefixed : List Char}

theorem Begun.of_leading (h : Begun chars) (hleading : prefixed <+: chars) : Begun prefixed := by
  intro c hc
  obtain ⟨rest, rfl⟩ := hleading
  cases prefixed with
  | nil => cases hc
  | cons first prefixed => exact h c hc

theorem Begun.dropWhile_eq (h : Begun chars) : chars.dropWhile isPySpace = chars := by
  cases chars with
  | nil => rfl
  | cons c rest => rw [List.dropWhile_cons_of_neg (by simp [h c rfl])]

theorem begun_pyStrip (chars : List Char) : Begun (pyStrip chars) := by
  have hdrop : Begun (chars.dropWhile isPySpace) := by
    intro c hc
    have hhead := List.head?_dropWhile_not isPySpace chars
    rw [Option.mem_def.mp hc] at hhead
    simpa using hhead
  exact hdrop.of_leading (List.rdropWhile_prefix _ _)

theorem Begun.pyStrip_eq (h : Begun chars) : pyStrip chars = chars.rdropWhile isPySpace := by
  rw [pyStrip, h.dropWhile_eq]

theorem rdropWhile_append_eq {p : Char → Bool} {tail : List Char}
    (hlast : ∀ c ∈ chars.getLast?, p c = false) (htail : ∀ c ∈ tail, p c = true) :
    (chars ++ tail).rdropWhile p = chars := by
  induction tail using List.reverseRecOn with
  | nil =>
      rw [List.append_nil, List.rdropWhile_eq_self_iff]
      intro hne
      simp [hlast _ (List.getLast?_eq_some_getLast hne)]
  | append_singleton tail c ih =>
      rw [← List.append_assoc, List.rdropWhile_concat_pos _ _ _ (htail c (by simp))]
      exact ih fun d hd => htail d (by simp [hd])

theorem not_isPySpace_getLast {c : Char} (hc : c ∈ (chars.rdropWhile isPySpace).getLast?) :
    isPySpace c = false := by
  have hne : chars.rdropWhile isPySpace ≠ [] := by
    intro hnil
    rw [hnil] at hc
    cases hc
  rw [List.getLast?_eq_some_getLast hne] at hc
  cases hc
  simpa using List.rdropWhile_last_not isPySpace chars hne

end Strip

/-! ### Words -/

section Words

variable {c d : Char} {rest : List Char}

theorem pySplit_last (hc : isPySpace c = false) : pySplit [c] = [[c]] := by
  rw [pySplit.eq_def]
  simp [hc]

theorem pySplit_gap (hc : isPySpace c = false) (hd : isPySpace d = true) :
    pySplit (c :: d :: rest) = [c] :: pySplit (d :: rest) := by
  rw [pySplit.eq_def]
  simp [hc, hd]

theorem pySplit_join {word : List Char} {words : List (List Char)} (hc : isPySpace c = false)
    (hd : isPySpace d = false) (hrest : pySplit (d :: rest) = word :: words) :
    pySplit (c :: d :: rest) = (c :: word) :: words := by
  rw [pySplit.eq_def]
  simp [hc, hd, hrest]

variable {chars : List Char}

theorem pySplit_word (hne : chars ≠ []) (h : ∀ c ∈ chars, isPySpace c = false) :
    pySplit chars = [chars] := by
  induction chars with
  | nil => exact absurd rfl hne
  | cons c rest ih =>
      have hc := h c List.mem_cons_self
      cases rest with
      | nil => exact pySplit_last hc
      | cons d rest =>
          have hrest := ih (by simp) fun e he => h e (List.mem_cons_of_mem _ he)
          exact pySplit_join hc (h d (by simp)) hrest

theorem pySplit_ne_nil (h : ∃ c ∈ chars, isPySpace c = false) : pySplit chars ≠ [] := by
  induction chars with
  | nil => simp at h
  | cons c rest ih =>
      cases hc : isPySpace c with
      | true =>
          have hrest : pySplit (c :: rest) = pySplit rest := by
            rw [pySplit.eq_def]
            simp [hc]
          rw [hrest]
          refine ih ?_
          simpa [hc] using h
      | false =>
          cases rest with
          | nil => simp [pySplit_last hc]
          | cons d rest =>
              cases hd : isPySpace d with
              | true => simp [pySplit_gap hc hd]
              | false =>
                  obtain ⟨word, words, hrest⟩ := List.exists_cons_of_ne_nil (ih ⟨d, by simp, hd⟩)
                  simp [pySplit_join hc hd hrest]

theorem two_le_length_pySplit (hfirst : Begun chars)
    (hlast : ∀ c ∈ chars.getLast?, isPySpace c = false) (hspace : ∃ c ∈ chars, isPySpace c = true) :
    2 ≤ (pySplit chars).length := by
  induction chars with
  | nil => simp at hspace
  | cons c rest ih =>
      have hc : isPySpace c = false := hfirst c rfl
      cases rest with
      | nil => simp [hc] at hspace
      | cons d rest =>
          rw [List.getLast?_cons_cons] at hlast
          cases hd : isPySpace d with
          | true =>
              rw [pySplit_gap hc hd, List.length_cons]
              have hend := List.getLast?_eq_some_getLast (List.cons_ne_nil d rest)
              have := List.length_pos_of_ne_nil
                (pySplit_ne_nil ⟨_, List.getLast_mem (List.cons_ne_nil d rest), hlast _ hend⟩)
              omega
          | false =>
              have hrest := ih (by rintro _ ⟨⟩; exact hd) hlast (by simpa [hc] using hspace)
              have hne : pySplit (d :: rest) ≠ [] := pySplit_ne_nil ⟨d, by simp, hd⟩
              obtain ⟨word, words, hwords⟩ := List.exists_cons_of_ne_nil hne
              rw [hwords] at hrest
              rw [pySplit_join hc hd hwords]
              exact hrest

end Words

def joinedWords (chars : List Char) : List Char := ['_'].intercalate (pySplit chars)

theorem joinedWords_cases {chars : List Char} (hfirst : Begun chars)
    (hlast : ∀ c ∈ chars.getLast?, isPySpace c = false) :
    (∀ c ∈ chars, isPySpace c = false) ∧ joinedWords chars = chars ∨
      ∃ before after, joinedWords chars = before ++ '_' :: after := by
  by_cases hspace : ∃ c ∈ chars, isPySpace c = true
  · have htwo := two_le_length_pySplit hfirst hlast hspace
    unfold joinedWords
    rcases hwords : pySplit chars with _ | ⟨first, _ | ⟨second, words⟩⟩
    · simp [hwords] at htwo
    · simp [hwords] at htwo
    · exact .inr ⟨first, ['_'].intercalate (second :: words), by simp [List.intercalate_cons_cons]⟩
  · have hnone : ∀ c ∈ chars, isPySpace c = false := by simpa using hspace
    refine .inl ⟨hnone, ?_⟩
    unfold joinedWords
    by_cases hne : chars = []
    · rw [hne]
      rfl
    · rw [pySplit_word hne hnone, List.intercalate_singleton]

section Lower

variable (u : PyUnicode)

/-- `str.lower`, on the characters of the text. -/
def lowerChars (chars : List Char) : List Char := (u.lower (String.ofList chars)).toList

/-- What `str.lower` leaves alone: white space and underscores, on whose two sides a text is
lowered apart, and the marks at the end of a text. -/
structure LowersApart : Prop where
  empty : lowerChars u [] = []
  separated : ∀ before c after, isPySpace c = true ∨ c = '_' →
    lowerChars u (before ++ c :: after) = lowerChars u before ++ c :: lowerChars u after
  marked : ∀ before, ∀ c ∈ statusMarks,
    lowerChars u (before ++ [c]) = lowerChars u before ++ [c]

variable {u}

theorem LowersApart.lowerChars_append (h : LowersApart u) {tail : List Char}
    (htail : ∀ c ∈ tail, isPySpace c = true ∨ c ∈ statusMarks) (chars : List Char) :
    lowerChars u (chars ++ tail) = lowerChars u chars ++ tail := by
  induction tail generalizing chars with
  | nil => simp
  | cons c tail ih =>
      have hc : lowerChars u (chars ++ [c]) = lowerChars u chars ++ [c] := by
        rcases htail c List.mem_cons_self with hspace | hmark
        · rw [h.separated chars c [] (.inl hspace), h.empty]
        · exact h.marked chars c hmark
      rw [List.append_cons, ih (fun d hd => htail d (List.mem_cons_of_mem _ hd)), hc,
        List.append_assoc, List.singleton_append]

end Lower

/-! ### The two readers -/

/-- The phrase begins the stamp and ends at a word boundary. -/
def MatchesPhrase (u : PyUnicode) (raw phrase : String) : Prop :=
  phrase.toList <+: lowerChars u (pyStrip raw.toList) ∧
    ∀ next ∈ ((lowerChars u (pyStrip raw.toList)).drop phrase.toList.length).head?,
      u.isalnum next = false ∧ next ≠ '_'

/-- The stamp is the phrase in some letter case, then white space, then marks. -/
def OnlyMarksFollow (u : PyUnicode) (raw phrase : String) : Prop :=
  ∃ word spaces marks, pyStrip raw.toList = word ++ spaces ++ marks ∧
    lowerChars u word = phrase.toList ∧ (∀ c ∈ spaces, isPySpace c = true) ∧
    ∀ c ∈ marks, c ∈ statusMarks

section Readers

variable {u : PyUnicode} {raw : String}

theorem adapterTokenizes_iff :
    adapterTokenizes u raw = true ↔ ∃ phrase ∈ adapterNinePhrases, MatchesPhrase u raw phrase := by
  have hnil : ∀ phrase ∈ adapterNinePhrases, phrase.toList ≠ [] := by decide
  simp only [adapterTokenizes, Bool.and_eq_true, List.any_eq_true, List.isPrefixOf_iff_prefix]
  constructor
  · rintro ⟨-, phrase, hphrase, hleading, hboundary⟩
    refine ⟨phrase, hphrase, hleading, ?_⟩
    intro next hnext
    unfold lowerChars at hnext
    cases hrest : (u.lower (String.ofList (pyStrip raw.toList))).toList.drop
        phrase.toList.length with
    | nil =>
        rw [hrest] at hnext
        cases hnext
    | cons first rest =>
        rw [hrest] at hnext hboundary
        cases hnext
        simpa using hboundary
  · rintro ⟨phrase, hphrase, hleading, hboundary⟩
    refine ⟨?_, phrase, hphrase, hleading, ?_⟩
    · have hne := hleading.ne_nil (hnil phrase hphrase)
      simpa [lowerChars] using hne
    · unfold lowerChars at hboundary
      cases hrest : (u.lower (String.ofList (pyStrip raw.toList))).toList.drop
          phrase.toList.length with
      | nil => rfl
      | cons first rest =>
          rw [hrest] at hboundary
          simpa using hboundary first rfl

theorem phrase_eq_of_leading : ∀ phrase ∈ adapterNinePhrases, ∀ other ∈ adapterNinePhrases,
    phrase.toList <+: other.toList → phrase = other := by
  decide

theorem normalizeStatusWord_toList :
    (normalizeStatusWord u raw).toList =
      lowerChars u (joinedWords (pyStrip (pyRstrip statusMarks (pyStrip raw.toList)))) := by
  have hjoin : ∀ words : List (List Char),
      String.intercalate "_" (words.map String.ofList) =
        String.ofList (['_'].intercalate words) := by
    intro words
    apply String.toList_injective
    simp [Function.comp_def]
  rw [normalizeStatusWord, hjoin]
  rfl

theorem docTerminal_plain : ∀ word ∈ docTerminal, ∀ c ∈ word.toList,
    isPySpace c = false ∧ c ≠ '_' ∧ c ∉ statusMarks := by
  have hall : (docTerminal.flatMap String.toList).all
      (fun c => !isPySpace c && c != '_' && !statusMarks.contains c) = true := by decide
  intro word hword c hc
  simpa [and_assoc] using List.all_eq_true.mp hall c (List.mem_flatMap.mpr ⟨word, hword, hc⟩)

theorem docTerminal_ne_nil : ∀ word ∈ docTerminal, word.toList ≠ [] := by decide

theorem docTerminal_subset : docTerminal ⊆ adapterNinePhrases := by decide

theorem exists_cleaned (raw : String) :
    ∃ cleaned spaces marks, pyStrip (pyRstrip statusMarks (pyStrip raw.toList)) = cleaned ∧
      pyStrip raw.toList = cleaned ++ spaces ++ marks ∧ Begun cleaned ∧
      (∀ c ∈ cleaned.getLast?, isPySpace c = false) ∧
      (∀ c ∈ spaces, isPySpace c = true) ∧ ∀ c ∈ marks, c ∈ statusMarks := by
  have hstripped := begun_pyStrip raw.toList
  have hbegun : Begun (pyRstrip statusMarks (pyStrip raw.toList)) :=
    hstripped.of_leading (List.rdropWhile_prefix _ _)
  refine ⟨_, (pyRstrip statusMarks (pyStrip raw.toList)).rtakeWhile isPySpace,
    (pyStrip raw.toList).rtakeWhile (statusMarks.contains ·), rfl, ?_, begun_pyStrip _, ?_,
    fun c hc => List.mem_rtakeWhile_imp hc, fun c hc => ?_⟩
  · rw [hbegun.pyStrip_eq, List.rdropWhile_append_rtakeWhile]
    exact List.rdropWhile_append_rtakeWhile.symm
  · intro c hc
    rw [hbegun.pyStrip_eq] at hc
    exact not_isPySpace_getLast hc
  · simpa using List.mem_rtakeWhile_imp hc

theorem onlyMarksFollow_of_docIsTerminal (hu : LowersApart u)
    (h : docIsTerminal u (some raw) = true) : ∃ word ∈ docTerminal, OnlyMarksFollow u raw word := by
  have hmem : normalizeStatusWord u raw ∈ docTerminal := by simpa [docIsTerminal] using h
  obtain ⟨cleaned, spaces, marks, hcleaned, hraw, hfirst, hlast, hspaces, hmarks⟩ :=
    exists_cleaned raw
  have hlower := @normalizeStatusWord_toList u raw
  rw [hcleaned] at hlower
  rcases joinedWords_cases hfirst hlast with ⟨-, hjoined⟩ | ⟨before, after, hjoined⟩
  · rw [hjoined] at hlower
    exact ⟨_, hmem, cleaned, spaces, marks, hraw, hlower.symm, hspaces, hmarks⟩
  · rw [hjoined, hu.separated before '_' after (.inr rfl)] at hlower
    have hunderscore : '_' ∈ (normalizeStatusWord u raw).toList := by simp [hlower]
    exact absurd rfl (docTerminal_plain _ hmem '_' hunderscore).2.1

theorem docIsTerminal_of_onlyMarksFollow (hu : LowersApart u) {word : String}
    (hword : word ∈ docTerminal) (h : OnlyMarksFollow u raw word) :
    docIsTerminal u (some raw) = true := by
  obtain ⟨chars, spaces, marks, hraw, hlower, hspaces, hmarks⟩ := h
  have hplain : ∀ c ∈ chars, isPySpace c = false := by
    intro c hc
    by_contra hspace
    obtain ⟨before, after, rfl⟩ := List.append_of_mem hc
    rw [hu.separated before c after (.inl (by simpa using hspace))] at hlower
    exact hspace (docTerminal_plain word hword c (by simp [← hlower])).1
  have hlast : ∀ c ∈ chars.getLast?, c ∉ statusMarks := by
    intro c hc hmark
    obtain ⟨before, rfl⟩ := List.getLast?_eq_some_iff.mp hc
    rw [hu.marked before c hmark] at hlower
    exact (docTerminal_plain word hword c (by simp [← hlower])).2.2 hmark
  have hend : ∀ c ∈ (chars ++ spaces).getLast?, statusMarks.contains c = false := by
    intro c hc
    rw [List.getLast?_append] at hc
    cases hspace : spaces.getLast? with
    | none =>
        rw [hspace] at hc
        simpa using hlast c hc
    | some other =>
        rw [hspace] at hc
        cases hc
        have hspaceMark : ∀ mark ∈ statusMarks, isPySpace mark = false := by
          simp [statusMarks, isPySpace]
        have := hspaces c (List.mem_of_getLast? hspace)
        by_contra hmark
        rw [hspaceMark c (by simpa using hmark)] at this
        cases this
  have hstripped := begun_pyStrip raw.toList
  rw [hraw] at hstripped
  have hcleaned : pyStrip (pyRstrip statusMarks (pyStrip raw.toList)) = chars := by
    rw [hraw, pyRstrip, rdropWhile_append_eq hend fun c hc => by simpa using hmarks c hc,
      (hstripped.of_leading (List.prefix_append _ _)).pyStrip_eq,
      rdropWhile_append_eq (fun c hc => hplain c (List.mem_of_getLast? hc)) hspaces]
  have hne : chars ≠ [] := by
    rintro rfl
    exact docTerminal_ne_nil word hword (by rw [← hlower, hu.empty])
  have hnormal : normalizeStatusWord u raw = word := by
    apply String.toList_injective
    rw [normalizeStatusWord_toList, hcleaned, joinedWords, pySplit_word hne hplain,
      List.intercalate_singleton, hlower]
  simpa [docIsTerminal, hnormal] using hword

theorem MatchesPhrase.eq_of_onlyMarksFollow (hu : LowersApart u) {phrase word : String}
    (hphrase : phrase ∈ adapterNinePhrases) (hmatch : MatchesPhrase u raw phrase)
    (hword : word ∈ docTerminal) (h : OnlyMarksFollow u raw word) : phrase = word := by
  obtain ⟨chars, spaces, marks, hraw, hlower, hspaces, hmarks⟩ := h
  have htext : lowerChars u (pyStrip raw.toList) = word.toList ++ (spaces ++ marks) := by
    rw [hraw, List.append_assoc, hu.lowerChars_append, hlower]
    intro c hc
    rcases List.mem_append.mp hc with hspace | hmark
    · exact .inl (hspaces c hspace)
    · exact .inr (hmarks c hmark)
  have hleading := hmatch.1
  rw [htext] at hleading
  rcases List.prefix_or_prefix_of_prefix hleading (List.prefix_append _ _) with hle | hle
  · exact phrase_eq_of_leading phrase hphrase word (docTerminal_subset hword) hle
  · exact (phrase_eq_of_leading word (docTerminal_subset hword) phrase hphrase hle).symm

/-- The two readers of a stamp agree on its terminality exactly when its phrase is open, or
nothing but white space and marks follows the phrase. -/
theorem docIsTerminal_agrees_iff (hu : LowersApart u) {phrase : String}
    (hphrase : phrase ∈ adapterNinePhrases) (hmatch : MatchesPhrase u raw phrase) :
    (docIsTerminal u (some raw) = true ↔ phrase ∈ docTerminal) ↔
      (phrase ∈ docTerminal → OnlyMarksFollow u raw phrase) := by
  have hread : docIsTerminal u (some raw) = true →
      phrase ∈ docTerminal ∧ OnlyMarksFollow u raw phrase := by
    intro h
    obtain ⟨word, hword, hfollow⟩ := onlyMarksFollow_of_docIsTerminal hu h
    obtain rfl := hmatch.eq_of_onlyMarksFollow hu hphrase hword hfollow
    exact ⟨hword, hfollow⟩
  constructor
  · intro hagree hterminal
    exact (hread (hagree.mpr hterminal)).2
  · intro hfollow
    exact ⟨fun h => (hread h).1, fun hterminal =>
      docIsTerminal_of_onlyMarksFollow hu hterminal (hfollow hterminal)⟩

end Readers

theorem lowerChars_ascii (chars : List Char) :
    lowerChars PyUnicode.ascii chars = chars.map Char.toLower := by
  have hlower : PyUnicode.ascii.lower (String.ofList chars) =
      (String.ofList chars).map Char.toLower := rfl
  rw [lowerChars, hlower, String.toList_map, String.toList_ofList]

theorem lowersApart_ascii : LowersApart PyUnicode.ascii := by
  have hself : ∀ c, isPySpace c = true ∨ c = '_' → c.toLower = c := by
    rintro c (hspace | rfl)
    · have hupper : ¬ (65 ≤ c.toNat ∧ c.toNat ≤ 90) := by
        unfold isPySpace at hspace
        simp only [Bool.or_eq_true, Bool.and_eq_true, decide_eq_true_eq, beq_iff_eq] at hspace
        omega
      refine dif_neg fun h => hupper ⟨?_, ?_⟩
      · exact UInt32.le_iff_toNat_le.mp h.1
      · exact UInt32.le_iff_toNat_le.mp h.2
    · rfl
  refine ⟨by simp [lowerChars_ascii], fun before c after hc => ?_, fun before c hc => ?_⟩
  · simp [lowerChars_ascii, hself c hc]
  · have hmark : ∀ mark ∈ statusMarks, mark.toLower = mark := by
      simp only [statusMarks, List.forall_mem_cons]
      exact ⟨rfl, rfl, rfl, rfl, by simp⟩
    simp [lowerChars_ascii, hmark c hc]

theorem matchesPhrase_of_space {phrase : String}
    (hphrase : phrase.toList <+: lowerChars PyUnicode.ascii (pyStrip raw.toList))
    (hspace : ((lowerChars PyUnicode.ascii (pyStrip raw.toList)).drop phrase.toList.length).head? =
      some ' ') : MatchesPhrase PyUnicode.ascii raw phrase := by
  refine ⟨hphrase, fun next hnext => ?_⟩
  cases hspace.symm.trans hnext
  decide +kernel

/-- A dated stamp is read as shipped by the adapter and as open by the cascade. -/
theorem dated_stamp_reads_open :
    ¬ ∀ raw, adapterTokenizes PyUnicode.ascii raw = true →
      ∀ phrase ∈ adapterNinePhrases, MatchesPhrase PyUnicode.ascii raw phrase →
        (docIsTerminal PyUnicode.ascii (some raw) = true ↔ phrase ∈ docTerminal) := by
  intro hall
  have hmatch : MatchesPhrase PyUnicode.ascii "SHIPPED 2026-09-02" "shipped" :=
    matchesPhrase_of_space (by decide +kernel) (by decide +kernel)
  have hagree := hall "SHIPPED 2026-09-02" (by decide +kernel) "shipped" (by decide) hmatch
  exact absurd (hagree.mpr (by decide)) (by decide +kernel)

theorem docIsTerminal_agrees_marked :
    (docIsTerminal PyUnicode.ascii (some " Shipped .:") = true ↔ "shipped" ∈ docTerminal) ↔
      ("shipped" ∈ docTerminal → OnlyMarksFollow PyUnicode.ascii " Shipped .:" "shipped") :=
  docIsTerminal_agrees_iff lowersApart_ascii (by decide)
    (matchesPhrase_of_space (by decide +kernel) (by decide +kernel))

end Qontinui.PlanStatus
