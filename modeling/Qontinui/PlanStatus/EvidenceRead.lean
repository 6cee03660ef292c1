import Qontinui.PlanStatus.Classifier

/-!
Which classes rest on an established evidence read. Four classes state a
verdict over all three axes; a delivery verdict that is present but does not
say whether its evidence is complete still reaches three of them.
-/

namespace Qontinui.PlanStatus

/-- The classes that state a verdict over all three axes. -/
def PlanClass.readsVerdict : PlanClass → Bool
  | .unitStatusContradictsDelivery | .noCitationsCaptured | .agreeTerminal | .agreeOpen => true
  | _ => false

/-- Every axis was read, the document and the unit are there, and a present
delivery verdict rests on a complete evidence read. -/
structure Established (a : AxisA) (b : AxisB) (c : AxisC) : Prop where
  readableA : a.readable = true
  readableB : b.readable = true
  readableC : c.readable = true
  unit : a.present = true
  body : b.present = true
  evidence : c.present = true → c.evidenceComplete = some true

/-- What the first three arms leave: every axis is readable, and the document and
a unit with a stored status are there. -/
structure Joined (a : AxisA) (b : AxisB) (c : AxisC) : Prop where
  readableA : a.readable = true
  readableB : b.readable = true
  readableC : c.readable = true
  unit : a.present = true
  body : b.present = true
  status : pyStrip a.unitStatus.toList ≠ []

section Arms

variable (u : PyUnicode) (a : AxisA) (b : AxisB) (c : AxisC)

/-- The stored status and a shipped verdict exclude each other. -/
def Contradicts : Prop :=
  ∃ shipped, c.shipped = some shipped ∧
    (if shipped then
      unitIsTerminal u a.unitStatus = false ∨
        unitAbandonedClass.contains (normalizeStatusWord u a.unitStatus) = true
    else unitIsShippedClass u a.unitStatus = true)

/-- A stamp the adapter reads, as terminal as the stored status. -/
def StampAgrees : Prop :=
  ∃ docStatus, b.status = some docStatus ∧ b.classification ≠ some "no_status_block" ∧
    adapterTokenizes u docStatus = true ∧ b.adapterReadable ≠ some false ∧
    docIsTerminal u docStatus = unitIsTerminal u a.unitStatus

theorem unreadableLabel_eq_nil (label : String) (readable : Bool) (reason : Option String) :
    unreadableLabel label readable reason = [] ↔ readable = true := by
  cases readable <;> simp [unreadableLabel]

theorem axisUnreadable_eq_none :
    axisUnreadable a b c = none ↔
      a.readable = true ∧ b.readable = true ∧ c.readable = true := by
  simp only [axisUnreadable]
  split
  · next h =>
      simp only [List.isEmpty_iff, List.append_eq_nil_iff, unreadableLabel_eq_nil] at h
      simp [h]
  · next h =>
      simp only [List.isEmpty_iff, List.append_eq_nil_iff, unreadableLabel_eq_nil] at h
      simp only [reduceCtorEq, false_iff]
      intro hall
      exact h ⟨⟨hall.1, hall.2.1⟩, hall.2.2⟩

variable {verdict : Verdict}

theorem axisUnreadable_class (h : axisUnreadable a b c = some verdict) :
    verdict.1 = .unknownAxisUnreadable := by
  simp only [axisUnreadable] at h
  split at h
  · cases h
  · cases h
    rfl

theorem sideAbsent_eq_none :
    sideAbsent a b = none ↔
      b.present = true ∧ a.present = true ∧ pyStrip a.unitStatus.toList ≠ [] := by
  unfold sideAbsent
  by_cases hb : b.present = true
  · by_cases ha : a.present = true
    · by_cases hs : pyStrip a.unitStatus.toList = []
      · rw [if_neg (by simp [hb]), if_neg (by simp [ha]), if_pos (by simp [hs])]
        exact iff_of_false nofun (fun h => h.2.2 hs)
      · rw [if_neg (by simp [hb]), if_neg (by simp [ha]), if_neg (by simp [hs])]
        exact iff_of_true rfl ⟨hb, ha, hs⟩
    · rw [if_neg (by simp [hb]), if_pos (by simp [ha])]
      exact iff_of_false nofun (fun h => ha h.2.1)
  · rw [if_pos (by simp [hb])]
    exact iff_of_false nofun (fun h => hb h.1)

theorem sideAbsent_class (h : sideAbsent a b = some verdict) : verdict.1.readsVerdict = false := by
  simp only [sideAbsent] at h
  split at h
  · cases h; rfl
  split at h
  · cases h; rfl
  split at h
  · cases h; rfl
  · cases h

theorem evidenceIncomplete_eq_none :
    evidenceIncomplete c = none ↔ (c.present = true → c.evidenceComplete ≠ some false) := by
  cases hc : c.present <;> simp [evidenceIncomplete, hc]

theorem evidenceIncomplete_class (h : evidenceIncomplete c = some verdict) :
    verdict.1 = .evidenceIncomplete := by
  simp only [evidenceIncomplete] at h
  split at h
  · cases h
    rfl
  · cases h

theorem contradictsDelivery_isSome :
    (contradictsDelivery u a c).isSome = true ↔ c.present = true ∧ Contradicts u a c := by
  unfold contradictsDelivery Contradicts
  cases c.present with
  | false => simp
  | true =>
      cases c.shipped with
      | none => simp
      | some shipped =>
          cases shipped with
          | false => cases unitIsShippedClass u a.unitStatus <;> simp
          | true =>
              cases ht : unitIsTerminal u a.unitStatus <;>
                cases hab : unitAbandonedClass.contains (normalizeStatusWord u a.unitStatus) <;>
                simp_all

theorem contradictsDelivery_class (h : contradictsDelivery u a c = some verdict) :
    verdict.1 = .unitStatusContradictsDelivery := by
  unfold contradictsDelivery at h
  split at h
  · split at h
    · cases h; rfl
    split at h
    · cases h; rfl
    split at h
    · cases h; rfl
    · cases h
  · cases h

theorem compareTerminality_reads (docStatus : String) :
    (compareTerminality u a docStatus).1.readsVerdict = true ↔
      docIsTerminal u docStatus = unitIsTerminal u a.unitStatus := by
  unfold compareTerminality
  cases docIsTerminal u docStatus <;> cases unitIsTerminal u a.unitStatus <;>
    simp [PlanClass.readsVerdict]

theorem documentLeg_reads :
    (documentLeg u a b).1.readsVerdict = true ↔ StampAgrees u a b := by
  unfold documentLeg StampAgrees docStamp
  cases b.status with
  | none => simp [docStamp.noStatusBlock, PlanClass.readsVerdict]
  | some docStatus =>
      by_cases hblock : b.classification = some "no_status_block"
      · simp [hblock, docStamp.noStatusBlock, PlanClass.readsVerdict]
      by_cases htokens : adapterTokenizes u docStatus = true
      · by_cases hadapter : b.adapterReadable = some false
        · simp [hblock, htokens, hadapter, PlanClass.readsVerdict]
        · simp [hblock, htokens, hadapter, compareTerminality_reads]
      · simp [hblock, htokens, PlanClass.readsVerdict]

end Arms

section Claim

variable {u : PyUnicode} {a : AxisA} {b : AxisB} {c : AxisC}

theorem cascade_of_joined (h : Joined a b c) :
    cascade u a b c = (evidenceIncomplete c <|> noCitations u a b c <|>
      contradictsDelivery u a c).getD (documentLeg u a b) := by
  have hread := (axisUnreadable_eq_none a b c).mpr ⟨h.readableA, h.readableB, h.readableC⟩
  have hside := (sideAbsent_eq_none a b).mpr ⟨h.body, h.unit, h.status⟩
  rw [cascade, hread, hside]
  rfl

theorem joined_of_reads (h : (cascade u a b c).1.readsVerdict = true) : Joined a b c := by
  cases hread : axisUnreadable a b c with
  | some verdict =>
      have hclass := axisUnreadable_class a b c hread
      simp [cascade, hread, hclass, PlanClass.readsVerdict] at h
  | none =>
      cases hside : sideAbsent a b with
      | some verdict =>
          have hclass := sideAbsent_class a b hside
          simp [cascade, hread, hside, hclass] at h
      | none =>
          obtain ⟨hA, hB, hC⟩ := (axisUnreadable_eq_none a b c).mp hread
          obtain ⟨hbody, hunit, hstatus⟩ := (sideAbsent_eq_none a b).mp hside
          exact ⟨hA, hB, hC, hunit, hbody, hstatus⟩

theorem reads_of_unread (hjoined : Joined a b c) (hunread : c.evidenceComplete = none) :
    (cascade u a b c).1.readsVerdict = true ↔
      (c.present = true ∧ Contradicts u a c) ∨ StampAgrees u a b := by
  have hevidence : evidenceIncomplete c = none := by simp [evidenceIncomplete, hunread]
  have hcitations : noCitations u a b c = none := by simp [noCitations, hunread]
  rw [cascade_of_joined hjoined, hevidence, hcitations, ← contradictsDelivery_isSome,
    ← documentLeg_reads]
  cases hdelivery : contradictsDelivery u a c with
  | none => simp
  | some verdict =>
      have hclass := contradictsDelivery_class u a c hdelivery
      simp [hclass, PlanClass.readsVerdict]

/-- Joined axes whose delivery verdict is there without an evidence flag, and which
either contradict the verdict or agree with the stamp. -/
structure UnreadEvidence (u : PyUnicode) (a : AxisA) (b : AxisB) (c : AxisC) : Prop where
  joined : Joined a b c
  present : c.present = true
  unread : c.evidenceComplete = none
  reached : Contradicts u a c ∨ StampAgrees u a b

theorem established_of_reads (h : (cascade u a b c).1.readsVerdict = true)
    (hread : c.present = true → c.evidenceComplete ≠ none) : Established a b c := by
  have hjoined := joined_of_reads h
  refine ⟨hjoined.readableA, hjoined.readableB, hjoined.readableC, hjoined.unit, hjoined.body, ?_⟩
  intro hpresent
  cases hevidence : c.evidenceComplete with
  | none => exact absurd hevidence (hread hpresent)
  | some complete =>
      cases complete with
      | true => rfl
      | false =>
          rw [cascade_of_joined hjoined] at h
          cases hincomplete : evidenceIncomplete c with
          | none =>
              have hnone := (evidenceIncomplete_eq_none c).mp hincomplete hpresent
              exact absurd hevidence hnone
          | some verdict =>
              have hclass := evidenceIncomplete_class c hincomplete
              simp [hincomplete, hclass, PlanClass.readsVerdict] at h

variable (u a b c)

/-- A verdict over all three axes rests on an established read exactly when the evidence
flag of a delivery verdict that is there is not left unread on the way to one. -/
theorem classify_established_iff :
    (∀ verdict, classify u a b c = .ok verdict → verdict.1.readsVerdict = true →
      Established a b c) ↔ ¬ UnreadEvidence u a b c := by
  rw [classify_ok]
  constructor
  · intro hall hunread
    have hreads : (cascade u a b c).1.readsVerdict = true := by
      rw [reads_of_unread hunread.joined hunread.unread]
      exact hunread.reached.imp_left (fun h => ⟨hunread.present, h⟩)
    have hcomplete := (hall _ rfl hreads).evidence hunread.present
    rw [hunread.unread] at hcomplete
    cases hcomplete
  · intro hnot verdict hverdict hreads
    obtain rfl : cascade u a b c = verdict := by simpa using hverdict
    apply established_of_reads hreads
    intro hpresent hunread
    have hjoined := joined_of_reads hreads
    rw [reads_of_unread hjoined hunread] at hreads
    exact hnot ⟨hjoined, hpresent, hunread, hreads.imp_left And.right⟩

/-- A shipped unit with a stamp that says so, and a delivery verdict that is there and
says nothing about its evidence: they agree over a read that was never established. -/
theorem agrees_without_evidence :
    ¬ ∀ verdict, classify PyUnicode.ascii { status := some "shipped" }
        { status := some "shipped", classification := some "ok", adapterReadable := some true }
        { shipped := some true, citationCount := some 1 } = .ok verdict →
      verdict.1.readsVerdict = true →
      Established { status := some "shipped" }
        { status := some "shipped", classification := some "ok", adapterReadable := some true }
        { shipped := some true, citationCount := some 1 } := by
  intro hall
  rw [classify_ok] at hall
  have hestablished := hall _ rfl (by decide +kernel)
  exact absurd (hestablished.evidence rfl) (by decide)

end Claim

end Qontinui.PlanStatus
