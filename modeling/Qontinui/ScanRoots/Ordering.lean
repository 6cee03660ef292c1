import Mathlib.Data.Finset.Card
import Qontinui.ScanRoots.Rollup

/-!
What a roll-up may claim about commits that nobody has counted: the default branch only
gains commits, each device counts against the ref it last fetched, and the order of two
counts carries over to the live tip when neither checkout has commits of its own.
-/

namespace Qontinui.ScanRoots

/-! ### Counts against a ref -/

section Counts

variable {Commit : Type} [DecidableEq Commit] {ref head other tip : Finset Commit}

/-- The commits of `ref` that a checkout lacks. -/
def behindOf (ref head : Finset Commit) : Nat := (ref \ head).card

/-- The commits of a checkout that `ref` lacks. -/
def aheadOf (ref head : Finset Commit) : Nat := (head \ ref).card

theorem behindOf_mono (h : ref ⊆ tip) : behindOf ref head ≤ behindOf tip head :=
  Finset.card_le_card (Finset.sdiff_subset_sdiff h (Finset.Subset.refl head))

theorem behindOf_tip (href : ref ⊆ tip) (hahead : aheadOf ref head = 0) :
    behindOf tip head = behindOf ref head + (tip \ ref).card := by
  have hhead : head ⊆ ref := by
    rwa [aheadOf, Finset.card_eq_zero, Finset.sdiff_eq_empty_iff_subset] at hahead
  have hdisjoint : Disjoint (ref \ head) (tip \ ref) :=
    Finset.disjoint_of_subset_left Finset.sdiff_subset Finset.disjoint_sdiff
  have hunion : tip \ head = (ref \ head) ∪ (tip \ ref) := by
    ext commit
    have hhead' := @hhead commit
    have href' := @href commit
    simp only [Finset.mem_sdiff, Finset.mem_union]
    tauto
  rw [behindOf, hunion, Finset.card_union_of_disjoint hdisjoint, behindOf]

theorem behindOf_tip_lt (href : ref ⊆ tip) (hhead : aheadOf ref head = 0)
    (hother : aheadOf ref other = 0) (h : behindOf ref head < behindOf ref other) :
    behindOf tip head < behindOf tip other := by
  rw [behindOf_tip href hhead, behindOf_tip href hother]
  exact Nat.add_lt_add_right h _

end Counts

/-! ### The repository -/

/-- A repository: the tip of its default branch, and for each device the ref it last
fetched and its checkout. The branch only gains commits. -/
structure Repository (Commit : Type) where
  tip : Finset Commit
  ref : Uuid → Finset Commit
  head : Uuid → Finset Commit
  reached : ∀ device, ref device ⊆ tip

variable {Commit : Type} [DecidableEq Commit]

/-- The comparable rows count what the repository holds, and one sha names one ref. -/
structure Repository.CountedBy (repo : Repository Commit) (rows : List ScanRootRow) : Prop where
  behind : ∀ p ∈ comparableRows rows, p.2 = behindOf (repo.ref p.1.deviceId) (repo.head p.1.deviceId)
  ahead : ∀ p ∈ comparableRows rows, ∀ n, p.1.ahead = some n →
    n = aheadOf (repo.ref p.1.deviceId) (repo.head p.1.deviceId)
  oneRef : ∀ p ∈ comparableRows rows, ∀ q ∈ comparableRows rows, p.1.refSha.isSome →
    p.1.refSha = q.1.refSha → repo.ref p.1.deviceId = repo.ref q.1.deviceId

/-- What a roll-up claims about the repository. -/
structure Rollup.Sound (repo : Repository Commit) (rows : List ScanRootRow) (rollup : Rollup) :
    Prop where
  placed : rollup.deviceIds.Perm (rows.map (·.deviceId))
  minBehind_le : ∀ n, rollup.minBehind = some n → ∀ p ∈ comparableRows rows,
    n ≤ behindOf repo.tip (repo.head p.1.deviceId)
  zero_exact : rollup.minBehind = some 0 → rollup.minBehindIsFloor = some false
  ordered : ∀ least ∈ rollup.leastBehindDeviceIds, ∀ lagging ∈ rollup.laggingDeviceIds,
    repo.ref least = repo.ref lagging ∧
      behindOf (repo.ref least) (repo.head least) < behindOf (repo.ref lagging) (repo.head lagging)
  ordered_tip : (∀ p ∈ comparableRows rows, p.1.ahead = some 0) →
    ∀ least ∈ rollup.leastBehindDeviceIds, ∀ lagging ∈ rollup.laggingDeviceIds,
      behindOf repo.tip (repo.head least) < behindOf repo.tip (repo.head lagging)

section Soundness

variable {rows : List ScanRootRow} {sourceRepo : Option String}

theorem minBehind_spec {n : Nat} (h : (rollupSource sourceRepo rows).minBehind = some n) :
    ((comparableRows rows).map Prod.snd).min? = some n := by
  unfold rollupSource at h
  dsimp only at h
  cases hmin : ((comparableRows rows).map Prod.snd).min? with
  | none => simp [hmin] at h
  | some m =>
      simp only [hmin] at h
      split_ifs at h
      exact h

theorem zero_spec (h : (rollupSource sourceRepo rows).minBehind = some 0) :
    (rollupSource sourceRepo rows).minBehindIsFloor = some false := by
  have hmin := minBehind_spec h
  unfold rollupSource at h ⊢
  dsimp only at h ⊢
  simp only [hmin] at h ⊢
  cases hexact : exactRef (comparableRows rows) <;> simp_all

theorem placed_spec {least lagging : Uuid}
    (hleast : least ∈ (rollupSource sourceRepo rows).leastBehindDeviceIds)
    (hlagging : lagging ∈ (rollupSource sourceRepo rows).laggingDeviceIds) :
    sharedRef (comparableRows rows) = true ∧
      ∃ p ∈ comparableRows rows, ∃ q ∈ comparableRows rows,
        p.1.deviceId = least ∧ q.1.deviceId = lagging ∧ p.2 < q.2 := by
  unfold rollupSource at hleast hlagging
  dsimp only at hleast hlagging
  cases hmin : ((comparableRows rows).map Prod.snd).min? with
  | none => simp [hmin] at hleast
  | some minBehind =>
      simp only [hmin] at hleast hlagging
      cases hordered : orderedBy (comparableRows rows) with
      | false => simp [hordered] at hleast
      | true =>
          simp only [hordered, ↓reduceIte, mem_deviceIds, List.mem_map] at hleast hlagging
          obtain ⟨_, ⟨p, hp, rfl⟩, hpid⟩ := hleast
          obtain ⟨_, ⟨q, hq, rfl⟩, hqid⟩ := hlagging
          rw [List.mem_filter, beq_iff_eq] at hp
          rw [List.mem_filter, decide_eq_true_eq] at hq
          have hshared : sharedRef (comparableRows rows) = true := by
            rw [orderedBy, Bool.and_eq_true] at hordered
            exact hordered.1
          refine ⟨hshared, p, hp.1, q, hq.1, hpid, hqid, ?_⟩
          rw [hp.2]
          exact hq.2

theorem sharedRef_spec {comparable : List (ScanRootRow × Nat)} (h : sharedRef comparable = true)
    {p q : ScanRootRow × Nat} (hp : p ∈ comparable) (hq : q ∈ comparable) :
    p.1.refSha.isSome ∧ p.1.refSha = q.1.refSha := by
  cases comparable with
  | nil => cases hp
  | cons first rest =>
      obtain ⟨row, behind⟩ := first
      rw [sharedRef, Bool.and_eq_true, List.all_eq_true] at h
      have hall : ∀ r ∈ (row, behind) :: rest, r.1.refSha = row.refSha := by
        intro r hr
        rcases List.mem_cons.mp hr with rfl | hr
        · rfl
        · exact beq_iff_eq.mp (h.2 r hr)
      rw [hall p hp, hall q hq]
      exact ⟨h.1, rfl⟩

/-- A roll-up claims nothing about the repository that its readings do not establish. -/
theorem rollupSource_sound (repo : Repository Commit) (sourceRepo : Option String)
    (rows : List ScanRootRow) (hcounts : repo.CountedBy rows) :
    (rollupSource sourceRepo rows).Sound repo rows := by
  have hordered : ∀ least ∈ (rollupSource sourceRepo rows).leastBehindDeviceIds,
      ∀ lagging ∈ (rollupSource sourceRepo rows).laggingDeviceIds,
        ∃ p ∈ comparableRows rows, ∃ q ∈ comparableRows rows,
          p.1.deviceId = least ∧ q.1.deviceId = lagging ∧ repo.ref least = repo.ref lagging ∧
            behindOf (repo.ref least) (repo.head least) <
              behindOf (repo.ref lagging) (repo.head lagging) := by
    intro least hleast lagging hlagging
    obtain ⟨hshared, p, hp, q, hq, rfl, rfl, hlt⟩ := placed_spec hleast hlagging
    obtain ⟨hsome, hsha⟩ := sharedRef_spec hshared hp hq
    rw [hcounts.behind p hp, hcounts.behind q hq] at hlt
    exact ⟨p, hp, q, hq, rfl, rfl, hcounts.oneRef p hp q hq hsome hsha, hlt⟩
  constructor
  · exact rollupSource_perm sourceRepo rows
  · intro n hn p hp
    have hle := (List.min?_eq_some_iff.mp (minBehind_spec hn)).2 p.2 (List.mem_map_of_mem hp)
    rw [hcounts.behind p hp] at hle
    exact hle.trans (behindOf_mono (repo.reached _))
  · exact zero_spec
  · intro least hleast lagging hlagging
    obtain ⟨_, _, _, _, _, _, href, hlt⟩ := hordered least hleast lagging hlagging
    exact ⟨href, hlt⟩
  · intro hahead least hleast lagging hlagging
    obtain ⟨p, hp, q, hq, rfl, rfl, href, hlt⟩ := hordered least hleast lagging hlagging
    have hp0 := (hcounts.ahead p hp 0 (hahead p hp)).symm
    have hq0 := (hcounts.ahead q hq 0 (hahead q hq)).symm
    rw [href] at hp0 hlt
    exact behindOf_tip_lt (repo.reached _) hp0 hq0 hlt

end Soundness

/-! ### Two devices against one stale ref -/

/-- The row of a fresh, applied reading that counted against a stale ref. -/
def staleRow (deviceId : Uuid) (behind : Nat) : ScanRootRow :=
  renderRow (.reading
    { deviceId
      state := .measured
      plansDir := none
      repoRoot := none
      sourceRepo := some "org/plans"
      defaultRef := some "origin/main"
      refSha := some "f00d"
      headSha := none
      behind := some behind
      ahead := some 0
      refAgeSecs := none
      countsAreFloors := true
      detail := none
      observedAt := 0
      receivedAt := 0
      lastReportApplied := true
      lastReportObservedAt := 0
      refCensus := none
      workTreeCensus := none } none) 0 false

/-- Commits 1 to 3 are on the ref, and commit 4 came after it. -/
def smallRepository : Repository Nat where
  tip := {1, 2, 3, 4}
  ref := fun _ => {1, 2, 3}
  head := fun device => if device = "laptop" then {1, 2} else {1}
  reached := fun _ => by decide

theorem smallRepository_counts :
    smallRepository.CountedBy [staleRow "laptop" 1, staleRow "desktop" 2] where
  behind := by decide +kernel
  ahead := by
    have hzero : ∀ p ∈ comparableRows [staleRow "laptop" 1, staleRow "desktop" 2],
        p.1.ahead = some 0 ∧ aheadOf (smallRepository.ref p.1.deviceId)
          (smallRepository.head p.1.deviceId) = 0 := by
      decide +kernel
    intro p hp n hn
    cases (hzero p hp).1.symm.trans hn
    exact (hzero p hp).2.symm
  oneRef := fun _ _ _ _ _ _ => rfl

theorem rollupSource_sound_small :
    (rollupSource (some "org/plans") [staleRow "laptop" 1, staleRow "desktop" 2]).Sound
      smallRepository [staleRow "laptop" 1, staleRow "desktop" 2] :=
  rollupSource_sound _ _ _ smallRepository_counts

example : (rollupSource (some "org/plans")
    [staleRow "laptop" 1, staleRow "desktop" 2]).laggingDeviceIds = ["desktop"] := by
  decide +kernel

end Qontinui.ScanRoots
