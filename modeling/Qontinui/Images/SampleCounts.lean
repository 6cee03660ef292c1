import Mathlib.Algebra.GroupWithZero.Nat
import Qontinui.Images.AvifContainer

/-!
How many samples an AVIF track declares: the count of the walk against the sum, chunk by
chunk, of what the sample-to-chunk table gives each chunk.
-/

namespace Qontinui.Images

open Stopping

/-- The samples of a chunk: those of the last run in the table whose first chunk is at most it. -/
def samplesOfChunk (runs : List (Nat × Nat)) (chunk : Nat) : Nat :=
  match (runs.filter fun run => run.1 ≤ chunk).getLast? with
  | some run => run.2
  | none => 0

/-- The samples of `times` chunks from `first` on. -/
def samplesFrom (runs : List (Nat × Nat)) (first times : Nat) : Nat :=
  ((List.range' first times).map (samplesOfChunk runs)).sum

/-- The runs still to be taken, and the latest one taken, are runs of the table. -/
def Runs (runs : List (Nat × Nat)) (taken : List Nat × Option Nat) : Prop :=
  (∀ run ∈ taken.1, run < runs.length) ∧ ∀ run ∈ taken.2, run < runs.length

def firstChunk (runs : List (Nat × Nat)) (run : Nat) : Nat := (runs[run]?.map Prod.fst).getD 0

/-- Where the sweep is at a chunk: the runs still waiting are in the order of their first
chunks, and the latest one taken is the last in the table of those taken, all of which
have begun. -/
structure Swept (runs : List (Nat × Nat)) (chunk : Nat) (waiting : List Nat)
    (latest : Option Nat) : Prop where
  inTable : Runs runs (waiting, latest)
  sorted : waiting.Pairwise fun a b => firstChunk runs a ≤ firstChunk runs b
  begun : ∀ run ∈ latest, firstChunk runs run ≤ chunk
  covered : ∀ run < runs.length, run ∈ waiting ∨ ∃ last ∈ latest, run ≤ last

section Sweep

variable {runs : List (Nat × Nat)} {chunk : Nat} {waiting : List Nat} {latest : Option Nat}
  {walk : AvifContainer}

theorem firstChunk_eq {run : Nat} (h : run < runs.length) :
    firstChunk runs run = runs[run].1 := by
  simp [firstChunk, List.getElem?_eq_getElem h]

theorem elementAt_run {run : Nat} (h : run < runs.length) :
    (elementAt runs run).run walk = .ok (runs[run], walk) := by
  rw [elementAt, List.getElem?_eq_getElem h]
  rfl

theorem Swept.later (h : Swept runs chunk waiting latest) :
    Swept runs (chunk + 1) waiting latest :=
  { h with begun := fun run hrun => (h.begun run hrun).trans (Nat.le_succ chunk) }

/-- One run is taken. -/
theorem Swept.taken {run : Nat} (h : Swept runs chunk (run :: waiting) latest)
    (hrun : firstChunk runs run ≤ chunk) : Swept runs chunk waiting (max latest (some run)) := by
  have hmax : ∃ last, max latest (some run) = some last ∧ run ≤ last ∧
      (last = run ∨ latest = some last) ∧ ∀ taken ∈ latest, taken ≤ last := by
    cases latest with
    | none => exact ⟨run, rfl, le_rfl, .inl rfl, by simp⟩
    | some taken =>
        refine ⟨max taken run, rfl, Nat.le_max_right taken run, ?_, ?_⟩
        · rcases Nat.le_total taken run with hle | hle
          · exact .inl (Nat.max_eq_right hle)
          · exact .inr (congrArg some (Nat.max_eq_left hle).symm)
        · rintro _ ⟨⟩
          exact Nat.le_max_left taken run
  obtain ⟨last, hlast, hle, hcases, hgreatest⟩ := hmax
  have htable : ∀ other ∈ run :: waiting, other < runs.length := h.inTable.1
  have hlatest : ∀ other ∈ latest, other < runs.length := h.inTable.2
  rw [hlast]
  refine ⟨⟨fun other hother => htable other (by simp [hother]), ?_⟩,
    (List.pairwise_cons.mp h.sorted).2, ?_, ?_⟩
  · rintro _ ⟨⟩
    rcases hcases with rfl | htaken
    · exact htable last (by simp)
    · exact hlatest last htaken
  · rintro _ ⟨⟩
    rcases hcases with rfl | htaken
    · exact hrun
    · exact h.begun last htaken
  · intro other hother
    rcases h.covered other hother with hmem | ⟨taken, htaken, hothertaken⟩
    · rcases List.mem_cons.mp hmem with rfl | hwaiting
      · exact .inr ⟨last, rfl, hle⟩
      · exact .inl hwaiting
    · exact .inr ⟨last, rfl, hothertaken.trans (hgreatest taken htaken)⟩

section

variable (h : Swept runs chunk waiting latest)
include h

theorem takeRuns_run :
    ∃ waiting' latest', (takeRuns runs chunk waiting latest).run walk =
        .ok ((waiting', latest'), walk) ∧
      Swept runs chunk waiting' latest' ∧ ∀ run ∈ waiting', chunk < firstChunk runs run := by
  induction waiting generalizing latest with
  | nil => exact ⟨[], latest, rfl, h, by simp⟩
  | cons run waiting ih =>
      have hrun : run < runs.length := h.inTable.1 run (by simp)
      have hread : (takeRuns runs chunk (run :: waiting) latest).run walk =
          (if runs[run].1 ≤ chunk then takeRuns runs chunk waiting (max latest (some run))
            else pure (run :: waiting, latest)).run walk := by
        rw [takeRuns, run_bind_ok (elementAt_run hrun)]
      rw [hread]
      by_cases hfirst : runs[run].1 ≤ chunk
      · rw [if_pos hfirst]
        exact ih (h.taken (by rw [firstChunk_eq hrun]; exact hfirst))
      · rw [if_neg hfirst]
        refine ⟨run :: waiting, latest, rfl, h, ?_⟩
        have hlt : chunk < firstChunk runs run := by
          rw [firstChunk_eq hrun]
          exact Nat.lt_of_not_le hfirst
        intro other hother
        rcases List.mem_cons.mp hother with rfl | hwaiting
        · exact hlt
        · exact hlt.trans_le ((List.pairwise_cons.mp h.sorted).1 other hwaiting)

/-- Once the runs of a chunk are taken, the latest one gives its samples. -/
theorem Swept.samplesOfChunk_eq (hwaiting : ∀ run ∈ waiting, chunk < firstChunk runs run) :
    samplesOfChunk runs chunk = match latest with
      | some run => (runs[run]?.map Prod.snd).getD 0
      | none => 0 := by
  have hafter : ∀ run, ∀ hrun : run < runs.length, (∀ last ∈ latest, last < run) →
      ¬ runs[run].1 ≤ chunk := by
    intro run hrun hlast hfirst
    rcases h.covered run hrun with hmem | ⟨last, hmem, hle⟩
    · have := hwaiting run hmem
      rw [firstChunk_eq hrun] at this
      omega
    · exact absurd (hlast last hmem) (by omega)
  cases latest with
  | none =>
      have hnone : (runs.filter fun run => run.1 ≤ chunk) = [] := by
        rw [List.filter_eq_nil_iff]
        intro run hrun
        obtain ⟨i, hi, rfl⟩ := List.getElem_of_mem hrun
        simpa using hafter i hi (by simp)
      simp [samplesOfChunk, hnone]
  | some last =>
      have hlast : last < runs.length := h.inTable.2 last rfl
      have hbegun : runs[last].1 ≤ chunk := by
        rw [← firstChunk_eq hlast]
        exact h.begun last rfl
      have hrest : ((runs.drop (last + 1)).filter fun run => run.1 ≤ chunk) = [] := by
        rw [List.filter_eq_nil_iff]
        intro run hrun
        obtain ⟨i, hi, rfl⟩ := List.getElem_of_mem hrun
        rw [List.getElem_drop]
        have hlt : last + 1 + i < runs.length := by
          rw [List.length_drop] at hi
          omega
        simpa using hafter (last + 1 + i) hlt (by simp; omega)
      have hsplit : runs = runs.take last ++ runs[last] :: runs.drop (last + 1) := by
        rw [← List.drop_eq_getElem_cons hlast, List.take_append_drop]
      have hfilter : (runs.filter fun run => run.1 ≤ chunk) =
          (runs.take last).filter (fun run => run.1 ≤ chunk) ++ [runs[last]] := by
        conv_lhs => rw [hsplit]
        rw [List.filter_append, List.filter_cons_of_pos (by simpa using hbegun), hrest]
      simp [samplesOfChunk, hfilter, List.getElem?_eq_getElem hlast]

/-- A chunk's samples are added, and the sweep stops past `maxFrames`. -/
theorem chunkSamples_run {samples : Nat} (hsamples : samples ≤ maxFrames) :
    ∃ step : ForInStep (Nat × List Nat × Option Nat),
      (chunkSamples runs (samples, waiting, latest) chunk).run walk = .ok (step, walk) ∧
      ((∃ waiting' latest', step = .yield (samples + samplesOfChunk runs chunk, waiting', latest') ∧
          samples + samplesOfChunk runs chunk ≤ maxFrames ∧ Swept runs chunk waiting' latest') ∨
        ∃ swept, step = .done (samples + samplesOfChunk runs chunk, swept) ∧
          maxFrames < samples + samplesOfChunk runs chunk) := by
  obtain ⟨waiting', latest', hrun, hswept, hwaiting⟩ := takeRuns_run h
  have hchunk := hswept.samplesOfChunk_eq hwaiting
  rw [chunkSamples, run_bind_ok hrun]
  cases latest' with
  | none =>
      refine ⟨.yield (samples, waiting', none), rfl, .inl ⟨waiting', none, ?_, ?_, hswept⟩⟩
      · simp [hchunk]
      · simpa [hchunk] using hsamples
  | some last =>
      have hlast : last < runs.length := hswept.inTable.2 last rfl
      have hsum : samples + samplesOfChunk runs chunk = samples + runs[last].2 := by
        simp [hchunk, List.getElem?_eq_getElem hlast]
      rw [hsum]
      dsimp only
      rw [run_bind_ok (elementAt_run hlast)]
      by_cases hpast : samples + runs[last].2 > maxFrames
      · refine ⟨.done (samples + runs[last].2, waiting', some last), ?_, .inr ⟨_, rfl, hpast⟩⟩
        rw [if_pos hpast]
        rfl
      · refine ⟨.yield (samples + runs[last].2, waiting', some last), ?_,
          .inl ⟨waiting', some last, rfl, Nat.le_of_not_lt hpast, hswept⟩⟩
        rw [if_neg hpast]
        rfl

end

theorem forRange_chunkSamples_run (walk : AvifContainer) (times : Nat) {first samples : Nat}
    (h : Swept runs first waiting latest) (hsamples : samples ≤ maxFrames) :
    ∃ counted swept,
      (forRange (chunkSamples runs) (samples, waiting, latest) first times).run walk =
        .ok ((counted, swept), walk) ∧
      (samples + samplesFrom runs first times ≤ maxFrames →
        counted = samples + samplesFrom runs first times) ∧
      (maxFrames < samples + samplesFrom runs first times → maxFrames < counted) := by
  induction times generalizing first samples waiting latest with
  | zero => exact ⟨samples, (waiting, latest), rfl, by simp [samplesFrom], by simp [samplesFrom]⟩
  | succ times ih =>
      have hfrom : samplesFrom runs first (times + 1) =
          samplesOfChunk runs first + samplesFrom runs (first + 1) times := by
        simp [samplesFrom, List.range'_succ]
      obtain ⟨step, hrun, hstep⟩ := chunkSamples_run h hsamples
      rw [forRange, run_bind_ok hrun]
      rcases hstep with ⟨waiting', latest', rfl, hle, hswept⟩ | ⟨swept, rfl, hpast⟩
      · rw [hfrom, ← Nat.add_assoc]
        exact ih hswept.later hle
      · exact ⟨_, swept, rfl, by omega, fun _ => hpast⟩

theorem swept_start (runs : List (Nat × Nat)) (chunk : Nat) :
    Swept runs chunk ((runs.zipIdx.insertionSort fun a b => a.1.1 ≤ b.1.1).map Prod.snd) none := by
  have hmem : ∀ run : (Nat × Nat) × Nat,
      run ∈ runs.zipIdx.insertionSort (fun a b => a.1.1 ≤ b.1.1) ↔ run ∈ runs.zipIdx :=
    fun run => (List.perm_insertionSort _ _).mem_iff
  have hfirst : ∀ run : (Nat × Nat) × Nat, run ∈ runs.zipIdx →
      firstChunk runs run.2 = run.1.1 := by
    rintro ⟨run, index⟩ hrun
    simp [firstChunk, List.mk_mem_zipIdx_iff_getElem?.mp hrun]
  refine ⟨⟨?_, by simp⟩, ?_, by simp, ?_⟩
  · intro run hrun
    obtain ⟨⟨_, index⟩, hzip, rfl⟩ := List.mem_map.mp hrun
    exact List.snd_lt_of_mem_zipIdx ((hmem _).mp hzip)
  · rw [List.pairwise_map]
    refine (List.pairwise_insertionSort _ _).imp_of_mem fun {a b} ha hb hab => ?_
    rw [hfirst a ((hmem a).mp ha), hfirst b ((hmem b).mp hb)]
    exact hab
  · intro run hrun
    refine .inl (List.mem_map.mpr ⟨(runs[run], run), (hmem _).mpr ?_, rfl⟩)
    exact List.mk_mem_zipIdx_iff_getElem?.mpr (List.getElem?_eq_getElem hrun)

end Sweep

/-- The samples of a track are the sum, over its chunks, of the samples of the last run in
the table that has begun; past `maxFrames` the count is past it too. -/
theorem avifSamples_eq_samplesFrom (chunks : Nat) (runs : List (Nat × Nat))
    (walk : AvifContainer) :
    ∃ samples, (avifSamples chunks runs).run walk = .ok (samples, walk) ∧
      (samplesFrom runs 1 chunks ≤ maxFrames → samples = samplesFrom runs 1 chunks) ∧
      (maxFrames < samplesFrom runs 1 chunks → maxFrames < samples) := by
  obtain ⟨samples, swept, hrun, hcounted⟩ :=
    forRange_chunkSamples_run walk chunks (swept_start runs 1) (Nat.zero_le maxFrames)
  rw [Nat.zero_add] at hcounted
  refine ⟨samples, ?_, hcounted⟩
  rw [avifSamples, run_bind_ok hrun]
  rfl

/-- Unsorted runs, two of which begin at one chunk, and a chunk before them all. -/
example : samplesFrom [(3, 7), (2, 5), (3, 1)] 1 4 = 7 := by decide

end Qontinui.Images
