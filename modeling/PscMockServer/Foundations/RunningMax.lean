import Mathlib.Order.Bounds.Defs
import Mathlib.Order.MinMax

namespace PscMockServer
namespace Foundations

/-!
# The running maximum of a loop

A loop that keeps the largest reading seen so far ends with its start or with one of
the readings, and with no less than any of them.
-/

variable {β T : Type} [LinearOrder T]

/-- The largest reading of the entries, from `start` on. -/
def runningMax (reading : β -> T) (entries : List β) (start : T) : T :=
  entries.foldl (fun newest entry => max newest (reading entry)) start

variable {reading : β -> T}

theorem runningMax_cons (entry : β) (entries : List β) (start : T) :
    runningMax reading (entry :: entries) start =
      runningMax reading entries (max start (reading entry)) := rfl

theorem start_le_runningMax (entries : List β) (start : T) :
    start ≤ runningMax reading entries start := by
  induction entries generalizing start with
  | nil => exact le_refl start
  | cons entry entries inductionHypothesis =>
      rw [runningMax_cons]
      exact (le_max_left start (reading entry)).trans (inductionHypothesis _)

/-- The maximum is kept beside whatever else the loop builds. -/
theorem foldl_runningMax {A : Type} (reading : β -> T) (advance : A -> β -> A) (entries : List β)
    (built : A) (start : T) :
    (entries.foldl (fun acc entry => (advance acc.1 entry, max acc.2 (reading entry))) (built, start)).2 =
      runningMax reading entries start := by
  induction entries generalizing built start with
  | nil => rfl
  | cons entry entries inductionHypothesis => exact inductionHypothesis (advance built entry) _

/-- No entry is newer than the running maximum. -/
theorem le_runningMax {entries : List β} {entry : β} (member : entry ∈ entries) (start : T) :
    reading entry ≤ runningMax reading entries start := by
  induction entries generalizing start with
  | nil => cases member
  | cons first entries inductionHypothesis =>
      rw [runningMax_cons]
      rcases List.mem_cons.mp member with rfl | later
      · exact (le_max_right start _).trans (start_le_runningMax entries _)
      · exact inductionHypothesis later _

/-- It is the start or the reading of an entry. -/
theorem runningMax_cases (entries : List β) (start : T) :
    runningMax reading entries start = start ∨
      ∃ entry ∈ entries, runningMax reading entries start = reading entry := by
  induction entries generalizing start with
  | nil => exact Or.inl rfl
  | cons first entries inductionHypothesis =>
      rw [runningMax_cons]
      rcases inductionHypothesis (max start (reading first)) with same | ⟨entry, member, same⟩
      · rw [same]
        rcases max_choice start (reading first) with kept | replaced
        · exact Or.inl kept
        · exact Or.inr ⟨first, List.mem_cons_self, replaced⟩
      · exact Or.inr ⟨entry, List.mem_cons_of_mem first member, same⟩

/-- Of equal readings, it is the larger of the start and the reading. -/
theorem runningMax_const {entries : List β} {start t : T} (some_ : entries ≠ [])
    (same : ∀ entry ∈ entries, reading entry = t) : runningMax reading entries start = max start t := by
  apply le_antisymm
  · rcases @runningMax_cases _ _ _ reading entries start with isStart | ⟨entry, member, isReading⟩
    · rw [isStart]
      exact le_max_left start t
    · rw [isReading, same entry member]
      exact le_max_right start t
  · rcases List.exists_mem_of_ne_nil entries some_ with ⟨entry, member⟩
    have reached : reading entry ≤ runningMax reading entries start := le_runningMax member start
    rw [same entry member] at reached
    exact max_le (start_le_runningMax entries start) reached

/-- Above the start, it is the greatest reading. -/
theorem isGreatest_runningMax {entries : List β} {start : T} (some_ : entries ≠ [])
    (above : ∀ entry ∈ entries, start < reading entry) :
    IsGreatest {t | ∃ entry ∈ entries, t = reading entry} (runningMax reading entries start) := by
  constructor
  · have attained : runningMax reading entries start = start ∨
        ∃ entry ∈ entries, runningMax reading entries start = reading entry :=
      runningMax_cases entries start
    rcases attained with same | attained
    · rcases List.exists_mem_of_ne_nil entries some_ with ⟨entry, member⟩
      have reached : reading entry ≤ runningMax reading entries start := le_runningMax member start
      rw [same] at reached
      exact absurd (above entry member) (not_lt_of_ge reached)
    · exact attained
  · rintro t ⟨entry, member, rfl⟩
    exact le_runningMax member start

end Foundations
end PscMockServer
