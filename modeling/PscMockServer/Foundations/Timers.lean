import PscMockServer.Foundations.Runs

namespace PscMockServer
namespace Foundations

/-!
# Timers that are polled

A timer remembers when it last fired, or when it was set up.  It is polled at some clock
readings, and at each of them the instant it remembers and the reading decide whether it
fires.  What such a timer should do is said over its history: it fires when a given
interval has passed since the last firing.
-/

namespace Timer

variable (due : Int -> Int -> Bool)

/-- One poll: the instant that is remembered afterwards. -/
def tick (last now : Int) : Int :=
  if due last now then now else last

/-- The instant remembered after the polls. -/
def lastAfter (start : Int) (readings : List Int) : Int :=
  runSteps (tick due) start readings

/-- The readings at which the timer fires. -/
def firings : List Int -> Int -> List Int
  | [], _ => []
  | now :: rest, last => (if due last now then [now] else []) ++ firings rest (tick due last now)

/-- The last firing, or the set-up when there was none. -/
def lastFiring (start : Int) (readings : List Int) : Int :=
  ((firings due readings start).getLast?).getD start

/-- The poll before, or the set-up. -/
def previous (start : Int) (readings : List Int) : Int :=
  readings.getLast?.getD start

/-- No reading lies before the one of the previous poll. -/
def NonDecreasing (start : Int) (readings : List Int) : Prop :=
  ∀ front now, front ++ [now] <+: readings -> previous start front ≤ now

/-- The timer fires exactly when the interval, which is not zero, has passed since the
last firing.  So two firings are at least the interval apart, and with interval zero
there is none. -/
structure Regular (start : Int) (interval : Nat) (readings : List Int) : Prop where
  exact : ∀ front now, front ++ [now] <+: readings ->
    (due (lastAfter due start front) now = true ↔
      interval ≠ 0 ∧ (interval : Int) ≤ now - lastFiring due start front)
  apart : ∀ front now, front ++ [now] <+: readings -> due (lastAfter due start front) now = true ->
    ∀ earlier ∈ firings due front start, (interval : Int) ≤ now - earlier
  never : interval = 0 -> firings due readings start = []

variable {due} {start : Int}

theorem firings_append (front rest : List Int) :
    firings due (front ++ rest) start =
      firings due front start ++ firings due rest (lastAfter due start front) := by
  induction front generalizing start with
  | nil => rfl
  | cons now front inductionHypothesis =>
      rw [List.cons_append, firings, inductionHypothesis, firings, List.append_assoc]
      rfl

theorem firings_snoc (front : List Int) (now : Int) :
    firings due (front ++ [now]) start =
      firings due front start ++ if due (lastAfter due start front) now then [now] else [] := by
  rw [firings_append, firings, firings, List.append_nil]

theorem lastAfter_snoc (front : List Int) (now : Int) :
    lastAfter due start (front ++ [now]) = tick due (lastAfter due start front) now :=
  runSteps_snoc _ _ _ _

theorem previous_snoc (front : List Int) (now : Int) : previous start (front ++ [now]) = now := by
  rw [previous, List.getLast?_concat, Option.getD_some]

/-- What the timer remembers is its last firing. -/
theorem lastAfter_eq_lastFiring (readings : List Int) :
    lastAfter due start readings = lastFiring due start readings := by
  induction readings using List.reverseRecOn with
  | nil => rfl
  | append_singleton front now inductionHypothesis =>
      rw [lastAfter_snoc, tick, lastFiring, firings_snoc]
      cases due (lastAfter due start front) now with
      | true => rw [if_pos rfl, if_pos rfl, List.getLast?_concat, Option.getD_some]
      | false =>
          rw [if_neg Bool.false_ne_true, if_neg Bool.false_ne_true, List.append_nil, inductionHypothesis]
          rfl

theorem NonDecreasing.front {readings front : List Int} (ordered : NonDecreasing start readings)
    (isFront : front <+: readings) : NonDecreasing start front :=
  fun before now isBefore => ordered before now (isBefore.trans isFront)

/-- No firing lies after the one that is remembered, and that one not after the last poll. -/
theorem firings_le {readings : List Int} (ordered : NonDecreasing start readings) :
    (∀ fired ∈ firings due readings start, fired ≤ lastAfter due start readings) ∧
      lastAfter due start readings ≤ previous start readings := by
  induction readings using List.reverseRecOn with
  | nil => exact And.intro (fun _ member => nomatch member) (Int.le_refl start)
  | append_singleton front now inductionHypothesis =>
      have before := inductionHypothesis (ordered.front (List.prefix_append front [now]))
      have step := ordered front now (List.prefix_refl _)
      rw [lastAfter_snoc, previous_snoc, firings_snoc, tick]
      cases due (lastAfter due start front) now with
      | true =>
          rw [if_pos rfl, if_pos rfl]
          refine ⟨fun fired member => ?_, Int.le_refl now⟩
          rcases List.mem_append.mp member with earlier | here
          · exact Int.le_trans (before.1 fired earlier) (Int.le_trans before.2 step)
          · exact Int.le_of_eq (List.mem_singleton.mp here)
      | false =>
          rw [if_neg Bool.false_ne_true, if_neg Bool.false_ne_true, List.append_nil]
          exact ⟨before.1, Int.le_trans before.2 step⟩

/-- A timer that never fires has no firings. -/
theorem firings_eq_nil {readings : List Int}
    (quiet : ∀ front now, front ++ [now] <+: readings -> due (lastAfter due start front) now = false) :
    firings due readings start = [] := by
  induction readings using List.reverseRecOn with
  | nil => rfl
  | append_singleton front now inductionHypothesis =>
      rw [firings_snoc, quiet front now (List.prefix_refl _), if_neg Bool.false_ne_true, List.append_nil]
      exact inductionHypothesis
        (fun before reading isBefore => quiet before reading (isBefore.trans (List.prefix_append front [now])))

/-- The rest of the regularity follows from the exact condition. -/
theorem regular_of_exact {interval : Nat} {readings : List Int} (ordered : NonDecreasing start readings)
    (exact_ : ∀ front now, front ++ [now] <+: readings ->
      (due (lastAfter due start front) now = true ↔
        interval ≠ 0 ∧ (interval : Int) ≤ now - lastFiring due start front)) :
    Regular due start interval readings := by
  refine ⟨exact_, fun front now isFront fires earlier member => ?_, fun zero => firings_eq_nil ?_⟩
  · have passed := ((exact_ front now isFront).mp fires).2
    have before := (firings_le (ordered.front ((List.prefix_append front [now]).trans isFront))).1 earlier member
    rw [← lastAfter_eq_lastFiring] at passed
    omega
  · intro front now isFront
    rw [Bool.eq_false_iff]
    exact fun fires => ((exact_ front now isFront).mp fires).1 zero

end Timer

end Foundations
end PscMockServer
