import Mathlib.Data.List.Induction
import Mathlib.Data.Nat.Find
import Mathlib.Order.WellFounded

namespace PscMockServer
namespace Foundations

/-!
# Runs whose invariant depends on each step being safe

A system that is stepped through a list of inputs.  When a step from a good state
ends in a good state exactly if the input is safe there, a run is good throughout
exactly if all its inputs are safe where they are taken.  A program that shares the
system with others comes to an end if each of its own steps lowers a rank that the
others leave alone.
-/

variable {S O : Type}

/-- The state after the inputs. -/
def runSteps (step : S -> O -> S) (s : S) (inputs : List O) : S :=
  inputs.foldl step s

theorem runSteps_snoc (step : S -> O -> S) (s : S) (inputs : List O) (o : O) :
    runSteps step s (inputs ++ [o]) = step (runSteps step s inputs) o := by
  rw [runSteps, List.foldl_append]
  rfl

theorem mem_of_snoc {front inputs : List O} {o : O} (isFront : front ++ [o] <+: inputs) :
    o ∈ inputs :=
  isFront.subset (List.mem_append_right front List.mem_cons_self)

/-- Every input is safe where it is taken. -/
def SafeThroughout (step : S -> O -> S) (Safe : S -> O -> Prop) (s : S) (inputs : List O) : Prop :=
  ∀ front o, front ++ [o] <+: inputs -> Safe (runSteps step s front) o

theorem safeThroughout_nil (step : S -> O -> S) (Safe : S -> O -> Prop) (s : S) :
    SafeThroughout step Safe s [] := by
  intro front o isFront
  exact absurd (mem_of_snoc isFront) List.not_mem_nil

theorem safeThroughout_cons {step : S -> O -> S} {Safe : S -> O -> Prop} {s : S} {o : O} {inputs : List O}
    (first : Safe s o) (later : SafeThroughout step Safe (step s o) inputs) :
    SafeThroughout step Safe s (o :: inputs) := by
  intro front last isFront
  cases front with
  | nil =>
      rcases isFront with ⟨rest, whole⟩
      rw [(List.cons.inj whole).1]
      exact first
  | cons head front =>
      rw [List.cons_append, List.cons_prefix_cons] at isFront
      rcases isFront with ⟨rfl, isFront⟩
      exact later front last isFront

/-- What every safe step keeps holds throughout. -/
theorem invariant_throughout (step : S -> O -> S) (Good : S -> Prop) (Safe : S -> O -> Prop)
    (inputs : List O) (kept : ∀ s, ∀ o ∈ inputs, Good s -> Safe s o -> Good (step s o))
    {s : S} (initially : Good s) (safe : SafeThroughout step Safe s inputs) (front : List O)
    (isFront : front <+: inputs) : Good (runSteps step s front) := by
  induction front using List.reverseRecOn with
  | nil => exact initially
  | append_singleton front o inductionHypothesis =>
      have before := inductionHypothesis ((List.prefix_append front [o]).trans isFront)
      rw [runSteps_snoc]
      exact kept _ o (mem_of_snoc isFront) before (safe front o isFront)

theorem invariant_throughout_iff (step : S -> O -> S) (Good : S -> Prop) (Safe : S -> O -> Prop)
    (inputs : List O) (exact : ∀ s, ∀ o ∈ inputs, Good s -> (Good (step s o) ↔ Safe s o))
    {s : S} (initially : Good s) :
    (∀ front, front <+: inputs -> Good (runSteps step s front)) ↔
      ∀ front o, front ++ [o] <+: inputs -> Safe (runSteps step s front) o := by
  constructor
  · intro good front o isFront
    have before := good front ((List.prefix_append front [o]).trans isFront)
    have after := good (front ++ [o]) isFront
    rw [runSteps_snoc] at after
    exact (exact _ o (mem_of_snoc isFront) before).mp after
  · intro safe
    have kept : ∀ s, ∀ o ∈ inputs, Good s -> Safe s o -> Good (step s o) :=
      fun s o member good safe_ => (exact s o member good).mpr safe_
    exact invariant_throughout step Good Safe inputs kept initially safe

/-! ## Fair runs -/

/-- The state after the first `n` inputs of an endless schedule. -/
def stateAt (step : S -> O -> S) (s : S) (schedule : Nat -> O) (n : Nat) : S :=
  runSteps step s ((List.range n).map schedule)

theorem stateAt_succ (step : S -> O -> S) (s : S) (schedule : Nat -> O) (n : Nat) :
    stateAt step s schedule (n + 1) = step (stateAt step s schedule n) (schedule n) := by
  rw [stateAt, List.range_succ, List.map_append]
  exact runSteps_snoc step s _ _

theorem stateAt_add (step : S -> O -> S) (s : S) (schedule : Nat -> O) (n m : Nat) :
    stateAt step s schedule (n + m) =
      stateAt step (stateAt step s schedule n) (fun i => schedule (n + i)) m := by
  induction m with
  | zero => rfl
  | succ m inductionHypothesis => rw [← Nat.add_assoc, stateAt_succ, stateAt_succ, inductionHypothesis]

/-- The program's own inputs come again and again. -/
def Fair (Own : O -> Prop) (schedule : Nat -> O) : Prop :=
  ∀ n, ∃ m, n ≤ m ∧ Own (schedule m)

theorem Fair.shift {Own : O -> Prop} {schedule : Nat -> O} (fair : Fair Own schedule) (n : Nat) :
    Fair Own (fun i => schedule (n + i)) := by
  intro start
  obtain ⟨m, late, own⟩ := fair (n + start)
  refine ⟨m - n, Nat.le_sub_of_add_le' late, ?_⟩
  dsimp only
  rw [Nat.add_sub_cancel' (Nat.le_of_add_right_le late)]
  exact own

/-- What no foreign input changes is the same until the program's first own input. -/
theorem exists_own (step : S -> O -> S) (Own : O -> Prop) {R : Type} (rank : S -> R)
    (kept : ∀ s o, ¬ Own o -> rank (step s o) = rank s) {schedule : Nat -> O} (fair : Fair Own schedule)
    (s : S) : ∃ n, Own (schedule n) ∧ rank (stateAt step s schedule n) = rank s := by
  classical
  obtain ⟨m, _, own⟩ := fair 0
  have some_ : ∃ n, Own (schedule n) := ⟨m, own⟩
  refine ⟨Nat.find some_, Nat.find_spec some_, ?_⟩
  have before : ∀ n, n ≤ Nat.find some_ -> rank (stateAt step s schedule n) = rank s := by
    intro n within
    induction n with
    | zero => rfl
    | succ n inductionHypothesis =>
        rw [stateAt_succ, kept _ _ (Nat.find_min some_ within)]
        exact inductionHypothesis (Nat.le_of_succ_le within)
  exact before _ (Nat.le_refl _)

/-- If every own input lowers a rank until the state is final, and no foreign input
changes it, every fair schedule reaches a final state. -/
theorem fair_reaches_final (step : S -> O -> S) (Own : O -> Prop) (Final : S -> Prop) {R : Type} [LT R]
    [WellFoundedLT R] (rank : S -> R) (kept : ∀ s o, ¬ Own o -> rank (step s o) = rank s)
    (lowered : ∀ s o, Own o -> ¬ Final s -> rank (step s o) < rank s) (s : S) {schedule : Nat -> O}
    (fair : Fair Own schedule) : ∃ n, Final (stateAt step s schedule n) := by
  induction known : rank s using WellFoundedLT.induction generalizing s schedule with
  | ind r inductionHypothesis =>
      obtain ⟨n, own, same⟩ := exists_own step Own rank kept fair s
      by_cases final : Final (stateAt step s schedule n)
      · exact ⟨n, final⟩
      · have lower : rank (stateAt step s schedule (n + 1)) < r := by
          rw [stateAt_succ, ← known, ← same]
          exact lowered _ _ own final
        obtain ⟨m, reached⟩ := inductionHypothesis _ lower _ (fair.shift (n + 1)) rfl
        exact ⟨n + 1 + m, stateAt_add step s schedule (n + 1) m ▸ reached⟩

end Foundations
end PscMockServer
