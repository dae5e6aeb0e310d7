import Mathlib.Computability.StateTransition

namespace PscMockServer
namespace Foundations

open StateTransition

/-!
# Loops and their bounds

A `while` loop is a step function that is undefined where the loop is left.  A model
of it that counts its iterations computes the state the loop is left in, as soon as the
count is at least a measure that every iteration lowers; in particular the loop is left.
-/

variable {S R : Type}

/-- The loop with at most `fuel` iterations, and what is read of its last state. -/
def boundedLoop (step : S -> Option S) (read : S -> R) : Nat -> S -> R
  | 0, s => read s
  | fuel + 1, s =>
      match step s with
      | none => read s
      | some next => boundedLoop step read fuel next

/-- A loop that is left at once. -/
theorem mem_eval_of_none {step : S -> Option S} {s : S} (left : step s = none) : s ∈ eval step s :=
  mem_eval.mpr ⟨Relation.ReflTransGen.refl, left⟩

theorem mem_eval_of_some {step : S -> Option S} {s next exit : S} (iterates : step s = some next)
    (leaves : exit ∈ eval step next) : exit ∈ eval step s := by
  rcases mem_eval.mp leaves with ⟨reached, left⟩
  exact mem_eval.mpr ⟨Relation.ReflTransGen.head iterates reached, left⟩

/-- With enough fuel for the measure the bound is never met. -/
theorem boundedLoop_exits {step : S -> Option S} (read : S -> R) (measure : S -> Nat)
    (lowered : ∀ s next, step s = some next -> measure next < measure s) {fuel : Nat} {s : S}
    (enough : measure s ≤ fuel) : ∃ exit ∈ eval step s, boundedLoop step read fuel s = read exit := by
  induction fuel generalizing s with
  | zero =>
      cases iterates : step s with
      | none => exact ⟨s, mem_eval_of_none iterates, rfl⟩
      | some next =>
          have lower := lowered s next iterates
          omega
  | succ fuel inductionHypothesis =>
      cases iterates : step s with
      | none =>
          refine ⟨s, mem_eval_of_none iterates, ?_⟩
          simp only [boundedLoop, iterates]
      | some next =>
          have lower := lowered s next iterates
          rcases inductionHypothesis (s := next) (by omega) with ⟨exit, leaves, same⟩
          refine ⟨exit, mem_eval_of_some iterates leaves, ?_⟩
          simp only [boundedLoop, iterates]
          exact same

/-- What every iteration keeps holds in every state the loop reaches. -/
theorem invariant_of_reaches {step : S -> Option S} (Good : S -> Prop)
    (kept : ∀ s next, Good s -> step s = some next -> Good next) {s t : S} (good : Good s)
    (reached : Reaches step s t) : Good t := by
  induction reached with
  | refl => exact good
  | tail _ iterates inductionHypothesis => exact kept _ _ inductionHypothesis iterates

end Foundations
end PscMockServer
