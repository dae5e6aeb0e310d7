import Mathlib.Data.List.Basic

namespace PscMockServer
namespace Foundations

/-!
# Searching and slicing strings by position

Code over byte strings searches for a delimiter from a position and cuts a
substring out by position and length.  The functions here are those two
operations and the search for a whole substring, over lists of any type, with
the laws that replace a position by a decomposition of the list: a position is
the length of what lies before it.
-/

variable {α : Type} [DecidableEq α]

/-- The first index at or after `pos` that holds `c`. -/
def findFrom (s : List α) (c : α) (pos : Nat) : Option Nat :=
  ((s.drop pos).findIdx? (fun x => decide (x = c))).map (fun i => pos + i)

/-- The part of `s` from `pos` on, at most `len` long. -/
def slice (s : List α) (pos len : Nat) : List α :=
  (s.drop pos).take len

/-- The first index at which `pattern` occurs as a contiguous part of `s`. -/
def findSub (pattern : List α) : List α -> Option Nat
  | [] => if pattern = [] then some 0 else none
  | x :: rest =>
      if pattern.isPrefixOf (x :: rest) then some 0
      else (findSub pattern rest).map (fun i => i + 1)

/-! ## Delimiter search -/

theorem findIdx?_hit (before after : List α) (c : α) (clean : c ∉ before) :
    (before ++ c :: after).findIdx? (fun x => decide (x = c)) = some before.length := by
  induction before with
  | nil => simp [List.findIdx?_cons]
  | cons head tail inductionHypothesis =>
      have different : head ≠ c := fun same => clean (same ▸ List.mem_cons_self)
      have cleanTail : c ∉ tail := fun member => clean (List.mem_cons_of_mem head member)
      rw [List.cons_append, List.findIdx?_cons, if_neg (by simpa using different),
        inductionHypothesis cleanTail]
      rfl

theorem findIdx?_miss (whole : List α) (c : α) (clean : c ∉ whole) :
    whole.findIdx? (fun x => decide (x = c)) = none := by
  rw [List.findIdx?_eq_none_iff]
  intro x member
  exact decide_eq_false (fun same => clean (same ▸ member))

/-- Searching from the end of a known part finds the first delimiter after it. -/
theorem findFrom_append_hit (seen before after : List α) (c : α) (clean : c ∉ before) :
    findFrom (seen ++ (before ++ c :: after)) c seen.length =
      some (seen.length + before.length) := by
  rw [findFrom, List.drop_left, findIdx?_hit before after c clean]
  rfl

theorem findFrom_append_miss (seen rest : List α) (c : α) (clean : c ∉ rest) :
    findFrom (seen ++ rest) c seen.length = none := by
  rw [findFrom, List.drop_left, findIdx?_miss rest c clean]
  rfl

/-- Searching from one character after the known part. -/
theorem findFrom_append_cons_hit (seen before after : List α) (x c : α) (clean : c ∉ before) :
    findFrom (seen ++ x :: (before ++ c :: after)) c (seen.length + 1) =
      some (seen.length + 1 + before.length) := by
  have hit := findFrom_append_hit (seen ++ [x]) before after c clean
  rw [List.length_append, List.append_assoc] at hit
  exact hit

theorem findFrom_append_cons_miss (seen rest : List α) (x c : α) (clean : c ∉ rest) :
    findFrom (seen ++ x :: rest) c (seen.length + 1) = none := by
  have miss := findFrom_append_miss (seen ++ [x]) rest c clean
  rw [List.length_append, List.append_assoc] at miss
  exact miss

omit [DecidableEq α] in
theorem slice_append (before middle after : List α) :
    slice (before ++ (middle ++ after)) before.length middle.length = middle := by
  rw [slice, List.drop_left, List.take_left]

/-! ## Substring search -/

theorem findSub_some {pattern : List α} {s : List α} {i : Nat}
    (found : findSub pattern s = some i) :
    pattern <+: s.drop i ∧ ∀ j < i, ¬ pattern <+: s.drop j := by
  induction s generalizing i with
  | nil =>
      by_cases empty : pattern = []
      · rw [findSub, if_pos empty] at found
        cases found
        exact ⟨empty ▸ List.nil_prefix, by intro j impossible; exact absurd impossible (Nat.not_lt_zero j)⟩
      · rw [findSub, if_neg empty] at found
        cases found
  | cons x rest inductionHypothesis =>
      rw [findSub] at found
      by_cases here : pattern.isPrefixOf (x :: rest) = true
      · rw [if_pos here] at found
        cases found
        exact ⟨List.isPrefixOf_iff_prefix.mp here,
          by intro j impossible; exact absurd impossible (Nat.not_lt_zero j)⟩
      · rw [if_neg here, Option.map_eq_some_iff] at found
        rcases found with ⟨k, later, rfl⟩
        have spec := inductionHypothesis later
        refine ⟨spec.1, ?_⟩
        intro j below
        cases j with
        | zero => exact fun occurs => here (List.isPrefixOf_iff_prefix.mpr occurs)
        | succ j => exact spec.2 j (Nat.lt_of_succ_lt_succ below)

theorem findSub_none {pattern : List α} {s : List α} (missing : findSub pattern s = none) (j : Nat) :
    ¬ pattern <+: s.drop j := by
  induction s generalizing j with
  | nil =>
      by_cases empty : pattern = []
      · rw [findSub, if_pos empty] at missing
        cases missing
      · rw [List.drop_nil]
        exact fun occurs => empty (List.prefix_nil.mp occurs)
  | cons x rest inductionHypothesis =>
      rw [findSub] at missing
      by_cases here : pattern.isPrefixOf (x :: rest) = true
      · rw [if_pos here] at missing
        cases missing
      · rw [if_neg here, Option.map_eq_none_iff] at missing
        cases j with
        | zero => exact fun occurs => here (List.isPrefixOf_iff_prefix.mpr occurs)
        | succ j => exact inductionHypothesis missing j

end Foundations
end PscMockServer
