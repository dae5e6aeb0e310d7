import Mathlib.Data.List.Perm.Basic

namespace PscMockServer
namespace Foundations

/-!
# Dispatching a list of operations to several handlers

A dispatcher visits its handlers one after the other and gives each of them the
operations it accepts.  When no operation is accepted twice, the slices are the
accepted operations, regrouped.  When the handlers do not interfere with each other,
visiting them in turn has the effect of taking the operations in turn.
-/

namespace Dispatch

variable {H O S : Type}

/-! ## At most one handler -/

/-- At most one element has a property that no two elements share. -/
theorem length_filter_le_one {holds : H -> Bool} {handlers : List H}
    (exclusive : handlers.Pairwise (fun first second => ¬ (holds first = true ∧ holds second = true))) :
    (handlers.filter holds).length ≤ 1 := by
  induction handlers with
  | nil => exact Nat.zero_le 1
  | cons handler handlers inductionHypothesis =>
      have parts := List.pairwise_cons.mp exclusive
      rw [List.filter_cons]
      cases here : holds handler with
      | false =>
          rw [if_neg Bool.false_ne_true]
          exact inductionHypothesis parts.2
      | true =>
          have none_ : handlers.filter holds = [] := by
            rw [List.filter_eq_nil_iff]
            exact fun other member there => parts.1 other member ⟨here, there⟩
          rw [if_pos rfl, none_]
          exact Nat.le_refl 1

/-- The one handler that accepts is the first one that does. -/
theorem find?_of_exclusive {holds : H -> Bool} {handlers : List H}
    (exclusive : handlers.Pairwise (fun first second => ¬ (holds first = true ∧ holds second = true)))
    {handler : H} (listed : handler ∈ handlers) (here : holds handler = true) :
    handlers.find? holds = some handler := by
  induction handlers with
  | nil => cases listed
  | cons first handlers inductionHypothesis =>
      have parts := List.pairwise_cons.mp exclusive
      rw [List.find?_cons]
      rcases List.mem_cons.mp listed with rfl | later
      · rw [here]
      · have notFirst : holds first = false := by
          cases there : holds first with
          | false => rfl
          | true => exact absurd ⟨there, here⟩ (parts.1 handler later)
        rw [notFirst]
        exact inductionHypothesis parts.2 later

/-- The order of the handlers does not decide which one accepts. -/
theorem find?_perm {holds : H -> Bool} {handlers others : List H} (same : handlers.Perm others)
    (exclusive : handlers.Pairwise (fun first second => ¬ (holds first = true ∧ holds second = true))) :
    handlers.find? holds = others.find? holds := by
  cases found : others.find? holds with
  | none =>
      rw [List.find?_eq_none] at found ⊢
      exact fun handler listed => found handler (same.subset listed)
  | some handler =>
      exact find?_of_exclusive exclusive (same.symm.subset (List.mem_of_find?_eq_some found))
        (List.find?_some found)

/-- A pass that acts for the accepting handlers acts for the one there is. -/
theorem foldl_guarded {holds : H -> Bool} {handlers : List H}
    (exclusive : handlers.Pairwise (fun first second => ¬ (holds first = true ∧ holds second = true)))
    (act : S -> H -> S) (s : S) :
    handlers.foldl (fun s handler => if holds handler then act s handler else s) s =
      (handlers.find? holds).elim s (act s) := by
  induction handlers generalizing s with
  | nil => rfl
  | cons handler handlers inductionHypothesis =>
      have parts := List.pairwise_cons.mp exclusive
      rw [List.foldl_cons, inductionHypothesis parts.2, List.find?_cons]
      cases here : holds handler with
      | false => rw [if_neg Bool.false_ne_true]
      | true =>
          have none_ : handlers.find? holds = none := by
            rw [List.find?_eq_none]
            exact fun other member there => parts.1 other member ⟨here, there⟩
          rw [if_pos rfl, none_]
          rfl

/-- What the accepting handlers have to say is said by the first one. -/
theorem findSome?_guarded {R : Type} {holds : H -> Bool} {handlers : List H}
    (exclusive : handlers.Pairwise (fun first second => ¬ (holds first = true ∧ holds second = true)))
    (answer : H -> Option R) :
    handlers.findSome? (fun handler => if holds handler then answer handler else none) =
      (handlers.find? holds).bind answer := by
  induction handlers with
  | nil => rfl
  | cons handler handlers inductionHypothesis =>
      have parts := List.pairwise_cons.mp exclusive
      rw [List.findSome?_cons, inductionHypothesis parts.2, List.find?_cons]
      cases here : holds handler with
      | false => rw [if_neg Bool.false_ne_true]
      | true =>
          have none_ : handlers.find? holds = none := by
            rw [List.find?_eq_none]
            exact fun other member there => parts.1 other member ⟨here, there⟩
          change _ = (some handler).bind answer
          rw [if_pos rfl, none_, Option.bind_some]
          cases answer handler <;> rfl

/-! ## The slices -/

/-- Two slices without a common operation make up the operations of both. -/
theorem filter_append_filter_perm {first second : O -> Bool} {ops : List O}
    (exclusive : ∀ op ∈ ops, ¬ (first op = true ∧ second op = true)) :
    (ops.filter first ++ ops.filter second).Perm (ops.filter (fun op => first op || second op)) := by
  induction ops with
  | nil => exact List.Perm.nil
  | cons op ops inductionHypothesis =>
      have later := inductionHypothesis (fun other member => exclusive other (List.mem_cons_of_mem op member))
      have here := exclusive op List.mem_cons_self
      rw [List.filter_cons, List.filter_cons, List.filter_cons]
      cases toFirst : first op with
      | true =>
          cases toSecond : second op with
          | true => exact absurd ⟨toFirst, toSecond⟩ here
          | false =>
              simp only [Bool.true_or, if_true, if_neg Bool.false_ne_true, List.cons_append]
              exact later.cons op
      | false =>
          cases toSecond : second op with
          | true =>
              simp only [Bool.false_or, if_true, if_neg Bool.false_ne_true]
              exact List.perm_middle.trans (later.cons op)
          | false =>
              simp only [Bool.or_false, if_neg Bool.false_ne_true]
              exact later

/-- The slices together are the accepted operations. -/
theorem slices_perm {accepts : H -> O -> Bool} {handlers : List H} {ops : List O}
    (exclusive : ∀ op ∈ ops, handlers.Pairwise
      (fun first second => ¬ (accepts first op = true ∧ accepts second op = true))) :
    (handlers.flatMap (fun handler => ops.filter (accepts handler))).Perm
      (ops.filter (fun op => handlers.any (fun handler => accepts handler op))) := by
  induction handlers with
  | nil =>
      rw [List.flatMap_nil, List.filter_eq_nil_iff.mpr]
      exact fun op _ accepted => Bool.false_ne_true accepted
  | cons handler handlers inductionHypothesis =>
      have later := inductionHypothesis
        (fun op member => (List.pairwise_cons.mp (exclusive op member)).2)
      have apart : ∀ op ∈ ops, ¬ (accepts handler op = true ∧
          handlers.any (fun other => accepts other op) = true) := by
        rintro op member ⟨here, there⟩
        rcases List.any_eq_true.mp there with ⟨other, listed, accepted⟩
        exact (List.pairwise_cons.mp (exclusive op member)).1 other listed ⟨here, accepted⟩
      rw [List.flatMap_cons]
      simp only [List.any_cons]
      exact (later.append_left _).trans (filter_append_filter_perm apart)

/-! ## The effect -/

/-- Two passes over the same operations are one when the second commutes with the first. -/
theorem foldl_fuse {first second : S -> O -> S}
    (commute : ∀ s op other, second (first s other) op = first (second s op) other) (ops : List O) (s : S) :
    ops.foldl second (ops.foldl first s) = ops.foldl (fun s op => second (first s op) op) s := by
  have past : ∀ (passed : List O) (s : S) (op : O),
      second (passed.foldl first s) op = passed.foldl first (second s op) := by
    intro passed
    induction passed with
    | nil => exact fun s op => rfl
    | cons other passed inductionHypothesis =>
        intro s op
        rw [List.foldl_cons, List.foldl_cons, inductionHypothesis, commute]
  induction ops generalizing s with
  | nil => rfl
  | cons op ops inductionHypothesis =>
      rw [List.foldl_cons, List.foldl_cons, List.foldl_cons, past, inductionHypothesis]

/-- The handlers one after the other, each with all its operations, have the effect of
the operations one after the other, each with all its handlers. -/
theorem foldl_interchange {act : H -> S -> O -> S} {handlers : List H}
    (commute : handlers.Pairwise (fun first second =>
      ∀ s op other, act second (act first s other) op = act first (act second s op) other))
    (ops : List O) (s : S) :
    handlers.foldl (fun s handler => ops.foldl (act handler) s) s =
      ops.foldl (fun s op => handlers.foldl (fun s handler => act handler s op) s) s := by
  induction handlers generalizing s with
  | nil =>
      have still : ∀ (ops : List O) (s : S), ops.foldl (fun s _ => s) s = s := by
        intro ops
        induction ops with
        | nil => exact fun s => rfl
        | cons op ops inductionHypothesis => exact inductionHypothesis
      exact (still ops s).symm
  | cons handler handlers inductionHypothesis =>
      have parts := List.pairwise_cons.mp commute
      have apart : ∀ (others : List H), (∀ other ∈ others, other ∈ handlers) -> ∀ s op earlier,
          others.foldl (fun s other => act other s op) (act handler s earlier) =
            act handler (others.foldl (fun s other => act other s op) s) earlier := by
        intro others
        induction others with
        | nil => exact fun _ s op earlier => rfl
        | cons other others later =>
            intro known s op earlier
            rw [List.foldl_cons, List.foldl_cons, parts.1 other (known other List.mem_cons_self)]
            exact later (fun next member => known next (List.mem_cons_of_mem other member)) _ op earlier
      rw [List.foldl_cons, inductionHypothesis parts.2]
      exact foldl_fuse (apart handlers (fun other member => member)) ops s

end Dispatch

end Foundations
end PscMockServer
