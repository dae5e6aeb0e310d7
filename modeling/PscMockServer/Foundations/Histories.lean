import Mathlib.Data.List.Induction

namespace PscMockServer
namespace Foundations

/-!
# What the present goes back to

Something is observed after each history of a system, the latest event last.  A law says
what one event can leave where it changes something.  What is observed at a moment was then
there at any given earlier one already and has not changed since, or the last event that
wrote it in between has left it.
-/

variable {O V : Type}

/-- The event happens after one moment and not after another. -/
structure Between (earlier later front : List O) (o : O) : Prop where
  after : earlier <+: front
  before : front ++ [o] <+: later

/-- Every moment from one to another observes the same. -/
def Unchanged (observe : List O -> V) (earlier later : List O) : Prop :=
  ∀ moment, earlier <+: moment -> moment <+: later -> observe moment = observe later

/-- An event leaves an observation alone or writes it. -/
def WriteLaw (observe : List O -> V) (Writes : List O -> O -> V -> Prop) : Prop :=
  ∀ front o, observe (front ++ [o]) = observe front ∨ Writes front o (observe (front ++ [o]))

theorem Between.mono {earlier later front : List O} {o : O} (between : Between earlier later front o)
    {longer : List O} (order : later <+: longer) : Between earlier longer front o :=
  ⟨between.after, between.before.trans order⟩

theorem Unchanged.eq {observe : List O -> V} {earlier later : List O}
    (unchanged : Unchanged observe earlier later) (order : earlier <+: later) :
    observe earlier = observe later :=
  unchanged earlier List.prefix_rfl order

theorem unchanged_refl (observe : List O -> V) (moment : List O) : Unchanged observe moment moment := by
  intro other after before
  rw [before.eq_of_length_le after.length_le]

/-- One more event that leaves the observation alone. -/
theorem Unchanged.snoc {observe : List O -> V} {earlier later : List O}
    (unchanged : Unchanged observe earlier later) {o : O} (same : observe (later ++ [o]) = observe later) :
    Unchanged observe earlier (later ++ [o]) := by
  intro moment after before
  rcases List.prefix_concat_iff.mp before with rfl | within
  · rfl
  · rw [same]
    exact unchanged moment after within

/-- An observation has not changed since the earlier moment, or not since its last writer. -/
theorem WriteLaw.last_writer {observe : List O -> V} {Writes : List O -> O -> V -> Prop}
    (law : WriteLaw observe Writes) {earlier later : List O} (order : earlier <+: later) :
    Unchanged observe earlier later ∨
      ∃ front o, Between earlier later front o ∧ Writes front o (observe later) ∧
        Unchanged observe (front ++ [o]) later := by
  rcases order with ⟨events, rfl⟩
  induction events using List.reverseRecOn with
  | nil =>
      rw [List.append_nil]
      exact Or.inl (unchanged_refl observe earlier)
  | append_singleton events o inductionHypothesis =>
      rw [← List.append_assoc]
      rcases law (earlier ++ events) o with same | written
      · refine inductionHypothesis.imp (fun unchanged => unchanged.snoc same) ?_
        rintro ⟨front, other, between, writes, since⟩
        rw [← same] at writes
        exact ⟨front, other, between.mono (List.prefix_append _ [o]), writes, since.snoc same⟩
      · exact Or.inr ⟨earlier ++ events, o, ⟨List.prefix_append earlier events, List.prefix_rfl⟩, written,
          unchanged_refl observe _⟩

/-- Of the items of a list with a property one is the last. -/
theorem exists_last {property : O -> Prop} {items : List O} (some_ : ∃ o ∈ items, property o) :
    ∃ before o after, items = before ++ o :: after ∧ property o ∧ ∀ later ∈ after, ¬ property later := by
  induction items with
  | nil =>
      rcases some_ with ⟨o, member, _⟩
      exact absurd member List.not_mem_nil
  | cons first rest inductionHypothesis =>
      by_cases later : ∃ o ∈ rest, property o
      · rcases inductionHypothesis later with ⟨before, o, after, rfl, holds, none_⟩
        exact ⟨first :: before, o, after, rfl, holds, none_⟩
      · rcases some_ with ⟨o, member, holds⟩
        rcases List.mem_cons.mp member with rfl | inRest
        · exact ⟨[], o, rest, rfl, holds, fun other inRest has => later ⟨other, inRest, has⟩⟩
        · exact absurd ⟨o, inRest, holds⟩ later

end Foundations
end PscMockServer
