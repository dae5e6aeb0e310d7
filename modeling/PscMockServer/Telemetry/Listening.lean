import PscMockServer.Telemetry.CallSteps
import PscMockServer.Telemetry.Serving

namespace PscMockServer
namespace Telemetry

open Foundations Gnmi Utils Backend Gnmi.Subscribe

/-!
# Clients that listen to a stream

A stream interleaves the writes of several subscriptions.  A client hears the
notifications of the sites it listens to.  A subscription whose query is apart from
another's never tells about the leaves of that one.
-/

/-! ## What a client hears -/

/-- The notifications among the responses of the sites a client listens to. -/
def heard (listens : Site -> Bool) (sent : List Sent) : List Notification :=
  sent.filterMap (fun s =>
    match s.response with
    | .update n => if listens s.site then some n else none
    | .syncResponse => none)

/-- A client that listens to the whole stream. -/
def allSites (_ : Site) : Bool :=
  true

/-- The view of a client that started from nothing and hears the whole stream. -/
def viewAfter (sent : List Sent) : View :=
  applyNotifications (fun _ => none) (heard allSites sent)

/-- On the leaves the query selects, the view has exactly the values of the snapshot. -/
def ShowsOn (query : Str) (view : View) (snap : Snapshot) : Prop :=
  ∀ key, Canonical key -> selects (stripPathQuotes query) key = true ->
    view (pathOf key) = LeafStore.valueAt snap key

theorem heard_append (listens : Site -> Bool) (first second : List Sent) :
    heard listens (first ++ second) = heard listens first ++ heard listens second :=
  List.filterMap_append

theorem heard_writeAll (listens : Site -> Bool) (site : Site) (notes : List Notification) :
    heard listens (writeAll site notes) = if listens site then notes else [] := by
  rw [heard, writeAll, List.filterMap_map]
  cases heardHere : listens site with
  | true =>
      rw [if_pos rfl]
      refine (List.filterMap_congr (g := some) ?_).trans List.filterMap_some
      intro n _
      simp [heardHere]
  | false =>
      rw [if_neg Bool.false_ne_true, List.filterMap_eq_nil_iff]
      intro n _
      simp [heardHere]

theorem heard_syncResponse (listens : Site -> Bool) : heard listens syncResponse = [] := rfl

/-! ## Queries apart -/

/-- The other query selects no leaf of this one, and no leaf of a container that this
one selects from. -/
def Apart (atomicPrefix : Str -> Option Str) (query other : Str) : Prop :=
  ∀ key otherKey, Canonical key -> Canonical otherKey ->
    selects (stripPathQuotes query) key = true -> selects (stripPathQuotes other) otherKey = true ->
      key ≠ otherKey ∧ ∀ container, atomicPrefix key = some container ->
        atomicPrefix otherKey ≠ some container

variable {σ : Type} {reg : DataProviderRegistry σ} {query other : Str}

/-- What was read for queries apart carries no leaf of this one. -/
theorem not_carried_of_apart {snap : Snapshot} (foreign : ∀ (otherKey : Str) (leaf : Leaf),
      snap[otherKey]? = some leaf -> Canonical otherKey ∧ ∃ other, Apart reg.atomicPrefix query other ∧
        selects (stripPathQuotes other) otherKey = true)
    {key : Str} (canonical : Canonical key) (selected : selects (stripPathQuotes query) key = true) :
    ¬ Carried reg.atomicPrefix snap key := by
  rintro (⟨leaf, found⟩ | ⟨container, isC, otherKey, leaf, otherIsC, found⟩)
  · rcases foreign key leaf found with ⟨_, other, apart, known⟩
    exact (apart key key canonical canonical selected known).1 rfl
  · rcases foreign otherKey leaf found with ⟨otherCanonical, other, apart, known⟩
    exact (apart key otherKey canonical otherCanonical selected known).2 container isC otherIsC

theorem Apart.not_resent (apart : Apart reg.atomicPrefix query other) {prev cur : Snapshot}
    (drawnPrev : Drawn other prev) (drawnCur : Drawn other cur) {key : Str} (canonical : Canonical key)
    (selected : selects (stripPathQuotes query) key = true) :
    ¬ Resent reg.atomicPrefix prev cur key := by
  have drawn : ∀ otherKey, Differs prev cur otherKey ->
      Canonical otherKey ∧ selects (stripPathQuotes other) otherKey = true := by
    intro otherKey differs
    rcases differs.stored with ⟨leaf, found⟩ | ⟨leaf, found⟩
    · exact drawnPrev otherKey leaf found
    · exact drawnCur otherKey leaf found
  rintro (⟨_, differs⟩ | ⟨container, isC, otherKey, otherIsC, differs⟩)
  · have known := drawn key differs
    exact (apart key key canonical known.1 selected known.2).1 rfl
  · have known := drawn otherKey differs
    exact (apart key otherKey canonical known.1 selected known.2).2 container isC otherIsC

end Telemetry
end PscMockServer
