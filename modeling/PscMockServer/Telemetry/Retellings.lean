import PscMockServer.Foundations.Histories
import PscMockServer.Telemetry.Listening

namespace PscMockServer
namespace Telemetry

open Foundations Gnmi Utils Backend Gnmi.Subscribe

/-!
# What a client was last told

Each step of a stream is built from one snapshot and tells about the leaves it reports, and
about those of their containers.  A client that hears the whole stream has at each leaf what
the last step that told about the leaf found there, whichever subscription it served.
-/

variable {σ : Type} {reg : DataProviderRegistry σ}

/-- The snapshot of the subscription's query that poll number `j` of a pass takes. -/
def polledSnapshot (reg : DataProviderRegistry σ) (sub : Subscription) (j : Nat) (pass : LoopPass σ) :
    Snapshot :=
  (reg.snapshot (pass.pollAt j) (gnmiToXpath sub.path)).snap

/-- What the initial emission carries. -/
def initialReads (reg : DataProviderRegistry σ) (timing : StreamTiming σ) (list : SubscriptionList) :
    Snapshot :=
  mergedReads reg timing.initialAt list.subscription 0 ∅

namespace Step

/-- The leaves a step finds. -/
def source (reg : DataProviderRegistry σ) (timing : StreamTiming σ) (list : SubscriptionList) :
    Step σ -> Snapshot
  | .build found _ => mergedReads reg found list.subscription 0 ∅
  | .sync => ∅
  | .sample front pass =>
      mergedReads reg pass.sampleAt (sampledAfter (sampleEntries reg timing list) front pass) 0 ∅
  | .poll _ pass j _ sub => polledSnapshot reg sub j pass

/-- The step tells about a leaf: it found one in its place or in its container, or, in a poll
without a heartbeat, one that has changed since the look before. -/
def Tells (reg : DataProviderRegistry σ) (timing : StreamTiming σ) (list : SubscriptionList) (key : Str)
    (step : Step σ) : Prop :=
  let found := step.source reg timing list
  match step with
  | .poll front pass j i sub =>
      if beatDue sub.heartbeatInterval (timing.setupNow i) j front pass then
        Carried reg.atomicPrefix found key
      else Resent reg.atomicPrefix (reg.snapshot (stateBefore timing i j front) (gnmiToXpath sub.path)).snap
        found key
  | _ => Carried reg.atomicPrefix found key

end Step

/-- The last of the steps that tells about the leaf finds this value, or nothing if the value
is `none`, as if no step tells about it. -/
def LastTold (reg : DataProviderRegistry σ) (timing : StreamTiming σ) (list : SubscriptionList)
    (steps : List (Step σ)) (key : Str) (value : Option TypedValue) : Prop :=
  (∃ before step after, steps = before ++ step :: after ∧ step.Tells reg timing list key ∧
    (∀ later ∈ after, ¬ later.Tells reg timing list key) ∧
      value = LeafStore.valueAt (step.source reg timing list) key) ∨
  (∀ step ∈ steps, ¬ step.Tells reg timing list key) ∧ value = none

theorem exists_lastTold (timing : StreamTiming σ) (list : SubscriptionList) (steps : List (Step σ)) (key : Str) :
    ∃ value, LastTold reg timing list steps key value := by
  by_cases told : ∃ step ∈ steps, step.Tells reg timing list key
  · rcases exists_last told with ⟨before, step, after, split, tells, quiet⟩
    exact ⟨_, Or.inl ⟨before, step, after, split, tells, quiet, rfl⟩⟩
  · exact ⟨none, Or.inr ⟨fun step member tells => told ⟨step, member, tells⟩, rfl⟩⟩

/-- Steps that do not tell about the leaf change nothing. -/
theorem LastTold.append {timing : StreamTiming σ} {list : SubscriptionList} {steps more : List (Step σ)}
    {key : Str} {value : Option TypedValue} (lastTold : LastTold reg timing list steps key value)
    (quiet : ∀ step ∈ more, ¬ step.Tells reg timing list key) :
    LastTold reg timing list (steps ++ more) key value := by
  rcases lastTold with ⟨before, step, after, rfl, told, none_, same⟩ | ⟨none_, nothing⟩
  · refine Or.inl ⟨before, step, after ++ more, by simp only [List.append_assoc, List.cons_append], told, ?_, same⟩
    intro later member
    exact (List.mem_append.mp member).elim (none_ later) (quiet later)
  · refine Or.inr ⟨fun step member => ?_, nothing⟩
    exact (List.mem_append.mp member).elim (none_ step) (quiet step)

/-! ## The notifications of a step -/

theorem heard_steps (timing : StreamTiming σ) (list : SubscriptionList) (steps : List (Step σ)) :
    heard allSites (steps.flatMap (Step.writes reg timing list)) = steps.flatMap (Step.notes reg timing list) := by
  induction steps with
  | nil => rfl
  | cons step rest inductionHypothesis =>
      have own : heard allSites (step.writes reg timing list) = step.notes reg timing list := by
        by_cases isSync : step = .sync
        · rw [isSync]
          rfl
        · rw [Step.writes_of_ne_sync timing list isSync, heard_writeAll]
          rfl
      rw [List.flatMap_cons, heard_append, inductionHypothesis, own, List.flatMap_cons]

/-- The notifications bring a view to what was found, at the leaves they tell about. -/
structure TellsOf (notes : List Notification) (found : Snapshot) (Told : Str -> Prop) : Prop where
  sound : Sound (script notes) (viewOf found)
  told : ∀ {key}, Canonical key -> (touches (script notes) (pathOf key) = true ↔ Told key)

theorem tellsOf_full (law : AtomicLaw reg.atomicPrefix) {found : Snapshot} (canonical : CanonicalKeys found)
    (clock : Nat -> Int) :
    TellsOf (buildFullNotifications found reg clock) found (Carried reg.atomicPrefix found) :=
  ⟨sound_buildFull law canonical clock, fun isCanonical => touches_buildFull law canonical clock isCanonical⟩

theorem tellsOf_nothing (atomicPrefix : Str -> Option Str) : TellsOf [] ∅ (Carried atomicPrefix ∅) := by
  refine ⟨sound_nil _, fun _ => ⟨fun impossible => absurd impossible Bool.false_ne_true, ?_⟩⟩
  rintro (⟨leaf, found⟩ | ⟨_, _, other, leaf, _, found⟩)
  · rw [Std.ExtTreeMap.getElem?_empty] at found
    cases found
  · rw [Std.ExtTreeMap.getElem?_empty] at found
    cases found

section Notes

variable {Valid : σ -> Prop} {stored : σ -> Str -> Option Leaf} (serves : Serves reg Valid stored)
variable {timing : StreamTiming σ} (valid : ValidTiming Valid timing)
variable {list : SubscriptionList} (noPrefix : list.pathPrefix = none) (buildable : Buildable reg list)
variable {step : Step σ} (known : Known reg timing [] list step)

include serves valid noPrefix buildable known

/-- What a step sends tells what it found. -/
theorem Step.tellsOf :
    TellsOf (step.notes reg timing list) (step.source reg timing list) (step.Tells reg timing list) := by
  have built : ∀ (found : Nat -> σ) (clock : Nat -> Int) (subs : List Subscription), (∀ i, Valid (found i)) ->
      (∀ sub ∈ subs, sub ∈ list.subscription) ->
        TellsOf (buildSubscribeNotifications reg found clock (withSubscriptions list subs)).2
          (mergedReads reg found subs 0 ∅) (Carried reg.atomicPrefix (mergedReads reg found subs 0 ∅)) := by
    intro found clock subs validFound some_
    have plain : (withSubscriptions list subs).pathPrefix = none := noPrefix
    rw [build_of_buildable found clock (buildable_withSubscriptions buildable some_), plain,
      map_withRequestPrefix_none]
    exact tellsOf_full serves.law (serves.mergedReads_canonical validFound subs 0) clock
  cases known with
  | initial _ => exact built timing.initialAt _ list.subscription valid.initial (fun _ member => member)
  | answer message listed _ => exact absurd listed List.not_mem_nil
  | sync => exact tellsOf_nothing reg.atomicPrefix
  | sample front pass isFront =>
      have member := mem_of_snoc (isFront.trans (reachedPasses_front timing list))
      have batch : TellsOf (if sampledAfter (sampleEntries reg timing list) front pass = [] then []
            else (buildSubscribeNotifications reg pass.sampleAt pass.sampleClock
              (withSubscriptions list (sampledAfter (sampleEntries reg timing list) front pass))).2)
          (mergedReads reg pass.sampleAt (sampledAfter (sampleEntries reg timing list) front pass) 0 ∅)
          (Carried reg.atomicPrefix
            (mergedReads reg pass.sampleAt (sampledAfter (sampleEntries reg timing list) front pass) 0 ∅)) := by
        split
        · next none_ =>
            rw [none_]
            exact tellsOf_nothing reg.atomicPrefix
        · exact built pass.sampleAt pass.sampleClock _ (valid.sample pass member)
            (fun sub due => (mem_sampledAfter due).1)
      exact batch
  | poll front pass j i sub isFront entry =>
      have inStream := isFront.trans (reachedPasses_front timing list)
      have drawnPrev := serves.drawn (valid.before inStream i j) (gnmiToXpath sub.path)
      have drawnCur := serves.drawn (valid.poll pass (mem_of_snoc inStream) j) (gnmiToXpath sub.path)
      unfold Step.notes Step.source Step.Tells pollNotes
      by_cases due : beatDue sub.heartbeatInterval (timing.setupNow i) j front pass = true
      · simp only [due, if_true]
        exact tellsOf_full serves.law drawnCur.canonical _
      · simp only [due]
        exact ⟨sound_buildChange drawnPrev.canonical drawnCur.canonical serves.law _,
          fun isCanonical => touches_buildChange drawnPrev.canonical drawnCur.canonical serves.law _ isCanonical⟩

end Notes

/-- A client that hears the whole stream has at each leaf what it was last told. -/
theorem viewAfter_steps_iff {Valid : σ -> Prop} {stored : σ -> Str -> Option Leaf}
    (serves : Serves reg Valid stored) {timing : StreamTiming σ} (valid : ValidTiming Valid timing)
    {list : SubscriptionList} (noPrefix : list.pathPrefix = none) (buildable : Buildable reg list)
    {steps : List (Step σ)} (known : ∀ step ∈ steps, Known reg timing [] list step) {key : Str}
    (canonical : Canonical key) (value : Option TypedValue) :
    viewAfter (steps.flatMap (Step.writes reg timing list)) (pathOf key) = value ↔
      LastTold reg timing list steps key value := by
  have tells := fun step member => Step.tellsOf serves valid noPrefix buildable (known step member)
  have untouched : ∀ step ∈ steps, ¬ step.Tells reg timing list key ->
      touches (script (step.notes reg timing list)) (pathOf key) = false := by
    intro step member quiet
    rw [← Bool.not_eq_true, (tells step member).told canonical]
    exact quiet
  have blocks : script (steps.flatMap (Step.notes reg timing list)) =
      steps.flatMap (fun step => script (step.notes reg timing list)) := List.flatMap_assoc
  have told : ∀ {value}, LastTold reg timing list steps key value ->
      viewAfter (steps.flatMap (Step.writes reg timing list)) (pathOf key) = value := by
    intro value lastTold
    rw [viewAfter, heard_steps, applyNotifications, blocks]
    rcases lastTold with ⟨before, step, after, rfl, told, quiet, rfl⟩ | ⟨quiet, rfl⟩
    · have own := tells step (List.mem_append_right before List.mem_cons_self)
      rw [runEdits_flatMap_of_last (fun step => script (Step.notes reg timing list step)) own.sound
        ((own.told canonical).mpr told), viewOf_pathOf _ canonical]
      exact fun later member => untouched later
        (List.mem_append_right before (List.mem_cons_of_mem step member)) (quiet later member)
    · exact runEdits_flatMap_of_untouched (fun step member => untouched step member (quiet step member)) _
  constructor
  · rintro rfl
    rcases exists_lastTold timing list steps key with ⟨value, lastTold⟩
    exact (told lastTold) ▸ lastTold
  · exact told

/-- After steps that do not tell about a leaf, one that does puts it right and one that does
not leaves it. -/
theorem viewAfter_snoc {Valid : σ -> Prop} {stored : σ -> Str -> Option Leaf}
    (serves : Serves reg Valid stored) {timing : StreamTiming σ} (valid : ValidTiming Valid timing)
    {list : SubscriptionList} (noPrefix : list.pathPrefix = none) (buildable : Buildable reg list)
    {steps middle : List (Step σ)} {own : Step σ}
    (known : ∀ step ∈ steps ++ middle ++ [own], Known reg timing [] list step) {key : Str}
    (canonical : Canonical key) (quiet : ∀ step ∈ middle, ¬ step.Tells reg timing list key) :
    (own.Tells reg timing list key ->
      viewAfter ((steps ++ middle ++ [own]).flatMap (Step.writes reg timing list)) (pathOf key) =
        LeafStore.valueAt (own.source reg timing list) key) ∧
    (¬ own.Tells reg timing list key ->
      viewAfter ((steps ++ middle ++ [own]).flatMap (Step.writes reg timing list)) (pathOf key) =
        viewAfter (steps.flatMap (Step.writes reg timing list)) (pathOf key)) := by
  have whole := viewAfter_steps_iff serves valid noPrefix buildable known canonical
  have first : ∀ step ∈ steps, Known reg timing [] list step := fun step member =>
    known step (List.mem_append_left [own] (List.mem_append_left middle member))
  constructor
  · intro tells
    exact (whole _).mpr (Or.inl ⟨steps ++ middle, own, [], rfl, tells,
      fun _ member => absurd member List.not_mem_nil, rfl⟩)
  · intro silent
    have lastTold := (viewAfter_steps_iff serves valid noPrefix buildable first canonical _).mp rfl
    refine (whole _).mpr ((lastTold.append quiet).append fun step member => ?_)
    rw [List.mem_singleton.mp member]
    exact silent

end Telemetry
end PscMockServer
