import PscMockServer.Telemetry.Retellings

namespace PscMockServer
namespace Telemetry

open Foundations Gnmi Utils Backend Gnmi.Subscribe

/-!
# From the initial emission to the polls

The client of an ON_CHANGE subscription starts from the initial emission; the server
starts its diffs from a second snapshot, the baseline.  What changed between the two
is in no diff.  It reaches the client only if the first poll happens to report the
same leaf, or a leaf of the same container, once more.  And the entries of one stream
look at the store at different times, so where their queries overlap each may put the
client back to what it has found.
-/

variable {σ : Type} {reg : DataProviderRegistry σ} {Valid : σ -> Prop} {stored : σ -> Str -> Option Leaf}

/-! ## The steps up to a poll -/

/-- The steps of a stream up to the poll of entry `j` in `pass`, which comes after the passes
`front`. -/
def stepsToPoll (reg : DataProviderRegistry σ) (timing : StreamTiming σ) (list : SubscriptionList)
    (front : List (LoopPass σ)) (pass : LoopPass σ) (j : Nat) : List (Step σ) :=
  openingSteps timing list ++ loopSteps (onChangeSubs reg list) [] front ++
    (passSteps (onChangeSubs reg list) front pass).take (j + 2)

theorem sentAtPoll_steps (timing : StreamTiming σ) {list : SubscriptionList} (accepted : Accepted reg list)
    (initialEmit : list.updatesOnly = false) (front : List (LoopPass σ)) (pass : LoopPass σ) (j : Nat) :
    sentAtPoll reg timing list front pass j =
      (stepsToPoll reg timing list front pass j).flatMap (Step.writes reg timing list) := by
  have opening : openingWrites reg timing list =
      (openingSteps timing list).flatMap (Step.writes reg timing list) := by
    rw [openingSteps, initialEmit]
    rfl
  have passes : passWrites reg list front (openingBuckets reg timing list) = _ :=
    passWrites_after timing accepted.1 front []
  rw [sentAtPoll, stepsToPoll, List.flatMap_append, List.flatMap_append, opening,
    writesUpTo_after timing accepted.1]
  rw [passes]

theorem loopSteps_append (list : SubscriptionList) (before front rest : List (LoopPass σ)) :
    loopSteps (onChangeSubs reg list) before (front ++ rest) =
      loopSteps (onChangeSubs reg list) before front ++
        loopSteps (onChangeSubs reg list) (before ++ front) rest := by
  induction front generalizing before with
  | nil => rw [List.append_nil]; rfl
  | cons pass front inductionHypothesis =>
      rw [List.cons_append, loopSteps, inductionHypothesis, loopSteps, List.append_assoc, List.append_assoc]
      rfl

/-- They are the first steps of the stream. -/
theorem stepsToPoll_front {timing : StreamTiming σ} {list : SubscriptionList} {front : List (LoopPass σ)}
    {pass : LoopPass σ} (isFront : front ++ [pass] <+: timing.passes) (j : Nat) :
    stepsToPoll reg timing list front pass j <+:
      openingSteps timing list ++ loopSteps (onChangeSubs reg list) [] timing.passes := by
  rcases isFront with ⟨rest, passes⟩
  rw [← passes, List.append_assoc, loopSteps_append, stepsToPoll, List.append_assoc]
  apply (List.prefix_append_right_inj _).mpr
  apply (List.prefix_append_right_inj _).mpr
  exact (List.take_prefix _ _).trans (List.prefix_append _ _)

/-- The last of them is the poll. -/
theorem take_passSteps {list : SubscriptionList} {j i : Nat} {sub : Subscription}
    (entry : (onChangeSubs reg list)[j]? = some (sub, i)) (front : List (LoopPass σ)) (pass : LoopPass σ) :
    (passSteps (onChangeSubs reg list) front pass).take (j + 2) =
      (passSteps (onChangeSubs reg list) front pass).take (j + 1) ++ [.poll front pass j i sub] := by
  have poll : (passSteps (onChangeSubs reg list) front pass)[j + 1]? = some (.poll front pass j i sub) := by
    rw [passSteps, List.getElem?_cons_succ, List.getElem?_mapIdx, entry]
    rfl
  rw [List.take_add_one, poll]
  rfl

theorem own_not_mem_take {list : SubscriptionList} {front : List (LoopPass σ)} {pass : LoopPass σ} {j i : Nat}
    {sub : Subscription} {step : Step σ}
    (listed : step ∈ (passSteps (onChangeSubs reg list) front pass).take (j + 1)) :
    step ≠ .poll front pass j i sub := by
  rintro rfl
  rw [passSteps, List.take_succ_cons] at listed
  rcases List.mem_cons.mp listed with impossible | polled
  · cases impossible
  · rcases List.mem_take_iff_getElem.mp polled with ⟨k, inside, same⟩
    rw [List.getElem_mapIdx] at same
    cases same
    omega

theorem own_not_mem_drop {list : SubscriptionList} {front : List (LoopPass σ)} {pass : LoopPass σ} {j i : Nat}
    {sub : Subscription} {step : Step σ}
    (listed : step ∈ (passSteps (onChangeSubs reg list) front pass).drop (j + 2)) :
    step ≠ .poll front pass j i sub := by
  rintro rfl
  rw [passSteps, List.drop_succ_cons] at listed
  rcases List.mem_drop_iff_getElem.mp listed with ⟨k, inside, same⟩
  rw [List.getElem_mapIdx] at same
  have number : j + 1 + k = j := (Step.poll.inj same).2.2.1
  omega

/-- Between two polls of an entry come the later polls of its pass and the earlier steps of
the next one. -/
theorem stepsToPoll_snoc (timing : StreamTiming σ) {list : SubscriptionList} {j i : Nat} {sub : Subscription}
    (entry : (onChangeSubs reg list)[j]? = some (sub, i)) (front : List (LoopPass σ)) (last pass : LoopPass σ) :
    stepsToPoll reg timing list (front ++ [last]) pass j =
      stepsToPoll reg timing list front last j ++ ((passSteps (onChangeSubs reg list) front last).drop (j + 2) ++
        (passSteps (onChangeSubs reg list) (front ++ [last]) pass).take (j + 1)) ++
          [.poll (front ++ [last]) pass j i sub] := by
  have loop : loopSteps (onChangeSubs reg list) [] (front ++ [last]) =
      loopSteps (onChangeSubs reg list) [] front ++ passSteps (onChangeSubs reg list) front last := by
    rw [loopSteps_append, loopSteps, loopSteps, List.append_nil, List.nil_append]
  have cut := List.take_append_drop (j + 2) (passSteps (onChangeSubs reg list) front last)
  rw [stepsToPoll, take_passSteps entry, loop, stepsToPoll]
  conv_lhs => rw [← cut]
  simp only [List.append_assoc]

/-! ## One entry -/

/-- A stream with an initial emission and no request prefix, and its subscription `sub`:
ON_CHANGE, without heartbeats, after the subscriptions `front` and before `rest`. -/
structure OnChangeStream (reg : DataProviderRegistry σ) (Valid : σ -> Prop) (timing : StreamTiming σ)
    (list : SubscriptionList) (front : List Subscription) (sub : Subscription) (rest : List Subscription) :
    Prop where
  valid : ValidTiming Valid timing
  accepted : Accepted reg list
  initialEmit : list.updatesOnly = false
  noPrefix : list.pathPrefix = none
  subscriptions : list.subscription = front ++ sub :: rest
  onChange : resolveStreamMode sub reg = .onChange
  noHeartbeat : sub.heartbeatInterval = 0

/-- Right after every poll the client has exactly what the poll found. -/
def RightAtPolls (reg : DataProviderRegistry σ) (timing : StreamTiming σ) (list : SubscriptionList)
    (sub : Subscription) (j : Nat) : Prop :=
  ∀ before pass, before ++ [pass] <+: timing.passes ->
    ShowsOn (gnmiToXpath sub.path) (viewAfter (sentAtPoll reg timing list before pass j))
      (polledSnapshot reg sub j pass)

/-- At every poll, the last step up to then that tells about a leaf of the query, for any
subscription of the list, has found it as the poll does. -/
def UpToDate (reg : DataProviderRegistry σ) (timing : StreamTiming σ) (list : SubscriptionList)
    (sub : Subscription) (j : Nat) : Prop :=
  ∀ before pass, before ++ [pass] <+: timing.passes ->
    ∀ key, Canonical key -> selects (stripPathQuotes (gnmiToXpath sub.path)) key = true ->
      LastTold reg timing list (stepsToPoll reg timing list before pass j) key
        (LeafStore.valueAt (polledSnapshot reg sub j pass) key)

/-- Every leaf of the query has the same value in the initial emission and in the
baseline, or the first poll reports it once more. -/
def LossFree (reg : DataProviderRegistry σ) (timing : StreamTiming σ) (sub : Subscription) (j : Nat)
    (initial baseline : Snapshot) : Prop :=
  ∀ first, timing.passes.head? = some first ->
    ∀ key, Canonical key -> selects (stripPathQuotes (gnmiToXpath sub.path)) key = true ->
      LeafStore.valueAt initial key = LeafStore.valueAt baseline key ∨
        Resent reg.atomicPrefix baseline (polledSnapshot reg sub j first) key

namespace OnChangeStream

variable {timing : StreamTiming σ} {list : SubscriptionList} {front rest : List Subscription}
variable {sub : Subscription}

theorem known (stream : OnChangeStream reg Valid timing list front sub rest) {before : List (LoopPass σ)}
    {pass : LoopPass σ} (isFront : before ++ [pass] <+: timing.passes) (j : Nat) :
    ∀ step ∈ stepsToPoll reg timing list before pass j, Known reg timing [] list step := by
  have open_ : ∀ passes, (handleStream reg { timing with passes := passes } list).1.isOk = true := by
    intro passes
    rw [handleStream_of_accepted _ stream.accepted stream.initialEmit]
    rfl
  intro step listed
  refine known_of_stream [] (open_ []) ?_
  rw [reachedPasses_of_isOk (open_ timing.passes)]
  exact (stepsToPoll_front isFront j).subset listed

/-- The client has what each poll found exactly if what it was last told is up to date. -/
theorem rightAtPolls_iff (serves : Serves reg Valid stored)
    (stream : OnChangeStream reg Valid timing list front sub rest) (j : Nat) :
    RightAtPolls reg timing list sub j ↔ UpToDate reg timing list sub j := by
  have told : ∀ before pass, before ++ [pass] <+: timing.passes -> ∀ key, Canonical key -> ∀ value,
      (viewAfter (sentAtPoll reg timing list before pass j) (pathOf key) = value ↔
        LastTold reg timing list (stepsToPoll reg timing list before pass j) key value) := by
    intro before pass isFront key canonical value
    rw [sentAtPoll_steps timing stream.accepted stream.initialEmit]
    exact viewAfter_steps_iff serves stream.valid stream.noPrefix stream.accepted.2
      (stream.known isFront j) canonical value
  constructor
  · intro right before pass isFront key canonical selected
    exact (told before pass isFront key canonical _).mp (right before pass isFront key canonical selected)
  · intro upToDate before pass isFront key canonical selected
    exact (told before pass isFront key canonical _).mpr (upToDate before pass isFront key canonical selected)

/-! ## With other subscriptions apart -/

theorem entry (stream : OnChangeStream reg Valid timing list front sub rest) :
    (onChangeSubs reg list)[entryNumber reg timing front]? = some (sub, front.length) :=
  onChangeSubs_at stream.subscriptions stream.onChange

/-- The poll of the entry itself tells what has changed since its last look. -/
theorem tells_own (stream : OnChangeStream reg Valid timing list front sub rest) (before : List (LoopPass σ))
    (pass : LoopPass σ) (j i : Nat) (key : Str) :
    (Step.poll before pass j i sub).Tells reg timing list key ↔ Resent reg.atomicPrefix
      (reg.snapshot (stateBefore timing i j before) (gnmiToXpath sub.path)).snap
      (polledSnapshot reg sub j pass) key := by
  have undue : beatDue sub.heartbeatInterval (timing.setupNow i) j before pass = false := by
    rw [beatDue, stream.noHeartbeat]
    rfl
  rw [Step.Tells]
  simp only [undue]
  rfl

/-- Of two places in a list the second is the first, or among the others. -/
theorem same_or_other {α : Type} {front rest before after : List α} {x y : α}
    (same : front ++ x :: rest = before ++ y :: after) : (before = front ∧ y = x) ∨ y ∈ front ++ rest := by
  rcases List.append_eq_append_iff.mp same with ⟨more, rfl, cut⟩ | ⟨more, rfl, cut⟩
  · rcases List.cons_eq_append_iff.mp cut with ⟨rfl, here⟩ | ⟨more, rfl, later⟩
    · exact Or.inl ⟨List.append_nil front, (List.cons.inj here).1⟩
    · rw [later]
      exact Or.inr (List.mem_append_right front (List.mem_append_right more List.mem_cons_self))
  · rcases List.cons_eq_append_iff.mp cut with ⟨rfl, here⟩ | ⟨more, rfl, _⟩
    · exact Or.inl ⟨(List.append_nil before).symm, (List.cons.inj here).1.symm⟩
    · exact Or.inr (List.mem_append_left rest (List.mem_append_right before List.mem_cons_self))

/-- With the others apart no other step of a pass tells about a leaf of the query. -/
theorem quiet_others (serves : Serves reg Valid stored)
    (stream : OnChangeStream reg Valid timing list front sub rest)
    (apart : ∀ other ∈ front ++ rest,
      Apart reg.atomicPrefix (gnmiToXpath sub.path) (gnmiToXpath other.path))
    {before : List (LoopPass σ)} {pass : LoopPass σ} (isFront : before ++ [pass] <+: timing.passes)
    {key : Str} (canonical : Canonical key)
    (selected : selects (stripPathQuotes (gnmiToXpath sub.path)) key = true) {step : Step σ}
    (listed : step ∈ passSteps (onChangeSubs reg list) before pass)
    (notOwn : step ≠ .poll before pass (entryNumber reg timing front) front.length sub) :
    ¬ step.Tells reg timing list key := by
  rcases mem_passSteps listed with rfl | ⟨j, i, other, entry, rfl⟩
  · refine not_carried_of_apart (fun otherKey leaf found => ?_) canonical selected
    rcases serves.mergedReads_drawn (stream.valid.sample pass (mem_of_snoc isFront)) found with
      ⟨otherCanonical, other, due, otherSelected⟩
    have sampled := mem_sampledAfter due
    refine ⟨otherCanonical, gnmiToXpath other.path, apart other ?_, otherSelected⟩
    rw [stream.subscriptions] at sampled
    rcases List.mem_append.mp sampled.1 with early | late
    · exact List.mem_append_left rest early
    · rcases List.mem_cons.mp late with rfl | late
      · have onChange := stream.onChange
        rw [sampled.2] at onChange
        cases onChange
      · exact List.mem_append_right front late
  · rcases onChangeSubs_source timing entry with ⟨beforeOther, restOther, subs, _, rfl, rfl⟩
    have isOther : other ∈ front ++ rest := by
      rcases same_or_other (stream.subscriptions.symm.trans subs) with ⟨rfl, rfl⟩ | elsewhere
      · exact absurd rfl notOwn
      · exact elsewhere
    have otherApart := apart other isOther
    have drawnPrev := serves.drawn (stream.valid.before isFront beforeOther.length
      (entryNumber reg timing beforeOther)) (gnmiToXpath other.path)
    have drawnCur := serves.drawn (stream.valid.poll pass (mem_of_snoc isFront)
      (entryNumber reg timing beforeOther)) (gnmiToXpath other.path)
    rw [Step.Tells]
    split
    · refine not_carried_of_apart (fun otherKey leaf found => ?_) canonical selected
      exact ⟨(drawnCur otherKey leaf found).1, gnmiToXpath other.path, otherApart,
        (drawnCur otherKey leaf found).2⟩
    · exact otherApart.not_resent drawnPrev drawnCur canonical selected

/-- What the initial emission leaves at a leaf. -/
theorem viewAfter_opening (serves : Serves reg Valid stored)
    (stream : OnChangeStream reg Valid timing list front sub rest) {key : Str} (canonical : Canonical key) :
    viewAfter ((openingSteps timing list).flatMap (Step.writes reg timing list)) (pathOf key) =
      LeafStore.valueAt (initialReads reg timing list) key := by
  have steps : openingSteps timing list = [.build timing.initialAt timing.initialClock, .sync] := by
    rw [openingSteps, stream.initialEmit]
    rfl
  have known : ∀ step ∈ openingSteps timing list, Known reg timing [] list step := by
    intro step member
    rw [steps] at member
    rcases List.mem_pair.mp member with rfl | rfl
    · exact Known.initial stream.accepted.2
    · exact Known.sync
  have silent : ¬ (Step.sync : Step σ).Tells reg timing list key := by
    rintro (⟨leaf, found⟩ | ⟨_, _, other, leaf, _, found⟩)
    · exact absurd found (by simp [Step.source])
    · exact absurd found (by simp [Step.source])
  refine (viewAfter_steps_iff serves stream.valid stream.noPrefix stream.accepted.2 known canonical _).mpr ?_
  rw [steps]
  by_cases carried : Carried reg.atomicPrefix (initialReads reg timing list) key
  · refine Or.inl ⟨[], _, [.sync], rfl, carried, fun step member => ?_, rfl⟩
    rw [List.mem_singleton.mp member]
    exact silent
  · refine Or.inr ⟨fun step member => ?_, ?_⟩
    · rcases List.mem_pair.mp member with rfl | rfl
      · exact carried
      · exact silent
    · rw [LeafStore.valueAt]
      cases found : (initialReads reg timing list)[key]? with
      | none => rfl
      | some leaf => exact absurd (Or.inl ⟨leaf, found⟩) carried

/-- After steps that do not tell about a leaf, a poll of the entry leaves it right if it reports
the leaf or if the view was as the last look. -/
theorem viewAfter_poll (serves : Serves reg Valid stored)
    (stream : OnChangeStream reg Valid timing list front sub rest) {steps middle : List (Step σ)}
    {before : List (LoopPass σ)} {pass : LoopPass σ}
    (isFront : before ++ [pass] <+: timing.passes)
    (steps_ : stepsToPoll reg timing list before pass (entryNumber reg timing front) = steps ++ middle ++
      [.poll before pass (entryNumber reg timing front) front.length sub])
    {key : Str} (canonical : Canonical key)
    (quiet : ∀ step ∈ middle, ¬ step.Tells reg timing list key) :
    let j := entryNumber reg timing front
    let prev := (reg.snapshot (stateBefore timing front.length j before) (gnmiToXpath sub.path)).snap
    (viewAfter (sentAtPoll reg timing list before pass j) (pathOf key) =
        LeafStore.valueAt (polledSnapshot reg sub j pass) key ↔
      Resent reg.atomicPrefix prev (polledSnapshot reg sub j pass) key ∨
        viewAfter (steps.flatMap (Step.writes reg timing list)) (pathOf key) = LeafStore.valueAt prev key) := by
  intro j prev
  have known := stream.known isFront j
  rw [steps_] at known
  have view := viewAfter_snoc serves stream.valid stream.noPrefix stream.accepted.2 known canonical quiet
  rw [stream.tells_own] at view
  rw [sentAtPoll_steps timing stream.accepted stream.initialEmit, steps_]
  by_cases resent : Resent reg.atomicPrefix prev (polledSnapshot reg sub j pass) key
  · exact ⟨fun _ => Or.inl resent, fun _ => view.1 resent⟩
  · have same : LeafStore.valueAt prev key = LeafStore.valueAt (polledSnapshot reg sub j pass) key := by
      by_contra differs
      exact resent (Differs.resent differs)
    rw [view.2 resent, or_iff_right resent, same]

section Apart

variable (serves : Serves reg Valid stored) (stream : OnChangeStream reg Valid timing list front sub rest)
variable (apart : ∀ other ∈ front ++ rest,
  Apart reg.atomicPrefix (gnmiToXpath sub.path) (gnmiToXpath other.path))

include serves stream apart

/-- The view after the first poll. -/
theorem viewAfter_first {first : LoopPass σ} (isFront : [] ++ [first] <+: timing.passes) {key : Str}
    (canonical : Canonical key) (selected : selects (stripPathQuotes (gnmiToXpath sub.path)) key = true) :
    let j := entryNumber reg timing front
    let baseline := readOf reg timing.baselineAt sub front.length
    viewAfter (sentAtPoll reg timing list [] first j) (pathOf key) =
        LeafStore.valueAt (polledSnapshot reg sub j first) key ↔
      LeafStore.valueAt (initialReads reg timing list) key = LeafStore.valueAt baseline key ∨
        Resent reg.atomicPrefix baseline (polledSnapshot reg sub j first) key := by
  intro j baseline
  have steps : stepsToPoll reg timing list [] first j = openingSteps timing list ++
      (passSteps (onChangeSubs reg list) [] first).take (j + 1) ++ [.poll [] first j front.length sub] := by
    rw [stepsToPoll, take_passSteps stream.entry, loopSteps, List.append_nil, List.append_assoc]
  have quiet : ∀ step ∈ (passSteps (onChangeSubs reg list) [] first).take (j + 1),
      ¬ step.Tells reg timing list key :=
    fun step listed => stream.quiet_others serves apart isFront canonical selected
      (List.mem_of_mem_take listed) (own_not_mem_take listed)
  have polled := stream.viewAfter_poll serves isFront steps canonical quiet
  dsimp only at polled
  rw [stream.viewAfter_opening serves canonical] at polled
  exact polled.trans or_comm

/-- The view after a later one. -/
theorem viewAfter_next {before : List (LoopPass σ)} {last pass : LoopPass σ}
    (isFront : before ++ [last] ++ [pass] <+: timing.passes) {key : Str}
    (canonical : Canonical key) (selected : selects (stripPathQuotes (gnmiToXpath sub.path)) key = true)
    (right : viewAfter (sentAtPoll reg timing list before last (entryNumber reg timing front)) (pathOf key) =
      LeafStore.valueAt (polledSnapshot reg sub (entryNumber reg timing front) last) key) :
    viewAfter (sentAtPoll reg timing list (before ++ [last]) pass (entryNumber reg timing front)) (pathOf key) =
      LeafStore.valueAt (polledSnapshot reg sub (entryNumber reg timing front) pass) key := by
  have quiet : ∀ step ∈ (passSteps (onChangeSubs reg list) before last).drop (entryNumber reg timing front + 2) ++
      (passSteps (onChangeSubs reg list) (before ++ [last]) pass).take (entryNumber reg timing front + 1),
        ¬ step.Tells reg timing list key := by
    intro step listed
    rcases List.mem_append.mp listed with later | earlier
    · exact stream.quiet_others serves apart ((List.prefix_append _ [pass]).trans isFront) canonical selected
        (List.mem_of_mem_drop later) (own_not_mem_drop later)
    · exact stream.quiet_others serves apart isFront canonical selected (List.mem_of_mem_take earlier)
        (own_not_mem_take earlier)
  have polled := stream.viewAfter_poll serves isFront (stepsToPoll_snoc timing stream.entry before last pass)
    canonical quiet
  dsimp only at polled
  rw [stateBefore_snoc, ← sentAtPoll_steps timing stream.accepted stream.initialEmit] at polled
  exact polled.mpr (Or.inr right)

/-- With the others apart no change is lost exactly if the baseline repeats the initial
emission, up to what the first poll reports again. -/
theorem rightAtPolls_iff_lossFree :
    RightAtPolls reg timing list sub (entryNumber reg timing front) ↔
      LossFree reg timing sub (entryNumber reg timing front) (initialReads reg timing list)
        (readOf reg timing.baselineAt sub front.length) := by
  constructor
  · intro right first isFirst key canonical selected
    have isFront : [] ++ [first] <+: timing.passes := by
      rcases List.head?_eq_some_iff.mp isFirst with ⟨later, passes⟩
      rw [passes]
      exact List.prefix_append [first] later
    exact (stream.viewAfter_first serves apart isFront canonical selected).mp
      (right [] first isFront key canonical selected)
  · intro lossFree before pass isFront key canonical selected
    induction before using List.reverseRecOn generalizing pass with
    | nil =>
        have isFirst : timing.passes.head? = some pass := by
          rcases isFront with ⟨later, passes⟩
          rw [← passes]
          rfl
        exact (stream.viewAfter_first serves apart isFront canonical selected).mpr
          (lossFree pass isFirst key canonical selected)
    | append_singleton before last inductionHypothesis =>
        exact stream.viewAfter_next serves apart isFront canonical selected
          (inductionHypothesis last ((List.prefix_append _ [pass]).trans isFront))

end Apart

end OnChangeStream

/-- After each poll the client has what was polled exactly if what it was last told about the
leaves of the query, for any subscription of the list, is up to date.  When the others are
apart this is so exactly if every leaf of the query has the same value in the initial
emission and in the baseline, unless the first poll reports it once more. -/
theorem onChange_lossless_iff {timing : StreamTiming σ} {list : SubscriptionList}
    {front rest : List Subscription} {sub : Subscription} (serves : Serves reg Valid stored)
    (stream : OnChangeStream reg Valid timing list front sub rest) :
    let j := entryNumber reg timing front
    (RightAtPolls reg timing list sub j ↔ UpToDate reg timing list sub j) ∧
      ((∀ other ∈ front ++ rest,
          Apart reg.atomicPrefix (gnmiToXpath sub.path) (gnmiToXpath other.path)) ->
        (RightAtPolls reg timing list sub j ↔ LossFree reg timing sub j (initialReads reg timing list)
          (readOf reg timing.baselineAt sub front.length))) :=
  ⟨stream.rightAtPolls_iff serves _, fun apart => stream.rightAtPolls_iff_lossFree serves apart⟩

/-! ## A Set between the initial emission and the baseline -/

def hostnameSub : Subscription where
  path := Server.hostnamePath
  mode := .onChange

def hostnameList : SubscriptionList where
  subscription := [hostnameSub]

def renameHost : SetRequest where
  update := [{ path := some Server.hostnamePath, val := some (.stringVal "psc-2".toList) }]

/-- The host name with a heartbeat interval. -/
def beatingSub (interval : UInt64) : Subscription :=
  { hostnameSub with heartbeatInterval := interval }

def beatingList (interval : UInt64) : SubscriptionList where
  subscription := [beatingSub interval]

def beforeRename : Server.Stores :=
  Server.initialStores 1 2

def afterRename : Server.Stores :=
  (Gnmi.Set.run Server.registry beforeRename 3 renameHost).1

/-- A pass in which every look at the store finds `s`. -/
def passAt (s : Server.Stores) : LoopPass Server.Stores where
  dueNow := fun _ => 10
  sampledNow := fun _ => 10
  sampleAt := fun _ => s
  sampleClock := fun _ => 10
  pollAt := fun _ => s
  pollNow := fun _ => 10
  pollClock := fun _ _ => 10

/-- A stream with one pass after the rename; the baseline is taken at `baseline`. -/
def renameTiming (baseline : Server.Stores) : StreamTiming Server.Stores where
  initialAt := fun _ => beforeRename
  initialClock := fun _ => 5
  setupNow := fun _ => 5
  baselineAt := fun _ => baseline
  passes := [passAt afterRename]

theorem beforeRename_invariant : Server.Invariant beforeRename :=
  Server.initial_invariant 1 2

theorem afterRename_invariant : Server.Invariant afterRename :=
  beforeRename_invariant.set renameHost 3

theorem hostnameStream {baseline : Server.Stores} (inv : Server.Invariant baseline) :
    OnChangeStream Server.registry Server.Invariant (renameTiming baseline) hostnameList []
      hostnameSub [] where
  valid := by
    refine ⟨fun _ => beforeRename_invariant, fun _ => inv, ?_, ?_⟩
    · intro pass member _
      rw [List.mem_singleton.mp member]
      exact afterRename_invariant
    · intro pass member _
      rw [List.mem_singleton.mp member]
      exact afterRename_invariant
  accepted := by
    refine ⟨?_, Or.inl rfl, ?_⟩
    · decide
    · decide +kernel
  initialEmit := rfl
  noPrefix := rfl
  subscriptions := rfl
  onChange := rfl
  noHeartbeat := rfl

/-- Without a commit before the baseline the rename reaches the client. -/
theorem onChange_lossless_quiet :
    RightAtPolls Server.registry (renameTiming beforeRename) hostnameList hostnameSub
      (entryNumber Server.registry (renameTiming beforeRename) []) := by
  have apart : ∀ other ∈ ([] : List Subscription) ++ [],
      Apart Server.registry.atomicPrefix (gnmiToXpath hostnameSub.path) (gnmiToXpath other.path) :=
    fun other member => absurd member List.not_mem_nil
  refine ((onChange_lossless_iff Server.registry_serves
    (hostnameStream beforeRename_invariant)).2 apart).mpr ?_
  intro first _ key _ _
  left
  have same : initialReads Server.registry (renameTiming beforeRename) hostnameList =
      readOf Server.registry (renameTiming beforeRename).baselineAt hostnameSub 0 := by
    unfold initialReads hostnameList
    rw [mergedReads, mergedReads, OrdMap.empty_mergeKeep]
    rfl
  rw [same]
  rfl

/-- A rename committed between the two snapshots never reaches the client. -/
theorem onChange_loses_rename :
    Accepted Server.registry hostnameList ∧
      (Gnmi.Set.run Server.registry beforeRename 3 renameHost).2.1 = Status.OK ∧
      ¬ RightAtPolls Server.registry (renameTiming afterRename) hostnameList hostnameSub 0 := by
  have stream := hostnameStream afterRename_invariant
  refine ⟨stream.accepted, by decide +kernel, fun right => ?_⟩
  have lossFree := (stream.rightAtPolls_iff_lossFree Server.registry_serves
    (fun other member => absurd member List.not_mem_nil)).mp right
  have canonical : Canonical "/system/config/hostname".toList := by decide +kernel
  have selected : selects (stripPathQuotes (gnmiToXpath hostnameSub.path))
      "/system/config/hostname".toList = true := by decide +kernel
  rcases lossFree (passAt afterRename) rfl _ canonical selected with same | resent
  · exact absurd same (by decide +kernel)
  · have steady : ∀ key, ¬ Differs (readOf Server.registry (renameTiming afterRename).baselineAt
        hostnameSub ([] : List Subscription).length)
          (polledSnapshot Server.registry hostnameSub 0 (passAt afterRename)) key :=
      fun _ differs => differs rfl
    rcases resent with ⟨_, differs⟩ | ⟨_, _, other, _, differs⟩
    · exact steady _ differs
    · exact steady other differs

end Telemetry
end PscMockServer
