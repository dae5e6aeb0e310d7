import PscMockServer.Foundations.Samplers
import PscMockServer.Foundations.Timers
import PscMockServer.Gnmi.Streams

namespace PscMockServer
namespace Telemetry

open Foundations Gnmi Utils Backend Gnmi.Subscribe

/-!
# The buckets of a stream

What the two buckets of a stream hold in a pass is decided by the history of the stream: a
SAMPLE entry is a sampler and an ON_CHANGE entry is a timer, each polled once in every
pass, and an ON_CHANGE entry also remembers what its last look found.
-/

variable {σ : Type} {reg : DataProviderRegistry σ}

/-! ## Open streams -/

/-- The build before the first `sync_response`, nothing when the client wants updates only. -/
def initialBuild (reg : DataProviderRegistry σ) (timing : StreamTiming σ) (list : SubscriptionList) :
    Status × List Notification :=
  if list.updatesOnly then (Status.OK, [])
  else buildSubscribeNotifications reg timing.initialAt timing.initialClock list

/-- With all intervals in range the stream is its initial build and its loop. -/
theorem handleStream_of_bounded (timing : StreamTiming σ) {list : SubscriptionList}
    (bounded : ∀ sub ∈ list.subscription, sub.sampleInterval.toNat ≤ maxInterval) :
    handleStream reg timing list =
      if (initialBuild reg timing list).1.isOk = true then
        streamLoop reg list timing.passes (openingBuckets reg timing list)
          (writeAll .build (initialBuild reg timing list).2 ++ syncResponse)
      else ((initialBuild reg timing list).1, []) := by
  have noneLarge : ¬ (list.subscription.any
      (fun sub => decide (maxInterval < sub.sampleInterval.toNat))) = true := by
    intro large
    rcases List.any_eq_true.mp large with ⟨sub, listed, tooLarge⟩
    exact absurd (of_decide_eq_true tooLarge) (Nat.not_lt_of_le (bounded sub listed))
  rw [handleStream, if_neg noneLarge]
  change (if (!(initialBuild reg timing list).1.isOk) = true then _ else _) = _
  cases (initialBuild reg timing list).1.isOk with
  | true => rw [Bool.not_true, if_neg Bool.false_ne_true, if_pos rfl]; rfl
  | false => rw [Bool.not_false, if_pos rfl, if_neg Bool.false_ne_true]; rfl

theorem bounded_of_isOk {timing : StreamTiming σ} {list : SubscriptionList}
    (open_ : (handleStream reg timing list).1.isOk = true) :
    ∀ sub ∈ list.subscription, sub.sampleInterval.toNat ≤ maxInterval := by
  intro sub listed
  by_contra large
  have someLarge : (list.subscription.any
      (fun sub => decide (maxInterval < sub.sampleInterval.toNat))) = true :=
    List.any_eq_true.mpr ⟨sub, listed, decide_eq_true (by omega)⟩
  rw [handleStream, if_pos someLarge] at open_
  cases open_

/-- An open stream has got through its initial build. -/
theorem handleStream_of_isOk {timing : StreamTiming σ} {list : SubscriptionList}
    (open_ : (handleStream reg timing list).1.isOk = true) :
    (initialBuild reg timing list).1.isOk = true ∧
      handleStream reg timing list = streamLoop reg list timing.passes (openingBuckets reg timing list)
        (writeAll .build (initialBuild reg timing list).2 ++ syncResponse) := by
  have bounded := bounded_of_isOk open_
  rw [handleStream_of_bounded timing bounded] at open_ ⊢
  split at open_
  · rename_i started
    rw [if_pos started]
    exact ⟨started, rfl⟩
  · rename_i refused
    exact absurd open_ refused

/-! ## The passes that reach their polls -/

/-- The passes of the loop, up to the first one whose sample batch fails. -/
def polledPasses (reg : DataProviderRegistry σ) (list : SubscriptionList) :
    List (LoopPass σ) -> Buckets -> List (LoopPass σ)
  | [], _ => []
  | pass :: rest, buckets =>
      if (runSample reg list pass buckets.chronomap).1.isOk then
        pass :: polledPasses reg list rest (nextBuckets reg buckets pass)
      else []

/-- The passes of a stream whose ON_CHANGE entries are polled: none when the stream is
refused before its loop. -/
def reachedPasses (reg : DataProviderRegistry σ) (timing : StreamTiming σ) (list : SubscriptionList) :
    List (LoopPass σ) :=
  if (handleStream reg { timing with passes := [] } list).1.isOk then
    polledPasses reg list timing.passes (openingBuckets reg timing list)
  else []

theorem streamLoop_polled (list : SubscriptionList) (passes : List (LoopPass σ)) (buckets : Buckets)
    (sent : List Sent) :
    (streamLoop reg list passes buckets sent).2 =
      sent ++ passWrites reg list (polledPasses reg list passes buckets) buckets := by
  induction passes generalizing buckets sent with
  | nil => exact (List.append_nil sent).symm
  | cons pass rest inductionHypothesis =>
      unfold streamLoop polledPasses
      dsimp only
      cases (runSample reg list pass buckets.chronomap).1.isOk with
      | false => exact (List.append_nil sent).symm
      | true =>
          rw [Bool.not_true, if_neg Bool.false_ne_true, if_pos rfl, passWrites, writesUpTo, List.take_length,
            ← List.append_assoc, ← List.append_assoc]
          exact inductionHypothesis _ _

/-- A stream writes its opening and what these passes write. -/
theorem handleStream_reached (timing : StreamTiming σ) (list : SubscriptionList) :
    (handleStream reg timing list).2 = (handleStream reg { timing with passes := [] } list).2 ++
      passWrites reg list (reachedPasses reg timing list) (openingBuckets reg timing list) := by
  -- once the initial build is known, the stream without passes ends where the loop begins
  have loop : ∀ (initial : Status × List Notification) (buckets other : Buckets),
      (if !initial.1.isOk then (initial.1, []) else streamLoop reg list timing.passes buckets
          (writeAll .build initial.2 ++ syncResponse)).2 =
        (if !initial.1.isOk then (initial.1, []) else streamLoop reg list [] other
          (writeAll .build initial.2 ++ syncResponse)).2 ++
          passWrites reg list (if (if !initial.1.isOk then (initial.1, []) else streamLoop reg list [] other
            (writeAll .build initial.2 ++ syncResponse)).1.isOk then
              polledPasses reg list timing.passes buckets else []) buckets := by
    intro initial buckets other
    cases okay : initial.1.isOk with
    | false =>
        rw [Bool.not_false, if_pos rfl, if_pos rfl, okay, if_neg Bool.false_ne_true]
        rfl
    | true => exact streamLoop_polled list timing.passes buckets _
  unfold reachedPasses handleStream
  split
  · rfl
  · exact loop _ _ _

/-- They are the first passes of the stream. -/
theorem reachedPasses_front (timing : StreamTiming σ) (list : SubscriptionList) :
    reachedPasses reg timing list <+: timing.passes := by
  have polled : ∀ (passes : List (LoopPass σ)) (buckets : Buckets),
      polledPasses reg list passes buckets <+: passes := by
    intro passes
    induction passes with
    | nil => exact fun buckets => List.prefix_refl []
    | cons pass rest inductionHypothesis =>
        intro buckets
        unfold polledPasses
        split
        · exact List.cons_prefix_cons.mpr ⟨rfl, inductionHypothesis _⟩
        · exact List.nil_prefix
  unfold reachedPasses
  split
  · exact polled _ _
  · exact List.nil_prefix

theorem fillBuckets_passes (timing : StreamTiming σ) (passes : List (LoopPass σ)) (subs : List Subscription)
    (i : Nat) (buckets : Buckets) :
    fillBuckets reg { timing with passes := passes } subs i buckets = fillBuckets reg timing subs i buckets := by
  induction subs generalizing i buckets with
  | nil => rfl
  | cons sub rest inductionHypothesis =>
      rw [fillBuckets, inductionHypothesis]
      rfl

/-- A stream that is cut behind one of them reaches the passes that are left. -/
theorem reachedPasses_cut {timing : StreamTiming σ} {list : SubscriptionList} {front : List (LoopPass σ)}
    (isFront : front <+: reachedPasses reg timing list) :
    reachedPasses reg { timing with passes := front } list = front := by
  have polled : ∀ (front passes : List (LoopPass σ)) (buckets : Buckets),
      front <+: polledPasses reg list passes buckets -> polledPasses reg list front buckets = front := by
    intro front
    induction front with
    | nil => exact fun _ _ _ => rfl
    | cons pass front inductionHypothesis =>
        intro passes buckets isFront
        cases passes with
        | nil => exact absurd isFront.length_le (Nat.not_succ_le_zero _)
        | cons first passes =>
            unfold polledPasses at isFront
            split at isFront
            · next sampled =>
                rcases List.cons_prefix_cons.mp isFront with ⟨rfl, later⟩
                rw [polledPasses, if_pos sampled, inductionHypothesis passes _ later]
            · exact absurd isFront.length_le (Nat.not_succ_le_zero _)
  have opening : openingBuckets reg { timing with passes := front } list = openingBuckets reg timing list :=
    fillBuckets_passes timing front list.subscription 0 {}
  unfold reachedPasses at isFront ⊢
  split at isFront
  · next open_ =>
      rw [if_pos open_, opening]
      exact polled front _ _ isFront
  · next refused =>
      rw [if_neg refused, List.prefix_nil.mp isFront]

/-- Where the polls of a pass are reached, its batch of samples has been built. -/
theorem runSample_of_reached {timing : StreamTiming σ} {list : SubscriptionList} {front : List (LoopPass σ)}
    {pass : LoopPass σ} (isFront : front ++ [pass] <+: reachedPasses reg timing list) :
    (runSample reg list pass (bucketsAfter reg front (openingBuckets reg timing list)).chronomap).1.isOk =
      true := by
  have polled : ∀ (front passes : List (LoopPass σ)) (buckets : Buckets),
      front ++ [pass] <+: polledPasses reg list passes buckets ->
        (runSample reg list pass (bucketsAfter reg front buckets).chronomap).1.isOk = true := by
    intro front
    induction front with
    | nil =>
        intro passes buckets isFront
        cases passes with
        | nil => exact absurd isFront.length_le (Nat.not_succ_le_zero _)
        | cons first passes =>
            unfold polledPasses at isFront
            split at isFront
            · next sampled =>
                rw [(List.cons_prefix_cons.mp isFront).1]
                exact sampled
            · exact absurd isFront.length_le (Nat.not_succ_le_zero _)
    | cons earlier front inductionHypothesis =>
        intro passes buckets isFront
        cases passes with
        | nil => exact absurd isFront.length_le (Nat.not_succ_le_zero _)
        | cons first passes =>
            unfold polledPasses at isFront
            split at isFront
            · rcases List.cons_prefix_cons.mp isFront with ⟨rfl, later⟩
              exact inductionHypothesis passes _ later
            · exact absurd isFront.length_le (Nat.not_succ_le_zero _)
  unfold reachedPasses at isFront
  split at isFront
  · exact polled front _ _ isFront
  · exact absurd (List.prefix_nil.mp isFront) (List.append_ne_nil_of_right_ne_nil front (List.cons_ne_nil pass []))

theorem bounded_of_reached {timing : StreamTiming σ} {list : SubscriptionList} {front : List (LoopPass σ)}
    {pass : LoopPass σ} (isFront : front ++ [pass] <+: reachedPasses reg timing list) :
    ∀ sub ∈ list.subscription, sub.sampleInterval.toNat ≤ maxInterval := by
  unfold reachedPasses at isFront
  split at isFront
  · next open_ => exact bounded_of_isOk open_
  · exact absurd (List.prefix_nil.mp isFront) (List.append_ne_nil_of_right_ne_nil front (List.cons_ne_nil pass []))

/-- A stream that is still open has reached all its passes. -/
theorem reachedPasses_of_isOk {timing : StreamTiming σ} {list : SubscriptionList}
    (open_ : (handleStream reg timing list).1.isOk = true) : reachedPasses reg timing list = timing.passes := by
  have polled : ∀ (passes : List (LoopPass σ)) (buckets : Buckets) (sent : List Sent),
      (streamLoop reg list passes buckets sent).1.isOk = true ->
        polledPasses reg list passes buckets = passes := by
    intro passes
    induction passes with
    | nil => exact fun _ _ _ => rfl
    | cons pass rest inductionHypothesis =>
        intro buckets sent ended
        unfold streamLoop at ended
        dsimp only at ended
        cases okay : (runSample reg list pass buckets.chronomap).1.isOk with
        | false =>
            rw [okay, Bool.not_false, if_pos rfl, okay] at ended
            cases ended
        | true =>
            rw [okay, Bool.not_true, if_neg Bool.false_ne_true] at ended
            rw [polledPasses, if_pos okay]
            exact congrArg (List.cons pass) (inductionHypothesis _ _ ended)
  have started : (initialBuild reg { timing with passes := [] } list).1.isOk = true :=
    (handleStream_of_isOk open_).1
  have opened : (handleStream reg { timing with passes := [] } list).1.isOk = true := by
    rw [handleStream_of_bounded _ (bounded_of_isOk open_), if_pos started]
    rfl
  rw [(handleStream_of_isOk open_).2] at open_
  rw [reachedPasses, if_pos opened]
  exact polled _ _ _ open_

/-- Some of the subscriptions, with the same encoding and prefix. -/
def withSubscriptions (list : SubscriptionList) (subs : List Subscription) : SubscriptionList :=
  { list with subscription := subs }

theorem buildable_withSubscriptions {list : SubscriptionList} (buildable : Buildable reg list)
    {subs : List Subscription} (some_ : ∀ sub ∈ subs, sub ∈ list.subscription) :
    Buildable reg (withSubscriptions list subs) :=
  ⟨buildable.1, fun sub member => buildable.2 sub (some_ sub member)⟩

/-! ## The SAMPLE bucket -/

/-- The SAMPLE entries of a stream with their set-up times. -/
def sampleEntries (reg : DataProviderRegistry σ) (timing : StreamTiming σ) (list : SubscriptionList) :
    List (Subscription × Int) :=
  (list.subscription.zipIdx.filter
    (fun sub => decide (resolveStreamMode sub.1 reg = .sample))).map
      (fun sub => (sub.1, timing.setupNow sub.2))

/-- The polls of entry `j`. -/
def samplePolls (j : Nat) (passes : List (LoopPass σ)) : List Sampler.Poll :=
  passes.map (fun pass => ⟨pass.dueNow j, pass.sampledNow j⟩)

/-- The subscriptions a pass samples after others: those with more than their interval
since their last sample, or since their set-up. -/
def sampledAfter (entries : List (Subscription × Int)) (front : List (LoopPass σ)) (pass : LoopPass σ) :
    List Subscription :=
  (entries.mapIdx (fun j entry =>
    if (entry.1.sampleInterval.toNat : Int) <
        pass.dueNow j - Sampler.lastSample entry.1.sampleInterval.toNat entry.2 (samplePolls j front) then
      [entry.1]
    else [])).flatten

theorem mem_sampledAfter {timing : StreamTiming σ} {list : SubscriptionList} {front : List (LoopPass σ)}
    {pass : LoopPass σ} {sub : Subscription}
    (due : sub ∈ sampledAfter (sampleEntries reg timing list) front pass) :
    sub ∈ list.subscription ∧ resolveStreamMode sub reg = .sample := by
  rcases List.mem_flatten.mp due with ⟨block, listed, member⟩
  rcases List.mem_mapIdx.mp listed with ⟨j, inside, rfl⟩
  split at member
  · rw [List.mem_singleton.mp member]
    rcases List.mem_map.mp (List.getElem_mem inside) with ⟨entry, kept, isEntry⟩
    rw [← isEntry]
    have sampled := List.mem_filter.mp kept
    exact ⟨List.fst_mem_of_mem_zipIdx sampled.1, of_decide_eq_true sampled.2⟩
  · cases member

theorem fillBuckets_sampleEntries (timing : StreamTiming σ) (subs : List Subscription) (i : Nat)
    (buckets : Buckets) :
    (fillBuckets reg timing subs i buckets).chronomap = buckets.chronomap ++
      ((subs.zipIdx i).filter (fun sub => decide (resolveStreamMode sub.1 reg = .sample))).map
        (fun sub => (sub.1, timing.setupNow sub.2)) := by
  induction subs generalizing i buckets with
  | nil => exact (List.append_nil _).symm
  | cons sub rest inductionHypothesis =>
      rw [fillBuckets, inductionHypothesis, List.zipIdx_cons, List.filter_cons, addToBucket]
      cases mode : resolveStreamMode sub reg with
      | sample =>
          rw [if_pos (by simp), List.map_cons, List.append_assoc]
          rfl
      | onChange => rw [if_neg (by simp)]
      | targetDefined => rw [if_neg (by simp)]
      | unrecognized number => rw [if_neg (by simp)]

theorem openingBuckets_chronomap (timing : StreamTiming σ) (list : SubscriptionList) :
    (openingBuckets reg timing list).chronomap = sampleEntries reg timing list := by
  rw [openingBuckets, fillBuckets_sampleEntries]
  rfl

/-- The entries after some passes: each remembers what a sampler with its polls does. -/
theorem chronomap_after (front : List (LoopPass σ)) (buckets : Buckets) :
    (bucketsAfter reg front buckets).chronomap = buckets.chronomap.mapIdx (fun j entry =>
      (entry.1, Sampler.lastAfter (toLongLong entry.1.sampleInterval) entry.2 (samplePolls j front))) := by
  induction front using List.reverseRecOn with
  | nil =>
      apply List.ext_getElem?
      intro j
      rw [List.getElem?_mapIdx]
      cases entry : buckets.chronomap[j]? with
      | none => exact entry
      | some found => exact entry
  | append_singleton front pass inductionHypothesis =>
      rw [bucketsAfter] at inductionHypothesis
      rw [bucketsAfter, runSteps_snoc, nextBuckets, advanceChronomap, inductionHypothesis, List.mapIdx_mapIdx]
      refine congrArg (fun step => List.mapIdx step buckets.chronomap) ?_
      funext j entry
      have polls : samplePolls j (front ++ [pass]) =
          samplePolls j front ++ [⟨pass.dueNow j, pass.sampledNow j⟩] := List.map_append
      rw [polls, Sampler.lastAfter_snoc, Sampler.next]
      exact (apply_ite (Prod.mk entry.1) _ _ _).symm

theorem toLongLong_of_le_max {interval : UInt64} (small : interval.toNat ≤ maxInterval) :
    toLongLong interval = interval.toNat := by
  rw [toLongLong, if_pos]
  rw [maxInterval] at small
  omega

/-- The batch of a pass. -/
theorem dueSubscriptions_after (timing : StreamTiming σ) {list : SubscriptionList}
    (bounded : ∀ sub ∈ list.subscription, sub.sampleInterval.toNat ≤ maxInterval)
    (front : List (LoopPass σ)) (pass : LoopPass σ) :
    dueSubscriptions pass (bucketsAfter reg front (openingBuckets reg timing list)).chronomap =
      sampledAfter (sampleEntries reg timing list) front pass := by
  rw [chronomap_after, openingBuckets_chronomap, dueSubscriptions, sampledAfter, List.mapIdx_mapIdx]
  apply congrArg List.flatten
  apply List.ext_getElem?
  intro j
  rw [List.getElem?_mapIdx, List.getElem?_mapIdx]
  cases found : (sampleEntries reg timing list)[j]? with
  | none => rfl
  | some entry =>
      have listed : entry.1 ∈ list.subscription := by
        rcases List.mem_map.mp (List.mem_of_getElem? found) with ⟨sub, member, rfl⟩
        exact List.fst_mem_of_mem_zipIdx (List.mem_filter.mp member).1
      simp only [Option.map_some, Function.comp, sampleDue, toLongLong_of_le_max (bounded _ listed),
        Sampler.lastAfter_eq_lastSample, decide_eq_true_eq]

/-- So what is due in a pass that reaches its polls can be built. -/
theorem sampled_buildable {timing : StreamTiming σ} {list : SubscriptionList} {front : List (LoopPass σ)}
    {pass : LoopPass σ} (isFront : front ++ [pass] <+: reachedPasses reg timing list)
    (some_ : sampledAfter (sampleEntries reg timing list) front pass ≠ []) :
    Buildable reg (withSubscriptions list (sampledAfter (sampleEntries reg timing list) front pass)) := by
  have sampled := runSample_of_reached isFront
  rw [runSample, dueSubscriptions_after timing (bounded_of_reached isFront),
    if_neg (fun empty => some_ (List.isEmpty_iff.mp empty))] at sampled
  exact (build_isOk_iff _ _ _).mp sampled

/-! ## The ON_CHANGE bucket -/

/-- The readings of the polls of entry `j`. -/
def pollReadings (j : Nat) (passes : List (LoopPass σ)) : List Int :=
  passes.map (fun pass => pass.pollNow j)

theorem pollReadings_snoc (j : Nat) (front : List (LoopPass σ)) (pass : LoopPass σ) :
    pollReadings j (front ++ [pass]) = pollReadings j front ++ [pass.pollNow j] :=
  List.map_append

/-- The heartbeat of an entry is due after some polls, by the history of the stream. -/
def beatDue (interval : UInt64) (setup : Int) (j : Nat) (front : List (LoopPass σ)) (pass : LoopPass σ) :
    Bool :=
  heartbeatDue interval (Timer.lastAfter (heartbeatDue interval) setup (pollReadings j front)) (pass.pollNow j)

/-- The ON_CHANGE subscriptions of a list, with their numbers in it. -/
def onChangeSubs (reg : DataProviderRegistry σ) (list : SubscriptionList) : List (Subscription × Nat) :=
  list.subscription.zipIdx.filter (fun sub => decide (resolveStreamMode sub.1 reg = .onChange))

/-- Entry `j`, of subscription number `i`, after some passes. -/
def entryAt (reg : DataProviderRegistry σ) (timing : StreamTiming σ) (sub : Subscription) (i j : Nat)
    (front : List (LoopPass σ)) : OnChangeSub where
  sub := sub
  query := gnmiToXpath sub.path
  prev := (reg.snapshot (stateBefore timing i j front) (gnmiToXpath sub.path)).snap
  lastHeartbeat := Timer.lastAfter (heartbeatDue sub.heartbeatInterval) (timing.setupNow i)
    (pollReadings j front)

/-- What its poll in a pass sends: everything it finds when its heartbeat is due, and else
what has changed since its last look. -/
def pollNotes (reg : DataProviderRegistry σ) (timing : StreamTiming σ) (sub : Subscription) (i j : Nat)
    (front : List (LoopPass σ)) (pass : LoopPass σ) : List Notification :=
  let query := gnmiToXpath sub.path
  if beatDue sub.heartbeatInterval (timing.setupNow i) j front pass then
    buildFullNotifications (reg.snapshot (pass.pollAt j) query).snap reg (pass.pollClock j)
  else
    buildChangeNotifications (reg.snapshot (stateBefore timing i j front) query).snap
      (reg.snapshot (pass.pollAt j) query).snap reg (pass.pollClock j)

theorem pollEntry_entryAt (timing : StreamTiming σ) (sub : Subscription) (i j : Nat)
    (front : List (LoopPass σ)) (pass : LoopPass σ) :
    pollEntry reg pass j (entryAt reg timing sub i j front) =
      (entryAt reg timing sub i j (front ++ [pass]), pollNotes reg timing sub i j front pass) := by
  rw [pollNotes, beatDue, entryAt, entryAt, pollReadings_snoc, Timer.lastAfter_snoc, Timer.tick, stateBefore_snoc]
  unfold pollEntry OnChangeSub.poll
  dsimp only
  split
  · rfl
  · rfl

theorem entriesOf_eq (timing : StreamTiming σ) (subs : List Subscription) (i : Nat) :
    entriesOf reg timing subs i =
      ((subs.zipIdx i).filter (fun sub => decide (resolveStreamMode sub.1 reg = .onChange))).map
        (fun sub => entryOf reg timing sub.1 sub.2) := by
  induction subs generalizing i with
  | nil => rfl
  | cons sub rest inductionHypothesis =>
      rw [entriesOf, inductionHypothesis, List.zipIdx_cons, List.filter_cons]
      by_cases onChange : resolveStreamMode sub reg = .onChange
      · rw [if_pos onChange, if_pos (decide_eq_true onChange)]
        rfl
      · rw [if_neg onChange, if_neg (by simpa using onChange)]
        rfl

/-- The number of an entry does not depend on the passes. -/
theorem entryNumber_passes (timing : StreamTiming σ) (passes : List (LoopPass σ)) (before : List Subscription) :
    entryNumber reg { timing with passes := passes } before = entryNumber reg timing before := by
  rw [entryNumber, entryNumber, entriesOf_eq, entriesOf_eq, List.length_map, List.length_map]

/-- The entries after some passes. -/
theorem onChange_after (timing : StreamTiming σ) (list : SubscriptionList) (front : List (LoopPass σ)) :
    (bucketsAfter reg front (openingBuckets reg timing list)).onChange =
      (onChangeSubs reg list).mapIdx (fun j sub => entryAt reg timing sub.1 sub.2 j front) := by
  induction front using List.reverseRecOn with
  | nil =>
      have opening : (openingBuckets reg timing list).onChange = entriesOf reg timing list.subscription 0 := by
        rw [openingBuckets, fillBuckets_onChange]
        rfl
      apply List.ext_getElem?
      intro j
      rw [bucketsAfter, runSteps, List.foldl_nil, opening, entriesOf_eq, onChangeSubs, List.getElem?_map,
        List.getElem?_mapIdx]
      rfl
  | append_singleton front pass inductionHypothesis =>
      rw [bucketsAfter] at inductionHypothesis
      rw [bucketsAfter, runSteps_snoc, nextBuckets, inductionHypothesis, List.mapIdx_mapIdx]
      refine congrArg (fun step => List.mapIdx step (onChangeSubs reg list)) ?_
      funext j sub
      exact congrArg Prod.fst (pollEntry_entryAt timing sub.1 sub.2 j front pass)

section Entry

variable {timing : StreamTiming σ} {list : SubscriptionList} {before rest : List Subscription}
  {sub : Subscription} (listed : list.subscription = before ++ sub :: rest)
  (onChange : resolveStreamMode sub reg = .onChange)

include listed onChange

theorem opening_entry :
    (openingBuckets reg timing list).onChange[entryNumber reg timing before]? =
      some (entryOf reg timing sub before.length) := by
  rw [openingBuckets, fillBuckets_onChange, listed, entriesOf_append, entriesOf, if_pos onChange,
    Nat.zero_add, List.nil_append, entryNumber, List.getElem?_append_right (Nat.le_refl _), Nat.sub_self]
  rfl

/-- Which subscription has an entry number. -/
theorem onChangeSubs_at :
    (onChangeSubs reg list)[entryNumber reg timing before]? = some (sub, before.length) := by
  have number : entryNumber reg timing before = (before.zipIdx.filter
      (fun sub => decide (resolveStreamMode sub.1 reg = .onChange))).length := by
    rw [entryNumber, entriesOf_eq, List.length_map]
  rw [number, onChangeSubs, listed, List.zipIdx_append, List.filter_append,
    List.getElem?_append_right (Nat.le_refl _), Nat.sub_self, List.zipIdx_cons, List.filter_cons,
    if_pos (decide_eq_true onChange), Nat.zero_add]
  rfl

/-- The entry remembers what a timer polled at the same readings does. -/
theorem entry_after (front : List (LoopPass σ)) :
    (bucketsAfter reg front (openingBuckets reg timing list)).onChange[entryNumber reg timing before]? =
      some (entryAt reg timing sub before.length (entryNumber reg timing before) front) := by
  rw [onChange_after, List.getElem?_mapIdx, onChangeSubs_at listed onChange]
  rfl

end Entry

/-- An ON_CHANGE entry is that of a subscription of the list. -/
theorem onChangeSubs_source {list : SubscriptionList} (timing : StreamTiming σ) {j i : Nat} {sub : Subscription}
    (entry : (onChangeSubs reg list)[j]? = some (sub, i)) :
    ∃ before rest, list.subscription = before ++ sub :: rest ∧ resolveStreamMode sub reg = .onChange ∧
      i = before.length ∧ j = entryNumber reg timing before := by
  have number : (entriesOf reg timing list.subscription 0)[j]? = some (entryOf reg timing sub i) := by
    rw [entriesOf_eq, List.getElem?_map, ← onChangeSubs, entry]
    rfl
  rcases entriesOf_source number with ⟨before, other, rest, listed, onChange, isNumber, _⟩
  have same : (onChangeSubs reg list)[entryNumber reg timing before]? = _ := onChangeSubs_at listed onChange
  rw [entryNumber, ← isNumber, entry] at same
  cases same
  exact ⟨before, rest, listed, onChange, rfl, isNumber⟩

end Telemetry
end PscMockServer
