import PscMockServer.Foundations.Timers
import PscMockServer.Telemetry.StreamEntries

namespace PscMockServer
namespace Telemetry

open Foundations Gnmi Utils Backend Gnmi.Subscribe

/-!
# When an ON_CHANGE entry sends a heartbeat

Each entry is a timer that is polled once in every pass, and sends everything it finds when
the timer fires.  Its interval arrives as an unsigned 64-bit number and is compared as a
signed one, so an interval of 2^63 nanoseconds or more is negative there and has always
passed.
-/

variable {σ : Type} {reg : DataProviderRegistry σ}

/-! ## Heartbeats -/

/-- Entry `j` sends a heartbeat in the pass that begins with these buckets. -/
def heartbeatAt (j : Nat) (buckets : Buckets) (pass : LoopPass σ) : Bool :=
  match buckets.onChange[j]? with
  | some oc => heartbeatDue oc.sub.heartbeatInterval oc.lastHeartbeat (pass.pollNow j)
  | none => false

/-- The clock readings at which entry `j` sends its heartbeats. -/
def heartbeats (reg : DataProviderRegistry σ) (j : Nat) : List (LoopPass σ) -> Buckets -> List Int
  | [], _ => []
  | pass :: rest, buckets =>
      (if heartbeatAt j buckets pass then [pass.pollNow j] else []) ++
        heartbeats reg j rest (nextBuckets reg buckets pass)

/-- The reading of the poll before, or the one of the set-up. -/
def readingBefore (setup : Int) (j : Nat) (front : List (LoopPass σ)) : Int :=
  (front.getLast?).elim setup (fun pass => pass.pollNow j)

/-- At a poll of the subscription that follows `before` in its list, the interval is not zero
and has passed since the last heartbeat, or since the set-up. -/
def IntervalPassed (reg : DataProviderRegistry σ) (timing : StreamTiming σ) (list : SubscriptionList)
    (before : List Subscription) (sub : Subscription) (front : List (LoopPass σ)) (pass : LoopPass σ) : Prop :=
  let j := entryNumber reg timing before
  let last := ((heartbeats reg j front (openingBuckets reg timing list)).getLast?).getD
    (timing.setupNow before.length)
  sub.heartbeatInterval.toNat ≠ 0 ∧ (sub.heartbeatInterval.toNat : Int) ≤ pass.pollNow j - last

instance (reg : DataProviderRegistry σ) (timing : StreamTiming σ) (list : SubscriptionList)
    (before : List Subscription) (sub : Subscription) (front : List (LoopPass σ)) (pass : LoopPass σ) :
    Decidable (IntervalPassed reg timing list before sub front pass) :=
  inferInstanceAs (Decidable (_ ∧ _))

/-- The cadence of the subscription that follows `before` in its list.  At every poll there is
a heartbeat exactly if the interval has passed; then the stream sends for the entry
everything the poll finds, and else what has changed since the look before. -/
structure CadenceRight (reg : DataProviderRegistry σ) (timing : StreamTiming σ) (list : SubscriptionList)
    (before : List Subscription) (sub : Subscription) : Prop where
  exact : ∀ front pass, front ++ [pass] <+: reachedPasses reg timing list ->
    (heartbeatAt (entryNumber reg timing before) (bucketsAfter reg front (openingBuckets reg timing list)) pass =
        true ↔ IntervalPassed reg timing list before sub front pass)
  writes : ∀ front pass, front ++ [pass] <+: reachedPasses reg timing list ->
    let j := entryNumber reg timing before
    let query := gnmiToXpath sub.path
    let found := (reg.snapshot (pass.pollAt j) query).snap
    let prev := (reg.snapshot (stateBefore timing before.length j front) query).snap
    entrySent j (streamAfter reg timing list (front ++ [pass])).2 =
      entrySent j (streamAfter reg timing list front).2 ++
        (if IntervalPassed reg timing list before sub front pass then
          buildFullNotifications found reg (pass.pollClock j)
        else buildChangeNotifications prev found reg (pass.pollClock j)).map SubscribeResponse.update
  apart : ∀ front pass, front ++ [pass] <+: reachedPasses reg timing list ->
    let j := entryNumber reg timing before
    let opening := openingBuckets reg timing list
    heartbeatAt j (bucketsAfter reg front opening) pass = true ->
      ∀ earlier ∈ heartbeats reg j front opening,
        (sub.heartbeatInterval.toNat : Int) ≤ pass.pollNow j - earlier
  never : sub.heartbeatInterval.toNat = 0 ->
    heartbeats reg (entryNumber reg timing before) (reachedPasses reg timing list)
      (openingBuckets reg timing list) = []

theorem previous_pollReadings (setup : Int) (j : Nat) (front : List (LoopPass σ)) :
    Timer.previous setup (pollReadings j front) = readingBefore setup j front := by
  rw [Timer.previous, pollReadings, List.getLast?_map, readingBefore]
  cases front.getLast? with
  | none => rfl
  | some pass => rfl

/-- Statements about the polls are statements about their readings. -/
theorem forall_poll_iff (j : Nat) (passes : List (LoopPass σ)) (holds : List Int -> Int -> Prop) :
    (∀ front now, front ++ [now] <+: pollReadings j passes -> holds front now) ↔
      ∀ front pass, front ++ [pass] <+: passes -> holds (pollReadings j front) (pass.pollNow j) := by
  constructor
  · intro all front pass isFront
    apply all
    rw [← pollReadings_snoc]
    exact isFront.map _
  · intro all front now isFront
    rcases List.prefix_map_iff.mp isFront with ⟨polled, isPolled, readings⟩
    cases polled using List.reverseRecOn with
    | nil => exact absurd readings (List.append_ne_nil_of_right_ne_nil front (List.cons_ne_nil now []))
    | append_singleton before pass =>
        have parts := List.append_inj' (readings.trans (pollReadings_snoc j before pass)) rfl
        rw [parts.1, List.singleton_inj.mp parts.2]
        exact all before pass isPolled

/-! ## An entry is a timer -/

section Entry

variable {timing : StreamTiming σ} {list : SubscriptionList} {before rest : List Subscription}
  {sub : Subscription} (listed : list.subscription = before ++ sub :: rest)
  (onChange : resolveStreamMode sub reg = .onChange)

include listed onChange

theorem heartbeatAt_eq (front : List (LoopPass σ)) (pass : LoopPass σ) :
    heartbeatAt (entryNumber reg timing before) (bucketsAfter reg front (openingBuckets reg timing list)) pass =
      beatDue sub.heartbeatInterval (timing.setupNow before.length) (entryNumber reg timing before) front
        pass := by
  rw [heartbeatAt, entry_after listed onChange front]
  rfl

/-- Its heartbeats are the firings of that timer. -/
theorem heartbeats_eq (front : List (LoopPass σ)) :
    heartbeats reg (entryNumber reg timing before) front (openingBuckets reg timing list) =
      Timer.firings (heartbeatDue sub.heartbeatInterval)
        (pollReadings (entryNumber reg timing before) front) (timing.setupNow before.length) := by
  have snoc : ∀ (front : List (LoopPass σ)) (pass : LoopPass σ) (buckets : Buckets) (j : Nat),
      heartbeats reg j (front ++ [pass]) buckets = heartbeats reg j front buckets ++
        if heartbeatAt j (bucketsAfter reg front buckets) pass then [pass.pollNow j] else [] := by
    intro front pass
    induction front with
    | nil => exact fun buckets j => List.append_nil _
    | cons first front inductionHypothesis =>
        intro buckets j
        rw [List.cons_append, heartbeats, inductionHypothesis, heartbeats, List.append_assoc]
        rfl
  induction front using List.reverseRecOn with
  | nil => rfl
  | append_singleton front pass inductionHypothesis =>
      rw [snoc, inductionHypothesis, pollReadings_snoc, Timer.firings_snoc, heartbeatAt_eq listed onChange]
      rfl

/-- So the cadence is right when the timer is regular. -/
theorem cadenceRight_iff_regular :
    CadenceRight reg timing list before sub ↔
      Timer.Regular (heartbeatDue sub.heartbeatInterval) (timing.setupNow before.length)
        sub.heartbeatInterval.toNat
        (pollReadings (entryNumber reg timing before) (reachedPasses reg timing list)) := by
  have exact_ := forall_poll_iff (entryNumber reg timing before) (reachedPasses reg timing list)
    (fun front now => (heartbeatDue sub.heartbeatInterval (Timer.lastAfter
        (heartbeatDue sub.heartbeatInterval) (timing.setupNow before.length) front) now = true ↔
      sub.heartbeatInterval.toNat ≠ 0 ∧ (sub.heartbeatInterval.toNat : Int) ≤
        now - Timer.lastFiring (heartbeatDue sub.heartbeatInterval) (timing.setupNow before.length) front))
  have apart_ := forall_poll_iff (entryNumber reg timing before) (reachedPasses reg timing list)
    (fun front now => heartbeatDue sub.heartbeatInterval (Timer.lastAfter
        (heartbeatDue sub.heartbeatInterval) (timing.setupNow before.length) front) now = true ->
      ∀ earlier ∈ Timer.firings (heartbeatDue sub.heartbeatInterval) front (timing.setupNow before.length),
        (sub.heartbeatInterval.toNat : Int) ≤ now - earlier)
  constructor
  · intro right
    refine ⟨exact_.mpr (fun front pass isFront => ?_), apart_.mpr (fun front pass isFront => ?_),
      fun zero => ?_⟩
    · have here := right.exact front pass isFront
      rw [heartbeatAt_eq listed onChange, IntervalPassed, heartbeats_eq listed onChange] at here
      exact here
    · have here := right.apart front pass isFront
      dsimp only at here
      rw [heartbeatAt_eq listed onChange, heartbeats_eq listed onChange] at here
      exact here
    · rw [← heartbeats_eq listed onChange]
      exact right.never zero
  · intro regular
    have passed : ∀ front pass, front ++ [pass] <+: reachedPasses reg timing list ->
        (beatDue sub.heartbeatInterval (timing.setupNow before.length) (entryNumber reg timing before) front
          pass = true ↔ IntervalPassed reg timing list before sub front pass) := by
      intro front pass isFront
      rw [IntervalPassed, heartbeats_eq listed onChange]
      exact exact_.mp regular.exact front pass isFront
    refine ⟨fun front pass isFront => ?_, fun front pass isFront => ?_, fun front pass isFront => ?_,
      fun zero => ?_⟩
    · rw [heartbeatAt_eq listed onChange]
      exact passed front pass isFront
    · dsimp only
      rw [entrySent_pass listed onChange isFront]
      refine congrArg (fun notes : List Notification => _ ++ notes.map SubscribeResponse.update) ?_
      exact if_congr (passed front pass isFront) rfl rfl
    · dsimp only
      rw [heartbeatAt_eq listed onChange, heartbeats_eq listed onChange]
      exact apart_.mp regular.apart front pass isFront
    · rw [heartbeats_eq listed onChange]
      exact regular.never zero

end Entry

/-! ## Which intervals are kept -/

/-- Below 2^63 the comparison is the one of the numbers. -/
theorem heartbeatDue_iff {interval : UInt64} (small : interval.toNat < 2 ^ 63) (last now : Int) :
    heartbeatDue interval last now = true ↔ interval.toNat ≠ 0 ∧ (interval.toNat : Int) ≤ now - last := by
  rw [heartbeatDue, toLongLong, if_pos small]
  by_cases zero : interval = 0
  · rw [if_pos zero, zero]
    exact ⟨fun impossible => absurd impossible Bool.false_ne_true, fun both => absurd rfl both.1⟩
  · have positive : interval.toNat ≠ 0 := fun same => zero (UInt64.toNat_inj.mp same)
    rw [if_neg zero, decide_eq_true_eq, and_iff_right positive]

/-- From there on every poll is due, as long as the clock does not go back. -/
theorem heartbeatDue_of_large {interval : UInt64} (large : 2 ^ 63 ≤ interval.toNat) {last now : Int}
    (ordered : last ≤ now) : heartbeatDue interval last now = true := by
  have positive : interval ≠ 0 := by
    rintro rfl
    exact absurd large (by decide)
  have bound := interval.toNat_lt
  rw [heartbeatDue, toLongLong, if_neg positive, if_neg (Nat.not_lt_of_le large), decide_eq_true_eq]
  omega

/-- A timer with such an interval fires at every poll. -/
theorem lastAfter_of_large {interval : UInt64} (large : 2 ^ 63 ≤ interval.toNat) {start : Int}
    {readings : List Int} (ordered : Timer.NonDecreasing start readings) :
    Timer.lastAfter (heartbeatDue interval) start readings = Timer.previous start readings := by
  cases readings using List.reverseRecOn with
  | nil => rfl
  | append_singleton front now =>
      have earlier : Timer.lastAfter (heartbeatDue interval) start front ≤ Timer.previous start front :=
        (Timer.firings_le (ordered.front (List.prefix_append front [now]))).2
      have step := ordered front now (List.prefix_refl _)
      rw [Timer.lastAfter_snoc, Timer.previous_snoc, Timer.tick,
        heartbeatDue_of_large large (Int.le_trans earlier step), if_pos rfl]

theorem regular_iff (interval : UInt64) {start : Int} {readings : List Int}
    (ordered : Timer.NonDecreasing start readings) :
    Timer.Regular (heartbeatDue interval) start interval.toNat readings ↔
      interval.toNat < 2 ^ 63 ∨ ∀ front now, front ++ [now] <+: readings ->
        (interval.toNat : Int) ≤ now - Timer.previous start front := by
  rcases Nat.lt_or_ge interval.toNat (2 ^ 63) with small | large
  · refine ⟨fun _ => Or.inl small, fun _ => Timer.regular_of_exact ordered (fun front now _ => ?_)⟩
    rw [Timer.lastAfter_eq_lastFiring]
    exact heartbeatDue_iff small _ now
  · have fires : ∀ front now, front ++ [now] <+: readings ->
        heartbeatDue interval (Timer.lastAfter (heartbeatDue interval) start front) now = true ∧
          Timer.lastFiring (heartbeatDue interval) start front = Timer.previous start front := by
      intro front now isFront
      have last := lastAfter_of_large large (ordered.front ((List.prefix_append front [now]).trans isFront))
      refine ⟨?_, (Timer.lastAfter_eq_lastFiring front).symm.trans last⟩
      rw [last]
      exact heartbeatDue_of_large large (ordered front now isFront)
    have positive : interval.toNat ≠ 0 := by omega
    constructor
    · intro regular
      refine Or.inr (fun front now isFront => ?_)
      rcases fires front now isFront with ⟨fired, last⟩
      rw [← last]
      exact ((regular.exact front now isFront).mp fired).2
    · rintro (small | spaced)
      · omega
      · refine Timer.regular_of_exact ordered (fun front now isFront => ?_)
        rcases fires front now isFront with ⟨fired, last⟩
        rw [last]
        exact ⟨fun _ => ⟨positive, spaced front now isFront⟩, fun _ => fired⟩

/-- On a clock that does not go back, the cadence of an ON_CHANGE subscription is right
exactly if its interval is below 2^63 or if every poll comes at least the interval after
the one before; on a 64-bit clock the latter means that there is no poll. -/
theorem heartbeat_cadence_iff {timing : StreamTiming σ} {list : SubscriptionList}
    {before rest : List Subscription} {sub : Subscription}
    (listed : list.subscription = before ++ sub :: rest) (onChange : resolveStreamMode sub reg = .onChange)
    (ordered : ∀ front pass, front ++ [pass] <+: reachedPasses reg timing list ->
      readingBefore (timing.setupNow before.length) (entryNumber reg timing before) front ≤
        pass.pollNow (entryNumber reg timing before)) :
    (CadenceRight reg timing list before sub ↔
      sub.heartbeatInterval.toNat < 2 ^ 63 ∨
        ∀ front pass, front ++ [pass] <+: reachedPasses reg timing list ->
          (sub.heartbeatInterval.toNat : Int) ≤ pass.pollNow (entryNumber reg timing before) -
            readingBefore (timing.setupNow before.length) (entryNumber reg timing before) front) ∧
    (0 ≤ timing.setupNow before.length ->
      (∀ pass ∈ reachedPasses reg timing list, pass.pollNow (entryNumber reg timing before) < 2 ^ 63) ->
        (CadenceRight reg timing list before sub ↔
          sub.heartbeatInterval.toNat < 2 ^ 63 ∨ reachedPasses reg timing list = [])) := by
  have readings : Timer.NonDecreasing (timing.setupNow before.length)
      (pollReadings (entryNumber reg timing before) (reachedPasses reg timing list)) := by
    apply (forall_poll_iff _ _ (fun front now => Timer.previous (timing.setupNow before.length) front ≤ now)).mpr
    intro front pass isFront
    rw [previous_pollReadings]
    exact ordered front pass isFront
  have main : CadenceRight reg timing list before sub ↔ sub.heartbeatInterval.toNat < 2 ^ 63 ∨
      ∀ front pass, front ++ [pass] <+: reachedPasses reg timing list ->
        (sub.heartbeatInterval.toNat : Int) ≤ pass.pollNow (entryNumber reg timing before) -
          readingBefore (timing.setupNow before.length) (entryNumber reg timing before) front := by
    rw [cadenceRight_iff_regular listed onChange, regular_iff sub.heartbeatInterval readings,
      forall_poll_iff _ _ (fun front now => (sub.heartbeatInterval.toNat : Int) ≤
        now - Timer.previous (timing.setupNow before.length) front)]
    simp only [previous_pollReadings]
  refine ⟨main, fun notNegative bounded => main.trans ?_⟩
  rcases Nat.lt_or_ge sub.heartbeatInterval.toNat (2 ^ 63) with small | large
  · exact ⟨fun _ => Or.inl small, fun _ => Or.inl small⟩
  · refine or_congr_right ⟨fun spaced => ?_, fun nothing => ?_⟩
    · cases reached : reachedPasses reg timing list with
      | nil => rfl
      | cons pass passes =>
          rw [reached] at spaced bounded
          have first := spaced [] pass (List.prefix_append [pass] passes)
          have bound := bounded pass List.mem_cons_self
          simp only [readingBefore, List.getLast?_nil, Option.elim_none] at first
          omega
    · intro front pass isFront
      rw [nothing] at isFront
      exact absurd (mem_of_snoc isFront) List.not_mem_nil

/-- The one poll of the stream comes after the set-up. -/
theorem renameTiming_ordered (interval : UInt64) (front : List (LoopPass Server.Stores))
    (pass : LoopPass Server.Stores) (isFront : front ++ [pass] <+:
      reachedPasses Server.registry (renameTiming beforeRename) (beatingList interval)) :
    readingBefore ((renameTiming beforeRename).setupNow ([] : List Subscription).length)
        (entryNumber Server.registry (renameTiming beforeRename) []) front ≤
      pass.pollNow (entryNumber Server.registry (renameTiming beforeRename) []) := by
  have inStream : front ++ [pass] <+: [passAt afterRename] := isFront.trans (reachedPasses_front _ _)
  rw [List.mem_singleton.mp (mem_of_snoc inStream)]
  cases front with
  | nil => decide
  | cons first front =>
      have length := inStream.length_le
      simp at length

theorem heartbeat_cadence_hostname :
    CadenceRight Server.registry (renameTiming beforeRename) (beatingList 5) [] (beatingSub 5) :=
  have listed : (beatingList 5).subscription = [] ++ beatingSub 5 :: [] := rfl
  (heartbeat_cadence_iff listed (by decide +kernel) (renameTiming_ordered 5)).1.mpr (Or.inl (by decide))

/-- With an interval of 2^63 nanoseconds the entry sends everything after five, although the
look before found the same. -/
theorem heartbeat_too_early :
    heartbeatAt 0 (openingBuckets Server.registry (renameTiming afterRename) (beatingList 9223372036854775808))
        (passAt afterRename) = true ∧
      entrySent 0 (handleStream Server.registry (renameTiming afterRename)
        (beatingList 9223372036854775808)).2 ≠ [] ∧
      buildChangeNotifications (Server.registry.snapshot afterRename (gnmiToXpath hostnameSub.path)).snap
        (Server.registry.snapshot afterRename (gnmiToXpath hostnameSub.path)).snap Server.registry
          ((passAt afterRename).pollClock 0) = [] ∧
      ¬ CadenceRight Server.registry (renameTiming afterRename) (beatingList 9223372036854775808) []
        (beatingSub 9223372036854775808) := by
  have reached : reachedPasses Server.registry (renameTiming afterRename)
      (beatingList 9223372036854775808) = [passAt afterRename] := by
    unfold reachedPasses
    rw [if_pos (by decide +kernel), renameTiming, polledPasses, if_pos (by decide +kernel)]
    rfl
  have beats : heartbeatAt 0 (openingBuckets Server.registry (renameTiming afterRename)
      (beatingList 9223372036854775808)) (passAt afterRename) = true := by decide +kernel
  refine ⟨beats, by decide +kernel, by decide +kernel, fun right => ?_⟩
  have isFront : [] ++ [passAt afterRename] <+: reachedPasses Server.registry (renameTiming afterRename)
      (beatingList 9223372036854775808) := by
    rw [reached]
    exact List.prefix_refl _
  have passed := ((right.exact [] (passAt afterRename) isFront).mp beats).2
  revert passed
  decide

end Telemetry
end PscMockServer
