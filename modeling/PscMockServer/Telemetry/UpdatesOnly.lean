import PscMockServer.Telemetry.OpenStreams

namespace PscMockServer
namespace Telemetry

open Foundations Gnmi Utils Backend Gnmi.Subscribe

/-!
# The flag `updates_only`

The flag should take the notifications before the first sync response away and
nothing else.  A stream with the flag skips the whole initial build, the checks
included; the other two modes never look at the flag.
-/

/-- What the client receives. -/
def responses (answer : Status × List Sent) : List SubscribeResponse :=
  answer.2.map Sent.response

/-- The responses without the notifications before the first sync response. -/
def fromSync (received : List SubscribeResponse) : List SubscribeResponse :=
  received.dropWhile (fun response => decide (response ≠ .syncResponse))

/-- The second answer is the first without its initial notifications. -/
def OnlySuppressed (loud quiet : Status × List Sent) : Prop :=
  quiet.1 = loud.1 ∧ responses quiet = fromSync (responses loud)

def withUpdatesOnly (list : SubscriptionList) (updatesOnly : Bool) : SubscriptionList :=
  { list with updatesOnly := updatesOnly }

/-- The first message of an RPC for the list. -/
def subscribeTo (list : SubscriptionList) : SubscribeRequest where
  request := .subscribe list

/-- Some sample interval is refused before anything is built. -/
def IntervalRefused (list : SubscriptionList) : Prop :=
  ∃ sub ∈ list.subscription, maxInterval < sub.sampleInterval.toNat

variable {σ : Type} {reg : DataProviderRegistry σ}

/-! ## What is suppressed -/

theorem fromSync_nil : fromSync [] = [] := rfl

/-- Everything before a sync response that follows notifications goes. -/
theorem fromSync_opening (site : Site) (notes : List Notification) (rest : List Sent) :
    fromSync ((writeAll site notes ++ syncResponse ++ rest).map Sent.response) =
      (syncResponse ++ rest).map Sent.response := by
  induction notes with
  | nil => rfl
  | cons n notes inductionHypothesis => exact inductionHypothesis

/-- Nothing is missing only where nothing came before. -/
theorem opening_ne_fromSync (site : Site) {notes : List Notification} (some_ : notes ≠ [])
    (rest : List Sent) :
    (writeAll site notes ++ syncResponse ++ rest).map Sent.response ≠
      fromSync ((writeAll site notes ++ syncResponse ++ rest).map Sent.response) := by
  rw [fromSync_opening]
  intro same
  cases notes with
  | nil => exact some_ rfl
  | cons n notes => cases (List.cons.inj same).1

/-! ## Streams -/

/-- The loop keeps what was written before it. -/
theorem streamLoop_keeps (reg : DataProviderRegistry σ) (list : SubscriptionList)
    (passes : List (LoopPass σ)) (buckets : Buckets)
    (sent : List Sent) : sent <+: (streamLoop reg list passes buckets sent).2 := by
  induction passes generalizing buckets sent with
  | nil => exact List.prefix_refl sent
  | cons pass rest inductionHypothesis =>
      unfold streamLoop
      dsimp only
      split
      · exact List.prefix_refl sent
      · rw [List.append_assoc]
        exact (List.prefix_append sent _).trans (inductionHypothesis _ _)

theorem intervalRefused_iff (list : SubscriptionList) :
    list.subscription.any (fun sub => decide (maxInterval < sub.sampleInterval.toNat)) = true ↔
      IntervalRefused list := by
  rw [List.any_eq_true]
  constructor
  · rintro ⟨sub, member, tooLong⟩
    exact ⟨sub, member, of_decide_eq_true tooLong⟩
  · rintro ⟨sub, member, tooLong⟩
    exact ⟨sub, member, decide_eq_true tooLong⟩

/-- A stream with the flag goes straight to its loop. -/
theorem handleStream_quiet (timing : StreamTiming σ) {list : SubscriptionList}
    (intervals : ¬ IntervalRefused list) :
    handleStream reg timing (withUpdatesOnly list true) =
      streamLoop reg (withUpdatesOnly list true) timing.passes
        (openingBuckets reg timing list) syncResponse := by
  rw [← intervalRefused_iff] at intervals
  unfold handleStream
  rw [withUpdatesOnly, if_neg intervals]
  rfl

theorem accepted_withUpdatesOnly {list : SubscriptionList} (intervals : ¬ IntervalRefused list)
    (buildable : Buildable reg list) (updatesOnly : Bool) :
    Accepted reg (withUpdatesOnly list updatesOnly) := by
  refine ⟨fun sub member => ?_, buildable⟩
  by_contra tooLong
  exact intervals ⟨sub, member, Nat.lt_of_not_le tooLong⟩

/-- The samples of a list do not depend on the flag. -/
theorem runSample_updatesOnly (list : SubscriptionList) (updatesOnly : Bool) (pass : LoopPass σ)
    (chronomap : List (Subscription × Int)) :
    runSample reg (withUpdatesOnly list updatesOnly) pass chronomap = runSample reg list pass chronomap :=
  rfl

theorem passWrites_updatesOnly (list : SubscriptionList) (updatesOnly : Bool)
    (passes : List (LoopPass σ)) (buckets : Buckets) :
    passWrites reg (withUpdatesOnly list updatesOnly) passes buckets =
      passWrites reg list passes buckets := by
  induction passes generalizing buckets with
  | nil => rfl
  | cons pass rest inductionHypothesis =>
      rw [passWrites, passWrites, inductionHypothesis, writesUpTo, writesUpTo, runSample_updatesOnly]

/-- In STREAM mode the flag does what it should exactly on the lists that pass the
checks of the skipped build, or that are refused before it. -/
theorem handleStream_onlySuppressed_iff (timing : StreamTiming σ) (list : SubscriptionList) :
    OnlySuppressed (handleStream reg timing (withUpdatesOnly list false))
        (handleStream reg timing (withUpdatesOnly list true)) ↔
      IntervalRefused list ∨ Buildable reg list := by
  by_cases intervals : IntervalRefused list
  · have refused := (intervalRefused_iff list).mpr intervals
    refine ⟨fun _ => Or.inl intervals, fun _ => ?_⟩
    unfold handleStream withUpdatesOnly
    rw [if_pos refused, if_pos refused]
    exact ⟨rfl, rfl⟩
  · rw [or_iff_right intervals, handleStream_quiet timing intervals]
    by_cases buildable : Buildable reg list
    · refine ⟨fun _ => buildable, fun _ => ?_⟩
      have accepted := accepted_withUpdatesOnly intervals buildable
      have quiet : streamLoop reg (withUpdatesOnly list true) timing.passes
          (openingBuckets reg timing list) syncResponse =
            (Status.OK, syncResponse ++ passWrites reg (withUpdatesOnly list true) timing.passes
              (openingBuckets reg timing list)) := by
        apply streamLoop_eq (accepted true).2.1
        intro sub sampled
        exact buildable.2 sub (chronomap_subs [] sampled)
      rw [handleStream_of_accepted timing (accepted false) rfl, quiet]
      refine ⟨rfl, ?_⟩
      rw [responses, responses, openingWrites, fromSync_opening, passWrites_updatesOnly,
        passWrites_updatesOnly]
      rfl
    · refine ⟨fun suppressed => ?_, fun built => absurd built buildable⟩
      have refused : ¬ Accepted reg (withUpdatesOnly list false) :=
        fun accepted => buildable accepted.2
      have nothing := suppressed.2
      rw [responses, responses, handleStream_of_not_accepted timing refused rfl, List.map_nil,
        fromSync_nil, List.map_eq_nil_iff] at nothing
      have kept := streamLoop_keeps reg (withUpdatesOnly list true) timing.passes
        (openingBuckets reg timing list) syncResponse
      rw [nothing, List.prefix_nil] at kept
      cases kept

/-! ## ONCE and POLL -/

/-- ONCE and POLL do not look at the flag. -/
theorem build_updatesOnly (found : Nat -> σ) (clock : Nat -> Int) (list : SubscriptionList)
    (updatesOnly : Bool) :
    buildSubscribeNotifications reg found clock (withUpdatesOnly list updatesOnly) =
      buildSubscribeNotifications reg found clock list := rfl

/-- An answer that opens with the initial build has notifications to take away unless
the build fails. -/
theorem opening_onlySuppressed_iff (found : Nat -> σ) (clock : Nat -> Int) (list : SubscriptionList)
    (status : Status) (later : List Sent) :
    (let built := buildSubscribeNotifications reg found clock list
      let answer := if !built.1.isOk then (built.1, [])
        else (status, writeAll .build built.2 ++ syncResponse ++ later)
      OnlySuppressed answer answer) ↔ ¬ Buildable reg list := by
  dsimp only
  by_cases buildable : Buildable reg list
  · have sends := Subscribe.build_sends found clock buildable
    rw [(build_isOk_iff found clock list).mpr buildable, if_neg (by decide)]
    refine ⟨fun suppressed => ?_, fun refused => absurd buildable refused⟩
    have same := suppressed.2
    rw [responses] at same
    exact absurd same (opening_ne_fromSync .build sends.2 later)
  · rw [← build_isOk_iff found clock, Bool.not_eq_true] at buildable
    rw [buildable, Bool.not_false, if_pos rfl, ← build_isOk_iff found clock, buildable]
    exact ⟨fun _ => Bool.false_ne_true, fun _ => ⟨rfl, rfl⟩⟩

theorem handleOnce_onlySuppressed_iff (found : Nat -> σ) (clock : Nat -> Int) (list : SubscriptionList) :
    OnlySuppressed (handleOnce reg found clock (withUpdatesOnly list false))
        (handleOnce reg found clock (withUpdatesOnly list true)) ↔ ¬ Buildable reg list := by
  unfold handleOnce
  rw [build_updatesOnly, build_updatesOnly, ← opening_onlySuppressed_iff found clock list Status.OK []]
  dsimp only
  rw [List.append_nil]

/-- The answers to further messages come after what was written before. -/
theorem pollLoop_append (reg : DataProviderRegistry σ) (list : SubscriptionList)
    (messages : List (ClientMessage σ))
    (sent : List Sent) :
    ∃ later, (pollLoop reg list messages sent).2 = sent ++ later := by
  induction messages generalizing sent with
  | nil => exact ⟨[], (List.append_nil sent).symm⟩
  | cons message rest inductionHypothesis =>
      unfold pollLoop
      split
      · dsimp only
        split
        · exact ⟨[], (List.append_nil sent).symm⟩
        · rcases inductionHypothesis (sent ++ writeAll .build _ ++ syncResponse) with ⟨later, written⟩
          rw [written, List.append_assoc, List.append_assoc]
          exact ⟨_, rfl⟩
      · exact ⟨[], (List.append_nil sent).symm⟩
      · exact ⟨[], (List.append_nil sent).symm⟩

theorem pollLoop_updatesOnly (list : SubscriptionList) (updatesOnly : Bool)
    (messages : List (ClientMessage σ)) (sent : List Sent) :
    pollLoop reg (withUpdatesOnly list updatesOnly) messages sent = pollLoop reg list messages sent := by
  induction messages generalizing sent with
  | nil => rfl
  | cons message rest inductionHypothesis =>
      unfold pollLoop
      rw [build_updatesOnly]
      dsimp only
      simp only [inductionHypothesis]

theorem handlePoll_onlySuppressed_iff (found : Nat -> σ) (clock : Nat -> Int)
    (messages : List (ClientMessage σ)) (list : SubscriptionList) :
    OnlySuppressed (handlePoll reg found clock messages (withUpdatesOnly list false))
        (handlePoll reg found clock messages (withUpdatesOnly list true)) ↔ ¬ Buildable reg list := by
  unfold handlePoll
  rw [build_updatesOnly, build_updatesOnly]
  dsimp only
  rw [pollLoop_updatesOnly, pollLoop_updatesOnly]
  rcases pollLoop_append reg list messages
    (writeAll .build (buildSubscribeNotifications reg found clock list).2 ++ syncResponse) with
    ⟨later, written⟩
  rw [← opening_onlySuppressed_iff found clock list _ later]
  dsimp only
  rw [← written]

/-! ## The whole RPC -/

/-- The lists on which the flag does what it should. -/
def FlagRespected (reg : DataProviderRegistry σ) (list : SubscriptionList) : Prop :=
  match list.mode with
  | .stream => IntervalRefused list ∨ Buildable reg list
  | .once => ¬ Buildable reg list
  | .poll => ¬ Buildable reg list
  | .unrecognized _ => True

/-- The mode of the list picks the handler. -/
theorem run_subscribeTo (timing : StreamTiming σ) (messages : List (ClientMessage σ))
    (list : SubscriptionList) :
    Subscribe.run reg timing messages (subscribeTo list) =
      match list.mode with
      | .stream => handleStream reg timing list
      | .once => handleOnce reg timing.initialAt timing.initialClock list
      | .poll => handlePoll reg timing.initialAt timing.initialClock messages list
      | .unrecognized _ => (⟨.unknown, "Unknown subscription mode".toList⟩, []) := rfl

/-- For every list, the flag only takes the initial notifications away exactly if the
mode is STREAM and the list passes the checks of the skipped build (or is refused
before it), or the mode is ONCE or POLL and there are no notifications to take away
because the build fails. -/
theorem updatesOnly_suppresses_iff (reg : DataProviderRegistry σ) (timing : StreamTiming σ)
    (messages : List (ClientMessage σ)) (list : SubscriptionList) :
    OnlySuppressed (Subscribe.run reg timing messages (subscribeTo (withUpdatesOnly list false)))
        (Subscribe.run reg timing messages (subscribeTo (withUpdatesOnly list true))) ↔
      FlagRespected reg list := by
  have mode : ∀ updatesOnly, (withUpdatesOnly list updatesOnly).mode = list.mode := fun _ => rfl
  rw [run_subscribeTo, run_subscribeTo, mode, mode, FlagRespected]
  cases list.mode with
  | stream => exact handleStream_onlySuppressed_iff timing list
  | once => exact handleOnce_onlySuppressed_iff _ _ list
  | poll => exact handlePoll_onlySuppressed_iff _ _ messages list
  | unrecognized number => exact ⟨fun _ => trivial, fun _ => ⟨rfl, rfl⟩⟩

/-! ## Two requests that show the flag going wrong -/

/-- A path that no provider owns. -/
def unownedList : SubscriptionList where
  subscription := [{ path := { elem := [⟨"interfaces".toList, .empty⟩] }, mode := .onChange }]

/-- With the flag a stream on a path that no provider owns is acknowledged instead of
refused, and a ONCE request still gets its initial notifications. -/
theorem updatesOnly_misses :
    ¬ (∀ list : SubscriptionList, list.mode = .stream ∨ list.mode = .once ∨ list.mode = .poll ->
        OnlySuppressed
          (Subscribe.run Server.registry (renameTiming beforeRename) []
            (subscribeTo (withUpdatesOnly list false)))
          (Subscribe.run Server.registry (renameTiming beforeRename) []
            (subscribeTo (withUpdatesOnly list true)))) ∧
      ¬ OnlySuppressed
        (handleStream Server.registry (renameTiming beforeRename) (withUpdatesOnly unownedList false))
        (handleStream Server.registry (renameTiming beforeRename) (withUpdatesOnly unownedList true)) ∧
      ¬ OnlySuppressed
        (handleOnce Server.registry (fun _ => beforeRename) (fun _ => 5)
          (withUpdatesOnly { hostnameList with mode := .once } false))
        (handleOnce Server.registry (fun _ => beforeRename) (fun _ => 5)
          (withUpdatesOnly { hostnameList with mode := .once } true)) := by
  have unowned : ¬ OnlySuppressed
      (handleStream Server.registry (renameTiming beforeRename) (withUpdatesOnly unownedList false))
      (handleStream Server.registry (renameTiming beforeRename) (withUpdatesOnly unownedList true)) := by
    rw [handleStream_onlySuppressed_iff]
    rintro (⟨sub, member, tooLong⟩ | buildable)
    · rw [List.mem_singleton.mp member] at tooLong
      exact absurd tooLong (by decide)
    · exact absurd (buildable.2 _ List.mem_cons_self) (by decide +kernel)
  refine ⟨fun every => ?_, unowned, ?_⟩
  · have claimed := every unownedList (Or.inl rfl)
    rw [run_subscribeTo, run_subscribeTo] at claimed
    exact unowned claimed
  · rw [handleOnce_onlySuppressed_iff, not_not]
    have hostname := (hostnameStream beforeRename_invariant).accepted.2
    exact ⟨hostname.1, hostname.2⟩

end Telemetry
end PscMockServer
