import PscMockServer.Gnmi.Observations
import PscMockServer.Telemetry.StreamBuckets

namespace PscMockServer
namespace Telemetry

open Foundations Gnmi Utils Backend Gnmi.Subscribe

/-!
# The steps of a Subscribe call

What a call writes, it writes in steps: builds of the whole list, sync responses, and in each
pass of a stream one batch of samples and the polls of the ON_CHANGE entries.  Every response
belongs to one step, and what a step writes is said by the step alone.
-/

variable {σ : Type} {reg : DataProviderRegistry σ}

/-- A step that writes.  Samples and polls come in a pass, after the passes `front`; the poll
is that of ON_CHANGE entry `j`, which is subscription number `i`. -/
inductive Step (σ : Type) where
  | build (found : Nat -> σ) (clock : Nat -> Int)
  | sync
  | sample (front : List (LoopPass σ)) (pass : LoopPass σ)
  | poll (front : List (LoopPass σ)) (pass : LoopPass σ) (j i : Nat) (sub : Subscription)

namespace Step

def site : Step σ -> Site
  | .build _ _ => .build
  | .sync => .sync
  | .sample _ _ => .sample
  | .poll _ _ j _ _ => .onChange j

/-- The notifications of a step.  A batch of samples has those subscriptions for which more
than their interval has passed. -/
def notes (reg : DataProviderRegistry σ) (timing : StreamTiming σ) (list : SubscriptionList) :
    Step σ -> List Notification
  | .build found clock => (buildSubscribeNotifications reg found clock list).2
  | .sync => []
  | .sample front pass =>
      let due := sampledAfter (sampleEntries reg timing list) front pass
      if due = [] then []
      else (buildSubscribeNotifications reg pass.sampleAt pass.sampleClock (withSubscriptions list due)).2
  | .poll front pass j i sub => pollNotes reg timing sub i j front pass

/-- The responses of a step. -/
def writes (reg : DataProviderRegistry σ) (timing : StreamTiming σ) (list : SubscriptionList)
    (step : Step σ) : List Sent :=
  match step with
  | .sync => syncResponse
  | _ => writeAll step.site (step.notes reg timing list)

theorem writes_of_ne_sync (timing : StreamTiming σ) (list : SubscriptionList) {step : Step σ}
    (noSync : step ≠ .sync) : step.writes reg timing list = writeAll step.site (step.notes reg timing list) := by
  cases step with
  | sync => exact absurd rfl noSync
  | build found clock => rfl
  | sample front pass => rfl
  | poll front pass j i sub => rfl

/-- A notification among the responses of a step is one of its notifications, and comes from
its site. -/
theorem of_mem_writes {timing : StreamTiming σ} {list : SubscriptionList} {step : Step σ} {sent : Sent}
    (written : sent ∈ step.writes reg timing list) {n : Notification} (isUpdate : sent.response = .update n) :
    n ∈ step.notes reg timing list ∧ sent.site = step.site := by
  by_cases isSync : step = .sync
  · rw [isSync] at written
    rw [List.mem_singleton.mp written] at isUpdate
    cases isUpdate
  · rw [writes_of_ne_sync timing list isSync] at written
    rcases mem_writeAll written with ⟨note, emitted, rfl⟩
    cases isUpdate
    exact ⟨emitted, rfl⟩

end Step

/-! ## The steps of each mode -/

/-- The steps of a pass of a stream with these ON_CHANGE entries. -/
def passSteps (entries : List (Subscription × Nat)) (front : List (LoopPass σ)) (pass : LoopPass σ) :
    List (Step σ) :=
  .sample front pass :: entries.mapIdx (fun j sub => .poll front pass j sub.2 sub.1)

/-- The steps of the passes that come after `front`. -/
def loopSteps (entries : List (Subscription × Nat)) : List (LoopPass σ) -> List (LoopPass σ) -> List (Step σ)
  | _, [] => []
  | front, pass :: rest => passSteps entries front pass ++ loopSteps entries (front ++ [pass]) rest

/-- The steps before the first pass. -/
def openingSteps (timing : StreamTiming σ) (list : SubscriptionList) : List (Step σ) :=
  (if list.updatesOnly then [] else [.build timing.initialAt timing.initialClock]) ++ [.sync]

/-- The further messages of a POLL call that are answered: those before the first one
that is no poll. -/
def answeredPolls (messages : List (ClientMessage σ)) : List (ClientMessage σ) :=
  messages.takeWhile (fun message => decide (message.request.request = .poll))

/-- The build of each message, with the mark behind it. -/
def answerSteps (messages : List (ClientMessage σ)) : List (Step σ) :=
  messages.flatMap (fun message => [.build message.found message.clock, .sync])

/-- The steps of a served call with these ON_CHANGE entries, of whose passes so many reach
their polls. -/
def servedSteps (entries : List (Subscription × Nat)) (reached : Nat) (timing : StreamTiming σ)
    (messages : List (ClientMessage σ)) (list : SubscriptionList) : List (Step σ) :=
  match list.mode with
  | .stream => openingSteps timing list ++ loopSteps entries [] (timing.passes.take reached)
  | .once => [.build timing.initialAt timing.initialClock, .sync]
  | .poll => [.build timing.initialAt timing.initialClock, .sync] ++ answerSteps (answeredPolls messages)
  | .unrecognized _ => []

/-- The call passes the checks it makes before it sends anything. -/
def served (reg : DataProviderRegistry σ) (timing : StreamTiming σ) (request : SubscribeRequest)
    (list : SubscriptionList) : Bool :=
  let opened := match list.mode with
    | .stream => (handleStream reg { timing with passes := [] } list).1
    | _ => (buildSubscribeNotifications reg timing.initialAt timing.initialClock list).1
  decide (request.extensionSize = 0) && opened.isOk

/-- The steps of a call whose first message is the request for the list. -/
def callSteps (reg : DataProviderRegistry σ) (timing : StreamTiming σ) (messages : List (ClientMessage σ))
    (request : SubscribeRequest) (list : SubscriptionList) : List (Step σ) :=
  if served reg timing request list then
    servedSteps (onChangeSubs reg list) (reachedPasses reg timing list).length timing messages list
  else []

theorem take_reachedPasses (timing : StreamTiming σ) (list : SubscriptionList) :
    timing.passes.take (reachedPasses reg timing list).length = reachedPasses reg timing list :=
  (List.prefix_iff_eq_take.mp (reachedPasses_front timing list)).symm

/-! ## The steps write what the call writes -/

theorem pollWrites_after (timing : StreamTiming σ) (list : SubscriptionList) (front : List (LoopPass σ))
    (pass : LoopPass σ) (polled : Nat) :
    pollWrites reg pass ((bucketsAfter reg front (openingBuckets reg timing list)).onChange.take polled) =
      (((onChangeSubs reg list).take polled).mapIdx
        (fun j sub => (Step.poll front pass j sub.2 sub.1).writes reg timing list)).flatten := by
  have taken : (bucketsAfter reg front (openingBuckets reg timing list)).onChange.take polled =
      ((onChangeSubs reg list).take polled).mapIdx
        (fun j sub => entryAt reg timing sub.1 sub.2 j front) := by
    apply List.ext_getElem?
    intro j
    rw [onChange_after, List.getElem?_take, List.getElem?_mapIdx, List.getElem?_mapIdx, List.getElem?_take]
    split
    · rfl
    · rfl
  rw [pollWrites, taken, List.mapIdx_mapIdx]
  refine congrArg List.flatten (congrArg (fun step => List.mapIdx step _) ?_)
  funext j sub
  simp only [Function.comp_apply, pollEntry_entryAt]
  rfl

theorem sampleWrites_after (timing : StreamTiming σ) {list : SubscriptionList}
    (bounded : ∀ sub ∈ list.subscription, sub.sampleInterval.toNat ≤ maxInterval)
    (front : List (LoopPass σ)) (pass : LoopPass σ) :
    writeAll .sample (runSample reg list pass
        (bucketsAfter reg front (openingBuckets reg timing list)).chronomap).2 =
      (Step.sample front pass).writes reg timing list := by
  refine congrArg (writeAll .sample) ?_
  rw [Step.notes, runSample, dueSubscriptions_after timing bounded]
  by_cases none_ : sampledAfter (sampleEntries reg timing list) front pass = []
  · rw [none_, if_pos rfl]
    rfl
  · rw [if_neg none_, if_neg (fun empty => none_ (List.isEmpty_iff.mp empty))]
    rfl

/-- A pass, up to its polls of the first entries. -/
theorem writesUpTo_after (timing : StreamTiming σ) {list : SubscriptionList}
    (bounded : ∀ sub ∈ list.subscription, sub.sampleInterval.toNat ≤ maxInterval)
    (front : List (LoopPass σ)) (pass : LoopPass σ) (polled : Nat) :
    writesUpTo reg list pass (bucketsAfter reg front (openingBuckets reg timing list)) polled =
      ((passSteps (onChangeSubs reg list) front pass).take (polled + 1)).flatMap
        (Step.writes reg timing list) := by
  rw [writesUpTo, sampleWrites_after timing bounded, pollWrites_after, passSteps, List.take_succ_cons,
    List.flatMap_cons, List.flatMap_def]
  refine congrArg (fun blocks => _ ++ List.flatten blocks) ?_
  apply List.ext_getElem?
  intro j
  rw [List.getElem?_mapIdx, List.getElem?_take, List.getElem?_map, List.getElem?_take, List.getElem?_mapIdx]
  by_cases within : j < polled
  · rw [if_pos within, if_pos within, Option.map_map]
    rfl
  · rw [if_neg within, if_neg within]
    rfl

theorem passWrites_after (timing : StreamTiming σ) {list : SubscriptionList}
    (bounded : ∀ sub ∈ list.subscription, sub.sampleInterval.toNat ≤ maxInterval)
    (passes front : List (LoopPass σ)) :
    passWrites reg list passes (bucketsAfter reg front (openingBuckets reg timing list)) =
      (loopSteps (onChangeSubs reg list) front passes).flatMap (Step.writes reg timing list) := by
  induction passes generalizing front with
  | nil => rfl
  | cons pass rest inductionHypothesis =>
      have entries : (bucketsAfter reg front (openingBuckets reg timing list)).onChange.length + 1 =
          (passSteps (onChangeSubs reg list) front pass).length := by
        rw [onChange_after, List.length_mapIdx, passSteps, List.length_cons, List.length_mapIdx]
      have next : nextBuckets reg (bucketsAfter reg front (openingBuckets reg timing list)) pass =
          bucketsAfter reg (front ++ [pass]) (openingBuckets reg timing list) :=
        (runSteps_snoc _ _ _ _).symm
      rw [passWrites, writesUpTo_after timing bounded, entries, List.take_length, next, inductionHypothesis,
        loopSteps, List.flatMap_append]

/-- A stream without passes writes its opening, or is refused and writes nothing. -/
theorem handleStream_openingSteps (timing : StreamTiming σ) (list : SubscriptionList) :
    (handleStream reg { timing with passes := [] } list).2 =
      if (handleStream reg { timing with passes := [] } list).1.isOk then
        (openingSteps timing list).flatMap (Step.writes reg timing list) else [] := by
  split
  · next open_ =>
      rw [(handleStream_of_isOk open_).2, openingSteps, initialBuild]
      cases list.updatesOnly with
      | true => rfl
      | false => rfl
  · next refused =>
      by_cases bounded : ∀ sub ∈ list.subscription, sub.sampleInterval.toNat ≤ maxInterval
      · rw [handleStream_of_bounded _ bounded] at refused ⊢
        split at refused
        · exact absurd rfl refused
        · next unbuilt => rw [if_neg unbuilt]
      · have large : (list.subscription.any (fun sub => decide (maxInterval < sub.sampleInterval.toNat))) =
            true := by
          by_contra none_
          refine bounded (fun sub listed => ?_)
          by_contra tooLong
          exact none_ (List.any_eq_true.mpr ⟨sub, listed, decide_eq_true (Nat.lt_of_not_le tooLong)⟩)
        rw [handleStream, if_pos large]

theorem handleStream_steps (timing : StreamTiming σ) (list : SubscriptionList) :
    (handleStream reg timing list).2 =
      if (handleStream reg { timing with passes := [] } list).1.isOk then
        (openingSteps timing list ++ loopSteps (onChangeSubs reg list) []
          (reachedPasses reg timing list)).flatMap (Step.writes reg timing list)
      else [] := by
  rw [handleStream_reached, handleStream_openingSteps]
  split
  · next open_ =>
      have passes : passWrites reg list (reachedPasses reg timing list) (openingBuckets reg timing list) = _ :=
        passWrites_after timing (bounded_of_isOk open_) (reachedPasses reg timing list) []
      rw [List.flatMap_append, passes]
  · next refused =>
      rw [reachedPasses, if_neg refused]
      rfl

theorem pollLoop_steps (timing : StreamTiming σ) {list : SubscriptionList} (buildable : Buildable reg list)
    (messages : List (ClientMessage σ)) (sent : List Sent) :
    (pollLoop reg list messages sent).2 =
      sent ++ (answerSteps (answeredPolls messages)).flatMap (Step.writes reg timing list) := by
  induction messages generalizing sent with
  | nil => exact (List.append_nil sent).symm
  | cons message rest inductionHypothesis =>
      rw [pollLoop, answeredPolls, List.takeWhile_cons]
      cases content : message.request.request with
      | poll =>
          dsimp only
          rw [(build_isOk_iff message.found message.clock list).mpr buildable, if_neg (by decide),
            inductionHypothesis, decide_eq_true rfl, if_pos rfl, List.append_assoc, List.append_assoc]
          rfl
      | subscribe again => exact (List.append_nil sent).symm
      | notSet => exact (List.append_nil sent).symm

/-- A call writes what its steps write, one after the other. -/
theorem run_steps (timing : StreamTiming σ) (messages : List (ClientMessage σ)) {request : SubscribeRequest}
    {list : SubscriptionList} (isList : request.request = .subscribe list) :
    (Gnmi.Subscribe.run reg timing messages request).2 =
      (callSteps reg timing messages request list).flatMap (Step.writes reg timing list) := by
  unfold Gnmi.Subscribe.run callSteps served
  split
  · next extended =>
      rw [decide_eq_false (by omega), Bool.false_and, if_neg Bool.false_ne_true]
      rfl
  · next plain =>
      have noExtension : request.extensionSize = 0 := by omega
      rw [isList, decide_eq_true noExtension, Bool.true_and]
      unfold servedSteps
      dsimp only
      cases mode : list.mode with
      | stream =>
          dsimp only
          rw [handleStream_steps, take_reachedPasses]
          split
          · rfl
          · rfl
      | unrecognized number =>
          dsimp only
          split
          · rfl
          · rfl
      | once =>
          dsimp only
          unfold handleOnce
          dsimp only
          cases built : (buildSubscribeNotifications reg timing.initialAt timing.initialClock list).1.isOk with
          | false => rfl
          | true => rfl
      | poll =>
          dsimp only
          unfold handlePoll
          dsimp only
          cases built : (buildSubscribeNotifications reg timing.initialAt timing.initialClock list).1.isOk with
          | false => rfl
          | true =>
              rw [Bool.not_true, if_neg Bool.false_ne_true, if_pos rfl,
                pollLoop_steps timing ((build_isOk_iff _ _ list).mp built), List.flatMap_append]
              rfl

/-- Where the steps of some passes come from. -/
theorem mem_loopSteps {entries : List (Subscription × Nat)} {front passes : List (LoopPass σ)} {step : Step σ}
    (listed : step ∈ loopSteps entries front passes) :
    ∃ before pass, before ++ [pass] <+: passes ∧ step ∈ passSteps entries (front ++ before) pass := by
  induction passes generalizing front with
  | nil => cases listed
  | cons pass rest inductionHypothesis =>
      rcases List.mem_append.mp listed with here | later
      · exact ⟨[], pass, List.prefix_append [pass] rest, by rw [List.append_nil]; exact here⟩
      · rcases inductionHypothesis later with ⟨before, other, isFront, found⟩
        refine ⟨pass :: before, other, List.cons_prefix_cons.mpr ⟨rfl, isFront⟩, ?_⟩
        rw [List.append_assoc] at found
        exact found

theorem mem_passSteps {entries : List (Subscription × Nat)} {front : List (LoopPass σ)}
    {pass : LoopPass σ} {step : Step σ}
    (listed : step ∈ passSteps entries front pass) :
    step = .sample front pass ∨ ∃ j i sub, entries[j]? = some (sub, i) ∧
      step = .poll front pass j i sub := by
  rcases List.mem_cons.mp listed with isSample | polled
  · exact Or.inl isSample
  · rcases List.mem_mapIdx.mp polled with ⟨j, inside, rfl⟩
    exact Or.inr ⟨j, _, _, List.getElem?_eq_getElem inside, rfl⟩

/-- What a step of a call can be. -/
inductive Known (reg : DataProviderRegistry σ) (timing : StreamTiming σ) (messages : List (ClientMessage σ))
    (list : SubscriptionList) : Step σ -> Prop
  | initial (buildable : Buildable reg list) :
      Known reg timing messages list (.build timing.initialAt timing.initialClock)
  | answer (message : ClientMessage σ) (listed : message ∈ messages) (buildable : Buildable reg list) :
      Known reg timing messages list (.build message.found message.clock)
  | sync : Known reg timing messages list .sync
  | sample (front : List (LoopPass σ)) (pass : LoopPass σ)
      (isFront : front ++ [pass] <+: reachedPasses reg timing list) :
      Known reg timing messages list (.sample front pass)
  | poll (front : List (LoopPass σ)) (pass : LoopPass σ) (j i : Nat) (sub : Subscription)
      (isFront : front ++ [pass] <+: reachedPasses reg timing list)
      (entry : (onChangeSubs reg list)[j]? = some (sub, i)) :
      Known reg timing messages list (.poll front pass j i sub)

theorem known_of_stream {timing : StreamTiming σ} (messages : List (ClientMessage σ)) {list : SubscriptionList}
    (open_ : (handleStream reg { timing with passes := [] } list).1.isOk = true) {step : Step σ}
    (listed : step ∈ openingSteps timing list ++
      loopSteps (onChangeSubs reg list) [] (reachedPasses reg timing list)) :
    Known reg timing messages list step := by
  rcases List.mem_append.mp listed with early | late
  · rcases List.mem_append.mp early with built | isSync
    · split at built
      · cases built
      · next initialEmit =>
          rw [List.mem_singleton.mp built]
          have started := (handleStream_of_isOk open_).1
          rw [initialBuild, if_neg initialEmit] at started
          exact Known.initial ((build_isOk_iff _ _ list).mp started)
    · rw [List.mem_singleton.mp isSync]
      exact Known.sync
  · rcases mem_loopSteps late with ⟨front, pass, isFront, here⟩
    rcases mem_passSteps here with rfl | ⟨j, i, sub, entry, rfl⟩
    · exact Known.sample front pass isFront
    · exact Known.poll front pass j i sub isFront entry

theorem known_of_mem {timing : StreamTiming σ} {messages : List (ClientMessage σ)} {request : SubscribeRequest}
    {list : SubscriptionList} {step : Step σ} (listed : step ∈ callSteps reg timing messages request list) :
    Known reg timing messages list step := by
  have answered : (buildSubscribeNotifications reg timing.initialAt timing.initialClock list).1.isOk = true ->
      step ∈ [.build timing.initialAt timing.initialClock, .sync] ++ answerSteps (answeredPolls messages) ->
        Known reg timing messages list step := by
    intro built member
    have buildable := (build_isOk_iff _ _ list).mp built
    rcases List.mem_append.mp member with first | further
    · rcases List.mem_cons.mp first with rfl | isSync
      · exact Known.initial buildable
      · rw [List.mem_singleton.mp isSync]
        exact Known.sync
    · rcases List.mem_flatMap.mp further with ⟨message, polled, member⟩
      rcases List.mem_cons.mp member with rfl | isSync
      · exact Known.answer message ((List.takeWhile_prefix _).subset polled) buildable
      · rw [List.mem_singleton.mp isSync]
        exact Known.sync
  unfold callSteps at listed
  split at listed
  · next isServed =>
      rw [served, Bool.and_eq_true] at isServed
      have opened := isServed.2
      unfold servedSteps at listed
      cases mode : list.mode with
      | stream =>
          rw [mode] at listed opened
          dsimp only at listed opened
          rw [take_reachedPasses] at listed
          exact known_of_stream messages opened listed
      | once =>
          rw [mode] at listed opened
          exact answered opened (List.mem_append_left _ listed)
      | poll =>
          rw [mode] at listed opened
          exact answered opened listed
      | unrecognized number =>
          rw [mode] at listed
          cases listed
  · cases listed

/-! ## Steps at moments -/

section Moments

variable {μ : Type} (found : μ -> σ)

/-- A step at moments, as one server finds them. -/
def Step.map : Step μ -> Step σ
  | .build looks clock => .build (fun i => found (looks i)) clock
  | .sync => .sync
  | .sample front pass => .sample (front.map (LoopPass.map found)) (pass.map found)
  | .poll front pass j i sub => .poll (front.map (LoopPass.map found)) (pass.map found) j i sub

theorem Step.map_site (step : Step μ) : (step.map found).site = step.site := by
  cases step with
  | build looks clock => rfl
  | sync => rfl
  | sample front pass => rfl
  | poll front pass j i sub => rfl

/-- The steps of a call whose looks come at moments. -/
def momentSteps (reg : DataProviderRegistry σ) (timing : StreamTiming μ) (messages : List (ClientMessage μ))
    (request : SubscribeRequest) (list : SubscriptionList) : List (Step μ) :=
  if served reg (timing.map found) request list then
    servedSteps (onChangeSubs reg list) (reachedPasses reg (timing.map found) list).length timing messages list
  else []

theorem passSteps_map (entries : List (Subscription × Nat)) (front : List (LoopPass μ)) (pass : LoopPass μ) :
    (passSteps entries front pass).map (Step.map found) =
      passSteps entries (front.map (LoopPass.map found)) (pass.map found) := by
  rw [passSteps, List.map_cons, passSteps]
  refine congrArg (List.cons _) (List.ext_getElem? fun j => ?_)
  rw [List.getElem?_map, List.getElem?_mapIdx, List.getElem?_mapIdx, Option.map_map]
  rfl

theorem loopSteps_map (entries : List (Subscription × Nat)) (front passes : List (LoopPass μ)) :
    (loopSteps entries front passes).map (Step.map found) =
      loopSteps entries (front.map (LoopPass.map found)) (passes.map (LoopPass.map found)) := by
  induction passes generalizing front with
  | nil => rfl
  | cons pass rest inductionHypothesis =>
      rw [loopSteps, List.map_append, inductionHypothesis, passSteps_map, List.map_append]
      rfl

theorem answerSteps_map (messages : List (ClientMessage μ)) :
    (answerSteps (answeredPolls messages)).map (Step.map found) =
      answerSteps (answeredPolls (messages.map (ClientMessage.map found))) := by
  induction messages with
  | nil => rfl
  | cons message rest inductionHypothesis =>
      rw [List.map_cons, answeredPolls, answeredPolls, List.takeWhile_cons, List.takeWhile_cons]
      have same : (message.map found).request = message.request := rfl
      rw [same]
      split
      · exact congrArg (fun steps => _ :: _ :: steps) inductionHypothesis
      · rfl

/-- They are the steps of the call. -/
theorem momentSteps_map (timing : StreamTiming μ) (messages : List (ClientMessage μ))
    (request : SubscribeRequest) (list : SubscriptionList) :
    (momentSteps found reg timing messages request list).map (Step.map found) =
      callSteps reg (timing.map found) (messages.map (ClientMessage.map found)) request list := by
  rw [momentSteps, callSteps]
  split
  · rw [servedSteps, servedSteps]
    have opening : (openingSteps timing list).map (Step.map found) = openingSteps (timing.map found) list := by
      rw [openingSteps, openingSteps]
      split
      · rfl
      · rfl
    cases list.mode with
    | stream =>
        dsimp only
        rw [List.map_append, opening, loopSteps_map, List.map_take]
        rfl
    | once => rfl
    | poll =>
        dsimp only
        rw [List.map_append, answerSteps_map]
        rfl
    | unrecognized number => rfl
  · rfl

/-- A call writes what its steps write. -/
theorem run_momentSteps (timing : StreamTiming μ) (messages : List (ClientMessage μ)) {request : SubscribeRequest}
    {list : SubscriptionList} (isList : request.request = .subscribe list) :
    (Gnmi.Subscribe.run reg (timing.map found) (messages.map (ClientMessage.map found)) request).2 =
      (momentSteps found reg timing messages request list).flatMap
        (fun step => (step.map found).writes reg (timing.map found) list) := by
  rw [run_steps _ _ isList, ← momentSteps_map, List.flatMap_map]

/-- The passes of a poll of the call are the first ones of its stream. -/
theorem front_of_moment {timing : StreamTiming μ} {messages : List (ClientMessage μ)} {request : SubscribeRequest}
    {list : SubscriptionList} {front : List (LoopPass μ)} {pass : LoopPass μ} {j i : Nat} {sub : Subscription}
    (listed : .poll front pass j i sub ∈ momentSteps found reg timing messages request list) :
    front ++ [pass] <+: timing.passes := by
  have noAnswer : ∀ looks clock, Step.poll front pass j i sub ∉ ([.build looks clock, .sync] : List (Step μ)) := by
    intro looks clock member
    rcases List.mem_pair.mp member with impossible | impossible
    · cases impossible
    · cases impossible
  unfold momentSteps servedSteps at listed
  split at listed
  · split at listed
    · rcases List.mem_append.mp listed with early | late
      · unfold openingSteps at early
        split at early
        · cases List.mem_singleton.mp early
        · exact absurd early (noAnswer _ _)
      · rcases mem_loopSteps late with ⟨before, other, isFront, here⟩
        rcases mem_passSteps here with impossible | ⟨_, _, _, _, same⟩
        · cases impossible
        · cases same
          exact isFront.trans (List.take_prefix _ _)
    · exact absurd listed (noAnswer _ _)
    · rcases List.mem_append.mp listed with first | further
      · exact absurd first (noAnswer _ _)
      · rcases List.mem_flatMap.mp further with ⟨message, _, member⟩
        exact absurd member (noAnswer _ _)
    · cases listed
  · cases listed

theorem sampledAfter_map (entries : List (Subscription × Int)) (front : List (LoopPass μ)) (pass : LoopPass μ) :
    sampledAfter entries (front.map (LoopPass.map found)) (pass.map found) = sampledAfter entries front pass := by
  have polls : ∀ j, samplePolls j (front.map (LoopPass.map found)) = samplePolls j front := by
    intro j
    rw [samplePolls, List.map_map]
    rfl
  rw [sampledAfter, sampledAfter]
  simp only [polls]
  rfl

theorem beatDue_map (interval : UInt64) (setup : Int) (j : Nat) (front : List (LoopPass μ)) (pass : LoopPass μ) :
    beatDue interval setup j (front.map (LoopPass.map found)) (pass.map found) =
      beatDue interval setup j front pass := by
  rw [beatDue, pollReadings, List.map_map]
  rfl

theorem stateBefore_map (timing : StreamTiming μ) (i j : Nat) (front : List (LoopPass μ)) :
    stateBefore (timing.map found) i j (front.map (LoopPass.map found)) =
      found (stateBefore timing i j front) := by
  rw [stateBefore, stateBefore, List.getLast?_map]
  cases front.getLast? with
  | none => rfl
  | some last => rfl

end Moments

end Telemetry
end PscMockServer
