import PscMockServer.Foundations.Delimited
import PscMockServer.Telemetry.UpdatesOnly
import PscMockServer.Telemetry.CallSteps

namespace PscMockServer
namespace Telemetry

open Foundations Utils Backend Gnmi Gnmi.Subscribe

/-!
# What a client reads in one call

A client does not see which step of a handler wrote a response.  It reads
notifications and `sync_response` marks, and takes what stands before a mark as one
answer.  Every call, of any mode, can be read this way, and in one way only; a call
that is refused sends nothing.
-/

variable {σ : Type} {reg : DataProviderRegistry σ}

/-! ## Answers and what follows them -/

/-- Answers that a `sync_response` closes, and the notifications after the last one. -/
structure Conversation where
  answers : List (List Notification) := []
  changes : List Notification := []

/-- The responses of a conversation. -/
def Conversation.received (conversation : Conversation) : List SubscribeResponse :=
  terminated .syncResponse
    (conversation.answers.map (fun answer => answer.map SubscribeResponse.update))
    (conversation.changes.map SubscribeResponse.update)

theorem sync_notMem_updates (notes : List Notification) :
    SubscribeResponse.syncResponse ∉ notes.map SubscribeResponse.update := by
  intro member
  rcases List.mem_map.mp member with ⟨note, _, impossible⟩
  cases impossible

theorem updates_injective : Function.Injective (List.map SubscribeResponse.update) :=
  List.map_injective_iff.mpr (fun _ _ same => SubscribeResponse.update.inj same)

/-- A client can tell the answers from the responses alone. -/
theorem Conversation.received_injective : Function.Injective Conversation.received := by
  intro left right same
  have free : ∀ conversation : Conversation, DelimiterFree SubscribeResponse.syncResponse
      (conversation.answers.map (fun answer => answer.map SubscribeResponse.update)) := by
    intro conversation block member
    rcases List.mem_map.mp member with ⟨answer, _, rfl⟩
    exact sync_notMem_updates answer
  have parts := terminated_injective (free left) (free right) (sync_notMem_updates left.changes)
    (sync_notMem_updates right.changes) same
  have answers := List.map_injective_iff.mpr updates_injective parts.1
  have changes := updates_injective parts.2
  cases left
  cases right
  cases answers
  cases changes
  rfl

/-! ## Which calls are served, and with which answers -/

/-- The checks a list passes before the server writes anything. -/
def ListServed (reg : DataProviderRegistry σ) (list : SubscriptionList) : Prop :=
  match list.mode with
  | .stream => ¬ IntervalRefused list ∧ (list.updatesOnly = true ∨ Buildable reg list)
  | .once => Buildable reg list
  | .poll => Buildable reg list
  | .unrecognized _ => False

/-- The answer to each poll is built when the poll is read. -/
def pollAnswers (reg : DataProviderRegistry σ) (list : SubscriptionList)
    (messages : List (ClientMessage σ)) : List (List Notification) :=
  (answeredPolls messages).map
    (fun message => (buildSubscribeNotifications reg message.found message.clock list).2)

/-- The answers of a call that is served. -/
def answersOf (reg : DataProviderRegistry σ) (timing : StreamTiming σ)
    (messages : List (ClientMessage σ)) (list : SubscriptionList) : List (List Notification) :=
  let initial := (buildSubscribeNotifications reg timing.initialAt timing.initialClock list).2
  match list.mode with
  | .stream => [if list.updatesOnly then [] else initial]
  | .once => [initial]
  | .poll => initial :: pollAnswers reg list messages
  | .unrecognized _ => []

/-- A served call as its client reads it: the answers of its mode, none of them empty
unless the client asked for a stream of updates only; notifications after the last
answer only on a stream; and an error only where a poll client sends something else, or
where such a stream was never checked. -/
structure InForm (reg : DataProviderRegistry σ) (timing : StreamTiming σ)
    (messages : List (ClientMessage σ)) (list : SubscriptionList) (status : Status)
    (conversation : Conversation) : Prop where
  answers : conversation.answers = answersOf reg timing messages list
  nonempty : ¬ (list.mode = .stream ∧ list.updatesOnly = true) ->
    ∀ answer ∈ conversation.answers, answer ≠ []
  changes : list.mode ≠ .stream -> conversation.changes = []
  polled : list.mode = .poll -> status = clientEnd messages
  unpolled : list.mode ≠ .poll -> Buildable reg list -> status = Status.OK

/-! ## What the handlers write -/

theorem responses_writeAll (site : Site) (notes : List Notification) :
    (writeAll site notes).map Sent.response = notes.map SubscribeResponse.update := by
  rw [writeAll, List.map_map]
  rfl

/-- One answer: notifications and the mark behind them. -/
theorem received_cons (answer : List Notification) (conversation : Conversation) :
    Conversation.received { conversation with answers := answer :: conversation.answers } =
      (writeAll .build answer ++ syncResponse).map Sent.response ++ conversation.received := by
  rw [List.map_append, responses_writeAll]
  show terminated _ (_ :: _) _ = _
  rw [terminated_cons, List.append_assoc]
  rfl

/-- The polls of a pass write notifications only, and so do its samples. -/
theorem passWrites_updates (reg : DataProviderRegistry σ) (list : SubscriptionList)
    (passes : List (LoopPass σ)) (buckets : Buckets) :
    ∃ notes : List Notification,
      (passWrites reg list passes buckets).map Sent.response = notes.map SubscribeResponse.update := by
  have each : ∀ sent ∈ passWrites reg list passes buckets, ∃ note, sent.response = .update note := by
    induction passes generalizing buckets with
    | nil =>
        intro sent written
        cases written
    | cons pass rest inductionHypothesis =>
        intro sent written
        rw [passWrites, writesUpTo, List.append_assoc] at written
        rcases List.mem_append.mp written with sampled | written
        · rcases mem_writeAll sampled with ⟨note, _, rfl⟩
          exact ⟨note, rfl⟩
        · rcases List.mem_append.mp written with polled | later
          · rcases mem_pollWrites polled with ⟨_, _, _, note, _, rfl⟩
            exact ⟨note, rfl⟩
          · exact inductionHypothesis _ sent later
  generalize passWrites reg list passes buckets = written at each
  induction written with
  | nil => exact ⟨[], rfl⟩
  | cons sent rest inductionHypothesis =>
      rcases each sent List.mem_cons_self with ⟨note, update⟩
      rcases inductionHypothesis (fun other member => each other (List.mem_cons_of_mem sent member)) with
        ⟨notes, updates⟩
      exact ⟨note :: notes, by rw [List.map_cons, update, updates, List.map_cons]⟩

/-- The answers to polls follow what was written before. -/
theorem pollLoop_received {list : SubscriptionList} (buildable : Buildable reg list)
    (messages : List (ClientMessage σ)) (sent : List Sent) :
    (pollLoop reg list messages sent).2.map Sent.response =
      sent.map Sent.response ++ Conversation.received { answers := pollAnswers reg list messages } := by
  induction messages generalizing sent with
  | nil => exact (List.append_nil _).symm
  | cons message rest inductionHypothesis =>
      rw [pollLoop, pollAnswers, answeredPolls, List.takeWhile_cons]
      cases content : message.request.request with
      | poll =>
          dsimp only
          rw [(build_isOk_iff message.found message.clock list).mpr buildable, if_neg (by decide),
            inductionHypothesis, decide_eq_true rfl, if_pos rfl, List.append_assoc, List.map_append,
            List.append_assoc, List.map_cons]
          exact congrArg (sent.map Sent.response ++ ·)
            (received_cons _ { answers := pollAnswers reg list rest }).symm
      | subscribe again => exact (List.append_nil _).symm
      | notSet => exact (List.append_nil _).symm

/-! ## The three handlers -/

theorem handleOnce_inForm (timing : StreamTiming σ) (messages : List (ClientMessage σ))
    {list : SubscriptionList} (once : list.mode = .once) (buildable : Buildable reg list) :
    ∃ conversation : Conversation,
      responses (handleOnce reg timing.initialAt timing.initialClock list) = conversation.received ∧
        InForm reg timing messages list
          (handleOnce reg timing.initialAt timing.initialClock list).1 conversation := by
  have sends := Subscribe.build_sends timing.initialAt timing.initialClock buildable
  have answer : handleOnce reg timing.initialAt timing.initialClock list =
      (Status.OK, writeAll .build
        (buildSubscribeNotifications reg timing.initialAt timing.initialClock list).2 ++ syncResponse) := by
    unfold handleOnce
    dsimp only
    rw [(build_isOk_iff timing.initialAt timing.initialClock list).mpr buildable, if_neg (by decide)]
  refine ⟨{ answers := answersOf reg timing messages list }, ?_, rfl, ?_, fun _ => rfl, ?_, ?_⟩
  · rw [answer, responses, answersOf, once]
    exact ((received_cons _ {}).trans (List.append_nil _)).symm
  · intro _ notes member
    rw [answersOf, once] at member
    cases List.mem_singleton.mp member
    exact sends.2
  · intro poll
    rw [once] at poll
    cases poll
  · exact fun _ _ => congrArg Prod.fst answer

theorem handlePoll_inForm (timing : StreamTiming σ) (messages : List (ClientMessage σ))
    {list : SubscriptionList} (poll : list.mode = .poll) (buildable : Buildable reg list) :
    ∃ conversation : Conversation,
      responses (handlePoll reg timing.initialAt timing.initialClock messages list) =
          conversation.received ∧
        InForm reg timing messages list
          (handlePoll reg timing.initialAt timing.initialClock messages list).1 conversation := by
  have answer : handlePoll reg timing.initialAt timing.initialClock messages list =
      pollLoop reg list messages (writeAll .build
        (buildSubscribeNotifications reg timing.initialAt timing.initialClock list).2 ++ syncResponse) := by
    unfold handlePoll
    dsimp only
    rw [(build_isOk_iff timing.initialAt timing.initialClock list).mpr buildable, if_neg (by decide)]
  refine ⟨{ answers := answersOf reg timing messages list }, ?_, rfl, ?_, fun _ => rfl, ?_, ?_⟩
  · rw [answer, responses, pollLoop_received buildable, answersOf, poll]
    exact (received_cons _ { answers := pollAnswers reg list messages }).symm
  · intro _ notes member
    rw [answersOf, poll] at member
    rcases List.mem_cons.mp member with rfl | later
    · exact (Subscribe.build_sends timing.initialAt timing.initialClock buildable).2
    · rcases List.mem_map.mp later with ⟨message, _, rfl⟩
      exact (Subscribe.build_sends message.found message.clock buildable).2
  · exact fun _ => handlePoll_status timing.initialAt timing.initialClock buildable messages
  · exact fun other => absurd poll other

/-- The opening of a stream that passes its checks. -/
theorem handleStream_opening (timing : StreamTiming σ) {list : SubscriptionList}
    (intervals : ¬ IntervalRefused list) (checked : list.updatesOnly = true ∨ Buildable reg list) :
    handleStream reg { timing with passes := [] } list =
      (Status.OK, writeAll .build (if list.updatesOnly then []
        else (buildSubscribeNotifications reg timing.initialAt timing.initialClock list).2) ++
          syncResponse) := by
  rw [← intervalRefused_iff] at intervals
  unfold handleStream
  dsimp only
  rw [if_neg intervals]
  cases quiet : list.updatesOnly with
  | true => rfl
  | false =>
      have buildable : Buildable reg list := checked.resolve_left (quiet ▸ Bool.false_ne_true)
      rw [if_neg Bool.false_ne_true, if_neg Bool.false_ne_true,
        (build_isOk_iff timing.initialAt timing.initialClock list).mpr buildable, if_neg (by decide)]
      rfl

theorem handleStream_inForm (timing : StreamTiming σ) (messages : List (ClientMessage σ))
    {list : SubscriptionList} (stream : list.mode = .stream)
    (intervals : ¬ IntervalRefused list) (checked : list.updatesOnly = true ∨ Buildable reg list) :
    ∃ conversation : Conversation,
      responses (handleStream reg timing list) = conversation.received ∧
        InForm reg timing messages list (handleStream reg timing list).1 conversation := by
  have opening := handleStream_opening timing intervals checked
  rcases passWrites_updates reg list (reachedPasses reg timing list) (openingBuckets reg timing list) with
    ⟨notes, updates⟩
  refine ⟨{ answers := answersOf reg timing messages list, changes := notes }, ?_, rfl, ?_, ?_, ?_, ?_⟩
  · rw [responses, handleStream_reached, opening, List.map_append, updates, answersOf, stream]
    exact (received_cons _ { changes := notes }).symm
  · intro loud answer member
    rw [answersOf, stream] at member
    cases List.mem_singleton.mp member
    have announced : list.updatesOnly = false := Bool.eq_false_iff.mpr (fun quiet => loud ⟨stream, quiet⟩)
    rw [announced] at checked ⊢
    exact (Subscribe.build_sends timing.initialAt timing.initialClock
      (checked.resolve_left Bool.false_ne_true)).2
  · exact fun other => absurd stream other
  · intro poll
    rw [stream] at poll
    cases poll
  · intro _ buildable
    have loud : (handleStream reg timing (withUpdatesOnly list false)).1 = Status.OK := by
      rw [handleStream_of_accepted timing (accepted_withUpdatesOnly intervals buildable false) rfl]
    have suppressed := (handleStream_onlySuppressed_iff timing list).mpr (Or.inr buildable)
    show (handleStream reg timing (withUpdatesOnly list list.updatesOnly)).1 = Status.OK
    cases list.updatesOnly with
    | true => exact suppressed.1.trans loud
    | false => exact loud

/-! ## The whole RPC -/

/-- The request opens a subscription to this list. -/
def Opens (reg : DataProviderRegistry σ) (request : SubscribeRequest) (list : SubscriptionList) : Prop :=
  request.extensionSize = 0 ∧ request.request = .subscribe list ∧ ListServed reg list

theorem eq_subscribeTo {request : SubscribeRequest} {list : SubscriptionList}
    (plain : request.extensionSize = 0) (content : request.request = .subscribe list) :
    request = subscribeTo list := by
  cases request
  cases content
  cases plain
  rfl

theorem build_refuses (found : Nat -> σ) (clock : Nat -> Int) {list : SubscriptionList}
    (refused : ¬ Buildable reg list) :
    (buildSubscribeNotifications reg found clock list).1.isOk = false :=
  Bool.eq_false_iff.mpr (fun built => refused ((build_isOk_iff found clock list).mp built))

/-- A list that fails a check is refused without a message, in every mode. -/
theorem run_refused (timing : StreamTiming σ) (messages : List (ClientMessage σ))
    {list : SubscriptionList} (refused : ¬ ListServed reg list) :
    (Subscribe.run reg timing messages (subscribeTo list)).1.isOk = false ∧
      (Subscribe.run reg timing messages (subscribeTo list)).2 = [] := by
  rw [run_subscribeTo]
  unfold ListServed at refused
  cases mode : list.mode with
  | stream =>
      rw [mode] at refused
      dsimp only at refused ⊢
      unfold handleStream
      by_cases intervals : IntervalRefused list
      · rw [if_pos ((intervalRefused_iff list).mpr intervals)]
        exact ⟨rfl, rfl⟩
      · have failed := not_or.mp (fun checked => refused ⟨intervals, checked⟩)
        rw [if_neg ((intervalRefused_iff list).not.mpr intervals), Bool.eq_false_iff.mpr failed.1]
        dsimp only
        rw [if_neg Bool.false_ne_true, build_refuses _ _ failed.2]
        exact ⟨build_refuses _ _ failed.2, rfl⟩
  | once =>
      rw [mode] at refused
      dsimp only at refused ⊢
      unfold handleOnce
      dsimp only
      rw [build_refuses _ _ refused]
      exact ⟨build_refuses _ _ refused, rfl⟩
  | poll =>
      rw [mode] at refused
      dsimp only at refused ⊢
      unfold handlePoll
      dsimp only
      rw [build_refuses _ _ refused]
      exact ⟨build_refuses _ _ refused, rfl⟩
  | unrecognized number => exact ⟨rfl, rfl⟩

theorem run_served (timing : StreamTiming σ) (messages : List (ClientMessage σ))
    {list : SubscriptionList} (served : ListServed reg list) :
    ∃ conversation : Conversation,
      responses (Subscribe.run reg timing messages (subscribeTo list)) = conversation.received ∧
        InForm reg timing messages list
          (Subscribe.run reg timing messages (subscribeTo list)).1 conversation := by
  rw [run_subscribeTo]
  unfold ListServed at served
  cases mode : list.mode with
  | stream =>
      rw [mode] at served
      exact handleStream_inForm timing messages mode served.1 served.2
  | once =>
      rw [mode] at served
      exact handleOnce_inForm timing messages mode served
  | poll =>
      rw [mode] at served
      exact handlePoll_inForm timing messages mode served
  | unrecognized number =>
      rw [mode] at served
      exact served.elim

/-- A first message that opens no subscription is an error and gets nothing. -/
theorem run_unopened (timing : StreamTiming σ) (messages : List (ClientMessage σ))
    {request : SubscribeRequest} (unopened : ∀ list, ¬ Opens reg request list) :
    (Subscribe.run reg timing messages request).1.isOk = false ∧
      (Subscribe.run reg timing messages request).2 = [] := by
  by_cases extended : 0 < request.extensionSize
  · rw [Subscribe.run, if_pos extended]
    exact ⟨rfl, rfl⟩
  · have plain : request.extensionSize = 0 := Nat.eq_zero_of_not_pos extended
    cases content : request.request with
    | notSet =>
        rw [Subscribe.run, if_neg extended, content]
        exact ⟨rfl, rfl⟩
    | poll =>
        rw [Subscribe.run, if_neg extended, content]
        exact ⟨rfl, rfl⟩
    | subscribe list =>
        rw [eq_subscribeTo plain content]
        exact run_refused timing messages (fun served => unopened list ⟨plain, content, served⟩)

end Telemetry
end PscMockServer
