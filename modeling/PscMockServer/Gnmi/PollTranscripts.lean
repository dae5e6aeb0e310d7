import PscMockServer.Gnmi.PollSteps

namespace PscMockServer
namespace Gnmi
namespace Subscribe

open Foundations Utils Backend

/-!
# The transcript of a POLL call

Whatever is committed in between, a call answers the messages it reads one after another:
each with one snapshot for every subscription and then the notifications and the sync.  A
call that has ended is `handlePoll` at the moments of its log.
-/

variable {σ : Type}

/-! ## Rounds -/

/-- A message that is answered, with the moments of its answer. -/
structure PollRound (σ : Type) where
  request : SubscribeRequest
  found : Nat -> σ
  clock : Nat -> Int

/-- The snapshots of a build. -/
def snapshotEvents (found : Nat -> σ) (subs : List Subscription) : List (PollEvent σ) :=
  subs.mapIdx (fun i sub => .snapshot sub (found i))

namespace PollRound

def responses (reg : DataProviderRegistry σ) (list : SubscriptionList) (round : PollRound σ) :
    List SubscribeResponse :=
  (buildSubscribeNotifications reg round.found round.clock list).2.map .update ++ [.syncResponse]

/-- The message is read, one snapshot is taken for every subscription, and the responses
are written. -/
def events (reg : DataProviderRegistry σ) (list : SubscriptionList) (round : PollRound σ) :
    List (PollEvent σ) :=
  .read round.request :: (snapshotEvents round.found list.subscription ++
    (round.responses reg list).map .write)

end PollRound

/-- How a call ends on the messages it does not answer. -/
def endStatus : List SubscribeRequest -> Status
  | [] => Status.OK
  | request :: _ =>
      match request.request with
      | .subscribe _ =>
          ⟨.invalidArgument, "A SubscriptionList has already been received for this RPC".toList⟩
      | _ => ⟨.invalidArgument, "Unknown content for SubscribeRequest message".toList⟩

/-- The call ended with this status, and its log is that of its rounds: the first answers
the subscription, one more answers each poll, and the message behind them, if there is one,
is read and ends the call. -/
structure Transcript (reg : DataProviderRegistry σ) (list : SubscriptionList)
    (messages : List SubscribeRequest) (log : List (PollEvent σ)) (status : Status)
    (first : PollRound σ) (polls : List (PollRound σ)) (rest : List SubscribeRequest) : Prop where
  opened : first.request = { request := .subscribe list }
  messages : messages = polls.map PollRound.request ++ rest
  polled : ∀ round ∈ polls, round.request.request = .poll
  stops : ∀ request ∈ rest.head?, request.request ≠ .poll
  order : serverLog log =
    (first :: polls).flatMap (PollRound.events reg list) ++ (rest.take 1).map .read
  status : status = endStatus rest

/-! ## What the handler has done so far -/

theorem snapshotEvents_congr {found other : Nat -> σ} {subs : List Subscription}
    (same : ∀ i, i < subs.length -> found i = other i) :
    snapshotEvents found subs = snapshotEvents other subs := by
  unfold snapshotEvents
  rw [List.mapIdx_eq_mapIdx_iff]
  exact fun i inside => congrArg (PollEvent.snapshot _) (same i inside)

theorem snapshotEvents_snoc (found : Nat -> σ) (subs : List Subscription) (sub : Subscription) :
    snapshotEvents found (subs ++ [sub]) =
      snapshotEvents found subs ++ [.snapshot sub (found subs.length)] :=
  List.mapIdx_concat

theorem mergedReads_congr {reg : DataProviderRegistry σ} {found other : Nat -> σ} {subs : List Subscription}
    {i : Nat} (same : ∀ j, j < i + subs.length -> found j = other j) (merged : Snapshot) :
    mergedReads reg found subs i merged = mergedReads reg other subs i merged := by
  induction subs generalizing i merged with
  | nil => rfl
  | cons sub rest inductionHypothesis =>
      have here : found i = other i := same i (Nat.lt_add_of_pos_right (Nat.zero_lt_succ _))
      rw [mergedReads, mergedReads, readOf, readOf, here]
      apply inductionHypothesis
      intro j below
      rw [Nat.add_right_comm, Nat.add_assoc] at below
      exact same j below

theorem mergedReads_snoc (reg : DataProviderRegistry σ) (found : Nat -> σ) (subs : List Subscription)
    (sub : Subscription) (i : Nat) (merged : Snapshot) :
    mergedReads reg found (subs ++ [sub]) i merged =
      OrdMap.mergeKeep (mergedReads reg found subs i merged) (readOf reg found sub (i + subs.length)) := by
  induction subs generalizing i merged with
  | nil => rfl
  | cons head rest inductionHypothesis =>
      rw [List.cons_append, mergedReads, mergedReads, inductionHypothesis, List.length_cons,
        Nat.add_right_comm, Nat.add_assoc]

/-- The messages so far: those of the rounds, the one that is being answered, and the
unread ones.  All but the first are polls where they are answered. -/
structure Answering (list : SubscriptionList) (messages : List SubscribeRequest)
    (answered inbox : List SubscribeRequest) : Prop where
  all : { request := .subscribe list } :: messages = answered ++ inbox
  polls : ∀ request ∈ answered.tail, request.request = .poll
  some_ : answered ≠ []

/-- Where the handler stands, with the log of everything before. -/
inductive Standing (reg : DataProviderRegistry σ) (list : SubscriptionList)
    (messages : List SubscribeRequest) (call : PollCall σ) : Prop where
  | building (rounds : List (PollRound σ)) (request : SubscribeRequest) (found : Nat -> σ)
      (front pending : List Subscription)
      (phase : call.phase = .building front.length pending (mergedReads reg found front 0 ∅))
      (subs : list.subscription = front ++ pending)
      (answering : Answering list messages (rounds.map PollRound.request ++ [request]) call.inbox)
      (log : serverLog call.log = rounds.flatMap (PollRound.events reg list) ++
        .read request :: snapshotEvents found front)
  | writing (rounds : List (PollRound σ)) (round : PollRound σ) (front pending : List SubscribeResponse)
      (phase : call.phase = .writing pending)
      (responses : round.responses reg list = front ++ pending)
      (answering : Answering list messages ((rounds ++ [round]).map PollRound.request) call.inbox)
      (log : serverLog call.log = rounds.flatMap (PollRound.events reg list) ++
        .read round.request :: (snapshotEvents round.found list.subscription ++ front.map .write))
  | reading (rounds : List (PollRound σ))
      (phase : call.phase = .reading)
      (answering : Answering list messages (rounds.map PollRound.request) call.inbox)
      (log : serverLog call.log = rounds.flatMap (PollRound.events reg list))
  | ended (rounds : List (PollRound σ)) (rest : List SubscribeRequest)
      (phase : call.phase = .ended (endStatus rest))
      (stops : ∀ request ∈ rest.head?, request.request ≠ .poll)
      (answering : Answering list messages (rounds.map PollRound.request) rest)
      (log : serverLog call.log = rounds.flatMap (PollRound.events reg list) ++
        (rest.take 1).map .read)

theorem startBuild_of_encodable {list : SubscriptionList} (encodable : Encodable list.encoding) :
    startBuild list = .building 0 list.subscription ∅ :=
  if_neg encodable.not_refused

theorem buildStep_okay {reg : DataProviderRegistry σ} {sub : Subscription}
    (okay : (subStatus reg sub).isOk = true) (list : SubscriptionList) (clock : Nat -> Int)
    (call : PollCall σ) (i : Nat) (merged : Snapshot) (rest : List Subscription) :
    buildStep reg list clock call i merged (sub :: rest) =
      { call with
        phase := .building (i + 1) rest
          (OrdMap.mergeKeep merged (reg.snapshot call.store (gnmiToXpath sub.path)).snap)
        log := call.log ++ [.snapshot sub call.store] } := by
  obtain ⟨wellFormed, owned⟩ := (subStatus_isOk_iff sub).mp okay
  rw [buildStep]
  dsimp only
  rw [DataProviderRegistry.snapshot_routed, wellFormed, owned]
  rfl

variable {reg : DataProviderRegistry σ} {list : SubscriptionList} {messages : List SubscribeRequest}
  {call : PollCall σ}

theorem standing_commit (standing : Standing reg list messages call) (s : σ) :
    Standing reg list messages (pollMove reg list call (.commit s)) := by
  have sameLog : serverLog (call.log ++ [.commit s]) = serverLog call.log := by
    rw [serverLog_append]
    exact List.append_nil _
  cases standing with
  | building rounds request found front pending phase subs answering log =>
      exact .building rounds request found front pending phase subs answering (sameLog.trans log)
  | writing rounds round front pending phase responses answering log =>
      exact .writing rounds round front pending phase responses answering (sameLog.trans log)
  | reading rounds phase answering log =>
      exact .reading rounds phase answering (sameLog.trans log)
  | ended rounds rest phase stops answering log =>
      exact .ended rounds rest phase stops answering (sameLog.trans log)

/-- A snapshot is taken of the store, or the snapshots are complete. -/
theorem standing_buildStep (buildable : Buildable reg list) (clock : Nat -> Int)
    {rounds : List (PollRound σ)} {request : SubscribeRequest} {found : Nat -> σ}
    {front pending : List Subscription} (subs : list.subscription = front ++ pending)
    (answering : Answering list messages (rounds.map PollRound.request ++ [request]) call.inbox)
    (log : serverLog call.log = rounds.flatMap (PollRound.events reg list) ++
      .read request :: snapshotEvents found front) :
    Standing reg list messages
      (buildStep reg list clock call front.length (mergedReads reg found front 0 ∅) pending) := by
  cases pending with
  | nil =>
      have complete : list.subscription = front := subs.trans (List.append_nil front)
      refine .writing rounds ⟨request, found, clock⟩ [] _ rfl ?_ ?_ ?_
      · rw [PollRound.responses, build_of_buildable found clock buildable, complete]
        rfl
      · rw [List.map_append]
        exact answering
      · rw [List.map_nil, List.append_nil, complete]
        exact log
  | cons sub rest =>
      have okay := buildable.2 sub (subs ▸ List.mem_append_right front List.mem_cons_self)
      have earlier : ∀ i, i < front.length -> found i = Function.update found front.length call.store i :=
        fun i below => (Function.update_of_ne (Nat.ne_of_lt below) _ _).symm
      have now : Function.update found front.length call.store front.length = call.store :=
        Function.update_self _ _ _
      rw [buildStep_okay okay]
      refine .building rounds request (Function.update found front.length call.store) (front ++ [sub]) rest
        ?_ ?_ answering ?_
      · dsimp only
        rw [mergedReads_snoc,
          ← mergedReads_congr (fun j below => earlier j (by rwa [Nat.zero_add] at below)), readOf,
          Nat.zero_add, now, List.length_append]
        rfl
      · rw [subs, List.append_assoc]
        rfl
      · dsimp only
        rw [serverLog_append, log, snapshotEvents_snoc, ← snapshotEvents_congr earlier, now,
          List.append_assoc]
        rfl

theorem standing_readStep (encodable : Encodable list.encoding) {rounds : List (PollRound σ)}
    (answering : Answering list messages (rounds.map PollRound.request) call.inbox)
    (log : serverLog call.log = rounds.flatMap (PollRound.events reg list)) :
    Standing reg list messages (readStep list call) := by
  have stopped : ∀ request rest, call.inbox = request :: rest -> request.request ≠ .poll ->
      ∀ status, status = endStatus (request :: rest) -> Standing reg list messages
        { call with inbox := rest, phase := .ended status, log := call.log ++ [.read request] } := by
    rintro request rest waiting isOther _ rfl
    refine .ended rounds (request :: rest) rfl ?_ (waiting ▸ answering) ?_
    · rintro _ ⟨⟩
      exact isOther
    · dsimp only
      rw [serverLog_append, log]
      rfl
  unfold readStep
  split
  · next empty =>
      refine .ended rounds [] rfl (fun _ none => nomatch none) (empty ▸ answering) ?_
      rw [List.take_nil, List.map_nil, List.append_nil]
      exact log
  · next request rest waiting =>
      dsimp only
      split
      · next isPoll =>
          rw [startBuild_of_encodable encodable]
          refine .building rounds request (fun _ => call.store) [] list.subscription rfl rfl ?_ ?_
          · constructor
            · rw [answering.all, waiting, List.append_assoc]
              rfl
            · intro other member
              rw [List.tail_append_of_ne_nil answering.some_] at member
              rcases List.mem_append.mp member with earlier | here
              · exact answering.polls other earlier
              · rw [List.mem_singleton.mp here]
                exact isPoll
            · exact List.append_ne_nil_of_left_ne_nil answering.some_ _
          · dsimp only
            rw [serverLog_append, log]
            rfl
      · next isList => exact stopped request rest waiting (by simp [isList]) _ (by rw [endStatus, isList])
      · next isEmpty => exact stopped request rest waiting (by simp [isEmpty]) _ (by rw [endStatus, isEmpty])

theorem standing_serverStep (buildable : Buildable reg list) (standing : Standing reg list messages call)
    (clock : Nat -> Int) : Standing reg list messages (serverStep reg list clock call) := by
  unfold serverStep
  cases standing with
  | building rounds request found front pending phase subs answering log =>
      rw [phase]
      exact standing_buildStep buildable clock subs answering log
  | writing rounds round front pending phase responses answering log =>
      rw [phase]
      cases pending with
      | nil =>
          refine .reading (rounds ++ [round]) rfl answering ?_
          rw [List.append_nil] at responses
          rw [List.flatMap_append, List.flatMap_singleton, PollRound.events, responses]
          exact log
      | cons response rest =>
          refine .writing rounds round (front ++ [response]) rest rfl ?_ answering ?_
          · rw [responses, List.append_assoc]
            rfl
          · dsimp only
            rw [serverLog_append, log, List.map_append, ← List.append_assoc (snapshotEvents _ _)]
            simp only [List.append_assoc, List.cons_append]
            rfl
  | reading rounds phase answering log =>
      rw [phase]
      exact standing_readStep buildable.1 answering log
  | ended rounds rest phase stops answering log =>
      rw [phase]
      exact .ended rounds rest phase stops answering log

theorem standing_openCall (encodable : Encodable list.encoding) (start : σ)
    (messages : List SubscribeRequest) : Standing reg list messages (openCall list start messages) := by
  have answering : Answering list messages [{ request := .subscribe list }] messages := by
    refine ⟨rfl, fun request none => ?_, List.cons_ne_nil _ _⟩
    exact nomatch none
  exact .building [] { request := .subscribe list } (fun _ => start) [] list.subscription
    (startBuild_of_encodable encodable) rfl answering rfl

/-- Both invariants hold after any moves. -/
theorem run_openCall (buildable : Buildable reg list) (start : σ) (messages : List SubscribeRequest)
    (moves : List (PollMove σ)) :
    let call := runSteps (pollMove reg list) (openCall list start messages) moves
    Standing reg list messages call ∧ Current start call := by
  induction moves using List.reverseRecOn with
  | nil => exact ⟨standing_openCall buildable.1 start messages, current_openCall list start messages⟩
  | append_singleton moves move inductionHypothesis =>
      obtain ⟨standing, current⟩ := inductionHypothesis
      dsimp only
      rw [runSteps_snoc]
      refine ⟨?_, current_pollMove current move⟩
      cases move with
      | commit s => exact standing_commit standing s
      | server clock => exact standing_serverStep buildable standing clock

/-! ## What the handler has done in the end -/

/-- A call that has ended did what its transcript says. -/
theorem Standing.transcript (standing : Standing reg list messages call) {status : Status}
    (ended : call.phase = .ended status) :
    ∃ first polls rest, Transcript reg list messages call.log status first polls rest := by
  cases standing with
  | building _ _ _ _ _ phase => cases ended.symm.trans phase
  | writing _ _ _ _ phase => cases ended.symm.trans phase
  | reading _ phase => cases ended.symm.trans phase
  | ended rounds rest phase stops answering log =>
      cases ended.symm.trans phase
      cases rounds with
      | nil => exact absurd rfl answering.some_
      | cons first polls =>
          have all := answering.all
          rw [List.map_cons, List.cons_append, List.cons_eq_cons] at all
          refine ⟨first, polls, rest, all.1.symm, all.2, fun round member => ?_, stops, log, rfl⟩
          exact answering.polls round.request (List.mem_map_of_mem member)

/-- At any time the log is a part of the log of some rounds, for the first messages. -/
theorem Standing.log_prefix (standing : Standing reg list messages call) :
    ∃ rounds : List (PollRound σ),
      rounds.map PollRound.request <+: { request := .subscribe list } :: messages ∧
        serverLog call.log <+: rounds.flatMap (PollRound.events reg list) := by
  have started : ∀ (rounds : List (PollRound σ)) (round : PollRound σ) part inbox,
      { request := .subscribe list } :: messages =
          rounds.map PollRound.request ++ [round.request] ++ inbox ->
        serverLog call.log = rounds.flatMap (PollRound.events reg list) ++ part ->
          part <+: round.events reg list ->
            ∃ rounds : List (PollRound σ),
              rounds.map PollRound.request <+: { request := .subscribe list } :: messages ∧
                serverLog call.log <+: rounds.flatMap (PollRound.events reg list) := by
    intro rounds round part inbox all log isPart
    refine ⟨rounds ++ [round], ?_, ?_⟩
    · rw [all, List.map_append]
      exact List.prefix_append _ inbox
    · rw [log, List.flatMap_append, List.flatMap_singleton]
      exact (List.prefix_append_right_inj _).mpr isPart
  cases standing with
  | building rounds request found front pending phase subs answering log =>
      refine started rounds ⟨request, found, fun _ => 0⟩ _ call.inbox answering.all log ?_
      rw [PollRound.events, subs, snapshotEvents, snapshotEvents, List.mapIdx_append, List.append_assoc]
      exact (List.prefix_cons_inj _).mpr (List.prefix_append _ _)
  | writing rounds round front pending phase responses answering log =>
      refine started rounds round _ call.inbox ?_ log ?_
      · rw [answering.all, List.map_append]
        rfl
      · rw [PollRound.events, responses, List.map_append, ← List.append_assoc]
        exact (List.prefix_cons_inj _).mpr (List.prefix_append _ _)
  | reading rounds phase answering log =>
      exact ⟨rounds, answering.all ▸ List.prefix_append _ _, log ▸ List.prefix_refl _⟩
  | ended rounds rest phase stops answering log =>
      cases rest with
      | nil =>
          rw [List.take_nil, List.map_nil, List.append_nil] at log
          exact ⟨rounds, answering.all ▸ List.prefix_append _ _, log ▸ List.prefix_refl _⟩
      | cons request rest =>
          refine started rounds ⟨request, fun _ => call.store, fun _ => 0⟩ _ rest ?_ log ?_
          · rw [answering.all, List.append_assoc]
            rfl
          · exact (List.prefix_cons_inj _).mpr List.nil_prefix

/-- The message of a round, with the moments of its answer. -/
def PollRound.message (round : PollRound σ) : ClientMessage σ :=
  ⟨round.request, round.found, round.clock⟩

theorem pollLoop_rounds (buildable : Buildable reg list) {polls : List (PollRound σ)}
    (polled : ∀ round ∈ polls, round.request.request = .poll) {rest : List (ClientMessage σ)}
    (stops : ∀ message ∈ rest.head?, message.request.request ≠ .poll) (sent : List Sent) :
    (pollLoop reg list (polls.map PollRound.message ++ rest) sent).1 =
        endStatus (rest.map ClientMessage.request) ∧
      (pollLoop reg list (polls.map PollRound.message ++ rest) sent).2.map Sent.response =
        sent.map Sent.response ++ polls.flatMap (PollRound.responses reg list) := by
  induction polls generalizing sent with
  | nil =>
      rw [List.flatMap_nil, List.append_nil]
      cases rest with
      | nil => exact ⟨rfl, rfl⟩
      | cons message rest =>
          have other := stops message rfl
          rw [List.map_nil, List.nil_append, pollLoop, List.map_cons, endStatus]
          cases content : message.request.request with
          | poll => exact absurd content other
          | subscribe again => exact ⟨rfl, rfl⟩
          | notSet => exact ⟨rfl, rfl⟩
  | cons round polls inductionHypothesis =>
      have isPoll : round.message.request.request = .poll := polled round List.mem_cons_self
      have built := (build_isOk_iff round.message.found round.message.clock list).mpr buildable
      have responses : (writeAll .build (buildSubscribeNotifications reg round.message.found
          round.message.clock list).2 ++ syncResponse).map Sent.response = round.responses reg list := by
        rw [List.map_append, writeAll, List.map_map]
        rfl
      rw [List.map_cons, List.cons_append, pollLoop, isPoll]
      dsimp only
      rw [built, if_neg (by decide), List.flatMap_cons, ← responses, ← List.append_assoc, List.append_assoc sent,
        ← List.map_append]
      exact inductionHypothesis (fun other member => polled other (List.mem_cons_of_mem round member)) _

/-- The responses and the status of a call that has ended are those of `handlePoll`. -/
theorem Transcript.handlePoll_eq (buildable : Buildable reg list) {log : List (PollEvent σ)} {status : Status}
    {first : PollRound σ} {polls : List (PollRound σ)} {rest : List SubscribeRequest}
    (transcript : Transcript reg list messages log status first polls rest) :
    let unread := rest.map (fun request => ⟨request, first.found, first.clock⟩)
    let answer := handlePoll reg first.found first.clock (polls.map PollRound.message ++ unread) list
    answer.1 = status ∧
      answer.2.map Sent.response = (first :: polls).flatMap (PollRound.responses reg list) := by
  intro unread answer
  have built := (build_isOk_iff first.found first.clock list).mpr buildable
  have stops : ∀ message ∈ unread.head?, message.request.request ≠ .poll := by
    intro message member
    rw [List.head?_map] at member
    obtain ⟨request, isHead, rfl⟩ := Option.map_eq_some_iff.mp member
    exact transcript.stops request isHead
  have requests : unread.map ClientMessage.request = rest := by
    rw [List.map_map]
    exact List.map_id rest
  have loop := pollLoop_rounds buildable transcript.polled stops
    (writeAll .build (buildSubscribeNotifications reg first.found first.clock list).2 ++ syncResponse)
  have unfolded : answer = pollLoop reg list (polls.map PollRound.message ++ unread)
      (writeAll .build (buildSubscribeNotifications reg first.found first.clock list).2 ++ syncResponse) := by
    change handlePoll reg first.found first.clock (polls.map PollRound.message ++ unread) list = _
    rw [handlePoll]
    rw [built, if_neg (by decide)]
  rw [unfolded, loop.1, loop.2, requests, transcript.status, List.flatMap_cons, List.map_append, writeAll,
    List.map_map]
  exact ⟨rfl, rfl⟩

/-! ## The responses -/

theorem writes_append (log more : List (PollEvent σ)) : writes (log ++ more) = writes log ++ writes more :=
  List.filterMap_append

theorem writes_serverLog (log : List (PollEvent σ)) : writes (serverLog log) = writes log := by
  rw [writes, serverLog, List.filterMap_filter]
  apply List.filterMap_congr
  intro event _
  cases event with
  | commit s => rfl
  | read request => rfl
  | snapshot sub s => rfl
  | write response => rfl

theorem writes_events (reg : DataProviderRegistry σ) (list : SubscriptionList) (round : PollRound σ) :
    writes (round.events reg list) = round.responses reg list := by
  have silent : writes (snapshotEvents round.found list.subscription) = [] := by
    rw [writes, List.filterMap_eq_nil_iff]
    intro event member
    obtain ⟨i, inside, rfl⟩ := List.mem_mapIdx.mp member
    rfl
  have written : ∀ responses : List SubscribeResponse,
      writes (σ := σ) (responses.map .write) = responses := by
    intro responses
    rw [writes, List.filterMap_map]
    exact List.filterMap_some
  change writes (snapshotEvents round.found list.subscription ++
    (round.responses reg list).map .write) = round.responses reg list
  rw [writes_append, silent, written, List.nil_append]

/-- The responses of a call that has ended are those of its rounds. -/
theorem Transcript.writes_eq {log : List (PollEvent σ)} {status : Status} {first : PollRound σ}
    {polls : List (PollRound σ)} {rest : List SubscribeRequest}
    (transcript : Transcript reg list messages log status first polls rest) :
    writes log = (first :: polls).flatMap (PollRound.responses reg list) := by
  have rounds : ∀ rounds : List (PollRound σ), writes (rounds.flatMap (PollRound.events reg list)) =
      rounds.flatMap (PollRound.responses reg list) := by
    intro rounds
    induction rounds with
    | nil => rfl
    | cons round rounds inductionHypothesis =>
        rw [List.flatMap_cons, List.flatMap_cons, writes_append, writes_events, inductionHypothesis]
  have unanswered : writes (σ := σ) ((rest.take 1).map .read) = [] := by
    rw [writes, List.filterMap_map, List.filterMap_eq_nil_iff]
    exact fun _ _ => rfl
  rw [← writes_serverLog, transcript.order, writes_append, rounds, unanswered, List.append_nil]

/-- The states in which a round finds its snapshots are states of the store. -/
theorem Transcript.found_of_commits {log : List (PollEvent σ)} {status : Status} {first : PollRound σ}
    {polls : List (PollRound σ)} {rest : List SubscribeRequest}
    (transcript : Transcript reg list messages log status first polls rest) {start : σ}
    (current : SnapshotsCurrent start log) {P : σ -> Prop} (isFirst : P start)
    (commits : ∀ s, .commit s ∈ log -> P s) {round : PollRound σ} (isRound : round ∈ first :: polls)
    {i : Nat} (inside : i < list.subscription.length) : P (round.found i) := by
  have taken : .snapshot list.subscription[i] (round.found i) ∈ serverLog log := by
    rw [transcript.order]
    refine List.mem_append_left _ (List.mem_flatMap.mpr ⟨round, isRound, ?_⟩)
    refine List.mem_cons_of_mem _ (List.mem_append_left _ ?_)
    exact List.mem_mapIdx.mpr ⟨i, inside, rfl⟩
  obtain ⟨front, back, whole⟩ := List.append_of_mem (List.mem_filter.mp taken).1
  rw [current front _ _ back whole]
  refine storeAfter_of_commits isFirst (fun s member => commits s ?_)
  rw [whole]
  exact List.mem_append_left _ member

end Subscribe
end Gnmi
end PscMockServer
