import PscMockServer.Telemetry.OnChange

namespace PscMockServer
namespace Telemetry

open Foundations Gnmi Utils Backend Gnmi.Subscribe

/-!
# The data never closes a stream

The status of a build is decided by the encoding, the paths and the registered
prefixes.  So every later build of an RPC, on some of the same subscriptions, succeeds
as the first one did, and it has something to send even when nothing is stored.
-/

variable {σ : Type} {reg : DataProviderRegistry σ}

/-! ## A build always sends something -/

theorem length_pushAll (clock : Nat -> Int) (builds : List (Int -> Notification)) :
    (pushAll clock builds).length = builds.length :=
  List.length_mapIdx

/-- Without leaves there is the empty non-atomic notification. -/
theorem buildFull_ne_nil (snap : Snapshot) (reg : DataProviderRegistry σ) (clock : Nat -> Int) :
    buildFullNotifications snap reg clock ≠ [] := by
  apply List.ne_nil_of_length_pos
  rw [buildFullNotifications, length_pushAll, List.length_append, List.length_map]
  cases noGroups : (partition snap reg).2.isEmpty with
  | true =>
      rw [Bool.or_true, if_pos rfl]
      exact Nat.add_pos_left Nat.one_pos _
  | false =>
      apply Nat.add_pos_right
      rw [List.length_pos_iff]
      intro nothing
      rw [Std.ExtTreeMap.toList_eq_nil_iff] at nothing
      rw [nothing] at noGroups
      cases noGroups

theorem Subscribe.build_sends (found : Nat -> σ) (clock : Nat -> Int) {list : SubscriptionList}
    (buildable : Buildable reg list) :
    (buildSubscribeNotifications reg found clock list).1 = Status.OK ∧
      (buildSubscribeNotifications reg found clock list).2 ≠ [] := by
  rw [build_of_buildable found clock buildable]
  refine ⟨rfl, fun nothing => ?_⟩
  exact buildFull_ne_nil _ reg clock (List.map_eq_nil_iff.mp nothing)

/-! ## The status does not look at the data -/

theorem build_status_eq (found later : Nat -> σ) (clock laterClock : Nat -> Int)
    (list : SubscriptionList) :
    (buildSubscribeNotifications reg found clock list).1 =
      (buildSubscribeNotifications reg later laterClock list).1 := by
  unfold buildSubscribeNotifications
  split
  · rfl
  · dsimp only
    rw [mergeLoop_status, mergeLoop_status]
    split
    · rfl
    · rfl

/-! ## Streams -/

/-- The stream, cancelled by the client before its first pass, ends well: the initial
build succeeded. -/
def StreamOpened (reg : DataProviderRegistry σ) (timing : StreamTiming σ) (list : SubscriptionList) :
    Prop :=
  list.updatesOnly = false ∧ (handleStream reg { timing with passes := [] } list).1.isOk = true

/-- An opened stream passed every check. -/
theorem StreamOpened.accepted {timing : StreamTiming σ} {list : SubscriptionList}
    (opened : StreamOpened reg timing list) : Accepted reg list := by
  rcases opened with ⟨initialEmit, ended⟩
  unfold handleStream at ended
  split at ended
  · cases ended
  · next intervals =>
      rw [initialEmit, if_neg Bool.false_ne_true] at ended
      dsimp only at ended
      split at ended
      · next failed =>
          rw [Bool.not_eq_true'] at failed
          rw [failed] at ended
          cases ended
      · next built =>
          rw [Bool.not_eq_true', Bool.not_eq_false] at built
          refine ⟨fun sub member => ?_, (build_isOk_iff _ _ list).mp built⟩
          by_contra tooLong
          apply intervals
          rw [List.any_eq_true]
          exact ⟨sub, member, decide_eq_true (Nat.lt_of_not_le tooLong)⟩

/-- The batch of a pass, if any entry is due. -/
theorem runSample_sends {list : SubscriptionList} {chronomap : List (Subscription × Int)}
    (encodable : Encodable list.encoding)
    (okay : ∀ sub ∈ chronomap.map Prod.fst, (subStatus reg sub).isOk = true) (pass : LoopPass σ) :
    (runSample reg list pass chronomap).1 = Status.OK ∧
      (dueSubscriptions pass chronomap ≠ [] -> (runSample reg list pass chronomap).2 ≠ []) := by
  have due : Buildable reg (dueList list pass chronomap) :=
    ⟨encodable, fun sub member => okay sub (mem_dueSubscriptions member)⟩
  have sends := Subscribe.build_sends pass.sampleAt pass.sampleClock due
  unfold runSample
  dsimp only
  split
  · next none_ =>
      exact ⟨rfl, fun some_ => absurd (List.isEmpty_iff.mp none_) some_⟩
  · exact ⟨sends.1, fun _ => sends.2⟩

/-! ## The POLL mode -/

/-- How the client's own messages end a POLL RPC: the first one that is no poll is an
error. -/
def clientEnd : List (ClientMessage σ) -> Status
  | [] => Status.OK
  | message :: rest =>
      match message.request.request with
      | .poll => clientEnd rest
      | .subscribe _ =>
          ⟨.invalidArgument, "A SubscriptionList has already been received for this RPC".toList⟩
      | .notSet => ⟨.invalidArgument, "Unknown content for SubscribeRequest message".toList⟩

theorem pollLoop_status {list : SubscriptionList} (buildable : Buildable reg list)
    (messages : List (ClientMessage σ)) (sent : List Sent) :
    (pollLoop reg list messages sent).1 = clientEnd messages := by
  induction messages generalizing sent with
  | nil => rfl
  | cons message rest inductionHypothesis =>
      rw [pollLoop, clientEnd]
      cases message.request.request with
      | poll =>
          dsimp only
          have built := (build_isOk_iff message.found message.clock list).mpr buildable
          rw [built, if_neg (by decide)]
          exact inductionHypothesis _
      | subscribe again => rfl
      | notSet => rfl

theorem handlePoll_status (found : Nat -> σ) (clock : Nat -> Int) {list : SubscriptionList}
    (buildable : Buildable reg list) (messages : List (ClientMessage σ)) :
    (handlePoll reg found clock messages list).1 = clientEnd messages := by
  unfold handlePoll
  dsimp only
  rw [(build_isOk_iff found clock list).mpr buildable, if_neg (by decide)]
  exact pollLoop_status buildable messages _

/-! ## The whole RPC -/

/-- Two builds of one list end with the same status.  If one succeeds, so does every
later one on some of its subscriptions, with at least one notification; a POLL RPC
then only ends as the client's own messages end it, and a stream never. -/
theorem never_closed_by_data (reg : DataProviderRegistry σ) (list : SubscriptionList) :
    (∀ found later clock laterClock,
      (buildSubscribeNotifications reg found clock list).1 =
        (buildSubscribeNotifications reg later laterClock list).1) ∧
    (∀ found clock, (buildSubscribeNotifications reg found clock list).1.isOk = true ->
      (∀ subs, (∀ sub ∈ subs, sub ∈ list.subscription) -> ∀ later laterClock,
        (buildSubscribeNotifications reg later laterClock (withSubscriptions list subs)).1 = Status.OK ∧
          (buildSubscribeNotifications reg later laterClock (withSubscriptions list subs)).2 ≠ []) ∧
      ∀ messages, (handlePoll reg found clock messages list).1 = clientEnd messages) ∧
    ∀ timing, StreamOpened reg timing list ->
      (handleStream reg timing list).1 = Status.OK ∧
        ∀ front pass, front ++ [pass] <+: timing.passes ->
          let chronomap := (bucketsAfter reg front (openingBuckets reg timing list)).chronomap
          (runSample reg list pass chronomap).1 = Status.OK ∧
            (dueSubscriptions pass chronomap ≠ [] -> (runSample reg list pass chronomap).2 ≠ []) := by
  refine ⟨fun found later clock laterClock => build_status_eq found later clock laterClock list, ?_, ?_⟩
  · intro found clock built
    have buildable := (build_isOk_iff found clock list).mp built
    constructor
    · intro subs some_ later laterClock
      exact Subscribe.build_sends later laterClock (buildable_withSubscriptions buildable some_)
    · exact handlePoll_status found clock buildable
  · intro timing opened
    have accepted := opened.accepted
    constructor
    · rw [handleStream_of_accepted timing accepted opened.1]
    · intro front pass _ chronomap
      apply runSample_sends accepted.2.1
      intro sub sampled
      exact accepted.2.2 sub (chronomap_subs front sampled)

/-- The host name can be read again after the rename, by a sample and by a poll. -/
theorem hostname_never_closed :
    (buildSubscribeNotifications Server.registry (fun _ => afterRename) (fun _ => 9)
        (withSubscriptions hostnameList [hostnameSub])).1 = Status.OK ∧
      (handlePoll Server.registry (fun _ => beforeRename) (fun _ => 5) [] hostnameList).1 = Status.OK ∧
      (handleStream Server.registry (renameTiming beforeRename) hostnameList).1 = Status.OK := by
  have built : (buildSubscribeNotifications Server.registry (fun _ => beforeRename) (fun _ => 5)
      hostnameList).1.isOk = true := by decide +kernel
  have opened : StreamOpened Server.registry (renameTiming beforeRename) hostnameList :=
    ⟨rfl, by decide +kernel⟩
  have open_ := never_closed_by_data Server.registry hostnameList
  have later := open_.2.1 _ _ built
  exact ⟨(later.1 [hostnameSub] (fun _ member => member) _ _).1, later.2 [], (open_.2.2 _ opened).1⟩

end Telemetry
end PscMockServer
