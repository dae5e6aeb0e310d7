import PscMockServer.Gnmi.PollTranscripts
import PscMockServer.Telemetry.AbsolutePaths
import PscMockServer.Telemetry.OpenStreams

namespace PscMockServer
namespace Telemetry

open Foundations Gnmi Utils Backend Gnmi.Subscribe Server

/-!
# The POLL protocol

Every message that is answered gets at least one notification and then one sync.  The
notifications report what the subscriptions found in snapshots that were taken after the
message was read.  Each subscription has a snapshot of its own; a leaf that several of them
find is reported with the value of the first.
-/

/-- Subscription number `i` finds the leaf in its snapshot. -/
def Finds (found : Nat -> Stores) (subs : List Subscription) (i : Nat) (key : Str) (leaf : Leaf) : Prop :=
  ∃ sub, subs[i]? = some sub ∧ (registry.snapshot (found i) (gnmiToXpath sub.path)).snap[key]? = some leaf

/-- No subscription before number `i` finds a leaf at the key. -/
def NotBefore (found : Nat -> Stores) (subs : List Subscription) (i : Nat) (key : Str) : Prop :=
  ∀ j < i, ∀ leaf, ¬ Finds found subs j key leaf

/-- The answer of a round: notifications, none of them repeating a path, that report the
leaves the subscriptions find, and the sync.  A request prefix is put in last. -/
structure PollAnswered (list : SubscriptionList) (round : PollRound Stores)
    (notes : List Notification) : Prop where
  some_ : notes ≠ []
  responses : round.responses registry list =
    (notes.map (withRequestPrefix list.pathPrefix)).map .update ++ [.syncResponse]
  once : ((reported notes).map Prod.fst).Nodup
  only : ∀ nodes value, (nodes, value) ∈ reported notes -> ∃ i key leaf,
    Finds round.found list.subscription i key leaf ∧ nodes = pathOf key ∧ value = leaf.val
  every : ∀ i key leaf, Finds round.found list.subscription i key leaf ->
    ∃ value, (pathOf key, value) ∈ reported notes
  value : ∀ i key leaf, Finds round.found list.subscription i key leaf ->
    NotBefore round.found list.subscription i key -> (pathOf key, leaf.val) ∈ reported notes

/-! ## The merged snapshots -/

variable {found : Nat -> Stores} {subs : List Subscription} {key : Str} {leaf : Leaf}

/-- The merged snapshots hold what the first subscription finds. -/
theorem mergedReads_iff : (mergedReads registry found subs 0 ∅)[key]? = some leaf ↔
    ∃ i, Finds found subs i key leaf ∧ NotBefore found subs i key := by
  rw [mergedReads_empty_find, firstRead_iff]
  simp only [Nat.zero_add]
  constructor
  · rintro ⟨i, sub, listed, read, earlier⟩
    refine ⟨i, ⟨sub, listed, read⟩, ?_⟩
    rintro j below other ⟨before, isBefore, alsoRead⟩
    cases (earlier j below before isBefore).symm.trans alsoRead
  · rintro ⟨i, ⟨sub, listed, read⟩, notBefore⟩
    refine ⟨i, sub, listed, read, fun j below before isBefore => ?_⟩
    exact Option.eq_none_iff_forall_ne_some.mpr
      (fun other alsoRead => notBefore j below other ⟨before, isBefore, alsoRead⟩)

/-- Whatever a subscription finds, some subscription finds first. -/
theorem exists_first {i : Nat} (finds : Finds found subs i key leaf) :
    ∃ first other, Finds found subs first key other ∧ NotBefore found subs first key := by
  obtain ⟨sub, listed, read⟩ := finds
  obtain ⟨other, merged⟩ := mergedReads_of_read listed read
  obtain ⟨first, finds, notBefore⟩ := mergedReads_iff.mp merged
  exact ⟨first, other, finds, notBefore⟩

theorem Finds.inside {i : Nat} (finds : Finds found subs i key leaf) : i < subs.length := by
  obtain ⟨sub, listed, _⟩ := finds
  exact (List.getElem?_eq_some_iff.mp listed).1

/-! ## The answer of a round -/

/-- A round whose snapshots are of valid states is answered. -/
theorem answered_of_valid {list : SubscriptionList} (buildable : Buildable registry list)
    {round : PollRound Stores} (valid : ∀ i, i < list.subscription.length -> Invariant (round.found i)) :
    ∃ notes, PollAnswered list round notes := by
  have canonical : CanonicalKeys (mergedReads registry round.found list.subscription 0 ∅) := by
    intro key leaf read
    obtain ⟨i, finds, _⟩ := mergedReads_iff.mp read
    have known := valid i finds.inside
    obtain ⟨sub, _, own⟩ := finds
    exact snapshot_canonical known _ key leaf own
  refine ⟨buildFullNotifications (mergedReads registry round.found list.subscription 0 ∅) registry
    round.clock, buildFull_ne_nil _ registry round.clock, ?_, ?_, ?_, ?_, ?_⟩
  · rw [PollRound.responses, build_of_buildable round.found round.clock buildable]
  · rw [((reported_buildFull registry_atomicLaw.within canonical round.clock).map Prod.fst).nodup_iff]
    exact entryReport_nodup canonical
  · intro nodes value member
    rw [mem_reported_buildFull registry_atomicLaw.within canonical] at member
    obtain ⟨key, leaf, read, known⟩ := member
    obtain ⟨i, finds, _⟩ := mergedReads_iff.mp read
    exact ⟨i, key, leaf, finds, known⟩
  · intro i key leaf finds
    obtain ⟨first, other, firstFinds, notBefore⟩ := exists_first finds
    refine ⟨other.val, (mem_reported_buildFull registry_atomicLaw.within canonical _ _ _).mpr ?_⟩
    exact ⟨key, other, mergedReads_iff.mpr ⟨first, firstFinds, notBefore⟩, rfl, rfl⟩
  · intro i key leaf finds notBefore
    refine (mem_reported_buildFull registry_atomicLaw.within canonical _ _ _).mpr ?_
    exact ⟨key, leaf, mergedReads_iff.mpr ⟨i, finds, notBefore⟩, rfl, rfl⟩

/-! ## The protocol -/

/-- A POLL call that has ended: its log is a transcript, its responses are those of the
rounds, each of them answered, and only a message that is no poll is an error. -/
structure Protocol (list : SubscriptionList) (messages : List SubscribeRequest)
    (log : List (PollEvent Stores)) (status : Status) : Prop where
  transcript : ∃ first polls rest, Transcript registry list messages log status first polls rest ∧
    writes log = (first :: polls).flatMap (PollRound.responses registry list) ∧
    (∀ round ∈ first :: polls, ∃ notes, PollAnswered list round notes) ∧
    (rest = [] -> status = Status.OK) ∧ (rest ≠ [] -> status.code = .invalidArgument)

/-- A POLL call whose list can be built answers the subscription and every poll before the
first other message, in order, each from snapshots of the store taken after the message was
read; the other message is an error that ends the call; and a call whose handler is
scheduled again and again ends. -/
theorem poll_protocol {start : Stores} (reachable : Reachable start) {list : SubscriptionList}
    {found : Nat -> Stores} {clock : Nat -> Int}
    (initial : (buildSubscribeNotifications registry found clock list).1.isOk = true)
    (messages : List SubscribeRequest) :
    (∀ moves : List (PollMove Stores), (∀ s, .commit s ∈ moves -> Reachable s) ->
      let call := runSteps (pollMove registry list) (openCall list start messages) moves
      SnapshotsCurrent start call.log ∧
        (∃ rounds : List (PollRound Stores),
          rounds.map PollRound.request <+: { request := .subscribe list } :: messages ∧
            serverLog call.log <+: rounds.flatMap (PollRound.events registry list)) ∧
        ∀ status, call.phase = .ended status -> Protocol list messages call.log status) ∧
    ∀ schedule : Nat -> PollMove Stores, Fair PollMove.IsServer schedule ->
      ∃ n, Ended (stateAt (pollMove registry list) (openCall list start messages) schedule n) := by
  have buildable := (build_isOk_iff found clock list).mp initial
  refine ⟨fun moves commits => ?_, fun schedule fair => pollCall_ends registry list _ fair⟩
  intro call
  obtain ⟨standing, current⟩ := run_openCall buildable start messages moves
  refine ⟨current.2, standing.log_prefix, fun status ended => ⟨?_⟩⟩
  obtain ⟨first, polls, rest, transcript⟩ := standing.transcript ended
  refine ⟨first, polls, rest, transcript, transcript.writes_eq, ?_, ?_, ?_⟩
  · intro round isRound
    refine answered_of_valid buildable (fun i inside => ?_)
    exact transcript.found_of_commits current.2 reachable.invariant
      (fun s logged => (commits s (commit_of_mem_log registry list start messages moves logged)).invariant)
      isRound inside
  · rintro rfl
    exact transcript.status
  · intro some_
    rw [transcript.status]
    cases rest with
    | nil => exact absurd rfl some_
    | cons request rest =>
        rw [endStatus]
        split
        · rfl
        · rfl

def pollMessage : SubscribeRequest where
  request := .poll

def serverMoves (n : Nat) : List (PollMove Stores) :=
  List.replicate n (.server (fun _ => 5))

/-- Steps of the handler, with one commit among them. -/
def movesAround (n : Nat) (s : Stores) (m : Nat) : List (PollMove Stores) :=
  serverMoves n ++ [.commit s] ++ serverMoves m

theorem commit_of_movesAround {n m : Nat} {s t : Stores} (moved : .commit s ∈ movesAround n t m) :
    s = t := by
  rcases List.mem_append.mp moved with earlier | later
  · rcases List.mem_append.mp earlier with server | here
    · exact nomatch List.eq_of_mem_replicate server
    · exact PollMove.commit.inj (List.mem_singleton.mp here)
  · exact nomatch List.eq_of_mem_replicate later

/-- Two polls of the host name, with a rename before the second. -/
def polledRename : List (PollMove Stores) :=
  movesAround 12 afterRename 12

def polledHostname : SubscriptionList where
  subscription := [hostnameSub]
  mode := .poll

theorem poll_protocol_hostname :
    Protocol polledHostname [pollMessage, pollMessage] (runSteps (pollMove registry polledHostname)
      (openCall polledHostname beforeRename [pollMessage, pollMessage]) polledRename).log Status.OK := by
  have initial : (buildSubscribeNotifications registry (fun _ => beforeRename) (fun _ => 5)
      polledHostname).1.isOk = true := by decide +kernel
  have commits : ∀ s, .commit s ∈ polledRename -> Reachable s := by
    intro s moved
    rw [commit_of_movesAround moved]
    exact afterRename_reachable
  have run := (poll_protocol beforeRename_reachable initial [pollMessage, pollMessage]).1 polledRename commits
  exact run.2.2 Status.OK (by decide +kernel)

/-! ## Overlapping subscriptions -/

/-- The notifications among the responses. -/
def notesOf (responses : List SubscribeResponse) : List Notification :=
  responses.filterMap (fun response => match response with
    | .update n => some n
    | .syncResponse => none)

/-- The states of the store during a part of a log that began in this one. -/
def statesDuring (s : Stores) (events : List (PollEvent Stores)) : List Stores :=
  s :: events.filterMap (fun event => match event with
    | .commit s' => some s'
    | _ => none)

/-- Of what the subscription selects, the notifications report exactly its snapshot in the
state. -/
def ReportsSnapshot (sub : Subscription) (notes : List Notification) (s : Stores) : Prop :=
  ∀ key, Canonical key -> selects (stripPathQuotes (gnmiToXpath sub.path)) key = true -> ∀ value,
    (pathOf key, value) ∈ reported notes ↔
      ∃ leaf, (registry.snapshot s (gnmiToXpath sub.path)).snap[key]? = some leaf ∧ leaf.val = value

/-- Every answer to a poll reports, for every subscription, its snapshot in one of the states
since the poll was read. -/
def AnswersReportSnapshots (list : SubscriptionList) (start : Stores) (log : List (PollEvent Stores)) : Prop :=
  ∀ front request answer back, log = front ++ .read request :: (answer ++ back) ->
    request.request = .poll -> (∀ other, .read other ∉ answer) ->
      (back = [] ∨ ∃ other, back.head? = some (.read other)) ->
        ∀ sub ∈ list.subscription, ∃ s ∈ statesDuring (storeAfter start front) answer,
          ReportsSnapshot sub (notesOf (writes answer)) s

def systemSub : Subscription where
  path := { elem := [⟨"system".toList, .empty⟩] }

/-- The host name, and everything below `/system`. -/
def overlappingPolls : SubscriptionList where
  subscription := [hostnameSub, systemSub]
  mode := .poll

/-- A Set that renames the host and removes the banner. -/
def renameAndRemove : SetRequest where
  delete := [{ elem := [⟨"system".toList, .empty⟩, ⟨"config".toList, .empty⟩,
    ⟨"motd-banner".toList, .empty⟩] }]
  update := renameHost.update

def afterBoth : Stores :=
  (Gnmi.Set.run registry beforeRename 3 renameAndRemove).1

/-- It commits between the two snapshots of the poll. -/
def mixedMoves : List (PollMove Stores) :=
  movesAround 9 afterBoth 12

def mixedCall : PollCall Stores :=
  runSteps (pollMove registry overlappingPolls)
    (openCall overlappingPolls beforeRename [pollMessage]) mixedMoves

/-- The seventh event of the call is the poll, and its answer has the old name but no
banner. -/
theorem mixedCall_answer :
    mixedCall.phase = .ended Status.OK ∧ mixedCall.log[6]? = some (.read pollMessage) ∧
      (mixedCall.log.drop 7).all (fun event => match event with
        | .read _ => false
        | _ => true) = true ∧
      (pathOf "/system/config/hostname".toList, .stringVal "psc-mock".toList) ∈
        reported (notesOf (writes (mixedCall.log.drop 7))) ∧
      (pathOf "/system/config/motd-banner".toList, .stringVal "ORv3 PSC mock".toList) ∉
        reported (notesOf (writes (mixedCall.log.drop 7))) := by
  decide +kernel

/-- The store is in one of the two states at any time. -/
theorem mixedCall_states {front answer : List (PollEvent Stores)} {event : PollEvent Stores}
    (whole : mixedCall.log = front ++ event :: answer) {s : Stores}
    (since : s ∈ statesDuring (storeAfter beforeRename front) answer) : s = beforeRename ∨ s = afterBoth := by
  have commits : ∀ s, .commit s ∈ mixedCall.log -> s = beforeRename ∨ s = afterBoth := by
    intro s logged
    exact Or.inr (commit_of_movesAround (commit_of_mem_log registry overlappingPolls beforeRename
      [pollMessage] mixedMoves logged))
  rcases List.mem_cons.mp since with rfl | during
  · refine storeAfter_of_commits (P := fun s => s = beforeRename ∨ s = afterBoth) (Or.inl rfl)
      (fun s logged => commits s ?_)
    rw [whole]
    exact List.mem_append_left _ logged
  · obtain ⟨moment, isMoment, isCommit⟩ := List.mem_filterMap.mp during
    cases moment with
    | commit other =>
        cases isCommit
        refine commits s ?_
        rw [whole]
        exact List.mem_append_right _ (List.mem_cons_of_mem _ isMoment)
    | read request => cases isCommit
    | snapshot sub other => cases isCommit
    | write response => cases isCommit

/-- The poll is answered with the old name, which the first subscription found, and without
the banner, which the second no longer found: there never was such a state. -/
theorem overlapping_poll_mixes :
    Reachable beforeRename ∧ Reachable afterBoth ∧ mixedCall.phase = .ended Status.OK ∧
      ¬ AnswersReportSnapshots overlappingPolls beforeRename mixedCall.log := by
  obtain ⟨ended, isPoll, noRead, sent, silent⟩ := mixedCall_answer
  refine ⟨beforeRename_reachable, ⟨1, 2, [.set renameAndRemove 3], rfl⟩, ended, fun right => ?_⟩
  have whole : mixedCall.log = mixedCall.log.take 6 ++ .read pollMessage :: mixedCall.log.drop 7 := by
    obtain ⟨inside, seventh⟩ := List.getElem?_eq_some_iff.mp isPoll
    rw [← seventh, List.getElem_cons_drop, List.take_append_drop]
  have unread : ∀ other, .read other ∉ mixedCall.log.drop 7 := by
    intro other member
    exact absurd (List.all_eq_true.mp noRead _ member) Bool.false_ne_true
  obtain ⟨s, since, reports⟩ := right _ _ _ [] (whole.trans (by rw [List.append_nil])) rfl unread (Or.inl rfl)
    systemSub (List.mem_cons_of_mem _ List.mem_cons_self)
  rcases mixedCall_states whole since with rfl | rfl
  · have banner := reports "/system/config/motd-banner".toList (by decide +kernel) (by decide +kernel)
      (.stringVal "ORv3 PSC mock".toList)
    have stored : ((registry.snapshot beforeRename (gnmiToXpath systemSub.path)).snap[
        "/system/config/motd-banner".toList]?).map Leaf.val = some (.stringVal "ORv3 PSC mock".toList) := by
      decide +kernel
    exact silent (banner.mpr (Option.map_eq_some_iff.mp stored))
  · have name := reports "/system/config/hostname".toList (by decide +kernel) (by decide +kernel)
      (.stringVal "psc-mock".toList)
    have renamed : ((registry.snapshot afterBoth (gnmiToXpath systemSub.path)).snap[
        "/system/config/hostname".toList]?).map Leaf.val = some (.stringVal "psc-2".toList) := by
      decide +kernel
    rw [Option.map_eq_some_iff.mpr (name.mp sent)] at renamed
    exact absurd renamed (by decide)

end Telemetry
end PscMockServer
