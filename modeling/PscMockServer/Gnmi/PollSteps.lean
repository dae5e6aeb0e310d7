import PscMockServer.Foundations.Runs
import PscMockServer.Gnmi.Streams
import Mathlib.Data.Prod.Lex
import Mathlib.Order.WellFounded

namespace PscMockServer
namespace Gnmi
namespace Subscribe

open Foundations Utils Backend

/-!
# The steps of a POLL call

`handlePoll` as it runs beside the commits of other threads: one snapshot, one write and
one read at a time.  A log keeps what happened in its order.  Every snapshot is one of the
store of its moment, and every step of the handler brings the call nearer to its end.
-/

variable {σ : Type}

/-! ## The call -/

/-- What happens during a call. -/
inductive PollEvent (σ : Type) where
  | read (request : SubscribeRequest)
  | snapshot (sub : Subscription) (s : σ)
  | write (response : SubscribeResponse)
  | commit (s : σ)
deriving DecidableEq

/-- Where the handler stands. -/
inductive PollPhase where
  | building (i : Nat) (pending : List Subscription) (merged : Snapshot)
  | writing (pending : List SubscribeResponse)
  | reading
  | ended (status : Status)
deriving DecidableEq

/-- The state of the server, the messages the handler has not read yet, and its own state. -/
structure PollCall (σ : Type) where
  store : σ
  inbox : List SubscribeRequest
  phase : PollPhase
  log : List (PollEvent σ)

/-- The handler makes a step, with the clock readings of the notifications it may build, or
another thread commits. -/
inductive PollMove (σ : Type) where
  | server (clock : Nat -> Int)
  | commit (s : σ)

/-- The encoding is checked before the first snapshot. -/
def startBuild (list : SubscriptionList) : PollPhase :=
  if list.encoding ≠ .json ∧ list.encoding ≠ .jsonIetf then
    .ended ⟨.unimplemented, list.encoding.name⟩
  else .building 0 list.subscription ∅

/-- One iteration of the merge loop, or the notifications of the merged snapshots. -/
def buildStep (reg : DataProviderRegistry σ) (list : SubscriptionList) (clock : Nat -> Int)
    (call : PollCall σ) (i : Nat) (merged : Snapshot) : List Subscription -> PollCall σ
  | [] =>
      let out := (buildFullNotifications merged reg clock).map (withRequestPrefix list.pathPrefix)
      { call with phase := .writing (out.map .update ++ [.syncResponse]) }
  | sub :: rest =>
      let status := validateGnmiPath sub.path
      if !status.isOk then { call with phase := .ended status }
      else
        let xpath := gnmiToXpath sub.path
        let res := reg.snapshot call.store xpath
        if !res.routed then
          { call with
            phase := .ended ⟨.unimplemented, "path not implemented: ".toList ++ xpath⟩ }
        else
          { call with
            phase := .building (i + 1) rest (OrdMap.mergeKeep merged res.snap)
            log := call.log ++ [.snapshot sub call.store] }

/-- `stream->Read` and the switch on what it read. -/
def readStep (list : SubscriptionList) (call : PollCall σ) : PollCall σ :=
  match call.inbox with
  | [] => { call with phase := .ended Status.OK }
  | request :: rest =>
      let after : PollCall σ := { call with inbox := rest, log := call.log ++ [.read request] }
      match request.request with
      | .poll => { after with phase := startBuild list }
      | .subscribe _ =>
          { after with
            phase := .ended ⟨.invalidArgument,
              "A SubscriptionList has already been received for this RPC".toList⟩ }
      | .notSet =>
          { after with
            phase := .ended ⟨.invalidArgument, "Unknown content for SubscribeRequest message".toList⟩ }

def serverStep (reg : DataProviderRegistry σ) (list : SubscriptionList) (clock : Nat -> Int)
    (call : PollCall σ) : PollCall σ :=
  match call.phase with
  | .building i pending merged => buildStep reg list clock call i merged pending
  | .writing [] => { call with phase := .reading }
  | .writing (response :: pending) =>
      { call with phase := .writing pending, log := call.log ++ [.write response] }
  | .reading => readStep list call
  | .ended _ => call

def pollMove (reg : DataProviderRegistry σ) (list : SubscriptionList) (call : PollCall σ) :
    PollMove σ -> PollCall σ
  | .server clock => serverStep reg list clock call
  | .commit s => { call with store := s, log := call.log ++ [.commit s] }

/-- The call when its first message has been read. -/
def openCall (list : SubscriptionList) (start : σ) (messages : List SubscribeRequest) : PollCall σ where
  store := start
  inbox := messages
  phase := startBuild list
  log := [.read { request := .subscribe list }]

/-! ## What the log tells -/

/-- The log without the commits of the others. -/
def serverLog (log : List (PollEvent σ)) : List (PollEvent σ) :=
  log.filter (fun event => match event with
    | .commit _ => false
    | _ => true)

/-- The responses in the order in which they are written. -/
def writes (log : List (PollEvent σ)) : List SubscribeResponse :=
  log.filterMap (fun event => match event with
    | .write response => some response
    | _ => none)

/-- The state of the server after the commits of a log. -/
def storeAfter (start : σ) (log : List (PollEvent σ)) : σ :=
  log.foldl (fun s event => match event with
    | .commit s' => s'
    | _ => s) start

/-- Every snapshot of the log is one of the state of its moment. -/
def SnapshotsCurrent (start : σ) (log : List (PollEvent σ)) : Prop :=
  ∀ front sub s back, log = front ++ .snapshot sub s :: back -> s = storeAfter start front

/-! ## The store at each moment -/

theorem serverLog_append (log more : List (PollEvent σ)) :
    serverLog (log ++ more) = serverLog log ++ serverLog more :=
  List.filter_append log more

theorem storeAfter_append (start : σ) (log more : List (PollEvent σ)) :
    storeAfter start (log ++ more) = storeAfter (storeAfter start log) more :=
  List.foldl_append

theorem SnapshotsCurrent.snoc {start : σ} {log : List (PollEvent σ)} (current : SnapshotsCurrent start log)
    {event : PollEvent σ} (now : ∀ sub s, event = .snapshot sub s -> s = storeAfter start log) :
    SnapshotsCurrent start (log ++ [event]) := by
  intro front sub s back whole
  rcases List.eq_nil_or_concat' back with rfl | ⟨before, last, rfl⟩
  · obtain ⟨rfl, same⟩ := List.append_inj' whole rfl
    exact now sub s (List.cons.inj same).1
  · rw [← List.cons_append, ← List.append_assoc] at whole
    obtain ⟨rfl, _⟩ := List.append_inj' whole rfl
    exact current front sub s before rfl

/-- The store is the one of the log, and every snapshot was taken of the store. -/
def Current (start : σ) (call : PollCall σ) : Prop :=
  call.store = storeAfter start call.log ∧ SnapshotsCurrent start call.log

/-- A step of the handler leaves the store alone and adds at most one event, which is no
commit and, if it is a snapshot, one of the store. -/
def Adds (call next : PollCall σ) : Prop :=
  next.store = call.store ∧ (next.log = call.log ∨ ∃ event, next.log = call.log ++ [event] ∧
    (∀ s, event ≠ .commit s) ∧ ∀ sub s, event = .snapshot sub s -> s = call.store)

theorem serverStep_adds (reg : DataProviderRegistry σ) (list : SubscriptionList) (clock : Nat -> Int)
    (call : PollCall σ) : Adds call (serverStep reg list clock call) := by
  have quiet : ∀ phase, Adds call { call with phase := phase } := fun _ => ⟨rfl, Or.inl rfl⟩
  have reads : ∀ request inbox phase, Adds call
      { call with inbox := inbox, phase := phase, log := call.log ++ [.read request] } :=
    fun request _ _ => ⟨rfl, Or.inr ⟨.read request, rfl, by simp, by simp⟩⟩
  unfold serverStep
  split
  · next i pending merged _ =>
      cases pending with
      | nil => exact quiet _
      | cons sub rest =>
          unfold buildStep
          dsimp only
          split
          · exact quiet _
          · split
            · exact quiet _
            · refine ⟨rfl, Or.inr ⟨.snapshot sub call.store, rfl, by simp, ?_⟩⟩
              rintro _ _ ⟨⟩
              rfl
  · exact quiet _
  · next response _ _ => exact ⟨rfl, Or.inr ⟨.write response, rfl, by simp, by simp⟩⟩
  · unfold readStep
    split
    · exact quiet _
    · dsimp only
      split
      · exact reads _ _ _
      · exact reads _ _ _
      · exact reads _ _ _
  · exact quiet _

theorem current_pollMove {reg : DataProviderRegistry σ} {list : SubscriptionList} {start : σ}
    {call : PollCall σ} (current : Current start call) (move : PollMove σ) :
    Current start (pollMove reg list call move) := by
  obtain ⟨isStore, snapshots⟩ := current
  cases move with
  | commit s =>
      refine ⟨?_, snapshots.snoc (fun sub s same => nomatch same)⟩
      change s = storeAfter start (call.log ++ [.commit s])
      rw [storeAfter_append]
      rfl
  | server clock =>
      obtain ⟨sameStore, same | ⟨event, added, noCommit, isNow⟩⟩ := serverStep_adds reg list clock call
      · rw [Current, pollMove, sameStore, same]
        exact ⟨isStore, snapshots⟩
      · rw [Current, pollMove, sameStore, added, storeAfter_append]
        refine ⟨?_, snapshots.snoc (fun sub s same => (isNow sub s same).trans isStore)⟩
        rw [isStore]
        cases event with
        | commit s => exact absurd rfl (noCommit s)
        | read request => rfl
        | snapshot sub s => rfl
        | write response => rfl

theorem current_openCall (list : SubscriptionList) (start : σ) (messages : List SubscribeRequest) :
    Current start (openCall list start messages) := by
  have nothing : SnapshotsCurrent start ([] : List (PollEvent σ)) := by
    intro front sub s back none
    simp at none
  exact ⟨rfl, nothing.snoc (fun sub s same => nomatch same)⟩

/-- A commit of the log is a move of the run. -/
theorem commit_of_mem_log (reg : DataProviderRegistry σ) (list : SubscriptionList) (start : σ)
    (messages : List SubscribeRequest) (moves : List (PollMove σ)) {s : σ}
    (logged : .commit s ∈ (runSteps (pollMove reg list) (openCall list start messages) moves).log) :
    .commit s ∈ moves := by
  induction moves using List.reverseRecOn with
  | nil => exact nomatch List.mem_singleton.mp logged
  | append_singleton moves move inductionHypothesis =>
      rw [runSteps_snoc] at logged
      cases move with
      | commit other =>
          rcases List.mem_append.mp logged with earlier | here
          · exact List.mem_append_left _ (inductionHypothesis earlier)
          · cases List.mem_singleton.mp here
            exact List.mem_append_right _ List.mem_cons_self
      | server clock =>
          apply List.mem_append_left
          apply inductionHypothesis
          obtain ⟨_, same | ⟨event, added, noCommit, _⟩⟩ := serverStep_adds reg list clock
            (runSteps (pollMove reg list) (openCall list start messages) moves)
          · rw [pollMove, same] at logged
            exact logged
          · rw [pollMove, added] at logged
            refine (List.mem_append.mp logged).resolve_right (fun here => ?_)
            exact noCommit s (List.mem_singleton.mp here).symm

/-- What holds of the first state and of every committed one holds of the store at any
moment. -/
theorem storeAfter_of_commits {P : σ -> Prop} {start : σ} {log : List (PollEvent σ)} (first : P start)
    (commits : ∀ s, .commit s ∈ log -> P s) : P (storeAfter start log) := by
  induction log using List.reverseRecOn with
  | nil => exact first
  | append_singleton log event inductionHypothesis =>
      have before := inductionHypothesis (fun s member => commits s (List.mem_append_left _ member))
      rw [storeAfter_append]
      cases event with
      | commit s => exact commits s (List.mem_append_right _ List.mem_cons_self)
      | read request => exact before
      | snapshot sub s => exact before
      | write response => exact before

/-! ## Every step of the handler brings it nearer to its end -/

/-- Where a phase stands within one answer, and what is pending there. -/
def PollPhase.place : PollPhase -> Nat ×ₗ Nat
  | .building _ pending _ => toLex (3, pending.length)
  | .writing pending => toLex (2, pending.length)
  | .reading => toLex (1, 0)
  | .ended _ => toLex (0, 0)

/-- How far the end is: the unread messages first, then the rest of the current answer. -/
def callRank (call : PollCall σ) : Nat ×ₗ Nat ×ₗ Nat :=
  toLex (call.inbox.length, call.phase.place)

def Ended (call : PollCall σ) : Prop :=
  ∃ status, call.phase = .ended status

def PollMove.IsServer : PollMove σ -> Prop
  | .server _ => True
  | .commit _ => False

theorem callRank_commit (reg : DataProviderRegistry σ) (list : SubscriptionList) (call : PollCall σ)
    (move : PollMove σ) (foreign : ¬ move.IsServer) : callRank (pollMove reg list call move) = callRank call := by
  cases move with
  | server clock => exact absurd trivial foreign
  | commit s => rfl

theorem callRank_lt_of_phase {call next : PollCall σ} (sameInbox : next.inbox = call.inbox)
    (nearer : next.phase.place < call.phase.place) : callRank next < callRank call := by
  rw [callRank, callRank, Prod.Lex.toLex_lt_toLex, sameInbox]
  exact Or.inr ⟨rfl, nearer⟩

theorem callRank_buildStep (reg : DataProviderRegistry σ) (list : SubscriptionList) (clock : Nat -> Int)
    {call : PollCall σ} {i : Nat} {pending : List Subscription} {merged : Snapshot}
    (building : call.phase = .building i pending merged) :
    callRank (buildStep reg list clock call i merged pending) < callRank call := by
  have ends : ∀ status, (PollPhase.ended status).place < call.phase.place := by
    intro status
    rw [building, PollPhase.place, PollPhase.place, Prod.Lex.toLex_lt_toLex]
    exact Or.inl (Nat.zero_lt_succ 2)
  cases pending with
  | nil =>
      refine callRank_lt_of_phase rfl ?_
      rw [building, buildStep, PollPhase.place, PollPhase.place, Prod.Lex.toLex_lt_toLex]
      exact Or.inl (Nat.lt_succ_self _)
  | cons sub rest =>
      unfold buildStep
      dsimp only
      split
      · exact callRank_lt_of_phase rfl (ends _)
      · split
        · exact callRank_lt_of_phase rfl (ends _)
        · refine callRank_lt_of_phase rfl ?_
          rw [building, PollPhase.place, PollPhase.place, Prod.Lex.toLex_lt_toLex]
          exact Or.inr ⟨rfl, Nat.lt_succ_self _⟩

theorem callRank_readStep (list : SubscriptionList) {call : PollCall σ} (reading : call.phase = .reading) :
    callRank (readStep list call) < callRank call := by
  have shorter : ∀ request rest phase, call.inbox = request :: rest -> callRank
      { call with inbox := rest, phase := phase, log := call.log ++ [.read request] } < callRank call := by
    intro request rest phase waiting
    rw [callRank, callRank, Prod.Lex.toLex_lt_toLex, waiting]
    exact Or.inl (Nat.lt_succ_self _)
  unfold readStep
  split
  · refine callRank_lt_of_phase rfl ?_
    rw [reading, PollPhase.place, PollPhase.place, Prod.Lex.toLex_lt_toLex]
    exact Or.inl (Nat.lt_succ_self _)
  · next request rest waiting =>
      dsimp only
      split
      · exact shorter request rest _ waiting
      · exact shorter request rest _ waiting
      · exact shorter request rest _ waiting

theorem callRank_serverStep (reg : DataProviderRegistry σ) (list : SubscriptionList)
    (clock : Nat -> Int) {call : PollCall σ} (going : ¬ Ended call) :
    callRank (serverStep reg list clock call) < callRank call := by
  unfold serverStep
  split
  · next building => exact callRank_buildStep reg list clock building
  · next written =>
      refine callRank_lt_of_phase rfl ?_
      rw [written, PollPhase.place, PollPhase.place, Prod.Lex.toLex_lt_toLex]
      exact Or.inl (Nat.lt_succ_self _)
  · next response pending writing =>
      refine callRank_lt_of_phase rfl ?_
      rw [writing, PollPhase.place, PollPhase.place, Prod.Lex.toLex_lt_toLex]
      exact Or.inr ⟨rfl, Nat.lt_succ_self _⟩
  · next reading => exact callRank_readStep list reading
  · next status ended => exact absurd ⟨status, ended⟩ going

/-- A call whose handler is scheduled again and again comes to its end. -/
theorem pollCall_ends (reg : DataProviderRegistry σ) (list : SubscriptionList) (call : PollCall σ)
    {schedule : Nat -> PollMove σ} (fair : Fair PollMove.IsServer schedule) :
    ∃ n, Ended (stateAt (pollMove reg list) call schedule n) := by
  refine fair_reaches_final (pollMove reg list) PollMove.IsServer Ended callRank
    (callRank_commit reg list) ?_ call fair
  intro call move own going
  cases move with
  | server clock => exact callRank_serverStep reg list clock going
  | commit s => exact absurd own id

end Subscribe
end Gnmi
end PscMockServer
