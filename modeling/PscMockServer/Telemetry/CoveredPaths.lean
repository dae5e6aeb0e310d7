import PscMockServer.Backend.Coverage
import PscMockServer.Telemetry.OnceAgrees
import PscMockServer.Telemetry.UpdatesOnly

namespace PscMockServer
namespace Telemetry

open Foundations Gnmi Utils Backend Gnmi.Subscribe Server

/-!
# Redundant subscriptions

The answer to a ONCE subscription or to a poll depends on what the subscribed paths select
together.  The order of the subscriptions, a path subscribed twice and a path below another
one change nothing in it.
-/

/-- Every path of the other list is selected by a path of this list. -/
def SelectsPathsOf (list other : SubscriptionList) : Prop :=
  ∀ sub ∈ other.subscription, ∃ top ∈ list.subscription,
    selects (storeKey top.path) (storeKey sub.path) = true

/-- The snapshots of one build are taken in one reachable state. -/
def InOneState (found : Nat -> Stores) : Prop :=
  ∃ s, Reachable s ∧ found = fun _ => s

variable {list other : SubscriptionList}

theorem SelectsPathsOf.selected {s : Stores} (covers : SelectsPathsOf list other) (inv : Invariant s) {key : Str}
    {leaf : Leaf} (selected : SelectedBySome s other key leaf) : SelectedBySome s list key leaf := by
  rcases selected with ⟨sub, listed, holds, inSub⟩
  rcases covers sub listed with ⟨top, topListed, covered⟩
  rcases inv.holds_canonical holds with ⟨segments, _, rfl⟩
  exact ⟨top, topListed, holds, selects_trans (bracketed_xpathOf segments) covered inSub⟩

/-- Lists that cover each other merge the same leaves. -/
theorem mergedReads_covers {s : Stores} (inv : Invariant s) (covers : SelectsPathsOf list other)
    (covered : SelectsPathsOf other list) (accepted : Buildable registry list)
    (otherAccepted : Buildable registry other) :
    mergedReads registry (fun _ => s) list.subscription 0 ∅ =
      mergedReads registry (fun _ => s) other.subscription 0 ∅ := by
  apply Std.ExtTreeMap.ext_getElem?
  intro key
  apply Option.ext
  intro leaf
  rw [mergedReads_steady inv accepted, mergedReads_steady inv otherAccepted]
  exact ⟨covered.selected inv, covers.selected inv⟩

section Covering

variable (samePrefix : list.pathPrefix = other.pathPrefix) (covers : SelectsPathsOf list other)
  (covered : SelectsPathsOf other list) (accepted : Buildable registry list)
  (otherAccepted : Buildable registry other)

include samePrefix covers covered accepted otherAccepted

theorem build_covers {found : Nat -> Stores} (steady : InOneState found) (clock : Nat -> Int) :
    buildSubscribeNotifications registry found clock list =
      buildSubscribeNotifications registry found clock other := by
  rcases steady with ⟨s, reachable, rfl⟩
  rw [build_of_buildable _ clock accepted, build_of_buildable _ clock otherAccepted,
    mergedReads_covers reachable.invariant covers covered accepted otherAccepted, samePrefix]

theorem pollLoop_covers {messages : List (ClientMessage Stores)}
    (steady : ∀ message ∈ messages, InOneState message.found) (sent : List Sent) :
    pollLoop registry list messages sent = pollLoop registry other messages sent := by
  induction messages generalizing sent with
  | nil => rfl
  | cons message rest inductionHypothesis =>
      have built := build_covers samePrefix covers covered accepted otherAccepted
        (steady message List.mem_cons_self) message.clock
      rw [pollLoop, pollLoop]
      cases message.request.request with
      | poll =>
          dsimp only
          rw [built]
          simp only [inductionHypothesis
            (fun later member => steady later (List.mem_cons_of_mem message member))]
      | subscribe again => rfl
      | notSet => rfl

end Covering

/-- Redundant subscriptions are ignored: two accepted lists in one of the modes ONCE and POLL,
with the same prefix, each of whose paths is selected by a path of the other list, get the
same status and the same responses, whatever is stored at the build of each answer. -/
theorem redundant_subscriptions_ignored {list other : SubscriptionList}
    (sameMode : list.mode = other.mode) (notStream : list.mode ≠ .stream)
    (samePrefix : list.pathPrefix = other.pathPrefix) (covers : SelectsPathsOf list other)
    (covered : SelectsPathsOf other list) (accepted : Buildable registry list)
    (otherAccepted : Buildable registry other) (timing : StreamTiming Stores)
    (initial : InOneState timing.initialAt) (messages : List (ClientMessage Stores))
    (polls : ∀ message ∈ messages, InOneState message.found) :
    Gnmi.Subscribe.run registry timing messages (subscribeTo list) =
      Gnmi.Subscribe.run registry timing messages (subscribeTo other) := by
  have built := build_covers samePrefix covers covered accepted otherAccepted initial timing.initialClock
  have polled := pollLoop_covers samePrefix covers covered accepted otherAccepted polls
  rw [run_subscribeTo, run_subscribeTo, ← sameMode]
  cases mode : list.mode with
  | stream => exact absurd mode notStream
  | once =>
      dsimp only
      rw [handleOnce, handleOnce, built]
  | poll =>
      dsimp only
      rw [handlePoll, handlePoll, built]
      simp only [polled]
  | unrecognized number => rfl

/-- Everything below `/system`, subscribed once. -/
def systemList : SubscriptionList :=
  withSubscriptions overlappingList [{ path := { elem := [⟨"system".toList, .empty⟩] } }]

/-- The host name beside `/system` is redundant. -/
theorem redundant_subscriptions_ignored_hostname :
    Gnmi.Subscribe.run registry (renameTiming beforeRename) [] (subscribeTo overlappingList) =
      Gnmi.Subscribe.run registry (renameTiming beforeRename) [] (subscribeTo systemList) := by
  have accepted : Buildable registry overlappingList :=
    (build_isOk_iff (fun _ => beforeRename) (fun _ => 5) overlappingList).mp (by decide +kernel)
  have otherAccepted : Buildable registry systemList := buildable_withSubscriptions accepted (by decide)
  have covers : SelectsPathsOf overlappingList systemList := by
    unfold SelectsPathsOf
    decide +kernel
  have covered : SelectsPathsOf systemList overlappingList := by
    unfold SelectsPathsOf
    decide +kernel
  exact @redundant_subscriptions_ignored overlappingList systemList rfl (by decide) rfl covers covered accepted
    otherAccepted (renameTiming beforeRename) ⟨beforeRename, beforeRename_reachable, rfl⟩ []
    (List.forall_mem_nil _)

end Telemetry
end PscMockServer
