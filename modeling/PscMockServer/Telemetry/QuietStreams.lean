import PscMockServer.Telemetry.ExactEmissions
import PscMockServer.Telemetry.SampleCadence

namespace PscMockServer
namespace Telemetry

open Foundations Gnmi Utils Backend Gnmi.Subscribe

/-!
# The ON_CHANGE half of a stream

In each pass an entry sends one of two things: everything, when its heartbeat is due, and
else what changed since its last poll.  So it is silent exactly as long as the values it is
about stay as they are, but for its heartbeats.
-/

variable {σ : Type} {reg : DataProviderRegistry σ}

/-! ## Open streams -/

theorem streamLoop_front (list : SubscriptionList) (front rest : List (LoopPass σ)) (buckets : Buckets)
    (sent : List Sent) (open_ : (streamLoop reg list (front ++ rest) buckets sent).1.isOk = true) :
    (streamLoop reg list front buckets sent).1.isOk = true := by
  induction front generalizing buckets sent with
  | nil => rfl
  | cons pass front inductionHypothesis =>
      rw [List.cons_append, streamLoop] at open_
      rw [streamLoop]
      split at open_
      · next failed =>
          rw [Bool.not_eq_true'] at failed
          exact absurd (failed.symm.trans open_) Bool.false_ne_true
      · next sampled =>
          rw [if_neg sampled]
          exact inductionHypothesis _ _ open_

/-- A stream that is open after some passes was open after the first ones. -/
theorem open_front {timing : StreamTiming σ} {list : SubscriptionList} {front rest : List (LoopPass σ)}
    (open_ : (streamAfter reg timing list (front ++ rest)).1.isOk = true) :
    (streamAfter reg timing list front).1.isOk = true := by
  have bounded := bounded_of_isOk open_
  rcases handleStream_of_isOk open_ with ⟨started, whole⟩
  have opening : ∀ passes, openingBuckets reg { timing with passes := passes } list =
      openingBuckets reg timing list := fun passes => fillBuckets_passes timing passes list.subscription 0 {}
  have startedToo : (initialBuild reg { timing with passes := front } list).1.isOk = true := started
  rw [streamAfter, whole, opening] at open_
  rw [streamAfter, handleStream_of_bounded _ bounded, if_pos startedToo, opening]
  exact streamLoop_front list front rest _ _ open_

/-- Steady data keep a stream quiet.  Where all that an ON_CHANGE entry finds in some last
passes of an open stream has the values it found in the poll before them, or at its set-up,
each of these passes sends for it everything when its heartbeat is due and nothing when it
is not; so without a heartbeat interval the entry has sent all it sends when they begin. -/
theorem quiet_when_steady (reg : DataProviderRegistry σ) {timing : StreamTiming σ}
    {list : SubscriptionList} {before rest : List Subscription} {sub : Subscription}
    (listed : list.subscription = before ++ sub :: rest) (onChange : resolveStreamMode sub reg = .onChange)
    {front steady : List (LoopPass σ)}
    (open_ : (streamAfter reg timing list (front ++ steady)).1.isOk = true)
    (unchanged : ∀ pass ∈ steady, ∀ key,
      LeafStore.valueAt (reg.snapshot (pass.pollAt (entryNumber reg timing before))
          (gnmiToXpath sub.path)).snap key =
        LeafStore.valueAt (reg.snapshot
          (stateBefore timing before.length (entryNumber reg timing before) front)
          (gnmiToXpath sub.path)).snap key) :
    let j := entryNumber reg timing before
    let sent := fun passes => entrySent j (streamAfter reg timing list passes).2
    (∀ mid pass, mid ++ [pass] <+: steady ->
      sent (front ++ (mid ++ [pass])) = sent (front ++ mid) ++
        if beatDue sub.heartbeatInterval (timing.setupNow before.length) j (front ++ mid) pass then
          (buildFullNotifications (reg.snapshot (pass.pollAt j) (gnmiToXpath sub.path)).snap reg
            (pass.pollClock j)).map SubscribeResponse.update
        else []) ∧
    (sub.heartbeatInterval = 0 -> sent (front ++ steady) = sent front) := by
  intro j sent
  have asBefore : ∀ mid, mid <+: steady -> ∀ key,
      LeafStore.valueAt (reg.snapshot (stateBefore timing before.length j (front ++ mid))
          (gnmiToXpath sub.path)).snap key =
        LeafStore.valueAt (reg.snapshot (stateBefore timing before.length j front)
          (gnmiToXpath sub.path)).snap key := by
    intro mid isFront key
    cases mid using List.reverseRecOn with
    | nil => rw [List.append_nil]
    | append_singleton mid last =>
        rw [← List.append_assoc, stateBefore_snoc]
        exact unchanged last (mem_of_snoc isFront) key
  have passes : ∀ mid pass, mid ++ [pass] <+: steady ->
      sent (front ++ (mid ++ [pass])) = sent (front ++ mid) ++
        if beatDue sub.heartbeatInterval (timing.setupNow before.length) j (front ++ mid) pass then
          (buildFullNotifications (reg.snapshot (pass.pollAt j) (gnmiToXpath sub.path)).snap reg
            (pass.pollClock j)).map SubscribeResponse.update
        else [] := by
    intro mid pass isFront
    rcases isFront with ⟨later, whole⟩
    have openHere : (streamAfter reg timing list (front ++ mid ++ [pass])).1.isOk = true := by
      rw [← whole, ← List.append_assoc, ← List.append_assoc] at open_
      exact open_front open_
    have midFront : mid <+: steady := ⟨[pass] ++ later, by rw [← List.append_assoc]; exact whole⟩
    have silent := (buildChange_nil_iff
      (reg.snapshot (stateBefore timing before.length j (front ++ mid)) (gnmiToXpath sub.path)).snap
      (reg.snapshot (pass.pollAt j) (gnmiToXpath sub.path)).snap reg (pass.pollClock j)).mpr
      (fun key => (asBefore mid midFront key).trans
        (unchanged pass (mem_of_snoc ⟨later, whole⟩) key).symm)
    have step := entrySent_snoc listed onChange openHere
    rw [← List.append_assoc]
    refine step.trans (congrArg _ ?_)
    dsimp only [pollNotes]
    rw [silent]
    split
    · rfl
    · rfl
  refine ⟨passes, fun never => ?_⟩
  have quiet : ∀ mid, mid <+: steady -> sent (front ++ mid) = sent front := by
    intro mid
    induction mid using List.reverseRecOn with
    | nil => exact fun _ => congrArg sent (List.append_nil front)
    | append_singleton mid pass inductionHypothesis =>
        intro isFront
        have notDue : beatDue sub.heartbeatInterval (timing.setupNow before.length) j (front ++ mid) pass =
            false := by
          rw [beatDue, heartbeatDue, if_pos never]
        rw [passes mid pass isFront, notDue, if_neg Bool.false_ne_true, List.append_nil]
        exact inductionHypothesis ((List.prefix_append mid [pass]).trans isFront)
  exact quiet steady (List.prefix_refl steady)

/-- Two more polls after the rename send nothing. -/
theorem quiet_when_steady_hostname :
    entrySent (entryNumber Server.registry (renameTiming beforeRename) [])
        (streamAfter Server.registry (renameTiming beforeRename) hostnameList
          ([passAt afterRename] ++ [passAt afterRename, passAt afterRename])).2 =
      entrySent (entryNumber Server.registry (renameTiming beforeRename) [])
        (streamAfter Server.registry (renameTiming beforeRename) hostnameList [passAt afterRename]).2 := by
  have open_ : (streamAfter Server.registry (renameTiming beforeRename) hostnameList
      ([passAt afterRename] ++ [passAt afterRename, passAt afterRename])).1.isOk = true := by decide +kernel
  have listed : hostnameList.subscription = [] ++ hostnameSub :: [] := rfl
  refine (quiet_when_steady Server.registry listed rfl open_ ?_).2 rfl
  intro pass member key
  have same : pass = passAt afterRename := by
    rcases List.mem_pair.mp member with rfl | rfl
    · rfl
    · rfl
  rw [same]
  rfl

end Telemetry
end PscMockServer
