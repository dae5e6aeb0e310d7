import PscMockServer.Telemetry.StreamEntries

namespace PscMockServer
namespace Telemetry

open Foundations Gnmi Utils Backend Gnmi.Subscribe

/-!
# When a SAMPLE entry is sampled

Each SAMPLE entry of a stream is a sampler that is polled once in every pass, and the
entries that are due share one batch.  A batch is decided by the history of the stream:
by the readings of its passes so far, not by anything the store holds.
-/

variable {σ : Type} {reg : DataProviderRegistry σ}

/-! ## The stream pass by pass -/

/-- The responses that samples wrote. -/
def samplesSent (sent : List Sent) : List Sent :=
  sent.filter (fun response => decide (response.site = .sample))

/-- A stream goes on where its passes so far left it. -/
theorem streamLoop_append (list : SubscriptionList) (front rest : List (LoopPass σ)) (buckets : Buckets)
    (sent : List Sent) (open_ : (streamLoop reg list front buckets sent).1.isOk = true) :
    streamLoop reg list (front ++ rest) buckets sent =
      streamLoop reg list rest (bucketsAfter reg front buckets) (streamLoop reg list front buckets sent).2 := by
  induction front generalizing buckets sent with
  | nil => rfl
  | cons pass front inductionHypothesis =>
      unfold streamLoop at open_
      rw [List.cons_append]
      conv_lhs => unfold streamLoop
      conv_rhs => rw [streamLoop.eq_def reg list (pass :: front)]
      dsimp only at open_ ⊢
      by_cases okay : (runSample reg list pass buckets.chronomap).1.isOk = true
      · rw [okay, Bool.not_true, if_neg Bool.false_ne_true] at open_ ⊢
        rw [if_neg Bool.false_ne_true]
        exact inductionHypothesis _ _ open_
      · rw [Bool.not_eq_true] at okay
        rw [okay, Bool.not_false, if_pos rfl, okay] at open_
        cases open_

/-- The stream after a further pass, from the stream before it. -/
theorem handleStream_snoc (timing : StreamTiming σ) (list : SubscriptionList) (front : List (LoopPass σ))
    (pass : LoopPass σ) (open_ : (handleStream reg { timing with passes := front } list).1.isOk = true) :
    (∀ sub ∈ list.subscription, sub.sampleInterval.toNat ≤ maxInterval) ∧
      handleStream reg { timing with passes := front ++ [pass] } list =
        streamLoop reg list [pass] (bucketsAfter reg front (openingBuckets reg timing list))
          (handleStream reg { timing with passes := front } list).2 := by
  have bounded := bounded_of_isOk open_
  rcases handleStream_of_isOk open_ with ⟨started, whole⟩
  have opening : ∀ passes, openingBuckets reg { timing with passes := passes } list =
      openingBuckets reg timing list := fun passes => fillBuckets_passes timing passes list.subscription 0 {}
  rw [whole, opening] at open_
  refine ⟨bounded, ?_⟩
  rw [handleStream_of_bounded _ bounded, whole, opening, opening front]
  have startedToo : (initialBuild reg { timing with passes := front ++ [pass] } list).1.isOk = true := started
  rw [if_pos startedToo]
  exact streamLoop_append list front [pass] _ _ open_

theorem samplesSent_append (first second : List Sent) :
    samplesSent (first ++ second) = samplesSent first ++ samplesSent second :=
  List.filter_append _ _

theorem samplesSent_writeAll (notes : List Notification) :
    samplesSent (writeAll .sample notes) = writeAll .sample notes :=
  List.filter_eq_self.mpr (fun sent member => by
    rcases mem_writeAll member with ⟨n, _, rfl⟩
    rfl)

theorem samplesSent_pollWrites (pass : LoopPass σ) (entries : List OnChangeSub) :
    samplesSent (pollWrites reg pass entries) = [] :=
  List.filter_eq_nil_iff.mpr (fun sent member => by
    rcases mem_pollWrites member with ⟨j, oc, _, n, _, rfl⟩
    exact Bool.false_ne_true)

/-- A batch of samples succeeds, or has nothing in it. -/
theorem runSample_outcome (list : SubscriptionList) (pass : LoopPass σ)
    (chronomap : List (Subscription × Int)) :
    (runSample reg list pass chronomap).1 = Status.OK ∨
      (runSample reg list pass chronomap).1.isOk = false ∧ (runSample reg list pass chronomap).2 = [] := by
  rcases runSample_cases reg list pass chronomap with nothing | batch
  · rw [nothing]
    exact Or.inl rfl
  · rw [batch]
    by_cases buildable : Buildable reg (dueList list pass chronomap)
    · exact Or.inl (congrArg Prod.fst (build_of_buildable _ _ buildable))
    · refine Or.inr ⟨?_, build_of_not_buildable _ _ buildable⟩
      rw [Bool.eq_false_iff, ne_eq, build_isOk_iff]
      exact buildable

/-- A pass samples one batch, and only the batch's error ends the stream. -/
theorem samplesSent_pass (list : SubscriptionList) (pass : LoopPass σ) (buckets : Buckets)
    (sent : List Sent) :
    let batch := runSample reg list pass buckets.chronomap
    samplesSent (streamLoop reg list [pass] buckets sent).2 = samplesSent sent ++ writeAll .sample batch.2 ∧
      (streamLoop reg list [pass] buckets sent).1 = batch.1 := by
  intro batch
  rw [streamLoop]
  rcases runSample_outcome list pass buckets.chronomap with okay | ⟨failed, nothing⟩
  · have passed : (runSample reg list pass buckets.chronomap).1.isOk = true := by
      rw [okay]
      rfl
    rw [passed, Bool.not_true, if_neg Bool.false_ne_true]
    constructor
    · change samplesSent (sent ++ writeAll .sample batch.2 ++ pollWrites reg pass buckets.onChange) = _
      rw [samplesSent_append, samplesSent_append, samplesSent_writeAll, samplesSent_pollWrites,
        List.append_nil]
    · exact okay.symm
  · rw [failed, Bool.not_false, if_pos rfl]
    refine ⟨?_, rfl⟩
    change samplesSent sent = samplesSent sent ++ writeAll .sample (runSample reg list pass buckets.chronomap).2
    rw [nothing]
    exact (List.append_nil _).symm

/-- The samples of a stream, pass by pass.  A stream without passes has sampled nothing.
As long as it is open, a further pass samples the entries that are due by the history of
the stream, in their order and in one batch, and closes the stream only with the error of
this batch; a pass for which none is due samples nothing.  Each entry's samples, and its
first one and its set-up, are more than its interval apart; and on a clock that does not go
back, their number times the interval fits into the time from the set-up to the last. -/
theorem sample_cadence (reg : DataProviderRegistry σ) (timing : StreamTiming σ) (list : SubscriptionList) :
    let stream := fun passes => handleStream reg { timing with passes := passes } list
    samplesSent (stream []).2 = [] ∧
      (∀ front pass, (stream front).1.isOk = true ->
        let due := sampledAfter (sampleEntries reg timing list) front pass
        let batch := buildSubscribeNotifications reg pass.sampleAt pass.sampleClock (withSubscriptions list due)
        samplesSent (stream (front ++ [pass])).2 = samplesSent (stream front).2 ++
            (if due = [] then [] else writeAll .sample batch.2) ∧
          (stream (front ++ [pass])).1 = if due = [] then Status.OK else batch.1) ∧
      ∀ j sub start, (sampleEntries reg timing list)[j]? = some (sub, start) -> ∀ passes : List (LoopPass σ),
        let interval : Int := sub.sampleInterval.toNat
        let taken := Sampler.samples interval (samplePolls j passes) start
        Sampler.Spaced interval start taken ∧
          (Sampler.Forward interval start (samplePolls j passes) ->
            (taken.length : Int) * interval ≤
              Sampler.lastSample interval start (samplePolls j passes) - start) := by
  intro stream
  refine ⟨?_, fun front pass open_ => ?_, fun j sub start _ passes =>
    ⟨Sampler.samples_spaced _, Sampler.samples_rate⟩⟩
  · apply List.filter_eq_nil_iff.mpr
    intro sent member isSample
    have site := of_decide_eq_true isSample
    rcases mem_handleStream member with opening | ⟨front, pass, isFront, _⟩
    · rcases List.mem_append.mp opening with built | synced
      · rcases mem_writeAll built with ⟨n, _, rfl⟩
        cases site
      · rw [List.mem_singleton.mp synced] at site
        cases site
    · exact List.append_ne_nil_of_right_ne_nil front (List.cons_ne_nil pass []) (List.prefix_nil.mp isFront)
  · intro due batch
    rcases handleStream_snoc timing list front pass open_ with ⟨bounded, further⟩
    have isDue : dueSubscriptions pass
        (bucketsAfter reg front (openingBuckets reg timing list)).chronomap = due :=
      dueSubscriptions_after timing bounded front pass
    have sampled : runSample reg list pass
        (bucketsAfter reg front (openingBuckets reg timing list)).chronomap =
          if due = [] then (Status.OK, []) else batch := by
      rw [runSample, isDue]
      simp only [List.isEmpty_iff]
      rfl
    change samplesSent (handleStream reg { timing with passes := front ++ [pass] } list).2 = _ ∧
      (handleStream reg { timing with passes := front ++ [pass] } list).1 = _
    have outcome := @samplesSent_pass σ reg list pass
      (bucketsAfter reg front (openingBuckets reg timing list))
      (handleStream reg { timing with passes := front } list).2
    rw [sampled] at outcome
    rw [further]
    by_cases none_ : due = []
    · rw [if_pos none_] at outcome
      rw [if_pos none_, if_pos none_]
      exact outcome
    · rw [if_neg none_] at outcome
      rw [if_neg none_, if_neg none_]
      exact outcome

end Telemetry
end PscMockServer
