import PscMockServer.Gnmi.Get
import PscMockServer.Gnmi.Set
import PscMockServer.Telemetry.UpdatesOnly

namespace PscMockServer

open Foundations Utils Backend Gnmi

/-!
# The service

`capabilities.cpp` and the four RPCs of `gnmi.cpp`.  Capabilities names two encodings.
The other RPCs answer a request in either of them with the same messages, since both are
written as the stored values are, and answer none in another one, but for the streams
that build nothing when they are set up.
-/

namespace Gnmi

structure ModelData where
  name : Str
  organization : Str
  version : Str
deriving DecidableEq

structure CapabilityRequest where
  extensionSize : Nat := 0
deriving DecidableEq

structure CapabilityResponse where
  supportedModels : List ModelData := []
  gnmiVersion : Str := []
  supportedEncodings : List Encoding := []
deriving DecidableEq

/-- `kSupportedModels`. -/
def supportedModels : List ModelData :=
  [ ⟨"openconfig-platform".toList, "OpenConfig working group".toList, "2021-01-18".toList⟩,
    ⟨"openconfig-platform-psu".toList, "OpenConfig working group".toList, "2018-11-21".toList⟩ ]

/-- The file option `gnmi_service` of `gnmi.proto`. -/
def gnmiService : Str := "0.10.0".toList

/-- `GNMIService::Capabilities`. -/
def capabilities (request : CapabilityRequest) : Status × CapabilityResponse :=
  if 0 < request.extensionSize then (⟨.unimplemented, "Extensions not implemented".toList⟩, {})
  else
    (Status.OK,
      { supportedModels := supportedModels
        gnmiVersion := gnmiService
        supportedEncodings := [.jsonIetf, .json] })

/-- What a client without extensions is told about encodings. -/
def advertisedEncodings : List Encoding :=
  (capabilities {}).2.supportedEncodings

theorem advertised_iff (encoding : Encoding) :
    encoding ∈ advertisedEncodings ↔ Subscribe.Encodable encoding := by
  rw [Subscribe.Encodable, or_comm]
  exact List.mem_pair

variable {σ : Type} {reg : DataProviderRegistry σ}

/-! ## Get -/

namespace Get

/-- The same request in another encoding. -/
def inEncoding (req : GetRequest) (encoding : Encoding) : GetRequest :=
  { req with encoding := encoding }

theorem build_inEncoding {encoding other : Encoding} (here : Subscribe.Encodable encoding)
    (there : Subscribe.Encodable other) (s : σ) (clock : Nat -> Int) (out : List Notification)
    (pre : Option Path) (path : Path) (type : DataType) :
    buildGetNotifications reg s clock out pre path encoding type =
      buildGetNotifications reg s clock out pre path other type := by
  rw [buildGetNotifications, buildGetNotifications, if_neg here.not_refused, if_neg there.not_refused]

theorem buildAll_inEncoding {encoding other : Encoding} (here : Subscribe.Encodable encoding)
    (there : Subscribe.Encodable other) (found : Nat -> σ) (clock : Nat -> Nat -> Int) (req : GetRequest)
    (paths : List Path) (i : Nat) (out : List Notification) :
    buildAll reg found clock (inEncoding req encoding) paths i out =
      buildAll reg found clock (inEncoding req other) paths i out := by
  induction paths generalizing i out with
  | nil => rfl
  | cons path rest inductionHypothesis =>
      have built : buildGetNotifications reg (found i) (clock i) out (inEncoding req encoding).pathPrefix path
          (inEncoding req encoding).encoding (inEncoding req encoding).type =
          buildGetNotifications reg (found i) (clock i) out (inEncoding req other).pathPrefix path
            (inEncoding req other).encoding (inEncoding req other).type :=
        build_inEncoding here there _ _ _ _ _ _
      rw [buildAll, buildAll, built]
      simp only [inductionHypothesis]

theorem verify_inEncoding {encoding other : Encoding} (here : Subscribe.Encodable encoding)
    (there : Subscribe.Encodable other) (req : GetRequest) :
    verifyGetRequest (inEncoding req encoding) = verifyGetRequest (inEncoding req other) := by
  rw [verifyGetRequest, verifyGetRequest]
  exact (if_neg here.not_refused).trans (if_neg there.not_refused).symm

theorem run_inEncoding {encoding other : Encoding} (here : Subscribe.Encodable encoding)
    (there : Subscribe.Encodable other) (found : Nat -> σ) (clock : Nat -> Nat -> Int) (req : GetRequest) :
    run reg found clock (inEncoding req encoding) = run reg found clock (inEncoding req other) := by
  rw [run, run, verify_inEncoding here there]
  dsimp only
  rw [buildAll_inEncoding here there found clock req]
  rfl

/-- An encoding without a case in the check is refused by its name. -/
theorem run_refused {encoding : Encoding} (unknown : ¬ Subscribe.Encodable encoding) (found : Nat -> σ)
    (clock : Nat -> Nat -> Int) (req : GetRequest) :
    run reg found clock (inEncoding req encoding) = (⟨.unimplemented, encoding.name⟩, {}) := by
  have refused : verifyGetRequest (inEncoding req encoding) = ⟨.unimplemented, encoding.name⟩ :=
    if_pos (not_or.mp unknown)
  rw [run, refused]
  rfl

end Get

/-! ## Subscribe -/

namespace Subscribe

/-- The same list in another encoding. -/
def inEncoding (list : SubscriptionList) (encoding : Encoding) : SubscriptionList :=
  { list with encoding := encoding }

theorem build_inEncoding {encoding other : Encoding} (here : Encodable encoding) (there : Encodable other)
    (found : Nat -> σ) (clock : Nat -> Int) (list : SubscriptionList) :
    buildSubscribeNotifications reg found clock (inEncoding list encoding) =
      buildSubscribeNotifications reg found clock (inEncoding list other) := by
  rw [buildSubscribeNotifications, buildSubscribeNotifications]
  exact (if_neg here.not_refused).trans (if_neg there.not_refused).symm

/-- An encoding without a case in the switch is refused by its name, whatever is asked. -/
theorem build_refused {encoding : Encoding} (unknown : ¬ Encodable encoding) (found : Nat -> σ)
    (clock : Nat -> Int) (list : SubscriptionList) :
    buildSubscribeNotifications reg found clock (inEncoding list encoding) =
      (⟨.unimplemented, encoding.name⟩, []) :=
  if_pos (not_or.mp unknown)

theorem runSample_inEncoding {encoding other : Encoding} (here : Encodable encoding) (there : Encodable other)
    (list : SubscriptionList) (pass : LoopPass σ) (chronomap : List (Subscription × Int)) :
    runSample reg (inEncoding list encoding) pass chronomap =
      runSample reg (inEncoding list other) pass chronomap := by
  have built : buildSubscribeNotifications reg pass.sampleAt pass.sampleClock
      { inEncoding list encoding with subscription := dueSubscriptions pass chronomap } =
      buildSubscribeNotifications reg pass.sampleAt pass.sampleClock
        { inEncoding list other with subscription := dueSubscriptions pass chronomap } :=
    build_inEncoding here there _ _ { list with subscription := dueSubscriptions pass chronomap }
  rw [runSample, runSample, built]

theorem streamLoop_inEncoding {encoding other : Encoding} (here : Encodable encoding)
    (there : Encodable other) (list : SubscriptionList) (passes : List (LoopPass σ)) (buckets : Buckets)
    (sent : List Sent) :
    streamLoop reg (inEncoding list encoding) passes buckets sent =
      streamLoop reg (inEncoding list other) passes buckets sent := by
  induction passes generalizing buckets sent with
  | nil => rfl
  | cons pass rest inductionHypothesis =>
      rw [streamLoop, streamLoop, runSample_inEncoding here there]
      simp only [inductionHypothesis]

theorem handleStream_inEncoding {encoding other : Encoding} (here : Encodable encoding)
    (there : Encodable other) (timing : StreamTiming σ) (list : SubscriptionList) :
    handleStream reg timing (inEncoding list encoding) = handleStream reg timing (inEncoding list other) := by
  rw [handleStream, handleStream, build_inEncoding here there]
  simp only [streamLoop_inEncoding here there]
  rfl

theorem pollLoop_inEncoding {encoding other : Encoding} (here : Encodable encoding) (there : Encodable other)
    (list : SubscriptionList) (messages : List (ClientMessage σ)) (sent : List Sent) :
    pollLoop reg (inEncoding list encoding) messages sent =
      pollLoop reg (inEncoding list other) messages sent := by
  induction messages generalizing sent with
  | nil => rfl
  | cons message rest inductionHypothesis =>
      rw [pollLoop, pollLoop]
      cases message.request.request with
      | poll =>
          dsimp only
          rw [build_inEncoding here there]
          simp only [inductionHypothesis]
      | subscribe again => rfl
      | notSet => rfl

/-- A Subscribe RPC for this list, in an encoding. -/
def runIn (reg : DataProviderRegistry σ) (timing : StreamTiming σ) (messages : List (ClientMessage σ))
    (list : SubscriptionList) (encoding : Encoding) : Status × List Sent :=
  run reg timing messages { request := .subscribe (inEncoding list encoding) }

theorem runIn_eq (timing : StreamTiming σ) (messages : List (ClientMessage σ)) (list : SubscriptionList)
    (encoding : Encoding) :
    runIn reg timing messages list encoding =
      match list.mode with
      | .stream => handleStream reg timing (inEncoding list encoding)
      | .once => handleOnce reg timing.initialAt timing.initialClock (inEncoding list encoding)
      | .poll => handlePoll reg timing.initialAt timing.initialClock messages (inEncoding list encoding)
      | .unrecognized _ => (⟨.unknown, "Unknown subscription mode".toList⟩, []) := rfl

theorem runIn_encodable {encoding other : Encoding} (here : Encodable encoding) (there : Encodable other)
    (timing : StreamTiming σ) (messages : List (ClientMessage σ)) (list : SubscriptionList) :
    runIn reg timing messages list encoding = runIn reg timing messages list other := by
  rw [runIn_eq, runIn_eq]
  cases list.mode with
  | stream => exact handleStream_inEncoding here there timing list
  | once =>
      dsimp only
      rw [handleOnce, handleOnce, build_inEncoding here there]
  | poll =>
      dsimp only
      rw [handlePoll, handlePoll, build_inEncoding here there]
      simp only [pollLoop_inEncoding here there]
  | unrecognized number => rfl

/-- The one kind of RPC that never comes to the check of the encoding before it answers: a
stream with acceptable intervals that builds nothing at its set-up. -/
def OpensUnchecked (list : SubscriptionList) : Prop :=
  list.mode = .stream ∧ list.updatesOnly = true ∧ ¬ Telemetry.IntervalRefused list

theorem handleStream_eq (timing : StreamTiming σ) (list : SubscriptionList) (encoding : Encoding) :
    handleStream reg timing (inEncoding list encoding) =
      if list.subscription.any (fun sub => decide (maxInterval < sub.sampleInterval.toNat)) then
        (⟨.invalidArgument,
          "sample_interval must be less than 9223372036854775807 nanoseconds".toList⟩, [])
      else
        let initial :=
          if list.updatesOnly then (Status.OK, [])
          else buildSubscribeNotifications reg timing.initialAt timing.initialClock (inEncoding list encoding)
        if !initial.1.isOk then (initial.1, [])
        else
          streamLoop reg (inEncoding list encoding) timing.passes
            (fillBuckets reg timing list.subscription 0 {}) (writeAll .build initial.2 ++ syncResponse) := rfl

theorem handleStream_unknown {encoding : Encoding} (unknown : ¬ Encodable encoding) (timing : StreamTiming σ)
    {list : SubscriptionList} (checked : list.updatesOnly = false ∨ Telemetry.IntervalRefused list) :
    (handleStream reg timing (inEncoding list encoding)).1.isOk = false ∧
      (handleStream reg timing (inEncoding list encoding)).2 = [] := by
  rw [handleStream_eq]
  by_cases refused : Telemetry.IntervalRefused list
  · rw [if_pos ((Telemetry.intervalRefused_iff list).mpr refused)]
    exact ⟨rfl, rfl⟩
  · have loud := checked.resolve_right refused
    rw [if_neg (fun long => refused ((Telemetry.intervalRefused_iff list).mp long)), loud,
      if_neg Bool.false_ne_true, build_refused unknown]
    exact ⟨rfl, rfl⟩

theorem runIn_unknown {encoding : Encoding} (unknown : ¬ Encodable encoding) (timing : StreamTiming σ)
    (messages : List (ClientMessage σ)) {list : SubscriptionList} (checked : ¬ OpensUnchecked list) :
    (runIn reg timing messages list encoding).1.isOk = false ∧
      (runIn reg timing messages list encoding).2 = [] := by
  rw [runIn_eq]
  cases mode : list.mode with
  | stream =>
      refine handleStream_unknown unknown timing ?_
      cases quiet : list.updatesOnly with
      | false => exact Or.inl rfl
      | true => exact Or.inr (Classical.not_not.mp fun intervals => checked ⟨mode, quiet, intervals⟩)
  | once =>
      dsimp only
      rw [handleOnce, build_refused unknown]
      exact ⟨rfl, rfl⟩
  | poll =>
      dsimp only
      rw [handlePoll, build_refused unknown]
      exact ⟨rfl, rfl⟩
  | unrecognized number => exact ⟨rfl, rfl⟩

/-- A stream in an encoding without a case samples nothing: the first due sample ends it. -/
theorem runSample_unknown {encoding : Encoding} (unknown : ¬ Encodable encoding) (list : SubscriptionList)
    (pass : LoopPass σ) (chronomap : List (Subscription × Int)) :
    (runSample reg (inEncoding list encoding) pass chronomap).2 = [] := by
  have refused := @build_refused σ reg encoding unknown pass.sampleAt pass.sampleClock
    { list with subscription := dueSubscriptions pass chronomap }
  rw [runSample]
  split
  · rfl
  · exact congrArg Prod.snd refused

theorem streamLoop_unknown {encoding : Encoding} (unknown : ¬ Encodable encoding) (list : SubscriptionList)
    (passes : List (LoopPass σ)) (buckets : Buckets) {sent : List Sent}
    (unsampled : ∀ x ∈ sent, x.site ≠ .build ∧ x.site ≠ .sample) :
    ∀ x ∈ (streamLoop reg (inEncoding list encoding) passes buckets sent).2,
      x.site ≠ .build ∧ x.site ≠ .sample := by
  induction passes generalizing buckets sent with
  | nil => exact unsampled
  | cons pass rest inductionHypothesis =>
      rw [streamLoop]
      split
      · exact unsampled
      · refine inductionHypothesis _ ?_
        rw [runSample_unknown unknown]
        intro x member
        rw [writeAll, List.map_nil, List.append_nil, List.mem_append] at member
        rcases member with before | polled
        · exact unsampled x before
        · rcases mem_pollWrites polled with ⟨j, oc, _, n, _, rfl⟩
          exact ⟨Site.noConfusion, Site.noConfusion⟩

theorem runIn_unchecked {encoding : Encoding} (unknown : ¬ Encodable encoding) (timing : StreamTiming σ)
    (messages : List (ClientMessage σ)) {list : SubscriptionList} (opens : OpensUnchecked list) :
    (runIn reg timing messages list encoding).2 ≠ [] ∧
      ∀ x ∈ (runIn reg timing messages list encoding).2, x.site ≠ .build ∧ x.site ≠ .sample := by
  rcases opens with ⟨mode, quiet, intervals⟩
  have stream : runIn reg timing messages list encoding =
      streamLoop reg (inEncoding list encoding) timing.passes
        (fillBuckets reg timing list.subscription 0 {}) syncResponse := by
    have bounded : ¬ list.subscription.any
        (fun sub => decide (maxInterval < sub.sampleInterval.toNat)) = true :=
      fun long => intervals ((Telemetry.intervalRefused_iff list).mp long)
    rw [runIn_eq, mode]
    dsimp only
    rw [handleStream_eq, if_neg bounded, quiet, if_pos rfl]
    rfl
  rw [stream]
  constructor
  · intro nothing
    have kept := Telemetry.streamLoop_keeps reg (inEncoding list encoding) timing.passes
      (fillBuckets reg timing list.subscription 0 {}) syncResponse
    rw [nothing] at kept
    exact List.cons_ne_nil _ _ (List.prefix_nil.mp kept)
  · refine streamLoop_unknown unknown list timing.passes _ ?_
    intro x member
    rw [List.mem_singleton.mp member]
    exact ⟨Site.noConfusion, Site.noConfusion⟩

end Subscribe
end Gnmi

namespace Server

/-- Capabilities is honest about encodings.  Requests that differ in which advertised
encoding they name get the same answer from Get and from every mode of Subscribe, at every
moment.  A request in another encoding is refused by Get, and by Subscribe without a
message, unless it is a stream that builds nothing at its set-up; such a stream is opened,
and never sends what a build or a sample found. -/
theorem capabilities_honest {σ : Type} (reg : DataProviderRegistry σ) (encoding : Encoding) :
    (encoding ∈ advertisedEncodings -> ∀ other ∈ advertisedEncodings,
      (∀ found clock req,
        Get.run reg found clock (Get.inEncoding req encoding) =
          Get.run reg found clock (Get.inEncoding req other)) ∧
      ∀ timing messages list,
        Subscribe.runIn reg timing messages list encoding =
          Subscribe.runIn reg timing messages list other) ∧
    (encoding ∉ advertisedEncodings ->
      (∀ found clock req,
        Get.run reg found clock (Get.inEncoding req encoding) = (⟨.unimplemented, encoding.name⟩, {})) ∧
      ∀ timing messages list,
        let answer := Subscribe.runIn reg timing messages list encoding
        (answer.2 ≠ [] ↔ Subscribe.OpensUnchecked list) ∧
          (answer.1.isOk = true -> Subscribe.OpensUnchecked list) ∧
          ∀ sent ∈ answer.2, sent.site ≠ .build ∧ sent.site ≠ .sample) := by
  constructor
  · intro advertised other otherAdvertised
    have here := (advertised_iff encoding).mp advertised
    have there := (advertised_iff other).mp otherAdvertised
    exact ⟨fun found clock req => Get.run_inEncoding here there found clock req,
      fun timing messages list => Subscribe.runIn_encodable here there timing messages list⟩
  · intro notAdvertised
    have unknown := mt (advertised_iff encoding).mpr notAdvertised
    refine ⟨fun found clock req => Get.run_refused unknown found clock req, ?_⟩
    intro timing messages list
    by_cases opens : Subscribe.OpensUnchecked list
    · have unchecked := @Subscribe.runIn_unchecked σ reg encoding unknown timing messages list opens
      exact ⟨iff_of_true unchecked.1 opens, fun _ => opens, unchecked.2⟩
    · have refused := @Subscribe.runIn_unknown σ reg encoding unknown timing messages list opens
      refine ⟨iff_of_false (fun some_ => some_ refused.2) opens, fun okay => ?_, ?_⟩
      · rw [refused.1] at okay
        cases okay
      · rw [refused.2]
        exact List.forall_mem_nil _

end Server
end PscMockServer
