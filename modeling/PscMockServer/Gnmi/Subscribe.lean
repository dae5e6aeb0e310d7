import PscMockServer.Gnmi.SubscribeEmit

namespace PscMockServer
namespace Gnmi

open Foundations Utils Backend

/-!
# The Subscribe RPC

`subscribe.cpp`.  Between any two steps of a handler other threads may commit, and
every step that looks at the clock or the store looks at the one of its moment.  The
moments are arguments: `found i` is the server state in which the `i`-th snapshot of
a call is taken, and a stream comes with the states and clock readings of each of its
steps.  What is written to the stream is a list; each response carries the call that
wrote it, which the server does not send.
-/

namespace Subscribe

/-- The merge loop over the subscriptions, from number `i` on. -/
def mergeLoop {σ : Type} (reg : DataProviderRegistry σ) (found : Nat -> σ) :
    List Subscription -> Nat -> Snapshot -> Status × Snapshot
  | [], _, merged => (Status.OK, merged)
  | sub :: rest, i, merged =>
      let status := validateGnmiPath sub.path
      if !status.isOk then (status, merged)
      else
        let xpath := gnmiToXpath sub.path
        let res := reg.snapshot (found i) xpath
        if !res.routed then
          (⟨.unimplemented, "path not implemented: ".toList ++ xpath⟩, merged)
        else mergeLoop reg found rest (i + 1) (OrdMap.mergeKeep merged res.snap)

def buildSubscribeNotifications {σ : Type} (reg : DataProviderRegistry σ) (found : Nat -> σ)
    (clock : Nat -> Int) (request : SubscriptionList) : Status × List Notification :=
  if request.encoding ≠ .json ∧ request.encoding ≠ .jsonIetf then
    (⟨.unimplemented, request.encoding.name⟩, [])
  else
    let result := mergeLoop reg found request.subscription 0 ∅
    if !result.1.isOk then (result.1, [])
    else
      (Status.OK,
        (buildFullNotifications result.2 reg clock).map (withRequestPrefix request.pathPrefix))

/-! ## Streams -/

/-- The call that wrote a response. -/
inductive Site where
  | build
  | sync
  | sample
  | onChange (entry : Nat)
deriving DecidableEq

/-- One response written to the stream. -/
structure Sent where
  site : Site
  response : SubscribeResponse
deriving DecidableEq

/-- `writeAll`. -/
def writeAll (site : Site) (notes : List Notification) : List Sent :=
  notes.map (fun n => ⟨site, .update n⟩)

/-- `set_sync_response(true)`. -/
def syncResponse : List Sent :=
  [⟨.sync, .syncResponse⟩]

structure OnChangeSub where
  sub : Subscription
  query : Str
  prev : Snapshot
  lastHeartbeat : Int

/-- The body of the ON_CHANGE loop for one entry: the current snapshot and time decide
what is written. -/
def OnChangeSub.poll {σ : Type} (reg : DataProviderRegistry σ) (cur : Snapshot) (now : Int)
    (clock : Nat -> Int) (oc : OnChangeSub) : OnChangeSub × List Notification :=
  if heartbeatDue oc.sub.heartbeatInterval oc.lastHeartbeat now then
    ({ oc with lastHeartbeat := now, prev := cur }, buildFullNotifications cur reg clock)
  else ({ oc with prev := cur }, buildChangeNotifications oc.prev cur reg clock)

/-- The moments of one iteration of the stream loop.  `dueNow j` and `sampledNow j` are
the two clock readings for SAMPLE entry `j`; `pollAt j` and `pollNow j` the state and
the reading of the poll of ON_CHANGE entry `j`. -/
structure LoopPass (σ : Type) where
  dueNow : Nat -> Int
  sampledNow : Nat -> Int
  sampleAt : Nat -> σ
  sampleClock : Nat -> Int
  pollAt : Nat -> σ
  pollNow : Nat -> Int
  pollClock : Nat -> Nat -> Int

/-- The moments of a whole stream; the client cancels after the listed passes. -/
structure StreamTiming (σ : Type) where
  initialAt : Nat -> σ
  initialClock : Nat -> Int
  setupNow : Nat -> Int
  baselineAt : Nat -> σ
  passes : List (LoopPass σ)

/-- The two buckets of `handleStream`. -/
structure Buckets where
  chronomap : List (Subscription × Int) := []
  onChange : List OnChangeSub := []

/-- One subscription goes to its bucket. -/
def addToBucket {σ : Type} (reg : DataProviderRegistry σ) (timing : StreamTiming σ) (i : Nat)
    (buckets : Buckets) (sub : Subscription) : Buckets :=
  match resolveStreamMode sub reg with
  | .sample => { buckets with chronomap := buckets.chronomap ++ [(sub, timing.setupNow i)] }
  | .onChange =>
      let query := gnmiToXpath sub.path
      { buckets with
        onChange := buckets.onChange ++
          [{ sub := sub, query := query, prev := (reg.snapshot (timing.baselineAt i) query).snap,
             lastHeartbeat := timing.setupNow i }] }
  | _ => buckets

/-- The loop that fills the buckets, from subscription number `i` on. -/
def fillBuckets {σ : Type} (reg : DataProviderRegistry σ) (timing : StreamTiming σ) :
    List Subscription -> Nat -> Buckets -> Buckets
  | [], _, buckets => buckets
  | sub :: rest, i, buckets => fillBuckets reg timing rest (i + 1) (addToBucket reg timing i buckets sub)

/-- More time has passed than the sample interval. -/
def sampleDue {σ : Type} (pass : LoopPass σ) (j : Nat) (entry : Subscription × Int) : Bool :=
  decide (toLongLong entry.1.sampleInterval < pass.dueNow j - entry.2)

/-- The due subscriptions of a pass. -/
def dueSubscriptions {σ : Type} (pass : LoopPass σ) (chronomap : List (Subscription × Int)) :
    List Subscription :=
  (chronomap.mapIdx (fun j entry => if sampleDue pass j entry then [entry.1] else [])).flatten

/-- The times of the last samples after a pass. -/
def advanceChronomap {σ : Type} (pass : LoopPass σ) (chronomap : List (Subscription × Int)) :
    List (Subscription × Int) :=
  chronomap.mapIdx (fun j entry =>
    if sampleDue pass j entry then (entry.1, pass.sampledNow j) else entry)

/-- The SAMPLE half of a pass: the status and notifications of the batch. -/
def runSample {σ : Type} (reg : DataProviderRegistry σ) (list : SubscriptionList) (pass : LoopPass σ)
    (chronomap : List (Subscription × Int)) : Status × List Notification :=
  let due := dueSubscriptions pass chronomap
  if due.isEmpty then (Status.OK, [])
  else
    buildSubscribeNotifications reg pass.sampleAt pass.sampleClock { list with subscription := due }

/-- The poll of ON_CHANGE entry `j` in a pass. -/
def pollEntry {σ : Type} (reg : DataProviderRegistry σ) (pass : LoopPass σ) (j : Nat)
    (oc : OnChangeSub) : OnChangeSub × List Notification :=
  oc.poll reg (reg.snapshot (pass.pollAt j) oc.query).snap (pass.pollNow j) (pass.pollClock j)

/-- What the polls of a pass write. -/
def pollWrites {σ : Type} (reg : DataProviderRegistry σ) (pass : LoopPass σ)
    (onChange : List OnChangeSub) : List Sent :=
  (onChange.mapIdx (fun j oc => writeAll (.onChange j) (pollEntry reg pass j oc).2)).flatten

/-- The loop until the client cancels. -/
def streamLoop {σ : Type} (reg : DataProviderRegistry σ) (list : SubscriptionList) :
    List (LoopPass σ) -> Buckets -> List Sent -> Status × List Sent
  | [], _, sent => (Status.OK, sent)
  | pass :: rest, buckets, sent =>
      let sampled := runSample reg list pass buckets.chronomap
      if !sampled.1.isOk then (sampled.1, sent)
      else
        streamLoop reg list rest
          { chronomap := advanceChronomap pass buckets.chronomap
            onChange := buckets.onChange.mapIdx (fun j oc => (pollEntry reg pass j oc).1) }
          (sent ++ writeAll .sample sampled.2 ++ pollWrites reg pass buckets.onChange)

/-- `duration<long long, std::nano>::max()`. -/
def maxInterval : Nat := 2 ^ 63 - 1

def handleStream {σ : Type} (reg : DataProviderRegistry σ) (timing : StreamTiming σ)
    (list : SubscriptionList) : Status × List Sent :=
  if list.subscription.any (fun sub => decide (maxInterval < sub.sampleInterval.toNat)) then
    (⟨.invalidArgument,
      "sample_interval must be less than 9223372036854775807 nanoseconds".toList⟩, [])
  else
    let initial :=
      if list.updatesOnly then (Status.OK, [])
      else buildSubscribeNotifications reg timing.initialAt timing.initialClock list
    if !initial.1.isOk then (initial.1, [])
    else
      streamLoop reg list timing.passes (fillBuckets reg timing list.subscription 0 {})
        (writeAll .build initial.2 ++ syncResponse)

/-! ## ONCE and POLL -/

def handleOnce {σ : Type} (reg : DataProviderRegistry σ) (found : Nat -> σ) (clock : Nat -> Int)
    (list : SubscriptionList) : Status × List Sent :=
  let built := buildSubscribeNotifications reg found clock list
  if !built.1.isOk then (built.1, [])
  else (Status.OK, writeAll .build built.2 ++ syncResponse)

/-- A further message of the client, with the moments of the build it may trigger. -/
structure ClientMessage (σ : Type) where
  request : SubscribeRequest
  found : Nat -> σ
  clock : Nat -> Int

/-- The read loop of `handlePoll`, until the client stops writing. -/
def pollLoop {σ : Type} (reg : DataProviderRegistry σ) (list : SubscriptionList) :
    List (ClientMessage σ) -> List Sent -> Status × List Sent
  | [], sent => (Status.OK, sent)
  | message :: rest, sent =>
      match message.request.request with
      | .poll =>
          let built := buildSubscribeNotifications reg message.found message.clock list
          if !built.1.isOk then (built.1, sent)
          else pollLoop reg list rest (sent ++ writeAll .build built.2 ++ syncResponse)
      | .subscribe _ =>
          (⟨.invalidArgument,
            "A SubscriptionList has already been received for this RPC".toList⟩, sent)
      | .notSet =>
          (⟨.invalidArgument, "Unknown content for SubscribeRequest message".toList⟩, sent)

def handlePoll {σ : Type} (reg : DataProviderRegistry σ) (found : Nat -> σ) (clock : Nat -> Int)
    (messages : List (ClientMessage σ)) (list : SubscriptionList) : Status × List Sent :=
  let built := buildSubscribeNotifications reg found clock list
  if !built.1.isOk then (built.1, [])
  else pollLoop reg list messages (writeAll .build built.2 ++ syncResponse)

/-- The first message decides the handler.  Every handler's moments are given; the
mode picks one. -/
def run {σ : Type} (reg : DataProviderRegistry σ) (timing : StreamTiming σ)
    (messages : List (ClientMessage σ)) (request : SubscribeRequest) : Status × List Sent :=
  if 0 < request.extensionSize then (⟨.unimplemented, "Extensions not implemented".toList⟩, [])
  else
    match request.request with
    | .subscribe list =>
        match list.mode with
        | .stream => handleStream reg timing list
        | .once => handleOnce reg timing.initialAt timing.initialClock list
        | .poll => handlePoll reg timing.initialAt timing.initialClock messages list
        | .unrecognized _ => (⟨.unknown, "Unknown subscription mode".toList⟩, [])
    | _ => (⟨.invalidArgument, "SubscribeRequest needs non-empty SubscriptionList".toList⟩, [])

end Subscribe

end Gnmi
end PscMockServer
