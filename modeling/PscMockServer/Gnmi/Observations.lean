import PscMockServer.Gnmi.Get
import PscMockServer.Gnmi.Set
import PscMockServer.Gnmi.Streams

namespace PscMockServer
namespace Gnmi

open Foundations Utils Backend

/-!
# What the answer to an RPC depends on

Get and Subscribe look at the server through three questions only: the snapshot of a
query, the container of each leaf in it, and the mode a provider prefers.  Two servers
that answer these alike for the paths of a request give the same status and the same
messages, whatever else they hold.  Set asks which paths may be written.  The moments of
an RPC are of any type here; each of the two servers has its own state at each of them.
-/

variable {σ τ μ : Type} {reg : DataProviderRegistry σ} {other : DataProviderRegistry τ}

/-! ## Snapshots and their containers -/

/-- Both registries find the same containers for the leaves of a snapshot. -/
def GroupsAlike (reg : DataProviderRegistry σ) (other : DataProviderRegistry τ) (snap : Snapshot) : Prop :=
  ∀ (key : Str) (leaf : Leaf), snap[key]? = some leaf -> reg.atomicPrefix key = other.atomicPrefix key

/-- Both servers answer a query with the same leaves in the same containers. -/
structure AnswersAlike (reg : DataProviderRegistry σ) (s : σ) (other : DataProviderRegistry τ) (t : τ)
    (query : Str) : Prop where
  snapshot : reg.snapshot s query = other.snapshot t query
  groups : GroupsAlike reg other (reg.snapshot s query).snap

theorem GroupsAlike.partition {snap : Snapshot} (alike : GroupsAlike reg other snap) :
    partition snap reg = partition snap other :=
  OrdMap.splitBy_congr alike

theorem GroupsAlike.full {snap : Snapshot} (alike : GroupsAlike reg other snap) (clock : Nat -> Int) :
    buildFullNotifications snap reg clock = buildFullNotifications snap other clock := by
  rw [buildFullNotifications, buildFullNotifications, alike.partition]

theorem GroupsAlike.change {prev cur : Snapshot} (before : GroupsAlike reg other prev)
    (after : GroupsAlike reg other cur) (clock : Nat -> Int) :
    buildChangeNotifications prev cur reg clock = buildChangeNotifications prev cur other clock := by
  rw [buildChangeNotifications, buildChangeNotifications, before.partition, after.partition]

theorem GroupsAlike.mergeKeep {first second : Snapshot} (firstAlike : GroupsAlike reg other first)
    (secondAlike : GroupsAlike reg other second) :
    GroupsAlike reg other (OrdMap.mergeKeep first second) := by
  intro key leaf found
  rw [OrdMap.mergeKeep_find] at found
  cases inFirst : first[key]? with
  | some kept => exact firstAlike key kept inFirst
  | none =>
      rw [inFirst, Option.none_or] at found
      exact secondAlike key leaf found

theorem groupsAlike_empty : GroupsAlike reg other (∅ : Snapshot) := by
  intro key leaf found
  rw [Std.ExtTreeMap.getElem?_empty] at found
  cases found

/-! ## Get -/

namespace Get

theorem filterByDataType_groupsAlike {snap : Snapshot} (alike : GroupsAlike reg other snap)
    (type : DataType) : GroupsAlike reg other (filterByDataType snap type) := by
  intro key leaf found
  exact alike key leaf ((filterByDataType_iff snap type key leaf).mp found).1

theorem build_congr {s : σ} {t : τ} {pre : Option Path} {path : Path}
    (alike : AnswersAlike reg s other t (fullPath pre path)) (clock : Nat -> Int)
    (out : List Notification) (encoding : Encoding) (type : DataType) :
    buildGetNotifications reg s clock out pre path encoding type =
      buildGetNotifications other t clock out pre path encoding type := by
  have built := (filterByDataType_groupsAlike alike.groups type).full clock
  rw [alike.snapshot] at built
  rw [buildGetNotifications, buildGetNotifications]
  dsimp only
  rw [alike.snapshot, built]

theorem buildAll_congr {req : GetRequest} {found : Nat -> σ} {found' : Nat -> τ} {paths : List Path}
    (alike : ∀ i, ∀ path ∈ paths, AnswersAlike reg (found i) other (found' i) (fullPath req.pathPrefix path))
    (clock : Nat -> Nat -> Int) (i : Nat) (out : List Notification) :
    buildAll reg found clock req paths i out = buildAll other found' clock req paths i out := by
  induction paths generalizing i out with
  | nil => rfl
  | cons path rest inductionHypothesis =>
      rw [buildAll, buildAll, build_congr (alike i path List.mem_cons_self)]
      simp only [inductionHypothesis (fun j later member => alike j later (List.mem_cons_of_mem path member))]

/-- A snapshot of one leaf passes the type filter whole. -/
theorem filterByDataType_single {type : DataType} {leaf : Leaf} (key : Str)
    (ofType : matchesType leaf.type type = true) :
    filterByDataType ((∅ : Snapshot).insert key leaf) type = (∅ : Snapshot).insert key leaf := by
  apply Std.ExtTreeMap.ext_getElem?
  intro other
  apply Option.ext
  intro held
  rw [filterByDataType_iff, OrdMap.insert_find, Std.ExtTreeMap.getElem?_empty]
  refine and_iff_left_of_imp (fun here => ?_)
  split at here
  · cases here
    exact ofType
  · cases here

/-- A Get of one owned path, by the leaves of the requested type that the path finds. -/
theorem run_single {s : σ} {req : GetRequest} {path : Path} (clock : Nat -> Nat -> Int)
    (onePath : req.path = [path]) (verified : (verifyGetRequest req).isOk = true)
    (supported : req.encoding = .json ∨ req.encoding = .jsonIetf)
    (wellFormed : (validateGnmiPath path).isOk = true)
    (owned : reg.owns (fullPath req.pathPrefix path) = true) :
    run reg (fun _ => s) clock req =
      let snap := filterByDataType (reg.snapshot s (fullPath req.pathPrefix path)).snap req.type
      if snap.isEmpty then
        (⟨.notFound, "path has no data: ".toList ++ fullPath req.pathPrefix path⟩, {})
      else
        (Status.OK, ⟨(buildFullNotifications snap reg (clock 0)).map (withRequestPrefix req.pathPrefix)⟩) := by
  have built := build_wellFormed reg s (clock 0) [] req.pathPrefix path req.type supported wellFormed
  rw [if_neg (by rw [owned]; exact Bool.false_ne_true.symm)] at built
  have accepted : run reg (fun _ => s) clock req =
      ((buildAll reg (fun _ => s) clock req [path] 0 []).1,
        ⟨(buildAll reg (fun _ => s) clock req [path] 0 []).2⟩) := by
    rw [run, verified, onePath]
    rfl
  rw [accepted, buildAll, built]
  dsimp only
  cases (filterByDataType (reg.snapshot s (fullPath req.pathPrefix path)).snap req.type).isEmpty with
  | true => rfl
  | false => rfl

/-- A Get is answered alike by servers that answer its paths alike. -/
theorem run_congr {req : GetRequest} {found : Nat -> σ} {found' : Nat -> τ}
    (alike : ∀ i, ∀ path ∈ req.path,
      AnswersAlike reg (found i) other (found' i) (fullPath req.pathPrefix path))
    (clock : Nat -> Nat -> Int) : run reg found clock req = run other found' clock req := by
  rw [run, run, buildAll_congr alike]

end Get

/-! ## Set -/

namespace Set

/-- The xpaths a Set is about. -/
def targets (request : SetRequest) : List Str :=
  request.delete.map (fun delpath => prefixXpath request ++ gnmiToXpath delpath) ++
    (request.replace ++ request.update).map (fun upd => prefixXpath request ++ gnmiToXpath upd.getPath)

theorem checks_congr {s : σ} {t : τ} {request : SetRequest}
    (alike : ∀ xpath ∈ targets request, reg.writable s xpath = other.writable t xpath) :
    (checks reg request).map (fun check => check s) = (checks other request).map (fun check => check t) := by
  have writes : ∀ upd ∈ request.replace ++ request.update,
      validateWrite reg s upd (prefixXpath request) = validateWrite other t upd (prefixXpath request) := by
    intro upd member
    have target : prefixXpath request ++ gnmiToXpath upd.getPath ∈ targets request :=
      List.mem_append_right _
        (List.mem_map_of_mem (f := fun upd : Update => prefixXpath request ++ gnmiToXpath upd.getPath) member)
    rw [validateWrite, validateWrite, checkWritable, checkWritable, alike _ target]
  have deletes : ∀ delpath ∈ request.delete,
      checkWritable reg s (prefixXpath request ++ gnmiToXpath delpath) =
        checkWritable other t (prefixXpath request ++ gnmiToXpath delpath) := by
    intro delpath member
    have target : prefixXpath request ++ gnmiToXpath delpath ∈ targets request :=
      List.mem_append_left _
        (List.mem_map_of_mem (f := fun path : Path => prefixXpath request ++ gnmiToXpath path) member)
    rw [checkWritable, checkWritable, alike _ target]
  rw [checks, checks]
  simp only [List.map_append, List.map_map]
  refine congr (congrArg _ (congr (congrArg _ ?_) ?_)) ?_
  · exact List.map_congr_left (fun delpath member => deletes delpath member)
  · exact List.map_congr_left (fun upd member => writes upd (List.mem_append_left _ member))
  · exact List.map_congr_left (fun upd member => writes upd (List.mem_append_right _ member))

/-- Servers that may write the same of a Set's targets give it the same status and response. -/
theorem run_congr {s : σ} {t : τ} {request : SetRequest}
    (alike : ∀ xpath ∈ targets request, reg.writable s xpath = other.writable t xpath) (now : Int) :
    (run reg s now request).2 = (run other t now request).2 := by
  rw [run, run, checks_congr alike]
  by_cases extended : 0 < request.extensionSize
  · rw [if_pos extended, if_pos extended]
  · rw [if_neg extended, if_neg extended]
    dsimp only
    split <;> rfl

/-- The batch of a Set has an op for each target and nothing else. -/
theorem mem_batch_targets {request : SetRequest} (now : Int) {op : WriteOp}
    (member : op ∈ (buildBatch request now).ops) : op.xpath ∈ targets request := by
  rw [buildBatch_ops, batchOps] at member
  simp only [List.mem_append, List.mem_map] at member
  rw [targets, List.mem_append, List.mem_map, List.mem_map]
  rcases member with (⟨path, listed, rfl⟩ | ⟨upd, listed, rfl⟩) | ⟨upd, listed, rfl⟩
  · exact Or.inl ⟨path, listed, rfl⟩
  · exact Or.inr ⟨upd, List.mem_append_left _ listed, rfl⟩
  · exact Or.inr ⟨upd, List.mem_append_right _ listed, rfl⟩

end Set

/-! ## Subscribe -/

namespace Subscribe

/-- The moments of a loop pass, as one server finds them. -/
def LoopPass.map (found : μ -> σ) (pass : LoopPass μ) : LoopPass σ where
  dueNow := pass.dueNow
  sampledNow := pass.sampledNow
  sampleAt := fun i => found (pass.sampleAt i)
  sampleClock := pass.sampleClock
  pollAt := fun j => found (pass.pollAt j)
  pollNow := pass.pollNow
  pollClock := pass.pollClock

/-- The moments of a stream, as one server finds them. -/
def StreamTiming.map (found : μ -> σ) (timing : StreamTiming μ) : StreamTiming σ where
  initialAt := fun i => found (timing.initialAt i)
  initialClock := timing.initialClock
  setupNow := timing.setupNow
  baselineAt := fun i => found (timing.baselineAt i)
  passes := timing.passes.map (LoopPass.map found)

/-- The moments of the build a message triggers, as one server finds them. -/
def ClientMessage.map (found : μ -> σ) (message : ClientMessage μ) : ClientMessage σ where
  request := message.request
  found := fun i => found (message.found i)
  clock := message.clock

theorem mergeLoop_congr {found : Nat -> σ} {found' : Nat -> τ} {subs : List Subscription}
    (alike : ∀ i, ∀ sub ∈ subs, AnswersAlike reg (found i) other (found' i) (gnmiToXpath sub.path))
    (i : Nat) {merged : Snapshot} (known : GroupsAlike reg other merged) :
    mergeLoop reg found subs i merged = mergeLoop other found' subs i merged ∧
      GroupsAlike reg other (mergeLoop reg found subs i merged).2 := by
  induction subs generalizing i merged with
  | nil => exact ⟨rfl, known⟩
  | cons sub rest inductionHypothesis =>
      have here := alike i sub List.mem_cons_self
      have later := inductionHypothesis
        (fun j next member => alike j next (List.mem_cons_of_mem sub member)) (i + 1)
        (known.mergeKeep here.groups)
      rw [mergeLoop, mergeLoop]
      dsimp only
      rw [← here.snapshot]
      split
      · exact ⟨rfl, known⟩
      · split
        · exact ⟨rfl, known⟩
        · exact later

theorem build_congr {found : Nat -> σ} {found' : Nat -> τ} {list : SubscriptionList}
    (alike : ∀ i, ∀ sub ∈ list.subscription,
      AnswersAlike reg (found i) other (found' i) (gnmiToXpath sub.path)) (clock : Nat -> Int) :
    buildSubscribeNotifications reg found clock list =
      buildSubscribeNotifications other found' clock list := by
  have merged := mergeLoop_congr alike 0 groupsAlike_empty
  have built := merged.2.full clock
  rw [merged.1] at built
  rw [buildSubscribeNotifications, buildSubscribeNotifications]
  dsimp only
  rw [merged.1, built]

section Streams

variable {found : μ -> σ} {found' : μ -> τ} {list : SubscriptionList}
  (alike : ∀ m, ∀ sub ∈ list.subscription,
    AnswersAlike reg (found m) other (found' m) (gnmiToXpath sub.path))
  (modes : ∀ sub ∈ list.subscription,
    reg.preferredMode (gnmiToXpath sub.path) = other.preferredMode (gnmiToXpath sub.path))

/-- What both servers know of the buckets of a stream: they are about subscriptions of the
list, and the leaves an entry remembers are in the same containers. -/
structure KnownBuckets (reg : DataProviderRegistry σ) (other : DataProviderRegistry τ)
    (list : SubscriptionList) (buckets : Buckets) : Prop where
  sampled : ∀ entry ∈ buckets.chronomap, entry.1 ∈ list.subscription
  queries : ∀ oc ∈ buckets.onChange, ∃ sub ∈ list.subscription, oc.query = gnmiToXpath sub.path
  remembered : ∀ oc ∈ buckets.onChange, GroupsAlike reg other oc.prev

theorem resolveStreamMode_congr {sub : Subscription}
    (mode : reg.preferredMode (gnmiToXpath sub.path) = other.preferredMode (gnmiToXpath sub.path)) :
    resolveStreamMode sub reg = resolveStreamMode sub other := by
  rw [resolveStreamMode, resolveStreamMode, mode]

include alike modes

/-- A subscription goes to the same bucket on both servers. -/
theorem addToBucket_congr (timing : StreamTiming μ) {sub : Subscription}
    (listed : sub ∈ list.subscription) (i : Nat) {buckets : Buckets}
    (known : KnownBuckets reg other list buckets) :
    addToBucket reg (timing.map found) i buckets sub = addToBucket other (timing.map found') i buckets sub ∧
      KnownBuckets reg other list (addToBucket reg (timing.map found) i buckets sub) := by
  have here := alike (timing.baselineAt i) sub listed
  rw [addToBucket, addToBucket, ← resolveStreamMode_congr (modes sub listed)]
  cases resolveStreamMode sub reg with
  | sample =>
      refine ⟨rfl, ⟨fun entry member => ?_, known.queries, known.remembered⟩⟩
      rcases List.mem_append.mp member with earlier | new
      · exact known.sampled entry earlier
      · rw [List.mem_singleton.mp new]
        exact listed
  | onChange =>
      refine ⟨?_, ⟨known.sampled, fun oc member => ?_, fun oc member => ?_⟩⟩
      · simp only [StreamTiming.map, here.snapshot]
      · rcases List.mem_append.mp member with earlier | new
        · exact known.queries oc earlier
        · rw [List.mem_singleton.mp new]
          exact ⟨sub, listed, rfl⟩
      · rcases List.mem_append.mp member with earlier | new
        · exact known.remembered oc earlier
        · rw [List.mem_singleton.mp new]
          exact here.groups
  | targetDefined => exact ⟨rfl, known⟩
  | unrecognized number => exact ⟨rfl, known⟩

theorem fillBuckets_congr (timing : StreamTiming μ) {subs : List Subscription}
    (listed : ∀ sub ∈ subs, sub ∈ list.subscription) (i : Nat) {buckets : Buckets}
    (known : KnownBuckets reg other list buckets) :
    fillBuckets reg (timing.map found) subs i buckets =
        fillBuckets other (timing.map found') subs i buckets ∧
      KnownBuckets reg other list (fillBuckets reg (timing.map found) subs i buckets) := by
  induction subs generalizing i buckets with
  | nil => exact ⟨rfl, known⟩
  | cons sub rest inductionHypothesis =>
      have here := addToBucket_congr alike modes timing (listed sub List.mem_cons_self) i known
      have later := inductionHypothesis (fun next member => listed next (List.mem_cons_of_mem sub member))
        (i + 1) here.2
      rw [fillBuckets, fillBuckets, ← here.1]
      exact later

omit alike modes in
/-- After a poll an entry remembers what was polled, for the query it had. -/
theorem pollEntry_state (reg : DataProviderRegistry σ) (pass : LoopPass σ) (j : Nat) (oc : OnChangeSub) :
    (pollEntry reg pass j oc).1.query = oc.query ∧
      (pollEntry reg pass j oc).1.prev = (reg.snapshot (pass.pollAt j) oc.query).snap := by
  rw [pollEntry, OnChangeSub.poll]
  split
  · exact ⟨rfl, rfl⟩
  · exact ⟨rfl, rfl⟩

omit modes in
/-- A poll finds and sends the same on both servers. -/
theorem pollEntry_congr (pass : LoopPass μ) {oc : OnChangeSub}
    (query : ∃ sub ∈ list.subscription, oc.query = gnmiToXpath sub.path)
    (remembered : GroupsAlike reg other oc.prev) (j : Nat) :
    pollEntry reg (pass.map found) j oc = pollEntry other (pass.map found') j oc ∧
      (pollEntry reg (pass.map found) j oc).1.query = oc.query ∧
      GroupsAlike reg other (pollEntry reg (pass.map found) j oc).1.prev := by
  rcases query with ⟨sub, listed, isQuery⟩
  have here := alike (pass.pollAt j) sub listed
  rw [← isQuery] at here
  have same : pollEntry other (pass.map found') j oc =
      oc.poll other (reg.snapshot (found (pass.pollAt j)) oc.query).snap (pass.pollNow j)
        (pass.pollClock j) := by
    rw [pollEntry, here.snapshot]
    rfl
  have state := pollEntry_state reg (pass.map found) j oc
  refine ⟨?_, state.1, ?_⟩
  · rw [same, pollEntry, OnChangeSub.poll, OnChangeSub.poll, ← here.groups.full, ← remembered.change here.groups]
    rfl
  · rw [state.2]
    exact here.groups

omit modes in
theorem runSample_congr {pass : LoopPass μ} {chronomap : List (Subscription × Int)}
    (sampled : ∀ entry ∈ chronomap, entry.1 ∈ list.subscription) :
    runSample reg list (pass.map found) chronomap = runSample other list (pass.map found') chronomap := by
  have due : ∀ sub ∈ dueSubscriptions (pass.map found) chronomap, sub ∈ list.subscription := by
    intro sub member
    rcases List.mem_map.mp (mem_dueSubscriptions member) with ⟨entry, listed, rfl⟩
    exact sampled entry listed
  have sameDue : dueSubscriptions (pass.map found') chronomap =
      dueSubscriptions (pass.map found) chronomap := rfl
  rw [runSample, runSample, sameDue]
  split
  · rfl
  · exact build_congr (fun i sub member => alike (pass.sampleAt i) sub (due sub member)) pass.sampleClock

omit modes in
theorem streamLoop_congr {passes : List (LoopPass μ)} {buckets : Buckets}
    (known : KnownBuckets reg other list buckets) (sent : List Sent) :
    streamLoop reg list (passes.map (LoopPass.map found)) buckets sent =
      streamLoop other list (passes.map (LoopPass.map found')) buckets sent := by
  induction passes generalizing buckets sent with
  | nil => rfl
  | cons pass rest inductionHypothesis =>
      have polled : ∀ j, ∀ oc ∈ buckets.onChange, _ := fun j oc member =>
        pollEntry_congr alike pass (known.queries oc member) (known.remembered oc member) j
      have entries : buckets.onChange.mapIdx (fun j oc => (pollEntry reg (pass.map found) j oc).1) =
          buckets.onChange.mapIdx (fun j oc => (pollEntry other (pass.map found') j oc).1) := by
        apply List.ext_getElem?
        intro j
        rw [List.getElem?_mapIdx, List.getElem?_mapIdx]
        cases entry : buckets.onChange[j]? with
        | none => rfl
        | some oc => rw [Option.map_some, Option.map_some, (polled j oc (List.mem_of_getElem? entry)).1]
      have writes : pollWrites reg (pass.map found) buckets.onChange =
          pollWrites other (pass.map found') buckets.onChange := by
        rw [pollWrites, pollWrites]
        apply congrArg List.flatten
        apply List.ext_getElem?
        intro j
        rw [List.getElem?_mapIdx, List.getElem?_mapIdx]
        cases entry : buckets.onChange[j]? with
        | none => rfl
        | some oc => rw [Option.map_some, Option.map_some, (polled j oc (List.mem_of_getElem? entry)).1]
      have next : KnownBuckets reg other list
          { chronomap := advanceChronomap (pass.map found) buckets.chronomap
            onChange := buckets.onChange.mapIdx (fun j oc => (pollEntry reg (pass.map found) j oc).1) } := by
        refine ⟨fun entry member => ?_, fun oc member => ?_, fun oc member => ?_⟩
        · have subs := advanceChronomap_subs (pass.map found) buckets.chronomap
          have listed : entry.1 ∈ buckets.chronomap.map Prod.fst := subs ▸ List.mem_map_of_mem member
          rcases List.mem_map.mp listed with ⟨earlier, isEarlier, same⟩
          exact same ▸ known.sampled earlier isEarlier
        · rcases List.mem_mapIdx.mp member with ⟨j, within, rfl⟩
          have before := List.getElem_mem within
          rw [(polled j _ before).2.1]
          exact known.queries _ before
        · rcases List.mem_mapIdx.mp member with ⟨j, within, rfl⟩
          exact (polled j _ (List.getElem_mem within)).2.2
      rw [List.map_cons, List.map_cons, streamLoop, streamLoop, ← runSample_congr alike known.sampled,
        ← writes, ← entries]
      split
      · rfl
      · exact inductionHypothesis next _

theorem handleStream_congr (timing : StreamTiming μ) :
    handleStream reg (timing.map found) list = handleStream other (timing.map found') list := by
  have empty : KnownBuckets reg other list {} := by
    refine ⟨fun entry member => ?_, fun oc member => ?_, fun oc member => ?_⟩ <;> cases member
  have filled := fillBuckets_congr alike modes timing (fun sub member => member) 0 empty
  have loop : ∀ sent, streamLoop reg list (timing.map found).passes
      (fillBuckets reg (timing.map found) list.subscription 0 {}) sent =
        streamLoop other list (timing.map found').passes
          (fillBuckets reg (timing.map found) list.subscription 0 {}) sent :=
    fun sent => streamLoop_congr alike filled.2 sent
  have sameBuild : buildSubscribeNotifications reg (timing.map found).initialAt
      (timing.map found).initialClock list = buildSubscribeNotifications other
        (timing.map found').initialAt (timing.map found').initialClock list :=
    build_congr (fun i sub member => alike (timing.initialAt i) sub member) timing.initialClock
  rw [handleStream, handleStream, sameBuild, ← filled.1]
  simp only [loop]

end Streams

section Poll

variable {found : μ -> σ} {found' : μ -> τ} {list : SubscriptionList}
  (alike : ∀ m, ∀ sub ∈ list.subscription,
    AnswersAlike reg (found m) other (found' m) (gnmiToXpath sub.path))

include alike

theorem pollLoop_congr (messages : List (ClientMessage μ)) (sent : List Sent) :
    pollLoop reg list (messages.map (ClientMessage.map found)) sent =
      pollLoop other list (messages.map (ClientMessage.map found')) sent := by
  induction messages generalizing sent with
  | nil => rfl
  | cons message rest inductionHypothesis =>
      have built : buildSubscribeNotifications reg (fun i => found (message.found i)) message.clock list =
          buildSubscribeNotifications other (fun i => found' (message.found i)) message.clock list :=
        build_congr (fun i sub member => alike (message.found i) sub member) message.clock
      rw [List.map_cons, List.map_cons, pollLoop, pollLoop]
      dsimp only [ClientMessage.map]
      rw [built]
      cases message.request.request with
      | poll =>
          dsimp only
          split
          · rfl
          · exact inductionHypothesis _
      | subscribe list => rfl
      | notSet => rfl

end Poll

/-- A Subscribe RPC runs alike on servers that answer its paths alike and prefer the same
modes for them. -/
theorem run_congr {found : μ -> σ} {found' : μ -> τ} {request : SubscribeRequest}
    (alike : ∀ m list, request.request = .subscribe list -> ∀ sub ∈ list.subscription,
      AnswersAlike reg (found m) other (found' m) (gnmiToXpath sub.path))
    (modes : ∀ list, request.request = .subscribe list -> ∀ sub ∈ list.subscription,
      reg.preferredMode (gnmiToXpath sub.path) = other.preferredMode (gnmiToXpath sub.path))
    (timing : StreamTiming μ) (messages : List (ClientMessage μ)) :
    run reg (timing.map found) (messages.map (ClientMessage.map found)) request =
      run other (timing.map found') (messages.map (ClientMessage.map found')) request := by
  rw [run, run]
  split
  · rfl
  · cases content : request.request with
    | notSet => rfl
    | poll => rfl
    | subscribe list =>
        have listAlike := fun m => alike m list content
        have sameBuild : buildSubscribeNotifications reg (timing.map found).initialAt
            (timing.map found).initialClock list = buildSubscribeNotifications other
              (timing.map found').initialAt (timing.map found').initialClock list :=
          build_congr (fun i sub member => listAlike (timing.initialAt i) sub member) timing.initialClock
        dsimp only
        cases list.mode with
        | stream => exact handleStream_congr listAlike (modes list content) timing
        | once =>
            dsimp only
            rw [handleOnce, handleOnce, sameBuild]
        | poll =>
            dsimp only
            rw [handlePoll, handlePoll, sameBuild, pollLoop_congr listAlike]
        | unrecognized number => rfl

end Subscribe

/-! ## The same service -/

/-- Two servers give the same service to every Get and Subscribe whose paths are all among
those asked for: the same status and the same messages, at any choice of moments. -/
structure ServesAlike (reg : DataProviderRegistry σ) (found : μ -> σ) (other : DataProviderRegistry τ)
    (found' : μ -> τ) (Asked : Str -> Prop) : Prop where
  get : ∀ (req : GetRequest) (moments : Nat -> μ) (clock : Nat -> Nat -> Int),
    (∀ path ∈ req.path, Asked (Get.fullPath req.pathPrefix path)) ->
      Get.run reg (fun i => found (moments i)) clock req =
        Get.run other (fun i => found' (moments i)) clock req
  subscribe : ∀ (request : SubscribeRequest) (timing : Subscribe.StreamTiming μ)
    (messages : List (Subscribe.ClientMessage μ)),
    (∀ list, request.request = .subscribe list ->
      ∀ sub ∈ list.subscription, Asked (gnmiToXpath sub.path)) ->
      Subscribe.run reg (timing.map found) (messages.map (Subscribe.ClientMessage.map found)) request =
        Subscribe.run other (timing.map found') (messages.map (Subscribe.ClientMessage.map found')) request

theorem servesAlike {found : μ -> σ} {found' : μ -> τ} {Asked : Str -> Prop}
    (alike : ∀ m xpath, Asked xpath -> AnswersAlike reg (found m) other (found' m) xpath)
    (modes : ∀ xpath, Asked xpath -> reg.preferredMode xpath = other.preferredMode xpath) :
    ServesAlike reg found other found' Asked where
  get := fun _ moments clock asked =>
    Get.run_congr (fun i path listed => alike (moments i) _ (asked path listed)) clock
  subscribe := fun _ timing messages asked =>
    Subscribe.run_congr (fun m list content sub listed => alike m _ (asked list content sub listed))
      (fun list content sub listed => modes _ (asked list content sub listed)) timing messages

end Gnmi
end PscMockServer
