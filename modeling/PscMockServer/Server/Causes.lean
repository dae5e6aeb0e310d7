import PscMockServer.Server.Provenance
import PscMockServer.Telemetry.HeartbeatCadence
import PscMockServer.Telemetry.ReportedEvents

namespace PscMockServer
namespace Server

open Foundations Gnmi Utils Backend Telemetry Gnmi.Subscribe

/-!
# Nothing out of thin air

Between two looks of a poll a leaf is the same or an event has written it.  So each part of
a change notification has an event that caused it, and every notification of every call goes
back to what its looks found.
-/

variable (sensorNow configNow : Int)

/-! ## Change notifications -/

/-- Two looks of a query find different values at the path, and what the second one finds
was left there by an event between the two and has been there since. -/
structure Rewritten (earlier later : List Action) (query key : Str) (found : Option Leaf) : Prop where
  selected : selects (stripPathQuotes query) key = true
  now : leafThen sensorNow configNow key later = found
  moved : (leafThen sensorNow configNow key earlier).map Leaf.val ≠ found.map Leaf.val
  cause : ∃ front action, Between earlier later front action ∧ Writes key front action found ∧
    Unchanged (leafThen sensorNow configNow key) (front ++ [action]) later

/-- An accepted Set between the two moments deletes the path. -/
def DeletedBetween (earlier later : List Action) (key : Str) : Prop :=
  ∃ front request now, Between earlier later front (.set request now) ∧ request.extensionSize = 0 ∧
    Acceptable request ∧ ∃ path ∈ request.delete, targetKey request path = key

/-- What a change notification says was caused between the two looks of its poll: each value
and each deletion of one without container, and something in the container of another. -/
inductive Caused (earlier later : List Action) (query : Str) (clock : Nat -> Int) (n : Notification) : Prop
  | loose (noContainer : n.atomic = false) (some_ : updatesOf n ≠ [] ∨ deletesOf n ≠ [])
      (updates : ∀ report ∈ updatesOf n, ∃ key leaf,
        Rewritten sensorNow configNow earlier later query key (some leaf) ∧ report = (pathOf key, leaf.val))
      (deletes : ∀ path ∈ deletesOf n, ∃ key,
        Rewritten sensorNow configNow earlier later query key none ∧ DeletedBetween earlier later key ∧
          path = pathOf key)
      (time : (∃ i, n.timestamp = clock i) ∨ ∃ key leaf,
        Rewritten sensorNow configNow earlier later query key (some leaf) ∧ n.timestamp = leaf.collectedNs)
  | container (container key : Str) (found : Option Leaf) (isContainer : n.atomic = true)
      (isPrefix : n.pathPrefix = xpathToGnmiPath container {})
      (inside : registry.atomicPrefix key = some container)
      (cause : Rewritten sensorNow configNow earlier later query key found)
      (deletes : ∀ path ∈ deletesOf n, path = pathOf container ∧ found = none ∧
        DeletedBetween earlier later key)

section Polls

variable {sensorNow configNow}

/-- A Set that leaves nothing at a path it addresses has deleted it. -/
theorem delete_of_written_none {request : SetRequest} {now : Int} {key : Str}
    (addressed : Addresses request key) (nothing : written request now key = none) :
    ∃ path ∈ request.delete, targetKey request path = key := by
  rcases (addresses_iff request key).mp addressed with deleted | ⟨upd, listed, isKey⟩
  · exact deleted
  · have last : ∃ entry ∈ request.replace ++ request.update, targetKey request entry.getPath = key ∧
        written request now key = some { val := entry.getVal, collectedNs := now, type := .config } :=
      OrdMap.lastOf_touched ⟨upd, listed, isKey⟩
    rcases last with ⟨_, _, _, holds⟩
    rw [holds] at nothing
    cases nothing

/-- Only Sets take a leaf away. -/
theorem Rewritten.deleted {earlier later : List Action} {query key : Str}
    (gone : Rewritten sensorNow configNow earlier later query key none) : DeletedBetween earlier later key := by
  rcases gone.cause with ⟨front, action, between, writes, _⟩
  generalize nothing : (none : Option Leaf) = found at writes
  cases writes with
  | set request now plain acceptable addressed =>
      exact ⟨front, request, now, between, plain, acceptable, delete_of_written_none addressed nothing.symm⟩
  | tick => cases nothing

variable {earlier later : List Action} {query : Str}

theorem snapThen_value (history : List Action) (query key : Str) :
    LeafStore.valueAt (snapThen sensorNow configNow query history) key =
      if registry.owns query = true ∧ selects (stripPathQuotes query) key = true then
        (leafThen sensorNow configNow key history).map Leaf.val else none := by
  rw [LeafStore.valueAt, snapThen, registry_serves.find (storesAfter_invariant sensorNow configNow history)]
  split
  · rfl
  · rfl

theorem snapThen_canonical (history : List Action) (query : Str) :
    CanonicalKeys (snapThen sensorNow configNow query history) :=
  snapshot_canonical (storesAfter_invariant sensorNow configNow history) query

section Differing

variable (order : earlier <+: later) {key : Str}
  (differs : Differs (snapThen sensorNow configNow query earlier) (snapThen sensorNow configNow query later) key)

include differs

theorem answered_of_differs : registry.owns query = true ∧ selects (stripPathQuotes query) key = true := by
  by_contra refused
  rw [Differs, snapThen_value, snapThen_value, if_neg refused, if_neg refused] at differs
  exact differs rfl

/-- What the second snapshot lacks is not there at all. -/
theorem leafThen_none (absent : (snapThen sensorNow configNow query later)[key]? = none) :
    leafThen sensorNow configNow key later = none := by
  rw [snapThen, registry_serves.find (storesAfter_invariant sensorNow configNow later),
    if_pos (answered_of_differs differs)] at absent
  exact absent

include order

/-- A path at which two snapshots differ was written in between. -/
theorem rewritten_of_differs :
    Rewritten sensorNow configNow earlier later query key (leafThen sensorNow configNow key later) := by
  have answered := answered_of_differs differs
  rw [Differs, snapThen_value, snapThen_value, if_pos answered, if_pos answered] at differs
  refine ⟨answered.2, rfl, differs, ?_⟩
  rcases (leafThen_law sensorNow configNow key).last_writer order with unchanged | caused
  · rw [unchanged.eq order] at differs
    exact absurd rfl differs
  · exact caused

end Differing

variable (order : earlier <+: later)

include order

theorem rewritten_updated {entry : Str × Leaf} (member : entry ∈ (looseDiff
    (snapThen sensorNow configNow query earlier) (snapThen sensorNow configNow query later) registry).updated) :
    Rewritten sensorNow configNow earlier later query entry.1 (some entry.2) := by
  have changed := mem_looseDiff_updated.mp member
  have held := (foundAt_of_snapshot sensorNow configNow changed.2.1).held
  exact held ▸ rewritten_of_differs order (differs_iff.mpr (Or.inl ⟨entry.2, changed.2⟩))

theorem rewritten_removed {key : Str} (member : key ∈ (looseDiff
    (snapThen sensorNow configNow query earlier) (snapThen sensorNow configNow query later) registry).removed) :
    Rewritten sensorNow configNow earlier later query key none := by
  rcases mem_looseDiff_removed.mp member with ⟨leaf, _, gone⟩
  have differs := differs_iff.mpr (Or.inr ⟨leaf, gone⟩)
  exact leafThen_none differs gone.2 ▸ rewritten_of_differs order differs

theorem caused_diffNote (clock : Nat -> Int) (i : Nat) (diff : Diff)
    (isDiff : diff = looseDiff (snapThen sensorNow configNow query earlier)
      (snapThen sensorNow configNow query later) registry)
    (some_ : (!diff.updated.isEmpty || !diff.removed.isEmpty) = true) :
    Caused sensorNow configNow earlier later query clock (diffNote diff (clock i)) := by
  have updated : ∀ entry ∈ diff.updated,
      Rewritten sensorNow configNow earlier later query entry.1 (some entry.2) :=
    fun entry member => rewritten_updated order (isDiff ▸ member)
  refine Caused.loose (diffNote_atomic diff _) ?_ ?_ ?_ ?_
  · rw [updatesOf_diffNote, deletesOf_diffNote]
    rw [Bool.or_eq_true] at some_
    refine some_.imp (fun updates empty => ?_) (fun removes empty => ?_)
    · rw [List.map_eq_nil_iff.mp empty] at updates
      cases updates
    · rw [List.map_eq_nil_iff.mp empty] at removes
      cases removes
  · intro report member
    rw [updatesOf_diffNote] at member
    rcases List.mem_map.mp member with ⟨entry, listed, rfl⟩
    exact ⟨entry.1, entry.2, updated entry listed, rfl⟩
  · intro path member
    rw [deletesOf_diffNote] at member
    rcases List.mem_map.mp member with ⟨key, listed, rfl⟩
    have removed := rewritten_removed order (isDiff ▸ listed)
    exact ⟨key, removed, removed.deleted, rfl⟩
  · rw [diffNote_timestamp]
    refine stampOr_source ?_ clock i
    exact updated

/-- A container is sent, or deleted, because of a leaf in it that was written. -/
theorem caused_container {container key : Str} (inside : registry.atomicPrefix key = some container)
    (differs : Differs (snapThen sensorNow configNow query earlier)
      (snapThen sensorNow configNow query later) key) (clock : Nat -> Int) (i : Nat) :
    (groupOf registry (snapThen sensorNow configNow query later) container = ∅ ->
        Caused sensorNow configNow earlier later query clock (goneNote container (clock i))) ∧
      Caused sensorNow configNow earlier later query clock
        (atomicNote container (groupOf registry (snapThen sensorNow configNow query later) container)
          (clock i)) := by
  have cause := rewritten_of_differs order differs
  constructor
  · intro empty
    have absent := partition_group_find (snapThen sensorNow configNow query later) registry container key
    rw [← groupOf, empty, if_pos inside, Std.ExtTreeMap.getElem?_empty] at absent
    have nothing := leafThen_none differs absent.symm
    refine Caused.container container key _ rfl rfl inside cause ?_
    intro path deleted
    exact ⟨(List.mem_singleton.mp deleted).trans (List.append_nil _), nothing, (nothing ▸ cause).deleted⟩
  · refine Caused.container container key _ (atomicNote_atomic _ _ _) (by rw [atomicNote_eq]) inside cause ?_
    intro path deleted
    rw [deletesOf, atomicNote_eq] at deleted
    cases deleted

theorem caused_change {clock : Nat -> Int} {n : Notification}
    (emitted : n ∈ buildChangeNotifications (snapThen sensorNow configNow query earlier)
      (snapThen sensorNow configNow query later) registry clock) :
    Caused sensorNow configNow earlier later query clock n := by
  rw [buildChange_eq] at emitted
  rcases mem_pushAll_clock emitted with ⟨build, listed, i, rfl⟩
  rcases List.mem_append.mp listed with loose | contained
  · split at loose
    · next some_ =>
        rw [List.mem_singleton.mp loose]
        exact caused_diffNote order clock i _ rfl some_
    · cases loose
  · rcases (mem_containerChanges (snapThen_canonical earlier query) (snapThen_canonical later query)
      build).mp contained with ⟨container, key, _, inside, differs, isBuild⟩
    have caused := caused_container order inside differs clock i
    rcases containerChange_cases (snapThen sensorNow configNow query earlier)
      (snapThen sensorNow configNow query later) registry container with
      ⟨skipped, _⟩ | ⟨_, ⟨gone, empty⟩ | sent⟩
    · exact absurd (skipped.symm.trans isBuild) (Option.some_ne_none build).symm
    · rw [← Option.some.inj (gone.symm.trans isBuild)]
      exact caused.1 empty
    · rw [← Option.some.inj (sent.symm.trans isBuild)]
      exact caused.2

omit order in
/-- Whatever the order of the looks, a change notification says what the second one finds. -/
theorem traced_change {clock : Nat -> Int} {n : Notification}
    (emitted : n ∈ buildChangeNotifications (snapThen sensorNow configNow query earlier)
      (snapThen sensorNow configNow query later) registry clock) :
    Traced (FoundAt sensorNow configNow later query) none clock n := by
  have canonical : CanonicalKeys (snapThen sensorNow configNow query later) := snapThen_canonical later query
  rw [buildChange_eq] at emitted
  rcases mem_pushAll_clock emitted with ⟨build, listed, i, rfl⟩
  rcases changeBuilds_cases (snapThen_canonical earlier query) canonical listed with
    rfl | ⟨container, key, _, _, _, ⟨rfl, _⟩ | rfl⟩
  · have updated : ∀ entry ∈ (looseDiff (snapThen sensorNow configNow query earlier)
        (snapThen sensorNow configNow query later) registry).updated,
          FoundAt sensorNow configNow later query entry.1 entry.2 := fun entry member =>
      foundAt_of_snapshot sensorNow configNow (mem_looseDiff_updated.mp member).2.1
    constructor
    · intro report member
      rw [updatesOf_diffNote] at member
      rcases List.mem_map.mp member with ⟨entry, isUpdated, rfl⟩
      refine ⟨entry.1, entry.2, updated entry isUpdated, ?_⟩
      rw [diffNote_atomic]
      rfl
    · rw [diffNote_timestamp]
      exact stampOr_source updated clock i
  · exact ⟨fun report member => (nomatch member), Or.inl ⟨i, rfl⟩⟩
  · refine traced_atomicNote (current_below canonical registry_atomicLaw.within) ?_ none clock i
    intro entry member
    have found := partition_group_find (snapThen sensorNow configNow query later) registry container entry.1
    rw [OrdMap.find_of_mem_toList member] at found
    split at found
    · exact foundAt_of_snapshot sensorNow configNow found.symm
    · cases found

end Polls

/-! ## Whole calls -/

/-- What a notification goes back to, by the step that sent it: a look of this step for one of
the subscriptions it serves has found each leaf. -/
def StepTraced (timing : StreamTiming (List Action)) (list : SubscriptionList) (n : Notification) :
    Step (List Action) -> Prop
  | .build found clock =>
      Traced (FoundBy sensorNow configNow found list.subscription) list.pathPrefix clock n ∧ n.delete = []
  | .sync => False
  | .sample front pass =>
      let due := sampledAfter (sampleEntries registry (timing.map (storesAfter sensorNow configNow)) list)
        front pass
      Traced (FoundBy sensorNow configNow pass.sampleAt due) list.pathPrefix pass.sampleClock n ∧ n.delete = []
  | .poll _ pass j _ sub =>
      Traced (FoundAt sensorNow configNow (pass.pollAt j) (gnmiToXpath sub.path)) none (pass.pollClock j) n

/-- Every poll looks no earlier than the look before it. -/
def InOrder (timing : StreamTiming (List Action)) : Prop :=
  ∀ i j moments moment, moments ++ [moment] <+: timing.passes ->
    stateBefore timing i j moments <+: moment.pollAt j

/-- Why the poll of entry `j` in `pass`, of subscription number `i`, sent the notification: it is
part of the heartbeat that was due then, or none was due and something has happened since the
look before. -/
def PollCaused (timing : StreamTiming (List Action)) (front : List (LoopPass (List Action)))
    (pass : LoopPass (List Action)) (j i : Nat) (sub : Subscription) (n : Notification) : Prop :=
  let query := gnmiToXpath sub.path
  if beatDue sub.heartbeatInterval (timing.setupNow i) j front pass then
    n ∈ buildFullNotifications (snapThen sensorNow configNow query (pass.pollAt j)) registry (pass.pollClock j)
  else Caused sensorNow configNow (stateBefore timing i j front) (pass.pollAt j) query (pass.pollClock j) n

section Calls

variable {sensorNow configNow} {timing : StreamTiming (List Action)} {list : SubscriptionList} {n : Notification}

/-- What a poll sends, at its moments. -/
theorem pollNotes_moment (front : List (LoopPass (List Action))) (pass : LoopPass (List Action)) (j i : Nat)
    (sub : Subscription) :
    ((Step.poll front pass j i sub).map (storesAfter sensorNow configNow)).notes registry
        (timing.map (storesAfter sensorNow configNow)) list =
      if beatDue sub.heartbeatInterval (timing.setupNow i) j front pass then
        buildFullNotifications (snapThen sensorNow configNow (gnmiToXpath sub.path) (pass.pollAt j)) registry
          (pass.pollClock j)
      else buildChangeNotifications
        (snapThen sensorNow configNow (gnmiToXpath sub.path) (stateBefore timing i j front))
        (snapThen sensorNow configNow (gnmiToXpath sub.path) (pass.pollAt j)) registry (pass.pollClock j) := by
  rw [Step.map, Step.notes, pollNotes, stateBefore_map, beatDue_map]
  rfl

theorem traced_step (step : Step (List Action))
    (emitted : n ∈ (step.map (storesAfter sensorNow configNow)).notes registry
      (timing.map (storesAfter sensorNow configNow)) list) :
    StepTraced sensorNow configNow timing list n step := by
  cases step with
  | build found clock => exact traced_build sensorNow configNow found clock list emitted
  | sync => exact absurd emitted List.not_mem_nil
  | sample front pass =>
      rw [Step.map, Step.notes, sampledAfter_map] at emitted
      split at emitted
      · cases emitted
      · exact traced_build sensorNow configNow pass.sampleAt pass.sampleClock (withSubscriptions list _) emitted
  | poll front pass j i sub =>
      rw [pollNotes_moment] at emitted
      split at emitted
      · rw [← map_withRequestPrefix_none (buildFullNotifications _ _ _)] at emitted
        exact (traced_full registry_atomicLaw.within (snapThen_canonical (pass.pollAt j) _)
          (fun key leaf found => foundAt_of_snapshot sensorNow configNow found) emitted).1
      · exact traced_change emitted

end Calls

/-- Nothing is sent out of thin air.  A notification of a Get or of any Subscribe call, each
of whose looks happens after some events of a history of Sets and ticks, reports only values
of leaves that a look of its own step found and the path of that look selects, and its time
is theirs or a clock reading of the step; each of these leaves was there when the server was
built or was written by an event before the look.  Only polls delete. -/
theorem reports_have_origins :
    (∀ (found : Nat -> List Action) (clock : Nat -> Nat -> Int) (req : GetRequest),
      ∀ n ∈ (Gnmi.Get.run registry (fun i => storesAfter sensorNow configNow (found i)) clock
          req).2.notification,
        ∃ i path, req.path[i]? = some path ∧ n.delete = [] ∧
          Traced (fun key leaf => FoundAt sensorNow configNow (found i)
              (Gnmi.Get.fullPath req.pathPrefix path) key leaf ∧ Gnmi.Get.matchesType leaf.type req.type = true)
            req.pathPrefix (clock i) n) ∧
      ∀ (timing : StreamTiming (List Action)) (messages : List (ClientMessage (List Action)))
        (request : SubscribeRequest),
        let found := storesAfter sensorNow configNow
        let sent := (Gnmi.Subscribe.run registry (timing.map found) (messages.map (ClientMessage.map found))
          request).2
        (∀ list, request.request = .subscribe list ->
          let steps := momentSteps found registry timing messages request list
          sent = steps.flatMap (fun step => (step.map found).writes registry (timing.map found) list) ∧
            ∀ step ∈ steps, ∀ n ∈ (step.map found).notes registry (timing.map found) list,
              StepTraced sensorNow configNow timing list n step) ∧
        ((∀ list, request.request ≠ .subscribe list) -> sent = []) := by
  refine ⟨fun found clock req n emitted => traced_get sensorNow configNow found clock req emitted, ?_⟩
  intro timing messages request found sent
  constructor
  · intro list isList steps
    exact ⟨run_momentSteps found timing messages isList, fun step _ n emitted => traced_step step emitted⟩
  · intro noList
    have nothing : sent = (Gnmi.Subscribe.run registry (timing.map found)
      (messages.map (ClientMessage.map found)) request).2 := rfl
    rw [nothing, Gnmi.Subscribe.run]
    split
    · rfl
    · cases content : request.request with
      | subscribe list => exact absurd content (noList list)
      | poll => rfl
      | notSet => rfl

/-- A stream that is set up when the server is built, and polls after the host was renamed. -/
def renameMoments : StreamTiming (List Action) where
  initialAt := fun _ => []
  initialClock := fun _ => 5
  setupNow := fun _ => 5
  baselineAt := fun _ => []
  passes := [{
    dueNow := fun _ => 10
    sampledNow := fun _ => 10
    sampleAt := fun _ => [.set renameHost 3]
    sampleClock := fun _ => 10
    pollAt := fun _ => [.set renameHost 3]
    pollNow := fun _ => 10
    pollClock := fun _ _ => 10 }]

/-- What its poll sends. -/
def renameNote : Notification where
  timestamp := 3
  update := [leafUpdate "/system/config/hostname".toList (.stringVal "psc-2".toList)]

theorem renameNote_sent : ⟨.onChange 0, .update renameNote⟩ ∈ (Gnmi.Subscribe.run registry
    (renameMoments.map (storesAfter 1 2)) [] { request := .subscribe hostnameList }).2 := by
  decide +kernel

/-- A poll of the stream sends it. -/
theorem renameNote_step : ∃ step ∈ momentSteps (storesAfter 1 2) registry renameMoments []
      { request := .subscribe hostnameList } hostnameList,
    step.site = .onChange 0 ∧ renameNote ∈ (step.map (storesAfter 1 2)).notes registry
      (renameMoments.map (storesAfter 1 2)) hostnameList := by
  have isList : ({ request := .subscribe hostnameList } : SubscribeRequest).request =
      .subscribe hostnameList := rfl
  have sent := renameNote_sent
  rw [← List.map_nil (f := ClientMessage.map (storesAfter 1 2)), run_momentSteps _ renameMoments [] isList] at sent
  rcases List.mem_flatMap.mp sent with ⟨step, listed, written⟩
  have known := Step.of_mem_writes written rfl
  exact ⟨step, listed, (step.map_site _).symm.trans known.2.symm, known.1⟩

theorem reports_have_origins_rename :
    (∃ n ∈ (Gnmi.Get.run registry (fun _ => storesAfter 1 2 []) (fun _ _ => 0) systemConfigRequest).2.notification,
      Traced (fun key leaf => FoundAt 1 2 [] "/system".toList key leaf ∧
        Gnmi.Get.matchesType leaf.type .config = true) none (fun _ => 0) n) ∧
      ∃ step ∈ momentSteps (storesAfter 1 2) registry renameMoments [] { request := .subscribe hostnameList }
          hostnameList,
        step.site = .onChange 0 ∧ StepTraced 1 2 renameMoments hostnameList renameNote step := by
  have origins := reports_have_origins 1 2
  constructor
  · have sent : ∃ n, n ∈ (Gnmi.Get.run registry (fun _ => storesAfter 1 2 []) (fun _ _ => 0)
        systemConfigRequest).2.notification := by
      refine List.exists_mem_of_ne_nil _ ?_
      decide +kernel
    rcases sent with ⟨n, emitted⟩
    rcases origins.1 (fun _ => []) (fun _ _ => 0) systemConfigRequest n emitted with ⟨_, path, listed, _, traced⟩
    have isPath : Gnmi.Get.fullPath systemConfigRequest.pathPrefix path = "/system".toList := by
      rw [List.mem_singleton.mp (List.mem_of_getElem? listed)]
      decide +kernel
    rw [isPath] at traced
    exact ⟨n, emitted, traced⟩
  · rcases renameNote_step with ⟨step, listed, site, emitted⟩
    have traced := (origins.2 renameMoments [] { request := .subscribe hostnameList }).1 hostnameList rfl
    exact ⟨step, listed, site, traced.2 step listed renameNote emitted⟩

/-- Every change has a cause.  In a stream whose polls look in order, take any notification
that the poll of an ON_CHANGE entry sends.  Unless the heartbeat of the entry was due at this
poll, each value it reports outside containers is not the one the look before found, was left
at its path by an event between the two looks and has been there since; each path it deletes
there was deleted by an accepted Set in between; and if it is about a container, such an event
has changed something in the container. -/
theorem changes_have_causes {timing : StreamTiming (List Action)} (inOrder : InOrder timing)
    (messages : List (ClientMessage (List Action))) {request : SubscribeRequest} {list : SubscriptionList}
    (isList : request.request = .subscribe list) :
    let found := storesAfter sensorNow configNow
    let steps := momentSteps found registry timing messages request list
    (Gnmi.Subscribe.run registry (timing.map found) (messages.map (ClientMessage.map found)) request).2 =
        steps.flatMap (fun step => (step.map found).writes registry (timing.map found) list) ∧
      ∀ front pass j i sub, .poll front pass j i sub ∈ steps ->
        ∀ n ∈ ((Step.poll front pass j i sub).map found).notes registry (timing.map found) list,
          PollCaused sensorNow configNow timing front pass j i sub n := by
  intro found steps
  refine ⟨run_momentSteps found timing messages isList, fun front pass j i sub listed n emitted => ?_⟩
  rw [pollNotes_moment] at emitted
  rw [PollCaused]
  split
  · next due =>
      rw [if_pos due] at emitted
      exact emitted
  · next undue =>
      rw [if_neg undue] at emitted
      exact caused_change (inOrder i j front pass (front_of_moment found listed)) emitted

theorem changes_have_causes_rename :
    ∃ front pass j i sub, .poll front pass j i sub ∈ momentSteps (storesAfter 1 2) registry renameMoments []
        { request := .subscribe hostnameList } hostnameList ∧
      PollCaused 1 2 renameMoments front pass j i sub renameNote := by
  have inOrder : InOrder renameMoments := by
    intro i j moments moment isMoment
    have length := isMoment.length_le
    cases moments with
    | nil => exact List.nil_prefix
    | cons first moments => simp [renameMoments] at length
  rcases renameNote_step with ⟨step, listed, site, emitted⟩
  cases step with
  | build found clock => cases site
  | sync => cases site
  | sample front pass => cases site
  | poll front pass j i sub =>
      have isList : ({ request := .subscribe hostnameList } : SubscribeRequest).request =
          .subscribe hostnameList := rfl
      have caused := (changes_have_causes 1 2 inOrder [] isList).2 front pass j i sub listed renameNote emitted
      exact ⟨front, pass, j, i, sub, listed, caused⟩

end Server
end PscMockServer
