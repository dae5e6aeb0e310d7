import PscMockServer.Telemetry.OpenStreams

namespace PscMockServer
namespace Telemetry

open Foundations Gnmi Utils Backend Gnmi.Subscribe

/-!
# The entries of a stream

One loop serves all subscriptions of a stream.  What it sends for an ON_CHANGE entry is
what a stream with this subscription alone sends: the entries share the loop and nothing
else.  And a mode the target is to choose is chosen once, at the set-up: from there on the
stream is the one whose client chose the same modes itself.
-/

variable {σ : Type} {reg : DataProviderRegistry σ}

/-! ## One entry -/

/-- The responses the polls of entry `j` wrote. -/
def entrySent (j : Nat) (sent : List Sent) : List SubscribeResponse :=
  (sent.filter (fun response => decide (response.site = .onChange j))).map Sent.response

/-- What the polls of one entry write in the passes. -/
def entryRun (reg : DataProviderRegistry σ) (j : Nat) :
    List (LoopPass σ) -> OnChangeSub -> List SubscribeResponse
  | [], _ => []
  | pass :: rest, oc =>
      (pollEntry reg pass j oc).2.map SubscribeResponse.update ++
        entryRun reg j rest (pollEntry reg pass j oc).1

theorem entrySent_append (j : Nat) (first second : List Sent) :
    entrySent j (first ++ second) = entrySent j first ++ entrySent j second := by
  rw [entrySent, List.filter_append, List.map_append]
  rfl

/-- Another call writes nothing for the entry. -/
theorem entrySent_writeAll_other {j : Nat} {site : Site} (other : site ≠ .onChange j)
    (notes : List Notification) : entrySent j (writeAll site notes) = [] := by
  rw [entrySent, List.filter_eq_nil_iff.mpr, List.map_nil]
  intro sent member isEntry
  rcases mem_writeAll member with ⟨n, _, rfl⟩
  exact other (of_decide_eq_true isEntry)

theorem entrySent_writeAll (j : Nat) (notes : List Notification) :
    entrySent j (writeAll (.onChange j) notes) = notes.map SubscribeResponse.update := by
  rw [entrySent, List.filter_eq_self.mpr, writeAll, List.map_map]
  · rfl
  · intro sent member
    rcases mem_writeAll member with ⟨n, _, rfl⟩
    exact decide_eq_true rfl

/-- Of the polls of a pass one is about the entry. -/
theorem entrySent_pollWrites (j : Nat) (pass : LoopPass σ) (entries : List OnChangeSub) :
    entrySent j (pollWrites reg pass entries) =
      (entries[j]?).elim [] (fun oc => (pollEntry reg pass j oc).2.map SubscribeResponse.update) := by
  induction entries using List.reverseRecOn with
  | nil => rfl
  | append_singleton front oc inductionHypothesis =>
      rw [pollWrites] at inductionHypothesis ⊢
      rw [List.mapIdx_append, List.flatten_append, entrySent_append, inductionHypothesis,
        List.mapIdx_singleton, List.flatten_singleton, Nat.zero_add]
      by_cases here : j = front.length
      · rw [here, List.getElem?_eq_none (Nat.le_refl _), List.getElem?_concat_length, Option.elim_none,
          List.nil_append, Option.elim_some, entrySent_writeAll]
      · have other : Site.onChange front.length ≠ Site.onChange j := fun same => here (Site.onChange.inj same).symm
        rw [entrySent_writeAll_other other, List.append_nil]
        rcases Nat.lt_or_ge j front.length with within | beyond
        · rw [List.getElem?_append_left within]
        · have outside : (front ++ [oc]).length ≤ j := by
            rw [List.length_append, List.length_singleton]
            omega
          rw [List.getElem?_eq_none beyond, List.getElem?_eq_none outside]

/-- What a run of passes sends for an entry depends on that entry alone. -/
theorem entrySent_passWrites (list : SubscriptionList) (j : Nat) (passes : List (LoopPass σ))
    (buckets : Buckets) :
    entrySent j (passWrites reg list passes buckets) =
      (buckets.onChange[j]?).elim [] (entryRun reg j passes) := by
  induction passes generalizing buckets with
  | nil => cases buckets.onChange[j]? <;> rfl
  | cons pass rest inductionHypothesis =>
      rw [passWrites, entrySent_append, inductionHypothesis, writesUpTo, entrySent_append,
        entrySent_writeAll_other (by simp), List.nil_append, List.take_length, entrySent_pollWrites,
        nextBuckets, List.getElem?_mapIdx]
      cases buckets.onChange[j]? <;> rfl

/-- The opening of a stream is no poll. -/
theorem entrySent_opening (j : Nat) (notes : List Notification) :
    entrySent j (writeAll .build notes ++ syncResponse) = [] := by
  rw [entrySent_append, entrySent_writeAll_other (by simp), List.nil_append]
  rfl

/-! ## Streams that stay open -/

theorem streamLoop_of_isOk {list : SubscriptionList} {passes : List (LoopPass σ)} {buckets : Buckets}
    {sent : List Sent} (open_ : (streamLoop reg list passes buckets sent).1.isOk = true) :
    streamLoop reg list passes buckets sent = (Status.OK, sent ++ passWrites reg list passes buckets) := by
  induction passes generalizing buckets sent with
  | nil => exact congrArg (Prod.mk Status.OK) (List.append_nil sent).symm
  | cons pass rest inductionHypothesis =>
      unfold streamLoop at open_ ⊢
      dsimp only at open_ ⊢
      cases okay : (runSample reg list pass buckets.chronomap).1.isOk with
      | false =>
          rw [okay, Bool.not_false, if_pos rfl, okay] at open_
          cases open_
      | true =>
          rw [okay, Bool.not_true, if_neg Bool.false_ne_true] at open_
          rw [Bool.not_true, if_neg Bool.false_ne_true, inductionHypothesis open_, passWrites, writesUpTo,
            List.take_length]
          simp only [List.append_assoc]
          rfl

/-- Without SAMPLE entries nothing can close the loop. -/
theorem streamLoop_of_no_samples (list : SubscriptionList) (passes : List (LoopPass σ)) {buckets : Buckets}
    (noSamples : buckets.chronomap = []) (sent : List Sent) :
    (streamLoop reg list passes buckets sent).1.isOk = true := by
  induction passes generalizing buckets sent with
  | nil => rfl
  | cons pass rest inductionHypothesis =>
      unfold streamLoop
      rw [noSamples]
      exact inductionHypothesis rfl _

/-- What an open stream sent for an entry. -/
theorem entrySent_stream {timing : StreamTiming σ} {list : SubscriptionList}
    (open_ : (handleStream reg timing list).1.isOk = true) (j : Nat) :
    entrySent j (handleStream reg timing list).2 =
      ((openingBuckets reg timing list).onChange[j]?).elim [] (entryRun reg j timing.passes) := by
  have whole := (handleStream_of_isOk open_).2
  rw [whole] at open_ ⊢
  rw [streamLoop_of_isOk open_, entrySent_append, entrySent_opening, List.nil_append, entrySent_passWrites]

/-! ## One more pass -/

/-- The stream of a list with these passes. -/
def streamAfter (reg : DataProviderRegistry σ) (timing : StreamTiming σ) (list : SubscriptionList)
    (passes : List (LoopPass σ)) : Status × List Sent :=
  handleStream reg { timing with passes := passes } list

section Entry

variable {timing : StreamTiming σ} {list : SubscriptionList} {before rest : List Subscription}
  {sub : Subscription} (listed : list.subscription = before ++ sub :: rest)
  (onChange : resolveStreamMode sub reg = .onChange)

include listed onChange

/-- A further pass whose polls are reached sends for an entry what its poll has to say:
everything when the heartbeat is due, the changes since the last poll otherwise. -/
theorem entrySent_pass {front : List (LoopPass σ)} {pass : LoopPass σ}
    (isFront : front ++ [pass] <+: reachedPasses reg timing list) :
    entrySent (entryNumber reg timing before) (streamAfter reg timing list (front ++ [pass])).2 =
      entrySent (entryNumber reg timing before) (streamAfter reg timing list front).2 ++
        (pollNotes reg timing sub before.length (entryNumber reg timing before) front pass).map
          SubscribeResponse.update := by
  have written : ∀ passes, passes <+: reachedPasses reg timing list ->
      (streamAfter reg timing list passes).2 = (streamAfter reg timing list []).2 ++
        passWrites reg list passes (openingBuckets reg timing list) := by
    intro passes reached
    have opening : openingBuckets reg { timing with passes := passes } list = openingBuckets reg timing list :=
      fillBuckets_passes timing passes list.subscription 0 {}
    rw [streamAfter, handleStream_reached, reachedPasses_cut reached, opening]
    rfl
  have entry : (bucketsAfter reg front (openingBuckets reg timing list)).onChange[
      entryNumber reg timing before]? = _ := entry_after listed onChange front
  rw [written _ isFront, written front ((List.prefix_append front [pass]).trans isFront), passWrites_append,
    ← List.append_assoc, entrySent_append, entrySent_passWrites, entry, Option.elim_some, entryRun, entryRun,
    pollEntry_entryAt, List.append_nil]

/-- So does a further pass of an open stream. -/
theorem entrySent_snoc {front : List (LoopPass σ)} {pass : LoopPass σ}
    (open_ : (streamAfter reg timing list (front ++ [pass])).1.isOk = true) :
    entrySent (entryNumber reg timing before) (streamAfter reg timing list (front ++ [pass])).2 =
      entrySent (entryNumber reg timing before) (streamAfter reg timing list front).2 ++
        (pollNotes reg timing sub before.length (entryNumber reg timing before) front pass).map
          SubscribeResponse.update := by
  have reached : front ++ [pass] <+: reachedPasses reg { timing with passes := front ++ [pass] } list := by
    refine ⟨[], ?_⟩
    rw [List.append_nil]
    exact (reachedPasses_of_isOk open_).symm
  have sent := entrySent_pass listed onChange reached
  rw [entryNumber_passes] at sent
  exact sent

end Entry

/-! ## An entry alone -/

/-- A pass as the poll of entry `j` finds it. -/
def LoopPass.only (j : Nat) (pass : LoopPass σ) : LoopPass σ :=
  { pass with
    pollAt := fun _ => pass.pollAt j
    pollNow := fun _ => pass.pollNow j
    pollClock := fun _ => pass.pollClock j }

/-- A stream as subscription `i`, which is ON_CHANGE entry `j`, finds it. -/
def StreamTiming.only (i j : Nat) (timing : StreamTiming σ) : StreamTiming σ :=
  { timing with
    setupNow := fun _ => timing.setupNow i
    baselineAt := fun _ => timing.baselineAt i
    passes := timing.passes.map (LoopPass.only j) }

/-- A mode written into the subscription. -/
def withMode (mode : SubscriptionMode) (sub : Subscription) : Subscription :=
  { sub with mode := mode }

/-- The mode of an entry is not read by its polls. -/
theorem poll_withMode (reg : DataProviderRegistry σ) (mode : SubscriptionMode) (cur : Snapshot) (now : Int)
    (clock : Nat -> Int) (oc : OnChangeSub) :
    OnChangeSub.poll reg cur now clock { oc with sub := withMode mode oc.sub } =
      ({ (oc.poll reg cur now clock).1 with sub := withMode mode (oc.poll reg cur now clock).1.sub },
        (oc.poll reg cur now clock).2) := by
  simp only [OnChangeSub.poll, withMode]
  by_cases due : heartbeatDue oc.sub.heartbeatInterval oc.lastHeartbeat now = true
  · simp only [due, if_true]
  · rw [Bool.not_eq_true] at due
    simp only [due, Bool.false_eq_true, if_false]

theorem entryRun_only (j : Nat) (mode : SubscriptionMode) (passes : List (LoopPass σ)) (oc : OnChangeSub) :
    entryRun reg 0 (passes.map (LoopPass.only j)) { oc with sub := withMode mode oc.sub } =
      entryRun reg j passes oc := by
  induction passes generalizing oc with
  | nil => rfl
  | cons pass rest inductionHypothesis =>
      have polled : pollEntry reg (LoopPass.only j pass) 0 { oc with sub := withMode mode oc.sub } =
          ({ (pollEntry reg pass j oc).1 with sub := withMode mode (pollEntry reg pass j oc).1.sub },
            (pollEntry reg pass j oc).2) := poll_withMode reg mode _ _ _ oc
      rw [List.map_cons, entryRun, entryRun, polled, inductionHypothesis]

/-- The entries of a stream do not interfere.  What an open stream sends for the
subscription that follows `before` in its list, when it is served by changes, is what a
stream for this subscription alone sends that asks for changes by name and finds the same
states and clock readings at its set-up and polls. -/
theorem entry_alone (reg : DataProviderRegistry σ) {timing : StreamTiming σ} {list : SubscriptionList}
    {before rest : List Subscription} {sub : Subscription}
    (open_ : (handleStream reg timing list).1.isOk = true)
    (listed : list.subscription = before ++ sub :: rest)
    (onChange : resolveStreamMode sub reg = .onChange) :
    let j := entryNumber reg timing before
    let alone := handleStream reg (StreamTiming.only before.length j timing)
      (withSubscriptions list [withMode .onChange sub])
    alone.1 = Status.OK ∧
      entrySent j (handleStream reg timing list).2 = entrySent 0 alone.2 := by
  intro j alone
  have bounded := bounded_of_isOk open_
  have member : sub ∈ list.subscription := listed ▸ List.mem_append_right _ List.mem_cons_self
  have aloneBounded : ∀ other ∈ (withSubscriptions list [withMode .onChange sub]).subscription,
      other.sampleInterval.toNat ≤ maxInterval := by
    intro other inAlone
    rw [List.mem_singleton.mp inAlone]
    exact bounded sub member
  have started : (initialBuild reg (StreamTiming.only before.length j timing)
      (withSubscriptions list [withMode .onChange sub])).1.isOk = true := by
    have initially := (handleStream_of_isOk open_).1
    rw [initialBuild] at initially ⊢
    split
    · rfl
    · rename_i initialEmit
      have emits : ¬ list.updatesOnly = true := initialEmit
      rw [if_neg emits, build_isOk_iff] at initially
      rw [build_isOk_iff]
      refine ⟨initially.1, fun other inAlone => ?_⟩
      rw [List.mem_singleton.mp inAlone]
      exact initially.2 sub member
  have aloneOpening : openingBuckets reg (StreamTiming.only before.length j timing)
      (withSubscriptions list [withMode .onChange sub]) =
        { chronomap := []
          onChange := [{ entryOf reg timing sub before.length with
            sub := withMode .onChange (entryOf reg timing sub before.length).sub }] } := rfl
  have aloneStream : alone = streamLoop reg (withSubscriptions list [withMode .onChange sub])
      (timing.passes.map (LoopPass.only j)) (openingBuckets reg (StreamTiming.only before.length j timing)
        (withSubscriptions list [withMode .onChange sub]))
      (writeAll .build (initialBuild reg (StreamTiming.only before.length j timing)
        (withSubscriptions list [withMode .onChange sub])).2 ++ syncResponse) := by
    change handleStream _ _ _ = _
    rw [handleStream_of_bounded _ aloneBounded, if_pos started]
    rfl
  have aloneOpen : alone.1.isOk = true := by
    rw [aloneStream, aloneOpening]
    exact streamLoop_of_no_samples _ _ rfl _
  refine ⟨?_, ?_⟩
  · rw [aloneStream] at aloneOpen ⊢
    rw [streamLoop_of_isOk aloneOpen]
  · rw [entrySent_stream open_, entrySent_stream aloneOpen, aloneOpening, opening_entry listed onChange]
    exact (entryRun_only j .onChange timing.passes (entryOf reg timing sub before.length)).symm

/-- The host name twice, with heartbeats and without. -/
theorem entry_alone_hostname :
    entrySent (entryNumber Server.registry (renameTiming beforeRename) [beatingSub 5])
        (handleStream Server.registry (renameTiming beforeRename)
          (withSubscriptions hostnameList [beatingSub 5, hostnameSub])).2 =
      entrySent 0 (handleStream Server.registry (StreamTiming.only 1
          (entryNumber Server.registry (renameTiming beforeRename) [beatingSub 5]) (renameTiming beforeRename))
        (withSubscriptions (withSubscriptions hostnameList [beatingSub 5, hostnameSub])
          [withMode .onChange hostnameSub])).2 := by
  have open_ : (handleStream Server.registry (renameTiming beforeRename)
      (withSubscriptions hostnameList [beatingSub 5, hostnameSub])).1.isOk = true := by
    decide +kernel
  have listed : (withSubscriptions hostnameList [beatingSub 5, hostnameSub]).subscription =
      [beatingSub 5] ++ hostnameSub :: [] := rfl
  exact (entry_alone Server.registry open_ listed (by decide +kernel)).2

/-! ## Modes the target chooses -/

theorem mapIdx_of_map {α β γ : Type} (items : List α) (g : α -> β) (f : Nat -> β -> γ) :
    (items.map g).mapIdx f = items.mapIdx (fun i item => f i (g item)) := by
  apply List.ext_getElem?
  intro i
  rw [List.getElem?_mapIdx, List.getElem?_mapIdx, List.getElem?_map, Option.map_map]
  rfl

theorem map_of_mapIdx {α β γ : Type} (items : List α) (f : Nat -> α -> β) (g : β -> γ) :
    (items.mapIdx f).map g = items.mapIdx (fun i item => g (f i item)) := by
  apply List.ext_getElem?
  intro i
  rw [List.getElem?_map, List.getElem?_mapIdx, List.getElem?_mapIdx, Option.map_map]
  rfl

/-- The subscription with the mode it is served in. -/
def resolved (reg : DataProviderRegistry σ) (sub : Subscription) : Subscription :=
  withMode (resolveStreamMode sub reg) sub

/-- A mode that is chosen stays chosen. -/
theorem resolveStreamMode_resolved (sub : Subscription) :
    resolveStreamMode (resolved reg sub) reg = resolveStreamMode sub reg := by
  cases mode : sub.mode with
  | targetDefined =>
      simp only [resolved, withMode, resolveStreamMode, mode]
      cases reg.preferredMode (gnmiToXpath sub.path) <;> rfl
  | onChange => simp only [resolved, withMode, resolveStreamMode, mode]
  | sample => simp only [resolved, withMode, resolveStreamMode, mode]
  | unrecognized number => simp only [resolved, withMode, resolveStreamMode, mode]

/-- The buckets with the chosen modes written into their subscriptions. -/
def resolvedBuckets (reg : DataProviderRegistry σ) (buckets : Buckets) : Buckets where
  chronomap := buckets.chronomap.map (fun entry => (resolved reg entry.1, entry.2))
  onChange := buckets.onChange.map (fun oc => { oc with sub := resolved reg oc.sub })

theorem fillBuckets_resolved (timing : StreamTiming σ) (subs : List Subscription) (i : Nat)
    (buckets : Buckets) :
    fillBuckets reg timing (subs.map (resolved reg)) i (resolvedBuckets reg buckets) =
      resolvedBuckets reg (fillBuckets reg timing subs i buckets) := by
  induction subs generalizing i buckets with
  | nil => rfl
  | cons sub rest inductionHypothesis =>
      have step : addToBucket reg timing i (resolvedBuckets reg buckets) (resolved reg sub) =
          resolvedBuckets reg (addToBucket reg timing i buckets sub) := by
        rw [addToBucket, addToBucket, resolveStreamMode_resolved]
        cases resolveStreamMode sub reg with
        | sample =>
            rw [resolvedBuckets, resolvedBuckets]
            simp only [List.map_append, List.map_cons, List.map_nil]
        | onChange =>
            rw [resolvedBuckets, resolvedBuckets]
            simp only [List.map_append, List.map_cons, List.map_nil]
            rfl
        | targetDefined => rfl
        | unrecognized number => rfl
      rw [List.map_cons, fillBuckets, fillBuckets, step, inductionHypothesis]

theorem mergeLoop_resolved (found : Nat -> σ) (subs : List Subscription) (i : Nat) (merged : Snapshot) :
    mergeLoop reg found (subs.map (resolved reg)) i merged = mergeLoop reg found subs i merged := by
  induction subs generalizing i merged with
  | nil => rfl
  | cons sub rest inductionHypothesis =>
      rw [List.map_cons, mergeLoop, mergeLoop]
      simp only [inductionHypothesis]
      rfl

/-- No build reads a mode. -/
theorem build_resolved (found : Nat -> σ) (clock : Nat -> Int) (list : SubscriptionList)
    (subs : List Subscription) :
    buildSubscribeNotifications reg found clock (withSubscriptions list (subs.map (resolved reg))) =
      buildSubscribeNotifications reg found clock (withSubscriptions list subs) := by
  rw [buildSubscribeNotifications, buildSubscribeNotifications]
  simp only [withSubscriptions, mergeLoop_resolved]
  rfl

theorem dueSubscriptions_resolved (pass : LoopPass σ) (buckets : Buckets) :
    dueSubscriptions pass (resolvedBuckets reg buckets).chronomap =
      (dueSubscriptions pass buckets.chronomap).map (resolved reg) := by
  rw [dueSubscriptions, dueSubscriptions, resolvedBuckets, mapIdx_of_map, List.map_flatten, map_of_mapIdx]
  refine congrArg (fun step => (List.mapIdx step buckets.chronomap).flatten) ?_
  funext j entry
  change (if sampleDue pass j entry = true then [resolved reg entry.1] else []) = _
  split
  · rfl
  · rfl

theorem pollEntry_sub (reg : DataProviderRegistry σ) (pass : LoopPass σ) (j : Nat) (oc : OnChangeSub) :
    (pollEntry reg pass j oc).1.sub = oc.sub := by
  rw [pollEntry, OnChangeSub.poll]
  split
  · rfl
  · rfl

theorem pollEntry_resolved (reg : DataProviderRegistry σ) (pass : LoopPass σ) (j : Nat) (oc : OnChangeSub) :
    pollEntry reg pass j { oc with sub := resolved reg oc.sub } =
      ({ (pollEntry reg pass j oc).1 with sub := resolved reg (pollEntry reg pass j oc).1.sub },
        (pollEntry reg pass j oc).2) := by
  have polled : pollEntry reg pass j { oc with sub := resolved reg oc.sub } =
      ({ (pollEntry reg pass j oc).1 with
          sub := withMode (resolveStreamMode oc.sub reg) (pollEntry reg pass j oc).1.sub },
        (pollEntry reg pass j oc).2) := poll_withMode reg (resolveStreamMode oc.sub reg) _ _ _ oc
  rw [polled, resolved, pollEntry_sub]

theorem nextBuckets_resolved (reg : DataProviderRegistry σ) (pass : LoopPass σ) (buckets : Buckets) :
    nextBuckets reg (resolvedBuckets reg buckets) pass = resolvedBuckets reg (nextBuckets reg buckets pass) := by
  rw [nextBuckets, nextBuckets, resolvedBuckets, resolvedBuckets]
  refine congr (congrArg Buckets.mk ?_) ?_
  · rw [advanceChronomap, advanceChronomap, mapIdx_of_map, map_of_mapIdx]
    refine congrArg (fun step => List.mapIdx step buckets.chronomap) ?_
    funext j entry
    change (if sampleDue pass j entry = true then (resolved reg entry.1, pass.sampledNow j)
      else (resolved reg entry.1, entry.2)) = _
    split
    · rfl
    · rfl
  · rw [mapIdx_of_map, map_of_mapIdx]
    refine congrArg (fun step => List.mapIdx step buckets.onChange) ?_
    funext j oc
    exact congrArg Prod.fst (pollEntry_resolved reg pass j oc)

theorem streamLoop_resolved (list : SubscriptionList) (passes : List (LoopPass σ)) (buckets : Buckets)
    (sent : List Sent) :
    streamLoop reg (withSubscriptions list (list.subscription.map (resolved reg))) passes
        (resolvedBuckets reg buckets) sent =
      streamLoop reg list passes buckets sent := by
  induction passes generalizing buckets sent with
  | nil => rfl
  | cons pass rest inductionHypothesis =>
      have sampled : runSample reg (withSubscriptions list (list.subscription.map (resolved reg))) pass
          (resolvedBuckets reg buckets).chronomap = runSample reg list pass buckets.chronomap := by
        rw [runSample, runSample, dueSubscriptions_resolved, List.isEmpty_map]
        split
        · rfl
        · exact build_resolved pass.sampleAt pass.sampleClock list (dueSubscriptions pass buckets.chronomap)
      have polled : pollWrites reg pass (resolvedBuckets reg buckets).onChange =
          pollWrites reg pass buckets.onChange := by
        rw [pollWrites, pollWrites, resolvedBuckets, mapIdx_of_map]
        refine congrArg (fun step => (List.mapIdx step buckets.onChange).flatten) ?_
        funext j oc
        exact congrArg (fun outcome => writeAll (.onChange j) outcome.2) (pollEntry_resolved reg pass j oc)
      have next := nextBuckets_resolved reg pass buckets
      rw [nextBuckets, nextBuckets] at next
      rw [streamLoop, streamLoop, sampled, polled, next, inductionHypothesis]

/-- A target-defined mode is decided once and for all.  Whatever happens during it, a stream
runs exactly as if the client had asked, subscription by subscription, for the mode the
target resolves: same status, same messages. -/
theorem modes_resolved (reg : DataProviderRegistry σ) (timing : StreamTiming σ) (list : SubscriptionList) :
    handleStream reg timing (withSubscriptions list (list.subscription.map (resolved reg))) =
      handleStream reg timing list := by
  by_cases bounded : ∀ sub ∈ list.subscription, sub.sampleInterval.toNat ≤ maxInterval
  · have resolvedBounded : ∀ sub ∈ (withSubscriptions list (list.subscription.map (resolved reg))).subscription,
        sub.sampleInterval.toNat ≤ maxInterval := by
      intro sub member
      rcases List.mem_map.mp member with ⟨original, listed, rfl⟩
      exact bounded original listed
    have built : initialBuild reg timing (withSubscriptions list (list.subscription.map (resolved reg))) =
        initialBuild reg timing list :=
      congrArg (fun built => if list.updatesOnly then (Status.OK, []) else built)
        (build_resolved timing.initialAt timing.initialClock list list.subscription)
    have opening : openingBuckets reg timing (withSubscriptions list (list.subscription.map (resolved reg))) =
        resolvedBuckets reg (openingBuckets reg timing list) :=
      fillBuckets_resolved timing list.subscription 0 {}
    rw [handleStream_of_bounded timing bounded, handleStream_of_bounded timing resolvedBounded, built,
      opening, streamLoop_resolved]
  · have same : (list.subscription.map (resolved reg)).any
        (fun sub => decide (maxInterval < sub.sampleInterval.toNat)) =
          list.subscription.any (fun sub => decide (maxInterval < sub.sampleInterval.toNat)) := by
      rw [List.any_map]
      rfl
    have large : list.subscription.any (fun sub => decide (maxInterval < sub.sampleInterval.toNat)) = true := by
      push Not at bounded
      rcases bounded with ⟨sub, listed, tooLarge⟩
      exact List.any_eq_true.mpr ⟨sub, listed, decide_eq_true tooLarge⟩
    have resolvedLarge : (withSubscriptions list (list.subscription.map (resolved reg))).subscription.any
        (fun sub => decide (maxInterval < sub.sampleInterval.toNat)) = true := same.trans large
    rw [handleStream, handleStream, if_pos resolvedLarge, if_pos large]

end Telemetry
end PscMockServer
