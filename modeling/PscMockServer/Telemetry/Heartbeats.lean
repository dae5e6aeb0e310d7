import PscMockServer.Foundations.Runs
import PscMockServer.Gnmi.Subscribe
import PscMockServer.Server.Queries
import PscMockServer.Telemetry.EmitterScripts

namespace PscMockServer
namespace Telemetry

open Foundations Gnmi Utils Backend

/-!
# Heartbeats and deletions

An ON_CHANGE entry alternates between two emitters over one `prev`.  The change
emission carries the view from `prev` to the current snapshot.  The heartbeat sends
the current snapshot only, so it does so exactly when no leaf vanished since `prev`,
apart from leaves whose container is re-sent.
-/

/-- What one poll finds: the snapshot, the time, and the readings for its notifications. -/
structure Observation where
  cur : Snapshot
  now : Int
  clock : Nat -> Int

/-- The server's entry and the view of the client that listens to it. -/
structure Watched where
  entry : Subscribe.OnChangeSub
  view : View

variable {σ : Type} {reg : DataProviderRegistry σ}

/-- One iteration: the entry is polled and the client applies what was written. -/
def observe (reg : DataProviderRegistry σ) (w : Watched) (o : Observation) : Watched :=
  let polled := w.entry.poll reg o.cur o.now o.clock
  { entry := polled.1, view := applyNotifications w.view polled.2 }

/-- The client's view is the server's `prev`. -/
def InStep (w : Watched) : Prop :=
  Shows w.view w.entry.prev

/-- The poll sends a heartbeat. -/
def HeartbeatAt (entry : Subscribe.OnChangeSub) (o : Observation) : Prop :=
  heartbeatDue entry.sub.heartbeatInterval entry.lastHeartbeat o.now = true

theorem observe_prev (w : Watched) (o : Observation) : (observe reg w o).entry.prev = o.cur := by
  unfold observe Subscribe.OnChangeSub.poll
  dsimp only
  split <;> rfl

/-- What one iteration does to the invariant. -/
theorem observe_inStep_iff (law : AtomicLaw reg.atomicPrefix) {w : Watched} {o : Observation}
    (canonicalPrev : CanonicalKeys w.entry.prev) (canonicalCur : CanonicalKeys o.cur)
    (inStep : InStep w) :
    InStep (observe reg w o) ↔
      (HeartbeatAt w.entry o -> HeartbeatSafe reg.atomicPrefix w.entry.prev o.cur) := by
  have shown := (shows_iff canonicalPrev w.view).mp inStep
  rw [InStep, observe_prev, shows_iff canonicalCur]
  unfold observe Subscribe.OnChangeSub.poll HeartbeatAt
  dsimp only
  rw [shown]
  by_cases due : heartbeatDue w.entry.sub.heartbeatInterval w.entry.lastHeartbeat o.now = true
  · rw [if_pos due, applyNotifications_full_iff canonicalPrev canonicalCur law]
    exact ⟨fun safe _ => safe, fun safe => safe due⟩
  · rw [if_neg due]
    exact ⟨fun _ beat => absurd beat due,
      fun _ => applyNotifications_change canonicalPrev canonicalCur law o.clock⟩

/-- Starting in step, the client stays in step through every pattern of polls and
heartbeats exactly when every heartbeat comes at a moment when no leaf has vanished
since the last poll, unless its container is still there. -/
theorem heartbeats_keep_deletions_iff (law : AtomicLaw reg.atomicPrefix) {start : Watched}
    (canonicalStart : CanonicalKeys start.entry.prev) (inStep : Shows start.view start.entry.prev)
    {observations : List Observation} (canonical : ∀ o ∈ observations, CanonicalKeys o.cur) :
    (∀ front, front <+: observations ->
        Shows (runSteps (observe reg) start front).view
          (runSteps (observe reg) start front).entry.prev) ↔
      ∀ front o, front ++ [o] <+: observations ->
        HeartbeatAt (runSteps (observe reg) start front).entry o ->
          HeartbeatSafe reg.atomicPrefix (runSteps (observe reg) start front).entry.prev o.cur := by
  have canonicalAt : ∀ front, front <+: observations ->
      CanonicalKeys (runSteps (observe reg) start front).entry.prev := by
    intro front isFront
    induction front using List.reverseRecOn with
    | nil => exact canonicalStart
    | append_singleton front o _ =>
        rw [runSteps_snoc, observe_prev]
        exact canonical o (mem_of_snoc isFront)
  have step : ∀ w, ∀ o ∈ observations, CanonicalKeys w.entry.prev ∧ InStep w ->
      ((CanonicalKeys (observe reg w o).entry.prev ∧ InStep (observe reg w o)) ↔
        (HeartbeatAt w.entry o -> HeartbeatSafe reg.atomicPrefix w.entry.prev o.cur)) := by
    intro w o member good
    rw [observe_prev]
    exact (and_iff_right (canonical o member)).trans
      (observe_inStep_iff law good.1 (canonical o member) good.2)
  have throughout := invariant_throughout_iff (observe reg)
    (fun w => CanonicalKeys w.entry.prev ∧ InStep w)
    (fun w o => HeartbeatAt w.entry o -> HeartbeatSafe reg.atomicPrefix w.entry.prev o.cur)
    observations step ⟨canonicalStart, inStep⟩
  refine Iff.trans ?_ throughout
  constructor
  · exact fun shown front isFront => ⟨canonicalAt front isFront, shown front isFront⟩
  · exact fun good front isFront => (good front isFront).2

/-! ## A leaf of a record deleted right before a heartbeat -/

/-- The record of the time server. -/
def recordPath : Path :=
  xpathToGnmiPath SystemConfigProvider.NTP_CONFIG {}

def recordPort : Str :=
  SystemConfigProvider.NTP_CONFIG ++ "/port".toList

def recordEntry : Subscribe.OnChangeSub where
  sub := { path := recordPath, mode := .onChange, heartbeatInterval := 10 }
  query := gnmiToXpath recordPath
  prev := (Server.registry.snapshot (Server.initialStores 1 2) (gnmiToXpath recordPath)).snap
  lastHeartbeat := 0

def recordWatched : Watched where
  entry := recordEntry
  view := viewOf recordEntry.prev

def deletePort : SetRequest where
  delete := [xpathToGnmiPath recordPort {}]

/-- A Set deleted the port since the last poll. -/
def portHeartbeat : Observation where
  cur := (Server.registry.snapshot
    (Gnmi.Set.run Server.registry (Server.initialStores 1 2) 3 deletePort).1 (gnmiToXpath recordPath)).snap
  now := 10
  clock := fun _ => 10

/-- Every declared leaf that the record's path selects is in the record. -/
theorem recordPath_selects : ∀ key ∈ Server.sensorPaths ++ Server.configPaths,
    selects (stripPathQuotes (gnmiToXpath recordPath)) key = true ->
      Server.registry.atomicPrefix key = some SystemConfigProvider.NTP_CONFIG := by
  decide +kernel

theorem recordEntry_canonical : CanonicalKeys recordEntry.prev :=
  Server.snapshot_canonical (Server.initial_invariant 1 2) _

theorem portHeartbeat_canonical : CanonicalKeys portHeartbeat.cur :=
  Server.snapshot_canonical ((Server.initial_invariant 1 2).set deletePort 3) _

theorem recordWatched_inStep : Shows recordWatched.view recordWatched.entry.prev :=
  (shows_iff recordEntry_canonical _).mpr rfl

/-- What vanished is in the record, and the record still has its address. -/
theorem portHeartbeat_safe :
    HeartbeatSafe Server.registry.atomicPrefix recordEntry.prev portHeartbeat.cur := by
  intro key leaf before _
  have started := Server.initial_invariant 1 2
  rcases (Server.snapshot_iff started _ key leaf).mp before with ⟨_, holds, selected⟩
  have address : (portHeartbeat.cur[SystemConfigProvider.NTP_CONFIG ++ "/address".toList]?).isSome = true ∧
      Server.registry.atomicPrefix (SystemConfigProvider.NTP_CONFIG ++ "/address".toList) =
        some SystemConfigProvider.NTP_CONFIG := by
    decide +kernel
  rcases Option.isSome_iff_exists.mp address.1 with ⟨addressLeaf, held⟩
  exact ⟨SystemConfigProvider.NTP_CONFIG, recordPath_selects key (started.listed holds) selected, _, addressLeaf,
    address.2, held⟩

/-- The heartbeat sends the rest of the record, which takes the port away from the client. -/
theorem heartbeats_keep_deletions_record :
    HeartbeatAt recordWatched.entry portHeartbeat ∧
      (recordWatched.entry.prev[recordPort]?).isSome = true ∧ portHeartbeat.cur[recordPort]? = none ∧
      Shows (runSteps (observe Server.registry) recordWatched [portHeartbeat]).view
        (runSteps (observe Server.registry) recordWatched [portHeartbeat]).entry.prev := by
  have due : HeartbeatAt recordWatched.entry portHeartbeat := by
    unfold HeartbeatAt
    decide
  have canonical : ∀ o ∈ [portHeartbeat], CanonicalKeys o.cur := by
    intro o member
    rw [List.mem_singleton.mp member]
    exact portHeartbeat_canonical
  have kept := heartbeats_keep_deletions_iff Server.registry_atomicLaw recordEntry_canonical
    recordWatched_inStep canonical
  refine ⟨due, by decide +kernel, by decide +kernel, kept.mpr ?_ [portHeartbeat] (List.prefix_refl _)⟩
  intro front o isFront _
  have single : front = [] ∧ o = portHeartbeat := by
    cases front with
    | nil => exact ⟨rfl, List.mem_singleton.mp (mem_of_snoc isFront)⟩
    | cons first rest =>
        have length := isFront.length_le
        simp at length
  rw [single.1, single.2]
  exact portHeartbeat_safe

/-! ## A host name deleted right before a heartbeat -/

/-- The entry of a subscription to the host name, with a heartbeat interval. -/
def hostnameEntry : Subscribe.OnChangeSub where
  sub := { path := Server.hostnamePath, mode := .onChange, heartbeatInterval := 10 }
  query := gnmiToXpath Server.hostnamePath
  prev := (Server.registry.snapshot (Server.initialStores 1 2) (gnmiToXpath Server.hostnamePath)).snap
  lastHeartbeat := 0

def hostnameWatched : Watched where
  entry := hostnameEntry
  view := viewOf hostnameEntry.prev

/-- A Set deleted the host name since the last poll. -/
def deletionHeartbeat : Observation where
  cur := (Server.registry.snapshot
    (Gnmi.Set.run Server.registry (Server.initialStores 1 2) 3 { delete := [Server.hostnamePath] }).1
    (gnmiToXpath Server.hostnamePath)).snap
  now := 10
  clock := fun _ => 10

theorem hostnameEntry_canonical : CanonicalKeys hostnameEntry.prev :=
  Server.snapshot_canonical (Server.initial_invariant 1 2) _

theorem deletionHeartbeat_canonical : CanonicalKeys deletionHeartbeat.cur :=
  Server.snapshot_canonical ((Server.initial_invariant 1 2).set _ 3) _

theorem hostnameWatched_inStep : Shows hostnameWatched.view hostnameWatched.entry.prev :=
  (shows_iff hostnameEntry_canonical _).mpr rfl

/-- The heartbeat that follows the deletion leaves the deleted host name in the view. -/
theorem heartbeat_swallows_deletion :
    Shows hostnameWatched.view hostnameWatched.entry.prev ∧
      HeartbeatAt hostnameWatched.entry deletionHeartbeat ∧
      ¬ Shows (runSteps (observe Server.registry) hostnameWatched [deletionHeartbeat]).view
        (runSteps (observe Server.registry) hostnameWatched [deletionHeartbeat]).entry.prev := by
  have due : HeartbeatAt hostnameWatched.entry deletionHeartbeat := by
    unfold HeartbeatAt
    decide
  refine ⟨hostnameWatched_inStep, due, fun shown => ?_⟩
  have safe := (observe_inStep_iff Server.registry_atomicLaw hostnameEntry_canonical
    deletionHeartbeat_canonical hostnameWatched_inStep).mp shown due
  have before : (hostnameEntry.prev["/system/config/hostname".toList]?).isSome = true := by
    decide +kernel
  have after : deletionHeartbeat.cur["/system/config/hostname".toList]? = none := by
    decide +kernel
  rcases Option.isSome_iff_exists.mp before with ⟨leaf, stored⟩
  rcases safe "/system/config/hostname".toList leaf stored after with ⟨container, answered, _⟩
  have loose : Server.registry.atomicPrefix "/system/config/hostname".toList = none := by
    decide +kernel
  exact absurd (loose.symm.trans answered) (Option.some_ne_none container).symm

end Telemetry
end PscMockServer
