import PscMockServer.Foundations.Histories
import PscMockServer.Server.LastWrites
import PscMockServer.Server.SensorAnswers
import PscMockServer.Telemetry.Traces

namespace PscMockServer
namespace Server

open Foundations Gnmi Utils Backend Telemetry
open Backend.PscPowerSensorProvider (Walk Iteration walksAfter lastCommit)

/-!
# Where the leaves come from

Sets and ticks write the leaves, each its own.  So a leaf that a look at the server finds
was there when the server was built, or the last event before the look that wrote its path
has written it, and the answers to Get and the builds of Subscribe are made of such leaves.
-/

/-! ## What one event writes -/

/-- What an event leaves at a path it writes: a Set what its last operation there says, a
tick the value that the walk of the path has in the simulator then. -/
inductive Writes (key : Str) (front : List Action) : Action -> Option Leaf -> Prop
  | set (request : SetRequest) (now : Int) (plain : request.extensionSize = 0)
      (acceptable : Acceptable request) (addressed : Addresses request key) :
      Writes key front (.set request now) (written request now key)
  | tick (now : Int) (draws : Nat -> PscPowerSensorProvider.Draw) (walk : Walk)
      (walked : walk ∈ walksAfter (ticks front ++ [⟨now, draws⟩])) (isPath : key = walk.path) :
      Writes key front (.tick now draws)
        (some { val := .doubleVal walk.value, collectedNs := now, type := .operational })

/-- The configuration provider alone has the declared configuration. -/
theorem Invariant.storedLeaf_config {s : Stores} (inv : Invariant s) {key : Str}
    (declared : key ∈ configPaths) : storedLeaf s key = s.config.store.leaves[key]? := by
  rw [storedLeaf]
  cases sensor : s.sensor.store.leaves[key]? with
  | none => exact Option.none_or
  | some leaf =>
      have inSensor := sensorPaths_routed key (inv.sensor_leaf sensor).1
      exact absurd ((List.prefix_append sensorPrefix ['[']).trans inSensor) (configPaths_apart key declared).1

theorem Acceptable.declared {request : SetRequest} (acceptable : Acceptable request) {key : Str}
    (addressed : Addresses request key) : key ∈ configPaths := by
  rcases (addresses_iff request key).mp addressed with ⟨path, listed, rfl⟩ | ⟨upd, listed, rfl⟩
  · exact (declaredConfig_iff _).mp (acceptable.1 path listed)
  · exact (declaredConfig_iff _).mp (acceptable.2 upd listed).2.2

/-- A Set keeps the leaf of a path or writes it. -/
theorem Invariant.set_writes {s : Stores} (inv : Invariant s) (front : List Action) (request : SetRequest)
    (now : Int) (key : Str) :
    storedLeaf (Gnmi.Set.run registry s now request).1 key = storedLeaf s key ∨
      Writes key front (.set request now) (storedLeaf (Gnmi.Set.run registry s now request).1 key) := by
  have effect := inv.set_effect request now
  dsimp only at effect
  by_cases accepted : request.extensionSize = 0 ∧ Acceptable request
  · have sets : acceptedSets [.set request now] = [(request, now)] := by
      rw [acceptedSets, List.filterMap_cons, acceptedSet, if_pos accepted]
      rfl
    rw [sets, leavesAfter, List.foldl_cons, List.foldl_nil] at effect
    by_cases addressed : Addresses request key
    · right
      rw [(inv.set request now).storedLeaf_config (accepted.2.declared addressed), effect.2,
        applyInOrder_find, leafAfter_of_addresses addressed]
      exact Writes.set request now accepted.1 accepted.2 addressed
    · left
      rw [storedLeaf, storedLeaf, effect.1, effect.2, applyInOrder_find,
        leafAfter_of_not_addresses addressed]
  · left
    have sets : acceptedSets [.set request now] = [] := by
      rw [acceptedSets, List.filterMap_cons, acceptedSet, if_neg accepted]
      rfl
    rw [sets] at effect
    rw [storedLeaf, storedLeaf, effect.1, effect.2]
    rfl

variable (sensorNow configNow : Int)

/-- What the server has at a path after a history. -/
def leafThen (key : Str) (history : List Action) : Option Leaf :=
  storedLeaf (storesAfter sensorNow configNow history) key

theorem storesAfter_set (front : List Action) (request : SetRequest) (now : Int) :
    storesAfter sensorNow configNow (front ++ [.set request now]) =
      (Gnmi.Set.run registry (storesAfter sensorNow configNow front) now request).1 := by
  rw [storesAfter, World.run_snoc]
  rfl

theorem storesAfter_tick (front : List Action) (now : Int) (draws : Nat -> PscPowerSensorProvider.Draw) :
    (storesAfter sensorNow configNow (front ++ [.tick now draws])).config =
      (storesAfter sensorNow configNow front).config := by
  rw [storesAfter, World.run_snoc]
  rfl

theorem storesAfter_invariant (history : List Action) : Invariant (storesAfter sensorNow configNow history) :=
  ((initialWorld_good sensorNow configNow).run history).1

/-- A tick writes the paths of the walks and no others. -/
theorem leafThen_law (key : Str) : WriteLaw (leafThen sensorNow configNow key) (Writes key) := by
  intro front action
  rw [leafThen, leafThen]
  cases action with
  | set request now =>
      rw [storesAfter_set]
      exact (storesAfter_invariant sensorNow configNow front).set_writes front request now key
  | tick now draws =>
      rw [storedLeaf, storedLeaf, storesAfter_tick]
      by_cases walked : ∃ walk ∈ walksAfter (ticks (front ++ [.tick now draws])), key = walk.path
      · rcases walked with ⟨walk, member, isPath⟩
        right
        have stored := (sensor_find sensorNow configNow (front ++ [.tick now draws]) key _).mpr
          ⟨walk, member, isPath, rfl⟩
        rw [stored, Option.some_or, sensorLeaf, ticks_tick, lastCommit, List.getLast?_concat]
        rw [ticks_tick] at member
        exact Writes.tick now draws walk member isPath
      · left
        have never : ∀ history, (storesAfter sensorNow configNow history).sensor.store.leaves[key]? = none := by
          intro history
          rw [Option.eq_none_iff_forall_ne_some]
          intro leaf stored
          rcases (sensor_find sensorNow configNow history key leaf).mp stored with ⟨walk, member, rfl, _⟩
          rcases exists_walk (ticks (front ++ [.tick now draws])) (walk_path member).1 with
            ⟨other, present, same⟩
          exact walked ⟨other, present, same.symm⟩
        rw [never, never]

/-! ## Where a leaf comes from -/

/-- The leaf was there when the server was built, or an event of the history wrote it, and
it has been there ever since. -/
inductive Origin (history : List Action) (key : Str) (leaf : Leaf) : Prop
  | built (held : storedLeaf (initialStores sensorNow configNow) key = some leaf)
      (since : Unchanged (leafThen sensorNow configNow key) [] history)
  | event (front : List Action) (action : Action) (listed : front ++ [action] <+: history)
      (writes : Writes key front action (some leaf))
      (since : Unchanged (leafThen sensorNow configNow key) (front ++ [action]) history)

/-- A look at this moment finds the leaf: it is there, it has an origin in the history, and
the query selects it. -/
structure FoundAt (history : List Action) (query key : Str) (leaf : Leaf) : Prop where
  held : leafThen sensorNow configNow key history = some leaf
  origin : Origin sensorNow configNow history key leaf
  selected : selects (stripPathQuotes query) key = true

theorem origin_of_held {history : List Action} {key : Str} {leaf : Leaf}
    (held : leafThen sensorNow configNow key history = some leaf) :
    Origin sensorNow configNow history key leaf := by
  rcases (leafThen_law sensorNow configNow key).last_writer (List.nil_prefix (l := history)) with
    unchanged | ⟨front, action, between, writes, since⟩
  · exact Origin.built ((unchanged.eq List.nil_prefix).trans held) unchanged
  · exact Origin.event front action between.before (held ▸ writes) since

/-- What a look finds. -/
def snapThen (query : Str) (history : List Action) : Snapshot :=
  (registry.snapshot (storesAfter sensorNow configNow history) query).snap

theorem foundAt_of_snapshot {history : List Action} {query key : Str} {leaf : Leaf}
    (found : (snapThen sensorNow configNow query history)[key]? = some leaf) :
    FoundAt sensorNow configNow history query key leaf := by
  have inv := storesAfter_invariant sensorNow configNow history
  have selected := ((snapshot_iff inv query key leaf).mp found).2
  have held := (storedLeaf_iff inv key leaf).mpr selected.1
  exact ⟨held, origin_of_held sensorNow configNow held, selected.2⟩

/-! ## Get and the builds of Subscribe -/

/-- What the look of a build for one of its subscriptions finds. -/
def FoundBy (found : Nat -> List Action) (subs : List Subscription) (key : Str) (leaf : Leaf) : Prop :=
  ∃ i sub, subs[i]? = some sub ∧ FoundAt sensorNow configNow (found i) (gnmiToXpath sub.path) key leaf

theorem traced_build (found : Nat -> List Action) (clock : Nat -> Int) (list : SubscriptionList)
    {n : Notification} (emitted : n ∈ (Subscribe.buildSubscribeNotifications registry
      (fun i => storesAfter sensorNow configNow (found i)) clock list).2) :
    Traced (FoundBy sensorNow configNow found list.subscription) list.pathPrefix clock n ∧ n.delete = [] := by
  have valid : ∀ i, Invariant (storesAfter sensorNow configNow (found i)) :=
    fun i => storesAfter_invariant sensorNow configNow (found i)
  by_cases buildable : Subscribe.Buildable registry list
  · rw [Subscribe.build_of_buildable _ _ buildable] at emitted
    refine traced_full registry_atomicLaw.within
      (registry_serves.mergedReads_canonical valid list.subscription 0) ?_ emitted
    intro key leaf read
    rcases firstRead_held valid read with ⟨i, sub, listed, selected⟩
    have held := (storedLeaf_iff (valid i) key leaf).mpr selected.1
    exact ⟨i, sub, listed, held, origin_of_held sensorNow configNow held, selected.2⟩
  · rw [Subscribe.build_of_not_buildable _ _ buildable] at emitted
    cases emitted

theorem traced_get (found : Nat -> List Action) (clock : Nat -> Nat -> Int) (req : GetRequest)
    {n : Notification} (emitted : n ∈ (Gnmi.Get.run registry
      (fun i => storesAfter sensorNow configNow (found i)) clock req).2.notification) :
    ∃ i path, req.path[i]? = some path ∧ n.delete = [] ∧
      Traced (fun key leaf => FoundAt sensorNow configNow (found i)
          (Gnmi.Get.fullPath req.pathPrefix path) key leaf ∧ Gnmi.Get.matchesType leaf.type req.type = true)
        req.pathPrefix (clock i) n := by
  have built : n ∈ (Gnmi.Get.buildAll registry (fun i => storesAfter sensorNow configNow (found i)) clock
      req req.path 0 []).2 := by
    rw [Gnmi.Get.run] at emitted
    dsimp only at emitted
    split at emitted
    · cases emitted
    · exact emitted
  rcases Gnmi.Get.mem_buildAll registry built with impossible | ⟨i, path, listed, member⟩
  · cases impossible
  · rw [Nat.zero_add] at member
    rcases Gnmi.Get.build_cases registry (storesAfter sensorNow configNow (found i)) (clock i) req.pathPrefix
      path req.encoding req.type with ⟨_, nothing⟩ | ⟨_, _, notes⟩
    · rw [nothing] at member
      cases member
    · rw [notes] at member
      have known : ∀ (key : Str) (leaf : Leaf), (Gnmi.Get.filterByDataType (registry.snapshot
          (storesAfter sensorNow configNow (found i)) (Gnmi.Get.fullPath req.pathPrefix path)).snap
            req.type)[key]? = some leaf -> FoundAt sensorNow configNow (found i)
              (Gnmi.Get.fullPath req.pathPrefix path) key leaf ∧
                Gnmi.Get.matchesType leaf.type req.type = true := by
        intro key leaf inSnap
        rw [Gnmi.Get.filterByDataType_iff] at inSnap
        exact ⟨foundAt_of_snapshot sensorNow configNow inSnap.1, inSnap.2⟩
      have canonical : CanonicalKeys (Gnmi.Get.filterByDataType (registry.snapshot
          (storesAfter sensorNow configNow (found i)) (Gnmi.Get.fullPath req.pathPrefix path)).snap
            req.type) := by
        intro key leaf inSnap
        rw [Gnmi.Get.filterByDataType_iff] at inSnap
        exact snapshot_canonical (storesAfter_invariant sensorNow configNow (found i)) _ key leaf inSnap.1
      have traced := traced_full registry_atomicLaw.within canonical known member
      exact ⟨i, path, listed, traced.2, traced.1⟩

end Server
end PscMockServer
