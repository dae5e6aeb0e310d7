import PscMockServer.Backend.SensorWalks
import PscMockServer.Server.Domains
import PscMockServer.Server.GetAnswers
import PscMockServer.Telemetry.ExactEmissions

namespace PscMockServer
namespace Server

open Foundations Gnmi Utils Backend Telemetry
open Backend.PscPowerSensorProvider (Walk Iteration buildWalks walksAfter lastCommit)

/-!
# What a reader of the sensors sees

The simulator commits all its leaves in one batch, so the sensor store is a function of the
ticks so far, and a snapshot of it never has leaves of two ticks.  What is sent of it is one
notification with the time of the last tick.
-/

/-- What the store has for a walk after some ticks. -/
def sensorLeaf (start : Int) (iterations : List Iteration) (walk : Walk) : Leaf where
  val := .doubleVal walk.value
  collectedNs := lastCommit start iterations
  type := .operational

/-! ## The sensor store -/

theorem walk_path {iterations : List Iteration} {walk : Walk} (member : walk ∈ walksAfter iterations) :
    walk.path ∈ sensorPaths ∧ stripPathQuotes walk.path = walk.path := by
  have listed : walk.path ∈ sensorPaths := by
    rw [sensorPaths, ← PscPowerSensorProvider.walksAfter_paths iterations]
    exact List.mem_map_of_mem member
  exact ⟨listed, (sensorPaths_canonical walk.path listed).strip⟩

/-- Every sensor has a walk after any ticks. -/
theorem exists_walk (iterations : List Iteration) {key : Str} (listed : key ∈ sensorPaths) :
    ∃ walk ∈ walksAfter iterations, walk.path = key := by
  rw [sensorPaths, ← PscPowerSensorProvider.walksAfter_paths iterations] at listed
  exact List.mem_map.mp listed

/-- After any run the sensor store holds the walks of the ticks so far, at the time of the
last one. -/
theorem sensor_find (sensorNow configNow : Int) (actions : List Action) (key : Str) (leaf : Leaf) :
    (storesAfter sensorNow configNow actions).sensor.store.leaves[key]? = some leaf ↔
      ∃ walk ∈ walksAfter (ticks actions), key = walk.path ∧
        leaf = sensorLeaf sensorNow (ticks actions) walk := by
  have inv : Invariant (storesAfter sensorNow configNow actions) :=
    ((initialWorld_good sensorNow configNow).run actions).1
  have simulated : (storesAfter sensorNow configNow actions).sensor =
      (PscPowerSensorProvider.runSimulator sensorNow (ticks actions)).1 :=
    congrArg Prod.fst (World.run_simulator sensorNow configNow actions)
  have held : ∀ walk ∈ walksAfter (ticks actions),
      (storesAfter sensorNow configNow actions).sensor.store.leaves[walk.path]? =
        some (sensorLeaf sensorNow (ticks actions) walk) := by
    intro walk member
    rcases PscPowerSensorProvider.walksAfter_shows sensorNow (ticks actions) member with
      ⟨stored, found, value, time⟩
    rw [← simulated, LeafStore.get, (walk_path member).2] at found
    have type := (inv.sensor_leaf found).2
    rw [found, sensorLeaf, ← value, ← time, ← type]
  constructor
  · intro found
    rcases exists_walk (ticks actions) (inv.sensor_leaf found).1 with ⟨walk, member, rfl⟩
    exact ⟨walk, member, rfl, Option.some.inj (found.symm.trans (held walk member))⟩
  · rintro ⟨walk, member, rfl, rfl⟩
    exact held walk member

/-! ## Snapshots of the sensors -/

/-- The query selects the sensor of a walk. -/
def SelectsWalk (query : Str) (walk : Walk) : Prop :=
  selects (stripPathQuotes query) walk.path = true

theorem registry_snapshot_sensors (s : Stores) {query : Str}
    (toSensor : DataProviderRegistry.matchesPrefix query sensorPrefix = true) :
    (registry.snapshot s query).snap = s.sensor.store.snapshot query := by
  rw [DataProviderRegistry.snapshot, registry_routes]
  simp only [List.foldl_cons, List.foldl_nil, toSensor, routes_exclusive toSensor, if_true,
    Bool.false_eq_true, if_false, PscPowerSensorProvider.provider, storeBackedProvider]
  exact OrdMap.empty_mergeKeep _

section Snapshots

variable (sensorNow configNow : Int) (actions : List Action) {query : Str}
  (toSensor : DataProviderRegistry.matchesPrefix query sensorPrefix = true)

include toSensor

/-- A query under the sensors' prefix finds the walks it selects. -/
theorem sensors_snapshot_find (key : Str) (leaf : Leaf) :
    (registry.snapshot (storesAfter sensorNow configNow actions) query).snap[key]? = some leaf ↔
      ∃ walk ∈ walksAfter (ticks actions), SelectsWalk query walk ∧ key = walk.path ∧
        leaf = sensorLeaf sensorNow (ticks actions) walk := by
  rw [registry_snapshot_sensors _ toSensor, LeafStore.snapshot_find_iff, sensor_find]
  constructor
  · rintro ⟨⟨walk, member, rfl, held⟩, selected⟩
    exact ⟨walk, member, selected, rfl, held⟩
  · rintro ⟨walk, member, selected, rfl, held⟩
    exact ⟨⟨walk, member, rfl, held⟩, selected⟩

theorem sensors_snapshot_loose (key : Str) (leaf : Leaf)
    (found : (registry.snapshot (storesAfter sensorNow configNow actions) query).snap[key]? = some leaf) :
    registry.atomicPrefix key = none := by
  rcases (sensors_snapshot_find sensorNow configNow actions toSensor key leaf).mp found with
    ⟨walk, member, _, rfl, _⟩
  have outside : ∀ path ∈ sensorPaths, SystemConfigProvider.atomicPrefix path = none := by
    decide +kernel
  rw [registry_atomicPrefix]
  exact outside _ (walk_path member).1

/-- No sensor is in a container, so a snapshot of sensors has no groups. -/
theorem sensors_partition :
    partition (registry.snapshot (storesAfter sensorNow configNow actions) query).snap registry =
      ((registry.snapshot (storesAfter sensorNow configNow actions) query).snap, ∅) :=
  OrdMap.splitBy_unlabelled (sensors_snapshot_loose sensorNow configNow actions toSensor)

end Snapshots

/-! ## Notifications about one tick -/

/-- A notification with the values the concerned walks of the simulator have after these
ticks, and with the time of the last tick (the clock reading, should that not be after the
epoch). -/
structure OneTick (start : Int) (iterations : List Iteration) (reading : Int) (Concerned : Walk -> Prop)
    (n : Notification) : Prop where
  loose : n.atomic = false
  noDelete : n.delete = []
  stamp : n.timestamp = stampOr (max 0 (lastCommit start iterations)) reading
  exact : ∀ path value, (path, value) ∈ updatesOf n ↔ ∃ walk ∈ walksAfter iterations,
    Concerned walk ∧ path = pathOf walk.path ∧ value = .doubleVal walk.value
  once : ((updatesOf n).map Prod.fst).Nodup

/-- The leaves a notification carries are the concerned sensors' ones. -/
def CarriesWalks (start : Int) (iterations : List Iteration) (Concerned : Walk -> Prop)
    (entries : List (Str × Leaf)) : Prop :=
  ∀ key leaf, (key, leaf) ∈ entries ↔ ∃ walk ∈ walksAfter iterations, Concerned walk ∧
    key = walk.path ∧ leaf = sensorLeaf start iterations walk

section Carried

variable {start : Int} {iterations : List Iteration} {Concerned : Walk -> Prop}
  {entries : List (Str × Leaf)} (carries : CarriesWalks start iterations Concerned entries)

include carries

theorem CarriesWalks.newest (some_ : entries ≠ []) :
    newestOf entries = max 0 (lastCommit start iterations) := by
  refine runningMax_const some_ (fun entry member => ?_)
  rcases (carries entry.1 entry.2).mp member with ⟨walk, _, _, _, held⟩
  rw [held, sensorLeaf]

theorem CarriesWalks.report_iff (path : List Node) (value : TypedValue) :
    (path, value) ∈ entries.map entryReport ↔ ∃ walk ∈ walksAfter iterations,
      Concerned walk ∧ path = pathOf walk.path ∧ value = .doubleVal walk.value := by
  rw [List.mem_map]
  constructor
  · rintro ⟨⟨key, leaf⟩, member, same⟩
    rcases (carries key leaf).mp member with ⟨walk, present, concerned, rfl, rfl⟩
    cases same
    exact ⟨walk, present, concerned, rfl, rfl⟩
  · rintro ⟨walk, present, concerned, rfl, rfl⟩
    exact ⟨(walk.path, sensorLeaf start iterations walk),
      (carries _ _).mpr ⟨walk, present, concerned, rfl, rfl⟩, rfl⟩

end Carried

/-! ## The two emitters -/

section Emitters

variable (sensorNow configNow : Int) (actions earlier : List Action) {query : Str}
  (toSensor : DataProviderRegistry.matchesPrefix query sensorPrefix = true) (clock : Nat -> Int)

/-- The sensors under a query for which the simulator had another value after other ticks. -/
def Moved (query : Str) (before : List Iteration) (walk : Walk) : Prop :=
  SelectsWalk query walk ∧ ∃ old ∈ walksAfter before, old.path = walk.path ∧ old.value ≠ walk.value

include toSensor

theorem full_oneTick
    (some_ : (registry.snapshot (storesAfter sensorNow configNow actions) query).snap.isEmpty = false) :
    ∃ n, buildFullNotifications (registry.snapshot (storesAfter sensorNow configNow actions) query).snap
        registry clock = [n] ∧
      OneTick sensorNow (ticks actions) (clock 0) (SelectsWalk query) n := by
  have carries : CarriesWalks sensorNow (ticks actions) (SelectsWalk query)
      (registry.snapshot (storesAfter sensorNow configNow actions) query).snap.toList := by
    intro key leaf
    rw [Std.ExtTreeMap.mem_toList_iff_getElem?_eq_some]
    exact sensors_snapshot_find sensorNow configNow actions toSensor key leaf
  have listed : (registry.snapshot (storesAfter sensorNow configNow actions) query).snap.toList ≠ [] := by
    rcases OrdMap.exists_find_of_not_isEmpty some_ with ⟨key, leaf, found⟩
    exact List.ne_nil_of_mem (OrdMap.mem_toList_of_find found)
  refine ⟨fullNote (registry.snapshot (storesAfter sensorNow configNow actions) query).snap (clock 0), ?_,
    rfl, rfl, ?_, ?_, ?_⟩
  · rw [buildFullNotifications, sensors_partition sensorNow configNow actions toSensor]
    dsimp only
    rw [some_]
    rfl
  · rw [fullNote_timestamp, carries.newest listed]
  · rw [updatesOf_fullNote]
    exact carries.report_iff
  · rw [updatesOf_fullNote]
    exact entryReport_nodup
      (snapshot_canonical ((initialWorld_good sensorNow configNow).run actions).1 query)

/-- Both moments have the same sensors, so nothing is ever deleted. -/
theorem sensors_diff_removed :
    (LeafStore.diff (registry.snapshot (storesAfter sensorNow configNow earlier) query).snap
      (registry.snapshot (storesAfter sensorNow configNow actions) query).snap).removed = [] := by
  rw [List.eq_nil_iff_forall_not_mem]
  intro key gone
  rcases (LeafStore.mem_vanishedPaths _ _ key).mp gone with ⟨⟨leaf, old⟩, absent⟩
  rcases (sensors_snapshot_find sensorNow configNow earlier toSensor key leaf).mp old with
    ⟨walk, member, selected, rfl, _⟩
  rcases exists_walk (ticks actions) (walk_path member).1 with ⟨now, present, same⟩
  have held := (sensors_snapshot_find sensorNow configNow actions toSensor walk.path _).mpr
    ⟨now, present, by rw [SelectsWalk, same]; exact selected, same.symm, rfl⟩
  rw [held] at absent
  cases absent

theorem sensors_diff_updated :
    CarriesWalks sensorNow (ticks actions) (Moved query (ticks earlier))
      (LeafStore.diff (registry.snapshot (storesAfter sensorNow configNow earlier) query).snap
        (registry.snapshot (storesAfter sensorNow configNow actions) query).snap).updated := by
  intro key leaf
  have before := sensors_snapshot_find sensorNow configNow earlier toSensor
  -- the earlier moment holds every selected sensor, with the value of its walk then
  have differs : ∀ walk ∈ walksAfter (ticks actions), SelectsWalk query walk ->
      (((registry.snapshot (storesAfter sensorNow configNow earlier) query).snap[walk.path]?).map Leaf.val ≠
          some (sensorLeaf sensorNow (ticks actions) walk).val ↔
        ∃ old ∈ walksAfter (ticks earlier), old.path = walk.path ∧ old.value ≠ walk.value) := by
    intro walk member selected
    have value : ∀ old ∈ walksAfter (ticks earlier), old.path = walk.path ->
        ((registry.snapshot (storesAfter sensorNow configNow earlier) query).snap[walk.path]?).map Leaf.val =
          some (.doubleVal old.value) := by
      intro old present same
      have selectedBefore : SelectsWalk query old := by
        rw [SelectsWalk, same]
        exact selected
      have held := (before walk.path _).mpr ⟨old, present, selectedBefore, same.symm, rfl⟩
      rw [held]
      rfl
    constructor
    · intro different
      rcases exists_walk (ticks earlier) (walk_path member).1 with ⟨old, present, same⟩
      refine ⟨old, present, same, fun equal => different ?_⟩
      rw [value old present same, equal]
      rfl
    · rintro ⟨old, present, same, different⟩ equal
      rw [value old present same] at equal
      exact different (TypedValue.doubleVal.inj (Option.some.inj equal))
  refine (LeafStore.mem_changedLeaves _ _ key leaf).trans ?_
  rw [sensors_snapshot_find sensorNow configNow actions toSensor]
  constructor
  · rintro ⟨⟨walk, member, selected, rfl, rfl⟩, different⟩
    exact ⟨walk, member, ⟨selected, (differs walk member selected).mp different⟩, rfl, rfl⟩
  · rintro ⟨walk, member, ⟨selected, moved⟩, rfl, rfl⟩
    exact ⟨⟨walk, member, selected, rfl, rfl⟩, (differs walk member selected).mpr moved⟩

/-- A poll of the sensors sends one notification about those that have moved, if any has. -/
theorem sensors_change :
    let diff := LeafStore.diff (registry.snapshot (storesAfter sensorNow configNow earlier) query).snap
      (registry.snapshot (storesAfter sensorNow configNow actions) query).snap
    buildChangeNotifications (registry.snapshot (storesAfter sensorNow configNow earlier) query).snap
        (registry.snapshot (storesAfter sensorNow configNow actions) query).snap registry clock =
      if diff.updated.isEmpty then [] else [diffNote diff (clock 0)] := by
  intro diff
  have removed : diff.removed = [] := sensors_diff_removed sensorNow configNow actions earlier toSensor
  rw [buildChangeNotifications, sensors_partition sensorNow configNow earlier toSensor,
    sensors_partition sensorNow configNow actions toSensor]
  change pushAll clock ((if !diff.updated.isEmpty || !diff.removed.isEmpty then [diffNote diff] else []) ++ []) = _
  rw [removed, List.append_nil]
  cases diff.updated.isEmpty with
  | true => rfl
  | false => rfl

theorem change_oneTick :
    let notes := buildChangeNotifications
      (registry.snapshot (storesAfter sensorNow configNow earlier) query).snap
      (registry.snapshot (storesAfter sensorNow configNow actions) query).snap registry clock
    (notes = [] ↔ ∀ walk ∈ walksAfter (ticks actions), ¬ Moved query (ticks earlier) walk) ∧
      ∀ n ∈ notes, notes = [n] ∧
        OneTick sensorNow (ticks actions) (clock 0) (Moved query (ticks earlier)) n := by
  have carries := sensors_diff_updated sensorNow configNow actions earlier toSensor
  have removed := sensors_diff_removed sensorNow configNow actions earlier toSensor
  have sends := sensors_change sensorNow configNow actions earlier toSensor clock
  dsimp only at sends ⊢
  rw [sends]
  cases updated : (LeafStore.diff (registry.snapshot (storesAfter sensorNow configNow earlier) query).snap
      (registry.snapshot (storesAfter sensorNow configNow actions) query).snap).updated with
  | nil =>
      rw [updated] at carries
      refine ⟨iff_of_true rfl (fun walk member moved => ?_), fun n sent => nomatch sent⟩
      exact List.not_mem_nil ((carries _ _).mpr ⟨walk, member, moved, rfl, rfl⟩)
  | cons entry rest =>
      rw [List.isEmpty_cons, if_neg Bool.false_ne_true]
      have some_ := List.cons_ne_nil entry rest
      rw [← updated] at some_
      refine ⟨iff_of_false (List.cons_ne_nil _ _) (fun still => ?_), fun n sent => ?_⟩
      · rcases (carries entry.1 entry.2).mp (updated ▸ List.mem_cons_self) with ⟨walk, member, moved, _⟩
        exact still walk member moved
      · rw [List.mem_singleton.mp sent]
        refine ⟨rfl, rfl, ?_, ?_, ?_, ?_⟩
        · rw [diffNote_eq, removed]
          rfl
        · rw [diffNote_timestamp, carries.newest some_]
        · rw [updatesOf_diffNote]
          exact carries.report_iff
        · rw [updatesOf_diffNote]
          exact ((List.filter_sublist.map entryReport).map Prod.fst).nodup (entryReport_nodup
            (snapshot_canonical ((initialWorld_good sensorNow configNow).run actions).1 query))

end Emitters

/-- Sensors have one type, so asking for it leaves none out. -/
theorem sensors_filtered (sensorNow configNow : Int) (actions : List Action) {query : Str}
    (toSensor : DataProviderRegistry.matchesPrefix query sensorPrefix = true) {type : DataType}
    (asked : type = .all ∨ type = .operational) :
    Gnmi.Get.filterByDataType (registry.snapshot (storesAfter sensorNow configNow actions) query).snap type =
      (registry.snapshot (storesAfter sensorNow configNow actions) query).snap := by
  apply Std.ExtTreeMap.ext_getElem?
  intro key
  apply Option.ext
  intro leaf
  rw [Gnmi.Get.filterByDataType_iff]
  refine and_iff_left_of_imp (fun found => ?_)
  rcases (sensors_snapshot_find sensorNow configNow actions toSensor key leaf).mp found with
    ⟨walk, _, _, _, rfl⟩
  rcases asked with rfl | rfl
  · rfl
  · rfl

/-- A reader never straddles two ticks.  After any run of Sets and ticks, a Get of one path under
the sensors' prefix, of type ALL or OPERATIONAL, is NOT_FOUND if it selects no sensor, and
otherwise answered with one notification: exactly the selected sensors, each with the value
its walk has in the simulator after the ticks of the run, at the time of the last tick.  And
what an ON_CHANGE poll finds after one run and the next poll after another is sent as one
notification of the later run's last tick, about exactly the sensors whose value has moved,
or not at all if none has. -/
theorem sensor_answers_are_one_tick (sensorNow configNow : Int) :
    (∀ (actions : List Action) (req : GetRequest) (path : Path) (clock : Nat -> Nat -> Int),
      req.path = [path] -> (Gnmi.Get.verifyGetRequest req).isOk = true ->
      (validateGnmiPath path).isOk = true -> (req.type = .all ∨ req.type = .operational) ->
      DataProviderRegistry.matchesPrefix (Gnmi.Get.fullPath req.pathPrefix path) sensorPrefix = true ->
      let query := Gnmi.Get.fullPath req.pathPrefix path
      let answer := Gnmi.Get.run registry (fun _ => storesAfter sensorNow configNow actions) clock req
      ((∀ walk ∈ buildWalks, ¬ SelectsWalk query walk) ->
        answer.1.code = .notFound ∧ answer.2.notification = []) ∧
      ∀ walk ∈ buildWalks, SelectsWalk query walk -> answer.1 = Status.OK ∧
        ∃ n, answer.2.notification = [withRequestPrefix req.pathPrefix n] ∧
          OneTick sensorNow (ticks actions) (clock 0 0) (SelectsWalk query) n) ∧
    ∀ (earlier later : List Action) (query : Str) (clock : Nat -> Int),
      DataProviderRegistry.matchesPrefix query sensorPrefix = true ->
      let notes := buildChangeNotifications
        (registry.snapshot (storesAfter sensorNow configNow earlier) query).snap
        (registry.snapshot (storesAfter sensorNow configNow later) query).snap registry clock
      (notes = [] ↔ ∀ walk ∈ walksAfter (ticks later), ¬ Moved query (ticks earlier) walk) ∧
        ∀ n ∈ notes, notes = [n] ∧
          OneTick sensorNow (ticks later) (clock 0) (Moved query (ticks earlier)) n := by
  refine ⟨?_, fun earlier later query clock toSensor =>
    change_oneTick sensorNow configNow later earlier toSensor clock⟩
  intro actions req path clock onePath verified wellFormed asked toSensor query answer
  have owned : registry.owns (Gnmi.Get.fullPath req.pathPrefix path) = true := by
    rw [registry_owns, toSensor, Bool.true_or]
  have single := Gnmi.Get.run_single (s := storesAfter sensorNow configNow actions) clock onePath verified
    (supported_of_verified verified).1 wellFormed owned
  rw [sensors_filtered sensorNow configNow actions toSensor asked] at single
  dsimp only at single
  have found := sensors_snapshot_find sensorNow configNow actions toSensor
  constructor
  · intro none_
    have empty : (registry.snapshot (storesAfter sensorNow configNow actions) query).snap.isEmpty = true := by
      by_contra some_
      rcases OrdMap.exists_find_of_not_isEmpty (Bool.eq_false_iff.mpr some_) with ⟨key, leaf, held⟩
      rcases (found key leaf).mp held with ⟨walk, member, selected, _⟩
      rcases List.mem_map.mp (walk_path member).1 with ⟨origin, built, same⟩
      refine none_ origin built ?_
      rw [SelectsWalk, same]
      exact selected
    rw [if_pos empty] at single
    change (Gnmi.Get.run registry _ clock req).1.code = .notFound ∧
      (Gnmi.Get.run registry _ clock req).2.notification = []
    rw [single]
    exact ⟨rfl, rfl⟩
  · intro origin built selected
    rcases exists_walk (ticks actions) (List.mem_map_of_mem built) with ⟨walk, member, same⟩
    have some_ := OrdMap.isEmpty_eq_false_of_find ((found walk.path _).mpr
      ⟨walk, member, by rw [SelectsWalk, same]; exact selected, rfl, rfl⟩)
    rcases full_oneTick sensorNow configNow actions toSensor (clock 0) some_ with ⟨n, whole, oneTick⟩
    rw [some_, if_neg Bool.false_ne_true, whole] at single
    change (Gnmi.Get.run registry _ clock req).1 = Status.OK ∧
      ∃ n, (Gnmi.Get.run registry _ clock req).2.notification = [withRequestPrefix req.pathPrefix n] ∧ _
    rw [single]
    exact ⟨rfl, n, rfl, oneTick⟩

end Server
end PscMockServer
