import PscMockServer.Server.ConcurrentSets
import PscMockServer.Server.GetAnswers
import PscMockServer.Server.Routing
import PscMockServer.Backend.Owners
import PscMockServer.Gnmi.Observations
import PscMockServer.Telemetry.ExactEmissions

namespace PscMockServer
namespace Server

open Foundations Gnmi Utils Backend Telemetry

/-!
# What the configuration remembers

Seen from outside the configuration is a file of registers, one for each declared
leaf.  A run of Sets and ticks leaves it as the accepted Sets alone leave it, and a
register holds what the last accepted Set that addressed it wrote.
-/

theorem declaredConfig_iff_exists (path : Str) :
    (∃ declared ∈ configPaths, declared = path) ↔ DeclaredConfig path := by
  rw [declaredConfig_iff]
  exact ⟨fun ⟨_, listed, same⟩ => same ▸ listed, fun listed => ⟨path, listed, rfl⟩⟩

instance declaredConfigDecidable (path : Str) : Decidable (DeclaredConfig path) :=
  decidable_of_iff (∃ declared ∈ configPaths, declared = path) (declaredConfig_iff_exists path)

instance acceptableDecidable (request : SetRequest) : Decidable (Acceptable request) :=
  inferInstanceAs (Decidable (_ ∧ _))

/-! ## The Sets that count -/

/-- An action that is an accepted Set, with its time.  The request decides this, not the
state it meets. -/
def acceptedSet : Action -> Option (SetRequest × Int)
  | .set request now =>
      if request.extensionSize = 0 ∧ Acceptable request then some (request, now) else none
  | .tick _ _ => none

/-- The accepted Sets of a run. -/
def acceptedSets (actions : List Action) : List (SetRequest × Int) :=
  actions.filterMap acceptedSet

/-- Some operation of the request is about the leaf. -/
def Addresses (request : SetRequest) (key : Str) : Prop :=
  ∃ xpath ∈ Gnmi.Set.targets request, stripPathQuotes xpath = key

/-- The leaves after some accepted Sets. -/
def leavesAfter (leaves : Snapshot) (sets : List (SetRequest × Int)) : Snapshot :=
  sets.foldl (fun leaves set => applyInOrder set.1 set.2 leaves) leaves

/-- What a request leaves at a leaf it addresses: its last write there, nothing when it
only deletes it. -/
def written (request : SetRequest) (now : Int) (key : Str) : Option Leaf :=
  leafAfter request now none key

theorem addresses_iff (request : SetRequest) (key : Str) :
    Addresses request key ↔ (∃ path ∈ request.delete, targetKey request path = key) ∨
      ∃ upd ∈ request.replace ++ request.update, targetKey request upd.getPath = key := by
  rw [Addresses, Gnmi.Set.targets]
  simp only [List.mem_append, List.mem_map, targetKey]
  constructor
  · rintro ⟨xpath, ⟨path, listed, rfl⟩ | ⟨upd, listed, rfl⟩, isKey⟩
    · exact Or.inl ⟨path, listed, isKey⟩
    · exact Or.inr ⟨upd, listed, isKey⟩
  · rintro (⟨path, listed, isKey⟩ | ⟨upd, listed, isKey⟩)
    · exact ⟨_, Or.inl ⟨path, listed, rfl⟩, isKey⟩
    · exact ⟨_, Or.inr ⟨upd, listed, rfl⟩, isKey⟩

/-- A request leaves the leaves it does not address. -/
theorem leafAfter_of_not_addresses {request : SetRequest} {key : Str}
    (elsewhere : ¬ Addresses request key) (now : Int) (old : Option Leaf) :
    leafAfter request now old key = old := by
  rw [addresses_iff, not_or] at elsewhere
  rw [leafAfter, if_neg elsewhere.1]
  exact OrdMap.lastOf_untouched (fun upd listed isKey => elsewhere.2 ⟨upd, listed, isKey⟩)

/-- What a request leaves at a leaf it addresses does not depend on what was there. -/
theorem leafAfter_of_addresses {request : SetRequest} {key : Str} (addressed : Addresses request key)
    (now : Int) (old : Option Leaf) : leafAfter request now old key = written request now key := by
  rw [written, leafAfter, leafAfter]
  by_cases deleted : ∃ path ∈ request.delete, targetKey request path = key
  · rw [if_pos deleted, if_pos deleted]
  · have rewritten := ((addresses_iff request key).mp addressed).resolve_left deleted
    rw [OrdMap.lastOf_eq_getLast, OrdMap.lastOf_eq_getLast]
    cases last : ((request.replace ++ request.update).filter
        (fun upd => decide (targetKey request upd.getPath = key))).getLast? with
    | some upd => rfl
    | none =>
        rcases rewritten with ⟨upd, listed, isKey⟩
        have filtered := List.getLast?_eq_none_iff.mp last
        exact absurd (decide_eq_true isKey) (List.filter_eq_nil_iff.mp filtered upd listed)

/-- A leaf no Set addresses stays. -/
theorem leavesAfter_untouched {later : List (SetRequest × Int)} {key : Str}
    (untouched : ∀ set ∈ later, ¬ Addresses set.1 key) (leaves : Snapshot) :
    (leavesAfter leaves later)[key]? = leaves[key]? := by
  induction later generalizing leaves with
  | nil => rfl
  | cons set later inductionHypothesis =>
      have rest := inductionHypothesis (fun set member => untouched set (List.mem_cons_of_mem _ member))
        (applyInOrder set.1 set.2 leaves)
      rw [leavesAfter] at rest
      rw [leavesAfter, List.foldl_cons, rest, applyInOrder_find,
        leafAfter_of_not_addresses (untouched set List.mem_cons_self)]

/-- A leaf some Set addresses is what the last such Set left. -/
theorem leavesAfter_find {leaves : Snapshot} {before later : List (SetRequest × Int)}
    {request : SetRequest} {now : Int} {key : Str} (addressed : Addresses request key)
    (untouched : ∀ set ∈ later, ¬ Addresses set.1 key) :
    (leavesAfter leaves (before ++ (request, now) :: later))[key]? = written request now key := by
  rw [leavesAfter, List.foldl_append, List.foldl_cons]
  exact (leavesAfter_untouched untouched _).trans
    ((applyInOrder_find _ _ _ _).trans (leafAfter_of_addresses addressed now _))

/-! ## Runs -/

theorem acceptedSets_append (first second : List Action) :
    acceptedSets (first ++ second) = acceptedSets first ++ acceptedSets second :=
  List.filterMap_append

/-- One action applies its Set when it is an accepted one, and nothing otherwise. -/
theorem World.Good.act_config {w : World} (good : w.Good) (action : Action) :
    (w.act action).stores.config.store.leaves =
      leavesAfter w.stores.config.store.leaves (acceptedSets [action]) := by
  cases action with
  | tick now draws => rfl
  | set request now =>
      rw [acceptedSets, List.filterMap_cons, List.filterMap_nil, acceptedSet]
      rcases set_cases good.1 request now with ⟨_, kept, refused⟩ | ⟨plain, acceptable, done⟩
      · have notAccepted : ¬ (request.extensionSize = 0 ∧ Acceptable request) :=
          fun both => refused both.1 both.2
        rw [if_neg notAccepted, World.act, kept]
        rfl
      · rw [if_pos ⟨plain, acceptable⟩, World.act, done]
        exact commitStamped_applyInOrder good.1 acceptable now

/-- After a run the configuration is what the accepted Sets, one after another, make of
the initial one. -/
theorem World.Good.run_config {w : World} (good : w.Good) (actions : List Action) :
    (w.run actions).stores.config.store.leaves =
      leavesAfter w.stores.config.store.leaves (acceptedSets actions) := by
  induction actions generalizing w with
  | nil => rfl
  | cons action actions inductionHypothesis =>
      have split : action :: actions = [action] ++ actions := rfl
      rw [World.run, List.foldl_cons]
      have rest := inductionHypothesis (good.act action)
      rw [World.run] at rest
      rw [rest, good.act_config, split, acceptedSets_append, leavesAfter, leavesAfter, leavesAfter,
        List.foldl_append]

/-! ## Reading one leaf -/

/-- A declared configuration leaf, taken as a query, selects no other declared leaf. -/
theorem configPaths_select_only : ∀ key ∈ configPaths,
    (∀ other ∈ configPaths, selects key other = true -> other = key) ∧
      ∀ other ∈ sensorPaths, selects key other = false := by
  decide +kernel

/-- The snapshot of a declared leaf has that leaf and no other. -/
theorem Invariant.snapshot_config_leaf {s : Stores} (inv : Invariant s) {xpath : Str}
    (declared : stripPathQuotes xpath ∈ configPaths) :
    (registry.snapshot s xpath).snap =
      (s.config.store.leaves[stripPathQuotes xpath]?).elim ∅
        (fun leaf => (∅ : Snapshot).insert (stripPathQuotes xpath) leaf) := by
  have only := configPaths_select_only _ declared
  have owned : registry.owns xpath = true := by
    rw [registry_owns, (config_routed_only declared).1, Bool.or_true]
  have itself : selects (stripPathQuotes xpath) (stripPathQuotes xpath) = true := by
    rw [selects, if_pos ((isPathPrefix_iff _ _).mpr (Or.inl rfl))]
  have reads : ∀ (key : Str) (leaf : Leaf), (registry.snapshot s xpath).snap[key]? = some leaf ↔
      key = stripPathQuotes xpath ∧ s.config.store.leaves[key]? = some leaf := by
    intro key leaf
    rw [snapshot_iff inv, Selects]
    constructor
    · rintro ⟨_, inSensor | inConfig, selected⟩
      · have missed := only.2 key (inv.sensor_leaf inSensor).1
        exact absurd (selected.symm.trans missed) Bool.false_ne_true.symm
      · exact ⟨only.1 key (inv.config_leaf inConfig).1 selected, inConfig⟩
    · rintro ⟨rfl, inConfig⟩
      exact ⟨owned, Or.inr inConfig, itself⟩
  apply Std.ExtTreeMap.ext_getElem?
  intro key
  apply Option.ext
  intro leaf
  rw [reads]
  cases stored : s.config.store.leaves[stripPathQuotes xpath]? with
  | none =>
      rw [Option.elim_none, Std.ExtTreeMap.getElem?_empty]
      constructor
      · rintro ⟨rfl, found⟩
        exact absurd (stored.symm.trans found) (Option.some_ne_none leaf).symm
      · intro impossible
        cases impossible
  | some held =>
      rw [Option.elim_some, OrdMap.insert_find, Std.ExtTreeMap.getElem?_empty]
      constructor
      · rintro ⟨rfl, found⟩
        rw [if_pos rfl, ← found, stored]
      · intro found
        split at found
        · rename_i isKey
          rw [← isKey, stored]
          exact ⟨rfl, found⟩
        · cases found

/-- A full emission of one leaf is one notification, about this leaf and of its time. -/
theorem buildFull_single {σ : Type} {reg : DataProviderRegistry σ} (within : Within reg.atomicPrefix)
    {key : Str} (canonical : Canonical key) (leaf : Leaf) (clock : Nat -> Int) :
    ∃ n, buildFullNotifications ((∅ : Snapshot).insert key leaf) reg clock = [n] ∧
      reported [n] = [(pathOf key, leaf.val)] ∧ n.delete = [] ∧
      n.timestamp = stampOr (max 0 leaf.collectedNs) (clock 0) := by
  have single : ∃ n, buildFullNotifications ((∅ : Snapshot).insert key leaf) reg clock = [n] ∧
      n.timestamp = stampOr (newestOf ((∅ : Snapshot).insert key leaf).toList) (clock 0) := by
    have occupied : ((∅ : Snapshot).insert key leaf).isEmpty = false := OrdMap.single_not_isEmpty key leaf
    rw [buildFullNotifications, partition, OrdMap.splitBy_single]
    cases reg.atomicPrefix key with
    | none =>
        refine ⟨fullNote ((∅ : Snapshot).insert key leaf) (clock 0), ?_, fullNote_timestamp _ _⟩
        dsimp only
        rw [occupied]
        rfl
    | some container =>
        refine ⟨atomicNote container ((∅ : Snapshot).insert key leaf) (clock 0), ?_,
          atomicNote_timestamp _ _ _⟩
        dsimp only
        rw [OrdMap.single_not_isEmpty, OrdMap.toList_single]
        rfl
  rcases single with ⟨n, whole, stamp⟩
  have canonicalKeys : CanonicalKeys ((∅ : Snapshot).insert key leaf) := by
    intro other otherLeaf found
    rw [OrdMap.insert_find, Std.ExtTreeMap.getElem?_empty] at found
    split at found
    · rename_i same
      exact same ▸ canonical
    · cases found
  have reports := reported_buildFull within canonicalKeys clock
  rw [whole, OrdMap.toList_single] at reports
  have listed : n ∈ buildFullNotifications ((∅ : Snapshot).insert key leaf) reg clock :=
    whole ▸ List.mem_singleton_self n
  refine ⟨n, whole, List.perm_singleton.mp reports, deletes_buildFull listed, ?_⟩
  rw [stamp, OrdMap.toList_single]
  rfl

/-! ## A Get that finds one leaf, or none -/

section OneGet

variable {s : Stores} {req : GetRequest} {path : Path} (onePath : req.path = [path])
  (verified : (Gnmi.Get.verifyGetRequest req).isOk = true) (wellFormed : (validateGnmiPath path).isOk = true)
  (owned : registry.owns (Gnmi.Get.fullPath req.pathPrefix path) = true)

include onePath verified wellFormed owned

theorem get_of_single {key : Str} {leaf : Leaf}
    (found : (registry.snapshot s (Gnmi.Get.fullPath req.pathPrefix path)).snap =
      (∅ : Snapshot).insert key leaf)
    (canonical : Canonical key) (ofType : Gnmi.Get.matchesType leaf.type req.type = true)
    (clock : Nat -> Nat -> Int) :
    let answer := Gnmi.Get.run registry (fun _ => s) clock req
    answer.1 = Status.OK ∧ ∃ n, answer.2.notification = [withRequestPrefix req.pathPrefix n] ∧
      reported [n] = [(pathOf key, leaf.val)] ∧ n.delete = [] ∧
      n.timestamp = stampOr (max 0 leaf.collectedNs) (clock 0 0) := by
  intro answer
  have single := Gnmi.Get.run_single (s := s) clock onePath verified (supported_of_verified verified).1
    wellFormed owned
  rw [found] at single
  dsimp only at single
  rw [Gnmi.Get.filterByDataType_single key ofType, OrdMap.single_not_isEmpty,
    if_neg Bool.false_ne_true] at single
  rcases buildFull_single registry_atomicLaw.within canonical leaf (clock 0) with
    ⟨n, alone, reports, deletes, stamp⟩
  rw [alone] at single
  change (Gnmi.Get.run registry _ clock req).1 = Status.OK ∧
    ∃ n, (Gnmi.Get.run registry _ clock req).2.notification = [withRequestPrefix req.pathPrefix n] ∧ _
  rw [single]
  exact ⟨rfl, n, rfl, reports, deletes, stamp⟩

theorem get_of_nothing
    (found : (registry.snapshot s (Gnmi.Get.fullPath req.pathPrefix path)).snap = (∅ : Snapshot))
    (clock : Nat -> Nat -> Int) :
    let answer := Gnmi.Get.run registry (fun _ => s) clock req
    answer.1.code = .notFound ∧ answer.2.notification = [] := by
  intro answer
  have single := Gnmi.Get.run_single (s := s) clock onePath verified (supported_of_verified verified).1
    wellFormed owned
  rw [found] at single
  dsimp only at single
  have empty : (Gnmi.Get.filterByDataType (∅ : Snapshot) req.type).isEmpty = true := by
    by_contra notEmpty
    rcases OrdMap.exists_find_of_not_isEmpty (Bool.eq_false_iff.mpr notEmpty) with ⟨key, leaf, here⟩
    rw [Gnmi.Get.filterByDataType_iff, Std.ExtTreeMap.getElem?_empty] at here
    cases here.1
  rw [if_pos empty] at single
  change (Gnmi.Get.run registry _ clock req).1.code = .notFound ∧
    (Gnmi.Get.run registry _ clock req).2.notification = []
  rw [single]
  exact ⟨rfl, rfl⟩

end OneGet

/-- What a leaf a request addresses holds afterwards is of its time. -/
theorem written_time {request : SetRequest} {now : Int} {key : Str} {leaf : Leaf}
    (holds : written request now key = some leaf) : leaf.collectedNs = now ∧ leaf.type = .config := by
  rw [written, leafAfter, ite_self] at holds
  rcases OrdMap.lastOf_cases (fun upd : Update => targetKey request upd.getPath)
      (fun upd => some ({ val := upd.getVal, collectedNs := now, type := .config } : Leaf))
      (request.replace ++ request.update) key none with nothing | ⟨upd, _, _, last⟩
  · rw [nothing] at holds
    cases holds
  · rw [last] at holds
    cases holds
    exact ⟨rfl, rfl⟩

/-- A leaf reads as what the last accepted Set that addressed it wrote.  Whatever ran
before, and whatever accepted Sets of other leaves, refused Sets and ticks ran since,
the leaf holds what that request wrote there; a Get of the leaf finds nothing when the
request deleted it, and else answers with one notification that reports this value
and, after the epoch, has the time of the Set. -/
theorem reads_last_write (sensorNow configNow : Int) (before later : List Action) {request : SetRequest}
    (now : Int) (plain : request.extensionSize = 0) (acceptable : Acceptable request) {key : Str}
    (addressed : Addresses request key) (untouched : ∀ set ∈ acceptedSets later, ¬ Addresses set.1 key) :
    let s := ((initialWorld sensorNow configNow).run (before ++ .set request now :: later)).stores
    s.config.store.leaves[key]? = written request now key ∧
      ∀ (req : GetRequest) (path : Path) (clock : Nat -> Nat -> Int), req.path = [path] ->
        (Gnmi.Get.verifyGetRequest req).isOk = true -> (validateGnmiPath path).isOk = true ->
        stripPathQuotes (Gnmi.Get.fullPath req.pathPrefix path) = key ->
        (req.type = .all ∨ req.type = .config) ->
        let answer := Gnmi.Get.run registry (fun _ => s) clock req
        (written request now key = none -> answer.1.code = .notFound ∧ answer.2.notification = []) ∧
          ∀ leaf, written request now key = some leaf -> answer.1 = Status.OK ∧
            ∃ n, answer.2.notification = [withRequestPrefix req.pathPrefix n] ∧
              reported [n] = [(pathOf key, leaf.val)] ∧ n.delete = [] ∧
              n.timestamp = stampOr (max 0 now) (clock 0 0) := by
  intro s
  have good := (initialWorld_good sensorNow configNow).run (before ++ .set request now :: later)
  have inv : Invariant s := good.1
  have isAccepted : acceptedSets (before ++ .set request now :: later) =
      acceptedSets before ++ (request, now) :: acceptedSets later := by
    rw [acceptedSets_append, acceptedSets, acceptedSets, List.filterMap_cons, acceptedSet,
      if_pos ⟨plain, acceptable⟩]
    rfl
  have holds : s.config.store.leaves[key]? = written request now key := by
    have whole := (initialWorld_good sensorNow configNow).run_config (before ++ .set request now :: later)
    rw [isAccepted] at whole
    exact (congrArg (fun leaves : Snapshot => leaves[key]?) whole).trans
      (leavesAfter_find addressed untouched)
  have declared : key ∈ configPaths := by
    rcases (addresses_iff request key).mp addressed with ⟨path, listed, rfl⟩ | ⟨upd, listed, rfl⟩
    · exact (declaredConfig_iff _).mp (acceptable.1 path listed)
    · exact (declaredConfig_iff _).mp (acceptable.2 upd listed).2.2
  refine ⟨holds, ?_⟩
  intro req path clock onePath verified wellFormed isKey type answer
  have owned : registry.owns (Gnmi.Get.fullPath req.pathPrefix path) = true := by
    rw [registry_owns, (config_routed_only (isKey.symm ▸ declared)).1, Bool.or_true]
  have snapshot := inv.snapshot_config_leaf (isKey.symm ▸ declared :
    stripPathQuotes (Gnmi.Get.fullPath req.pathPrefix path) ∈ configPaths)
  rw [isKey, holds] at snapshot
  refine ⟨fun nothing => ?_, fun leaf found => ?_⟩
  · rw [nothing] at snapshot
    exact get_of_nothing onePath verified wellFormed owned snapshot clock
  · have time := written_time found
    have ofType : Gnmi.Get.matchesType leaf.type req.type = true := by
      rcases type with all | config
      · rw [all]
        rfl
      · rw [config, time.2]
        rfl
    rw [found] at snapshot
    have answered := get_of_single onePath verified wellFormed owned snapshot
      (configPaths_canonical key declared) ofType clock
    rw [time.1] at answered
    exact answered

def getHostname : GetRequest where
  path := [hostnamePath]

/-- The renamed host after a tick, a tick later, in the store and in the answer to a Get. -/
theorem reads_last_write_renameTwice :
    let rise : Nat -> PscPowerSensorProvider.Draw := fun _ => ⟨true, true⟩
    let s := ((initialWorld 1 2).run ([.tick 2 rise] ++ .set renameTwice 3 :: [.tick 4 rise])).stores
    let answer := Gnmi.Get.run registry (fun _ => s) (fun _ _ => 5) getHostname
    s.config.store.leaves["/system/config/hostname".toList]? =
        written renameTwice 3 "/system/config/hostname".toList ∧
      answer.1 = Status.OK ∧ ∃ n, answer.2.notification = [withRequestPrefix none n] ∧
        reported [n] = [(pathOf "/system/config/hostname".toList, .stringVal "second".toList)] ∧
        n.delete = [] ∧ n.timestamp = 3 := by
  intro rise s answer
  have addressed : Addresses renameTwice "/system/config/hostname".toList := by
    rw [addresses_iff]
    exact Or.inl ⟨hostnamePath, List.mem_singleton_self _, by decide +kernel⟩
  have last : written renameTwice 3 "/system/config/hostname".toList =
      some { val := .stringVal "second".toList, collectedNs := 3, type := .config } := by
    decide +kernel
  have reads := reads_last_write 1 2 [.tick 2 rise] [.tick 4 rise] 3 rfl renameTwice_acceptable addressed
    (fun set member => nomatch member)
  have answered := (reads.2 getHostname hostnamePath (fun _ _ => 5) rfl (by decide +kernel)
    (by decide +kernel) (by decide +kernel) (Or.inl rfl)).2 _ last
  exact ⟨reads.1, answered⟩

/-! ## A Set sent again -/

/-- The time of a Set does not decide the values it writes. -/
theorem written_value (request : SetRequest) (now later : Int) (key : Str) :
    (written request now key).map Leaf.val = (written request later key).map Leaf.val := by
  rw [written, written, leafAfter, leafAfter, ite_self, OrdMap.lastOf_eq_getLast,
    OrdMap.lastOf_eq_getLast]
  cases ((request.replace ++ request.update).filter
      (fun upd => decide (targetKey request upd.getPath = key))).getLast? with
  | none => rfl
  | some upd => rfl

/-- The effect of one Set, refused ones included. -/
theorem Invariant.set_effect {s : Stores} (inv : Invariant s) (request : SetRequest) (now : Int) :
    let after := (Gnmi.Set.run registry s now request).1
    after.sensor = s.sensor ∧ after.config.store.leaves =
      leavesAfter s.config.store.leaves (acceptedSets [.set request now]) := by
  intro after
  have good : World.Good ⟨s, PscPowerSensorProvider.buildWalks⟩ := ⟨inv, rfl⟩
  refine ⟨?_, good.act_config (.set request now)⟩
  rcases set_cases inv request now with ⟨_, kept, _⟩ | ⟨_, _, done⟩
  · exact congrArg Stores.sensor kept
  · exact congrArg (fun outcome => outcome.1.sensor) done

/-- Two states that show the same values. -/
structure SameValues (s t : Stores) : Prop where
  sensor : s.sensor = t.sensor
  config : ∀ key, LeafStore.valueAt s.config.store.leaves key =
    LeafStore.valueAt t.config.store.leaves key

/-- States with the same values give a query the same values. -/
theorem SameValues.snapshot {s t : Stores} (same : SameValues s t) (query : Str) (key : Str) :
    LeafStore.valueAt (registry.snapshot s query).snap key =
      LeafStore.valueAt (registry.snapshot t query).snap key := by
  have config : LeafStore.valueAt (s.config.store.snapshot query) key =
      LeafStore.valueAt (t.config.store.snapshot query) key := by
    rw [LeafStore.valueAt, LeafStore.valueAt, LeafStore.snapshot_find, LeafStore.snapshot_find]
    cases selects (stripPathQuotes query) key with
    | false => rfl
    | true => exact same.config key
  rw [registry_prefixesApart.snapshot_eq, registry_prefixesApart.snapshot_eq]
  cases owned : registry.owner query with
  | none => rfl
  | some route =>
      have listed := (DataProviderRegistry.mem_of_owner owned).1
      rw [registry_routes] at listed
      rcases List.mem_cons.mp listed with rfl | later
      · exact congrArg (fun provider : StoreBackedProvider =>
          LeafStore.valueAt (provider.store.snapshot query) key) same.sensor
      · rw [List.mem_singleton.mp later]
        exact config

/-- Setting again what was set already changes no value. -/
theorem SameValues.set_again {s base : Stores} (inv : Invariant s) (baseInv : Invariant base)
    {request : SetRequest} {now : Int} (same : SameValues s (Gnmi.Set.run registry base now request).1)
    (later : Int) :
    SameValues (Gnmi.Set.run registry s later request).1 (Gnmi.Set.run registry base now request).1 := by
  have effect := inv.set_effect request later
  have baseEffect := baseInv.set_effect request now
  refine ⟨effect.1.trans same.sensor, fun key => ?_⟩
  have known := same.config key
  dsimp only at baseEffect effect
  rw [LeafStore.valueAt, LeafStore.valueAt, baseEffect.2] at known ⊢
  rw [effect.2]
  simp only [acceptedSets, List.filterMap_cons, List.filterMap_nil, acceptedSet] at known ⊢
  by_cases accepted : request.extensionSize = 0 ∧ Acceptable request
  · rw [if_pos accepted] at known
    rw [if_pos accepted, if_pos accepted]
    simp only [leavesAfter, List.foldl_cons, List.foldl_nil, applyInOrder_find] at known ⊢
    by_cases addressed : Addresses request key
    · rw [leafAfter_of_addresses addressed, leafAfter_of_addresses addressed]
      exact written_value request later now key
    · rw [leafAfter_of_not_addresses addressed]
      exact known
  · rw [if_neg accepted] at known
    rw [if_neg accepted, if_neg accepted]
    exact known

/-- A repeated Set is silent.  After a Set in any reachable state, however often the same
request is sent again and whatever times it reads, it has the status it had, no value
changes, and no subscriber of any path is sent anything about it. -/
theorem repeated_set_silent (sensorNow configNow : Int) (actions : List Action) (request : SetRequest)
    (now : Int) (repeats : List Int) :
    let s := ((initialWorld sensorNow configNow).run actions).stores
    let once := Gnmi.Set.run registry s now request
    let again := repeats.foldl (fun s later => (Gnmi.Set.run registry s later request).1) once.1
    (∀ later, (Gnmi.Set.run registry again later request).2.1 = once.2.1) ∧ SameValues again once.1 ∧
      ∀ (query : Str) (clock : Nat -> Int),
        buildChangeNotifications (registry.snapshot once.1 query).snap
          (registry.snapshot again query).snap registry clock = [] := by
  intro s once again
  have inv : Invariant s := ((initialWorld_good sensorNow configNow).run actions).1
  have repeated : Invariant again ∧ SameValues again once.1 := by
    suffices kept : ∀ t : Stores, Invariant t -> SameValues t once.1 ->
        Invariant (repeats.foldl (fun s later => (Gnmi.Set.run registry s later request).1) t) ∧
          SameValues (repeats.foldl (fun s later => (Gnmi.Set.run registry s later request).1) t) once.1 from
      kept once.1 (inv.set request now) ⟨rfl, fun _ => rfl⟩
    induction repeats with
    | nil => exact fun t tInv same => ⟨tInv, same⟩
    | cons later repeats inductionHypothesis =>
        intro t tInv same
        exact inductionHypothesis _ (tInv.set request later) (same.set_again tInv inv later)
  refine ⟨fun later => ?_, repeated.2, fun query clock => ?_⟩
  · have checksSame : (Gnmi.Set.checks registry request).map (fun check => check again) =
        (Gnmi.Set.checks registry request).map (fun check => check s) :=
      List.map_congr_left (fun check member => repeated.1.checks_steady inv member)
    change (Gnmi.Set.run registry again later request).2.1 = (Gnmi.Set.run registry s now request).2.1
    rw [Gnmi.Set.run, Gnmi.Set.run, checksSame]
    split
    · rfl
    · dsimp only
      split <;> rfl
  · rw [buildChange_nil_iff]
    exact fun key => (repeated.2.snapshot query key).symm

end Server
end PscMockServer
