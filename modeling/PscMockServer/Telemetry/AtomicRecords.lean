import PscMockServer.Gnmi.Get
import PscMockServer.Telemetry.Serving

namespace PscMockServer
namespace Telemetry

open Foundations Gnmi Utils Backend

/-!
# Complete records

A receiver of an atomic notification takes every leaf it omits for deleted.  The
emitter completes a record from the snapshot it is given, and the snapshot was
narrowed by the query before: an atomic notification tells the whole truth exactly
when the query selects every stored leaf of the container.
-/

/-- The leaf lies under the notification's prefix. -/
def Covers (n : Notification) (key : Str) : Prop :=
  n.pathPrefix.nodes <+: pathOf key

/-- The notification carries every leaf held under its prefix with its value, or
deletes a container under which nothing is held. -/
def WholeTruth (held : Str -> Option Leaf) (n : Notification) : Prop :=
  (∀ key leaf, held key = some leaf -> Covers n key -> (pathOf key, leaf.val) ∈ updatesOf n) ∨
    (n.delete = [{}] ∧ ∀ key leaf, held key = some leaf -> ¬ Covers n key)

/-- The snapshot has every leaf that is held in the container. -/
def HasWhole (atomicPrefix : Str -> Option Str) (held : Str -> Option Leaf) (container : Str)
    (snap : Snapshot) : Prop :=
  ∀ key leaf, held key = some leaf -> atomicPrefix key = some container -> snap[key]? = some leaf

section Emitters

variable {σ : Type} {reg : DataProviderRegistry σ} {held : Str -> Option Leaf}
variable (law : AtomicLaw reg.atomicPrefix) (heldCanonical : ∀ key leaf, held key = some leaf -> Canonical key)
variable {snap : Snapshot} (part : ∀ (key : Str) (leaf : Leaf), snap[key]? = some leaf -> held key = some leaf)

include law heldCanonical in
/-- Under the prefix of a container lie the held leaves the container is answered for. -/
theorem covers_iff {n : Notification} {container sample : Str} (sampleCanonical : Canonical sample)
    (answered : reg.atomicPrefix sample = some container)
    (isPrefix : n.pathPrefix = xpathToGnmiPath container {}) {key : Str} {leaf : Leaf}
    (holds : held key = some leaf) : Covers n key ↔ reg.atomicPrefix key = some container := by
  rw [Covers, isPrefix, ← law.region sampleCanonical answered (heldCanonical key leaf holds),
    List.isPrefixOf_iff_prefix]
  rfl

include law heldCanonical part in
theorem wholeTruth_atomicNote {container sample : Str} (sampleCanonical : Canonical sample)
    (answered : reg.atomicPrefix sample = some container) {group : Snapshot}
    (isGroup : ∀ key : Str,
      group[key]? = if reg.atomicPrefix key = some container then snap[key]? else none) (reading : Int) :
    WholeTruth held (atomicNote container group reading) ↔
      HasWhole reg.atomicPrefix held container snap := by
  have covers : ∀ key leaf, held key = some leaf -> (Covers (atomicNote container group reading) key ↔
      reg.atomicPrefix key = some container) := by
    intro key leaf holds
    apply covers_iff law heldCanonical sampleCanonical answered ?_ holds
    rw [atomicNote_eq]
  have grouped : ∀ {key : Str} {leaf : Leaf}, group[key]? = some leaf ->
      reg.atomicPrefix key = some container ∧ snap[key]? = some leaf := by
    intro key leaf found
    rw [isGroup] at found
    split at found
    · next isC => exact ⟨isC, found⟩
    · cases found
  have below : ∀ entry ∈ group.toList, Canonical entry.1 ∧ Below container entry.1 := by
    intro entry member
    have known := grouped (OrdMap.find_of_mem_toList member)
    have canonical := heldCanonical entry.1 entry.2 (part entry.1 entry.2 known.2)
    exact ⟨canonical, law.within entry.1 container canonical known.1⟩
  constructor
  · rintro (complete | ⟨gone, _⟩)
    · intro key leaf holds isC
      have carried := complete key leaf holds ((covers key leaf holds).mpr isC)
      rw [updatesOf_atomicNote below] at carried
      rcases List.mem_map.mp carried with ⟨entry, listed, same⟩
      have equal := Canonical.pathOf_injective (below entry listed).1 (heldCanonical key leaf holds)
        (Prod.mk.inj same).1
      have stored := (grouped (OrdMap.find_of_mem_toList listed)).2
      rw [equal] at stored
      rw [stored, ← holds]
      exact (part key entry.2 stored).symm
    · rw [atomicNote_eq] at gone
      cases gone
  · intro whole
    left
    intro key leaf holds covered
    have isC := (covers key leaf holds).mp covered
    rw [updatesOf_atomicNote below]
    refine List.mem_map.mpr ⟨(key, leaf), OrdMap.mem_toList_of_find ?_, rfl⟩
    rw [isGroup, if_pos isC]
    exact whole key leaf holds isC

include law heldCanonical in
theorem wholeTruth_goneNote {container sample : Str} (sampleCanonical : Canonical sample)
    (answered : reg.atomicPrefix sample = some container)
    (gone : (partition snap reg).2[container]?.getD ∅ = ∅) (reading : Int) :
    WholeTruth held (goneNote container reading) ↔ HasWhole reg.atomicPrefix held container snap := by
  have covers : ∀ key leaf, held key = some leaf -> (Covers (goneNote container reading) key ↔
      reg.atomicPrefix key = some container) :=
    fun key leaf holds => covers_iff law heldCanonical sampleCanonical answered rfl holds
  have absent : ∀ key, reg.atomicPrefix key = some container -> snap[key]? = none := by
    intro key isC
    have found := partition_group_find snap reg container key
    rw [gone, if_pos isC, Std.ExtTreeMap.getElem?_empty] at found
    exact found.symm
  constructor
  · rintro (complete | ⟨_, nothing⟩)
    · intro key leaf holds isC
      have carried := complete key leaf holds ((covers key leaf holds).mpr isC)
      cases carried
    · intro key leaf holds isC
      exact absurd ((covers key leaf holds).mpr isC) (nothing key leaf holds)
  · intro whole
    refine Or.inr ⟨rfl, fun key leaf holds covered => ?_⟩
    have isC := (covers key leaf holds).mp covered
    have found := whole key leaf holds isC
    rw [absent key isC] at found
    cases found

include law heldCanonical part in
/-- A full emission tells the whole truth exactly about containers it has whole. -/
theorem wholeTruth_buildFull (clock : Nat -> Int) :
    (∀ n ∈ buildFullNotifications snap reg clock, n.atomic = true -> WholeTruth held n) ↔
      ∀ key leaf container, snap[key]? = some leaf -> reg.atomicPrefix key = some container ->
        HasWhole reg.atomicPrefix held container snap := by
  constructor
  · intro truthful key leaf container found isC
    rcases exists_group found isC with ⟨group, member⟩
    rcases exists_mem_buildFull member clock with ⟨reading, emitted⟩
    have atomic := atomicNote_atomic container group reading
    exact (wholeTruth_atomicNote law heldCanonical part (heldCanonical key leaf (part key leaf found)) isC
      (find_of_mem_groups member) reading).mp (truthful _ emitted atomic)
  · intro whole n emitted atomic
    rcases mem_buildFull emitted with ⟨reading, rfl⟩ | ⟨group, member, reading, rfl⟩
    · cases atomic
    · rcases group_sample member with ⟨sample, leaf, found, isC⟩
      exact (wholeTruth_atomicNote law heldCanonical part
        (heldCanonical sample leaf (part sample leaf found)) isC (find_of_mem_groups member) reading).mpr
          (whole sample leaf group.1 found isC)

include law heldCanonical part in
/-- A change emission does so exactly about the containers in which a leaf differs. -/
theorem wholeTruth_buildChange {prev : Snapshot} (canonicalPrev : CanonicalKeys prev)
    (clock : Nat -> Int) :
    (∀ n ∈ buildChangeNotifications prev snap reg clock, n.atomic = true -> WholeTruth held n) ↔
      ∀ key container, Differs prev snap key -> reg.atomicPrefix key = some container ->
        HasWhole reg.atomicPrefix held container snap := by
  have canonicalSnap : CanonicalKeys snap := fun key leaf found => heldCanonical key leaf (part key leaf found)
  have exact : ∀ {container sample : Str}, Canonical sample -> reg.atomicPrefix sample = some container ->
      ∀ {build : Int -> Notification},
        (build = goneNote container ∧ (partition snap reg).2[container]?.getD ∅ = ∅ ∨
          build = atomicNote container ((partition snap reg).2[container]?.getD ∅)) ->
        ∀ reading, (build reading).atomic = true ∧
          (WholeTruth held (build reading) ↔ HasWhole reg.atomicPrefix held container snap) := by
    rintro container sample canonical isC build (⟨rfl, gone⟩ | rfl) reading
    · exact ⟨rfl, wholeTruth_goneNote law heldCanonical canonical isC gone reading⟩
    · refine ⟨atomicNote_atomic container _ reading, ?_⟩
      exact wholeTruth_atomicNote law heldCanonical part canonical isC
        (partition_group_find snap reg container) reading
  rw [buildChange_eq]
  constructor
  · intro truthful key container differs isC
    have canonical : Canonical key := by
      rcases differs.stored with ⟨leaf, found⟩ | ⟨leaf, found⟩
      · exact canonicalPrev key leaf found
      · exact canonicalSnap key leaf found
    rcases exists_containerBuild canonicalPrev canonicalSnap isC differs with ⟨build, listed, kind⟩
    rcases exists_mem_pushAll clock listed with ⟨reading, emitted⟩
    have known := exact canonical isC kind reading
    exact known.2.mp (truthful _ emitted known.1)
  · intro whole n emitted atomic
    rcases mem_pushAll emitted with ⟨build, listed, reading, rfl⟩
    rcases changeBuilds_cases canonicalPrev canonicalSnap listed with
      rfl | ⟨container, sample, canonical, isC, differs, kind⟩
    · cases atomic
    · exact (exact canonical isC kind reading).2.mpr (whole sample container differs isC)

end Emitters

end Telemetry

namespace Server

open Foundations Gnmi Utils Backend Telemetry

/-- The query leaves out a stored leaf of the container. -/
def Cuts (s : Stores) (query container : Str) : Prop :=
  ∃ key leaf, Holds s key leaf ∧ registry.atomicPrefix key = some container ∧
    selects (stripPathQuotes query) key = false

variable {s earlier : Stores}

/-- An answer has a container whole exactly if the query does not cut it. -/
theorem hasWhole_iff (inv : Invariant s) {query : Str} (owned : registry.owns query = true)
    {type : DataType} (config : Gnmi.Get.matchesType .config type = true) (container : Str) :
    HasWhole registry.atomicPrefix (storedLeaf s) container
        (Gnmi.Get.filterByDataType (registry.snapshot s query).snap type) ↔
      ¬ Cuts s query container := by
  constructor
  · rintro whole ⟨key, leaf, holds, isC, unselected⟩
    have found := whole key leaf ((storedLeaf_iff inv key leaf).mpr holds) isC
    rw [Gnmi.Get.filterByDataType_iff, snapshot_iff inv] at found
    rw [found.1.2.2] at unselected
    cases unselected
  · intro uncut key leaf stored isC
    have holds := (storedLeaf_iff inv key leaf).mp stored
    rw [Gnmi.Get.filterByDataType_iff, snapshot_iff inv, inv.contained_config holds isC]
    refine ⟨⟨owned, holds, ?_⟩, config⟩
    by_contra unselected
    exact uncut ⟨key, leaf, holds, isC, Bool.eq_false_iff.mpr unselected⟩

/-- An atomic notification tells the whole truth about its container exactly if the
query does not cut the container: for a full emission, every container of which it
selects a leaf of the requested type; for a change emission, every container in which
a selected leaf changed. -/
theorem atomic_records_whole_iff (reachable : Reachable s) (reachableEarlier : Reachable earlier)
    (query : Str) (type : DataType) (clock : Nat -> Int) :
    ((∀ n ∈ buildFullNotifications
          (Gnmi.Get.filterByDataType (registry.snapshot s query).snap type) registry clock,
        n.atomic = true -> WholeTruth (storedLeaf s) n) ↔
      (registry.owns query = true -> Gnmi.Get.matchesType .config type = true ->
        ∀ key leaf container, Selects s query key leaf -> registry.atomicPrefix key = some container ->
          ¬ Cuts s query container)) ∧
      ((∀ n ∈ buildChangeNotifications (registry.snapshot earlier query).snap
            (registry.snapshot s query).snap registry clock,
          n.atomic = true -> WholeTruth (storedLeaf s) n) ↔
        ∀ key container, Differs (registry.snapshot earlier query).snap (registry.snapshot s query).snap key ->
          registry.atomicPrefix key = some container -> ¬ Cuts s query container) := by
  have inv := reachable.invariant
  have earlierInv := reachableEarlier.invariant
  have canonical := registry_serves.canonical inv
  have part : ∀ (key : Str) (leaf : Leaf),
      (registry.snapshot s query).snap[key]? = some leaf -> storedLeaf s key = some leaf :=
    fun key leaf found => (storedLeaf_iff inv key leaf).mpr ((snapshot_iff inv query key leaf).mp found).2.1
  constructor
  · refine (wholeTruth_buildFull registry_atomicLaw canonical
      (fun key leaf found => part key leaf ((Gnmi.Get.filterByDataType_iff _ type key leaf).mp found).1)
      clock).trans ?_
    constructor
    · intro whole owned config key leaf container selected isC
      refine (hasWhole_iff inv owned config container).mp (whole key leaf container ?_ isC)
      rw [Gnmi.Get.filterByDataType_iff, snapshot_iff inv, inv.contained_config selected.1 isC]
      exact ⟨⟨owned, selected⟩, config⟩
    · intro uncut key leaf container found isC
      rw [Gnmi.Get.filterByDataType_iff, snapshot_iff inv] at found
      rcases found with ⟨⟨owned, selected⟩, matched⟩
      rw [inv.contained_config selected.1 isC] at matched
      exact (hasWhole_iff inv owned matched container).mpr
        (uncut owned matched key leaf container selected isC)
  · refine (wholeTruth_buildChange registry_atomicLaw canonical part
      (snapshot_canonical earlierInv query) clock).trans ?_
    have exact : ∀ {key : Str} {container : Str},
        Differs (registry.snapshot earlier query).snap (registry.snapshot s query).snap key ->
          (HasWhole registry.atomicPrefix (storedLeaf s) container (registry.snapshot s query).snap ↔
            ¬ Cuts s query container) := by
      intro key container differs
      have owned : registry.owns query = true := by
        rcases differs.stored with ⟨leaf, found⟩ | ⟨leaf, found⟩
        · exact ((snapshot_iff earlierInv query key leaf).mp found).1
        · exact ((snapshot_iff inv query key leaf).mp found).1
      have config : Gnmi.Get.matchesType .config .all = true := rfl
      exact hasWhole_iff inv owned config container
    exact ⟨fun whole key container differs isC => (exact differs).mp (whole key container differs isC),
      fun uncut key container differs isC => (exact differs).mpr (uncut key container differs isC)⟩

/-- A query at `/system` cuts no container. -/
theorem configPrefix_cuts_nothing {s : Stores} (inv : Invariant s) (container : Str) :
    ¬ Cuts s configPrefix container := by
  rintro ⟨key, leaf, holds, isC, unselected⟩
  have everything : ∀ key ∈ configPaths, selects (stripPathQuotes configPrefix) key = true := by
    decide +kernel
  rcases inv.holds_listed holds with ⟨_, operational⟩ | ⟨listed, _⟩
  · rw [inv.contained_config holds isC] at operational
    cases operational
  · rw [everything key listed] at unselected
    cases unselected

theorem atomic_records_whole_system :
    (∀ n ∈ buildFullNotifications (Gnmi.Get.filterByDataType
        (registry.snapshot (initialStores 1 2) configPrefix).snap .config) registry (fun _ => 0),
      n.atomic = true -> WholeTruth (storedLeaf (initialStores 1 2)) n) ∧
      ∀ n ∈ buildChangeNotifications (registry.snapshot (initialStores 1 2) configPrefix).snap
          (registry.snapshot (initialStores 1 2) configPrefix).snap registry (fun _ => 0),
        n.atomic = true -> WholeTruth (storedLeaf (initialStores 1 2)) n := by
  have start : Reachable (initialStores 1 2) := ⟨1, 2, [], rfl⟩
  have exact := atomic_records_whole_iff start start configPrefix .config (fun _ => 0)
  have uncut := configPrefix_cuts_nothing start.invariant
  exact ⟨exact.1.mpr (fun _ _ _ _ container _ _ => uncut container),
    exact.2.mpr (fun _ container _ _ => uncut container)⟩

/-- The port of the time server. -/
def portPath : Path where
  elem := [⟨"system".toList, .empty⟩, ⟨"ntp".toList, .empty⟩, ⟨"servers".toList, .empty⟩,
    ⟨"server".toList, .single "address".toList "10.0.0.1".toList⟩, ⟨"config".toList, .empty⟩,
    ⟨"port".toList, .empty⟩]

/-- The answer to a query for the port alone omits the record's other leaves. -/
theorem port_record_incomplete :
    ¬ ∀ n ∈ buildFullNotifications (Gnmi.Get.filterByDataType
        (registry.snapshot (initialStores 1 2) (gnmiToXpath portPath)).snap .all) registry (fun _ => 0),
      n.atomic = true -> WholeTruth (storedLeaf (initialStores 1 2)) n := by
  intro truthful
  have inv := initial_invariant 1 2
  have port : (registry.snapshot (initialStores 1 2) (gnmiToXpath portPath)).snap[
      SystemConfigProvider.NTP_CONFIG ++ "/port".toList]?.isSome = true := by decide +kernel
  have address : (storedLeaf (initialStores 1 2)
      (SystemConfigProvider.NTP_CONFIG ++ "/address".toList)).isSome = true := by decide +kernel
  have contained : ∀ tail ∈ ["/port".toList, "/address".toList],
      registry.atomicPrefix (SystemConfigProvider.NTP_CONFIG ++ tail) =
        some SystemConfigProvider.NTP_CONFIG := by decide +kernel
  have unselected : (registry.snapshot (initialStores 1 2) (gnmiToXpath portPath)).snap[
      SystemConfigProvider.NTP_CONFIG ++ "/address".toList]? = none := by decide +kernel
  rcases Option.isSome_iff_exists.mp port with ⟨leaf, found⟩
  rcases Option.isSome_iff_exists.mp address with ⟨other, stored⟩
  have whole := (wholeTruth_buildFull registry_atomicLaw (registry_serves.canonical inv)
    (fun key leaf found => (storedLeaf_iff inv key leaf).mpr ((snapshot_iff inv _ key leaf).mp found).2.1)
    (fun _ => 0)).mp truthful _ leaf _ found (contained _ List.mem_cons_self)
  have kept := whole _ other stored (contained _ (List.mem_cons_of_mem _ List.mem_cons_self))
  exact absurd (unselected.symm.trans kept) (Option.some_ne_none other).symm

end Server
end PscMockServer
