import PscMockServer.Telemetry.OpenStreams
import PscMockServer.Telemetry.Stamps

namespace PscMockServer
namespace Telemetry

open Foundations Gnmi Utils Backend

/-!
# What the two emitters send, exactly

Both emitters send at most one notification for the leaves outside containers and one
for each container that concerns them: every container with a leaf in a full emission,
every container in which something differs in a change emission.
-/

variable {σ : Type} {reg : DataProviderRegistry σ}

/-! ## The two parts of an emission -/

theorem pushAll_append (clock : Nat -> Int) (first last : List (Int -> Notification)) :
    pushAll clock (first ++ last) =
      pushAll clock first ++ pushAll (fun i => clock (i + first.length)) last :=
  List.mapIdx_append

theorem map_pushAll {β : Type} (read : Notification -> β) (clock : Nat -> Int)
    (builds : List (Int -> Notification))
    (same : ∀ build ∈ builds, ∀ reading, read (build reading) = read (build 0)) :
    (pushAll clock builds).map read = builds.map (fun build => read (build 0)) := by
  induction builds generalizing clock with
  | nil => rfl
  | cons build builds inductionHypothesis =>
      rw [pushAll, List.mapIdx_cons, List.map_cons, List.map_cons, same build List.mem_cons_self]
      apply congrArg
      apply inductionHypothesis (fun i => clock (i + 1))
      exact fun other member => same other (List.mem_cons_of_mem build member)

/-- The leaves of a container in a snapshot, as a receiver should see them. -/
def ReportsGroup (reg : DataProviderRegistry σ) (snap : Snapshot) (container : Str)
    (reports : List (List Node × TypedValue)) : Prop :=
  ∀ path value, (path, value) ∈ reports ↔ ∃ (key : Str) (leaf : Leaf), snap[key]? = some leaf ∧
    reg.atomicPrefix key = some container ∧ path = pathOf key ∧ value = leaf.val

/-- At most one notification is not atomic; the others are one for each concerned
container, with distinct paths, and each has all the leaves of its container. -/
structure OnePerContainer (reg : DataProviderRegistry σ) (snap : Snapshot) (Concerned : Str -> Prop)
    (notes : List Notification) : Prop where
  loose : (notes.filter (fun n => !n.atomic)).length ≤ 1
  containers : ∃ containers : List Str, (containers.map pathOf).Nodup ∧
    (∀ container, container ∈ containers ↔ Concerned container) ∧
    (notes.filter Notification.atomic).map Notification.pathPrefix =
      containers.map (fun container => xpathToGnmiPath container {})
  whole : ∀ n ∈ notes, n.atomic = true -> ∃ container, Concerned container ∧
    n.pathPrefix = xpathToGnmiPath container {} ∧ ReportsGroup reg snap container (updatesOf n)

/-- The build of a notification about a container. -/
structure AboutContainer (reg : DataProviderRegistry σ) (snap : Snapshot) (container : Str)
    (build : Int -> Notification) : Prop where
  atomic : ∀ reading, (build reading).atomic = true
  pathPrefix : ∀ reading, (build reading).pathPrefix = xpathToGnmiPath container {}
  whole : ∀ reading, ReportsGroup reg snap container (updatesOf (build reading))

/-- Distinct containers have distinct paths, since each has a canonical path below it. -/
theorem containers_nodup (within : Within reg.atomicPrefix) {containers : List Str}
    (distinct : containers.Nodup)
    (answered : ∀ container ∈ containers, ∃ sample, Canonical sample ∧
      reg.atomicPrefix sample = some container) : (containers.map pathOf).Nodup := by
  apply List.Nodup.map_on _ distinct
  intro first inFirst second inSecond same
  rcases answered first inFirst with ⟨firstSample, firstCanonical, firstAnswer⟩
  rcases answered second inSecond with ⟨secondSample, secondCanonical, secondAnswer⟩
  rcases (within _ _ firstCanonical firstAnswer).split firstCanonical with ⟨firstSegments, _, rfl, _⟩
  rcases (within _ _ secondCanonical secondAnswer).split secondCanonical with ⟨secondSegments, _, rfl, _⟩
  rw [pathOf_xpathOf, pathOf_xpathOf] at same
  rw [segments_eq_of_nodes same]

/-- An emission of one optional loose build and one build for each of some containers. -/
theorem onePerContainer_of_builds {snap : Snapshot} {Concerned : Str -> Prop}
    {loose : List (Int -> Notification)} {contained : List (Str × (Int -> Notification))}
    (clock : Nat -> Int) (atMostOne : loose.length ≤ 1)
    (notAtomic : ∀ build ∈ loose, ∀ reading, (build reading).atomic = false)
    (about : ∀ entry ∈ contained, AboutContainer reg snap entry.1 entry.2)
    (distinct : ((contained.map Prod.fst).map pathOf).Nodup)
    (concerned : ∀ container, container ∈ contained.map Prod.fst ↔ Concerned container) :
    OnePerContainer reg snap Concerned (pushAll clock (loose ++ contained.map Prod.snd)) := by
  have looseNotes : ∀ n ∈ pushAll clock loose, n.atomic = false := by
    intro n member
    rcases mem_pushAll member with ⟨build, listed, reading, rfl⟩
    exact notAtomic build listed reading
  have source : ∀ n ∈ pushAll (fun i => clock (i + loose.length)) (contained.map Prod.snd),
      ∃ entry ∈ contained, ∃ reading, n = entry.2 reading := by
    intro n member
    rcases mem_pushAll member with ⟨build, listed, reading, rfl⟩
    rcases List.mem_map.mp listed with ⟨entry, inContained, rfl⟩
    exact ⟨entry, inContained, reading, rfl⟩
  have atomicNotes : ∀ n ∈ pushAll (fun i => clock (i + loose.length)) (contained.map Prod.snd),
      n.atomic = true := by
    intro n member
    rcases source n member with ⟨entry, inContained, reading, rfl⟩
    exact (about entry inContained).atomic reading
  rw [pushAll_append]
  constructor
  · rw [List.filter_append, List.filter_eq_self.mpr, List.filter_eq_nil_iff.mpr, List.append_nil,
      length_pushAll]
    · exact atMostOne
    · intro n member
      rw [atomicNotes n member]
      exact Bool.false_ne_true
    · intro n member
      rw [looseNotes n member]
      rfl
  · refine ⟨contained.map Prod.fst, distinct, concerned, ?_⟩
    rw [List.filter_append, List.filter_eq_nil_iff.mpr, List.filter_eq_self.mpr atomicNotes,
      List.nil_append, map_pushAll, List.map_map, List.map_map]
    · apply List.map_congr_left
      intro entry member
      exact (about entry member).pathPrefix 0
    · intro build listed reading
      rcases List.mem_map.mp listed with ⟨entry, inContained, rfl⟩
      rw [(about entry inContained).pathPrefix reading, (about entry inContained).pathPrefix 0]
    · intro n member
      rw [looseNotes n member]
      exact Bool.false_ne_true
  · intro n member isAtomic
    rcases List.mem_append.mp member with isLoose | isContained
    · rw [looseNotes n isLoose] at isAtomic
      cases isAtomic
    · rcases source n isContained with ⟨entry, inContained, reading, rfl⟩
      exact ⟨entry.1, (concerned entry.1).mp (List.mem_map_of_mem inContained),
        (about entry inContained).pathPrefix reading, (about entry inContained).whole reading⟩

/-- A notification with a whole group is about its container. -/
theorem aboutContainer_atomicNote {snap group : Snapshot} {container : Str}
    (below : ∀ entry ∈ group.toList, Canonical entry.1 ∧ Below container entry.1)
    (isGroup : ∀ key : Str, group[key]? = if reg.atomicPrefix key = some container then snap[key]? else none) :
    AboutContainer reg snap container (atomicNote container group) := by
  refine ⟨fun reading => atomicNote_atomic container group reading, fun reading => ?_, ?_⟩
  · rw [atomicNote_eq]
  · intro reading path value
    rw [updatesOf_atomicNote below, List.mem_map]
    constructor
    · rintro ⟨entry, member, same⟩
      have found := OrdMap.find_of_mem_toList member
      rw [isGroup] at found
      split at found
      · next isC =>
          have parts := Prod.mk.inj same
          exact ⟨entry.1, entry.2, found, isC, parts.1.symm, parts.2.symm⟩
      · cases found
    · rintro ⟨key, leaf, found, isC, rfl, rfl⟩
      have inGroup : group[key]? = some leaf := by rw [isGroup, if_pos isC, found]
      exact ⟨(key, leaf), OrdMap.mem_toList_of_find inGroup, rfl⟩

/-! ## Full emissions -/

/-- Some leaf of the snapshot belongs to the container. -/
def HasLeaf (reg : DataProviderRegistry σ) (snap : Snapshot) (container : Str) : Prop :=
  ∃ (key : Str) (leaf : Leaf), snap[key]? = some leaf ∧ reg.atomicPrefix key = some container

/-- The collection times of the leaves that the notification carries. -/
def carriedTimes (snap : Snapshot) (n : Notification) : Set Int :=
  {t | ∃ (key : Str) (leaf : Leaf), snap[key]? = some leaf ∧
    pathOf key ∈ (updatesOf n).map Prod.fst ∧ t = leaf.collectedNs}

/-- Every leaf is reported exactly once, in one notification per container and at most
one more, stamped with the newest collection time they carry. -/
structure ExactFull (reg : DataProviderRegistry σ) (snap : Snapshot) (notes : List Notification) :
    Prop where
  partitioned : (reported notes).Perm (snap.toList.map entryReport)
  once : ((reported notes).map Prod.fst).Nodup
  grouped : OnePerContainer reg snap (HasLeaf reg snap) notes
  nonempty : notes ≠ []
  noDeletes : ∀ n ∈ notes, n.delete = []
  stamped : ∀ n ∈ notes, n.update ≠ [] -> IsGreatest (carriedTimes snap n) n.timestamp

/-- The times carried by the report of a part of the snapshot. -/
theorem carriedTimes_eq {snap part : Snapshot} (canonical : CanonicalKeys snap)
    (within : ∀ (key : Str) (leaf : Leaf), part[key]? = some leaf -> snap[key]? = some leaf)
    {n : Notification} (reports : updatesOf n = part.toList.map entryReport) :
    carriedTimes snap n = {t | ∃ entry ∈ part.toList, t = entry.2.collectedNs} := by
  ext t
  rw [carriedTimes, Set.mem_ofPred_eq, Set.mem_ofPred_eq, reports, List.map_map]
  constructor
  · rintro ⟨key, leaf, found, carried, rfl⟩
    rcases List.mem_map.mp carried with ⟨entry, member, same⟩
    have inPart := OrdMap.find_of_mem_toList member
    have stored := within entry.1 entry.2 inPart
    have keys := Canonical.pathOf_injective (canonical entry.1 entry.2 stored)
      (canonical key leaf found) same
    rw [← keys, stored] at found
    exact ⟨entry, member, congrArg Leaf.collectedNs (Option.some.inj found).symm⟩
  · rintro ⟨entry, member, rfl⟩
    exact ⟨entry.1, entry.2, within entry.1 entry.2 (OrdMap.find_of_mem_toList member),
      List.mem_map_of_mem member, rfl⟩

/-- A notification stamped from the part it reports carries the newest of its times. -/
theorem isGreatest_stampOr {snap part : Snapshot} (canonical : CanonicalKeys snap)
    (within : ∀ (key : Str) (leaf : Leaf), part[key]? = some leaf -> snap[key]? = some leaf)
    (positive : ∀ (key : Str) (leaf : Leaf), snap[key]? = some leaf -> 0 < leaf.collectedNs)
    {n : Notification} {reading : Int} (reports : updatesOf n = part.toList.map entryReport)
    (stamp : n.timestamp = stampOr (newestOf part.toList) reading) (some_ : n.update ≠ []) :
    IsGreatest (carriedTimes snap n) n.timestamp := by
  have entries : part.toList ≠ [] := by
    intro none_
    rw [none_, updatesOf] at reports
    exact some_ (List.map_eq_nil_iff.mp reports)
  have times : ∀ entry ∈ part.toList, 0 < entry.2.collectedNs := fun entry member =>
    positive entry.1 entry.2 (within entry.1 entry.2 (OrdMap.find_of_mem_toList member))
  rw [carriedTimes_eq canonical within reports, stamp, stampOr,
    if_neg (newestOf_pos entries times).ne']
  exact newestOf_isGreatest entries times

theorem group_within {snap : Snapshot} {group : Str × Snapshot}
    (member : group ∈ (partition snap reg).2.toList) (key : Str) (leaf : Leaf)
    (found : group.2[key]? = some leaf) : snap[key]? = some leaf := by
  rw [find_of_mem_groups member] at found
  split at found
  · exact found
  · cases found

theorem onePerContainer_buildFull (within : Within reg.atomicPrefix) {snap : Snapshot}
    (canonical : CanonicalKeys snap) (clock : Nat -> Int) :
    OnePerContainer reg snap (HasLeaf reg snap) (buildFullNotifications snap reg clock) := by
  have answered : ∀ container ∈ (partition snap reg).2.toList.map Prod.fst,
      HasLeaf reg snap container := by
    intro container listed
    rcases List.mem_map.mp listed with ⟨group, member, rfl⟩
    exact group_sample member
  have shape : (partition snap reg).2.toList.map (fun entry => atomicNote entry.1 entry.2) =
      ((partition snap reg).2.toList.map (fun entry => (entry.1, atomicNote entry.1 entry.2))).map
        Prod.snd := by
    rw [List.map_map]
    rfl
  have names : ((partition snap reg).2.toList.map
      (fun entry => (entry.1, atomicNote entry.1 entry.2))).map Prod.fst =
        (partition snap reg).2.toList.map Prod.fst := by
    rw [List.map_map]
    rfl
  rw [buildFullNotifications, shape]
  apply onePerContainer_of_builds
  · split
    · exact Nat.le_refl 1
    · exact Nat.zero_le 1
  · intro build listed reading
    split at listed
    · rw [List.mem_singleton.mp listed]
      rfl
    · cases listed
  · intro entry listed
    rcases List.mem_map.mp listed with ⟨group, member, rfl⟩
    exact aboutContainer_atomicNote (fun leaf inGroup => group_below within canonical member inGroup)
      (find_of_mem_groups member)
  · rw [names]
    apply containers_nodup within (OrdMap.keys_nodup _)
    intro container listed
    rcases answered container listed with ⟨key, leaf, found, isC⟩
    exact ⟨key, canonical key leaf found, isC⟩
  · intro container
    rw [names]
    refine ⟨answered container, fun hasLeaf => ?_⟩
    rcases OrdMap.exists_mem_toList ((mem_groups_iff snap reg container).mpr hasLeaf) with ⟨group, member⟩
    exact List.mem_map_of_mem member

/-- A full emission of leaves with positive times is exact. -/
theorem full_emission_exact (within : Within reg.atomicPrefix) {snap : Snapshot}
    (canonical : CanonicalKeys snap)
    (positive : ∀ (key : Str) (leaf : Leaf), snap[key]? = some leaf -> 0 < leaf.collectedNs)
    (clock : Nat -> Int) : ExactFull reg snap (buildFullNotifications snap reg clock) where
  partitioned := reported_buildFull within canonical clock
  once := by
    have distinct := entryReport_nodup canonical
    exact ((reported_buildFull within canonical clock).map Prod.fst).nodup_iff.mpr distinct
  grouped := onePerContainer_buildFull within canonical clock
  nonempty := buildFull_ne_nil snap reg clock
  noDeletes := fun _ member => deletes_buildFull member
  stamped := by
    intro n member some_
    rcases mem_buildFull member with ⟨reading, rfl⟩ | ⟨group, inGroups, reading, rfl⟩
    · exact isGreatest_stampOr canonical rest_within positive (updatesOf_fullNote _ reading)
        (fullNote_timestamp _ reading) some_
    · exact isGreatest_stampOr canonical (group_within inGroups) positive
        (updatesOf_atomicNote (fun leaf inGroup => group_below within canonical inGroups inGroup) reading)
        (atomicNote_timestamp _ _ reading) some_

/-! ## Change emissions -/

/-- A leaf of the container is new, gone, or has another value. -/
def GroupDiffers (reg : DataProviderRegistry σ) (prev cur : Snapshot) (container : Str) : Prop :=
  ∃ key, reg.atomicPrefix key = some container ∧ Differs prev cur key

/-- The non-atomic notification: an update for each leaf outside containers that is new
or has another value, a delete for each one that is gone, no path twice. -/
structure LooseChanges (reg : DataProviderRegistry σ) (prev cur : Snapshot) (n : Notification) :
    Prop where
  updates : ∀ path value, (path, value) ∈ updatesOf n ↔ ∃ (key : Str) (leaf : Leaf),
    reg.atomicPrefix key = none ∧ cur[key]? = some leaf ∧
      LeafStore.valueAt prev key ≠ some leaf.val ∧ path = pathOf key ∧ value = leaf.val
  deletes : ∀ path, path ∈ deletesOf n ↔ ∃ (key : Str) (leaf : Leaf),
    reg.atomicPrefix key = none ∧ prev[key]? = some leaf ∧ cur[key]? = none ∧ path = pathOf key
  once : ((updatesOf n).map Prod.fst ++ deletesOf n).Nodup

/-- Only changes are sent, each of them once. -/
structure ExactChange (reg : DataProviderRegistry σ) (prev cur : Snapshot)
    (notes : List Notification) : Prop where
  silent : notes = [] ↔ ∀ key, LeafStore.valueAt prev key = LeafStore.valueAt cur key
  loose : ∀ n ∈ notes, n.atomic = false -> LooseChanges reg prev cur n
  grouped : OnePerContainer reg cur (GroupDiffers reg prev cur) notes

section Change

variable {prev cur : Snapshot} (canonicalPrev : CanonicalKeys prev) (canonicalCur : CanonicalKeys cur)

/-- The changed leaves of a diff and the vanished ones have different keys, none twice. -/
theorem diff_keys_nodup (prev cur : Snapshot) :
    ((LeafStore.diff prev cur).updated.map Prod.fst ++ (LeafStore.diff prev cur).removed).Nodup := by
  rw [List.nodup_append]
  refine ⟨?_, ?_, ?_⟩
  · exact (List.filter_sublist.map Prod.fst).nodup (OrdMap.keys_nodup cur)
  · exact List.filter_sublist.nodup (OrdMap.keys_nodup prev)
  · rintro key updated other removed rfl
    rcases List.mem_map.mp updated with ⟨entry, changed, rfl⟩
    have stored := ((LeafStore.mem_changedLeaves prev cur entry.1 entry.2).mp changed).1
    have gone := ((LeafStore.mem_vanishedPaths prev cur entry.1).mp removed).2
    rw [stored] at gone
    cases gone

theorem mem_looseDiff_updated {key : Str} {leaf : Leaf} :
    (key, leaf) ∈ (looseDiff prev cur reg).updated ↔ reg.atomicPrefix key = none ∧
      cur[key]? = some leaf ∧ LeafStore.valueAt prev key ≠ some leaf.val := by
  rw [looseDiff]
  refine (LeafStore.mem_changedLeaves _ _ key leaf).trans ?_
  have before := valueAt_rest prev reg key
  rw [LeafStore.valueAt] at before
  rw [before, partition_rest_find]
  by_cases isLoose : reg.atomicPrefix key = none
  · rw [if_pos isLoose, if_pos isLoose, and_iff_right isLoose]
  · rw [if_neg isLoose]
    exact ⟨fun both => absurd both.1.symm (Option.some_ne_none leaf), fun both => absurd both.1 isLoose⟩

theorem mem_looseDiff_removed {key : Str} :
    key ∈ (looseDiff prev cur reg).removed ↔ ∃ leaf, reg.atomicPrefix key = none ∧
      prev[key]? = some leaf ∧ cur[key]? = none := by
  rw [looseDiff]
  refine (LeafStore.mem_vanishedPaths _ _ key).trans ?_
  rw [partition_rest_find, partition_rest_find]
  by_cases isLoose : reg.atomicPrefix key = none
  · rw [if_pos isLoose, if_pos isLoose]
    constructor
    · rintro ⟨⟨leaf, found⟩, gone⟩
      exact ⟨leaf, isLoose, found, gone⟩
    · rintro ⟨leaf, _, found, gone⟩
      exact ⟨⟨leaf, found⟩, gone⟩
  · rw [if_neg isLoose]
    constructor
    · rintro ⟨⟨leaf, impossible⟩, _⟩
      exact absurd impossible.symm (Option.some_ne_none leaf)
    · rintro ⟨leaf, here, _⟩
      exact absurd here isLoose

include canonicalPrev canonicalCur in
theorem looseChanges_diffNote (reading : Int) :
    LooseChanges reg prev cur (diffNote (looseDiff prev cur reg) reading) := by
  constructor
  · intro path value
    rw [updatesOf_diffNote, List.mem_map]
    constructor
    · rintro ⟨entry, changed, same⟩
      have parts := Prod.mk.inj same
      rcases mem_looseDiff_updated.mp changed with ⟨isLoose, found, different⟩
      exact ⟨entry.1, entry.2, isLoose, found, different, parts.1.symm, parts.2.symm⟩
    · rintro ⟨key, leaf, isLoose, found, different, rfl, rfl⟩
      exact ⟨(key, leaf), mem_looseDiff_updated.mpr ⟨isLoose, found, different⟩, rfl⟩
  · intro path
    rw [deletesOf_diffNote, List.mem_map]
    constructor
    · rintro ⟨key, vanished, rfl⟩
      rcases mem_looseDiff_removed.mp vanished with ⟨leaf, isLoose, found, gone⟩
      exact ⟨key, leaf, isLoose, found, gone, rfl⟩
    · rintro ⟨key, leaf, isLoose, found, gone, rfl⟩
      exact ⟨key, mem_looseDiff_removed.mpr ⟨leaf, isLoose, found, gone⟩, rfl⟩
  · have keys : (updatesOf (diffNote (looseDiff prev cur reg) reading)).map Prod.fst ++
        deletesOf (diffNote (looseDiff prev cur reg) reading) =
          ((looseDiff prev cur reg).updated.map Prod.fst ++ (looseDiff prev cur reg).removed).map
            pathOf := by
      rw [updatesOf_diffNote, deletesOf_diffNote, List.map_append, List.map_map, List.map_map]
      rfl
    have canonical : ∀ key ∈ (looseDiff prev cur reg).updated.map Prod.fst ++
        (looseDiff prev cur reg).removed, Canonical key := by
      intro key member
      rcases List.mem_append.mp member with updated | removed
      · rcases List.mem_map.mp updated with ⟨entry, changed, rfl⟩
        exact canonicalCur entry.1 entry.2 (mem_looseDiff_updated.mp changed).2.1
      · rcases mem_looseDiff_removed.mp removed with ⟨leaf, _, found, _⟩
        exact canonicalPrev key leaf found
    rw [keys]
    apply List.Nodup.map_on _ (diff_keys_nodup _ _)
    intro first inFirst second inSecond same
    exact Canonical.pathOf_injective (canonical first inFirst) (canonical second inSecond) same

/-- The containers of the loop that send something. -/
def sendingContainers (prev cur : Snapshot) (reg : DataProviderRegistry σ) :
    List (Str × (Int -> Notification)) :=
  (changedPrefixes (partition prev reg).2 (partition cur reg).2).toList.filterMap (fun container =>
    (containerChange (partition prev reg).2 (partition cur reg).2 container).map
      (fun build => (container, build)))

theorem mem_sendingContainers {entry : Str × (Int -> Notification)} :
    entry ∈ sendingContainers prev cur reg ↔ GroupDiffers reg prev cur entry.1 ∧
      containerChange (partition prev reg).2 (partition cur reg).2 entry.1 = some entry.2 := by
  rw [sendingContainers, List.mem_filterMap]
  constructor
  · rintro ⟨container, _, sends⟩
    rcases Option.map_eq_some_iff.mp sends with ⟨build, isBuild, rfl⟩
    refine ⟨?_, isBuild⟩
    rcases containerChange_cases prev cur reg container with ⟨skipped, _⟩ | ⟨differs, _⟩
    · exact absurd (skipped.symm.trans isBuild) (Option.some_ne_none build).symm
    · exact differs
  · rintro ⟨⟨sample, isC, differs⟩, isBuild⟩
    exact ⟨entry.1, differs.listed isC, Option.map_eq_some_iff.mpr ⟨entry.2, isBuild, rfl⟩⟩

theorem sent_of_change {container : Str} {build : Int -> Notification}
    (differs : GroupDiffers reg prev cur container)
    (sent : containerChange (partition prev reg).2 (partition cur reg).2 container = some build) :
    (container, build) ∈ sendingContainers prev cur reg :=
  mem_sendingContainers.mpr ⟨differs, sent⟩

theorem changeBuilds_eq (prev cur : Snapshot) (reg : DataProviderRegistry σ) :
    changeBuilds prev cur reg =
      (if !(looseDiff prev cur reg).updated.isEmpty || !(looseDiff prev cur reg).removed.isEmpty then
        [diffNote (looseDiff prev cur reg)] else []) ++
          (sendingContainers prev cur reg).map Prod.snd := by
  rw [changeBuilds, sendingContainers, List.map_filterMap]
  congr 1
  apply List.filterMap_congr
  intro container _
  rw [Option.map_map]
  exact Option.map_id'.symm

theorem sendingContainers_nodup (prev cur : Snapshot) (reg : DataProviderRegistry σ) :
    ((sendingContainers prev cur reg).map Prod.fst).Nodup := by
  have names : ((sendingContainers prev cur reg).map Prod.fst).Sublist
      (changedPrefixes (partition prev reg).2 (partition cur reg).2).toList := by
    rw [sendingContainers]
    generalize (changedPrefixes (partition prev reg).2 (partition cur reg).2).toList = containers
    induction containers with
    | nil => exact List.Sublist.refl _
    | cons container containers inductionHypothesis =>
        rw [List.filterMap_cons]
        cases containerChange (partition prev reg).2 (partition cur reg).2 container with
        | none => exact inductionHypothesis.cons container
        | some build => exact inductionHypothesis.cons_cons container
  apply names.nodup
  rw [List.nodup_iff_pairwise_ne]
  refine List.Pairwise.imp ?_ Std.ExtTreeSet.distinct_toList
  intro first second different same
  exact different (Std.LawfulEqOrd.compare_eq_iff_eq.mpr same)

include canonicalCur in
/-- The container loop builds a notification about each container that differs. -/
theorem aboutContainer_change (within : Within reg.atomicPrefix) {entry : Str × (Int -> Notification)}
    (listed : entry ∈ sendingContainers prev cur reg) : AboutContainer reg cur entry.1 entry.2 := by
  have sent := (mem_sendingContainers.mp listed).2
  rcases containerChange_cases prev cur reg entry.1 with
    ⟨skipped, _⟩ | ⟨_, ⟨gone, empty⟩ | whole⟩
  · exact absurd (skipped.symm.trans sent) (Option.some_ne_none entry.2).symm
  · rw [← Option.some.inj (gone.symm.trans sent)]
    refine ⟨fun _ => rfl, fun _ => rfl, fun reading path value => ?_⟩
    have nothing : updatesOf (goneNote entry.1 reading) = [] := rfl
    rw [nothing]
    refine ⟨fun impossible => absurd impossible List.not_mem_nil, ?_⟩
    rintro ⟨key, leaf, found, isC, _⟩
    have inGroup := partition_group_find cur reg entry.1 key
    rw [empty, if_pos isC, found, Std.ExtTreeMap.getElem?_empty] at inGroup
    cases inGroup
  · rw [← Option.some.inj (whole.symm.trans sent)]
    exact aboutContainer_atomicNote (current_below canonicalCur within) (partition_group_find cur reg entry.1)

include canonicalPrev canonicalCur in
theorem onePerContainer_buildChange (within : Within reg.atomicPrefix) (clock : Nat -> Int) :
    OnePerContainer reg cur (GroupDiffers reg prev cur)
      (buildChangeNotifications prev cur reg clock) := by
  rw [buildChange_eq, changeBuilds_eq]
  apply onePerContainer_of_builds
  · split
    · exact Nat.le_refl 1
    · exact Nat.zero_le 1
  · intro build listed reading
    split at listed
    · rw [List.mem_singleton.mp listed]
      rfl
    · cases listed
  · exact fun entry listed => aboutContainer_change canonicalCur within listed
  · apply containers_nodup within (sendingContainers_nodup prev cur reg)
    intro container listed
    rcases List.mem_map.mp listed with ⟨entry, sent, rfl⟩
    rcases (mem_sendingContainers.mp sent).1 with ⟨sample, isC, differs⟩
    exact ⟨sample, differs.canonical canonicalPrev canonicalCur, isC⟩
  · intro container
    constructor
    · intro listed
      rcases List.mem_map.mp listed with ⟨entry, sent, rfl⟩
      exact (mem_sendingContainers.mp sent).1
    · intro differs
      rcases containerChange_cases prev cur reg container with
        ⟨_, unchanged⟩ | ⟨_, ⟨gone, _⟩ | whole⟩
      · rcases differs with ⟨sample, isC, different⟩
        exact absurd different (unchanged sample isC)
      · exact List.mem_map_of_mem (sent_of_change differs gone)
      · exact List.mem_map_of_mem (sent_of_change differs whole)

/-- Nothing is sent exactly if nothing differs. -/
theorem buildChange_nil_iff (prev cur : Snapshot) (reg : DataProviderRegistry σ) (clock : Nat -> Int) :
    buildChangeNotifications prev cur reg clock = [] ↔
      ∀ key, LeafStore.valueAt prev key = LeafStore.valueAt cur key := by
  have looseSame := LeafStore.diff_empty_iff (partition prev reg).1 (partition cur reg).1
  rw [← List.length_eq_zero_iff, buildChange_eq, length_pushAll, List.length_eq_zero_iff,
    changeBuilds_eq, List.append_eq_nil_iff, List.map_eq_nil_iff]
  constructor
  · rintro ⟨noLoose, noContainers⟩ key
    by_contra differs
    cases answer : reg.atomicPrefix key with
    | none =>
        split at noLoose
        · cases noLoose
        · next empty =>
            simp only [Bool.or_eq_true, Bool.not_eq_true', not_or, Bool.not_eq_false,
              List.isEmpty_iff] at empty
            have same := looseSame.mp empty key
            rw [valueAt_rest, valueAt_rest, if_pos answer, if_pos answer] at same
            exact differs same
    | some container =>
        have concerned : GroupDiffers reg prev cur container := ⟨key, answer, differs⟩
        have none_ : ∀ build, containerChange (partition prev reg).2 (partition cur reg).2 container ≠
            some build := by
          intro build sent
          have listed := sent_of_change concerned sent
          rw [noContainers] at listed
          cases listed
        rcases containerChange_cases prev cur reg container with
          ⟨_, unchanged⟩ | ⟨_, ⟨gone, _⟩ | whole⟩
        · exact unchanged key answer differs
        · exact none_ _ gone
        · exact none_ _ whole
  · intro same
    constructor
    · have empty := looseSame.mpr (by
        intro key
        rw [valueAt_rest, valueAt_rest, same key])
      rw [if_neg]
      rw [looseDiff, empty.1, empty.2]
      exact Bool.false_ne_true
    · rw [List.eq_nil_iff_forall_not_mem]
      intro entry listed
      rcases (mem_sendingContainers.mp listed).1 with ⟨key, _, differs⟩
      exact differs (same key)

include canonicalPrev canonicalCur in
/-- A change emission is exact. -/
theorem change_emission_exact (within : Within reg.atomicPrefix) (clock : Nat -> Int) :
    ExactChange reg prev cur (buildChangeNotifications prev cur reg clock) where
  silent := buildChange_nil_iff prev cur reg clock
  loose := by
    intro n member notAtomic
    rw [buildChange_eq] at member
    rcases mem_pushAll member with ⟨build, listed, reading, rfl⟩
    rcases changeBuilds_cases canonicalPrev canonicalCur listed with
      rfl | ⟨container, sample, _, _, _, ⟨rfl, _⟩ | rfl⟩
    · exact looseChanges_diffNote canonicalPrev canonicalCur reading
    · cases notAtomic
    · rw [atomicNote_atomic] at notAtomic
      cases notAtomic
  grouped := onePerContainer_buildChange canonicalPrev canonicalCur within clock

include canonicalPrev canonicalCur in
/-- A client that shows the old snapshot shows the new one after the change
notifications. -/
theorem change_emission_replicates (law : AtomicLaw reg.atomicPrefix) (clock : Nat -> Int) {view : View}
    (shown : Shows view prev) :
    Shows (applyNotifications view (buildChangeNotifications prev cur reg clock)) cur := by
  rw [shows_iff canonicalPrev] at shown
  rw [shows_iff canonicalCur, shown]
  exact applyNotifications_change canonicalPrev canonicalCur law clock

end Change

/-! ## The system leaves around a rename -/

/-- What a client of `/system` reads. -/
def systemLeaves (s : Server.Stores) : Snapshot :=
  (Server.registry.snapshot s Server.configPrefix).snap

theorem systemLeaves_canonical {s : Server.Stores} (inv : Server.Invariant s) :
    CanonicalKeys (systemLeaves s) :=
  (Server.registry_serves.drawn inv Server.configPrefix).canonical

theorem system_full_exact : ExactFull Server.registry (systemLeaves beforeRename)
    (buildFullNotifications (systemLeaves beforeRename) Server.registry (fun _ => 5)) := by
  apply full_emission_exact Server.registry_atomicLaw.within
  · exact systemLeaves_canonical beforeRename_invariant
  · intro key leaf found
    have times : ∀ entry ∈ (systemLeaves beforeRename).toList, 0 < entry.2.collectedNs := by
      decide +kernel
    exact times (key, leaf) (OrdMap.mem_toList_of_find found)

theorem system_change_exact :
    ExactChange Server.registry (systemLeaves beforeRename) (systemLeaves afterRename)
        (buildChangeNotifications (systemLeaves beforeRename) (systemLeaves afterRename)
          Server.registry (fun _ => 5)) ∧
      buildChangeNotifications (systemLeaves beforeRename) (systemLeaves afterRename)
        Server.registry (fun _ => 5) ≠ [] := by
  refine ⟨?_, by decide +kernel⟩
  apply change_emission_exact
  · exact systemLeaves_canonical beforeRename_invariant
  · exact systemLeaves_canonical afterRename_invariant
  · exact Server.registry_atomicLaw.within

theorem system_change_replicates :
    Shows (applyNotifications (viewOf (systemLeaves beforeRename))
      (buildChangeNotifications (systemLeaves beforeRename) (systemLeaves afterRename)
        Server.registry (fun _ => 5))) (systemLeaves afterRename) := by
  have canonical := systemLeaves_canonical beforeRename_invariant
  apply change_emission_replicates canonical (systemLeaves_canonical afterRename_invariant)
    Server.registry_atomicLaw
  exact (shows_iff canonical _).mpr rfl

end Telemetry
end PscMockServer
