import PscMockServer.Gnmi.SubscribeEmit
import PscMockServer.Utils.CanonicalXpath

namespace PscMockServer
namespace Telemetry

open Foundations Gnmi Utils Backend

/-!
# What the emitted notifications report

A receiver reads every path under the notification's prefix.  On canonical store
keys, and for containers that lie above the paths they answer for, the relative path
an atomic notification carries completes its container to the leaf's own path, so a
full emission reports every leaf of the snapshot once and nothing else.
-/

/-! ## Reading a notification -/

/-- The absolute paths and values of the updates. -/
def updatesOf (n : Notification) : List (List Node × TypedValue) :=
  n.update.map (fun u => (n.pathPrefix.nodes ++ u.getPath.nodes, u.getVal))

/-- The absolute paths of the deletes. -/
def deletesOf (n : Notification) : List (List Node) :=
  n.delete.map (fun path => n.pathPrefix.nodes ++ path.nodes)

/-- Everything a list of notifications reports, in order. -/
def reported (notes : List Notification) : List (List Node × TypedValue) :=
  notes.flatMap updatesOf

/-- What a receiver should see of one entry of a snapshot. -/
def entryReport (entry : Str × Leaf) : List Node × TypedValue :=
  (pathOf entry.1, entry.2.val)

/-! ## The assumptions on keys and containers -/

/-- Every key is a canonical xpath. -/
def CanonicalKeys (snap : Snapshot) : Prop :=
  ∀ (key : Str) (leaf : Leaf), snap[key]? = some leaf -> Canonical key

/-- A container is only answered for the paths at or below it. -/
def Within (atomicPrefix : Str -> Option Str) : Prop :=
  ∀ path container, Canonical path -> atomicPrefix path = some container -> Below container path

/-- And it is answered for every path at or below it. -/
structure AtomicLaw (atomicPrefix : Str -> Option Str) : Prop where
  within : Within atomicPrefix
  whole : ∀ path other container, Canonical path -> Canonical other ->
    atomicPrefix path = some container -> Below container other ->
      atomicPrefix other = some container

variable {σ : Type} {reg : DataProviderRegistry σ}

theorem CanonicalKeys.entry {snap : Snapshot} (canonical : CanonicalKeys snap) {entry : Str × Leaf}
    (member : entry ∈ snap.toList) : Canonical entry.1 :=
  canonical entry.1 entry.2 (OrdMap.find_of_mem_toList member)

/-! ## The parts of a snapshot -/

theorem partition_rest_find (snap : Snapshot) (reg : DataProviderRegistry σ) (key : Str) :
    (partition snap reg).1[key]? = if reg.atomicPrefix key = none then snap[key]? else none :=
  OrdMap.splitBy_rest_find _ _ _

theorem partition_group_find (snap : Snapshot) (reg : DataProviderRegistry σ) (container key : Str) :
    ((partition snap reg).2[container]?.getD ∅)[key]? =
      if reg.atomicPrefix key = some container then snap[key]? else none :=
  OrdMap.splitBy_group_find _ _ _ _

/-- The group of a container, from the list the emitter walks. -/
theorem find_of_mem_groups {snap : Snapshot} {group : Str × Snapshot}
    (member : group ∈ (partition snap reg).2.toList) (key : Str) :
    group.2[key]? = if reg.atomicPrefix key = some group.1 then snap[key]? else none :=
  OrdMap.find_of_mem_splitBy_groups member key

theorem mem_groups_iff (snap : Snapshot) (reg : DataProviderRegistry σ) (container : Str) :
    container ∈ (partition snap reg).2 ↔
      ∃ (key : Str) (leaf : Leaf), snap[key]? = some leaf ∧ reg.atomicPrefix key = some container :=
  OrdMap.mem_splitBy_groups _ _ _

/-- Every leaf of a group lies at or below the container. -/
theorem group_below (within : Within reg.atomicPrefix) {snap : Snapshot}
    (canonical : CanonicalKeys snap) {group : Str × Snapshot}
    (member : group ∈ (partition snap reg).2.toList) {entry : Str × Leaf}
    (inGroup : entry ∈ group.2.toList) : Canonical entry.1 ∧ Below group.1 entry.1 := by
  have found := find_of_mem_groups member entry.1
  rw [OrdMap.find_of_mem_toList inGroup] at found
  split at found
  · next answered =>
      have isCanonical := canonical entry.1 entry.2 found.symm
      exact ⟨isCanonical, within entry.1 group.1 isCanonical answered⟩
  · cases found

/-! ## What each notification reports -/

theorem updatesOf_fullNote (snap : Snapshot) (reading : Int) :
    updatesOf (fullNote snap reading) = snap.toList.map entryReport := by
  rw [updatesOf, fullNote_update, List.map_map]
  rfl

/-- Relative paths under the container are the leaves' paths. -/
theorem updatesOf_atomicNote {container : Str} {group : Snapshot}
    (below : ∀ entry ∈ group.toList, Canonical entry.1 ∧ Below container entry.1) (reading : Int) :
    updatesOf (atomicNote container group reading) = group.toList.map entryReport := by
  rw [updatesOf, atomicNote_eq, List.map_map]
  apply List.map_congr_left
  intro entry member
  have joined := (below entry member).2.pathOf_drop (below entry member).1
  exact Prod.ext joined rfl

theorem updatesOf_diffNote (diff : Diff) (reading : Int) :
    updatesOf (diffNote diff reading) = diff.updated.map entryReport := by
  rw [updatesOf, diffNote_eq, List.map_map]
  rfl

theorem deletesOf_diffNote (diff : Diff) (reading : Int) :
    deletesOf (diffNote diff reading) = diff.removed.map pathOf := by
  rw [deletesOf, diffNote_eq, List.map_map]
  rfl

/-! ## Full emissions -/

/-- The notifications of a full emission, one by one. -/
theorem mem_buildFull {snap : Snapshot} {clock : Nat -> Int} {n : Notification}
    (member : n ∈ buildFullNotifications snap reg clock) :
    (∃ reading, n = fullNote (partition snap reg).1 reading) ∨
      ∃ group ∈ (partition snap reg).2.toList, ∃ reading, n = atomicNote group.1 group.2 reading := by
  rcases mem_pushAll member with ⟨build, listed, reading, rfl⟩
  rcases List.mem_append.mp listed with nonAtomic | atomic
  · split at nonAtomic
    · rw [List.mem_singleton.mp nonAtomic]
      exact Or.inl ⟨reading, rfl⟩
    · cases nonAtomic
  · rcases List.mem_map.mp atomic with ⟨group, inGroups, rfl⟩
    exact Or.inr ⟨group, inGroups, reading, rfl⟩

/-- Every group is emitted. -/
theorem exists_mem_buildFull {snap : Snapshot} {group : Str × Snapshot}
    (member : group ∈ (partition snap reg).2.toList) (clock : Nat -> Int) :
    ∃ reading, atomicNote group.1 group.2 reading ∈ buildFullNotifications snap reg clock :=
  exists_mem_pushAll clock (List.mem_append_right _ (List.mem_map.mpr ⟨group, member, rfl⟩))

theorem deletes_buildFull {snap : Snapshot} {clock : Nat -> Int} {n : Notification}
    (member : n ∈ buildFullNotifications snap reg clock) : n.delete = [] := by
  rcases mem_buildFull member with ⟨reading, rfl⟩ | ⟨group, _, reading, rfl⟩
  · rfl
  · rw [atomicNote_eq]

/-- A reading of notifications that sees no timestamps, over a full emission. -/
theorem flatMap_buildFull {β : Type} (read : Notification -> List β) (snap : Snapshot)
    (clock : Nat -> Int) (empty : ∀ reading, read (fullNote ∅ reading) = [])
    (full : ∀ reading, read (fullNote (partition snap reg).1 reading) =
      read (fullNote (partition snap reg).1 0))
    (atomic : ∀ group ∈ (partition snap reg).2.toList, ∀ reading,
      read (atomicNote group.1 group.2 reading) = read (atomicNote group.1 group.2 0)) :
    (buildFullNotifications snap reg clock).flatMap read =
      read (fullNote (partition snap reg).1 0) ++
        (partition snap reg).2.toList.flatMap (fun group => read (atomicNote group.1 group.2 0)) := by
  rw [buildFullNotifications, flatMap_pushAll]
  · rw [List.flatMap_append, List.flatMap_map]
    congr 1
    split
    · rw [List.flatMap_cons, List.flatMap_nil, List.append_nil]
    · next skipped =>
        have noLeaves : (partition snap reg).1 = ∅ := by
          rw [← Std.ExtTreeMap.isEmpty_iff]
          simp only [Bool.or_eq_true, Bool.not_eq_true', not_or, Bool.not_eq_false] at skipped
          exact skipped.1
        rw [List.flatMap_nil, noLeaves, empty]
  · intro build listed reading
    rcases List.mem_append.mp listed with nonAtomic | isAtomic
    · split at nonAtomic
      · rw [List.mem_singleton.mp nonAtomic]
        exact full reading
      · cases nonAtomic
    · rcases List.mem_map.mp isAtomic with ⟨group, inGroups, rfl⟩
      exact atomic group inGroups reading

/-- A full emission reports every leaf of the snapshot exactly once. -/
theorem reported_buildFull (within : Within reg.atomicPrefix) {snap : Snapshot}
    (canonical : CanonicalKeys snap) (clock : Nat -> Int) :
    (reported (buildFullNotifications snap reg clock)).Perm (snap.toList.map entryReport) := by
  have below : ∀ group ∈ (partition snap reg).2.toList, ∀ entry ∈ group.2.toList,
      Canonical entry.1 ∧ Below group.1 entry.1 :=
    fun group member entry inGroup => group_below within canonical member inGroup
  have split : reported (buildFullNotifications snap reg clock) =
      ((partition snap reg).1.toList ++
        (partition snap reg).2.toList.flatMap (fun group => group.2.toList)).map entryReport := by
    rw [reported, flatMap_buildFull, updatesOf_fullNote, List.map_append, List.map_flatMap]
    · congr 1
      apply List.flatMap_congr
      intro group member
      exact updatesOf_atomicNote (below group member) 0
    · intro reading
      rw [updatesOf_fullNote]
      rfl
    · intro reading
      rw [updatesOf_fullNote, updatesOf_fullNote]
    · intro group member reading
      rw [updatesOf_atomicNote (below group member), updatesOf_atomicNote (below group member)]
  rw [split]
  exact (OrdMap.splitBy_perm _ _).map entryReport

/-- Distinct canonical keys are distinct paths. -/
theorem entryReport_nodup {snap : Snapshot} (canonical : CanonicalKeys snap) :
    ((snap.toList.map entryReport).map Prod.fst).Nodup := by
  rw [List.map_map]
  apply List.Nodup.map_on
  · intro first inFirst second inSecond same
    have keys := Canonical.pathOf_injective (canonical.entry inFirst) (canonical.entry inSecond) same
    have firstFound := OrdMap.find_of_mem_toList inFirst
    rw [keys, OrdMap.find_of_mem_toList inSecond] at firstFound
    exact Prod.ext keys (Option.some.inj firstFound).symm
  · exact OrdMap.toList_nodup snap

theorem mem_reported_buildFull (within : Within reg.atomicPrefix) {snap : Snapshot}
    (canonical : CanonicalKeys snap) (clock : Nat -> Int) (path : List Node) (value : TypedValue) :
    (path, value) ∈ reported (buildFullNotifications snap reg clock) ↔
      ∃ (key : Str) (leaf : Leaf), snap[key]? = some leaf ∧ path = pathOf key ∧ value = leaf.val := by
  rw [(reported_buildFull within canonical clock).mem_iff, List.mem_map]
  constructor
  · rintro ⟨entry, member, same⟩
    have parts := Prod.mk.inj same
    exact ⟨entry.1, entry.2, OrdMap.find_of_mem_toList member, parts.1.symm, parts.2.symm⟩
  · rintro ⟨key, leaf, found, rfl, rfl⟩
    exact ⟨(key, leaf), OrdMap.mem_toList_of_find found, rfl⟩

end Telemetry
end PscMockServer
