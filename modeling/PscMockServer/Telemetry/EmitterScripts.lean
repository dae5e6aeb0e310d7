import PscMockServer.Telemetry.ClientView

namespace PscMockServer
namespace Telemetry

open Foundations Gnmi Utils Backend

/-!
# The scripts of the two emitters

Both emitters are sound for the snapshot they emit.  They differ in what they leave
alone: a full emission touches the leaves it carries and the containers it re-sends,
a change emission exactly the leaves that changed and the containers in which one
did.
-/

variable {σ : Type} {reg : DataProviderRegistry σ}

/-- The leaf is new, gone, or has another value. -/
def Differs (prev cur : Snapshot) (key : Str) : Prop :=
  LeafStore.valueAt prev key ≠ LeafStore.valueAt cur key

/-- A full emission carries the key, or a leaf of the key's container. -/
def Carried (atomicPrefix : Str -> Option Str) (snap : Snapshot) (key : Str) : Prop :=
  (∃ leaf, snap[key]? = some leaf) ∨
    ∃ container, atomicPrefix key = some container ∧
      ∃ other leaf, atomicPrefix other = some container ∧ snap[other]? = some leaf

/-- A change emission reports the key: it changed, or a leaf of its container did. -/
def Resent (atomicPrefix : Str -> Option Str) (prev cur : Snapshot) (key : Str) : Prop :=
  (atomicPrefix key = none ∧ Differs prev cur key) ∨
    ∃ container, atomicPrefix key = some container ∧
      ∃ other, atomicPrefix other = some container ∧ Differs prev cur other

/-- A leaf that differs is reported. -/
theorem Differs.resent {atomicPrefix : Str -> Option Str} {prev cur : Snapshot} {key : Str}
    (differs : Differs prev cur key) : Resent atomicPrefix prev cur key := by
  cases answer : atomicPrefix key with
  | none => exact Or.inl ⟨answer, differs⟩
  | some container => exact Or.inr ⟨container, answer, key, answer, differs⟩

theorem Differs.stored {prev cur : Snapshot} {key : Str} (differs : Differs prev cur key) :
    (∃ leaf, prev[key]? = some leaf) ∨ ∃ leaf, cur[key]? = some leaf := by
  rw [Differs, LeafStore.valueAt, LeafStore.valueAt] at differs
  cases before : prev[key]? with
  | some leaf => exact Or.inl ⟨leaf, rfl⟩
  | none =>
      cases after : cur[key]? with
      | some leaf => exact Or.inr ⟨leaf, rfl⟩
      | none =>
          rw [before, after] at differs
          exact absurd rfl differs

theorem Differs.canonical {prev cur : Snapshot} (canonicalPrev : CanonicalKeys prev)
    (canonicalCur : CanonicalKeys cur) {key : Str} (differs : Differs prev cur key) : Canonical key := by
  rcases differs.stored with ⟨leaf, found⟩ | ⟨leaf, found⟩
  · exact canonicalPrev key leaf found
  · exact canonicalCur key leaf found

/-- A container in which a leaf differs is in the container loop. -/
theorem Differs.listed {prev cur : Snapshot} {container sample : Str}
    (isC : reg.atomicPrefix sample = some container) (differs : Differs prev cur sample) :
    container ∈ (changedPrefixes (partition prev reg).2 (partition cur reg).2).toList := by
  rw [Std.ExtTreeSet.mem_toList, changedPrefixes, OrdMap.mem_insertKeys, OrdMap.mem_insertKeys,
    mem_groups_iff, mem_groups_iff]
  rcases differs.stored with ⟨leaf, found⟩ | ⟨leaf, found⟩
  · exact Or.inl (Or.inr ⟨sample, leaf, found, isC⟩)
  · exact Or.inr ⟨sample, leaf, found, isC⟩

/-! ## Full emissions -/

/-- A container that is emitted has a leaf. -/
theorem group_sample {snap : Snapshot} {group : Str × Snapshot}
    (member : group ∈ (partition snap reg).2.toList) :
    ∃ (key : Str) (leaf : Leaf), snap[key]? = some leaf ∧ reg.atomicPrefix key = some group.1 := by
  have listed : group.1 ∈ (partition snap reg).2 := by
    rw [Std.ExtTreeMap.mem_iff_isSome_getElem?, OrdMap.find_of_mem_toList member]
    rfl
  exact (mem_groups_iff snap reg group.1).mp listed

/-- The container of a stored leaf is emitted. -/
theorem exists_group {snap : Snapshot} {key container : Str} {leaf : Leaf} (found : snap[key]? = some leaf)
    (isC : reg.atomicPrefix key = some container) :
    ∃ group, (container, group) ∈ (partition snap reg).2.toList :=
  OrdMap.exists_mem_toList ((mem_groups_iff snap reg container).mpr ⟨key, leaf, found, isC⟩)

theorem script_buildFull (within : Within reg.atomicPrefix) {snap : Snapshot}
    (canonical : CanonicalKeys snap) (clock : Nat -> Int) :
    script (buildFullNotifications snap reg clock) =
      scriptOf (fullNote (partition snap reg).1 0) ++
        (partition snap reg).2.toList.flatMap (fun group => scriptOf (atomicNote group.1 group.2 0)) := by
  apply flatMap_buildFull
  · intro reading
    rw [scriptOf_fullNote]
    rfl
  · intro reading
    rw [scriptOf_fullNote, scriptOf_fullNote]
  · intro group member reading
    have below : ∀ entry ∈ group.2.toList, Canonical entry.1 ∧ Below group.1 entry.1 :=
      fun entry inGroup => group_below within canonical member inGroup
    rw [scriptOf_atomicNote below, scriptOf_atomicNote below]

theorem rest_within {snap : Snapshot} (key : Str) (leaf : Leaf)
    (found : (partition snap reg).1[key]? = some leaf) : snap[key]? = some leaf := by
  rw [partition_rest_find] at found
  split at found
  · exact found
  · cases found

/-- A full emission brings every path it touches to the snapshot's value. -/
theorem sound_buildFull (law : AtomicLaw reg.atomicPrefix) {snap : Snapshot}
    (canonical : CanonicalKeys snap) (clock : Nat -> Int) :
    Sound (script (buildFullNotifications snap reg clock)) (viewOf snap) := by
  rw [script_buildFull law.within canonical]
  apply Sound.append
  · rw [scriptOf_fullNote]
    exact sound_puts (entries_right canonical rest_within)
  · apply sound_flatMap
    intro group member
    rcases group_sample member with ⟨sample, leaf, found, answered⟩
    exact sound_atomicNote law canonical (find_of_mem_groups member) (canonical sample leaf found)
      answered 0

/-- What a full emission touches. -/
theorem touches_buildFull (law : AtomicLaw reg.atomicPrefix) {snap : Snapshot}
    (canonical : CanonicalKeys snap) (clock : Nat -> Int) {key : Str} (isCanonical : Canonical key) :
    touches (script (buildFullNotifications snap reg clock)) (pathOf key) = true ↔
      Carried reg.atomicPrefix snap key := by
  rw [script_buildFull law.within canonical, touches_append, Bool.or_eq_true, scriptOf_fullNote,
    touches_puts, touches_flatMap]
  constructor
  · rintro (⟨value, member⟩ | ⟨group, member, touched⟩)
    · rcases List.mem_map.mp member with ⟨entry, listed, same⟩
      have found := rest_within entry.1 entry.2 (OrdMap.find_of_mem_toList listed)
      have equal := Canonical.pathOf_injective (canonical entry.1 entry.2 found) isCanonical
        (Prod.mk.inj same).1
      exact Or.inl ⟨entry.2, equal ▸ found⟩
    · rcases group_sample member with ⟨sample, leaf, found, answered⟩
      have isC := (touches_atomicNote law
        (fun entry inGroup => group_below law.within canonical member inGroup)
        (canonical sample leaf found) answered 0 isCanonical).mp touched
      exact Or.inr ⟨group.1, isC, sample, leaf, answered, found⟩
  · have grouped : ∀ {container other : Str} {leaf : Leaf},
        reg.atomicPrefix key = some container -> reg.atomicPrefix other = some container ->
          snap[other]? = some leaf -> ∃ group ∈ (partition snap reg).2.toList,
            touches (scriptOf (atomicNote group.1 group.2 0)) (pathOf key) = true := by
      intro container other leaf isC answered found
      rcases exists_group found answered with ⟨group, member⟩
      refine ⟨(container, group), member, ?_⟩
      exact (touches_atomicNote law
        (fun entry inGroup => group_below law.within canonical member inGroup)
        (canonical other leaf found) answered 0 isCanonical).mpr isC
    rintro (⟨leaf, found⟩ | ⟨container, isC, other, leaf, answered, found⟩)
    · cases answer : reg.atomicPrefix key with
      | none =>
          refine Or.inl ⟨leaf.val, List.mem_map.mpr ⟨(key, leaf), OrdMap.mem_toList_of_find ?_, rfl⟩⟩
          rw [partition_rest_find, if_pos answer, found]
      | some container => exact Or.inr (grouped answer answer found)
    · exact Or.inr (grouped isC answered found)

/-! ## Change emissions -/

theorem valueAt_rest (snap : Snapshot) (reg : DataProviderRegistry σ) (key : Str) :
    LeafStore.valueAt (partition snap reg).1 key =
      if reg.atomicPrefix key = none then LeafStore.valueAt snap key else none := by
  rw [LeafStore.valueAt, partition_rest_find, LeafStore.valueAt]
  split <;> rfl

theorem valueAt_group (snap : Snapshot) (reg : DataProviderRegistry σ) (container key : Str) :
    LeafStore.valueAt ((partition snap reg).2[container]?.getD ∅) key =
      if reg.atomicPrefix key = some container then LeafStore.valueAt snap key else none := by
  rw [LeafStore.valueAt, partition_group_find, LeafStore.valueAt]
  split <;> rfl

/-- The container loop skips exactly the containers in which nothing differs. -/
theorem containerChange_cases (prev cur : Snapshot) (reg : DataProviderRegistry σ) (container : Str) :
    let group := (partition cur reg).2[container]?.getD ∅
    let change := containerChange (partition prev reg).2 (partition cur reg).2 container
    (change = none ∧ ∀ other, reg.atomicPrefix other = some container -> ¬ Differs prev cur other) ∨
      (∃ other, reg.atomicPrefix other = some container ∧ Differs prev cur other) ∧
        (change = some (goneNote container) ∧ group = ∅ ∨
          change = some (atomicNote container group)) := by
  intro group change
  have values : ∀ other,
      LeafStore.valueAt ((partition prev reg).2[container]?.getD ∅) other =
          LeafStore.valueAt group other ↔
        (reg.atomicPrefix other = some container -> ¬ Differs prev cur other) := by
    intro other
    rw [valueAt_group, valueAt_group, Differs, not_not]
    by_cases isC : reg.atomicPrefix other = some container <;> simp [isC]
  have same := LeafStore.diff_empty_iff ((partition prev reg).2[container]?.getD ∅) group
  have unfolded : change = containerChange (partition prev reg).2 (partition cur reg).2 container := rfl
  unfold containerChange at unfolded
  dsimp only at unfolded
  by_cases unchanged : ∀ other, LeafStore.valueAt ((partition prev reg).2[container]?.getD ∅) other =
      LeafStore.valueAt group other
  · have empty := same.mpr unchanged
    rw [if_pos (by rw [Bool.and_eq_true, List.isEmpty_iff, List.isEmpty_iff]; exact empty)] at unfolded
    exact Or.inl ⟨unfolded, fun other => (values other).mp (unchanged other)⟩
  · have nonempty : ¬ ((LeafStore.diff ((partition prev reg).2[container]?.getD ∅) group).updated.isEmpty &&
        (LeafStore.diff ((partition prev reg).2[container]?.getD ∅) group).removed.isEmpty) = true := by
      rw [Bool.and_eq_true, List.isEmpty_iff, List.isEmpty_iff]
      exact fun empty => unchanged (same.mp empty)
    rw [if_neg nonempty] at unfolded
    rcases not_forall.mp unchanged with ⟨other, different⟩
    rw [values other, Classical.not_imp, not_not] at different
    refine Or.inr ⟨⟨other, different⟩, ?_⟩
    cases gone : group.isEmpty with
    | true =>
        rw [if_pos gone] at unfolded
        exact Or.inl ⟨unfolded, Std.ExtTreeMap.isEmpty_iff.mp gone⟩
    | false =>
        rw [if_neg (by rw [gone]; exact Bool.false_ne_true)] at unfolded
        exact Or.inr unfolded

/-- The builds of the container loop, one by one. -/
theorem mem_containerChanges {prev cur : Snapshot} (canonicalPrev : CanonicalKeys prev)
    (canonicalCur : CanonicalKeys cur) (build : Int -> Notification) :
    build ∈ (changedPrefixes (partition prev reg).2 (partition cur reg).2).toList.filterMap
        (containerChange (partition prev reg).2 (partition cur reg).2) ↔
      ∃ container sample, Canonical sample ∧ reg.atomicPrefix sample = some container ∧
        Differs prev cur sample ∧
        containerChange (partition prev reg).2 (partition cur reg).2 container = some build := by
  rw [List.mem_filterMap]
  constructor
  · rintro ⟨container, _, isBuild⟩
    rcases containerChange_cases prev cur reg container with ⟨skipped, _⟩ | ⟨⟨other, isC, differs⟩, _⟩
    · exact absurd (skipped.symm.trans isBuild) (Option.some_ne_none build).symm
    · exact ⟨container, other, differs.canonical canonicalPrev canonicalCur, isC, differs, isBuild⟩
  · rintro ⟨container, sample, _, isC, differs, isBuild⟩
    exact ⟨container, differs.listed isC, isBuild⟩

section Change

variable {prev cur : Snapshot} (canonicalPrev : CanonicalKeys prev) (canonicalCur : CanonicalKeys cur)
  (law : AtomicLaw reg.atomicPrefix)

/-- The diff of the leaves outside containers. -/
def looseDiff (prev cur : Snapshot) (reg : DataProviderRegistry σ) : Diff :=
  LeafStore.diff (partition prev reg).1 (partition cur reg).1

/-- The notifications a change emission builds, before they are stamped. -/
def changeBuilds (prev cur : Snapshot) (reg : DataProviderRegistry σ) : List (Int -> Notification) :=
  (if !(looseDiff prev cur reg).updated.isEmpty || !(looseDiff prev cur reg).removed.isEmpty then
      [diffNote (looseDiff prev cur reg)] else []) ++
    (changedPrefixes (partition prev reg).2 (partition cur reg).2).toList.filterMap
      (containerChange (partition prev reg).2 (partition cur reg).2)

theorem buildChange_eq (prev cur : Snapshot) (reg : DataProviderRegistry σ) (clock : Nat -> Int) :
    buildChangeNotifications prev cur reg clock = pushAll clock (changeBuilds prev cur reg) := rfl

include canonicalCur in
theorem current_below (within : Within reg.atomicPrefix) {container : Str} :
    ∀ entry ∈ ((partition cur reg).2[container]?.getD ∅).toList,
      Canonical entry.1 ∧ Below container entry.1 := by
  intro entry member
  have found := OrdMap.find_of_mem_toList member
  rw [partition_group_find] at found
  split at found
  · next isC =>
      have canonical := canonicalCur entry.1 entry.2 found
      exact ⟨canonical, within entry.1 container canonical isC⟩
  · cases found

include canonicalPrev canonicalCur in
/-- What a build of a change emission can be. -/
theorem changeBuilds_cases {build : Int -> Notification} (listed : build ∈ changeBuilds prev cur reg) :
    build = diffNote (looseDiff prev cur reg) ∨
      ∃ container sample, Canonical sample ∧ reg.atomicPrefix sample = some container ∧
        Differs prev cur sample ∧
        (build = goneNote container ∧ (partition cur reg).2[container]?.getD ∅ = ∅ ∨
          build = atomicNote container ((partition cur reg).2[container]?.getD ∅)) := by
  rcases List.mem_append.mp listed with loose | contained
  · split at loose
    · exact Or.inl (List.mem_singleton.mp loose)
    · cases loose
  · rcases (mem_containerChanges canonicalPrev canonicalCur build).mp contained with
      ⟨container, sample, canonical, isC, differs, isBuild⟩
    refine Or.inr ⟨container, sample, canonical, isC, differs, ?_⟩
    rcases containerChange_cases prev cur reg container with
      ⟨skipped, _⟩ | ⟨_, ⟨gone, empty⟩ | sent⟩
    · exact absurd (skipped.symm.trans isBuild) (Option.some_ne_none build).symm
    · exact Or.inl ⟨Option.some.inj (isBuild.symm.trans gone), empty⟩
    · exact Or.inr (Option.some.inj (isBuild.symm.trans sent))

include canonicalPrev canonicalCur in
/-- Every container in which a leaf differs has its build. -/
theorem exists_containerBuild {container sample : Str} (isC : reg.atomicPrefix sample = some container)
    (differs : Differs prev cur sample) :
    ∃ build ∈ changeBuilds prev cur reg,
      build = goneNote container ∧ (partition cur reg).2[container]?.getD ∅ = ∅ ∨
        build = atomicNote container ((partition cur reg).2[container]?.getD ∅) := by
  have canonical := differs.canonical canonicalPrev canonicalCur
  have listed : ∀ build, containerChange (partition prev reg).2 (partition cur reg).2 container =
      some build -> build ∈ changeBuilds prev cur reg := by
    intro build isBuild
    exact List.mem_append_right _ ((mem_containerChanges canonicalPrev canonicalCur build).mpr
      ⟨container, sample, canonical, isC, differs, isBuild⟩)
  rcases containerChange_cases prev cur reg container with ⟨_, unchanged⟩ | ⟨_, ⟨gone, empty⟩ | sent⟩
  · exact absurd differs (unchanged sample isC)
  · exact ⟨_, listed _ gone, Or.inl ⟨rfl, empty⟩⟩
  · exact ⟨_, listed _ sent, Or.inr rfl⟩

include canonicalPrev canonicalCur in
/-- A container without leaves is deleted. -/
theorem exists_goneBuild {container sample : Str} (isC : reg.atomicPrefix sample = some container)
    (differs : Differs prev cur sample) (gone : (partition cur reg).2[container]?.getD ∅ = ∅) :
    goneNote container ∈ changeBuilds prev cur reg := by
  have isGone : containerChange (partition prev reg).2 (partition cur reg).2 container = none ∨
      containerChange (partition prev reg).2 (partition cur reg).2 container = some (goneNote container) := by
    unfold containerChange
    dsimp only
    rw [gone]
    split
    · exact Or.inl rfl
    · exact Or.inr rfl
  refine List.mem_append_right _ ((mem_containerChanges canonicalPrev canonicalCur _).mpr
    ⟨container, sample, differs.canonical canonicalPrev canonicalCur, isC, differs, ?_⟩)
  rcases containerChange_cases prev cur reg container with ⟨_, unchanged⟩ | ⟨_, sent⟩
  · exact absurd differs (unchanged sample isC)
  · refine isGone.resolve_left (fun skipped => ?_)
    rcases sent with ⟨sent, _⟩ | sent
    · exact absurd (skipped.symm.trans sent) (Option.some_ne_none _).symm
    · exact absurd (skipped.symm.trans sent) (Option.some_ne_none _).symm

include canonicalPrev canonicalCur law in
theorem script_buildChange (clock : Nat -> Int) :
    script (buildChangeNotifications prev cur reg clock) =
      (changeBuilds prev cur reg).flatMap (fun build => scriptOf (build 0)) := by
  rw [buildChange_eq]
  apply flatMap_pushAll
  intro build listed reading
  rcases changeBuilds_cases canonicalPrev canonicalCur listed with
    rfl | ⟨container, sample, _, _, _, ⟨rfl, _⟩ | rfl⟩
  · rw [scriptOf_diffNote, scriptOf_diffNote]
  · rw [scriptOf_goneNote, scriptOf_goneNote]
  · rw [scriptOf_atomicNote (current_below canonicalCur law.within),
      scriptOf_atomicNote (current_below canonicalCur law.within)]

include canonicalPrev canonicalCur in
/-- The diff of the loose leaves is sound. -/
theorem sound_diffNote (reading : Int) :
    Sound (scriptOf (diffNote (looseDiff prev cur reg) reading)) (viewOf cur) := by
  rw [scriptOf_diffNote]
  apply Sound.append
  · apply sound_removals
    intro path member
    rcases List.mem_map.mp member with ⟨key, vanished, rfl⟩
    rcases (LeafStore.mem_vanishedPaths _ _ key).mp vanished with ⟨⟨leaf, before⟩, gone⟩
    have loose : reg.atomicPrefix key = none := by
      rw [partition_rest_find] at before
      split at before
      · assumption
      · cases before
    rw [partition_rest_find, if_pos loose] at gone
    rw [viewOf_pathOf cur (canonicalPrev key leaf (rest_within key leaf before)), LeafStore.valueAt, gone]
    rfl
  · apply sound_puts
    intro report member
    rcases List.mem_map.mp member with ⟨entry, changed, rfl⟩
    have found := rest_within entry.1 entry.2
      ((LeafStore.mem_changedLeaves _ _ entry.1 entry.2).mp changed).1
    exact viewOf_of_find (canonicalCur entry.1 entry.2 found) found

include canonicalCur law in
/-- Deleting a container that the snapshot no longer has is sound. -/
theorem sound_goneNote {container sample : Str} (sampleCanonical : Canonical sample)
    (answered : reg.atomicPrefix sample = some container)
    (gone : (partition cur reg).2[container]?.getD ∅ = ∅) (reading : Int) :
    Sound (scriptOf (goneNote container reading)) (viewOf cur) := by
  have nothing : ∀ path, (pathOf container).isPrefixOf path = true -> viewOf cur path = none := by
    intro path inside
    cases seen : viewOf cur path with
    | none => rfl
    | some value =>
        rcases exists_of_viewOf seen with ⟨key, leaf, found, rfl, _⟩
        have isC := (law.region sampleCanonical answered (canonicalCur key leaf found)).mp inside
        have inGroup := partition_group_find cur reg container key
        rw [gone, if_pos isC, found, Std.ExtTreeMap.getElem?_empty] at inGroup
        cases inGroup
  rw [scriptOf_goneNote, ← List.singleton_append]
  apply Sound.append
  · exact sound_clear nothing
  · apply sound_clear
    intro path here
    rw [of_decide_eq_true here]
    exact nothing _ (List.isPrefixOf_iff_prefix.mpr (List.prefix_refl _))

include canonicalPrev canonicalCur law in
/-- A change emission brings every path it touches to the current value. -/
theorem sound_buildChange (clock : Nat -> Int) :
    Sound (script (buildChangeNotifications prev cur reg clock)) (viewOf cur) := by
  rw [script_buildChange canonicalPrev canonicalCur law]
  apply sound_flatMap
  intro build listed
  rcases changeBuilds_cases canonicalPrev canonicalCur listed with
    rfl | ⟨container, sample, canonical, isC, _, ⟨rfl, gone⟩ | rfl⟩
  · exact sound_diffNote canonicalPrev canonicalCur 0
  · exact sound_goneNote canonicalCur law canonical isC gone 0
  · exact sound_atomicNote law canonicalCur (partition_group_find cur reg container) canonical isC 0

include canonicalPrev canonicalCur in
theorem touches_diffNote {key : Str} (canonical : Canonical key) :
    touches (scriptOf (diffNote (looseDiff prev cur reg) 0)) (pathOf key) = true ↔
      reg.atomicPrefix key = none ∧ Differs prev cur key := by
  have values : ∀ other, LeafStore.valueAt (partition prev reg).1 other ≠
      LeafStore.valueAt (partition cur reg).1 other ↔
        reg.atomicPrefix other = none ∧ Differs prev cur other := by
    intro other
    rw [valueAt_rest, valueAt_rest, Differs]
    by_cases loose : reg.atomicPrefix other = none <;> simp [loose]
  rw [scriptOf_diffNote, touches_append, Bool.or_eq_true, touches_removals, touches_puts, ← values]
  constructor
  · rintro (gone | ⟨value, changed⟩)
    · rcases List.mem_map.mp gone with ⟨other, vanished, same⟩
      rcases (LeafStore.mem_vanishedPaths _ _ other).mp vanished with ⟨⟨leaf, before⟩, after⟩
      have equal := Canonical.pathOf_injective
        (canonicalPrev other leaf (rest_within other leaf before)) canonical same
      rw [← equal, LeafStore.valueAt, LeafStore.valueAt, before, after]
      exact Option.some_ne_none leaf.val
    · rcases List.mem_map.mp changed with ⟨entry, listed, same⟩
      rcases (LeafStore.mem_changedLeaves _ _ entry.1 entry.2).mp listed with ⟨after, different⟩
      have equal := Canonical.pathOf_injective
        (canonicalCur entry.1 entry.2 (rest_within entry.1 entry.2 after)) canonical
        (Prod.mk.inj same).1
      rw [← equal, LeafStore.valueAt, LeafStore.valueAt, after]
      exact different
  · intro different
    rw [LeafStore.valueAt, LeafStore.valueAt] at different
    cases after : (partition cur reg).1[key]? with
    | some leaf =>
        rw [after] at different
        have listed := (LeafStore.mem_changedLeaves _ _ key leaf).mpr ⟨after, different⟩
        exact Or.inr ⟨leaf.val, List.mem_map.mpr ⟨(key, leaf), listed, rfl⟩⟩
    | none =>
        rw [after] at different
        rcases Option.ne_none_iff_exists'.mp different with ⟨value, before⟩
        rcases Option.map_eq_some_iff.mp before with ⟨leaf, found, _⟩
        have listed := (LeafStore.mem_vanishedPaths _ _ key).mpr ⟨⟨leaf, found⟩, after⟩
        exact Or.inl (List.mem_map.mpr ⟨key, listed, rfl⟩)

include canonicalCur law in
/-- A container that is re-sent or deleted touches exactly its own keys. -/
theorem touches_containerNote {container sample : Str} (sampleCanonical : Canonical sample)
    (answered : reg.atomicPrefix sample = some container) {build : Int -> Notification}
    (sent : build = goneNote container ∨
      build = atomicNote container ((partition cur reg).2[container]?.getD ∅))
    {key : Str} (canonical : Canonical key) :
    touches (scriptOf (build 0)) (pathOf key) = true ↔ reg.atomicPrefix key = some container := by
  rcases sent with rfl | rfl
  · rw [scriptOf_goneNote, ← List.singleton_append, touches_append, Bool.or_eq_true, touches_clear,
      touches_clear, law.region sampleCanonical answered canonical, decide_eq_true_eq]
    refine ⟨fun either => either.elim id (fun same => ?_), Or.inl⟩
    refine (law.region sampleCanonical answered canonical).mp ?_
    rw [same]
    exact List.isPrefixOf_iff_prefix.mpr (List.prefix_refl _)
  · exact touches_atomicNote law (current_below canonicalCur law.within) sampleCanonical answered 0 canonical

include canonicalPrev canonicalCur law in
/-- What a change emission touches. -/
theorem touches_buildChange (clock : Nat -> Int) {key : Str} (canonical : Canonical key) :
    touches (script (buildChangeNotifications prev cur reg clock)) (pathOf key) = true ↔
      Resent reg.atomicPrefix prev cur key := by
  rw [script_buildChange canonicalPrev canonicalCur law, touches_flatMap]
  constructor
  · rintro ⟨build, listed, touched⟩
    rcases changeBuilds_cases canonicalPrev canonicalCur listed with
      rfl | ⟨container, sample, sampleCanonical, isC, differs, sent⟩
    · exact Or.inl ((touches_diffNote canonicalPrev canonicalCur canonical).mp touched)
    · have note := sent.imp_left And.left
      have same := (touches_containerNote canonicalCur law sampleCanonical isC note canonical).mp touched
      exact Or.inr ⟨container, same, sample, isC, differs⟩
  · rintro (loose | ⟨container, same, sample, isC, differs⟩)
    · have touched := (touches_diffNote canonicalPrev canonicalCur canonical).mpr loose
      refine ⟨diffNote (looseDiff prev cur reg), List.mem_append_left _ ?_, touched⟩
      have nonempty : (!(looseDiff prev cur reg).updated.isEmpty ||
          !(looseDiff prev cur reg).removed.isEmpty) = true := by
        by_contra empty
        simp only [Bool.or_eq_true, Bool.not_eq_true', not_or, Bool.not_eq_false,
          List.isEmpty_iff] at empty
        rw [scriptOf_diffNote, empty.1, empty.2] at touched
        exact absurd touched Bool.false_ne_true
      rw [if_pos nonempty]
      exact List.mem_singleton.mpr rfl
    · have sampleCanonical := differs.canonical canonicalPrev canonicalCur
      rcases exists_containerBuild canonicalPrev canonicalCur isC differs with ⟨build, listed, kind⟩
      exact ⟨build, listed, (touches_containerNote canonicalCur law sampleCanonical isC
        (kind.imp_left And.left) canonical).mpr same⟩

end Change

/-! ## What the emissions do to a view -/

/-- A view that a sound script leaves alone only where it is already right ends right. -/
theorem viewOf_of_untouched {prev cur : Snapshot} (canonicalPrev : CanonicalKeys prev)
    (canonicalCur : CanonicalKeys cur) {path : List Node}
    (keys : ∀ key, Canonical key -> pathOf key = path ->
      LeafStore.valueAt prev key = LeafStore.valueAt cur key) :
    viewOf prev path = viewOf cur path := by
  apply Option.ext
  intro value
  constructor
  · intro seen
    rcases exists_of_viewOf seen with ⟨key, leaf, found, rfl, _⟩
    have canonical := canonicalPrev key leaf found
    rw [viewOf_pathOf prev canonical] at seen
    rw [viewOf_pathOf cur canonical, ← keys key canonical rfl]
    exact seen
  · intro seen
    rcases exists_of_viewOf seen with ⟨key, leaf, found, rfl, _⟩
    have canonical := canonicalCur key leaf found
    rw [viewOf_pathOf cur canonical] at seen
    rw [viewOf_pathOf prev canonical, keys key canonical rfl]
    exact seen

/-- The change emission turns the view of the old snapshot into the view of the new. -/
theorem applyNotifications_change {prev cur : Snapshot} (canonicalPrev : CanonicalKeys prev)
    (canonicalCur : CanonicalKeys cur) (law : AtomicLaw reg.atomicPrefix) (clock : Nat -> Int) :
    applyNotifications (viewOf prev) (buildChangeNotifications prev cur reg clock) = viewOf cur := by
  refine ((sound_buildChange canonicalPrev canonicalCur law clock).runEdits_eq_iff _).mpr ?_
  intro path untouched
  apply viewOf_of_untouched canonicalPrev canonicalCur
  rintro key canonical rfl
  have unsent : ¬ Resent reg.atomicPrefix prev cur key := by
    rw [← touches_buildChange canonicalPrev canonicalCur law clock canonical, untouched]
    exact Bool.false_ne_true
  by_contra differs
  exact unsent (Differs.resent differs)

/-- Every vanished leaf lies in a container that still has a leaf. -/
def HeartbeatSafe (atomicPrefix : Str -> Option Str) (prev cur : Snapshot) : Prop :=
  ∀ (key : Str) (leaf : Leaf), prev[key]? = some leaf -> cur[key]? = none ->
    ∃ container, atomicPrefix key = some container ∧
      ∃ other otherLeaf, atomicPrefix other = some container ∧ cur[other]? = some otherLeaf

/-- The full emission does the same exactly when no leaf vanished for good. -/
theorem applyNotifications_full_iff {prev cur : Snapshot} (canonicalPrev : CanonicalKeys prev)
    (canonicalCur : CanonicalKeys cur) (law : AtomicLaw reg.atomicPrefix) (clock : Nat -> Int) :
    applyNotifications (viewOf prev) (buildFullNotifications cur reg clock) = viewOf cur ↔
      HeartbeatSafe reg.atomicPrefix prev cur := by
  refine ((sound_buildFull law canonicalCur clock).runEdits_eq_iff _).trans ?_
  constructor
  · intro agree key leaf before after
    have canonical := canonicalPrev key leaf before
    cases touched : touches (script (buildFullNotifications cur reg clock)) (pathOf key) with
    | false =>
        have same := agree (pathOf key) touched
        rw [viewOf_of_find canonical before, viewOf_pathOf cur canonical, LeafStore.valueAt, after] at same
        cases same
    | true =>
        rcases (touches_buildFull law canonicalCur clock canonical).mp touched with ⟨found, stored⟩ | carried
        · rw [after] at stored
          cases stored
        · exact carried
  · intro safe path untouched
    apply viewOf_of_untouched canonicalPrev canonicalCur
    rintro key canonical rfl
    have dropped : ¬ Carried reg.atomicPrefix cur key := by
      rw [← touches_buildFull law canonicalCur clock canonical, untouched]
      exact Bool.false_ne_true
    have after : cur[key]? = none := by
      rw [Option.eq_none_iff_forall_ne_some]
      exact fun leaf found => dropped (Or.inl ⟨leaf, found⟩)
    rw [LeafStore.valueAt, LeafStore.valueAt, after]
    cases before : prev[key]? with
    | none => rfl
    | some leaf => exact absurd (Or.inr (safe key leaf before after)) dropped

end Telemetry
end PscMockServer
