import PscMockServer.Telemetry.ExactEmissions

namespace PscMockServer
namespace Telemetry

open Foundations Gnmi Utils Backend

/-!
# What a change notification reports, and when it happened

A leaf that is carried has the time of its last write.  A leaf that is gone has no time
left: the stamp knows of its removal only through the leaves carried in the same
notification, or through the clock if there are none.
-/

variable {σ : Type} {reg : DataProviderRegistry σ}

/-! ## Subjects -/

/-- The paths a notification names. -/
def namedPaths (n : Notification) : List (List Node) :=
  (updatesOf n).map Prod.fst ++ deletesOf n

/-- Both notifications are about one leaf or one container. -/
def SameSubject (first second : Notification) : Prop :=
  (∃ path ∈ namedPaths first, path ∈ namedPaths second) ∨
    first.atomic = true ∧ second.atomic = true ∧ first.pathPrefix = second.pathPrefix

/-- The notification is about the leaf, or about the whole container of the leaf. -/
def Concerns (reg : DataProviderRegistry σ) (n : Notification) (key : Str) : Prop :=
  match reg.atomicPrefix key with
  | none => n.atomic = false ∧ pathOf key ∈ namedPaths n
  | some container => n.atomic = true ∧ n.pathPrefix = xpathToGnmiPath container {}

theorem concerns_loose {n : Notification} {key : Str} (isLoose : reg.atomicPrefix key = none) :
    Concerns reg n key ↔ n.atomic = false ∧ pathOf key ∈ namedPaths n := by
  rw [Concerns, isLoose]

theorem concerns_contained {n : Notification} {key container : Str}
    (isC : reg.atomicPrefix key = some container) :
    Concerns reg n key ↔ n.atomic = true ∧ n.pathPrefix = xpathToGnmiPath container {} := by
  rw [Concerns, isC]

/-- The container is answered for some path. -/
def Answered (reg : DataProviderRegistry σ) (container : Str) : Prop :=
  ∃ sample, Canonical sample ∧ reg.atomicPrefix sample = some container

/-- The container is answered for exactly the keys that its path is a front of. -/
theorem Answered.region (law : AtomicLaw reg.atomicPrefix) {container : Str}
    (answered : Answered reg container) {key : Str} (canonical : Canonical key) :
    pathOf container <+: pathOf key ↔ reg.atomicPrefix key = some container := by
  rcases answered with ⟨sample, sampleCanonical, answer⟩
  rw [← List.isPrefixOf_iff_prefix]
  exact law.region sampleCanonical answer canonical

/-- A path lies in one container only. -/
theorem Answered.eq_of_common (law : AtomicLaw reg.atomicPrefix) {first second : Str}
    (firstAnswered : Answered reg first) (secondAnswered : Answered reg second) {path : List Node}
    (inFirst : pathOf first <+: path) (inSecond : pathOf second <+: path) : first = second := by
  have nested : ∀ {outer inner : Str}, Answered reg outer -> Answered reg inner ->
      pathOf outer <+: pathOf inner -> outer = inner := by
    intro outer inner outerAnswered innerAnswered isFront
    rcases innerAnswered with ⟨sample, canonical, answer⟩
    have within : pathOf inner <+: pathOf sample :=
      (Answered.region law ⟨sample, canonical, answer⟩ canonical).mpr answer
    have same := (outerAnswered.region law canonical).mp (isFront.trans within)
    exact Option.some.inj (same.symm.trans answer)
  rcases List.prefix_or_prefix_of_prefix inFirst inSecond with outer | inner
  · exact nested firstAnswered secondAnswered outer
  · exact (nested secondAnswered firstAnswered inner).symm

/-- A notification of a change emission names leaves outside containers, or it is atomic
and names paths inside its container. -/
inductive Located (reg : DataProviderRegistry σ) (n : Notification) : Prop
  | loose (notAtomic : n.atomic = false)
      (named : ∀ path ∈ namedPaths n, ∃ key, Canonical key ∧ reg.atomicPrefix key = none ∧ path = pathOf key)
  | contained (container : Str) (answered : Answered reg container) (atomic : n.atomic = true)
      (isPrefix : n.pathPrefix = xpathToGnmiPath container {})
      (named : ∀ path ∈ namedPaths n, pathOf container <+: path)

/-! ## The notifications of one poll -/

section Poll

variable {prev cur : Snapshot} (canonicalPrev : CanonicalKeys prev) (canonicalCur : CanonicalKeys cur)

theorem differs_iff {key : Str} :
    Differs prev cur key ↔
      (∃ leaf, cur[key]? = some leaf ∧ LeafStore.valueAt prev key ≠ some leaf.val) ∨
        ∃ leaf, prev[key]? = some leaf ∧ cur[key]? = none := by
  rw [Differs, LeafStore.valueAt, LeafStore.valueAt]
  cases after : cur[key]? with
  | some leaf => simp
  | none => cases before : prev[key]? <;> simp

/-- The paths of the diff are those of the changed leaves outside containers. -/
theorem mem_namedPaths_diffNote (reading : Int) (path : List Node) :
    path ∈ namedPaths (diffNote (looseDiff prev cur reg) reading) ↔
      ∃ key, reg.atomicPrefix key = none ∧ Differs prev cur key ∧ path = pathOf key := by
  rw [namedPaths, updatesOf_diffNote, deletesOf_diffNote, List.mem_append, List.map_map, List.mem_map,
    List.mem_map]
  constructor
  · rintro (⟨entry, updated, rfl⟩ | ⟨key, removed, rfl⟩)
    · have changed := mem_looseDiff_updated.mp updated
      exact ⟨entry.1, changed.1, differs_iff.mpr (Or.inl ⟨entry.2, changed.2⟩), rfl⟩
    · rcases mem_looseDiff_removed.mp removed with ⟨leaf, isLoose, gone⟩
      exact ⟨key, isLoose, differs_iff.mpr (Or.inr ⟨leaf, gone⟩), rfl⟩
  · rintro ⟨key, isLoose, differs, rfl⟩
    rcases differs_iff.mp differs with ⟨leaf, changed⟩ | ⟨leaf, gone⟩
    · exact Or.inl ⟨(key, leaf), mem_looseDiff_updated.mpr ⟨isLoose, changed⟩, rfl⟩
    · exact Or.inr ⟨key, mem_looseDiff_removed.mpr ⟨leaf, isLoose, gone⟩, rfl⟩

include canonicalPrev canonicalCur in
theorem pathOf_mem_namedPaths_diffNote (reading : Int) {key : Str} (canonical : Canonical key) :
    pathOf key ∈ namedPaths (diffNote (looseDiff prev cur reg) reading) ↔
      reg.atomicPrefix key = none ∧ Differs prev cur key := by
  rw [mem_namedPaths_diffNote]
  constructor
  · rintro ⟨other, isLoose, differs, same⟩
    have otherCanonical := differs.canonical canonicalPrev canonicalCur
    rw [Canonical.pathOf_injective canonical otherCanonical same]
    exact ⟨isLoose, differs⟩
  · rintro ⟨isLoose, differs⟩
    exact ⟨key, isLoose, differs, rfl⟩

/-- The leaves of the container that the snapshot has. -/
def groupOf (reg : DataProviderRegistry σ) (cur : Snapshot) (container : Str) : Snapshot :=
  (partition cur reg).2[container]?.getD ∅

/-- The three kinds of change notifications, with the clock reading each could use. -/
inductive ChangeNote (reg : DataProviderRegistry σ) (prev cur : Snapshot) (reading : Int) :
    Notification -> Prop
  | diff : ChangeNote reg prev cur reading (diffNote (looseDiff prev cur reg) reading)
  | gone (container : Str) (differs : GroupDiffers reg prev cur container)
      (empty : groupOf reg cur container = ∅) : ChangeNote reg prev cur reading (goneNote container reading)
  | whole (container : Str) (differs : GroupDiffers reg prev cur container) :
      ChangeNote reg prev cur reading (atomicNote container (groupOf reg cur container) reading)

include canonicalPrev canonicalCur in
/-- Notification number `i` is stamped with reading number `i`, if with any. -/
theorem changeNote_of_getElem {clock : Nat -> Int} {i : Nat} {n : Notification}
    (sent : (buildChangeNotifications prev cur reg clock)[i]? = some n) :
    ChangeNote reg prev cur (clock i) n := by
  rw [buildChange_eq] at sent
  rcases pushAll_getElem sent with ⟨build, listed, rfl⟩
  rcases changeBuilds_cases canonicalPrev canonicalCur listed with
    rfl | ⟨container, sample, _, isC, differs, ⟨rfl, empty⟩ | rfl⟩
  · exact .diff
  · exact .gone container ⟨sample, isC, differs⟩ empty
  · exact .whole container ⟨sample, isC, differs⟩

include canonicalPrev canonicalCur in
theorem changeNote_of_mem {clock : Nat -> Int} {n : Notification}
    (member : n ∈ buildChangeNotifications prev cur reg clock) :
    ∃ i, ChangeNote reg prev cur (clock i) n := by
  rcases List.getElem?_of_mem member with ⟨i, sent⟩
  exact ⟨i, changeNote_of_getElem canonicalPrev canonicalCur sent⟩

include canonicalPrev canonicalCur in
theorem GroupDiffers.answered {container : Str} (differs : GroupDiffers reg prev cur container) :
    Answered reg container := by
  rcases differs with ⟨sample, isC, different⟩
  exact ⟨sample, different.canonical canonicalPrev canonicalCur, isC⟩

theorem namedPaths_goneNote (container : Str) (reading : Int) :
    namedPaths (goneNote container reading) = [pathOf container] := by
  have nodes : (xpathToGnmiPath container {}).nodes ++ ({} : Path).nodes = pathOf container :=
    List.append_nil _
  exact congrArg (fun path => [path]) nodes

include canonicalCur in
theorem namedPaths_atomicNote (within : Within reg.atomicPrefix) (container : Str) (reading : Int)
    (path : List Node) :
    path ∈ namedPaths (atomicNote container (groupOf reg cur container) reading) ↔
      ∃ (key : Str) (leaf : Leaf), reg.atomicPrefix key = some container ∧ cur[key]? = some leaf ∧
        path = pathOf key := by
  have about : AboutContainer reg cur container (atomicNote container (groupOf reg cur container)) :=
    aboutContainer_atomicNote (current_below canonicalCur within) (partition_group_find cur reg container)
  have noDeletes : deletesOf (atomicNote container (groupOf reg cur container) reading) = [] := by
    rw [deletesOf, atomicNote_eq]
    rfl
  rw [namedPaths, noDeletes, List.append_nil, List.mem_map]
  constructor
  · rintro ⟨report, member, rfl⟩
    rcases (about.whole reading report.1 report.2).mp member with ⟨key, leaf, found, isC, isPath, _⟩
    exact ⟨key, leaf, isC, found, isPath⟩
  · rintro ⟨key, leaf, isC, found, rfl⟩
    exact ⟨(pathOf key, leaf.val), (about.whole reading _ _).mpr ⟨key, leaf, found, isC, rfl, rfl⟩, rfl⟩

include canonicalPrev canonicalCur in
/-- A change notification is the diff, or it is about a container in which a leaf
differs. -/
theorem ChangeNote.subject (law : AtomicLaw reg.atomicPrefix) {reading : Int} {n : Notification}
    (note : ChangeNote reg prev cur reading n) :
    n = diffNote (looseDiff prev cur reg) reading ∨ ∃ container, GroupDiffers reg prev cur container ∧
      n.atomic = true ∧ n.pathPrefix = xpathToGnmiPath container {} ∧
        ∀ path ∈ namedPaths n, pathOf container <+: path := by
  cases note with
  | diff => exact Or.inl rfl
  | gone container differs empty =>
      refine Or.inr ⟨container, differs, rfl, rfl, ?_⟩
      intro path named
      rw [namedPaths_goneNote, List.mem_singleton] at named
      exact named ▸ List.prefix_refl path
  | whole container differs =>
      refine Or.inr ⟨container, differs, atomicNote_atomic _ _ _, ?_, ?_⟩
      · rw [atomicNote_eq]
      · intro path named
        rcases (namedPaths_atomicNote canonicalCur law.within container reading path).mp named with
          ⟨key, leaf, isC, found, rfl⟩
        have answered := differs.answered canonicalPrev canonicalCur
        exact (answered.region law (canonicalCur key leaf found)).mpr isC

include canonicalPrev canonicalCur in
theorem ChangeNote.located (law : AtomicLaw reg.atomicPrefix) {reading : Int} {n : Notification}
    (note : ChangeNote reg prev cur reading n) : Located reg n := by
  rcases note.subject canonicalPrev canonicalCur law with rfl | ⟨container, differs, atomic, isPrefix, named⟩
  · apply Located.loose rfl
    intro path named
    rcases (mem_namedPaths_diffNote reading path).mp named with ⟨key, isLoose, differs, rfl⟩
    exact ⟨key, differs.canonical canonicalPrev canonicalCur, isLoose, rfl⟩
  · exact Located.contained container (differs.answered canonicalPrev canonicalCur) atomic isPrefix named

/-- A leaf outside containers has no container's path as a front. -/
theorem Answered.not_loose (law : AtomicLaw reg.atomicPrefix) {container : Str}
    (answered : Answered reg container) {key : Str} (canonical : Canonical key)
    (isLoose : reg.atomicPrefix key = none) : ¬ pathOf container <+: pathOf key := by
  rw [answered.region law canonical, isLoose]
  exact (Option.some_ne_none container).symm

include canonicalPrev canonicalCur in
/-- Whatever shares its subject with a notification of the poll is about a leaf that the
poll found changed. -/
theorem ChangeNote.shared (law : AtomicLaw reg.atomicPrefix) {reading : Int} {earlier n : Notification}
    (note : ChangeNote reg prev cur reading n) (located : Located reg earlier)
    (same : SameSubject earlier n) :
    ∃ key, Differs prev cur key ∧ Concerns reg earlier key ∧ Concerns reg n key := by
  rcases note.subject canonicalPrev canonicalCur law with rfl | ⟨container, differs, atomic, isPrefix, named⟩
  · rcases same with ⟨path, inEarlier, inDiff⟩ | ⟨_, impossible, _⟩
    · rcases (mem_namedPaths_diffNote reading path).mp inDiff with ⟨key, isLoose, differs, rfl⟩
      have canonical := differs.canonical canonicalPrev canonicalCur
      cases located with
      | loose notAtomic _ =>
          exact ⟨key, differs, (concerns_loose isLoose).mpr ⟨notAtomic, inEarlier⟩,
            (concerns_loose isLoose).mpr ⟨rfl, inDiff⟩⟩
      | contained other answered _ _ within =>
          exact absurd (within _ inEarlier) (answered.not_loose law canonical isLoose)
    · cases impossible
  · have answered := differs.answered canonicalPrev canonicalCur
    rcases differs with ⟨sample, isC, different⟩
    refine ⟨sample, different, ?_, (concerns_contained isC).mpr ⟨atomic, isPrefix⟩⟩
    rw [concerns_contained isC]
    cases located with
    | loose notAtomic named_ =>
        rcases same with ⟨path, inEarlier, inNote⟩ | ⟨impossible, _⟩
        · rcases named_ path inEarlier with ⟨key, canonical, isLoose, rfl⟩
          exact absurd (named _ inNote) (answered.not_loose law canonical isLoose)
        · rw [notAtomic] at impossible
          cases impossible
    | contained other otherAnswered otherAtomic otherPrefix within =>
        have common : ∃ path, pathOf other <+: path ∧ pathOf container <+: path := by
          rcases same with ⟨path, inEarlier, inNote⟩ | ⟨_, _, prefixes⟩
          · exact ⟨path, within path inEarlier, named path inNote⟩
          · rw [otherPrefix, isPrefix] at prefixes
            have paths : pathOf other = pathOf container := congrArg Path.nodes prefixes
            exact ⟨pathOf other, List.prefix_refl _, paths ▸ List.prefix_refl _⟩
        rcases common with ⟨path, inOther, inContainer⟩
        rw [← otherAnswered.eq_of_common law answered inOther inContainer]
        exact ⟨otherAtomic, otherPrefix⟩

/-! ## The stamp and the reported events -/

/-- The notification that is about `key` carries this leaf: a changed one outside
containers, or any leaf of the container. -/
def CarriedWith (reg : DataProviderRegistry σ) (prev cur : Snapshot) (key other : Str) (leaf : Leaf) : Prop :=
  reg.atomicPrefix other = reg.atomicPrefix key ∧ cur[other]? = some leaf ∧
    (reg.atomicPrefix key = none -> LeafStore.valueAt prev other ≠ some leaf.val)

/-- The leaf is gone. -/
def Removed (prev cur : Snapshot) (key : Str) : Prop :=
  (∃ leaf, prev[key]? = some leaf) ∧ cur[key]? = none

/-- The notification reports the last thing that happened to the leaf: it updates the
leaf, deletes it, or re-sends its container without it. -/
inductive ReportsEvent (reg : DataProviderRegistry σ) (prev cur : Snapshot) (n : Notification)
    (key : Str) : Prop
  | updated (named : pathOf key ∈ (updatesOf n).map Prod.fst)
  | deleted (named : pathOf key ∈ deletesOf n)
  | omitted (container : Str) (isC : reg.atomicPrefix key = some container) (atomic : n.atomic = true)
      (isPrefix : n.pathPrefix = xpathToGnmiPath container {}) (removed : Removed prev cur key)

/-- An atomic notification is about the leaves of its own container only. -/
theorem Concerns.container_eq (law : AtomicLaw reg.atomicPrefix) {container : Str}
    (answered : Answered reg container) {n : Notification} (atomic : n.atomic = true)
    (isPrefix : n.pathPrefix = xpathToGnmiPath container {}) {key : Str} (canonical : Canonical key)
    (concerns : Concerns reg n key) : reg.atomicPrefix key = some container := by
  cases answer : reg.atomicPrefix key with
  | none =>
      have notAtomic := ((concerns_loose answer).mp concerns).1
      rw [atomic] at notAtomic
      cases notAtomic
  | some own =>
      have prefixes := ((concerns_contained answer).mp concerns).2
      rw [isPrefix] at prefixes
      have paths : pathOf container = pathOf own := congrArg Path.nodes prefixes
      have common : pathOf container <+: pathOf own := paths ▸ List.prefix_refl _
      rw [answered.eq_of_common law ⟨key, canonical, answer⟩ common (List.prefix_refl _)]

theorem not_carried_of_gone {container key : Str} (isC : reg.atomicPrefix key = some container)
    (empty : groupOf reg cur container = ∅) (other : Str) (leaf : Leaf) :
    ¬ CarriedWith reg prev cur key other leaf := by
  intro carried
  have inGroup := partition_group_find cur reg container other
  rw [← groupOf, empty, if_pos (carried.1.trans isC), carried.2.1, Std.ExtTreeMap.getElem?_empty] at inGroup
  cases inGroup

include canonicalPrev canonicalCur in
/-- What a notification about a leaf is stamped with. -/
theorem ChangeNote.stamped (law : AtomicLaw reg.atomicPrefix) {reading : Int} {n : Notification}
    (note : ChangeNote reg prev cur reading n) {key : Str} (canonical : Canonical key)
    (concerns : Concerns reg n key) : Stamped (CarriedWith reg prev cur key) reading n.timestamp := by
  cases note with
  | diff =>
      have isLoose : reg.atomicPrefix key = none := by
        cases answer : reg.atomicPrefix key with
        | none => rfl
        | some container => cases ((concerns_contained answer).mp concerns).1
      rw [diffNote_timestamp]
      apply stamped_stampOr
      intro other leaf
      rw [mem_looseDiff_updated, CarriedWith, isLoose]
      simp
  | gone container differs empty =>
      have isC := concerns.container_eq law (differs.answered canonicalPrev canonicalCur) rfl rfl canonical
      exact stamped_reading (not_carried_of_gone isC empty) reading
  | whole container differs =>
      have isC := concerns.container_eq law (differs.answered canonicalPrev canonicalCur)
        (atomicNote_atomic container _ reading) (by rw [atomicNote_eq]) canonical
      rw [atomicNote_timestamp]
      apply stamped_stampOr
      intro other leaf
      have listed : (other, leaf) ∈ (groupOf reg cur container).toList ↔
          (groupOf reg cur container)[other]? = some leaf :=
        ⟨OrdMap.find_of_mem_toList, OrdMap.mem_toList_of_find⟩
      rw [listed, groupOf, partition_group_find, CarriedWith, isC]
      simp

/-- A changed leaf of the notification is carried or gone. -/
theorem Differs.event {key : Str} (differs : Differs prev cur key) :
    (∃ leaf, CarriedWith reg prev cur key key leaf) ∨ Removed prev cur key := by
  rcases differs_iff.mp differs with ⟨leaf, found, changed⟩ | ⟨leaf, before, after⟩
  · exact Or.inl ⟨leaf, rfl, found, fun _ => changed⟩
  · exact Or.inr ⟨⟨leaf, before⟩, after⟩

include canonicalPrev canonicalCur in
/-- A reported leaf is carried itself, or gone, or the notification carries no leaf. -/
theorem ReportsEvent.cases (law : AtomicLaw reg.atomicPrefix) {reading : Int} {n : Notification}
    (note : ChangeNote reg prev cur reading n) {key : Str} (canonical : Canonical key)
    (event : ReportsEvent reg prev cur n key) :
    Concerns reg n key ∧ ((∃ leaf, CarriedWith reg prev cur key key leaf) ∨ Removed prev cur key ∨
      ∀ other leaf, ¬ CarriedWith reg prev cur key other leaf) := by
  have named : pathOf key ∈ namedPaths n ∨ ∃ container, reg.atomicPrefix key = some container ∧
      n.atomic = true ∧ n.pathPrefix = xpathToGnmiPath container {} ∧ Removed prev cur key := by
    cases event with
    | updated named => exact Or.inl (List.mem_append_left _ named)
    | deleted named => exact Or.inl (List.mem_append_right _ named)
    | omitted container isC atomic isPrefix removed =>
        exact Or.inr ⟨container, isC, atomic, isPrefix, removed⟩
  have concerns : Concerns reg n key := by
    rcases named with named | ⟨container, isC, atomic, isPrefix, _⟩
    · rcases note.subject canonicalPrev canonicalCur law with
        rfl | ⟨container, differs, atomic, isPrefix, within⟩
      · have changed :=
          (pathOf_mem_namedPaths_diffNote canonicalPrev canonicalCur reading canonical).mp named
        exact (concerns_loose changed.1).mpr ⟨rfl, named⟩
      · have answered := differs.answered canonicalPrev canonicalCur
        have isC := (answered.region law canonical).mp (within _ named)
        exact (concerns_contained isC).mpr ⟨atomic, isPrefix⟩
    · exact (concerns_contained isC).mpr ⟨atomic, isPrefix⟩
  refine ⟨concerns, ?_⟩
  rcases named with named | ⟨_, _, _, _, removed⟩
  · cases note with
    | diff =>
        have changed :=
          (pathOf_mem_namedPaths_diffNote canonicalPrev canonicalCur reading canonical).mp named
        exact changed.2.event.imp_right Or.inl
    | gone container differs empty =>
        have isC := concerns.container_eq law (differs.answered canonicalPrev canonicalCur) rfl rfl canonical
        exact Or.inr (Or.inr (not_carried_of_gone isC empty))
    | whole container differs =>
        rcases (namedPaths_atomicNote canonicalCur law.within container reading _).mp named with
          ⟨other, leaf, isC, found, same⟩
        have keys := Canonical.pathOf_injective canonical (canonicalCur other leaf found) same
        rw [← keys] at isC found
        exact Or.inl ⟨leaf, rfl, found, fun isLoose => absurd (isLoose.symm.trans isC) (by simp)⟩
  · exact Or.inr (Or.inl removed)

/-- What is known of the times of changes up to `latest`: each leaf that is there was
last changed when it was collected. -/
structure TimesKnown (cur : Snapshot) (changedAt : Str -> Option Int) (latest : Int) : Prop where
  stored : ∀ (key : Str) (leaf : Leaf), cur[key]? = some leaf -> changedAt key = some leaf.collectedNs
  behind : ∀ key t, changedAt key = some t -> t ≤ latest
  canonical : ∀ key t, changedAt key = some t -> Canonical key

theorem TimesKnown.mono {changedAt : Str -> Option Int} {latest later : Int}
    (times : TimesKnown cur changedAt latest) (ahead : latest ≤ later) : TimesKnown cur changedAt later where
  stored := times.stored
  behind := fun key t changed => (times.behind key t changed).trans ahead
  canonical := times.canonical

/-- The notification about `key` carries a leaf that is no older than `t`, if it carries
leaves at all. -/
def CarriesSince (reg : DataProviderRegistry σ) (prev cur : Snapshot) (key : Str) (t : Int) : Prop :=
  (∃ other leaf, CarriedWith reg prev cur key other leaf) ->
    ∃ other leaf, CarriedWith reg prev cur key other leaf ∧ t ≤ leaf.collectedNs

/-- Each removal is covered by a leaf carried beside it. -/
def RemovalsCovered (reg : DataProviderRegistry σ) (prev cur : Snapshot)
    (changedAt : Str -> Option Int) : Prop :=
  ∀ key t, Removed prev cur key -> changedAt key = some t -> CarriesSince reg prev cur key t

include canonicalPrev canonicalCur in
/-- The stamp is as new as any time the carried leaves cover. -/
theorem ChangeNote.since (law : AtomicLaw reg.atomicPrefix) {changedAt : Str -> Option Int} {latest : Int}
    (times : TimesKnown cur changedAt latest) {reading : Int} (ahead : latest ≤ reading) {n : Notification}
    (note : ChangeNote reg prev cur reading n) {key : Str} (canonical : Canonical key)
    (concerns : Concerns reg n key) {t : Int} (behind : t ≤ latest)
    (since : CarriesSince reg prev cur key t) : t ≤ n.timestamp := by
  have stamped := note.stamped canonicalPrev canonicalCur law canonical concerns
  by_cases accompanied : ∃ other leaf, CarriedWith reg prev cur key other leaf
  · rcases since accompanied with ⟨other, leaf, carried, notOlder⟩
    have read : leaf.collectedNs ≤ reading :=
      (times.behind other _ (times.stored other leaf carried.2.1)).trans ahead
    exact notOlder.trans (stamped.covers other leaf carried read)
  · rw [stamped.alone (fun other leaf carried => accompanied ⟨other, leaf, carried⟩)]
    exact behind.trans ahead

include canonicalPrev canonicalCur in
/-- With covered removals, it is as new as every event that is reported. -/
theorem ChangeNote.covers (law : AtomicLaw reg.atomicPrefix) {changedAt : Str -> Option Int} {latest : Int}
    (times : TimesKnown cur changedAt latest) (covered : RemovalsCovered reg prev cur changedAt)
    {reading : Int} (ahead : latest ≤ reading) {n : Notification} (note : ChangeNote reg prev cur reading n)
    {key : Str} {t : Int} (changed : changedAt key = some t) (event : ReportsEvent reg prev cur n key) :
    t ≤ n.timestamp := by
  have canonical := times.canonical key t changed
  rcases event.cases canonicalPrev canonicalCur law note canonical with ⟨concerns, kind⟩
  apply note.since canonicalPrev canonicalCur law times ahead canonical concerns (times.behind key t changed)
  rcases kind with ⟨leaf, carried⟩ | removed | nothing
  · have known := times.stored key leaf carried.2.1
    have same : t = leaf.collectedNs := Option.some.inj (changed.symm.trans known)
    exact fun _ => ⟨key, leaf, carried, same.le⟩
  · exact covered key t removed changed
  · rintro ⟨other, leaf, carried⟩
    exact absurd carried (nothing other leaf)

include canonicalPrev canonicalCur in
/-- Every removal is reported. -/
theorem exists_reportsRemoval (clock : Nat -> Int) {key : Str} (removed : Removed prev cur key) :
    ∃ n ∈ buildChangeNotifications prev cur reg clock, ReportsEvent reg prev cur n key := by
  rcases removed with ⟨⟨leaf, before⟩, after⟩
  have differs : Differs prev cur key := differs_iff.mpr (Or.inr ⟨leaf, before, after⟩)
  rw [buildChange_eq]
  cases answer : reg.atomicPrefix key with
  | none =>
      have listed : key ∈ (looseDiff prev cur reg).removed :=
        mem_looseDiff_removed.mpr ⟨leaf, answer, before, after⟩
      have sends : diffNote (looseDiff prev cur reg) ∈ changeBuilds prev cur reg := by
        apply List.mem_append_left
        rw [if_pos]
        · exact List.mem_singleton.mpr rfl
        · rw [List.isEmpty_eq_false_iff_exists_mem.mpr ⟨key, listed⟩]
          exact Bool.or_true _
      rcases exists_mem_pushAll clock sends with ⟨reading, member⟩
      refine ⟨_, member, .deleted ?_⟩
      rw [deletesOf_diffNote]
      exact List.mem_map_of_mem listed
  | some container =>
      rcases exists_containerBuild canonicalPrev canonicalCur answer differs with ⟨build, sends, kind⟩
      rcases exists_mem_pushAll clock sends with ⟨reading, member⟩
      have about : (build reading).atomic = true ∧
          (build reading).pathPrefix = xpathToGnmiPath container {} := by
        rcases kind with ⟨rfl, _⟩ | rfl
        · exact ⟨rfl, rfl⟩
        · exact ⟨atomicNote_atomic _ _ _, by rw [atomicNote_eq]⟩
      exact ⟨_, member, .omitted container answer about.1 about.2 ⟨⟨leaf, before⟩, after⟩⟩

include canonicalPrev canonicalCur in
/-- Two notifications of one poll never share their subject. -/
theorem subjects_apart (law : AtomicLaw reg.atomicPrefix) (clock : Nat -> Int) :
    (buildChangeNotifications prev cur reg clock).Pairwise (fun first second => ¬ SameSubject first second) := by
  have grouped := onePerContainer_buildChange canonicalPrev canonicalCur law.within clock
  rw [List.pairwise_iff_forall_sublist]
  intro first second both same
  have firstMember := both.subset List.mem_cons_self
  have secondMember := both.subset (List.mem_cons_of_mem first List.mem_cons_self)
  rcases changeNote_of_mem canonicalPrev canonicalCur firstMember with ⟨i, firstNote⟩
  rcases changeNote_of_mem canonicalPrev canonicalCur secondMember with ⟨j, secondNote⟩
  have located := firstNote.located canonicalPrev canonicalCur law
  rcases secondNote.shared canonicalPrev canonicalCur law located same with
    ⟨key, differs, firstConcerns, secondConcerns⟩
  cases answer : reg.atomicPrefix key with
  | none =>
      have firstLoose := ((concerns_loose answer).mp firstConcerns).1
      have secondLoose := ((concerns_loose answer).mp secondConcerns).1
      have two := (both.filter (fun n => !n.atomic)).length_le
      rw [List.filter_eq_self.mpr (by simp [firstLoose, secondLoose])] at two
      exact absurd (two.trans grouped.loose) (Nat.not_succ_le_self 1)
  | some container =>
      have firstContained := (concerns_contained answer).mp firstConcerns
      have secondContained := (concerns_contained answer).mp secondConcerns
      rcases grouped.containers with ⟨containers, distinct, _, prefixes⟩
      have two := (both.filter Notification.atomic).map Notification.pathPrefix
      rw [List.filter_eq_self.mpr (by simp [firstContained.1, secondContained.1]), prefixes] at two
      have nodes := (two.map Path.nodes).nodup (by rw [List.map_map]; exact distinct)
      simp [firstContained.2, secondContained.2] at nodes

/-- One poll: the snapshots it compared, and the clock reading that each of its
notifications could use. -/
structure Polled where
  prev : Snapshot
  cur : Snapshot
  clock : Nat -> Int

def Polled.notes (reg : DataProviderRegistry σ) (p : Polled) : List Notification :=
  buildChangeNotifications p.prev p.cur reg p.clock

/-- The poll reported the leaf or its container with a time: the time of a leaf that it
carried, or the reading of this notification if no leaf that it carried has one. -/
inductive Polled.Told (reg : DataProviderRegistry σ) (p : Polled) (key : Str) : Int -> Prop
  | carried (resent : Resent reg.atomicPrefix p.prev p.cur key) {other : Str} {leaf : Leaf}
      (beside : CarriedWith reg p.prev p.cur key other leaf) : Polled.Told reg p key leaf.collectedNs
  | alone {i : Nat} {n : Notification} (sent : (p.notes reg)[i]? = some n) (concerns : Concerns reg n key)
      (untimed : ∀ other leaf, CarriedWith reg p.prev p.cur key other leaf -> leaf.collectedNs ≤ 0) :
      Polled.Told reg p key (p.clock i)

include canonicalPrev canonicalCur in
theorem ChangeNote.resent (law : AtomicLaw reg.atomicPrefix) {reading : Int} {n : Notification}
    (note : ChangeNote reg prev cur reading n) {key : Str} (canonical : Canonical key)
    (concerns : Concerns reg n key) : Resent reg.atomicPrefix prev cur key := by
  rcases note.subject canonicalPrev canonicalCur law with rfl | ⟨container, differs, atomic, isPrefix, _⟩
  · cases answer : reg.atomicPrefix key with
    | none =>
        have named := ((concerns_loose answer).mp concerns).2
        exact Or.inl ((pathOf_mem_namedPaths_diffNote canonicalPrev canonicalCur reading canonical).mp named)
    | some container => cases ((concerns_contained answer).mp concerns).1
  · have isC := concerns.container_eq law (differs.answered canonicalPrev canonicalCur) atomic isPrefix canonical
    exact Or.inr ⟨container, isC, differs⟩

/-- A stamp is a time that its poll told. -/
theorem Polled.told_stamp (law : AtomicLaw reg.atomicPrefix) {p : Polled}
    (canonicalPrev : CanonicalKeys p.prev) (canonicalCur : CanonicalKeys p.cur) {i : Nat}
    {n : Notification} (sent : (p.notes reg)[i]? = some n) {key : Str} (canonical : Canonical key)
    (concerns : Concerns reg n key) : p.Told reg key n.timestamp := by
  have note := changeNote_of_getElem canonicalPrev canonicalCur sent
  have resent := note.resent canonicalPrev canonicalCur law canonical concerns
  have stamped := note.stamped canonicalPrev canonicalCur law canonical concerns
  by_cases untimed : ∀ other leaf, CarriedWith reg p.prev p.cur key other leaf -> leaf.collectedNs ≤ 0
  · rcases stamped.source with isReading | ⟨other, leaf, beside, same⟩
    · rw [isReading]
      exact .alone sent concerns untimed
    · rw [same]
      exact .carried resent beside
  · simp only [not_forall, not_le] at untimed
    rcases untimed with ⟨other, leaf, beside, positive⟩
    rcases stamped.attained other leaf beside positive with ⟨newest, newestLeaf, newestBeside, same⟩
    rw [same]
    exact .carried resent newestBeside

end Poll

end Telemetry
end PscMockServer
