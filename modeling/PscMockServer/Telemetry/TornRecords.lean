import Mathlib.Order.Monotone.Defs
import PscMockServer.Foundations.ConsistentReads
import PscMockServer.Telemetry.AtomicRecords

namespace PscMockServer
namespace Telemetry

open Foundations Gnmi Utils Backend Gnmi.Subscribe

/-!
# Torn records

Each subscription of a list takes its own snapshot, and the merge keeps the first
read of a leaf.  A record whose leaves come from several snapshots is one state of
the store unless a commit changes a leaf of it that was already read and then, or by
the same commit, one that is still to be read.
-/

/-- The states of the store, one commit after the other, and the state that the
snapshot of each subscription finds.  Snapshots are taken in the order of the list. -/
structure Readings (σ : Type) where
  states : Nat -> σ
  moment : Nat -> Nat
  ordered : Monotone moment

variable {σ : Type} {reg : DataProviderRegistry σ} {Valid : σ -> Prop} {stored : σ -> Str -> Option Leaf}

namespace Readings

def found (readings : Readings σ) (i : Nat) : σ :=
  readings.states (readings.moment i)

/-- The stored values over time. -/
def value (readings : Readings σ) (stored : σ -> Str -> Option Leaf) (t : Nat) (key : Str) :
    Option TypedValue :=
  (stored (readings.states t) key).map Leaf.val

/-- The moment of the last snapshot of a list. -/
def lastMoment (readings : Readings σ) (list : SubscriptionList) : Nat :=
  readings.moment (list.subscription.length - 1)

end Readings

/-- A key of the container is read at moment `t`: the first subscription that selects it
takes its snapshot then. -/
def ReadIn (reg : DataProviderRegistry σ) (readings : Readings σ) (subs : List Subscription)
    (container key : Str) (t : Nat) : Prop :=
  reg.atomicPrefix key = some container ∧ ∃ front sub rest leaf, subs = front ++ sub :: rest ∧
    t = readings.moment front.length ∧
    (readOf reg readings.found sub front.length)[key]? = some leaf ∧
    firstRead reg readings.found key front 0 = none

/-- In one state of the call the store held all the leaves that the notification carries. -/
def OneState (readings : Readings σ) (stored : σ -> Str -> Option Leaf) (list : SubscriptionList)
    (n : Notification) : Prop :=
  ∃ t, readings.moment 0 ≤ t ∧ t ≤ readings.lastMoment list ∧
    ∀ report ∈ updatesOf n, ∃ key leaf, stored (readings.states t) key = some leaf ∧
      report = (pathOf key, leaf.val)

section Reads

variable {readings : Readings σ} {list : SubscriptionList}

/-- Every merged leaf of a container was read, with the value it had then. -/
theorem readIn_of_merged (serves : Serves reg Valid stored) (valid : ∀ t, Valid (readings.states t))
    {container key : Str} {leaf : Leaf} (isC : reg.atomicPrefix key = some container)
    (merged : (mergedReads reg readings.found list.subscription 0 ∅)[key]? = some leaf) :
    ∃ t, ReadIn reg readings list.subscription container key t ∧
      readings.value stored t key = some leaf.val := by
  rw [mergedReads_empty_find] at merged
  rcases firstRead_source merged with ⟨front, sub, rest, subs, own, earlier⟩
  rw [Nat.zero_add] at own
  have known := (serves.snapshot_iff (valid _) _ key leaf).mp own
  refine ⟨_, ⟨isC, front, sub, rest, leaf, subs, rfl, own, earlier⟩, ?_⟩
  exact congrArg (Option.map Leaf.val) known.2

theorem ReadIn.merged (serves : Serves reg Valid stored) (valid : ∀ t, Valid (readings.states t))
    {container key : Str} {t : Nat} (isRead : ReadIn reg readings list.subscription container key t) :
    ∃ leaf, (mergedReads reg readings.found list.subscription 0 ∅)[key]? = some leaf ∧
      readings.value stored t key = some leaf.val := by
  rcases isRead with ⟨_, front, sub, rest, leaf, subs, rfl, own, earlier⟩
  have known := (serves.snapshot_iff (valid _) _ key leaf).mp own
  refine ⟨leaf, ?_, congrArg (Option.map Leaf.val) known.2⟩
  rw [mergedReads_empty_find, subs, firstRead_append, earlier, Option.none_or, firstRead, Nat.zero_add,
    own, Option.some_or]

theorem ReadIn.within {container key : Str} {t : Nat}
    (isRead : ReadIn reg readings list.subscription container key t) :
    readings.moment 0 ≤ t ∧ t ≤ readings.lastMoment list := by
  rcases isRead with ⟨_, front, sub, rest, leaf, subs, rfl, _, _⟩
  refine ⟨readings.ordered (Nat.zero_le _), readings.ordered ?_⟩
  rw [subs, List.length_append, List.length_cons]
  omega

/-- The record of a container is one state exactly if the reads of the container fit
one moment. -/
theorem oneState_iff (serves : Serves reg Valid stored) (valid : ∀ t, Valid (readings.states t))
    {group : Str × Snapshot}
    (member : group ∈ (partition (mergedReads reg readings.found list.subscription 0 ∅) reg).2.toList)
    (reading : Int) :
    OneState readings stored list (atomicNote group.1 group.2 reading) ↔
      ∃ t, readings.moment 0 ≤ t ∧ t ≤ readings.lastMoment list ∧
        FitsAt (readings.value stored) (ReadIn reg readings list.subscription group.1) t := by
  have canonical := serves.mergedReads_canonical (fun i => valid (readings.moment i)) list.subscription 0
  have updates := updatesOf_atomicNote
    (fun entry inGroup => group_below serves.law.within canonical member inGroup) reading
  refine exists_congr (fun t => and_congr_right (fun _ => and_congr_right (fun _ => ?_)))
  rw [updates]
  constructor
  · intro held key r isRead
    rcases isRead.merged serves valid with ⟨leaf, merged, atRead⟩
    have inGroup : (key, leaf) ∈ group.2.toList := by
      apply OrdMap.mem_toList_of_find
      rw [find_of_mem_groups member, if_pos isRead.1, merged]
    rcases held _ (List.mem_map_of_mem inGroup) with ⟨other, otherLeaf, atMoment, same⟩
    have parts := Prod.mk.inj same
    have equal := Canonical.pathOf_injective (canonical key leaf merged)
      (serves.canonical (valid t) other otherLeaf atMoment) parts.1
    rw [atRead, Readings.value, equal, atMoment]
    exact congrArg some parts.2.symm
  · intro fits report listed
    rcases List.mem_map.mp listed with ⟨entry, inGroup, rfl⟩
    have found := find_of_mem_groups member entry.1
    rw [OrdMap.find_of_mem_toList inGroup] at found
    split at found
    · next isC =>
        rcases readIn_of_merged serves valid isC found.symm with ⟨r, isRead, atRead⟩
        have atMoment := (fits entry.1 r isRead).trans atRead
        rcases Option.map_eq_some_iff.mp atMoment with ⟨leaf, held, same⟩
        exact ⟨entry.1, leaf, held, Prod.ext rfl same.symm⟩
    · cases found

/-- The atomic notifications of a build are those of the merged reads. -/
theorem mem_build_atomic (buildable : Buildable reg list) {clock : Nat -> Int} {n : Notification}
    (emitted : n ∈ (buildSubscribeNotifications reg readings.found clock list).2)
    (atomic : n.atomic = true) :
    ∃ group ∈ (partition (mergedReads reg readings.found list.subscription 0 ∅) reg).2.toList,
      ∃ reading, n = atomicNote group.1 group.2 reading := by
  rw [build_of_buildable _ _ buildable] at emitted
  rcases List.mem_map.mp emitted with ⟨plain, listed, rfl⟩
  rw [(withRequestPrefix_fields list.pathPrefix plain).1] at atomic
  rw [withRequestPrefix_of_atomic _ atomic]
  rcases mem_buildFull listed with ⟨reading, rfl⟩ | ⟨group, member, reading, rfl⟩
  · cases atomic
  · exact ⟨group, member, reading, rfl⟩

theorem exists_mem_build (buildable : Buildable reg list) (clock : Nat -> Int)
    {group : Str × Snapshot}
    (member : group ∈ (partition (mergedReads reg readings.found list.subscription 0 ∅) reg).2.toList) :
    ∃ reading, atomicNote group.1 group.2 reading ∈
      (buildSubscribeNotifications reg readings.found clock list).2 := by
  rcases exists_mem_buildFull member clock with ⟨reading, listed⟩
  refine ⟨reading, ?_⟩
  rw [build_of_buildable _ _ buildable]
  exact List.mem_map.mpr ⟨_, listed, withRequestPrefix_of_atomic _ (atomicNote_atomic _ _ reading)⟩

/-- Records are untorn when the reads of every container are. -/
theorem oneState_of_untorn (serves : Serves reg Valid stored) (valid : ∀ t, Valid (readings.states t))
    (buildable : Buildable reg list) (clock : Nat -> Int)
    (untorn : ∀ container,
      ¬ Torn (readings.value stored) (ReadIn reg readings list.subscription container)) :
    ∀ n ∈ (buildSubscribeNotifications reg readings.found clock list).2,
      n.atomic = true -> OneState readings stored list n := by
  intro n emitted atomic
  rcases mem_build_atomic buildable emitted atomic with ⟨group, member, reading, rfl⟩
  rw [oneState_iff serves valid member]
  exact exists_fitsAt (readings.ordered (Nat.zero_le _)) (fun _ _ isRead => isRead.within)
    (untorn group.1)

/-- If every record is one state, the reads of a container fit one moment. -/
theorem fitsAt_of_oneState (serves : Serves reg Valid stored) (valid : ∀ t, Valid (readings.states t))
    (buildable : Buildable reg list) {clock : Nat -> Int}
    (whole : ∀ n ∈ (buildSubscribeNotifications reg readings.found clock list).2,
      n.atomic = true -> OneState readings stored list n) {container key : Str} {r : Nat}
    (isRead : ReadIn reg readings list.subscription container key r) :
    ∃ t, FitsAt (readings.value stored) (ReadIn reg readings list.subscription container) t := by
  rcases isRead.merged serves valid with ⟨leaf, merged, _⟩
  rcases exists_group merged isRead.1 with ⟨group, member⟩
  rcases exists_mem_build buildable clock member with ⟨reading, emitted⟩
  have atomic := atomicNote_atomic container group reading
  rcases (oneState_iff serves valid member reading).mp (whole _ emitted atomic) with ⟨t, _, _, fits⟩
  exact ⟨t, fits⟩

/-- So untorn reads are necessary, unless a leaf gets an old value back. -/
theorem untorn_of_oneState (serves : Serves reg Valid stored) (valid : ∀ t, Valid (readings.states t))
    (buildable : Buildable reg list) (clock : Nat -> Int) (fresh : NeverReturns (readings.value stored))
    (whole : ∀ n ∈ (buildSubscribeNotifications reg readings.found clock list).2,
      n.atomic = true -> OneState readings stored list n) (container : Str) :
    ¬ Torn (readings.value stored) (ReadIn reg readings list.subscription container) := by
  intro torn
  rcases torn.someRead with ⟨key, r, isRead⟩
  rcases fitsAt_of_oneState serves valid buildable whole isRead with ⟨t, fits⟩
  exact torn.not_fitsAt fresh t fits

end Reads

/-- Every atomic notification of a build shows one state that the store had during the
call if no commit of the call changes a leaf of the record that was already read and
then, or by the same commit, one that is still to be read.  Where no leaf gets an old
value back, it does so only then. -/
theorem records_untorn (serves : Serves reg Valid stored) {readings : Readings σ}
    (valid : ∀ t, Valid (readings.states t)) {list : SubscriptionList}
    (buildable : Buildable reg list) (clock : Nat -> Int) :
    let whole := ∀ n ∈ (buildSubscribeNotifications reg readings.found clock list).2,
      n.atomic = true -> OneState readings stored list n
    let untorn := ∀ container,
      ¬ Torn (readings.value stored) (ReadIn reg readings list.subscription container)
    (untorn -> whole) ∧ (NeverReturns (readings.value stored) -> whole -> untorn) :=
  ⟨oneState_of_untorn serves valid buildable clock,
    untorn_of_oneState serves valid buildable clock⟩

/-! ## A Set between two snapshots of one record -/

/-- The version leaf of the time server, next to its port. -/
def versionPath : Path where
  elem := Server.portPath.elem.dropLast ++ [⟨"version".toList, .empty⟩]

def portSub : Subscription where
  path := Server.portPath

def versionSub : Subscription where
  path := versionPath

def recordList : SubscriptionList where
  subscription := [portSub, versionSub]
  mode := .once

/-- One Set that changes both leaves. -/
def changeBoth : SetRequest where
  update := [{ path := some Server.portPath, val := some (.uintVal 1123) },
    { path := some versionPath, val := some (.uintVal 3) }]

def beforeChange : Server.Stores :=
  Server.initialStores 1 2

def afterChange : Server.Stores :=
  (Gnmi.Set.run Server.registry beforeChange 3 changeBoth).1

/-- The Set commits after the first snapshot and before the second. -/
def setBetween : Readings Server.Stores where
  states := fun t => match t with
    | 0 => beforeChange
    | _ + 1 => afterChange
  moment := id
  ordered := monotone_id

/-- A Set that changes the version alone. -/
def changeVersion : SetRequest where
  update := [{ path := some versionPath, val := some (.uintVal 3) }]

/-- It commits after the snapshot with the port and before the one with the version. -/
def versionBetween : Readings Server.Stores where
  states := fun t => match t with
    | 0 => beforeChange
    | _ + 1 => (Gnmi.Set.run Server.registry beforeChange 3 changeVersion).1
  moment := id
  ordered := monotone_id

def recordKey (leaf : String) : Str :=
  SystemConfigProvider.NTP_CONFIG ++ leaf.toList

theorem recordList_buildable : Buildable Server.registry recordList := by
  refine ⟨Or.inl rfl, ?_⟩
  decide +kernel

theorem portSub_selects : ∀ key ∈ Server.sensorPaths ++ Server.configPaths,
    selects (stripPathQuotes (gnmiToXpath portSub.path)) key = true -> key = recordKey "/port" := by
  decide +kernel

/-- What the first snapshot reads is the port, which the Set leaves as it is. -/
theorem versionBetween_untorn (container : Str) :
    ¬ Torn (versionBetween.value Server.storedLeaf)
      (ReadIn Server.registry versionBetween recordList.subscription container) := by
  rintro ⟨early, readEarly, _, _, change, _, wasRead, before, changed, _⟩
  rcases wasRead with ⟨_, front, sub, rest, leaf, subs, isMoment, own, _⟩
  cases change with
  | succ t => exact changed rfl
  | zero =>
      have first : front = [] := by
        have zero : readEarly = 0 := Nat.le_zero.mp before
        exact List.length_eq_zero_iff.mp (isMoment.symm.trans zero)
      subst first
      have isPort : portSub = sub := (List.cons.inj subs).1
      have started : Server.Invariant beforeChange := Server.initial_invariant 1 2
      rw [← isPort] at own
      rcases (Server.snapshot_iff started _ early leaf).mp own with ⟨_, holds, selected⟩
      have isKey := portSub_selects early (started.listed holds) selected
      have kept : versionBetween.value Server.storedLeaf 0 (recordKey "/port") =
          versionBetween.value Server.storedLeaf 1 (recordKey "/port") := by
        decide +kernel
      rw [isKey] at changed
      exact changed kept

/-- The record that reaches the client has the port and the new version, as the store does. -/
theorem records_untorn_version :
    Buildable Server.registry recordList ∧
      (Gnmi.Set.run Server.registry beforeChange 3 changeVersion).2.1 = Status.OK ∧
      versionBetween.value Server.storedLeaf 0 (recordKey "/version") ≠
        versionBetween.value Server.storedLeaf 1 (recordKey "/version") ∧
      ∀ n ∈ (buildSubscribeNotifications Server.registry versionBetween.found (fun _ => 0) recordList).2,
        n.atomic = true -> OneState versionBetween Server.storedLeaf recordList n := by
  have valid : ∀ t, Server.Invariant (versionBetween.states t) := by
    intro t
    cases t with
    | zero => exact Server.initial_invariant 1 2
    | succ t => exact (Server.initial_invariant 1 2).set changeVersion 3
  refine ⟨recordList_buildable, by decide +kernel, by decide +kernel, ?_⟩
  exact (records_untorn Server.registry_serves valid recordList_buildable (fun _ => 0)).1
    versionBetween_untorn

/-- The record that reaches the client has the old port and the new version. -/
theorem record_torn_by_set :
    Buildable Server.registry recordList ∧
      (Gnmi.Set.run Server.registry beforeChange 3 changeBoth).2.1 = Status.OK ∧
      ¬ ∀ n ∈ (buildSubscribeNotifications Server.registry setBetween.found (fun _ => 0) recordList).2,
          n.atomic = true -> OneState setBetween Server.storedLeaf recordList n := by
  refine ⟨recordList_buildable, by decide +kernel, fun whole => ?_⟩
  have valid : ∀ t, Server.Invariant (setBetween.states t) := by
    intro t
    cases t with
    | zero => exact Server.initial_invariant 1 2
    | succ t => exact (Server.initial_invariant 1 2).set changeBoth 3
  have contained : ∀ leaf ∈ ["/port", "/version"], Server.registry.atomicPrefix (recordKey leaf) =
      some SystemConfigProvider.NTP_CONFIG := by decide +kernel
  have reads : ((readOf Server.registry setBetween.found portSub 0)[recordKey "/port"]?).isSome = true ∧
      ((readOf Server.registry setBetween.found versionSub 1)[recordKey "/version"]?).isSome = true ∧
      firstRead Server.registry setBetween.found (recordKey "/version") [portSub] 0 = none := by
    decide +kernel
  have differ : setBetween.value Server.storedLeaf 0 (recordKey "/version") ≠
        setBetween.value Server.storedLeaf 1 (recordKey "/version") ∧
      setBetween.value Server.storedLeaf 1 (recordKey "/port") ≠
        setBetween.value Server.storedLeaf 0 (recordKey "/port") := by
    decide +kernel
  rcases Option.isSome_iff_exists.mp reads.1 with ⟨portLeaf, portRead⟩
  rcases Option.isSome_iff_exists.mp reads.2.1 with ⟨versionLeaf, versionRead⟩
  have readPort : ReadIn Server.registry setBetween recordList.subscription
      SystemConfigProvider.NTP_CONFIG (recordKey "/port") 0 :=
    ⟨contained _ List.mem_cons_self, [], portSub, [versionSub], portLeaf, rfl, rfl, portRead, rfl⟩
  have readVersion : ReadIn Server.registry setBetween recordList.subscription
      SystemConfigProvider.NTP_CONFIG (recordKey "/version") 1 :=
    ⟨contained _ (List.mem_cons_of_mem _ List.mem_cons_self), [portSub], versionSub, [], versionLeaf,
      rfl, rfl, versionRead, reads.2.2⟩
  rcases fitsAt_of_oneState Server.registry_serves valid recordList_buildable whole readPort with ⟨t, fits⟩
  have portFits := fits _ _ readPort
  have versionFits := fits _ _ readVersion
  cases t with
  | zero => exact differ.1 versionFits
  | succ t => exact differ.2 portFits

end Telemetry
end PscMockServer
