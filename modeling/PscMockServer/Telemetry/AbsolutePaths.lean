import PscMockServer.Server.GetAnswers
import PscMockServer.Telemetry.AtomicRecords
import PscMockServer.Telemetry.CallSteps
import PscMockServer.Telemetry.OnChange

namespace PscMockServer
namespace Telemetry

open Foundations Gnmi Utils Backend

/-!
# Absolute paths

A receiver reads every path under its notification's prefix.  Atomic notifications
carry relative paths under their container, the others absolute paths under no prefix.
Get and Subscribe then copy the request prefix onto the ones with absolute paths, so
with a prefix that has elements these paths name nothing the store holds.
-/

/-- What a notification reports is held, and what it deletes is gone. -/
structure PathsRight (Held : Str -> Leaf -> Prop) (Gone : List Node -> Prop) (n : Notification) : Prop where
  updates : ∀ report ∈ updatesOf n, ∃ key leaf, Held key leaf ∧ report = (pathOf key, leaf.val)
  deletes : ∀ path ∈ deletesOf n, Gone path

/-- The elements a request prefix puts before every path. -/
def prefixNodes (pre : Option Path) : List Node :=
  (pre.getD {}).nodes

theorem updatesOf_prefixed_fullNote (pre : Option Path) (snap : Snapshot) (reading : Int) :
    updatesOf (withRequestPrefix pre (fullNote snap reading)) =
      snap.toList.map (fun entry => (prefixNodes pre ++ pathOf entry.1, entry.2.val)) := by
  have updates : (withRequestPrefix pre (fullNote snap reading)).update = _ :=
    (withRequestPrefix_fields pre _).2.1.trans (fullNote_update snap reading)
  have nodes : (withRequestPrefix pre (fullNote snap reading)).pathPrefix.nodes = prefixNodes pre := by
    cases pre with
    | none => rfl
    | some pre => rfl
  rw [updatesOf, updates, nodes, List.map_map]
  rfl

section Builds

variable {σ : Type} {reg : DataProviderRegistry σ} {snap : Snapshot}
variable {Held : Str -> Leaf -> Prop} {Gone : List Node -> Prop}

/-- With a prefix without elements, or with leaves of containers only, a full emission
reports what is held. -/
theorem pathsRight_of_full (law : AtomicLaw reg.atomicPrefix) (canonical : CanonicalKeys snap)
    (part : ∀ (key : Str) (leaf : Leaf), snap[key]? = some leaf -> Held key leaf) {pre : Option Path}
    (fine : prefixNodes pre = [] ∨
      ∀ (key : Str) (leaf : Leaf), snap[key]? = some leaf -> reg.atomicPrefix key ≠ none)
    {clock : Nat -> Int} {n : Notification}
    (emitted : n ∈ (buildFullNotifications snap reg clock).map (withRequestPrefix pre)) :
    PathsRight Held Gone n := by
  rcases List.mem_map.mp emitted with ⟨plain, listed, rfl⟩
  constructor
  · intro report member
    rcases mem_buildFull listed with ⟨reading, rfl⟩ | ⟨group, inGroups, reading, rfl⟩
    · rw [updatesOf_prefixed_fullNote] at member
      rcases List.mem_map.mp member with ⟨entry, inRest, rfl⟩
      have found := OrdMap.find_of_mem_toList inRest
      rcases fine with noNodes | contained
      · exact ⟨entry.1, entry.2, part _ _ (rest_within _ _ found), by rw [noNodes, List.nil_append]⟩
      · have loose := found
        rw [partition_rest_find] at loose
        split at loose
        · next answered => exact absurd answered (contained _ _ loose)
        · cases loose
    · rw [withRequestPrefix_of_atomic pre (atomicNote_atomic group.1 group.2 reading),
        updatesOf_atomicNote (fun entry inGroup =>
          group_below law.within canonical inGroups inGroup)] at member
      rcases List.mem_map.mp member with ⟨entry, inGroup, rfl⟩
      have found := find_of_mem_groups inGroups entry.1
      rw [OrdMap.find_of_mem_toList inGroup] at found
      split at found
      · exact ⟨entry.1, entry.2, part _ _ found.symm, rfl⟩
      · cases found
  · intro path gone
    rw [deletesOf, (withRequestPrefix_fields pre plain).2.2, deletes_buildFull listed] at gone
    cases gone

/-- A leaf outside containers is reported under the request prefix. -/
theorem exists_prefixed_report (pre : Option Path) {key : Str} {leaf : Leaf}
    (found : snap[key]? = some leaf) (loose : reg.atomicPrefix key = none) (clock : Nat -> Int) :
    ∃ n ∈ (buildFullNotifications snap reg clock).map (withRequestPrefix pre),
      (prefixNodes pre ++ pathOf key, leaf.val) ∈ updatesOf n := by
  have inRest : (partition snap reg).1[key]? = some leaf := by
    rw [partition_rest_find, if_pos loose, found]
  have listed : fullNote (partition snap reg).1 ∈
      (if !(partition snap reg).1.isEmpty || (partition snap reg).2.isEmpty then
        [fullNote (partition snap reg).1] else []) ++
        (partition snap reg).2.toList.map (fun entry => atomicNote entry.1 entry.2) := by
    rw [OrdMap.isEmpty_eq_false_of_find inRest]
    exact List.mem_cons_self
  rcases exists_mem_pushAll clock listed with ⟨reading, emitted⟩
  refine ⟨_, List.mem_map_of_mem emitted, ?_⟩
  rw [updatesOf_prefixed_fullNote]
  exact List.mem_map.mpr ⟨(key, leaf), OrdMap.mem_toList_of_find inRest, rfl⟩

end Builds

end Telemetry

namespace Server

open Foundations Gnmi Utils Backend Telemetry Gnmi.Subscribe

/-! ## No stored path under another -/

/-- The names of the two roots. -/
def rootNames : List Str :=
  ["system".toList, "components".toList]

/-- A declared path has a root at its head and none behind it. -/
theorem listed_roots : ∀ key ∈ sensorPaths ++ configPaths,
    (∃ node ∈ (pathOf key).head?, node.name ∈ rootNames) ∧
      ∀ node ∈ (pathOf key).tail, node.name ∉ rootNames := by
  decide +kernel

/-- A declared path behind more elements is no declared path. -/
theorem prefixed_apart {nodes : List Node} (some_ : nodes ≠ []) {key other : Str}
    (listed : key ∈ sensorPaths ++ configPaths) (otherListed : other ∈ sensorPaths ++ configPaths) :
    nodes ++ pathOf key ≠ pathOf other := by
  intro same
  rcases (listed_roots key listed).1 with ⟨root, isHead, named⟩
  rcases List.exists_cons_of_ne_nil some_ with ⟨first, rest, rfl⟩
  have inTail : root ∈ (pathOf other).tail := by
    rw [← same, List.cons_append, List.tail_cons]
    exact List.mem_append_right rest (List.mem_of_mem_head? isHead)
  exact (listed_roots other otherListed).2 root inTail named

/-- A report of a stored leaf under a prefix with elements names no stored leaf. -/
theorem not_pathsRight {Held : Str -> Leaf -> Prop} {Gone : List Node -> Prop}
    (heldListed : ∀ key leaf, Held key leaf -> key ∈ sensorPaths ++ configPaths) {pre : Option Path}
    (some_ : prefixNodes pre ≠ []) {key : Str} (listed : key ∈ sensorPaths ++ configPaths)
    {value : TypedValue} {n : Notification} (reported : (prefixNodes pre ++ pathOf key, value) ∈ updatesOf n) :
    ¬ PathsRight Held Gone n := by
  intro right
  rcases right.updates _ reported with ⟨other, leaf, held, same⟩
  exact prefixed_apart some_ listed (heldListed other leaf held) (Prod.mk.inj same).1

/-- Nothing counts as gone. -/
def NothingGone (_ : List Node) : Prop :=
  False

/-! ## Get -/

/-- Every leaf the request selects lies in an atomic container. -/
def OnlyContained (found : Nat -> Stores) (req : GetRequest) : Prop :=
  ∀ i path, req.path[i]? = some path -> ∀ key leaf,
    Selects (found i) (Gnmi.Get.fullPath req.pathPrefix path) key leaf ->
      Gnmi.Get.matchesType leaf.type req.type = true -> registry.atomicPrefix key ≠ none

theorem get_run_ok {found : Nat -> Stores} {clock : Nat -> Nat -> Int} {req : GetRequest}
    (okay : (Gnmi.Get.run registry found clock req).1.isOk = true) :
    Gnmi.Get.run registry found clock req =
      ((Gnmi.Get.buildAll registry found clock req req.path 0 []).1,
        ⟨(Gnmi.Get.buildAll registry found clock req req.path 0 []).2⟩) := by
  unfold Gnmi.Get.run at okay ⊢
  dsimp only at okay ⊢
  split
  · next refused =>
      rw [if_pos refused] at okay
      rw [okay] at refused
      cases refused
  · rfl

/-- The paths of an answered Get are right exactly if the prefix has no elements or
every selected leaf lies in an atomic container. -/
theorem get_pathsRight_iff {found : Nat -> Stores} (valid : ∀ i, Invariant (found i))
    (clock : Nat -> Nat -> Int) {req : GetRequest}
    (okay : (Gnmi.Get.run registry found clock req).1.isOk = true) :
    (∀ n ∈ (Gnmi.Get.run registry found clock req).2.notification,
        ∃ i < req.path.length, PathsRight (Holds (found i)) NothingGone n) ↔
      prefixNodes req.pathPrefix = [] ∨ OnlyContained found req := by
  have answer := get_run_ok okay
  rw [answer] at okay ⊢
  have complete := (Gnmi.Get.buildAll_complete registry okay).2
  constructor
  · intro right
    by_cases noNodes : prefixNodes req.pathPrefix = []
    · exact Or.inl noNodes
    · right
      intro i path listed key leaf selected matched loose
      have built := complete i path listed
      rw [Nat.zero_add] at built
      rcases Gnmi.Get.build_cases registry (found i) (clock i) req.pathPrefix path req.encoding
        req.type with ⟨failed, _⟩ | ⟨owned, _, notes⟩
      · exact absurd (failed.symm.trans built.1) Bool.false_ne_true
      · have stored := (Gnmi.Get.filterByDataType_iff (registry.snapshot (found i)
          (Gnmi.Get.fullPath req.pathPrefix path)).snap req.type key leaf).mpr
            ⟨(snapshot_iff (valid i) _ key leaf).mpr ⟨owned, selected⟩, matched⟩
        rcases exists_prefixed_report req.pathPrefix stored loose (clock i) with ⟨n, emitted, reported⟩
        rw [← notes] at emitted
        rcases right n (built.2 n emitted) with ⟨j, _, isRight⟩
        exact not_pathsRight (fun _ _ holds => (valid j).listed holds) noNodes
          ((valid i).listed selected.1) reported isRight
  · intro fine n emitted
    rcases Gnmi.Get.mem_buildAll registry emitted with impossible | ⟨i, path, listed, member⟩
    · cases impossible
    · rw [Nat.zero_add] at member
      rcases Gnmi.Get.build_cases registry (found i) (clock i) req.pathPrefix path req.encoding
        req.type with ⟨_, nothing⟩ | ⟨_, _, notes⟩
      · rw [nothing] at member
        cases member
      · rw [notes] at member
        have known : ∀ (key : Str) (leaf : Leaf), (Gnmi.Get.filterByDataType (registry.snapshot (found i)
            (Gnmi.Get.fullPath req.pathPrefix path)).snap req.type)[key]? = some leaf ->
              Selects (found i) (Gnmi.Get.fullPath req.pathPrefix path) key leaf ∧
                Gnmi.Get.matchesType leaf.type req.type = true := by
          intro key leaf found_
          rw [Gnmi.Get.filterByDataType_iff, snapshot_iff (valid i)] at found_
          exact ⟨found_.1.2, found_.2⟩
        refine ⟨i, (List.getElem?_eq_some_iff.mp listed).1, pathsRight_of_full registry_atomicLaw ?_ ?_ ?_ member⟩
        · exact fun key leaf found_ => (valid i).holds_canonical (known key leaf found_).1.1
        · exact fun key leaf found_ => (known key leaf found_).1.1
        · exact fine.imp_right (fun contained key leaf found_ =>
            contained i path listed key leaf (known key leaf found_).1 (known key leaf found_).2)

/-! ## Builds of Subscribe -/

/-- The leaf was held in one of the states that a build looked at, one for each subscription. -/
def HeldDuring (found : Nat -> Stores) (subs : List Subscription) (key : Str) (leaf : Leaf) : Prop :=
  ∃ i < subs.length, Holds (found i) key leaf

/-- Every leaf the subscription selects in the state lies in an atomic container. -/
def SubContained (s : Stores) (sub : Subscription) : Prop :=
  ∀ key leaf, Selects s (gnmiToXpath sub.path) key leaf -> registry.atomicPrefix key ≠ none

/-- Reads of valid states are held in them. -/
theorem firstRead_held {found : Nat -> Stores} (valid : ∀ i, Invariant (found i))
    {subs : List Subscription} {key : Str} {leaf : Leaf}
    (read : (mergedReads registry found subs 0 ∅)[key]? = some leaf) :
    ∃ i sub, subs[i]? = some sub ∧ Selects (found i) (gnmiToXpath sub.path) key leaf := by
  rw [mergedReads_empty_find] at read
  rcases firstRead_source read with ⟨front, sub, rest, rfl, own, _⟩
  rw [Nat.zero_add] at own
  refine ⟨front.length, sub, ?_, ((snapshot_iff (valid _) _ key leaf).mp own).2⟩
  rw [List.getElem?_append_right (Nat.le_refl _), Nat.sub_self]
  rfl

/-- What a subscription of a buildable list selects is in the merged reads. -/
theorem mergedReads_of_selected {found : Nat -> Stores} (valid : ∀ i, Invariant (found i))
    {list : SubscriptionList} (buildable : Buildable registry list) {i : Nat} {sub : Subscription}
    (listed : list.subscription[i]? = some sub) {key : Str} {leaf : Leaf}
    (selected : Selects (found i) (gnmiToXpath sub.path) key leaf) :
    ∃ merged, (mergedReads registry found list.subscription 0 ∅)[key]? = some merged := by
  have owned : registry.owns (gnmiToXpath sub.path) = true :=
    ((subStatus_isOk_iff sub).mp (buildable.2 sub (List.mem_of_getElem? listed))).2
  have read : (readOf registry found sub i)[key]? = some leaf :=
    (snapshot_iff (valid i) _ key leaf).mpr ⟨owned, selected⟩
  exact mergedReads_of_read listed read

/-- The paths of a build are right exactly if the prefix has no elements or every leaf
its subscriptions select lies in an atomic container. -/
theorem build_pathsRight_iff {found : Nat -> Stores} (valid : ∀ i, Invariant (found i))
    (clock : Nat -> Int) {list : SubscriptionList} (buildable : Buildable registry list) :
    (∀ n ∈ (buildSubscribeNotifications registry found clock list).2,
        PathsRight (HeldDuring found list.subscription) NothingGone n) ↔
      prefixNodes list.pathPrefix = [] ∨
        ∀ i sub, list.subscription[i]? = some sub -> SubContained (found i) sub := by
  rw [build_of_buildable _ _ buildable]
  constructor
  · intro right
    by_cases noNodes : prefixNodes list.pathPrefix = []
    · exact Or.inl noNodes
    · right
      intro i sub listed key leaf selected loose
      rcases mergedReads_of_selected valid buildable listed selected with ⟨merged, read⟩
      rcases exists_prefixed_report list.pathPrefix read loose clock with ⟨n, emitted, reported⟩
      refine not_pathsRight ?_ noNodes ((valid i).listed selected.1) reported (right n emitted)
      rintro other otherLeaf ⟨j, _, holds⟩
      exact (valid j).listed holds
  · intro fine n emitted
    refine pathsRight_of_full registry_atomicLaw (registry_serves.mergedReads_canonical valid _ _) ?_ ?_
      emitted
    · intro key leaf read
      rcases firstRead_held valid read with ⟨i, sub, listed, selected⟩
      exact ⟨i, (List.getElem?_eq_some_iff.mp listed).1, selected.1⟩
    · refine fine.imp_right (fun contained key leaf read => ?_)
      rcases firstRead_held valid read with ⟨i, sub, listed, selected⟩
      exact contained i sub listed key leaf selected

/-! ## Polls of Subscribe -/

/-- The path is that of a leaf, or of a container, that the earlier state held and the
later one does not hold at all. -/
def Removed (earlier later : Stores) (path : List Node) : Prop :=
  (∃ key leaf, Holds earlier key leaf ∧ (∀ other, ¬ Holds later key other) ∧ path = pathOf key) ∨
    ∃ container key leaf, Holds earlier key leaf ∧ registry.atomicPrefix key = some container ∧
      (∀ other otherLeaf, registry.atomicPrefix other = some container -> ¬ Holds later other otherLeaf) ∧
      path = pathOf container

/-- Where the query saw leaves of a container before and sees none now, the store holds
none either. -/
def VanishesWhole (earlier later : Stores) (query : Str) : Prop :=
  registry.owns query = true -> ∀ container key leaf, Selects earlier query key leaf ->
    registry.atomicPrefix key = some container ->
    (∀ other otherLeaf, registry.atomicPrefix other = some container ->
      ¬ Selects later query other otherLeaf) ->
      ∀ other otherLeaf, registry.atomicPrefix other = some container -> ¬ Holds later other otherLeaf

section Change

variable {earlier later : Stores} {query : Str}

/-- The loose changes are reported and deleted at their own paths. -/
theorem diffNote_pathsRight (earlierInv : Invariant earlier) (laterInv : Invariant later) (reading : Int) :
    PathsRight (Holds later) (Removed earlier later) (diffNote (looseDiff
      (registry.snapshot earlier query).snap (registry.snapshot later query).snap registry) reading) := by
  have before := snapshot_iff earlierInv query
  have after := snapshot_iff laterInv query
  constructor
  · intro report member
    rw [updatesOf_diffNote] at member
    rcases List.mem_map.mp member with ⟨entry, changed, rfl⟩
    have found := rest_within entry.1 entry.2
      ((LeafStore.mem_changedLeaves _ _ entry.1 entry.2).mp changed).1
    exact ⟨entry.1, entry.2, ((after entry.1 entry.2).mp found).2.1, rfl⟩
  · intro path deleted
    rw [deletesOf_diffNote] at deleted
    rcases List.mem_map.mp deleted with ⟨key, vanished, rfl⟩
    rcases (LeafStore.mem_vanishedPaths _ _ key).mp vanished with ⟨⟨leaf, stored⟩, absent⟩
    have loose : registry.atomicPrefix key = none := by
      rw [partition_rest_find] at stored
      split at stored
      · assumption
      · cases stored
    have known := (before key leaf).mp (rest_within key leaf stored)
    rw [partition_rest_find, if_pos loose] at absent
    refine Or.inl ⟨key, leaf, known.2.1, fun other holds => ?_, rfl⟩
    have present := (after key other).mpr ⟨known.1, holds, known.2.2⟩
    rw [absent] at present
    cases present

/-- A container is deleted when its group was not empty before and is now. -/
theorem goneNote_pathsRight (earlierInv : Invariant earlier) (laterInv : Invariant later)
    (vanishes : VanishesWhole earlier later query) {container sample : Str}
    (isC : registry.atomicPrefix sample = some container)
    (differs : Differs (registry.snapshot earlier query).snap (registry.snapshot later query).snap sample)
    (gone : (partition (registry.snapshot later query).snap registry).2[container]?.getD ∅ = ∅)
    (reading : Int) :
    PathsRight (Holds later) (Removed earlier later) (goneNote container reading) := by
  have absent : ∀ other otherLeaf, registry.atomicPrefix other = some container ->
      (registry.snapshot later query).snap[other]? ≠ some otherLeaf := by
    intro other otherLeaf otherIsC found
    have inGroup := partition_group_find (registry.snapshot later query).snap registry container other
    rw [gone, if_pos otherIsC, found, Std.ExtTreeMap.getElem?_empty] at inGroup
    cases inGroup
  constructor
  · intro report member
    cases member
  · intro path deleted
    have whole : path = pathOf container := (List.mem_singleton.mp deleted).trans (List.append_nil _)
    rcases differs.stored with ⟨leaf, found⟩ | ⟨leaf, found⟩
    · have known := (snapshot_iff earlierInv query sample leaf).mp found
      refine Or.inr ⟨container, sample, leaf, known.2.1, isC, ?_, whole⟩
      apply vanishes known.1 container sample leaf known.2 isC
      intro other otherLeaf otherIsC selected
      exact absent other otherLeaf otherIsC ((snapshot_iff laterInv query other otherLeaf).mpr ⟨known.1, selected⟩)
    · exact absurd found (absent sample leaf isC)

/-- A changed container is sent with what the query selects of it. -/
theorem containerNote_pathsRight (laterInv : Invariant later) (container : Str) (reading : Int) :
    PathsRight (Holds later) (Removed earlier later) (atomicNote container
      ((partition (registry.snapshot later query).snap registry).2[container]?.getD ∅) reading) := by
  constructor
  · intro report member
    rw [updatesOf_atomicNote
      (current_below (snapshot_canonical laterInv query) registry_atomicLaw.within)] at member
    rcases List.mem_map.mp member with ⟨entry, inGroup, rfl⟩
    have found := partition_group_find (registry.snapshot later query).snap registry container entry.1
    rw [OrdMap.find_of_mem_toList inGroup] at found
    split at found
    · exact ⟨entry.1, entry.2, ((snapshot_iff laterInv query entry.1 entry.2).mp found.symm).2.1, rfl⟩
    · cases found
  · intro path deleted
    rw [deletesOf, atomicNote_eq] at deleted
    cases deleted

/-- No declared leaf has the path of its container. -/
theorem listed_below : ∀ key ∈ sensorPaths ++ configPaths,
    ∀ container ∈ registry.atomicPrefix key, pathOf container ≠ pathOf key := by
  decide +kernel

/-- A container that counts as removed is not there. -/
theorem Removed.container (earlierInv : Invariant earlier) {container sample : Str}
    (sampleCanonical : Canonical sample) (isC : registry.atomicPrefix sample = some container)
    (removed : Removed earlier later (pathOf container)) {other : Str} {leaf : Leaf}
    (otherIsC : registry.atomicPrefix other = some container) : ¬ Holds later other leaf := by
  rcases removed with ⟨key, gone, held, _, same⟩ | ⟨others, key, gone, held, answered, absent, same⟩
  · have inside : registry.atomicPrefix key = some container := by
      have own : (pathOf key).isPrefixOf (pathOf key) = true :=
        List.isPrefixOf_iff_prefix.mpr (List.prefix_refl _)
      apply (registry_atomicLaw.region sampleCanonical isC (earlierInv.holds_canonical held)).mp
      rw [same]
      exact own
    exact absurd same (listed_below key (earlierInv.listed held) container inside)
  · have own := (registry_atomicLaw.region sampleCanonical isC sampleCanonical).mpr isC
    rw [same, registry_atomicLaw.region (earlierInv.holds_canonical held) answered sampleCanonical, isC] at own
    exact absent other leaf (Option.some.inj own ▸ otherIsC)

/-- A change emission is right exactly when containers vanish whole. -/
theorem change_pathsRight_iff (earlierInv : Invariant earlier) (laterInv : Invariant later)
    (clock : Nat -> Int) :
    (∀ n ∈ buildChangeNotifications (registry.snapshot earlier query).snap
        (registry.snapshot later query).snap registry clock,
      PathsRight (Holds later) (Removed earlier later) n) ↔ VanishesWhole earlier later query := by
  have canonicalPrev := snapshot_canonical earlierInv query
  have canonicalCur := snapshot_canonical laterInv query
  constructor
  · intro right owned container key leaf selected isC noneSelected other otherLeaf otherIsC
    have before := (snapshot_iff earlierInv query key leaf).mpr ⟨owned, selected⟩
    have empty : ∀ other : Str, registry.atomicPrefix other = some container ->
        (registry.snapshot later query).snap[other]? = none := by
      intro other otherIsC
      rw [Option.eq_none_iff_forall_ne_some]
      exact fun otherLeaf found => noneSelected other otherLeaf otherIsC
        ((snapshot_iff laterInv query other otherLeaf).mp found).2
    have differs : Differs (registry.snapshot earlier query).snap (registry.snapshot later query).snap key := by
      rw [Differs, LeafStore.valueAt, LeafStore.valueAt, before, empty key isC]
      exact Option.some_ne_none leaf.val
    have gone : (partition (registry.snapshot later query).snap registry).2[container]?.getD ∅ = ∅ := by
      apply Std.ExtTreeMap.ext_getElem?
      intro other
      rw [partition_group_find, Std.ExtTreeMap.getElem?_empty]
      split
      · next otherIsC => exact empty other otherIsC
      · rfl
    rcases exists_mem_pushAll clock (exists_goneBuild canonicalPrev canonicalCur isC differs gone) with
      ⟨reading, emitted⟩
    have deleted : pathOf container ∈ deletesOf (goneNote container reading) :=
      List.mem_singleton.mpr (List.append_nil _).symm
    exact ((right _ emitted).deletes _ deleted).container earlierInv
      (canonicalPrev key leaf before) isC otherIsC
  · intro vanishes n emitted
    rw [buildChange_eq] at emitted
    rcases mem_pushAll emitted with ⟨build, listed, reading, rfl⟩
    rcases changeBuilds_cases canonicalPrev canonicalCur listed
      with rfl | ⟨container, sample, _, isC, differs, ⟨rfl, gone⟩ | rfl⟩
    · exact diffNote_pathsRight earlierInv laterInv reading
    · exact goneNote_pathsRight earlierInv laterInv vanishes isC differs gone reading
    · exact containerNote_pathsRight laterInv container reading

end Change

/-! ## Whole calls of Subscribe -/

/-- Every state the run looks at is reachable. -/
structure ReachableRun (timing : StreamTiming Stores) (messages : List (ClientMessage Stores)) : Prop where
  stream : ValidTiming Reachable timing
  messages : ∀ message ∈ messages, ∀ i, Reachable (message.found i)

/-- The states a step looked at make the paths of its notification right: what it reports was
held at one of its looks, and what a poll deletes was there at the look before. -/
def JustifiedBy (timing : StreamTiming Stores) (list : SubscriptionList) (step : Step Stores)
    (n : Notification) : Prop :=
  match step with
  | .build found _ => PathsRight (HeldDuring found list.subscription) NothingGone n
  | .sync => False
  | .sample front pass =>
      let due := sampledAfter (sampleEntries registry timing list) front pass
      PathsRight (HeldDuring pass.sampleAt due) NothingGone n
  | .poll front pass j i _ =>
      PathsRight (Holds (pass.pollAt j)) (Removed (stateBefore timing i j front) (pass.pollAt j)) n

/-- The step keeps paths absolute: a build or a batch of samples adds no elements or selects
leaves of containers only, and a poll sends a heartbeat or sees containers vanish whole. -/
def StepSafe (timing : StreamTiming Stores) (list : SubscriptionList) : Step Stores -> Prop
  | .build found _ => prefixNodes list.pathPrefix = [] ∨
      ∀ i sub, list.subscription[i]? = some sub -> SubContained (found i) sub
  | .sync => True
  | .sample front pass => prefixNodes list.pathPrefix = [] ∨
      ∀ i sub, (sampledAfter (sampleEntries registry timing list) front pass)[i]? = some sub ->
        SubContained (pass.sampleAt i) sub
  | .poll front pass j i sub => beatDue sub.heartbeatInterval (timing.setupNow i) j front pass = true ∨
      VanishesWhole (stateBefore timing i j front) (pass.pollAt j) (gnmiToXpath sub.path)

/-- A step of a call sends right paths exactly if it is safe. -/
theorem step_justified_iff {timing : StreamTiming Stores} {messages : List (ClientMessage Stores)}
    {list : SubscriptionList} (reached : ReachableRun timing messages) {step : Step Stores}
    (known : Known registry timing messages list step) :
    (∀ n ∈ step.notes registry timing list, JustifiedBy timing list step n) ↔ StepSafe timing list step := by
  cases known with
  | initial buildable =>
      exact build_pathsRight_iff (fun i => (reached.stream.initial i).invariant) timing.initialClock buildable
  | answer message listed buildable =>
      exact build_pathsRight_iff (fun i => (reached.messages message listed i).invariant) message.clock
        buildable
  | sync => exact ⟨fun _ => trivial, fun _ n emitted => absurd emitted List.not_mem_nil⟩
  | sample front pass isFront =>
      have member := mem_of_snoc (isFront.trans (reachedPasses_front timing list))
      unfold Step.notes JustifiedBy StepSafe
      dsimp only
      by_cases nothing : sampledAfter (sampleEntries registry timing list) front pass = []
      · rw [nothing, if_pos rfl]
        refine ⟨fun _ => Or.inr (fun i sub listed => ?_), fun _ n emitted => absurd emitted List.not_mem_nil⟩
        cases listed
      · rw [if_neg nothing]
        exact build_pathsRight_iff (fun i => (reached.stream.sample pass member i).invariant)
          pass.sampleClock (sampled_buildable isFront nothing)
  | poll front pass j i sub isFront entry =>
      have inStream := isFront.trans (reachedPasses_front timing list)
      have earlierInv := (reached.stream.before inStream i j).invariant
      have laterInv := (reached.stream.poll pass (mem_of_snoc inStream) j).invariant
      unfold Step.notes JustifiedBy StepSafe pollNotes
      by_cases due : beatDue sub.heartbeatInterval (timing.setupNow i) j front pass = true
      · simp only [due, if_true, true_or, iff_true]
        intro n emitted
        rw [← map_withRequestPrefix_none (buildFullNotifications _ _ _)] at emitted
        refine pathsRight_of_full registry_atomicLaw (snapshot_canonical laterInv _) ?_ (Or.inl rfl) emitted
        exact fun key leaf found => ((snapshot_iff laterInv _ key leaf).mp found).2.1
      · simp only [due, Bool.false_eq_true, if_false, false_or]
        exact change_pathsRight_iff earlierInv laterInv (pass.pollClock j)

/-- The elements of a notification's prefix followed by those of its paths name what the
store holds, or what it no longer holds.  For Get and for each build of Subscribe this is so
exactly if the request prefix has no elements or only leaves of containers are selected.  A
whole call of Subscribe writes what its steps send, and each step sends right paths exactly
if it is safe. -/
theorem paths_absolute {found : Nat -> Stores} (reachable : ∀ i, Reachable (found i)) :
    (∀ (clock : Nat -> Nat -> Int) (req : GetRequest),
      (Gnmi.Get.run registry found clock req).1.isOk = true ->
        ((∀ n ∈ (Gnmi.Get.run registry found clock req).2.notification,
            ∃ i < req.path.length, PathsRight (Holds (found i)) NothingGone n) ↔
          prefixNodes req.pathPrefix = [] ∨ OnlyContained found req)) ∧
      (∀ (clock : Nat -> Int) (list : SubscriptionList), Buildable registry list ->
        ((∀ n ∈ (buildSubscribeNotifications registry found clock list).2,
            PathsRight (HeldDuring found list.subscription) NothingGone n) ↔
          prefixNodes list.pathPrefix = [] ∨
            ∀ i sub, list.subscription[i]? = some sub -> SubContained (found i) sub)) ∧
      ∀ (timing : StreamTiming Stores) (messages : List (ClientMessage Stores)) (list : SubscriptionList)
        (request : SubscribeRequest), request.request = .subscribe list -> ReachableRun timing messages ->
          let steps := callSteps registry timing messages request list
          (Gnmi.Subscribe.run registry timing messages request).2 =
              steps.flatMap (Step.writes registry timing list) ∧
            ∀ step ∈ steps, (∀ n ∈ step.notes registry timing list, JustifiedBy timing list step n) ↔
              StepSafe timing list step := by
  refine ⟨?_, ?_, ?_⟩
  · intro clock req okay
    exact get_pathsRight_iff (fun i => (reachable i).invariant) clock okay
  · intro clock list buildable
    exact build_pathsRight_iff (fun i => (reachable i).invariant) clock buildable
  · intro timing messages list request isList reached steps
    exact ⟨run_steps timing messages isList, fun step listed => step_justified_iff reached (known_of_mem listed)⟩

/-! ## With and without a request prefix -/

theorem beforeRename_reachable : Reachable beforeRename :=
  ⟨1, 2, [], rfl⟩

theorem afterRename_reachable : Reachable afterRename :=
  ⟨1, 2, [.set renameHost 3], rfl⟩

theorem renameTiming_reachable : ReachableRun (renameTiming beforeRename) [] where
  stream := by
    refine ⟨fun _ => beforeRename_reachable, fun _ => beforeRename_reachable, ?_, ?_⟩
    · intro pass member _
      rw [List.mem_singleton.mp member]
      exact afterRename_reachable
    · intro pass member _
      rw [List.mem_singleton.mp member]
      exact afterRename_reachable
  messages := fun _ member => absurd member List.not_mem_nil

/-- No leaf of a container is selected by the path of the host name. -/
theorem hostname_vanishes {earlier later : Stores} (inv : Invariant earlier) :
    VanishesWhole earlier later (gnmiToXpath hostnamePath) := by
  intro _ container key leaf selected isC
  have loose : ∀ key ∈ sensorPaths ++ configPaths,
      selects (stripPathQuotes (gnmiToXpath hostnamePath)) key = true ->
        registry.atomicPrefix key = none := by decide +kernel
  rw [loose key (inv.listed selected.1) selected.2] at isC
  cases isC

theorem paths_absolute_hostname :
    (∀ n ∈ (Gnmi.Get.run registry (fun _ => initialStores 1 2) (fun _ _ => 0)
        systemConfigRequest).2.notification,
      ∃ i < systemConfigRequest.path.length, PathsRight (Holds (initialStores 1 2)) NothingGone n) ∧
      (∀ n ∈ (buildSubscribeNotifications registry (fun _ => beforeRename) (fun _ => 0) hostnameList).2,
        PathsRight (HeldDuring (fun _ => beforeRename) hostnameList.subscription) NothingGone n) ∧
      ∀ step ∈ callSteps registry (renameTiming beforeRename) [] { request := .subscribe hostnameList }
          hostnameList,
        ∀ n ∈ step.notes registry (renameTiming beforeRename) hostnameList,
          JustifiedBy (renameTiming beforeRename) hostnameList step n := by
  have initial := paths_absolute (fun _ => (⟨1, 2, [], rfl⟩ : Reachable (initialStores 1 2)))
  have exact := paths_absolute (fun _ => beforeRename_reachable)
  refine ⟨?_, ?_, ?_⟩
  · have okay : (Gnmi.Get.run registry (fun _ => initialStores 1 2) (fun _ _ => 0)
        systemConfigRequest).1.isOk = true := by decide +kernel
    exact (initial.1 _ _ okay).mpr (Or.inl rfl)
  · exact (exact.2.1 _ _ (hostnameStream beforeRename_invariant).accepted.2).mpr (Or.inl rfl)
  · intro step listed
    refine ((exact.2.2 (renameTiming beforeRename) [] hostnameList _ rfl renameTiming_reachable).2 step
      listed).mpr ?_
    cases known_of_mem listed with
    | initial _ => exact Or.inl rfl
    | answer message member _ => exact absurd member List.not_mem_nil
    | sync => exact trivial
    | sample front pass isFront => exact Or.inl rfl
    | poll front pass j i sub isFront entry =>
        rcases onChangeSubs_source (renameTiming beforeRename) entry with ⟨before, rest, subs, _⟩
        have path : sub.path = hostnamePath := by
          have member : sub ∈ hostnameList.subscription := by
            rw [subs]
            exact List.mem_append_right before List.mem_cons_self
          rw [List.mem_singleton.mp member]
          rfl
        have inStream := isFront.trans (reachedPasses_front _ _)
        refine Or.inr ?_
        rw [path]
        exact hostname_vanishes (renameTiming_reachable.stream.before inStream i j).invariant

/-- The prefix `/system`. -/
def systemPrefix : Path where
  elem := [⟨"system".toList, .empty⟩]

/-- The host name, cut into prefix and path. -/
def cutHostnameRequest : GetRequest where
  pathPrefix := some systemPrefix
  path := [{ elem := hostnamePath.elem.tail }]

def prefixedHostnameList : SubscriptionList where
  pathPrefix := some systemPrefix
  subscription := [hostnameSub]
  mode := .once

/-- With the prefix the host name is reported as `/system/system/config/hostname`. -/
theorem prefixed_paths_wrong :
    (¬ ∀ n ∈ (Gnmi.Get.run registry (fun _ => initialStores 1 2) (fun _ _ => 0)
        cutHostnameRequest).2.notification,
      ∃ i < cutHostnameRequest.path.length, PathsRight (Holds (initialStores 1 2)) NothingGone n) ∧
      ¬ ∀ n ∈ (buildSubscribeNotifications registry (fun _ => initialStores 1 2) (fun _ => 0)
          prefixedHostnameList).2,
        PathsRight (HeldDuring (fun _ => initialStores 1 2) prefixedHostnameList.subscription) NothingGone n := by
  have inv := initial_invariant 1 2
  have stored : ((initialStores 1 2).config.store.leaves[
      "/system/config/hostname".toList]?).isSome = true := by decide +kernel
  rcases Option.isSome_iff_exists.mp stored with ⟨leaf, found⟩
  have holds : Holds (initialStores 1 2) "/system/config/hostname".toList leaf := Or.inr found
  have loose : registry.atomicPrefix "/system/config/hostname".toList = none := by decide +kernel
  have nodes : prefixNodes (some systemPrefix) ≠ [] := List.cons_ne_nil _ _
  constructor
  · intro right
    have okay : (Gnmi.Get.run registry (fun _ => initialStores 1 2) (fun _ _ => 0)
        cutHostnameRequest).1.isOk = true := by decide +kernel
    rcases (get_pathsRight_iff (fun _ => inv) _ okay).mp right with noNodes | contained
    · exact nodes noNodes
    · have selected : selects (stripPathQuotes (Gnmi.Get.fullPath cutHostnameRequest.pathPrefix
          { elem := hostnamePath.elem.tail })) "/system/config/hostname".toList = true := by
        decide +kernel
      exact contained 0 _ rfl _ leaf ⟨holds, selected⟩ rfl loose
  · intro right
    have buildable : Buildable registry prefixedHostnameList :=
      (hostnameStream beforeRename_invariant).accepted.2
    rcases (build_pathsRight_iff (fun _ => inv) _ buildable).mp right with noNodes | contained
    · exact nodes noNodes
    · have selected : selects (stripPathQuotes (gnmiToXpath hostnameSub.path))
          "/system/config/hostname".toList = true := by decide +kernel
      exact contained 0 hostnameSub rfl _ leaf ⟨holds, selected⟩ loose

end Server
end PscMockServer
