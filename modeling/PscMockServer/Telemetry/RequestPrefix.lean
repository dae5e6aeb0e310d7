import PscMockServer.Telemetry.AbsolutePaths

namespace PscMockServer
namespace Telemetry

open Foundations Gnmi Utils Backend Gnmi.Subscribe

/-!
# The request prefix as part of a subscribed path

Get and Set put the xpath of the request prefix before the xpath of every path.
Subscribe does not: its builds, its ON_CHANGE queries and its stream modes look at the
path of the subscription alone, and the prefix is only copied onto what is sent.
-/

/-- The path that a request prefix and a path denote together. -/
def joined (pre path : Path) : Path :=
  { path with elem := pre.elem ++ path.elem }

def joinedSub (pre : Path) (sub : Subscription) : Subscription :=
  { sub with path := joined pre sub.path }

/-- The list without prefix whose paths are the joined ones. -/
def concatenated (pre : Path) (list : SubscriptionList) : SubscriptionList :=
  { list with pathPrefix := none, subscription := list.subscription.map (joinedSub pre) }

/-- The same status code, and the same leaves and values reported. -/
structure SameAnswer (first second : Status × List Notification) : Prop where
  code : first.1.code = second.1.code
  reports : ∀ report, report ∈ reported first.2 ↔ report ∈ reported second.2

/-! ## Joined paths -/

section Joined

variable {pre path : Path}

theorem gnmiToXpath_joined (prefixOrigin : pre.origin = []) (origin : path.origin = []) :
    gnmiToXpath (joined pre path) = gnmiToXpath pre ++ gnmiToXpath path := by
  have joinedOrigin : (joined pre path).origin = [] := origin
  rw [gnmiToXpath_eq prefixOrigin, gnmiToXpath_eq origin, gnmiToXpath_eq joinedOrigin, joined,
    List.flatMap_append]

theorem joined_of_no_elements (noElements : pre.elem = []) (path : Path) : joined pre path = path := by
  rw [joined, noElements, List.nil_append]

theorem joinedSub_of_no_elements (noElements : pre.elem = []) (sub : Subscription) :
    joinedSub pre sub = sub := by
  rw [joinedSub, joined_of_no_elements noElements]

/-- A valid prefix makes no difference to what is wrong with a path. -/
theorem validateGnmiPath_joined (prefixValid : (validateGnmiPath pre).isOk = true) (path : Path) :
    validateGnmiPath (joined pre path) = validateGnmiPath path := by
  rw [validateGnmiPath, joined, List.map_append, firstError_append, ← validateGnmiPath, if_pos prefixValid]
  rfl

/-- The xpath of a prefix with elements begins with a slash. -/
theorem exists_cons_of_elements (prefixOrigin : pre.origin = []) (some_ : pre.elem ≠ []) :
    ∃ rest, stripPathQuotes (gnmiToXpath pre) = '/' :: rest := by
  rcases List.exists_cons_of_ne_nil some_ with ⟨first, rest, elems⟩
  rw [gnmiToXpath_eq prefixOrigin, elems, List.flatMap_cons, elemText, List.cons_append]
  exact ⟨_, rfl⟩

/-- Joined with a prefix that has elements, a path has another xpath. -/
theorem gnmiToXpath_joined_eq_iff (prefixOrigin : pre.origin = []) (origin : path.origin = []) :
    gnmiToXpath path = gnmiToXpath (joined pre path) ↔ pre.elem = [] := by
  constructor
  · intro same
    by_cases noElements : pre.elem = []
    · exact noElements
    · rcases exists_cons_of_elements prefixOrigin noElements with ⟨rest, begins⟩
      rw [gnmiToXpath_joined prefixOrigin origin, List.self_eq_append_left] at same
      rw [same] at begins
      cases begins
  · intro noElements
    rw [joined_of_no_elements noElements]

/-- Get looks up the xpath of the joined path. -/
theorem get_fullPath_joined (prefixOrigin : pre.origin = []) (origin : path.origin = []) :
    Gnmi.Get.fullPath (some pre) path = gnmiToXpath (joined pre path) :=
  (gnmiToXpath_joined prefixOrigin origin).symm

/-- Set writes to the xpath of the joined path. -/
theorem set_prefixXpath_joined {request : SetRequest} (given : request.pathPrefix = some pre)
    (prefixOrigin : pre.origin = []) (origin : path.origin = []) :
    Gnmi.Set.prefixXpath request ++ gnmiToXpath path = gnmiToXpath (joined pre path) := by
  rw [gnmiToXpath_joined prefixOrigin origin, Gnmi.Set.prefixXpath, given]

end Joined

theorem concatenated_of_no_elements {pre : Path} (noElements : pre.elem = []) (list : SubscriptionList) :
    concatenated pre list = { list with pathPrefix := none } := by
  have same : joinedSub pre = id := funext (joinedSub_of_no_elements noElements)
  rw [concatenated, same, List.map_id]

/-! ## The status of a build -/

section Status

variable {σ : Type} {reg : DataProviderRegistry σ} {list : SubscriptionList}

/-- Some subscribed path has no provider. -/
def Unrouted (reg : DataProviderRegistry σ) (list : SubscriptionList) : Prop :=
  ∃ sub ∈ list.subscription, reg.owns (gnmiToXpath sub.path) = false

theorem subStatus_of_valid {sub : Subscription} (valid : (validateGnmiPath sub.path).isOk = true) :
    subStatus reg sub = if reg.owns (gnmiToXpath sub.path) then Status.OK
      else ⟨.unimplemented, "path not implemented: ".toList ++ gnmiToXpath sub.path⟩ := by
  unfold subStatus
  rw [valid]
  cases reg.owns (gnmiToXpath sub.path) with
  | true => rfl
  | false => rfl

theorem buildable_iff (valid : ∀ sub ∈ list.subscription, (validateGnmiPath sub.path).isOk = true) :
    Buildable reg list ↔ Encodable list.encoding ∧ ¬ Unrouted reg list := by
  refine and_congr_right (fun _ => ?_)
  constructor
  · rintro okay ⟨sub, member, notOwned⟩
    have status := okay sub member
    rw [subStatus_of_valid (valid sub member), notOwned, if_neg Bool.false_ne_true] at status
    cases status
  · intro routed sub member
    cases owned : reg.owns (gnmiToXpath sub.path) with
    | true =>
        rw [subStatus_of_valid (valid sub member), owned]
        rfl
    | false => exact absurd ⟨sub, member, owned⟩ routed

/-- With well-formed paths a build fails as not implemented only. -/
theorem build_code (found : Nat -> σ) (clock : Nat -> Int)
    (valid : ∀ sub ∈ list.subscription, (validateGnmiPath sub.path).isOk = true)
    (refused : ¬ Buildable reg list) :
    (buildSubscribeNotifications reg found clock list).1.code = .unimplemented := by
  rw [← build_isOk_iff found clock, Bool.not_eq_true] at refused
  unfold buildSubscribeNotifications at refused ⊢
  split
  · rfl
  · next encodable =>
      rw [if_neg encodable] at refused
      dsimp only at refused ⊢
      split
      · next failed =>
          rw [mergeLoop_status, Bool.not_eq_true'] at failed
          dsimp only
          rw [mergeLoop_status]
          rcases List.mem_map.mp (firstError_mem failed) with ⟨sub, member, isFirst⟩
          rw [← isFirst] at failed ⊢
          rw [subStatus_of_valid (valid sub member)] at failed ⊢
          split at failed
          · cases failed
          · next notOwned => rw [if_neg notOwned]
      · next okay =>
          rw [if_neg okay] at refused
          cases refused

/-- Two builds over well-formed paths answer alike if both are refused, or both pass and
report the same. -/
theorem sameAnswer_iff (found : Nat -> σ) (clock : Nat -> Int) {other : SubscriptionList}
    (valid : ∀ sub ∈ list.subscription, (validateGnmiPath sub.path).isOk = true)
    (otherValid : ∀ sub ∈ other.subscription, (validateGnmiPath sub.path).isOk = true) :
    SameAnswer (buildSubscribeNotifications reg found clock list)
        (buildSubscribeNotifications reg found clock other) ↔
      (¬ Buildable reg list ∧ ¬ Buildable reg other) ∨
        (Buildable reg list ∧ Buildable reg other ∧
          ∀ report, report ∈ reported (buildSubscribeNotifications reg found clock list).2 ↔
            report ∈ reported (buildSubscribeNotifications reg found clock other).2) := by
  constructor
  · intro same
    have status : Buildable reg list ↔ Buildable reg other := by
      rw [← build_isOk_iff found clock, ← build_isOk_iff found clock, Status.isOk, Status.isOk, same.code]
    by_cases buildable : Buildable reg list
    · exact Or.inr ⟨buildable, status.mp buildable, same.reports⟩
    · exact Or.inl ⟨buildable, fun otherBuildable => buildable (status.mpr otherBuildable)⟩
  · rintro (⟨refused, otherRefused⟩ | ⟨buildable, otherBuildable, reports⟩)
    · constructor
      · exact (build_code found clock valid refused).trans (build_code found clock otherValid otherRefused).symm
      · intro report
        rw [build_of_not_buildable found clock refused, build_of_not_buildable found clock otherRefused]
    · refine ⟨?_, reports⟩
      rw [build_of_buildable found clock buildable, build_of_buildable found clock otherBuildable]

end Status

/-! ## What is reported under a prefix -/

/-- A request prefix renames what is reported, it hides and adds nothing. -/
theorem exists_reported_prefixed (pre : Option Path) (notes : List Notification) :
    (∃ report, report ∈ reported (notes.map (withRequestPrefix pre))) ↔
      ∃ report, report ∈ reported notes := by
  have nonempty : ∀ n : Notification, (∃ report, report ∈ updatesOf n) ↔ n.update ≠ [] := by
    intro n
    have lists : updatesOf n ≠ [] ↔ n.update ≠ [] := not_congr List.map_eq_nil_iff
    rw [← lists]
    refine ⟨?_, List.exists_mem_of_ne_nil _⟩
    rintro ⟨report, member⟩
    exact List.ne_nil_of_mem member
  have some_ : ∀ notes : List Notification, (∃ report, report ∈ reported notes) ↔
      ∃ n ∈ notes, n.update ≠ [] := by
    intro notes
    constructor
    · rintro ⟨report, member⟩
      rcases List.mem_flatMap.mp member with ⟨n, listed, carries⟩
      exact ⟨n, listed, (nonempty n).mp ⟨report, carries⟩⟩
    · rintro ⟨n, listed, carries⟩
      rcases (nonempty n).mpr carries with ⟨report, member⟩
      exact ⟨report, List.mem_flatMap.mpr ⟨n, listed, member⟩⟩
  rw [some_, some_]
  constructor
  · rintro ⟨n, listed, carries⟩
    rcases List.mem_map.mp listed with ⟨plain, member, rfl⟩
    rw [(withRequestPrefix_fields pre plain).2.1] at carries
    exact ⟨plain, member, carries⟩
  · rintro ⟨n, listed, carries⟩
    rw [← (withRequestPrefix_fields pre n).2.1] at carries
    exact ⟨_, List.mem_map_of_mem listed, carries⟩

/-- A prefix without elements renames nothing. -/
theorem updatesOf_no_elements {σ : Type} {reg : DataProviderRegistry σ} {snap : Snapshot}
    {clock : Nat -> Int} {n : Notification} (emitted : n ∈ buildFullNotifications snap reg clock)
    {pre : Option Path} (noNodes : prefixNodes pre = []) :
    updatesOf (withRequestPrefix pre n) = updatesOf n := by
  rcases mem_buildFull emitted with ⟨reading, rfl⟩ | ⟨group, _, reading, rfl⟩
  · have plain := updatesOf_prefixed_fullNote none (partition snap reg).1 reading
    rw [updatesOf_prefixed_fullNote, noNodes]
    exact plain.symm
  · rw [withRequestPrefix_of_atomic pre (atomicNote_atomic group.1 group.2 reading)]

end Telemetry

namespace Server

open Foundations Gnmi Utils Backend Telemetry Gnmi.Subscribe

/-- A list with prefix `pre` whose prefix and paths are well formed and have no origin. -/
structure Relative (pre : Path) (list : SubscriptionList) : Prop where
  given : list.pathPrefix = some pre
  prefixOrigin : pre.origin = []
  prefixValid : (validateGnmiPath pre).isOk = true
  origin : ∀ sub ∈ list.subscription, sub.path.origin = []
  valid : ∀ sub ∈ list.subscription, (validateGnmiPath sub.path).isOk = true

/-! ## Nothing under a joined path -/

/-- The registered prefixes occur in a declared path at its beginning only, with or
without the predicates. -/
theorem roots_begin : ∀ key ∈ sensorPaths ++ configPaths, ∀ root ∈ [sensorPrefix, configPrefix],
    findSub root (key.drop 1) = none ∧ findSub root ((stripKeys key).drop 1) = none := by
  decide +kernel

theorem not_behind {front root text : Str} {c : Char} (missing : findSub root (text.drop 1) = none) :
    ¬ c :: front ++ root <+: text := by
  intro behind
  cases text with
  | nil => cases List.prefix_nil.mp behind
  | cons d text =>
      have later : front ++ root <+: text := (List.cons_prefix_cons.mp behind).2
      rcases later with ⟨rest, rfl⟩
      have occurs : root <+: (front ++ root ++ rest).drop front.length := by
        rw [List.append_assoc, List.drop_left]
        exact List.prefix_append root rest
      exact findSub_none missing front.length occurs

/-- A path that a provider owns selects no stored leaf behind a prefix with elements. -/
theorem joined_selects_nothing {pre path : Path} (prefixOrigin : pre.origin = [])
    (origin : path.origin = []) (some_ : pre.elem ≠ []) (owned : registry.owns (gnmiToXpath path) = true)
    {key : Str} (listed : key ∈ sensorPaths ++ configPaths) :
    selects (stripPathQuotes (gnmiToXpath (joined pre path))) key = false := by
  have root : ∃ root ∈ [sensorPrefix, configPrefix], root <+: stripPathQuotes (gnmiToXpath path) := by
    rw [registry_owns, Bool.or_eq_true] at owned
    rcases owned with toSensor | toConfig
    · exact ⟨sensorPrefix, List.mem_cons_self, starts_of_isPathPrefix toSensor⟩
    · exact ⟨configPrefix, List.mem_cons_of_mem _ List.mem_cons_self, starts_of_isPathPrefix toConfig⟩
  rcases root with ⟨root, isRoot, begins⟩
  rcases exists_cons_of_elements prefixOrigin some_ with ⟨rest, front⟩
  have behind : '/' :: rest ++ root <+: stripPathQuotes (gnmiToXpath (joined pre path)) := by
    rw [gnmiToXpath_joined prefixOrigin origin, stripPathQuotes_append, front,
      List.prefix_append_right_inj]
    exact begins
  have absent := roots_begin key listed root isRoot
  cases selected : selects (stripPathQuotes (gnmiToXpath (joined pre path))) key with
  | false => rfl
  | true =>
      rcases prefix_of_selects behind selected with inKey | inBare
      · exact absurd inKey (not_behind absent.1)
      · exact absurd inBare (not_behind absent.2)

/-! ## The builds -/

/-- No subscription of the list selects a stored leaf. -/
def NothingSelected (found : Nat -> Stores) (list : SubscriptionList) : Prop :=
  ∀ i sub, list.subscription[i]? = some sub -> ∀ key leaf,
    ¬ Selects (found i) (gnmiToXpath sub.path) key leaf

/-- A build reports nothing exactly if its subscriptions select nothing. -/
theorem build_silent_iff {found : Nat -> Stores} (valid : ∀ i, Invariant (found i)) (clock : Nat -> Int)
    {list : SubscriptionList} (buildable : Buildable registry list) :
    (¬ ∃ report, report ∈ reported (buildSubscribeNotifications registry found clock list).2) ↔
      NothingSelected found list := by
  have canonical := registry_serves.mergedReads_canonical valid list.subscription 0
  rw [build_of_buildable found clock buildable, exists_reported_prefixed]
  constructor
  · intro silent i sub listed key leaf selected
    rcases mergedReads_of_selected valid buildable listed selected with ⟨merged, read⟩
    refine silent ⟨(pathOf key, merged.val), ?_⟩
    exact (mem_reported_buildFull registry_atomicLaw.within canonical clock _ _).mpr
      ⟨key, merged, read, rfl, rfl⟩
  · rintro nothing ⟨⟨path, value⟩, member⟩
    rcases (mem_reported_buildFull registry_atomicLaw.within canonical clock _ _).mp member with
      ⟨key, leaf, read, _, _⟩
    rcases firstRead_held valid read with ⟨i, sub, listed, selected⟩
    exact nothing i sub listed key leaf selected

section Lists

variable {pre : Path} {list : SubscriptionList}

theorem Relative.concatenated_valid (relative : Relative pre list) :
    ∀ sub ∈ (concatenated pre list).subscription, (validateGnmiPath sub.path).isOk = true := by
  intro sub member
  rcases List.mem_map.mp member with ⟨plain, listed, rfl⟩
  rw [joinedSub, validateGnmiPath_joined relative.prefixValid]
  exact relative.valid plain listed

/-- Behind a prefix with elements, paths that providers own select nothing. -/
theorem Relative.concatenated_nothing (relative : Relative pre list) (some_ : pre.elem ≠ [])
    (routed : ¬ Unrouted registry list) {found : Nat -> Stores} (valid : ∀ i, Invariant (found i)) :
    NothingSelected found (concatenated pre list) := by
  intro i sub listed key leaf selected
  rcases List.mem_map.mp (List.mem_of_getElem? listed) with ⟨plain, member, rfl⟩
  have owned : registry.owns (gnmiToXpath plain.path) = true := by
    cases owned : registry.owns (gnmiToXpath plain.path) with
    | true => rfl
    | false => exact absurd ⟨plain, member, owned⟩ routed
  have nothing := joined_selects_nothing relative.prefixOrigin (relative.origin plain member) some_ owned
    ((valid i).listed selected.1)
  exact absurd (selected.2.symm.trans nothing) (by decide)

/-- A prefix without elements leaves the answer as it is. -/
theorem Relative.same_of_no_elements (relative : Relative pre list) (noElements : pre.elem = [])
    (found : Nat -> Stores) (clock : Nat -> Int) :
    SameAnswer (buildSubscribeNotifications registry found clock list)
      (buildSubscribeNotifications registry found clock (concatenated pre list)) := by
  have unprefixed := concatenated_of_no_elements noElements list
  have same : Buildable registry (concatenated pre list) ↔ Buildable registry list := by
    rw [unprefixed]
    rfl
  rw [sameAnswer_iff found clock relative.valid relative.concatenated_valid, same]
  by_cases buildable : Buildable registry list
  · refine Or.inr ⟨buildable, buildable, fun report => ?_⟩
    rw [build_of_buildable found clock buildable, build_of_buildable found clock (same.mpr buildable),
      unprefixed]
    dsimp only
    have noNodes : prefixNodes list.pathPrefix = [] := by
      rw [relative.given, prefixNodes, Option.getD_some, Path.nodes, noElements, List.map_nil]
    rw [map_withRequestPrefix_none, reported, reported, List.flatMap_map]
    rw [List.flatMap_congr (fun n emitted => updatesOf_no_elements emitted noNodes)]
  · exact Or.inl ⟨buildable, buildable⟩

/-- When the two lists are answered alike. -/
def AnsweredAlike (found : Nat -> Stores) (pre : Path) (list : SubscriptionList) : Prop :=
  pre.elem = [] ∨ ¬ Encodable list.encoding ∨
    (Unrouted registry list ∧ Unrouted registry (concatenated pre list)) ∨
    (¬ Unrouted registry list ∧ ¬ Unrouted registry (concatenated pre list) ∧ NothingSelected found list)

theorem Relative.same_iff (relative : Relative pre list) {found : Nat -> Stores}
    (valid : ∀ i, Invariant (found i)) (clock : Nat -> Int) :
    SameAnswer (buildSubscribeNotifications registry found clock list)
        (buildSubscribeNotifications registry found clock (concatenated pre list)) ↔
      AnsweredAlike found pre list := by
  by_cases noElements : pre.elem = []
  · exact ⟨fun _ => Or.inl noElements, fun _ => relative.same_of_no_elements noElements found clock⟩
  · have status : Buildable registry list ↔ Encodable list.encoding ∧ ¬ Unrouted registry list :=
      buildable_iff relative.valid
    have joinedStatus : Buildable registry (concatenated pre list) ↔
        Encodable list.encoding ∧ ¬ Unrouted registry (concatenated pre list) :=
      buildable_iff relative.concatenated_valid
    -- the joined paths select nothing, so the answers agree if the given ones do not either
    have reports : Buildable registry list -> Buildable registry (concatenated pre list) ->
        ((∀ report,
            report ∈ reported (buildSubscribeNotifications registry found clock list).2 ↔
              report ∈ reported
                (buildSubscribeNotifications registry found clock (concatenated pre list)).2) ↔
          NothingSelected found list) := by
      intro buildable joinedBuildable
      have silent := (build_silent_iff valid clock joinedBuildable).mpr
        (relative.concatenated_nothing noElements (status.mp buildable).2 valid)
      rw [← build_silent_iff valid clock buildable]
      constructor
      · rintro same ⟨report, member⟩
        exact silent ⟨report, (same report).mp member⟩
      · intro alsoSilent report
        exact ⟨fun member => absurd ⟨report, member⟩ alsoSilent,
          fun member => absurd ⟨report, member⟩ silent⟩
    rw [sameAnswer_iff found clock relative.valid relative.concatenated_valid, AnsweredAlike,
      or_iff_right noElements]
    constructor
    · rintro (⟨refused, joinedRefused⟩ | ⟨buildable, joinedBuildable, same⟩)
      · by_cases encodable : Encodable list.encoding
        · have unrouted := not_not.mp (fun routed => refused (status.mpr ⟨encodable, routed⟩))
          have joinedUnrouted :=
            not_not.mp (fun routed => joinedRefused (joinedStatus.mpr ⟨encodable, routed⟩))
          exact Or.inr (Or.inl ⟨unrouted, joinedUnrouted⟩)
        · exact Or.inl encodable
      · exact Or.inr (Or.inr ⟨(status.mp buildable).2, (joinedStatus.mp joinedBuildable).2,
          (reports buildable joinedBuildable).mp same⟩)
    · rintro (notEncodable | ⟨unrouted, joinedUnrouted⟩ | ⟨routed, joinedRouted, nothing⟩)
      · exact Or.inl ⟨fun buildable => notEncodable (status.mp buildable).1,
          fun joinedBuildable => notEncodable (joinedStatus.mp joinedBuildable).1⟩
      · exact Or.inl ⟨fun buildable => (status.mp buildable).2 unrouted,
          fun joinedBuildable => (joinedStatus.mp joinedBuildable).2 joinedUnrouted⟩
      · by_cases encodable : Encodable list.encoding
        · have buildable := status.mpr ⟨encodable, routed⟩
          have joinedBuildable := joinedStatus.mpr ⟨encodable, joinedRouted⟩
          exact Or.inr ⟨buildable, joinedBuildable, (reports buildable joinedBuildable).mpr nothing⟩
        · exact Or.inl ⟨fun buildable => encodable (status.mp buildable).1,
            fun joinedBuildable => encodable (joinedStatus.mp joinedBuildable).1⟩

end Lists

/-! ## The stream modes and the ON_CHANGE queries -/

/-- TARGET_DEFINED is ON_CHANGE for the paths of the configuration provider and SAMPLE for
all others. -/
theorem registry_preferredMode (xpath : Str) :
    registry.preferredMode xpath =
      if DataProviderRegistry.matchesPrefix xpath configPrefix then .onChange else .sample := by
  unfold DataProviderRegistry.preferredMode
  rw [registry_routes, List.find?_cons, List.find?_cons, List.find?_nil]
  cases toSensor : DataProviderRegistry.matchesPrefix xpath sensorPrefix with
  | true =>
      rw [routes_exclusive toSensor]
      rfl
  | false =>
      cases toConfig : DataProviderRegistry.matchesPrefix xpath configPrefix with
      | true => rfl
      | false => rfl

/-- The subscription asks for ON_CHANGE, or leaves the mode to the configuration provider. -/
def Polled (sub : Subscription) : Prop :=
  sub.mode = .onChange ∨ (sub.mode = .targetDefined ∧
    DataProviderRegistry.matchesPrefix (gnmiToXpath sub.path) configPrefix = true)

theorem resolve_onChange_iff (sub : Subscription) :
    resolveStreamMode sub registry = .onChange ↔ Polled sub := by
  unfold resolveStreamMode Polled
  cases mode : sub.mode with
  | targetDefined =>
      dsimp only
      rw [registry_preferredMode]
      cases DataProviderRegistry.matchesPrefix (gnmiToXpath sub.path) configPrefix with
      | true => simp
      | false => simp
  | onChange => simp
  | sample => simp
  | unrecognized number => simp

/-- The queries a subscription adds to the ON_CHANGE bucket. -/
theorem addToBucket_queries (timing : StreamTiming Stores) (i : Nat) (buckets : Buckets)
    (sub : Subscription) :
    ((addToBucket registry timing i buckets sub).onChange.map OnChangeSub.query) =
      buckets.onChange.map OnChangeSub.query ++
        if resolveStreamMode sub registry = .onChange then [gnmiToXpath sub.path] else [] := by
  unfold addToBucket
  cases resolveStreamMode sub registry with
  | onChange => exact List.map_append
  | sample => exact (List.append_nil _).symm
  | targetDefined => exact (List.append_nil _).symm
  | unrecognized number => exact (List.append_nil _).symm

/-- The query is routed and selects a stored leaf. -/
def Reads (s : Stores) (query : Str) : Prop :=
  registry.owns query = true ∧ ∃ key leaf, Selects s query key leaf

theorem snapshot_eq_empty_iff {s : Stores} (inv : Invariant s) (query : Str) :
    (registry.snapshot s query).snap = ∅ ↔ ¬ Reads s query := by
  constructor
  · rintro empty ⟨owned, key, leaf, selected⟩
    have found := (snapshot_iff inv query key leaf).mpr ⟨owned, selected⟩
    rw [empty, Std.ExtTreeMap.getElem?_empty] at found
    cases found
  · intro unread
    apply Std.ExtTreeMap.ext_getElem?
    intro key
    rw [Std.ExtTreeMap.getElem?_empty]
    cases found : (registry.snapshot s query).snap[key]? with
    | none => rfl
    | some leaf =>
        have known := (snapshot_iff inv query key leaf).mp found
        exact absurd ⟨known.1, key, leaf, known.2⟩ unread

section Streams

variable {pre : Path} {sub : Subscription}

/-- The mode of a joined subscription. -/
theorem resolve_joined_iff (pre : Path) (sub : Subscription) :
    resolveStreamMode sub registry = resolveStreamMode (joinedSub pre sub) registry ↔
      sub.mode ≠ .targetDefined ∨
        DataProviderRegistry.matchesPrefix (gnmiToXpath sub.path) configPrefix =
          DataProviderRegistry.matchesPrefix (gnmiToXpath (joined pre sub.path)) configPrefix := by
  unfold resolveStreamMode joinedSub
  cases mode : sub.mode with
  | targetDefined =>
      dsimp only
      rw [registry_preferredMode, registry_preferredMode]
      cases DataProviderRegistry.matchesPrefix (gnmiToXpath sub.path) configPrefix <;>
        cases DataProviderRegistry.matchesPrefix (gnmiToXpath (joined pre sub.path)) configPrefix <;> simp
  | onChange => simp
  | sample => simp
  | unrecognized number => simp

/-- What a joined subscription polls. -/
theorem queries_joined_iff (prefixOrigin : pre.origin = []) (origin : sub.path.origin = [])
    (timing : StreamTiming Stores) (i : Nat) (buckets : Buckets) :
    (addToBucket registry timing i buckets sub).onChange.map OnChangeSub.query =
        (addToBucket registry timing i buckets (joinedSub pre sub)).onChange.map OnChangeSub.query ↔
      pre.elem = [] ∨ (¬ Polled sub ∧ ¬ Polled (joinedSub pre sub)) := by
  have path : (joinedSub pre sub).path = joined pre sub.path := rfl
  have different := gnmiToXpath_joined_eq_iff prefixOrigin origin
  rw [addToBucket_queries, addToBucket_queries, List.append_cancel_left_eq, path, ← resolve_onChange_iff,
    ← resolve_onChange_iff]
  by_cases noElements : pre.elem = []
  · rw [joinedSub_of_no_elements noElements, joined_of_no_elements noElements]
    exact ⟨fun _ => Or.inl noElements, fun _ => rfl⟩
  · by_cases polled : resolveStreamMode sub registry = .onChange
    · by_cases joinedPolled : resolveStreamMode (joinedSub pre sub) registry = .onChange
      · simp [polled, joinedPolled, different]
      · simp [polled, joinedPolled, noElements]
    · by_cases joinedPolled : resolveStreamMode (joinedSub pre sub) registry = .onChange
      · simp [polled, joinedPolled, noElements]
      · simp [polled, joinedPolled]

/-- What a query and its joined query read. -/
theorem reads_joined_iff (prefixOrigin : pre.origin = []) (origin : sub.path.origin = []) {s : Stores}
    (inv : Invariant s) :
    (registry.snapshot s (gnmiToXpath sub.path)).snap =
        (registry.snapshot s (gnmiToXpath (joined pre sub.path))).snap ↔
      pre.elem = [] ∨
        (¬ Reads s (gnmiToXpath sub.path) ∧ ¬ Reads s (gnmiToXpath (joined pre sub.path))) := by
  by_cases noElements : pre.elem = []
  · rw [joined_of_no_elements noElements]
    exact ⟨fun _ => Or.inl noElements, fun _ => rfl⟩
  · rw [or_iff_right noElements, ← snapshot_eq_empty_iff inv, ← snapshot_eq_empty_iff inv]
    constructor
    · intro same
      have unread : ¬ Reads s (gnmiToXpath sub.path) := by
        rintro ⟨owned, key, leaf, selected⟩
        have found := (snapshot_iff inv _ key leaf).mpr ⟨owned, selected⟩
        rw [same, snapshot_iff inv] at found
        have nothing := joined_selects_nothing prefixOrigin origin noElements owned
          (inv.listed selected.1)
        exact absurd (found.2.2.symm.trans nothing) (by decide)
      have empty := (snapshot_eq_empty_iff inv _).mpr unread
      exact ⟨empty, same.symm.trans empty⟩
    · rintro ⟨empty, joinedEmpty⟩
      exact empty.trans joinedEmpty.symm

end Streams

/-- A list with prefix against the list of the joined paths, which Get and Set look up:
when the builds answer alike, when a subscription polls the same ON_CHANGE query, when
that query reads the same leaves, and when the mode is the same. -/
theorem prefix_resolved_iff {pre : Path} {list : SubscriptionList} (relative : Relative pre list) :
    (∀ (found : Nat -> Stores) (clock : Nat -> Int), (∀ i, Reachable (found i)) ->
      (SameAnswer (buildSubscribeNotifications registry found clock list)
          (buildSubscribeNotifications registry found clock (concatenated pre list)) ↔
        AnsweredAlike found pre list)) ∧
      ∀ sub ∈ list.subscription,
        (Gnmi.Get.fullPath (some pre) sub.path = gnmiToXpath (joined pre sub.path) ∧
          ∀ request : SetRequest, request.pathPrefix = some pre ->
            Gnmi.Set.prefixXpath request ++ gnmiToXpath sub.path = gnmiToXpath (joined pre sub.path)) ∧
        (∀ (timing : StreamTiming Stores) (i : Nat) (buckets : Buckets),
          (addToBucket registry timing i buckets sub).onChange.map OnChangeSub.query =
              (addToBucket registry timing i buckets (joinedSub pre sub)).onChange.map OnChangeSub.query ↔
            pre.elem = [] ∨ (¬ Polled sub ∧ ¬ Polled (joinedSub pre sub))) ∧
        (∀ s, Reachable s ->
          ((registry.snapshot s (gnmiToXpath sub.path)).snap =
              (registry.snapshot s (gnmiToXpath (joined pre sub.path))).snap ↔
            pre.elem = [] ∨
              (¬ Reads s (gnmiToXpath sub.path) ∧ ¬ Reads s (gnmiToXpath (joined pre sub.path))))) ∧
        (resolveStreamMode sub registry = resolveStreamMode (joinedSub pre sub) registry ↔
          sub.mode ≠ .targetDefined ∨
            DataProviderRegistry.matchesPrefix (gnmiToXpath sub.path) configPrefix =
              DataProviderRegistry.matchesPrefix (gnmiToXpath (joined pre sub.path)) configPrefix) := by
  constructor
  · intro found clock reachable
    exact relative.same_iff (fun i => (reachable i).invariant) clock
  · intro sub member
    have origin := relative.origin sub member
    refine ⟨⟨get_fullPath_joined relative.prefixOrigin origin, ?_⟩, ?_, ?_, resolve_joined_iff pre sub⟩
    · exact fun request given => set_prefixXpath_joined given relative.prefixOrigin origin
    · exact queries_joined_iff relative.prefixOrigin origin
    · exact fun s reachable => reads_joined_iff relative.prefixOrigin origin reachable.invariant

/-! ## With the prefix of the configuration provider -/

/-- A path of the configuration provider without leaves, under the prefix `/system`. -/
def absentList : SubscriptionList where
  pathPrefix := some systemPrefix
  subscription := [{ path := { elem := [⟨"system".toList, .empty⟩, ⟨"absent".toList, .empty⟩] } }]

theorem absentList_relative : Relative systemPrefix absentList where
  given := rfl
  prefixOrigin := rfl
  prefixValid := by decide
  origin := by decide
  valid := by decide

theorem prefix_resolved_absent :
    SameAnswer (buildSubscribeNotifications registry (fun _ => initialStores 1 2) (fun _ => 0) absentList)
        (buildSubscribeNotifications registry (fun _ => initialStores 1 2) (fun _ => 0)
          (concatenated systemPrefix absentList)) ∧
      ∀ sub ∈ absentList.subscription,
        resolveStreamMode sub registry = resolveStreamMode (joinedSub systemPrefix sub) registry := by
  have resolved := prefix_resolved_iff absentList_relative
  constructor
  · refine (resolved.1 _ _ (fun _ => ⟨1, 2, [], rfl⟩)).mpr (Or.inr (Or.inr (Or.inr ⟨?_, ?_, ?_⟩)))
    · unfold Unrouted
      decide +kernel
    · unfold Unrouted
      decide +kernel
    · intro i sub listed key leaf selected
      have nothing : ∀ sub ∈ absentList.subscription, ∀ key ∈ sensorPaths ++ configPaths,
          selects (stripPathQuotes (gnmiToXpath sub.path)) key = false := by decide +kernel
      have absent := nothing sub (List.mem_of_getElem? listed) key
        ((initial_invariant 1 2).listed selected.1)
      exact absurd (selected.2.symm.trans absent) (by decide)
  · intro sub member
    refine (resolved.2 sub member).2.2.2.mpr (Or.inr ?_)
    rw [List.mem_singleton.mp member]
    decide +kernel

/-- The host name, cut into prefix and path. -/
def cutHostnameList : SubscriptionList where
  pathPrefix := some systemPrefix
  subscription := [{ path := { elem := hostnamePath.elem.tail } }]
  mode := .once

/-- The host name is refused as not implemented with the prefix, and answered without. -/
theorem prefix_not_resolved :
    Relative systemPrefix cutHostnameList ∧
      ¬ SameAnswer
          (buildSubscribeNotifications registry (fun _ => initialStores 1 2) (fun _ => 0) cutHostnameList)
          (buildSubscribeNotifications registry (fun _ => initialStores 1 2) (fun _ => 0)
            (concatenated systemPrefix cutHostnameList)) := by
  constructor
  · exact ⟨rfl, rfl, by decide, by decide, by decide⟩
  · intro same
    have refused : (buildSubscribeNotifications registry (fun _ => initialStores 1 2) (fun _ => 0)
        cutHostnameList).1.code = .unimplemented := by decide +kernel
    have answered : (buildSubscribeNotifications registry (fun _ => initialStores 1 2) (fun _ => 0)
        (concatenated systemPrefix cutHostnameList)).1.code = .ok := by decide +kernel
    have code := same.code
    rw [refused, answered] at code
    cases code

end Server
end PscMockServer
