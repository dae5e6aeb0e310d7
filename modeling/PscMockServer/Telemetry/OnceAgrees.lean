import PscMockServer.Telemetry.AbsolutePaths
import PscMockServer.Server.GetAnswers

namespace PscMockServer
namespace Telemetry

open Foundations Gnmi Utils Backend Gnmi.Subscribe Server

/-!
# Get and Subscribe ONCE agree

Get answers its paths one by one and fails on a path without data; ONCE merges what its
subscriptions read and stays silent on a path without data.  Path by path the two statuses
differ in nothing else, and the merge keeps every leaf that some path selects.
-/

/-- A Get of type ALL and a ONCE subscription to the same paths, both without prefix and in
an encoding the server has. -/
structure SameQuestion (req : GetRequest) (list : SubscriptionList) : Prop where
  paths : req.path = list.subscription.map Subscription.path
  all : req.type = .all
  once : list.mode = .once
  getPrefix : req.pathPrefix = none
  listPrefix : list.pathPrefix = none
  getEncoding : Encodable req.encoding
  listEncoding : Encodable list.encoding
  noModels : req.useModelsSize = 0
  noExtension : req.extensionSize = 0

/-- The answer of a Get and that of a ONCE subscription say the same. -/
structure Agree (answer : Status × GetResponse) (stream : Status × List Sent) : Prop where
  okay : answer.1.isOk = true -> stream.1 = Status.OK
  same : answer.1.isOk = true -> ∀ report,
    report ∈ reported answer.2.notification ↔ report ∈ reported (heard allSites stream.2)
  once : answer.1.isOk = true -> ((reported (heard allSites stream.2)).map Prod.fst).Nodup
  failed : answer.1.isOk = false -> answer.1.code ≠ .notFound -> stream.1.code = answer.1.code
  closed : stream.1.isOk = false -> answer.1.code = stream.1.code ∨ answer.1.code = .notFound

variable {req : GetRequest} {list : SubscriptionList} {s : Stores}

theorem SameQuestion.verified (asked : SameQuestion req list) :
    (Gnmi.Get.verifyGetRequest req).isOk = true := by
  rw [Gnmi.Get.verifyGetRequest, if_neg asked.getEncoding.not_refused, asked.all, asked.noModels,
    asked.noExtension]
  rfl

/-! ## The statuses -/

/-- A path has the status of a subscription to it, unless it has no data. -/
theorem pathStatus_or_notFound (s : Stores) (asked : SameQuestion req list) (sub : Subscription) :
    pathStatus s req sub.path = subStatus registry sub ∨ (pathStatus s req sub.path).code = .notFound := by
  unfold pathStatus subStatus
  rw [asked.getPrefix]
  cases wellFormed : (validateGnmiPath sub.path).isOk with
  | false =>
      rw [Gnmi.Get.build_malformed _ _ _ _ _ _ _ asked.getEncoding wellFormed]
      exact Or.inl rfl
  | true =>
      rw [Gnmi.Get.build_wellFormed _ _ _ _ _ _ _ asked.getEncoding wellFormed, Gnmi.Get.fullPath]
      cases registry.owns (gnmiToXpath sub.path) with
      | false => exact Or.inl rfl
      | true =>
          rw [if_neg Bool.false_ne_true.symm]
          split
          · exact Or.inr rfl
          · exact Or.inl rfl

/-- The first failures of two lists of checks, when a check of the first list fails where
that of the second does not only by finding no data. -/
theorem firstError_or_notFound {gets subs : List Status}
    (each : List.Forall₂ (fun get sub => get = sub ∨ get.code = .notFound) gets subs) :
    firstError gets = firstError subs ∨ (firstError gets).code = .notFound := by
  induction each with
  | nil => exact Or.inl rfl
  | @cons get sub _ _ here _ inductionHypothesis =>
      rw [firstError_cons, firstError_cons]
      rcases here with rfl | noData
      · split
        · exact inductionHypothesis
        · exact Or.inl rfl
      · have failed : ¬ get.isOk = true := by simp [Status.isOk, noData]
        rw [if_neg failed]
        exact Or.inr noData

theorem run_once (asked : SameQuestion req list) (timing : StreamTiming Stores)
    (messages : List (ClientMessage Stores)) :
    Gnmi.Subscribe.run registry timing messages { request := .subscribe list } =
      handleOnce registry timing.initialAt timing.initialClock list := by
  rw [Gnmi.Subscribe.run, if_neg (Nat.lt_irrefl 0)]
  dsimp only
  rw [asked.once]

/-- The status of a ONCE subscription does not depend on what is stored. -/
theorem handleOnce_status (asked : SameQuestion req list) (found : Nat -> Stores) (clock : Nat -> Int) :
    (handleOnce registry found clock list).1 = firstError (list.subscription.map (subStatus registry)) := by
  unfold handleOnce buildSubscribeNotifications
  rw [if_neg asked.listEncoding.not_refused]
  dsimp only
  rw [mergeLoop_status]
  cases okay : (firstError (list.subscription.map (subStatus registry))).isOk with
  | false =>
      rw [Bool.not_false, if_pos rfl, okay, Bool.not_false, if_pos rfl]
  | true =>
      rw [firstError_eq_OK okay]
      rfl

/-- Get ends like the subscription, or by finding no data. -/
theorem statuses_agree (reachable : Reachable s) (asked : SameQuestion req list)
    (clock : Nat -> Nat -> Int) (onceClock : Nat -> Int) :
    (Gnmi.Get.run registry (fun _ => s) clock req).1 =
        (handleOnce registry (fun _ => s) onceClock list).1 ∨
      (Gnmi.Get.run registry (fun _ => s) clock req).1.code = .notFound := by
  rw [(get_answers reachable req asked.getPrefix asked.verified clock).1, handleOnce_status asked,
    asked.paths, List.map_map]
  apply firstError_or_notFound
  rw [List.forall₂_map_left_iff, List.forall₂_map_right_iff, List.forall₂_same]
  exact fun sub _ => pathStatus_or_notFound s asked sub

/-! ## The reports -/

/-- The leaf is selected by one of the subscriptions. -/
def SelectedBySome (s : Stores) (list : SubscriptionList) (key : Str) (leaf : Leaf) : Prop :=
  ∃ sub ∈ list.subscription, Selects s (gnmiToXpath sub.path) key leaf

theorem exists_mem_congr {α β : Type} {P : α -> Prop} {Q : β -> Prop} {first : List α} {second : List β}
    (each : List.Forall₂ (fun x y => P x ↔ Q y) first second) :
    (∃ x ∈ first, P x) ↔ ∃ y ∈ second, Q y := by
  induction each with
  | nil => exact iff_of_false (fun none => nomatch none) (fun none => nomatch none)
  | cons here _ inductionHypothesis =>
      rw [List.exists_mem_cons_iff, List.exists_mem_cons_iff, here, inductionHypothesis]

theorem reported_flatten (groups : List (List Notification)) :
    reported groups.flatten = groups.flatMap reported := by
  rw [reported, ← List.flatMap_id, List.flatMap_assoc]
  rfl

/-- An answered Get reports what some path selects. -/
theorem get_reports (reachable : Reachable s) (asked : SameQuestion req list) (clock : Nat -> Nat -> Int)
    (okay : (Gnmi.Get.run registry (fun _ => s) clock req).1.isOk = true) (nodes : List Node)
    (value : TypedValue) :
    (nodes, value) ∈ reported (Gnmi.Get.run registry (fun _ => s) clock req).2.notification ↔
      ∃ key leaf, SelectedBySome s list key leaf ∧ nodes = pathOf key ∧ value = leaf.val := by
  obtain ⟨groups, whole, each⟩ :=
    (get_answers reachable req asked.getPrefix asked.verified clock).2.2.1 okay
  rw [asked.all, asked.paths, List.forall₂_map_left_iff] at each
  rw [whole, reported_flatten, List.mem_flatMap]
  have own : List.Forall₂ (fun sub notes =>
      (∃ key leaf, Selects s (gnmiToXpath sub.path) key leaf ∧ nodes = pathOf key ∧ value = leaf.val) ↔
        (nodes, value) ∈ reported notes) list.subscription groups := by
    refine each.imp (fun sub notes answers => ?_)
    rw [answers.exact]
    simp only [Requested.all_iff]
  rw [← exists_mem_congr own]
  constructor
  · rintro ⟨sub, listed, key, leaf, selected, known⟩
    exact ⟨key, leaf, ⟨sub, listed, selected⟩, known⟩
  · rintro ⟨key, leaf, ⟨sub, listed, selected⟩, known⟩
    exact ⟨sub, listed, key, leaf, selected, known⟩

/-- On one state the merged reads have exactly what some subscription selects. -/
theorem mergedReads_steady (inv : Invariant s) (buildable : Buildable registry list) (key : Str)
    (leaf : Leaf) :
    (mergedReads registry (fun _ => s) list.subscription 0 ∅)[key]? = some leaf ↔
      SelectedBySome s list key leaf := by
  have valid : ∀ _ : Nat, Invariant s := fun _ => inv
  constructor
  · intro read
    rcases firstRead_held valid read with ⟨i, sub, listed, selected⟩
    exact ⟨sub, List.mem_of_getElem? listed, selected⟩
  · rintro ⟨sub, listed, selected⟩
    rcases List.getElem?_of_mem listed with ⟨i, number⟩
    rcases mergedReads_of_selected valid buildable number selected with ⟨merged, read⟩
    rcases firstRead_held valid read with ⟨_, _, _, alsoSelected⟩
    -- both are the leaf stored at the key
    have stored := (storedLeaf_iff inv key leaf).mpr selected.1
    have alsoStored := (storedLeaf_iff inv key merged).mpr alsoSelected.1
    cases stored.symm.trans alsoStored
    exact read

/-- An atomic notification of a build, for which all subscriptions of the list are read and
merged, tells the whole truth exactly where the list as a whole selects every leaf of a
container of which it selects one. -/
theorem merged_records_whole_iff (inv : Invariant s) (buildable : Buildable registry list)
    (clock : Nat -> Int) :
    (∀ n ∈ (buildSubscribeNotifications registry (fun _ => s) clock list).2,
        n.atomic = true -> WholeTruth (storedLeaf s) n) ↔
      ∀ key leaf container, SelectedBySome s list key leaf -> registry.atomicPrefix key = some container ->
        ∀ other otherLeaf, Holds s other otherLeaf -> registry.atomicPrefix other = some container ->
          SelectedBySome s list other otherLeaf := by
  have merged := mergedReads_steady inv buildable
  have part : ∀ (key : Str) (leaf : Leaf),
      (mergedReads registry (fun _ => s) list.subscription 0 ∅)[key]? = some leaf ->
        storedLeaf s key = some leaf := by
    intro key leaf read
    rcases (merged key leaf).mp read with ⟨sub, _, selected⟩
    exact (storedLeaf_iff inv key leaf).mpr selected.1
  have prefixed : (∀ n ∈ (buildSubscribeNotifications registry (fun _ => s) clock list).2,
        n.atomic = true -> WholeTruth (storedLeaf s) n) ↔
      ∀ n ∈ buildFullNotifications (mergedReads registry (fun _ => s) list.subscription 0 ∅) registry clock,
        n.atomic = true -> WholeTruth (storedLeaf s) n := by
    rw [build_of_buildable _ _ buildable, List.forall_mem_map]
    refine forall₂_congr (fun n _ => ?_)
    rw [(withRequestPrefix_fields list.pathPrefix n).1]
    exact forall_congr' (fun atomic => by rw [withRequestPrefix_of_atomic _ atomic])
  rw [prefixed, wholeTruth_buildFull registry_atomicLaw (registry_serves.canonical inv) part clock]
  constructor
  · intro whole key leaf container selected isC other otherLeaf holds otherIsC
    have kept := whole key leaf container ((merged key leaf).mpr selected) isC other otherLeaf
      ((storedLeaf_iff inv other otherLeaf).mpr holds) otherIsC
    exact (merged other otherLeaf).mp kept
  · intro uncut key leaf container read isC other otherLeaf stored otherIsC
    apply (merged other otherLeaf).mpr
    exact uncut key leaf container ((merged key leaf).mp read) isC other otherLeaf
      ((storedLeaf_iff inv other otherLeaf).mp stored) otherIsC

/-- What an accepted ONCE subscription sends before its sync. -/
theorem heard_once (asked : SameQuestion req list) (buildable : Buildable registry list)
    (found : Nat -> Stores) (clock : Nat -> Int) :
    heard allSites (handleOnce registry found clock list).2 =
      buildFullNotifications (mergedReads registry found list.subscription 0 ∅) registry clock := by
  unfold handleOnce
  rw [build_of_buildable found clock buildable, asked.listPrefix, map_withRequestPrefix_none]
  dsimp only
  rw [if_neg (by decide), heard_append, heard_writeAll, heard_syncResponse, List.append_nil]
  exact if_pos rfl

/-- Get of type ALL and a ONCE subscription to the same paths agree on every reachable
state: where Get answers, the subscription reports the same leaves, each once, and they
fail alike but for paths without data. -/
theorem once_agrees_with_get {s : Stores} (reachable : Reachable s) {req : GetRequest}
    {list : SubscriptionList} (asked : SameQuestion req list) (clock : Nat -> Nat -> Int)
    (timing : StreamTiming Stores) (unchanged : ∀ i, timing.initialAt i = s)
    (messages : List (ClientMessage Stores)) :
    Agree (Gnmi.Get.run registry (fun _ => s) clock req)
      (Gnmi.Subscribe.run registry timing messages { request := .subscribe list }) := by
  have steady : timing.initialAt = fun _ => s := funext unchanged
  rw [run_once asked, steady]
  have statuses := statuses_agree reachable asked clock timing.initialClock
  have inv := reachable.invariant
  have okay : (Gnmi.Get.run registry (fun _ => s) clock req).1.isOk = true ->
      (handleOnce registry (fun _ => s) timing.initialClock list).1.isOk = true := by
    intro answered
    rcases statuses with same | noData
    · rw [← same]
      exact answered
    · rw [Status.isOk, noData] at answered
      cases answered
  have buildable : (Gnmi.Get.run registry (fun _ => s) clock req).1.isOk = true ->
      Buildable registry list := by
    intro answered
    have opened := okay answered
    rw [handleOnce_status asked, firstError_isOk_iff] at opened
    exact ⟨asked.listEncoding, fun sub member => opened _ (List.mem_map_of_mem member)⟩
  have canonical := registry_serves.mergedReads_canonical (fun _ : Nat => inv) list.subscription 0
  constructor
  · intro answered
    rw [handleOnce_status asked]
    exact firstError_eq_OK (handleOnce_status asked _ _ ▸ okay answered)
  · rintro answered ⟨nodes, value⟩
    rw [heard_once asked (buildable answered), mem_reported_buildFull registry_atomicLaw.within canonical,
      get_reports reachable asked clock answered]
    simp only [mergedReads_steady inv (buildable answered)]
  · intro answered
    rw [heard_once asked (buildable answered),
      ((reported_buildFull registry_atomicLaw.within canonical _).map Prod.fst).nodup_iff]
    exact entryReport_nodup canonical
  · intro _ otherwise
    exact congrArg Status.code (statuses.resolve_right otherwise).symm
  · intro _
    exact statuses.imp_left (congrArg Status.code)

/-- Everything below `/system`, and the host name once more. -/
def overlappingRequest : GetRequest where
  path := [{ elem := [⟨"system".toList, .empty⟩] }, hostnamePath]

def overlappingList : SubscriptionList where
  subscription := [{ path := { elem := [⟨"system".toList, .empty⟩] } }, { path := hostnamePath }]
  mode := .once

/-- The subscription reports the host name once. -/
theorem once_agrees_with_get_overlapping :
    (Gnmi.Subscribe.run registry (renameTiming beforeRename) []
        { request := .subscribe overlappingList }).1 = Status.OK ∧
      ((reported (heard allSites (Gnmi.Subscribe.run registry (renameTiming beforeRename) []
        { request := .subscribe overlappingList }).2)).map Prod.fst).Nodup := by
  have asked : SameQuestion overlappingRequest overlappingList :=
    ⟨rfl, rfl, rfl, rfl, rfl, Or.inl rfl, Or.inl rfl, rfl, rfl⟩
  have agree := once_agrees_with_get beforeRename_reachable asked (fun _ _ => 0)
    (renameTiming beforeRename) (fun _ => rfl) []
  have answered : (Gnmi.Get.run registry (fun _ => beforeRename) (fun _ _ => 0)
      overlappingRequest).1.isOk = true := by decide +kernel
  exact ⟨agree.okay answered, agree.once answered⟩

end Telemetry
end PscMockServer
