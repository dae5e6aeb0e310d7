import PscMockServer.Gnmi.Get
import PscMockServer.Server.Queries

namespace PscMockServer
namespace Server

open Foundations Gnmi Utils Backend Telemetry

/-!
# What Get answers

A Get request without prefix, on a reachable state of the server.  The status is the
one of its first failing path; the notifications of a path report the selected
leaves of the requested type, each once; and the requested types partition the
selected leaves, so that the configuration part is the writable part.
-/

/-- The leaf type a request type asks for. -/
def OfType (type : DataType) (leaf : Leaf) : Prop :=
  type = .all ∨ type = .config ∧ leaf.type = .config ∨ type = .state ∧ leaf.type = .state ∨
    type = .operational ∧ leaf.type = .operational

/-- The leaf is selected by the path and has the requested type. -/
def Requested (s : Stores) (path : Path) (type : DataType) (key : Str) (leaf : Leaf) : Prop :=
  Selects s (gnmiToXpath path) key leaf ∧ OfType type leaf

/-- Some element or key of the path has an empty name. -/
def Malformed (path : Path) : Prop :=
  ∃ elem ∈ path.elem, elem.name = [] ∨ ∃ entry ∈ elem.key.entries, entry.1 = []

/-- The status of one path of a request, when its snapshot finds the state `s`. -/
def pathStatus (s : Stores) (req : GetRequest) (path : Path) : Status :=
  (Gnmi.Get.buildGetNotifications registry s (fun _ => 0) [] req.pathPrefix path req.encoding
    req.type).1

/-! ## Types and names -/

theorem matchesType_iff {type : DataType} (valid : type.isValid = true) (leaf : Leaf) :
    Gnmi.Get.matchesType leaf.type type = true ↔ OfType type leaf := by
  rcases leaf with ⟨val, collectedNs, leafType⟩
  cases type <;> simp_all [Gnmi.Get.matchesType, OfType, DataType.isValid]

theorem validateGnmiPath_cases (path : Path) :
    (validateGnmiPath path).isOk = true ∧ ¬ Malformed path ∨
      (validateGnmiPath path).code = .invalidArgument ∧ Malformed path := by
  have element : ∀ elem : PathElem,
      (validateElem elem).isOk = true ∧ ¬ (elem.name = [] ∨ ∃ entry ∈ elem.key.entries, entry.1 = []) ∨
        (validateElem elem).code = .invalidArgument ∧
          (elem.name = [] ∨ ∃ entry ∈ elem.key.entries, entry.1 = []) := by
    intro elem
    rw [validateElem]
    by_cases noName : elem.name = []
    · exact Or.inr ⟨by simp [noName], Or.inl noName⟩
    · by_cases noKey : ∃ entry ∈ elem.key.entries, entry.1 = []
      · refine Or.inr ⟨?_, Or.inr noKey⟩
        have some_ : elem.key.entries.any (fun entry => entry.1.isEmpty) = true := by
          rw [List.any_eq_true]
          exact noKey.imp (fun entry known => ⟨known.1, List.isEmpty_iff.mpr known.2⟩)
        simp [noName, some_]
      · refine Or.inl ⟨?_, fun either => either.elim noName noKey⟩
        have none_ : elem.key.entries.any (fun entry => entry.1.isEmpty) = false := by
          rw [List.any_eq_false]
          exact fun entry member empty => noKey ⟨entry, member, List.isEmpty_iff.mp empty⟩
        simp [noName, none_, Status.isOk, Status.OK]
  rw [validateGnmiPath, Malformed]
  induction path.elem with
  | nil =>
      refine Or.inl ⟨rfl, ?_⟩
      rintro ⟨elem, member, _⟩
      exact absurd member List.not_mem_nil
  | cons elem elems inductionHypothesis =>
      rw [List.map_cons, firstError_cons]
      simp only [List.mem_cons, exists_eq_or_imp]
      rcases element elem with ⟨okay, fine⟩ | ⟨bad, broken⟩
      · rw [if_pos okay]
        rcases inductionHypothesis with ⟨restOkay, restFine⟩ | ⟨restBad, restBroken⟩
        · exact Or.inl ⟨restOkay, fun either => either.elim fine restFine⟩
        · exact Or.inr ⟨restBad, Or.inr restBroken⟩
      · have failed : ¬ (validateElem elem).isOk = true := by simp [Status.isOk, bad]
        rw [if_neg failed]
        exact Or.inr ⟨bad, Or.inl broken⟩

/-! ## One path -/

variable {s : Stores}

/-- The requested leaves of a path, as the code's filtered snapshot. -/
theorem requested_iff (inv : Invariant s) {path : Path} (owned : registry.owns (gnmiToXpath path) = true)
    {type : DataType} (valid : type.isValid = true) (key : Str) (leaf : Leaf) :
    (Gnmi.Get.filterByDataType (registry.snapshot s (gnmiToXpath path)).snap type)[key]? = some leaf ↔
      Requested s path type key leaf := by
  rw [Gnmi.Get.filterByDataType_iff, matchesType_iff valid, snapshot_iff inv, Requested]
  exact and_congr_left (fun _ => and_iff_right owned)

/-- The four outcomes of one path, in the order the code tests them. -/
theorem buildGetNotifications_cases (inv : Invariant s) (clock : Nat -> Int) (out : List Notification)
    (path : Path) {encoding : Encoding} (supported : encoding = .json ∨ encoding = .jsonIetf)
    {type : DataType} (valid : type.isValid = true) :
    let result := Gnmi.Get.buildGetNotifications registry s clock out none path encoding type
    result.1.code = .invalidArgument ∧ Malformed path ∨
      result.1.code = .unimplemented ∧ ¬ Malformed path ∧
          registry.owns (gnmiToXpath path) = false ∨
      result.1.code = .notFound ∧ ¬ Malformed path ∧ registry.owns (gnmiToXpath path) = true ∧
          (¬ ∃ key leaf, Requested s path type key leaf) ∨
      result.1 = Status.OK ∧ ¬ Malformed path ∧ registry.owns (gnmiToXpath path) = true ∧
          (∃ key leaf, Requested s path type key leaf) ∧
          result.2 = out ++ buildFullNotifications
            (Gnmi.Get.filterByDataType (registry.snapshot s (gnmiToXpath path)).snap type) registry clock := by
  intro result
  rcases validateGnmiPath_cases path with ⟨okay, fine⟩ | ⟨bad, broken⟩
  · have outcome : result = _ :=
      Gnmi.Get.build_wellFormed registry s clock out none path type supported okay
    rw [outcome, Gnmi.Get.fullPath]
    cases owned : registry.owns (gnmiToXpath path) with
    | false => exact Or.inr (Or.inl ⟨rfl, fine, rfl⟩)
    | true =>
        rw [if_neg Bool.false_ne_true.symm]
        have leaves := requested_iff inv owned valid
        cases empty : (Gnmi.Get.filterByDataType
            (registry.snapshot s (gnmiToXpath path)).snap type).isEmpty with
        | true =>
            refine Or.inr (Or.inr (Or.inl ⟨rfl, fine, rfl, ?_⟩))
            rintro ⟨key, leaf, requested⟩
            have present := OrdMap.isEmpty_eq_false_of_find ((leaves key leaf).mpr requested)
            rw [empty] at present
            cases present
        | false =>
            rcases OrdMap.exists_find_of_not_isEmpty empty with ⟨key, leaf, found⟩
            refine Or.inr (Or.inr (Or.inr ⟨rfl, fine, rfl,
              ⟨key, leaf, (leaves key leaf).mp found⟩, ?_⟩))
            rw [if_neg Bool.false_ne_true, map_withRequestPrefix_none]
  · have failed : (validateGnmiPath path).isOk = false := by simp [Status.isOk, bad]
    have outcome : result = (validateGnmiPath path, out) :=
      Gnmi.Get.build_malformed registry s clock out none path type supported failed
    rw [outcome]
    exact Or.inl ⟨bad, broken⟩

/-- What the notifications of one path report. -/
structure Answers (s : Stores) (path : Path) (type : DataType) (notes : List Notification) : Prop where
  once : ((reported notes).map Prod.fst).Nodup
  exact : ∀ nodes value, (nodes, value) ∈ reported notes ↔
    ∃ key leaf, Requested s path type key leaf ∧ nodes = pathOf key ∧ value = leaf.val
  noDelete : ∀ n ∈ notes, n.delete = []

theorem pathStatus_eq (s : Stores) {req : GetRequest} (path : Path) (clock : Nat -> Int) :
    pathStatus s req path = (Gnmi.Get.buildGetNotifications registry s clock [] req.pathPrefix path
      req.encoding req.type).1 :=
  Gnmi.Get.build_status registry s (fun _ => 0) clock req.pathPrefix path req.encoding req.type

/-- A path without failure is answered. -/
theorem answers_of_ok (inv : Invariant s) (clock : Nat -> Int) (path : Path) {encoding : Encoding}
    (supported : encoding = .json ∨ encoding = .jsonIetf) {type : DataType}
    (valid : type.isValid = true)
    (okay : (Gnmi.Get.buildGetNotifications registry s clock [] none path encoding type).1.isOk = true) :
    Answers s path type
      (Gnmi.Get.buildGetNotifications registry s clock [] none path encoding type).2 := by
  rw [Status.isOk, decide_eq_true_eq] at okay
  rcases buildGetNotifications_cases inv clock [] path supported valid with
    ⟨bad, _⟩ | ⟨bad, _⟩ | ⟨bad, _⟩ | ⟨_, _, owned, _, notes⟩
  · rw [bad] at okay
    cases okay
  · rw [bad] at okay
    cases okay
  · rw [bad] at okay
    cases okay
  · have canonical : CanonicalKeys (Gnmi.Get.filterByDataType
        (registry.snapshot s (gnmiToXpath path)).snap type) := by
      intro key leaf found
      exact inv.holds_canonical ((requested_iff inv owned valid key leaf).mp found).1.1
    have law := registry_atomicLaw.within
    rw [notes, List.nil_append]
    constructor
    · rw [((reported_buildFull law canonical clock).map Prod.fst).nodup_iff]
      exact entryReport_nodup canonical
    · intro nodes value
      rw [mem_reported_buildFull law canonical clock]
      simp only [requested_iff inv owned valid]
    · exact fun n member => deletes_buildFull member

/-- What verification guarantees to the build of each path. -/
theorem supported_of_verified {req : GetRequest}
    (verified : (Gnmi.Get.verifyGetRequest req).isOk = true) :
    (req.encoding = .json ∨ req.encoding = .jsonIetf) ∧ req.type.isValid = true := by
  rw [Gnmi.Get.verifyGetRequest] at verified
  by_cases unsupported : req.encoding ≠ .json ∧ req.encoding ≠ .jsonIetf
  · rw [if_pos unsupported] at verified
    exact absurd verified Bool.false_ne_true
  · rw [if_neg unsupported] at verified
    have supported : req.encoding = .json ∨ req.encoding = .jsonIetf := by
      by_contra neither
      exact unsupported (not_or.mp neither)
    cases valid : req.type.isValid with
    | true => exact ⟨supported, rfl⟩
    | false =>
        rw [valid, Bool.not_false, if_pos rfl] at verified
        exact absurd verified Bool.false_ne_true

/-! ## The types partition the selected leaves -/

theorem Requested.all_iff (path : Path) (key : Str) (leaf : Leaf) :
    Requested s path .all key leaf ↔ Selects s (gnmiToXpath path) key leaf := by
  rw [Requested]
  exact and_iff_left (Or.inl rfl)

/-- Leaves of one atomic container have one type. -/
theorem container_type (inv : Invariant s) {key other container : Str} {leaf otherLeaf : Leaf}
    (holds : Holds s key leaf) (otherHolds : Holds s other otherLeaf)
    (answered : registry.atomicPrefix key = some container)
    (otherAnswered : registry.atomicPrefix other = some container) : leaf.type = otherLeaf.type := by
  rw [inv.contained_config holds answered, inv.contained_config otherHolds otherAnswered]

/-- No leaf has two types. -/
theorem Requested.disjoint {path : Path} {first second : DataType} (firstNotAll : first ≠ .all)
    (secondNotAll : second ≠ .all) (different : first ≠ second) {key : Str} {leaf : Leaf}
    (requested : Requested s path first key leaf) : ¬ Requested s path second key leaf := by
  intro alsoRequested
  have ofFirst := requested.2.resolve_left firstNotAll
  have ofSecond := alsoRequested.2.resolve_left secondNotAll
  rcases ofFirst with ⟨isFirst, type⟩ | ⟨isFirst, type⟩ | ⟨isFirst, type⟩ <;>
    rcases ofSecond with ⟨isSecond, otherType⟩ | ⟨isSecond, otherType⟩ | ⟨isSecond, otherType⟩ <;>
      simp_all

/-- Every stored leaf is of type config or operational. -/
theorem Requested.all_split (inv : Invariant s) (path : Path) (key : Str) (leaf : Leaf) :
    Requested s path .all key leaf ↔ Requested s path .config key leaf ∨
      Requested s path .state key leaf ∨ Requested s path .operational key leaf := by
  rw [Requested.all_iff]
  constructor
  · intro selected
    rcases inv.holds_listed selected.1 with ⟨_, operational⟩ | ⟨_, config⟩
    · exact Or.inr (Or.inr ⟨selected, by simp [OfType, operational]⟩)
    · exact Or.inl ⟨selected, by simp [OfType, config]⟩
  · rintro (requested | requested | requested)
    · exact requested.1
    · exact requested.1
    · exact requested.1

/-- The config leaves are the writable ones. -/
theorem Requested.config_iff (inv : Invariant s) (path : Path) (key : Str) (leaf : Leaf) :
    Requested s path .config key leaf ↔
      Requested s path .all key leaf ∧ (registry.writable s key).applied = true := by
  rw [Requested.all_iff, inv.writable_applied_iff, Requested]
  refine and_congr_right (fun selected => ?_)
  rw [(inv.holds_canonical selected.1).strip]
  rcases inv.holds_listed selected.1 with ⟨listed, operational⟩ | ⟨listed, config⟩
  · have elsewhere : key ∉ configPaths := by
      intro alsoListed
      have apart := sensorPaths_apart key listed
      exact apart.1 ((List.prefix_append _ _).trans (configPaths_routed key alsoListed))
    simp [OfType, operational, elsewhere]
  · simp [OfType, config, listed]

/-- A type filter keeps or drops the selected leaves of a container together. -/
theorem Requested.container_together (inv : Invariant s) {path : Path} {key other container : Str}
    {leaf otherLeaf : Leaf} (requested : Requested s path .all key leaf)
    (otherRequested : Requested s path .all other otherLeaf)
    (answered : registry.atomicPrefix key = some container)
    (otherAnswered : registry.atomicPrefix other = some container) (type : DataType) :
    Requested s path type key leaf ↔ Requested s path type other otherLeaf := by
  have selected := (Requested.all_iff path key leaf).mp requested
  have otherSelected := (Requested.all_iff path other otherLeaf).mp otherRequested
  have same := container_type inv selected.1 otherSelected.1 answered otherAnswered
  simp only [Requested, selected, otherSelected, true_and, OfType, same]

/-- Get answers exactly the stored data of the requested type, with the status of
the first path that fails. -/
theorem get_answers {s : Stores} (reachable : Reachable s) (req : GetRequest)
    (noPrefix : req.pathPrefix = none) (verified : (Gnmi.Get.verifyGetRequest req).isOk = true)
    (clock : Nat -> Nat -> Int) :
    let answer := Gnmi.Get.run registry (fun _ => s) clock req
    answer.1 = firstError (req.path.map (pathStatus s req)) ∧
      (∀ path,
        ((pathStatus s req path).code = .invalidArgument ↔ Malformed path) ∧
        ((pathStatus s req path).code = .unimplemented ↔
          ¬ Malformed path ∧ registry.owns (gnmiToXpath path) = false) ∧
        ((pathStatus s req path).code = .notFound ↔
          ¬ Malformed path ∧ registry.owns (gnmiToXpath path) = true ∧
            ¬ ∃ key leaf, Requested s path req.type key leaf) ∧
        ((pathStatus s req path).code = .ok ↔
          ¬ Malformed path ∧ registry.owns (gnmiToXpath path) = true ∧
            ∃ key leaf, Requested s path req.type key leaf)) ∧
      (answer.1.isOk = true -> ∃ groups : List (List Notification),
        answer.2.notification = groups.flatten ∧
          List.Forall₂ (fun path notes => Answers s path req.type notes) req.path groups) ∧
      ∀ path key leaf,
        (Requested s path .config key leaf -> ¬ Requested s path .state key leaf) ∧
        (Requested s path .config key leaf -> ¬ Requested s path .operational key leaf) ∧
        (Requested s path .state key leaf -> ¬ Requested s path .operational key leaf) ∧
        (Requested s path .all key leaf ↔ Requested s path .config key leaf ∨
          Requested s path .state key leaf ∨ Requested s path .operational key leaf) ∧
        (Requested s path .config key leaf ↔
          Requested s path .all key leaf ∧ (registry.writable s key).applied = true) ∧
        ∀ other otherLeaf container, Requested s path .all key leaf ->
          Requested s path .all other otherLeaf -> registry.atomicPrefix key = some container ->
            registry.atomicPrefix other = some container ->
              (Requested s path req.type key leaf ↔ Requested s path req.type other otherLeaf) := by
  intro answer
  have inv := reachable.invariant
  rcases supported_of_verified verified with ⟨supported, valid⟩
  have run : answer = ((Gnmi.Get.buildAll registry (fun _ => s) clock req req.path 0 []).1,
      ⟨(Gnmi.Get.buildAll registry (fun _ => s) clock req req.path 0 []).2⟩) := by
    change Gnmi.Get.run registry (fun _ => s) clock req = _
    rw [Gnmi.Get.run, verified]
    rfl
  have loop := Gnmi.Get.buildAll_spec registry (fun _ => s) clock req (fun _ => pathStatus s req)
    (fun i path => pathStatus_eq s path (clock i)) req.path 0 []
  refine ⟨?_, ?_, ?_, ?_⟩
  · rw [run, loop.1]
    congr 1
    apply List.ext_getElem?
    intro i
    rw [List.getElem?_mapIdx, List.getElem?_map]
  · intro path
    have outcome := buildGetNotifications_cases inv (fun _ => 0) [] path supported valid
    rw [pathStatus, noPrefix]
    rcases outcome with ⟨code, malformed⟩ | ⟨code, fine, unowned⟩ | ⟨code, fine, owned, nothing⟩ |
      ⟨status, fine, owned, something, _⟩
    · simp [code, malformed]
    · simp [code, fine, unowned]
    · simp only [code, fine, owned, nothing]
      simp
    · simp only [status, Status.OK, fine, owned, something]
      simp
  · rw [run]
    intro okay
    rcases loop.2 okay with ⟨groups, whole, each⟩
    refine ⟨groups, whole, each.imp ?_⟩
    rintro path notes ⟨j, pathOkay, rfl⟩
    rw [pathStatus_eq s path (clock j), noPrefix] at pathOkay
    rw [noPrefix]
    exact answers_of_ok inv (clock j) path supported valid pathOkay
  · intro path key leaf
    refine ⟨?_, ?_, ?_, ?_, ?_, ?_⟩
    · exact Requested.disjoint (by decide) (by decide) (by decide)
    · exact Requested.disjoint (by decide) (by decide) (by decide)
    · exact Requested.disjoint (by decide) (by decide) (by decide)
    · exact Requested.all_split inv path key leaf
    · exact Requested.config_iff inv path key leaf
    · intro other otherLeaf container requested otherRequested answered otherAnswered
      exact Requested.container_together inv requested otherRequested answered otherAnswered req.type

/-- The configuration below `/system`. -/
def systemConfigRequest : GetRequest where
  path := [{ elem := [⟨"system".toList, .empty⟩] }]
  type := .config

theorem get_answers_systemConfig :
    ∃ groups : List (List Notification),
      (Gnmi.Get.run registry (fun _ => initialStores 1 2) (fun _ _ => 0) systemConfigRequest).2.notification =
          groups.flatten ∧
        List.Forall₂ (fun path notes => Answers (initialStores 1 2) path .config notes)
          systemConfigRequest.path groups := by
  have reachable : Reachable (initialStores 1 2) := ⟨1, 2, [], rfl⟩
  exact (get_answers reachable systemConfigRequest rfl rfl (fun _ _ => 0)).2.2.1 (by decide +kernel)

end Server
end PscMockServer
