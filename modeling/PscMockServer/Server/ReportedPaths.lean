import PscMockServer.Server.LastWrites
import PscMockServer.Telemetry.OnceAgrees

namespace PscMockServer

open Foundations Gnmi Utils Backend Telemetry

/-!
# Asking for what was reported

A client may take a path it was sent and ask for it.  Whatever message it builds for these
elements, with the keys of its maps in any order, it addresses the leaf that was reported,
and no declared leaf lies below another, so the answer is that leaf alone.
-/

namespace Utils

/-! ## Back to the elements -/

theorem keyMap_distinct (m : KeyMap) :
    m.entries.Pairwise (fun first second => ¬ compare first.1 second.1 = .eq) := by
  have keys := m.nodup
  rw [List.Nodup, List.pairwise_map] at keys
  exact keys.imp (fun different same => different (Std.LawfulEqOrd.eq_of_compare same))

theorem keyMap_length (m : KeyMap) : m.entries.length = m.toMap.size :=
  (Std.ExtTreeMap.size_ofList (keyMap_distinct m)).symm

/-- A map with at most one key has one enumeration. -/
theorem Segment.key_of_toMap (segment : Segment) {m : KeyMap} (same : m.toMap = segment.elem.key.toMap) :
    m = segment.elem.key := by
  have length := keyMap_length m
  rw [same] at length
  apply keyMap_ext
  cases keyed : segment.key with
  | none =>
      simp only [Segment.elem, keyed, empty_toMap, Std.ExtTreeMap.size_empty] at length ⊢
      exact List.length_eq_zero_iff.mp length
  | some entry =>
      simp only [Segment.elem, keyed, single_toMap, ← Std.ExtTreeMap.length_toList, toList_insert_empty]
        at length same ⊢
      rcases List.length_eq_one_iff.mp length with ⟨other, only⟩
      have stored : m.toMap[other.1]? = some other.2 :=
        Std.ExtTreeMap.getElem?_ofList_of_mem Std.ReflOrd.compare_self (keyMap_distinct m)
          (only ▸ List.mem_singleton_self other)
      rw [same, OrdMap.insert_find] at stored
      split at stored
      · next isKey =>
          rw [only]
          exact congrArg (fun entry => [entry]) (Prod.ext isKey.symm (Option.some.inj stored).symm)
      · rw [Std.ExtTreeMap.getElem?_empty] at stored
        cases stored

/-- A path with the nodes of a canonical xpath has its elements. -/
theorem elem_of_nodes {path : Path} {key : Str} (canonical : Canonical key) (same : path.nodes = pathOf key) :
    path.elem = (xpathToGnmiPath key {}).elem := by
  rcases canonical with ⟨segments, _, rfl⟩
  rw [pathOf_xpathOf, Path.nodes] at same
  rw [xpathToGnmiPath_xpathOf]
  apply List.ext_getElem?
  intro i
  have here := congrArg (fun nodes => nodes[i]?) same
  simp only [List.getElem?_map] at here ⊢
  cases atSegment : segments[i]? with
  | none =>
      rw [atSegment, Option.map_none, Option.map_eq_none_iff] at here
      exact here
  | some segment =>
      rw [atSegment, Option.map_some, Option.map_eq_some_iff] at here
      rcases here with ⟨elem, atElem, sameNode⟩
      have name : elem.name = segment.elem.name := congrArg Node.name sameNode
      have key : elem.key = segment.elem.key := segment.key_of_toMap (congrArg Node.key sameNode)
      rw [atElem, Option.map_some]
      cases elem
      cases name
      cases key
      rfl

end Utils

namespace Server

/-! ## Declared paths -/

def declaredPaths : List Str :=
  sensorPaths ++ configPaths

/-- The path of a declared leaf is valid, leads back to its leaf, belongs to a provider and
selects no other declared leaf. -/
theorem declaredPaths_answer : ∀ key ∈ declaredPaths,
    (validateGnmiPath (xpathToGnmiPath key {})).isOk = true ∧
      (xpathToGnmiPath key {}).origin = [] ∧
      stripPathQuotes (gnmiToXpath (xpathToGnmiPath key {})) = key ∧
      (isPathPrefix sensorPrefix key || isPathPrefix configPrefix key) = true ∧
      ∀ other ∈ declaredPaths, selects key other = true -> other = key := by
  decide +kernel

variable {s : Stores}

/-- A query for a declared leaf finds it alone. -/
theorem snapshot_of_leaf (inv : Invariant s) {key : Str} {leaf : Leaf} (holds : Holds s key leaf)
    {query : Str} (isKey : stripPathQuotes query = key) :
    registry.owns query = true ∧ (registry.snapshot s query).snap = (∅ : Snapshot).insert key leaf := by
  have listed : key ∈ declaredPaths := inv.listed holds
  rcases declaredPaths_answer key listed with ⟨_, _, _, routed, alone⟩
  have owned : registry.owns query = true := by
    rw [registry_owns, DataProviderRegistry.matchesPrefix, DataProviderRegistry.matchesPrefix, isKey]
    exact routed
  refine ⟨owned, ?_⟩
  apply Std.ExtTreeMap.ext_getElem?
  intro other
  apply Option.ext
  intro found
  rw [snapshot_iff inv, Selects, isKey, and_iff_right owned, OrdMap.insert_find, Std.ExtTreeMap.getElem?_empty]
  constructor
  · rintro ⟨otherHolds, selected⟩
    have same := alone other (inv.listed otherHolds) selected
    rw [same] at otherHolds
    rw [if_pos same.symm, ← (storedLeaf_iff inv key leaf).mpr holds]
    exact (storedLeaf_iff inv key found).mpr otherHolds
  · intro inserted
    split at inserted
    · next same =>
        cases inserted
        rw [← same]
        refine ⟨holds, ?_⟩
        rw [selects, if_pos ((isPathPrefix_iff key key).mpr (Or.inl rfl))]
    · cases inserted

/-- A path that denotes a declared leaf is valid and leads to this leaf. -/
theorem path_of_nodes {key : Str} (listed : key ∈ declaredPaths) {path : Path}
    (noOrigin : path.origin = []) (nodes : path.nodes = pathOf key) :
    (validateGnmiPath path).isOk = true ∧ stripPathQuotes (gnmiToXpath path) = key := by
  have canonical : Canonical key :=
    (List.mem_append.mp listed).elim (sensorPaths_canonical key) (configPaths_canonical key)
  have elems := elem_of_nodes canonical nodes
  rcases declaredPaths_answer key listed with ⟨valid, origin, back, _⟩
  constructor
  · rw [validateGnmiPath, elems, ← validateGnmiPath]
    exact valid
  · rw [gnmiToXpath_eq noOrigin, elems, ← gnmiToXpath_eq origin]
    exact back

/-- A Get of a stored leaf, by any path message for its elements. -/
theorem get_of_leaf (inv : Invariant s) {key : Str} {leaf : Leaf} (holds : Holds s key leaf)
    {req : GetRequest} {path : Path} (onePath : req.path = [path]) (noPrefix : req.pathPrefix = none)
    (verified : (Gnmi.Get.verifyGetRequest req).isOk = true) (noOrigin : path.origin = [])
    (nodes : path.nodes = pathOf key) (ofType : OfType req.type leaf) (clock : Nat -> Nat -> Int) :
    let answer := Gnmi.Get.run registry (fun _ => s) clock req
    answer.1 = Status.OK ∧ ∃ n, answer.2.notification = [n] ∧
      updatesOf n = [(pathOf key, leaf.val)] ∧ n.delete = [] := by
  intro answer
  rcases path_of_nodes (inv.listed holds) noOrigin nodes with ⟨wellFormed, isKey⟩
  have valid := (supported_of_verified verified).2
  have isQuery : stripPathQuotes (Gnmi.Get.fullPath req.pathPrefix path) = key := by
    rw [noPrefix]
    exact isKey
  have found := snapshot_of_leaf inv holds isQuery
  rcases get_of_single onePath verified wellFormed found.1 found.2 (inv.holds_canonical holds)
    ((matchesType_iff valid leaf).mpr ofType) clock with ⟨okay, n, whole, reports, deletes, _⟩
  rw [noPrefix] at whole
  rw [reported, List.flatMap_singleton] at reports
  exact ⟨okay, n, whole, reports, deletes⟩

theorem exists_of_forall₂ {α β : Type} {P : α -> β -> Prop} {first : List α} {second : List β}
    (each : List.Forall₂ P first second) {y : β} (member : y ∈ second) : ∃ x ∈ first, P x y := by
  induction each with
  | nil => cases member
  | cons here _ inductionHypothesis =>
      rcases List.mem_cons.mp member with rfl | later
      · exact ⟨_, List.mem_cons_self, here⟩
      · rcases inductionHypothesis later with ⟨x, listed, holds⟩
        exact ⟨x, List.mem_cons_of_mem _ listed, holds⟩

/-- Every report can be asked for.  In any reachable state, take what an accepted Get without
prefix reports, and ask by a path without origin and with the reported elements, its maps
enumerated in any order, for all data or for data of the type of the first request: the answer
is OK and one notification that reports the same value at the same path, and nothing else. -/
theorem reports_are_answered {s : Stores} (reachable : Reachable s) {req : GetRequest}
    (noPrefix : req.pathPrefix = none) (clock : Nat -> Nat -> Int)
    (okay : (Gnmi.Get.run registry (fun _ => s) clock req).1.isOk = true) :
    ∀ report ∈ reported (Gnmi.Get.run registry (fun _ => s) clock req).2.notification,
      ∀ (again : GetRequest) (path : Path) (later : Nat -> Nat -> Int), again.path = [path] ->
        again.pathPrefix = none -> (Gnmi.Get.verifyGetRequest again).isOk = true -> path.origin = [] ->
        path.nodes = report.1 -> (again.type = .all ∨ again.type = req.type) ->
        let answer := Gnmi.Get.run registry (fun _ => s) later again
        answer.1 = Status.OK ∧ ∃ n, answer.2.notification = [n] ∧ updatesOf n = [report] ∧ n.delete = [] := by
  have inv := reachable.invariant
  have verified : (Gnmi.Get.verifyGetRequest req).isOk = true := by
    by_contra refused
    rw [Bool.not_eq_true] at refused
    rw [Gnmi.Get.run, refused, Bool.not_false, if_pos rfl] at okay
    exact absurd (refused.symm.trans okay) Bool.false_ne_true
  intro report reports again path later onePath againNoPrefix againVerified noOrigin nodes type
  rcases (get_answers reachable req noPrefix verified clock).2.2.1 okay with ⟨groups, whole, each⟩
  rw [whole, reported_flatten, List.mem_flatMap] at reports
  rcases reports with ⟨notes, isGroup, inNotes⟩
  rcases exists_of_forall₂ each isGroup with ⟨asked, _, answers⟩
  rcases (answers.exact report.1 report.2).mp inNotes with ⟨key, leaf, ⟨selected, ofType⟩, isPath, isValue⟩
  have isReport : report = (pathOf key, leaf.val) := Prod.ext isPath isValue
  rw [isReport] at nodes ⊢
  have againType : OfType again.type leaf := by
    rcases type with all | same
    · exact Or.inl all
    · rw [same]
      exact ofType
  exact get_of_leaf inv selected.1 onePath againNoPrefix againVerified noOrigin nodes againType later

/-- The host name, reported beside the other configuration and asked for alone. -/
theorem reports_are_answered_hostname :
    let answer := Gnmi.Get.run registry (fun _ => beforeRename) (fun _ _ => 9) { path := [hostnamePath] }
    answer.1 = Status.OK ∧ ∃ n, answer.2.notification = [n] ∧
      updatesOf n = [(hostnamePath.nodes, .stringVal "psc-mock".toList)] ∧ n.delete = [] := by
  have okay : (Gnmi.Get.run registry (fun _ => beforeRename) (fun _ _ => 5) systemConfigRequest).1.isOk =
      true := by decide +kernel
  have reports : (hostnamePath.nodes, TypedValue.stringVal "psc-mock".toList) ∈ reported
      (Gnmi.Get.run registry (fun _ => beforeRename) (fun _ _ => 5) systemConfigRequest).2.notification := by
    decide +kernel
  exact reports_are_answered beforeRename_reachable rfl (fun _ _ => 5) okay _ reports
    { path := [hostnamePath] } hostnamePath (fun _ _ => 9) rfl rfl rfl rfl rfl (Or.inl rfl)

end Server
end PscMockServer
