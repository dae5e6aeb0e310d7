import PscMockServer.Gnmi.SubscribeEmit

namespace PscMockServer
namespace Gnmi

open Foundations Utils Backend

/-!
# The Get RPC

`get.cpp`.  Each path of a request takes its own snapshot: `found i` is the server
state in which the snapshot of path `i` is taken, `clock i` the clock readings of
its notifications.
-/

structure GetResponse where
  notification : List Notification := []
deriving DecidableEq

namespace Get

def matchesType (leaf : LeafType) (requested : DataType) : Bool :=
  match requested with
  | .config => decide (leaf = .config)
  | .state => decide (leaf = .state)
  | .operational => decide (leaf = .operational)
  | _ => true

def filterByDataType (snap : Snapshot) (type : DataType) : Snapshot :=
  if type = .all then snap else snap.filter (fun _ leaf => matchesType leaf.type type)

/-- The xpath of a path under an optional request prefix. -/
def fullPath (pre : Option Path) (path : Path) : Str :=
  match pre with
  | some pre => gnmiToXpath pre ++ gnmiToXpath path
  | none => gnmiToXpath path

def buildGetNotifications {σ : Type} (reg : DataProviderRegistry σ) (s : σ) (clock : Nat -> Int)
    (out : List Notification) (pre : Option Path) (path : Path) (encoding : Encoding)
    (type : DataType) : Status × List Notification :=
  if encoding ≠ .json ∧ encoding ≠ .jsonIetf then (⟨.unimplemented, encoding.name⟩, out)
  else
    let status := validateGnmiPath path
    if !status.isOk then (status, out)
    else
      let fullpath := fullPath pre path
      let res := reg.snapshot s fullpath
      if !res.routed then
        (⟨.unimplemented, "path not implemented: ".toList ++ fullpath⟩, out)
      else
        let snap := filterByDataType res.snap type
        if snap.isEmpty then (⟨.notFound, "path has no data: ".toList ++ fullpath⟩, out)
        else
          (Status.OK, out ++ (buildFullNotifications snap reg clock).map (withRequestPrefix pre))

def verifyGetRequest (request : GetRequest) : Status :=
  if request.encoding ≠ .json ∧ request.encoding ≠ .jsonIetf then
    ⟨.unimplemented, request.encoding.name⟩
  else if !request.type.isValid then ⟨.unimplemented, request.type.name⟩
  else if 0 < request.useModelsSize then ⟨.unimplemented, "use_models unsupported".toList⟩
  else if 0 < request.extensionSize then ⟨.unimplemented, "extension unsupported".toList⟩
  else Status.OK

/-- The loop of `run` over the request's paths, from path number `i` on. -/
def buildAll {σ : Type} (reg : DataProviderRegistry σ) (found : Nat -> σ) (clock : Nat -> Nat -> Int)
    (req : GetRequest) : List Path -> Nat -> List Notification -> Status × List Notification
  | [], _, out => (Status.OK, out)
  | path :: rest, i, out =>
      let result := buildGetNotifications reg (found i) (clock i) out req.pathPrefix path
        req.encoding req.type
      if result.1.isOk then buildAll reg found clock req rest (i + 1) result.2 else result

def run {σ : Type} (reg : DataProviderRegistry σ) (found : Nat -> σ) (clock : Nat -> Nat -> Int)
    (req : GetRequest) : Status × GetResponse :=
  let status := verifyGetRequest req
  if !status.isOk then (status, {})
  else
    let result := buildAll reg found clock req req.path 0 []
    (result.1, ⟨result.2⟩)

theorem filterByDataType_iff (snap : Snapshot) (type : DataType) (key : Str) (leaf : Leaf) :
    (filterByDataType snap type)[key]? = some leaf ↔
      snap[key]? = some leaf ∧ matchesType leaf.type type = true := by
  rw [filterByDataType]
  by_cases all : type = .all
  · rw [if_pos all, all]
    exact (and_iff_left rfl).symm
  · rw [if_neg all, OrdMap.filter_find]

/-! ## The outcomes of one path -/

section Outcomes

variable {σ : Type} (reg : DataProviderRegistry σ) (s : σ) (clock : Nat -> Int)
  (out : List Notification) (pre : Option Path) (path : Path) {encoding : Encoding} (type : DataType)

theorem build_unsupported (unsupported : encoding ≠ .json ∧ encoding ≠ .jsonIetf) :
    buildGetNotifications reg s clock out pre path encoding type =
      (⟨.unimplemented, encoding.name⟩, out) := by
  rw [buildGetNotifications, if_pos unsupported]

variable (supported : encoding = .json ∨ encoding = .jsonIetf)

include supported

theorem build_malformed (malformed : (validateGnmiPath path).isOk = false) :
    buildGetNotifications reg s clock out pre path encoding type = (validateGnmiPath path, out) := by
  have encoded : ¬ (encoding ≠ .json ∧ encoding ≠ .jsonIetf) :=
    fun both => supported.elim both.1 both.2
  rw [buildGetNotifications, if_neg encoded]
  dsimp only
  rw [malformed, Bool.not_false, if_pos rfl]

/-- A well-formed path, by the snapshot it finds. -/
theorem build_wellFormed (wellFormed : (validateGnmiPath path).isOk = true) :
    buildGetNotifications reg s clock out pre path encoding type =
      if reg.owns (fullPath pre path) = false then
        (⟨.unimplemented, "path not implemented: ".toList ++ fullPath pre path⟩, out)
      else if (filterByDataType (reg.snapshot s (fullPath pre path)).snap type).isEmpty then
        (⟨.notFound, "path has no data: ".toList ++ fullPath pre path⟩, out)
      else
        (Status.OK, out ++ (buildFullNotifications
          (filterByDataType (reg.snapshot s (fullPath pre path)).snap type) reg clock).map
            (withRequestPrefix pre)) := by
  have encoded : ¬ (encoding ≠ .json ∧ encoding ≠ .jsonIetf) :=
    fun both => supported.elim both.1 both.2
  rw [buildGetNotifications, if_neg encoded]
  dsimp only
  rw [wellFormed, Bool.not_true, if_neg Bool.false_ne_true, DataProviderRegistry.snapshot_routed]
  cases reg.owns (fullPath pre path) with
  | false => rw [Bool.not_false, if_pos rfl, if_pos rfl]
  | true => rw [Bool.not_true, if_neg Bool.false_ne_true, if_neg Bool.false_ne_true.symm]

end Outcomes

section Loop

variable {σ : Type} (reg : DataProviderRegistry σ)

/-- A path's notifications are added behind the ones already there. -/
theorem build_out (s : σ) (clock : Nat -> Int) (out : List Notification) (pre : Option Path)
    (path : Path) (encoding : Encoding) (type : DataType) :
    buildGetNotifications reg s clock out pre path encoding type =
      ((buildGetNotifications reg s clock [] pre path encoding type).1,
        out ++ (buildGetNotifications reg s clock [] pre path encoding type).2) := by
  unfold buildGetNotifications
  dsimp only
  split
  · rw [List.append_nil]
  · split
    · rw [List.append_nil]
    · split
      · rw [List.append_nil]
      · split
        · rw [List.append_nil]
        · rw [List.nil_append]

/-- The clock decides nothing but timestamps. -/
theorem build_status (s : σ) (clock other : Nat -> Int) (pre : Option Path) (path : Path)
    (encoding : Encoding) (type : DataType) :
    (buildGetNotifications reg s clock [] pre path encoding type).1 =
      (buildGetNotifications reg s other [] pre path encoding type).1 := by
  unfold buildGetNotifications
  dsimp only
  split
  · rfl
  · split
    · rfl
    · split
      · rfl
      · split <;> rfl

/-- The loop stops at the first path that fails; otherwise it adds each path's
notifications in order. -/
theorem buildAll_spec (found : Nat -> σ) (clock : Nat -> Nat -> Int) (req : GetRequest)
    (status : Nat -> Path -> Status)
    (isStatus : ∀ i path, status i path = (buildGetNotifications reg (found i) (clock i) []
      req.pathPrefix path req.encoding req.type).1)
    (paths : List Path) (i : Nat) (out : List Notification) :
    (buildAll reg found clock req paths i out).1 =
        firstError (paths.mapIdx (fun j path => status (i + j) path)) ∧
      ((buildAll reg found clock req paths i out).1.isOk = true ->
        ∃ groups : List (List Notification),
          (buildAll reg found clock req paths i out).2 = out ++ groups.flatten ∧
            List.Forall₂ (fun path notes => ∃ j, (status j path).isOk = true ∧
              notes = (buildGetNotifications reg (found j) (clock j) [] req.pathPrefix path
                req.encoding req.type).2) paths groups) := by
  induction paths generalizing i out with
  | nil => exact ⟨rfl, fun _ => ⟨[], (List.append_nil out).symm, List.Forall₂.nil⟩⟩
  | cons path rest inductionHypothesis =>
      have shift : (fun j path => status (i + (j + 1)) path) = fun j path => status (i + 1 + j) path := by
        funext j path
        rw [Nat.add_right_comm, Nat.add_assoc]
      rw [buildAll, List.mapIdx_cons, firstError_cons, Nat.add_zero, shift, build_out, ← isStatus]
      cases okay : (status i path).isOk with
      | false =>
          refine ⟨rfl, fun impossible => ?_⟩
          rw [if_neg Bool.false_ne_true] at impossible
          exact absurd (okay.symm.trans impossible) Bool.false_ne_true
      | true =>
          rw [if_pos rfl, if_pos rfl]
          have later := inductionHypothesis (i + 1) (out ++ (buildGetNotifications reg (found i)
            (clock i) [] req.pathPrefix path req.encoding req.type).2)
          refine ⟨later.1, fun allOkay => ?_⟩
          rcases later.2 allOkay with ⟨groups, whole, each⟩
          refine ⟨_ :: groups, ?_, List.Forall₂.cons ⟨i, okay, rfl⟩ each⟩
          rw [whole, List.flatten_cons, List.append_assoc]

/-- A path either fails without notifications or is answered from its snapshot. -/
theorem build_cases (s : σ) (clock : Nat -> Int) (pre : Option Path) (path : Path) (encoding : Encoding)
    (type : DataType) :
    let built := buildGetNotifications reg s clock [] pre path encoding type
    built.1.isOk = false ∧ built.2 = [] ∨
      reg.owns (fullPath pre path) = true ∧ built.1.isOk = true ∧
        built.2 = (buildFullNotifications
          (filterByDataType (reg.snapshot s (fullPath pre path)).snap type) reg clock).map
            (withRequestPrefix pre) := by
  intro built
  by_cases supported : encoding = .json ∨ encoding = .jsonIetf
  · cases wellFormed : (validateGnmiPath path).isOk with
    | false =>
        have outcome : built = _ := build_malformed reg s clock [] pre path type supported wellFormed
        rw [outcome]
        exact Or.inl ⟨wellFormed, rfl⟩
    | true =>
        have outcome : built = _ := build_wellFormed reg s clock [] pre path type supported wellFormed
        rw [outcome]
        cases owned : reg.owns (fullPath pre path) with
        | false => exact Or.inl ⟨rfl, rfl⟩
        | true =>
            rw [if_neg Bool.false_ne_true.symm]
            split
            · exact Or.inl ⟨rfl, rfl⟩
            · exact Or.inr ⟨rfl, rfl, List.nil_append _⟩
  · have outcome : built = _ := build_unsupported reg s clock [] pre path type (not_or.mp supported)
    rw [outcome]
    exact Or.inl ⟨rfl, rfl⟩

/-- Every notification of the answer belongs to one of the paths. -/
theorem mem_buildAll {found : Nat -> σ} {clock : Nat -> Nat -> Int} {req : GetRequest}
    {paths : List Path} {i : Nat} {out : List Notification} {n : Notification}
    (emitted : n ∈ (buildAll reg found clock req paths i out).2) :
    n ∈ out ∨ ∃ j path, paths[j]? = some path ∧ n ∈ (buildGetNotifications reg (found (i + j))
      (clock (i + j)) [] req.pathPrefix path req.encoding req.type).2 := by
  induction paths generalizing i out with
  | nil => exact Or.inl emitted
  | cons path rest inductionHypothesis =>
      rw [buildAll, build_out] at emitted
      have own : n ∈ out ++ (buildGetNotifications reg (found i) (clock i) [] req.pathPrefix path
          req.encoding req.type).2 -> n ∈ out ∨ ∃ j other, (path :: rest)[j]? = some other ∧
            n ∈ (buildGetNotifications reg (found (i + j)) (clock (i + j)) [] req.pathPrefix other
              req.encoding req.type).2 := by
        intro member
        exact (List.mem_append.mp member).imp_right (fun here => ⟨0, path, rfl, here⟩)
      dsimp only at emitted
      split at emitted
      · rcases inductionHypothesis emitted with earlier | ⟨j, other, listed, member⟩
        · exact own earlier
        · rw [Nat.add_right_comm] at member
          exact Or.inr ⟨j + 1, other, listed, member⟩
      · exact own emitted

/-- An answer without failure has the notifications of every path. -/
theorem buildAll_complete {found : Nat -> σ} {clock : Nat -> Nat -> Int} {req : GetRequest}
    {paths : List Path} {i : Nat} {out : List Notification}
    (okay : (buildAll reg found clock req paths i out).1.isOk = true) :
    (∀ n ∈ out, n ∈ (buildAll reg found clock req paths i out).2) ∧
      ∀ j path, paths[j]? = some path ->
        let built := buildGetNotifications reg (found (i + j)) (clock (i + j)) [] req.pathPrefix path
          req.encoding req.type
        built.1.isOk = true ∧ ∀ n ∈ built.2, n ∈ (buildAll reg found clock req paths i out).2 := by
  induction paths generalizing i out with
  | nil => exact ⟨fun n member => member, fun j path impossible => nomatch impossible⟩
  | cons path rest inductionHypothesis =>
      rw [buildAll, build_out] at okay ⊢
      dsimp only at okay ⊢
      by_cases here : (buildGetNotifications reg (found i) (clock i) [] req.pathPrefix path
          req.encoding req.type).1.isOk = true
      · rw [if_pos here] at okay ⊢
        have later := inductionHypothesis okay
        refine ⟨fun n member => later.1 n (List.mem_append_left _ member), fun j other listed => ?_⟩
        cases j with
        | zero =>
            cases listed
            exact ⟨here, fun n member => later.1 n (List.mem_append_right out member)⟩
        | succ j =>
            have known := later.2 j other listed
            rw [Nat.add_right_comm i 1 j] at known
            exact known
      · rw [if_neg here] at okay
        exact absurd okay here

end Loop

end Get

end Gnmi
end PscMockServer
