import PscMockServer.Telemetry.RequestPrefix

namespace PscMockServer
namespace Server

open Foundations Gnmi Utils Backend Telemetry

/-!
# Cutting absolute paths into prefix and remainder

Get and Set put the xpath of the request prefix before the xpath of each path.  Without
origins that is the xpath of the joined path, so a request with a prefix and the request
with the joined paths do the same, up to the prefix that Get copies onto what it sends.
-/

/-! ## The requests without prefix -/

/-- An update with its path joined to the prefix; an absent path stays absent. -/
def joinedUpdate (pre : Path) (upd : Update) : Update :=
  { upd with path := upd.path.map (joined pre) }

def absoluteSet (pre : Path) (request : SetRequest) : SetRequest :=
  { request with
    pathPrefix := none
    delete := request.delete.map (joined pre)
    replace := request.replace.map (joinedUpdate pre)
    update := request.update.map (joinedUpdate pre)
    unionReplace := request.unionReplace.map (joinedUpdate pre) }

namespace absoluteSet

variable (pre : Path) (request : SetRequest)

@[simp] theorem prefixXpath_nil : Gnmi.Set.prefixXpath (absoluteSet pre request) = [] := rfl

@[simp] theorem delete_eq : (absoluteSet pre request).delete = request.delete.map (joined pre) := rfl

@[simp] theorem replace_eq : (absoluteSet pre request).replace = request.replace.map (joinedUpdate pre) := rfl

@[simp] theorem update_eq : (absoluteSet pre request).update = request.update.map (joinedUpdate pre) := rfl

@[simp] theorem extensionSize_eq : (absoluteSet pre request).extensionSize = request.extensionSize := rfl

end absoluteSet

def absoluteGet (pre : Path) (request : GetRequest) : GetRequest :=
  { request with
    pathPrefix := none
    path := request.path.map (joined pre) }

/-- No path of the request that Set reads has an origin. -/
structure SetWithoutOrigins (request : SetRequest) : Prop where
  delete : ∀ path ∈ request.delete, path.origin = []
  replace : ∀ upd ∈ request.replace, ∀ path ∈ upd.path, path.origin = []
  update : ∀ upd ∈ request.update, ∀ path ∈ upd.path, path.origin = []

/-- A notification without the part of it that a request prefix determines. -/
def apartFromPrefix (n : Notification) : Notification :=
  if n.atomic then n else { n with pathPrefix := {} }

section Cuts

variable {σ : Type} (reg : DataProviderRegistry σ) {pre : Path} (prefixOrigin : pre.origin = [])

include prefixOrigin

/-! ## Set -/

theorem validateWrite_joined (s : σ) {upd : Update} (origin : ∀ path ∈ upd.path, path.origin = []) :
    Gnmi.Set.validateWrite reg s upd (gnmiToXpath pre) =
      Gnmi.Set.validateWrite reg s (joinedUpdate pre upd) [] := by
  rcases upd with ⟨path, val⟩
  cases path with
  | none => rfl
  | some path =>
      have xpath : gnmiToXpath (joined pre path) = gnmiToXpath pre ++ gnmiToXpath path :=
        gnmiToXpath_joined prefixOrigin (origin path rfl)
      simp only [Gnmi.Set.validateWrite, joinedUpdate, Update.getPath, Option.map_some, Option.getD_some,
        Option.isNone_some, xpath, List.nil_append]

/-- What is made of the deleted paths is the same. -/
theorem deletes_joined {β : Type} (make : Str -> β) {request : SetRequest}
    (origins : SetWithoutOrigins request) :
    request.delete.map (fun path => make (gnmiToXpath pre ++ gnmiToXpath path)) =
      request.delete.map (fun path => make ([] ++ gnmiToXpath (joined pre path))) := by
  apply List.map_congr_left
  intro path member
  rw [List.nil_append, gnmiToXpath_joined prefixOrigin (origins.delete path member)]

/-- The checks of both requests give the same statuses. -/
theorem checks_joined (s : σ) {request : SetRequest} (given : request.pathPrefix = some pre)
    (origins : SetWithoutOrigins request) :
    (Gnmi.Set.checks reg request).map (fun check => check s) =
      (Gnmi.Set.checks reg (absoluteSet pre request)).map (fun check => check s) := by
  have prefixXpath : Gnmi.Set.prefixXpath request = gnmiToXpath pre := by
    rw [Gnmi.Set.prefixXpath, given]
  simp only [Gnmi.Set.checks, prefixXpath, absoluteSet.prefixXpath_nil, absoluteSet.delete_eq,
    absoluteSet.replace_eq, absoluteSet.update_eq, List.map_append, List.map_map]
  congr 1
  · congr 1
    · exact deletes_joined prefixOrigin (Gnmi.Set.checkWritable reg s) origins
    · exact List.map_congr_left
        (fun upd member => validateWrite_joined reg prefixOrigin s (origins.replace upd member))
  · exact List.map_congr_left
      (fun upd member => validateWrite_joined reg prefixOrigin s (origins.update upd member))

omit prefixOrigin in
/-- An update that passes its check has a path. -/
theorem path_of_validateWrite {s : σ} {upd : Update} {xpath : Str}
    (passed : (Gnmi.Set.validateWrite reg s upd xpath).isOk = true) : ∃ path, upd.path = some path := by
  rcases upd with ⟨path, val⟩
  cases path with
  | none => cases passed
  | some path => exact ⟨path, rfl⟩

/-- Requests that pass their checks make the same batch. -/
theorem batch_joined {request : SetRequest} (now : Int) (given : request.pathPrefix = some pre)
    (origins : SetWithoutOrigins request)
    (paths : ∀ upd ∈ request.replace ++ request.update, ∃ path, upd.path = some path) :
    Gnmi.Set.buildBatch request now = Gnmi.Set.buildBatch (absoluteSet pre request) now := by
  have prefixXpath : Gnmi.Set.prefixXpath request = gnmiToXpath pre := by
    rw [Gnmi.Set.prefixXpath, given]
  have written : ∀ upd : Update, (∃ path, upd.path = some path) -> (∀ path ∈ upd.path, path.origin = []) ->
      gnmiToXpath pre ++ gnmiToXpath upd.getPath = [] ++ gnmiToXpath (joinedUpdate pre upd).getPath := by
    rintro ⟨_, val⟩ ⟨path, rfl⟩ origin
    exact (gnmiToXpath_joined prefixOrigin (origin path rfl)).symm
  have batches : ∀ first second : WriteBatch, first.ops = second.ops -> first = second :=
    fun first second same => congrArg WriteBatch.mk same
  apply batches
  rw [Gnmi.Set.buildBatch_ops, Gnmi.Set.buildBatch_ops]
  simp only [Gnmi.Set.batchOps, prefixXpath, absoluteSet.prefixXpath_nil, absoluteSet.delete_eq,
    absoluteSet.replace_eq, absoluteSet.update_eq, List.map_map]
  congr 1
  · congr 1
    · exact deletes_joined prefixOrigin
        (fun xpath => ({ xpath := xpath, kind := .remove, val := .unset, collectedNs := 0 } : WriteOp))
        origins
    · apply List.map_congr_left
      intro upd member
      rw [written upd (paths upd (List.mem_append_left _ member)) (origins.replace upd member)]
      rfl
  · apply List.map_congr_left
    intro upd member
    rw [written upd (paths upd (List.mem_append_right _ member)) (origins.update upd member)]
    rfl

/-- Set does the same with and without the cut. -/
theorem set_run_joined (s : σ) (now : Int) {request : SetRequest} (given : request.pathPrefix = some pre)
    (origins : SetWithoutOrigins request) :
    (Gnmi.Set.run reg s now request).1 = (Gnmi.Set.run reg s now (absoluteSet pre request)).1 ∧
      (Gnmi.Set.run reg s now request).2.1 = (Gnmi.Set.run reg s now (absoluteSet pre request)).2.1 := by
  have statuses := checks_joined reg prefixOrigin s given origins
  simp only [Gnmi.Set.run, absoluteSet.extensionSize_eq, ← statuses]
  by_cases extended : 0 < request.extensionSize
  · rw [if_pos extended, if_pos extended]
    exact ⟨rfl, rfl⟩
  · rw [if_neg extended, if_neg extended]
    cases okay : (firstError ((Gnmi.Set.checks reg request).map (fun check => check s))).isOk with
    | false => exact ⟨rfl, rfl⟩
    | true =>
        have passed := (firstError_isOk_iff _).mp okay
        have paths : ∀ upd ∈ request.replace ++ request.update, ∃ path, upd.path = some path := by
          intro upd member
          apply path_of_validateWrite reg
          apply passed
          apply List.mem_map.mpr
          refine ⟨fun s => Gnmi.Set.validateWrite reg s upd (Gnmi.Set.prefixXpath request), ?_, rfl⟩
          rcases List.mem_append.mp member with inReplace | inUpdate
          · exact List.mem_append_left _ (List.mem_append_right _ (List.mem_map_of_mem inReplace))
          · exact List.mem_append_right _ (List.mem_map_of_mem inUpdate)
        rw [batch_joined prefixOrigin now given origins paths]
        exact ⟨rfl, rfl⟩

/-! ## Get -/

omit prefixOrigin in
theorem apartFromPrefix_withRequestPrefix (n : Notification) :
    apartFromPrefix (withRequestPrefix (some pre) n) = apartFromPrefix n := by
  cases atomic : n.atomic with
  | true => rw [withRequestPrefix_of_atomic (some pre) atomic]
  | false =>
      simp only [withRequestPrefix, atomic, if_neg Bool.false_ne_true, apartFromPrefix]

/-- One path is answered alike. -/
theorem get_build_joined (s : σ) (clock : Nat -> Int) (prefixValid : (validateGnmiPath pre).isOk = true)
    {path : Path} (origin : path.origin = []) (encoding : Encoding) (type : DataType) :
    let cut := Gnmi.Get.buildGetNotifications reg s clock [] (some pre) path encoding type
    let whole := Gnmi.Get.buildGetNotifications reg s clock [] none (joined pre path) encoding type
    cut.1 = whole.1 ∧ cut.2.map apartFromPrefix = whole.2.map apartFromPrefix := by
  have xpath : Gnmi.Get.fullPath (some pre) path = Gnmi.Get.fullPath none (joined pre path) :=
    get_fullPath_joined prefixOrigin origin
  intro cut whole
  simp only [cut, whole, Gnmi.Get.buildGetNotifications, validateGnmiPath_joined prefixValid, xpath]
  split
  · exact ⟨rfl, rfl⟩
  · split
    · exact ⟨rfl, rfl⟩
    · split
      · exact ⟨rfl, rfl⟩
      · split
        · exact ⟨rfl, rfl⟩
        · refine ⟨rfl, ?_⟩
          rw [map_withRequestPrefix_none, List.nil_append, List.nil_append, List.map_map]
          exact List.map_congr_left (fun n _ => apartFromPrefix_withRequestPrefix n)

/-- The loop over the paths, with what it has collected so far. -/
theorem get_buildAll_joined (found : Nat -> σ) (clock : Nat -> Nat -> Int) {request : GetRequest}
    (given : request.pathPrefix = some pre) (prefixValid : (validateGnmiPath pre).isOk = true)
    (paths : List Path) (origins : ∀ path ∈ paths, path.origin = []) (i : Nat)
    {out other : List Notification} (collected : out.map apartFromPrefix = other.map apartFromPrefix) :
    let cut := Gnmi.Get.buildAll reg found clock request paths i out
    let whole := Gnmi.Get.buildAll reg found clock (absoluteGet pre request) (paths.map (joined pre)) i other
    cut.1 = whole.1 ∧ cut.2.map apartFromPrefix = whole.2.map apartFromPrefix := by
  induction paths generalizing i out other with
  | nil => exact ⟨rfl, collected⟩
  | cons path paths inductionHypothesis =>
      have here := get_build_joined reg prefixOrigin (found i) (clock i) prefixValid
        (origins path List.mem_cons_self) request.encoding request.type
      have together : (out ++ (Gnmi.Get.buildGetNotifications reg (found i) (clock i) [] (some pre) path
            request.encoding request.type).2).map apartFromPrefix =
          (other ++ (Gnmi.Get.buildGetNotifications reg (found i) (clock i) [] none (joined pre path)
            request.encoding request.type).2).map apartFromPrefix := by
        rw [List.map_append, List.map_append, collected, here.2]
      have later := inductionHypothesis (fun other member => origins other (List.mem_cons_of_mem path member))
        (i + 1) together
      simp only [List.map_cons, Gnmi.Get.buildAll, given, absoluteGet]
      rw [Gnmi.Get.build_out reg (found i) (clock i) out, Gnmi.Get.build_out reg (found i) (clock i) other,
        ← here.1]
      split
      · exact later
      · exact ⟨rfl, together⟩

/-- Get answers the same with and without the cut, but for the copied prefix. -/
theorem get_run_joined (found : Nat -> σ) (clock : Nat -> Nat -> Int) {request : GetRequest}
    (given : request.pathPrefix = some pre) (prefixValid : (validateGnmiPath pre).isOk = true)
    (origins : ∀ path ∈ request.path, path.origin = []) :
    (Gnmi.Get.run reg found clock request).1 = (Gnmi.Get.run reg found clock (absoluteGet pre request)).1 ∧
      (Gnmi.Get.run reg found clock request).2.notification.map apartFromPrefix =
        (Gnmi.Get.run reg found clock (absoluteGet pre request)).2.notification.map apartFromPrefix := by
  have verified : Gnmi.Get.verifyGetRequest (absoluteGet pre request) = Gnmi.Get.verifyGetRequest request := rfl
  have nothing : ([] : List Notification).map apartFromPrefix = ([] : List Notification).map apartFromPrefix :=
    rfl
  have answers := get_buildAll_joined reg prefixOrigin found clock given prefixValid request.path origins 0
    nothing
  simp only [Gnmi.Get.run, verified]
  split
  · exact ⟨rfl, rfl⟩
  · exact answers

end Cuts

/-- With a valid prefix and no origins, Set ends with the same status and stores, and Get
with the same status and, but for the prefix of what is not atomic, the same notifications,
however the absolute paths are cut. -/
theorem prefix_cut_ignored {σ : Type} (reg : DataProviderRegistry σ) (pre : Path)
    (prefixOrigin : pre.origin = []) (prefixValid : (validateGnmiPath pre).isOk = true) :
    (∀ (s : σ) (now : Int) (request : SetRequest), request.pathPrefix = some pre ->
      SetWithoutOrigins request ->
        (Gnmi.Set.run reg s now request).1 = (Gnmi.Set.run reg s now (absoluteSet pre request)).1 ∧
        (Gnmi.Set.run reg s now request).2.1 = (Gnmi.Set.run reg s now (absoluteSet pre request)).2.1) ∧
    ∀ (found : Nat -> σ) (clock : Nat -> Nat -> Int) (request : GetRequest),
      request.pathPrefix = some pre -> (∀ path ∈ request.path, path.origin = []) ->
        (Gnmi.Get.run reg found clock request).1 =
          (Gnmi.Get.run reg found clock (absoluteGet pre request)).1 ∧
        (Gnmi.Get.run reg found clock request).2.notification.map apartFromPrefix =
          (Gnmi.Get.run reg found clock (absoluteGet pre request)).2.notification.map apartFromPrefix :=
  ⟨fun s now _ given origins => set_run_joined reg prefixOrigin s now given origins,
    fun found clock _ given origins => get_run_joined reg prefixOrigin found clock given prefixValid origins⟩

/-- A new host name, cut after `/system`. -/
def cutRename : SetRequest where
  pathPrefix := some systemPrefix
  update := [{ path := some { elem := hostnamePath.elem.tail }, val := some (.stringVal "psc".toList) }]

theorem prefix_cut_ignored_hostname :
    (Gnmi.Set.run registry (initialStores 1 2) 3 cutRename).1 =
        (Gnmi.Set.run registry (initialStores 1 2) 3 (absoluteSet systemPrefix cutRename)).1 ∧
      (Gnmi.Get.run registry (fun _ => initialStores 1 2) (fun _ _ => 0) cutHostnameRequest).1 =
        (Gnmi.Get.run registry (fun _ => initialStores 1 2) (fun _ _ => 0)
          (absoluteGet systemPrefix cutHostnameRequest)).1 := by
  have ignored := prefix_cut_ignored registry systemPrefix rfl (by decide)
  have origins : SetWithoutOrigins cutRename := by
    constructor
    · exact fun path member => nomatch member
    · exact fun upd member => nomatch member
    · intro upd member path isPath
      rw [List.mem_singleton.mp member] at isPath
      cases isPath
      rfl
  exact ⟨(ignored.1 _ _ cutRename rfl origins).1,
    (ignored.2 _ _ cutHostnameRequest rfl (by decide)).1⟩

end Server
end PscMockServer
