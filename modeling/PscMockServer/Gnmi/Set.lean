import PscMockServer.Backend.DataProvider

namespace PscMockServer
namespace Gnmi

open Foundations Utils Backend

/-!
# The Set RPC

`set.cpp`.  The validation phase is the list of its checks in request order; each
check reads the registry when its turn comes.  `now` is the one clock reading of
the transaction.
-/

namespace Set

def checkWritable {σ : Type} (reg : DataProviderRegistry σ) (s : σ) (xpath : Str) : Status :=
  let wr := reg.writable s xpath
  if !wr.routed then ⟨.notFound, "path not found: ".toList ++ xpath⟩
  else if !wr.applied then ⟨.invalidArgument, "path is read-only: ".toList ++ xpath⟩
  else Status.OK

def validateWrite {σ : Type} (reg : DataProviderRegistry σ) (s : σ) (upd : Update) (pre : Str) :
    Status :=
  if upd.path.isNone || upd.val.isNone then
    ⟨.invalidArgument, "update missing path or value".toList⟩
  else checkWritable reg s (pre ++ gnmiToXpath upd.getPath)

/-- The xpath of the request prefix, empty without one. -/
def prefixXpath (request : SetRequest) : Str :=
  match request.pathPrefix with
  | some pre => gnmiToXpath pre
  | none => []

/-- Phase 1: the checks in spec order (delete, replace, update). -/
def checks {σ : Type} (reg : DataProviderRegistry σ) (request : SetRequest) : List (σ -> Status) :=
  let pre := prefixXpath request
  request.delete.map (fun delpath s => checkWritable reg s (pre ++ gnmiToXpath delpath)) ++
    request.replace.map (fun upd s => validateWrite reg s upd pre) ++
    request.update.map (fun upd s => validateWrite reg s upd pre)

/-- Phase 2: the one batch, in the same order. -/
def buildBatch (request : SetRequest) (now : Int) : WriteBatch :=
  let pre := prefixXpath request
  let write := fun (batch : WriteBatch) (upd : Update) =>
    batch.set (pre ++ gnmiToXpath upd.getPath) upd.getVal now
  let batch := request.delete.foldl (fun batch delpath => batch.remove (pre ++ gnmiToXpath delpath)) {}
  let batch := request.replace.foldl write batch
  request.update.foldl write batch

/-- The `UpdateResult`s added in phase 2. -/
def updateResults (request : SetRequest) : List UpdateResult :=
  request.delete.map (fun delpath => { path := delpath, op := .delete }) ++
    request.replace.map (fun upd => { path := upd.getPath, op := .replace }) ++
    request.update.map (fun upd => { path := upd.getPath, op := .update })

/-- The response once validation has passed. -/
def accepted (request : SetRequest) (now : Int) : SetResponse where
  pathPrefix := request.pathPrefix
  response := updateResults request
  timestamp := now

/-- The state after the call, the status and the response. -/
def run {σ : Type} (reg : DataProviderRegistry σ) (s : σ) (now : Int) (request : SetRequest) :
    σ × Status × SetResponse :=
  if 0 < request.extensionSize then
    (s, ⟨.unimplemented, "Extensions not implemented".toList⟩, {})
  else
    let status := firstError ((checks reg request).map (fun check => check s))
    if !status.isOk then (s, status, { pathPrefix := request.pathPrefix, timestamp := now })
    else ((reg.commit s (buildBatch request now)).1, Status.OK, accepted request now)

/-! ## The batch -/

/-- The ops of the batch: removals, then replacements, then updates. -/
def batchOps (request : SetRequest) (now : Int) : List WriteOp :=
  let pre := prefixXpath request
  let write := fun (upd : Update) =>
    ({ xpath := pre ++ gnmiToXpath upd.getPath, kind := .set, val := upd.getVal,
       collectedNs := now } : WriteOp)
  request.delete.map (fun delpath =>
      { xpath := pre ++ gnmiToXpath delpath, kind := .remove, val := .unset, collectedNs := 0 }) ++
    request.replace.map write ++ request.update.map write

private theorem removes_foldl (pre : Str) (paths : List Path) (batch : WriteBatch) :
    (paths.foldl (fun batch delpath => batch.remove (pre ++ gnmiToXpath delpath)) batch).ops =
      batch.ops ++ paths.map (fun delpath =>
        { xpath := pre ++ gnmiToXpath delpath, kind := .remove, val := .unset, collectedNs := 0 }) := by
  induction paths generalizing batch with
  | nil => rw [List.foldl_nil, List.map_nil, List.append_nil]
  | cons path paths inductionHypothesis =>
      rw [List.foldl_cons, inductionHypothesis, WriteBatch.remove, List.map_cons, List.append_assoc,
        List.singleton_append]

private theorem writes_foldl (pre : Str) (now : Int) (updates : List Update) (batch : WriteBatch) :
    (updates.foldl (fun batch upd =>
      batch.set (pre ++ gnmiToXpath upd.getPath) upd.getVal now) batch).ops =
      batch.ops ++ updates.map (fun upd =>
        { xpath := pre ++ gnmiToXpath upd.getPath, kind := .set, val := upd.getVal,
          collectedNs := now }) := by
  induction updates generalizing batch with
  | nil => rw [List.foldl_nil, List.map_nil, List.append_nil]
  | cons upd updates inductionHypothesis =>
      rw [List.foldl_cons, inductionHypothesis, WriteBatch.set, List.map_cons, List.append_assoc,
        List.singleton_append]

theorem buildBatch_ops (request : SetRequest) (now : Int) :
    (buildBatch request now).ops = batchOps request now := by
  rw [buildBatch, writes_foldl, writes_foldl, removes_foldl, List.nil_append, batchOps]

end Set

end Gnmi
end PscMockServer
