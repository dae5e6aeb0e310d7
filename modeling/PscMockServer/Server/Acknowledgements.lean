import PscMockServer.Server.SetTransaction

namespace PscMockServer
namespace Server

open Foundations Gnmi Utils Backend

/-!
# What a Set acknowledges

A request carries four lists of operations.  The handler reads three of them: a request
that is otherwise acceptable is answered with OK whatever its `union_replace` holds, and
of that list nothing is applied and nothing is acknowledged.
-/

/-- An operation of a request, in the list it comes from. -/
inductive RequestedOp where
  | delete (path : Path)
  | replace (upd : Update)
  | update (upd : Update)
  | unionReplace (upd : Update)

/-- Every operation of a request, in the order in which they are to be applied. -/
def requestedOps (request : SetRequest) : List RequestedOp :=
  request.delete.map .delete ++ request.replace.map .replace ++ request.update.map .update ++
    request.unionReplace.map .unionReplace

namespace RequestedOp

/-- The result that acknowledges the operation. -/
def result : RequestedOp -> UpdateResult
  | .delete path => { path := path, op := .delete }
  | .replace upd => { path := upd.getPath, op := .replace }
  | .update upd => { path := upd.getPath, op := .update }
  | .unionReplace upd => { path := upd.getPath, op := .unionReplace }

/-- What the operation does to the configuration leaves.  Leaves are flat scalars, so each
kind of write puts its value at its path. -/
def carryOut (request : SetRequest) (timestamp : Int) (leaves : Snapshot) : RequestedOp -> Snapshot
  | .delete path => leaves.erase (targetKey request path)
  | .replace upd => putLeaf request timestamp leaves upd
  | .update upd => putLeaf request timestamp leaves upd
  | .unionReplace upd => putLeaf request timestamp leaves upd

/-- The kinds of operation that Set has code for. -/
def Supported : RequestedOp -> Prop
  | .unionReplace _ => False
  | _ => True

end RequestedOp

/-- A Set that answers OK has applied every operation in order and acknowledges each of
them, and an operation of a kind that is not supported makes it fail and change nothing. -/
structure AcknowledgesWhatItDid (stores : Stores) (now : Int) (request : SetRequest) : Prop where
  applied : (Gnmi.Set.run registry stores now request).2.1.isOk = true ->
    (Gnmi.Set.run registry stores now request).1 = { stores with
      config := { stores.config with
        store := ⟨(requestedOps request).foldl (RequestedOp.carryOut request now)
          stores.config.store.leaves⟩ } }
  acknowledged : (Gnmi.Set.run registry stores now request).2.1.isOk = true ->
    (Gnmi.Set.run registry stores now request).2.2.response = (requestedOps request).map RequestedOp.result
  refused : (∃ op ∈ requestedOps request, ¬ op.Supported) ->
    (Gnmi.Set.run registry stores now request).2.1.isOk = false ∧
      (Gnmi.Set.run registry stores now request).1 = stores

theorem exists_unsupported_iff (request : SetRequest) :
    (∃ op ∈ requestedOps request, ¬ op.Supported) ↔ request.unionReplace ≠ [] := by
  constructor
  · rintro ⟨op, member, unsupported⟩ none_
    rw [requestedOps, none_, List.map_nil, List.append_nil] at member
    rcases List.mem_append.mp member with early | updated
    · rcases List.mem_append.mp early with deleted | replaced
      · rcases List.mem_map.mp deleted with ⟨path, _, rfl⟩
        exact unsupported True.intro
      · rcases List.mem_map.mp replaced with ⟨upd, _, rfl⟩
        exact unsupported True.intro
    · rcases List.mem_map.mp updated with ⟨upd, _, rfl⟩
      exact unsupported True.intro
  · intro some_
    rcases List.exists_mem_of_ne_nil _ some_ with ⟨upd, member⟩
    exact ⟨.unionReplace upd, List.mem_append_right _ (List.mem_map_of_mem member), id⟩

/-- Without `union_replace` the operations are those Set applies and acknowledges. -/
theorem carryOut_eq_applyInOrder {request : SetRequest} (noUnion : request.unionReplace = [])
    (timestamp : Int) (leaves : Snapshot) :
    (requestedOps request).foldl (RequestedOp.carryOut request timestamp) leaves =
      applyInOrder request timestamp leaves := by
  rw [requestedOps, noUnion, List.map_nil, List.append_nil, List.foldl_append, List.foldl_append,
    List.foldl_map, List.foldl_map, List.foldl_map]
  rfl

theorem results_eq_updateResults {request : SetRequest} (noUnion : request.unionReplace = []) :
    (requestedOps request).map RequestedOp.result = Gnmi.Set.updateResults request := by
  rw [requestedOps, noUnion, List.map_nil, List.append_nil, List.map_append, List.map_append, List.map_map,
    List.map_map, List.map_map]
  rfl

/-- In a reachable state a Set acknowledges exactly what it did, unless it has operations
in `union_replace` and nothing else to refuse it for. -/
theorem set_acknowledges_iff {stores : Stores} (reachable : Reachable stores) (now : Int)
    (request : SetRequest) :
    AcknowledgesWhatItDid stores now request ↔
      request.unionReplace = [] ∨ 0 < request.extensionSize ∨ ¬ Acceptable request := by
  have inv := reachable.invariant
  have outcome := set_cases inv request now
  constructor
  · intro right
    by_contra bad
    rw [not_or, not_or, not_not] at bad
    rcases bad with ⟨union, noExtension, acceptable⟩
    have failed := (right.refused ((exists_unsupported_iff request).mpr union)).1
    rcases outcome with ⟨_, _, refused⟩ | ⟨_, _, done⟩
    · exact refused (Nat.eq_zero_of_not_pos noExtension) acceptable
    · rw [done] at failed
      cases failed
  · intro condition
    rcases outcome with ⟨failed, unchanged, _⟩ | ⟨noExtension, acceptable, done⟩
    · refine ⟨fun okay => ?_, fun okay => ?_, fun _ => ⟨failed, unchanged⟩⟩
      · exact absurd (failed.symm.trans okay) Bool.false_ne_true
      · exact absurd (failed.symm.trans okay) Bool.false_ne_true
    · have noUnion : request.unionReplace = [] := by
        rcases condition with noUnion | extended | refused
        · exact noUnion
        · exact absurd noExtension (Nat.pos_iff_ne_zero.mp extended)
        · exact absurd acceptable refused
      refine ⟨fun _ => ?_, fun _ => ?_, fun unsupported => ?_⟩
      · rw [done, carryOut_eq_applyInOrder noUnion, ← commitStamped_applyInOrder inv acceptable]
        rfl
      · rw [done, results_eq_updateResults noUnion]
        rfl
      · exact absurd noUnion ((exists_unsupported_iff request).mp unsupported)

theorem set_acknowledges_renameTwice : AcknowledgesWhatItDid (initialStores 1 2) 3 renameTwice :=
  (set_acknowledges_iff ⟨1, 2, [], rfl⟩ 3 renameTwice).mpr (Or.inl rfl)

/-- A request whose only operation is a `union_replace` of the host name. -/
def unionRename : SetRequest where
  unionReplace := [{ path := some hostnamePath, val := some (.stringVal "lost".toList) }]

/-- It is answered with OK, without a result, and the old name stays. -/
theorem union_replace_ignored :
    Reachable (initialStores 1 2) ∧
      (Gnmi.Set.run registry (initialStores 1 2) 3 unionRename).2.1 = Status.OK ∧
      (Gnmi.Set.run registry (initialStores 1 2) 3 unionRename).2.2.response = [] ∧
      (Gnmi.Set.run registry (initialStores 1 2) 3 unionRename).1 = initialStores 1 2 ∧
      ¬ AcknowledgesWhatItDid (initialStores 1 2) 3 unionRename := by
  have acceptable : Acceptable unionRename := by
    constructor
    · exact fun path member => nomatch member
    · exact fun upd member => nomatch member
  have reachable : Reachable (initialStores 1 2) := ⟨1, 2, [], rfl⟩
  have okay : (Gnmi.Set.run registry (initialStores 1 2) 3 unionRename).2.1.isOk = true := by decide +kernel
  refine ⟨reachable, by decide +kernel, by decide +kernel, by decide +kernel, fun right => ?_⟩
  have union : ∃ op ∈ requestedOps unionRename, ¬ op.Supported :=
    (exists_unsupported_iff unionRename).mpr (List.cons_ne_nil _ _)
  have failed := (right.refused union).1
  rw [okay] at failed
  cases failed

end Server
end PscMockServer
