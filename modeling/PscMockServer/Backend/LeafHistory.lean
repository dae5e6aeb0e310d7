import PscMockServer.Backend.Selection
import PscMockServer.Gnmi.SubscribeEmit

namespace PscMockServer
namespace Backend

open Foundations Gnmi Utils

/-!
# The leaf store as a last-writer map

What a store holds after any sequence of commits is decided by the ops alone: for each
normalised path by the last op that addresses it.  The three readers of the store are
compared with each other and with what Subscribe emits.
-/

/-! ## Histories -/

/-- All ops of the batches, in order. -/
def historyOf (batches : List WriteBatch) : List WriteOp :=
  batches.flatMap WriteBatch.ops

/-- The last op that addresses the stored path. -/
def lastOp (ops : List WriteOp) (path : Str) : Option WriteOp :=
  (ops.filter (fun op => decide (stripPathQuotes op.xpath = path))).getLast?

/-- What an op leaves at its path: the leaf it sets, nothing when it removes. -/
def WriteOp.written (op : WriteOp) : Option Leaf :=
  match op.kind with
  | .set => some { val := op.val, collectedNs := op.collectedNs, type := op.type }
  | .remove => none

namespace LeafStore

/-- An empty store after the batches. -/
def afterBatches (batches : List WriteBatch) : LeafStore :=
  batches.foldl LeafStore.commit {}

theorem applyOp_find (leaves : Snapshot) (op : WriteOp) (path : Str) :
    (applyOp leaves op)[path]? =
      if stripPathQuotes op.xpath = path then op.written else leaves[path]? := by
  cases kind : op.kind with
  | set =>
      simp only [applyOp, WriteOp.written, kind]
      exact OrdMap.insert_find _ _ _ _
  | remove =>
      simp only [applyOp, WriteOp.written, kind]
      exact OrdMap.erase_find _ _ _

theorem applyOps_find (ops : List WriteOp) (leaves : Snapshot) (path : Str) :
    (ops.foldl applyOp leaves)[path]? =
      OrdMap.lastOf (fun op => stripPathQuotes op.xpath) WriteOp.written ops path (leaves[path]?) := by
  induction ops generalizing leaves with
  | nil => rfl
  | cons op ops inductionHypothesis =>
      rw [List.foldl_cons, inductionHypothesis, applyOp_find, OrdMap.lastOf_cons]

/-- Commits apply the history op by op. -/
theorem commits_leaves (batches : List WriteBatch) (store : LeafStore) :
    (batches.foldl LeafStore.commit store).leaves = (historyOf batches).foldl applyOp store.leaves := by
  induction batches generalizing store with
  | nil => rfl
  | cons batch batches inductionHypothesis =>
      have split : historyOf (batch :: batches) = batch.ops ++ historyOf batches := List.flatMap_cons
      rw [List.foldl_cons, inductionHypothesis, split, List.foldl_append]
      rfl

/-- Each path holds what the last op on it left there. -/
theorem afterBatches_find (batches : List WriteBatch) (path : Str) :
    (afterBatches batches).leaves[path]? = (lastOp (historyOf batches) path).bind WriteOp.written := by
  rw [afterBatches, commits_leaves, applyOps_find, OrdMap.lastOf_eq_getLast, lastOp,
    Std.ExtTreeMap.getElem?_empty]
  cases ((historyOf batches).filter (fun op => decide (stripPathQuotes op.xpath = path))).getLast? with
  | none => rfl
  | some op => rfl

theorem lastOp_addresses {ops : List WriteOp} {path : Str} {op : WriteOp}
    (last : lastOp ops path = some op) : stripPathQuotes op.xpath = path :=
  of_decide_eq_true (List.mem_filter.mp (List.mem_of_getLast? last)).2

/-- What is stored was stored under a normalised path. -/
theorem afterBatches_quoteFree (batches : List WriteBatch) {path : Str} {leaf : Leaf}
    (stored : (afterBatches batches).leaves[path]? = some leaf) : '"' ∉ path := by
  rw [afterBatches_find] at stored
  rcases Option.bind_eq_some_iff.mp stored with ⟨op, last, _⟩
  rw [← lastOp_addresses last]
  exact stripPathQuotes_quoteFree op.xpath

/-! ## The readers -/

/-- A query selects its own path. -/
theorem selects_self (path : Str) : selects path path = true := by
  have itself : isPathPrefix path path = true := (isPathPrefix_iff path path).mpr (Or.inl rfl)
  rw [selects, itself, if_pos rfl]

/-- The leaf of a path is the one its snapshot has there. -/
theorem get_eq_snapshot (store : LeafStore) (xpath : Str) :
    store.get xpath = (store.snapshot xpath)[stripPathQuotes xpath]? := by
  rw [snapshot_find, selects_self, if_pos rfl, get]

/-- `collect` appends what `emitSnapshot` writes of the snapshot, and says whether that is anything. -/
theorem collect_eq_emitSnapshot (store : LeafStore) (query : Str) (list : List Update) :
    store.collect query list =
      (list ++ (emitSnapshot (store.snapshot query) []).1,
        decide ((emitSnapshot (store.snapshot query) []).1 ≠ [])) := by
  have appended : (store.collect query list).1 = list ++ (emitSnapshot (store.snapshot query) []).1 := by
    rw [collect_eq, emitSnapshot_updates, List.nil_append]
    rfl
  refine Prod.ext appended ?_
  change decide (list.length < (store.collect query list).1.length) = _
  rw [appended, List.length_append, decide_eq_decide, Nat.lt_add_right_iff_pos]
  exact List.length_pos_iff

end LeafStore

/-- After any commits to an empty store: `get` answers with the last op on the path, what
is stored has no quotes, `collect` appends the updates Subscribe would emit for the
snapshot, and `get` and `snapshot` have the same leaf. -/
theorem leaf_store_last_writer (batches : List WriteBatch) :
    (∀ xpath : Str, (LeafStore.afterBatches batches).get xpath =
      (lastOp (historyOf batches) (stripPathQuotes xpath)).bind WriteOp.written) ∧
    (∀ (path : Str) (leaf : Leaf), (LeafStore.afterBatches batches).leaves[path]? = some leaf ->
      '"' ∉ path) ∧
    (∀ (query : Str) (list : List Update), (LeafStore.afterBatches batches).collect query list =
      (list ++ (emitSnapshot ((LeafStore.afterBatches batches).snapshot query) []).1,
        decide ((emitSnapshot ((LeafStore.afterBatches batches).snapshot query) []).1 ≠ []))) ∧
    ∀ xpath : Str, (LeafStore.afterBatches batches).get xpath =
      ((LeafStore.afterBatches batches).snapshot xpath)[stripPathQuotes xpath]? :=
  ⟨fun xpath => LeafStore.afterBatches_find batches (stripPathQuotes xpath),
    fun _ _ stored => LeafStore.afterBatches_quoteFree batches stored,
    fun query list => (LeafStore.afterBatches batches).collect_eq_emitSnapshot query list,
    fun xpath => (LeafStore.afterBatches batches).get_eq_snapshot xpath⟩

/-- A quoted spelling, overwritten and removed through an unquoted one. -/
example : (LeafStore.afterBatches
    [(({} : WriteBatch).set "/a[k=\"v\"]".toList (.intVal 1) 1).set "/a[k=v]".toList (.intVal 2) 2,
      ({} : WriteBatch).remove "/a[k=v]".toList]).get "/a[k=\"v\"]".toList = none := by
  decide +kernel

end Backend
end PscMockServer
