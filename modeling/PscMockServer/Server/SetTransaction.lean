import PscMockServer.Server.SchemaInvariant

namespace PscMockServer
namespace Server

open Foundations Gnmi Utils Backend

/-!
# Set is a transaction

The validation phase asks the registry, path by path, whether it may be written;
the apply phase commits one batch.  Under the invariant both are about the declared
configuration leaves: a batch over them is routed to the configuration provider as a
whole and stamped with type `Config`, so committing it is applying the operations in
request order.
-/

/-! ## The transaction -/

/-- A write of one update: its value, type `Config`, and the transaction time. -/
def putLeaf (request : SetRequest) (timestamp : Int) (leaves : Snapshot) (upd : Update) : Snapshot :=
  leaves.insert (targetKey request upd.getPath)
    { val := upd.getVal, collectedNs := timestamp, type := .config }

/-- All deletes, then all replaces, then all updates, in request order. -/
def applyInOrder (request : SetRequest) (timestamp : Int) (leaves : Snapshot) : Snapshot :=
  let deleted := request.delete.foldl (fun leaves path => leaves.erase (targetKey request path)) leaves
  let replaced := request.replace.foldl (putLeaf request timestamp) deleted
  request.update.foldl (putLeaf request timestamp) replaced

/-- What the request leaves at one key: the last write there, else nothing when the
key is deleted, else the old leaf. -/
def leafAfter (request : SetRequest) (timestamp : Int) (old : Option Leaf) (key : Str) : Option Leaf :=
  OrdMap.lastOf (fun upd => targetKey request upd.getPath)
    (fun upd => some { val := upd.getVal, collectedNs := timestamp, type := .config })
    (request.replace ++ request.update) key
    (if ∃ path ∈ request.delete, targetKey request path = key then none else old)

theorem applyInOrder_find (request : SetRequest) (timestamp : Int) (leaves : Snapshot) (key : Str) :
    (applyInOrder request timestamp leaves)[key]? = leafAfter request timestamp (leaves[key]?) key := by
  have erased : ∀ (paths : List Path) (leaves : Snapshot),
      (paths.foldl (fun leaves path => leaves.erase (targetKey request path)) leaves)[key]? =
        if ∃ path ∈ paths, targetKey request path = key then none else leaves[key]? := by
    intro paths
    induction paths with
    | nil => simp
    | cons path paths inductionHypothesis =>
        intro leaves
        rw [List.foldl_cons, inductionHypothesis, OrdMap.erase_find]
        simp only [List.mem_cons, exists_eq_or_imp]
        by_cases here : targetKey request path = key
        · simp [here]
        · simp [here]
  rw [applyInOrder, ← List.foldl_append, leafAfter, ← erased]
  exact OrdMap.insert_foldl_find _ _ _ _

/-- Committing the stamped batch is applying the operations in order. -/
theorem commitStamped_applyInOrder {s : Stores} (inv : Invariant s) {request : SetRequest}
    (acceptable : Acceptable request) (now : Int) :
    (s.config.commitStamped (Gnmi.Set.buildBatch request now)).store.leaves =
      applyInOrder request now s.config.store.leaves := by
  have isConfig : ∀ upd ∈ request.replace ++ request.update,
      s.config.schemaType (Gnmi.Set.prefixXpath request ++ gnmiToXpath upd.getPath) = .config := by
    intro upd member
    have listed := (declaredConfig_iff _).mp (acceptable.2 upd member).2.2
    have found := (config_schema_find 0 _ .config).mpr ⟨listed, rfl⟩
    rw [targetKey] at found
    rw [StoreBackedProvider.schemaType, inv.configSchema, found]
  have writes : ∀ (updates : List Update) (leaves : Snapshot),
      (∀ upd ∈ updates, upd ∈ request.replace ++ request.update) ->
      updates.foldl (fun leaves upd => LeafStore.applyOp leaves (s.config.stampOp
        { xpath := Gnmi.Set.prefixXpath request ++ gnmiToXpath upd.getPath, kind := .set,
          val := upd.getVal, collectedNs := now })) leaves =
        updates.foldl (putLeaf request now) leaves := by
    intro updates leaves within
    apply List.foldl_ext
    intro leaves upd member
    simp only [StoreBackedProvider.stampOp, LeafStore.applyOp, isConfig upd (within upd member)]
    rfl
  simp only [StoreBackedProvider.commitStamped, LeafStore.commit, List.foldl_map,
    Gnmi.Set.buildBatch_ops, Gnmi.Set.batchOps, List.foldl_append]
  rw [writes _ _ (fun upd member => List.mem_append_left _ member),
    writes _ _ (fun upd member => List.mem_append_right _ member)]
  rfl

/-- A Set returns OK exactly on an acceptable request; otherwise nothing changes.
When it does, the configuration leaves are the old ones with the operations applied
in order, nothing else changes, and the response lists the operations. -/
theorem set_is_transaction {stores : Stores} (reachable : Reachable stores) (request : SetRequest)
    (now : Int) (noExtension : request.extensionSize = 0) :
    let result := Gnmi.Set.run registry stores now request
    (result.2.1.isOk = true ↔ Acceptable request) ∧
      (result.2.1.isOk = false -> result.1 = stores) ∧
      (result.2.1.isOk = true ->
        result.1 = { stores with
          config := { stores.config with
            store := ⟨applyInOrder request result.2.2.timestamp stores.config.store.leaves⟩ } } ∧
        (∀ key : Str, result.1.config.store.leaves[key]? =
          leafAfter request result.2.2.timestamp (stores.config.store.leaves[key]?) key) ∧
        result.2.2.response =
          request.delete.map (fun path => { path := path, op := .delete }) ++
            request.replace.map (fun upd => { path := upd.getPath, op := .replace }) ++
            request.update.map (fun upd => { path := upd.getPath, op := .update })) := by
  intro result
  have inv := reachable.invariant
  rcases set_cases inv request now with ⟨failed, unchanged, refused⟩ | ⟨_, acceptable, done⟩
  · refine ⟨⟨fun okay => ?_, fun acceptable => absurd acceptable (refused noExtension)⟩,
      fun _ => unchanged, fun okay => ?_⟩
    · exact absurd (failed.symm.trans okay) Bool.false_ne_true
    · exact absurd (failed.symm.trans okay) Bool.false_ne_true
  · have whole : result = ({ stores with
        config := stores.config.commitStamped (Gnmi.Set.buildBatch request now) }, Status.OK,
        Gnmi.Set.accepted request now) := done
    have leaves := commitStamped_applyInOrder inv acceptable now
    have config : stores.config.commitStamped (Gnmi.Set.buildBatch request now) =
        { stores.config with store := ⟨applyInOrder request now stores.config.store.leaves⟩ } := by
      rw [← leaves]
      rfl
    rw [whole]
    refine ⟨⟨fun _ => acceptable, fun _ => rfl⟩, fun impossible => ?_, fun _ => ⟨?_, ?_, rfl⟩⟩
    · cases impossible
    · rw [config]
      rfl
    · intro key
      rw [leaves]
      exact applyInOrder_find request now stores.config.store.leaves key

/-- A Set that deletes the host name and then writes it twice. -/
def renameTwice : SetRequest where
  delete := [hostnamePath]
  replace := [{ path := some hostnamePath, val := some (.stringVal "first".toList) }]
  update := [{ path := some hostnamePath, val := some (.stringVal "second".toList) }]

theorem renameTwice_acceptable : Acceptable renameTwice := by
  simp only [Acceptable, declaredConfig_iff]
  decide +kernel

theorem set_is_transaction_renameTwice :
    (Gnmi.Set.run registry (initialStores 1 2) 3 renameTwice).2.1.isOk = true ∧
      (Gnmi.Set.run registry (initialStores 1 2) 3 renameTwice).1.config.store.leaves[
        "/system/config/hostname".toList]? =
        some { val := .stringVal "second".toList, collectedNs := 3, type := .config } := by
  have reachable : Reachable (initialStores 1 2) := ⟨1, 2, [], rfl⟩
  have transaction := set_is_transaction reachable renameTwice 3 rfl
  have okay := transaction.1.mpr renameTwice_acceptable
  refine ⟨okay, ?_⟩
  rw [(transaction.2.2 okay).2.1]
  decide +kernel

end Server
end PscMockServer
