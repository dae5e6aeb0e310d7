import PscMockServer.Backend.LeafStore

namespace PscMockServer
namespace Backend

open Foundations Gnmi Utils

/-!
# Providers backed by a leaf store

`store_backed_provider.hpp`: the store, the declared schema, and the one way
leaves come into being.  A subclass contributes the leaves it declares and the
methods it overrides; its object state is a `StoreBackedProvider`.
-/

/-- The object state of a store-backed provider. -/
structure StoreBackedProvider where
  store : LeafStore := {}
  schema : OrdMap Str LeafType := ∅
deriving DecidableEq

/-- One declared leaf.  Without a value it is writable and typed but not seeded. -/
structure DeclaredLeaf where
  path : Str
  type : LeafType
  value : Option TypedValue
  collectedNs : Int
deriving DecidableEq

namespace StoreBackedProvider

/-- Schema type of a path; an undeclared path is `State`. -/
def schemaType (provider : StoreBackedProvider) (xpath : Str) : LeafType :=
  match provider.schema[stripPathQuotes xpath]? with
  | none => .state
  | some type => type

def writable (provider : StoreBackedProvider) (xpath : Str) : Bool :=
  decide (provider.schemaType xpath = .config)

/-- The type an op is stamped with before it is committed. -/
def stampOp (provider : StoreBackedProvider) (op : WriteOp) : WriteOp :=
  match op.kind with
  | .set => { op with type := provider.schemaType op.xpath }
  | .remove => op

def commitStamped (provider : StoreBackedProvider) (batch : WriteBatch) : StoreBackedProvider :=
  { provider with store := provider.store.commit ⟨batch.ops.map provider.stampOp⟩ }

/-- The loop of `initLeaves`: the schema and the seed batch of the declarations. -/
def initLeaves (provider : StoreBackedProvider) (declared : List DeclaredLeaf) : StoreBackedProvider :=
  let built := declared.foldl
    (fun acc d =>
      (acc.1.insert (stripPathQuotes d.path) d.type,
        match d.value with
        | some value => acc.2.set d.path value d.collectedNs
        | none => acc.2))
    (provider.schema, ({} : WriteBatch))
  commitStamped { provider with schema := built.1 } built.2

end StoreBackedProvider

/-- The read and query methods every store-backed provider inherits, on the
provider that `self` finds in the server state. -/
def storeBackedProvider {σ : Type} (self : σ -> StoreBackedProvider) : IDataProvider σ where
  fill := fun s xpath list => ((self s).store.collect xpath list).1
  snapshot := fun s xpath => (self s).store.snapshot xpath
  writable := fun s xpath => (self s).writable xpath

/-! ## What a commit does to one path -/

namespace StoreBackedProvider

/-- The leaf an op leaves at its path. -/
def opResult (provider : StoreBackedProvider) (op : WriteOp) : Option Leaf :=
  match op.kind with
  | .set => some { val := op.val, collectedNs := op.collectedNs, type := provider.schemaType op.xpath }
  | .remove => none

/-- The last op of a list that addresses a path decides it. -/
def afterOps (provider : StoreBackedProvider) (ops : List WriteOp) (old : Option Leaf) (path : Str) :
    Option Leaf :=
  OrdMap.lastOf (fun op => stripPathQuotes op.xpath) provider.opResult ops path old

theorem commitStamped_schema (provider : StoreBackedProvider) (batch : WriteBatch) :
    (provider.commitStamped batch).schema = provider.schema := rfl

theorem applyOp_find (provider : StoreBackedProvider) (leaves : Snapshot) (op : WriteOp) (path : Str) :
    (LeafStore.applyOp leaves (provider.stampOp op))[path]? =
      if stripPathQuotes op.xpath = path then provider.opResult op else leaves[path]? := by
  cases kind : op.kind with
  | set =>
      simp only [stampOp, kind, LeafStore.applyOp, opResult]
      exact OrdMap.insert_find _ _ _ _
  | remove =>
      simp only [stampOp, kind, LeafStore.applyOp, opResult]
      exact OrdMap.erase_find _ _ _

/-- A stamped commit, path by path. -/
theorem commitStamped_find (provider : StoreBackedProvider) (batch : WriteBatch) (path : Str) :
    (provider.commitStamped batch).store.leaves[path]? =
      provider.afterOps batch.ops (provider.store.leaves[path]?) path := by
  simp only [commitStamped, LeafStore.commit, List.foldl_map, afterOps]
  generalize provider.store.leaves = leaves
  induction batch.ops generalizing leaves with
  | nil => rfl
  | cons op ops inductionHypothesis =>
      rw [List.foldl_cons, inductionHypothesis, applyOp_find, OrdMap.lastOf_cons]

/-! ## The schema and the leaves a store keeps -/

/-- Every stored leaf is a declared one and carries its declared type. -/
def WellTyped (provider : StoreBackedProvider) : Prop :=
  ∀ (path : Str) (leaf : Leaf), provider.store.leaves[path]? = some leaf ->
    '"' ∉ path ∧ provider.schema[path]? = some leaf.type

/-- A commit that sets declared paths only keeps every stored leaf well typed. -/
theorem WellTyped.commitStamped {provider : StoreBackedProvider} (typed : provider.WellTyped)
    {batch : WriteBatch} (declared : ∀ op ∈ batch.ops, op.kind = .set ->
      ∃ type : LeafType, provider.schema[stripPathQuotes op.xpath]? = some type) :
    (provider.commitStamped batch).WellTyped := by
  intro path leaf stored
  rw [commitStamped_schema]
  rw [commitStamped_find, afterOps] at stored
  rcases OrdMap.lastOf_cases (fun op : WriteOp => stripPathQuotes op.xpath) provider.opResult
      batch.ops path (provider.store.leaves[path]?) with
    kept | ⟨op, member, addressed, result⟩
  · rw [kept] at stored
    exact typed path leaf stored
  · rw [result] at stored
    cases kind : op.kind with
    | set =>
        rcases declared op member kind with ⟨type, known⟩
        simp only [opResult, kind, Option.some.injEq, schemaType, known] at stored
        rw [← stored, ← addressed, known]
        exact ⟨stripPathQuotes_quoteFree op.xpath, rfl⟩
    | remove =>
        simp only [opResult, kind] at stored
        cases stored

/-! ## Initialisation -/

/-- The seed batch of the declarations. -/
def seedOps (declared : List DeclaredLeaf) : List WriteOp :=
  declared.filterMap (fun d => d.value.map (fun value =>
    { xpath := d.path, kind := .set, val := value, collectedNs := d.collectedNs }))

private theorem initLeaves_foldl (declared : List DeclaredLeaf) (schema : OrdMap Str LeafType)
    (batch : WriteBatch) :
    declared.foldl (fun acc d =>
      (acc.1.insert (stripPathQuotes d.path) d.type,
        match d.value with
        | some value => acc.2.set d.path value d.collectedNs
        | none => acc.2)) (schema, batch) =
      (declared.foldl (fun acc d => acc.insert (stripPathQuotes d.path) d.type) schema,
        ⟨batch.ops ++ seedOps declared⟩) := by
  induction declared generalizing schema batch with
  | nil => rw [seedOps, List.filterMap_nil, List.append_nil]; rfl
  | cons d declared inductionHypothesis =>
      rw [List.foldl_cons, inductionHypothesis, List.foldl_cons, seedOps, seedOps]
      cases value : d.value with
      | none => rw [List.filterMap_cons_none (by rw [value]; rfl)]
      | some v =>
          simp only [List.filterMap_cons, value, Option.map_some, WriteBatch.set, List.append_assoc,
            List.singleton_append]

/-- The schema lists the declarations, the last one of a path deciding its type. -/
theorem initLeaves_schema (declared : List DeclaredLeaf) (path : Str) :
    (({} : StoreBackedProvider).initLeaves declared).schema[path]? =
      OrdMap.lastOf (fun d => stripPathQuotes d.path) (fun d => some d.type) declared path none := by
  rw [initLeaves, commitStamped_schema, initLeaves_foldl, OrdMap.insert_foldl_find,
    Std.ExtTreeMap.getElem?_empty]

theorem initLeaves_store (declared : List DeclaredLeaf) (path : Str) :
    (({} : StoreBackedProvider).initLeaves declared).store.leaves[path]? =
      (({} : StoreBackedProvider).initLeaves declared).afterOps (seedOps declared) none path := by
  rw [initLeaves, commitStamped_find, initLeaves_foldl, List.nil_append,
    Std.ExtTreeMap.getElem?_empty]
  rfl

/-- A path is in the schema exactly when it is declared. -/
theorem initLeaves_schema_isSome_iff (declared : List DeclaredLeaf) (path : Str) :
    (∃ type : LeafType, (({} : StoreBackedProvider).initLeaves declared).schema[path]? = some type) ↔
      ∃ d ∈ declared, stripPathQuotes d.path = path := by
  rw [initLeaves_schema]
  constructor
  · rintro ⟨type, found⟩
    by_contra undeclared
    rw [OrdMap.lastOf_untouched (fun d member same => undeclared ⟨d, member, same⟩)] at found
    cases found
  · intro isDeclared
    rcases OrdMap.lastOf_touched isDeclared with ⟨d, _, _, result⟩
    exact ⟨d.type, result⟩

/-- The type the schema gives is one that was declared for the path. -/
theorem initLeaves_schema_type {declared : List DeclaredLeaf} {path : Str} {type : LeafType}
    (found : (({} : StoreBackedProvider).initLeaves declared).schema[path]? = some type) :
    ∃ d ∈ declared, stripPathQuotes d.path = path ∧ d.type = type := by
  rw [initLeaves_schema] at found
  rcases OrdMap.lastOf_cases (fun d : DeclaredLeaf => stripPathQuotes d.path) (fun d => some d.type)
      declared path none with
    kept | ⟨d, member, addressed, result⟩
  · rw [kept] at found
    cases found
  · rw [result] at found
    exact ⟨d, member, addressed, Option.some.inj found⟩

/-- Declarations of one type at paths without quotes: the schema is the list of paths. -/
theorem initLeaves_schema_find_iff {declared : List DeclaredLeaf} {declaredType : LeafType}
    (types : ∀ d ∈ declared, d.type = declaredType)
    (quoteFree : ∀ path ∈ declared.map DeclaredLeaf.path, stripPathQuotes path = path)
    (path : Str) (type : LeafType) :
    (({} : StoreBackedProvider).initLeaves declared).schema[path]? = some type ↔
      path ∈ declared.map DeclaredLeaf.path ∧ type = declaredType := by
  constructor
  · intro found
    rcases initLeaves_schema_type found with ⟨d, member, rfl, rfl⟩
    have listed : d.path ∈ declared.map DeclaredLeaf.path := List.mem_map_of_mem member
    rw [quoteFree d.path listed]
    exact ⟨listed, types d member⟩
  · rintro ⟨listed, rfl⟩
    rcases List.mem_map.mp listed with ⟨d, member, rfl⟩
    rcases (initLeaves_schema_isSome_iff declared d.path).mpr ⟨d, member, quoteFree d.path listed⟩ with
      ⟨type, found⟩
    rcases initLeaves_schema_type found with ⟨other, otherMember, _, rfl⟩
    rw [types other otherMember] at found
    exact found

/-- After initialisation every stored leaf is well typed. -/
theorem initLeaves_wellTyped (declared : List DeclaredLeaf) :
    (({} : StoreBackedProvider).initLeaves declared).WellTyped := by
  rw [initLeaves]
  apply WellTyped.commitStamped
  · intro path leaf stored
    rw [Std.ExtTreeMap.getElem?_empty] at stored
    cases stored
  · intro op member _
    rw [initLeaves_foldl, List.nil_append] at member
    rcases List.mem_filterMap.mp member with ⟨d, inDeclared, seeded⟩
    rcases Option.map_eq_some_iff.mp seeded with ⟨value, _, rfl⟩
    have known := (initLeaves_schema_isSome_iff declared (stripPathQuotes d.path)).mpr
      ⟨d, inDeclared, rfl⟩
    rw [initLeaves] at known
    exact known

end StoreBackedProvider

end Backend
end PscMockServer
