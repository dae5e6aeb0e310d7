import PscMockServer.Utils.Xpath

namespace PscMockServer
namespace Backend

open Foundations Gnmi Utils

/-!
# The provider interface and the registry

`data_provider.hpp`.  Providers are objects with mutable state behind virtual
methods; here `σ` is the state of all of them together and a provider is the
record of its methods over `σ`.  `preferredMode` and `atomicPrefix` read no
mutable state in any provider, so they take none.
-/

/-! ## Leaves and write batches -/

/-- The schema type of a leaf. -/
inductive LeafType where
  | config
  | state
  | operational
deriving DecidableEq

structure Leaf where
  val : TypedValue
  collectedNs : Int
  type : LeafType := .operational
deriving DecidableEq

/-- Path to leaf, in the order of `std::map<std::string, Leaf>`. -/
abbrev Snapshot := OrdMap Str Leaf

inductive WriteKind where
  | set
  | remove
deriving DecidableEq

structure WriteOp where
  xpath : Str
  kind : WriteKind
  val : TypedValue
  collectedNs : Int
  type : LeafType := .operational
deriving DecidableEq

structure WriteBatch where
  ops : List WriteOp := []
deriving DecidableEq

namespace WriteBatch

def set (batch : WriteBatch) (xpath : Str) (value : TypedValue) (collectedNs : Int) : WriteBatch :=
  ⟨batch.ops ++ [{ xpath := xpath, kind := .set, val := value, collectedNs := collectedNs }]⟩

def remove (batch : WriteBatch) (xpath : Str) : WriteBatch :=
  ⟨batch.ops ++ [{ xpath := xpath, kind := .remove, val := .unset, collectedNs := 0 }]⟩

def isEmpty (batch : WriteBatch) : Bool :=
  batch.ops.isEmpty

end WriteBatch

/-! ## Providers -/

structure IDataProvider (σ : Type) where
  fill : σ -> Str -> List Update -> List Update
  snapshot : σ -> Str -> Snapshot
  preferredMode : Str -> SubscriptionMode := fun _ => .sample
  writable : σ -> Str -> Bool := fun _ _ => false
  applyBatch : σ -> WriteBatch -> σ × Bool := fun s _ => (s, false)
  atomicPrefix : Str -> Option Str := fun _ => none

/-! ## Registry -/

structure FillResult where
  list : List Update
  routed : Bool
  produced : Bool

structure SnapResult where
  snap : Snapshot
  routed : Bool
deriving DecidableEq

structure WriteResult where
  routed : Bool
  applied : Bool
deriving DecidableEq

structure DataProviderRegistry (σ : Type) where
  routes : List (Str × IDataProvider σ) := []

namespace DataProviderRegistry

variable {σ : Type}

def addProvider (reg : DataProviderRegistry σ) (pre : Str) (provider : IDataProvider σ) :
    DataProviderRegistry σ :=
  ⟨reg.routes ++ [(pre, provider)]⟩

/-- `matches`: the registered prefix owns this xpath's namespace. -/
def matchesPrefix (xpath pre : Str) : Bool :=
  isPathPrefix pre (stripPathQuotes xpath)

def fill (reg : DataProviderRegistry σ) (s : σ) (list : List Update) (xpath : Str) : FillResult :=
  let result := reg.routes.foldl
    (fun acc route =>
      if matchesPrefix xpath route.1 then (route.2.fill s xpath acc.1, true) else acc)
    (list, false)
  ⟨result.1, result.2, decide (list.length < result.1.length)⟩

def snapshot (reg : DataProviderRegistry σ) (s : σ) (xpath : Str) : SnapResult :=
  reg.routes.foldl
    (fun res route =>
      if matchesPrefix xpath route.1 then
        { snap := OrdMap.mergeKeep res.snap (route.2.snapshot s xpath), routed := true }
      else res)
    { snap := ∅, routed := false }

def preferredMode (reg : DataProviderRegistry σ) (xpath : Str) : SubscriptionMode :=
  match reg.routes.find? (fun route => matchesPrefix xpath route.1) with
  | some route => route.2.preferredMode xpath
  | none => .sample

def atomicPrefix (reg : DataProviderRegistry σ) (xpath : Str) : Option Str :=
  reg.routes.findSome?
    (fun route => if matchesPrefix xpath route.1 then route.2.atomicPrefix xpath else none)

def writable (reg : DataProviderRegistry σ) (s : σ) (xpath : Str) : WriteResult :=
  reg.routes.foldl
    (fun res route =>
      if matchesPrefix xpath route.1 then
        { routed := true, applied := if route.2.writable s xpath then true else res.applied }
      else res)
    { routed := false, applied := false }

def commit (reg : DataProviderRegistry σ) (s : σ) (batch : WriteBatch) : σ × WriteResult :=
  reg.routes.foldl
    (fun acc route =>
      let slice : WriteBatch := ⟨batch.ops.filter (fun op => matchesPrefix op.xpath route.1)⟩
      if slice.isEmpty then acc
      else
        let result := route.2.applyBatch acc.1 slice
        (result.1, { routed := true, applied := if result.2 then true else acc.2.applied }))
    (s, { routed := false, applied := false })

/-! ## What the routes decide -/

/-- Some registered prefix owns the path. -/
def owns (reg : DataProviderRegistry σ) (xpath : Str) : Bool :=
  reg.routes.any (fun route => matchesPrefix xpath route.1)

private theorem snapshot_foldl_routed (routes : List (Str × IDataProvider σ)) (s : σ) (xpath : Str)
    (res : SnapResult) :
    (routes.foldl
      (fun res route =>
        if matchesPrefix xpath route.1 then
          { snap := OrdMap.mergeKeep res.snap (route.2.snapshot s xpath), routed := true }
        else res) res).routed =
      (res.routed || routes.any (fun route => matchesPrefix xpath route.1)) := by
  induction routes generalizing res with
  | nil => rw [List.foldl_nil, List.any_nil, Bool.or_false]
  | cons route routes inductionHypothesis =>
      rw [List.foldl_cons, inductionHypothesis, List.any_cons]
      cases matchesPrefix xpath route.1 <;> simp

/-- Routing depends on the registered prefixes only, never on the stored data. -/
theorem snapshot_routed (reg : DataProviderRegistry σ) (s : σ) (xpath : Str) :
    (reg.snapshot s xpath).routed = reg.owns xpath := by
  rw [snapshot, snapshot_foldl_routed, Bool.false_or]
  rfl

private theorem snapshot_foldl_find (routes : List (Str × IDataProvider σ)) (s : σ) (xpath : Str)
    (res : SnapResult) (k : Str) :
    (routes.foldl
      (fun res route =>
        if matchesPrefix xpath route.1 then
          { snap := OrdMap.mergeKeep res.snap (route.2.snapshot s xpath), routed := true }
        else res) res).snap[k]? =
      (res.snap[k]?).or (routes.findSome? (fun route =>
        if matchesPrefix xpath route.1 then (route.2.snapshot s xpath)[k]? else none)) := by
  induction routes generalizing res with
  | nil => rw [List.foldl_nil, List.findSome?_nil, Option.or_none]
  | cons route routes inductionHypothesis =>
      rw [List.foldl_cons, inductionHypothesis, List.findSome?_cons]
      cases matched : matchesPrefix xpath route.1 with
      | false => simp
      | true =>
          simp only [if_true]
          rw [OrdMap.mergeKeep_find, Option.or_assoc]
          cases (route.2.snapshot s xpath)[k]? <;> rfl

/-- Each path of a snapshot comes from the first owning provider that has it. -/
theorem snapshot_find (reg : DataProviderRegistry σ) (s : σ) (xpath k : Str) :
    (reg.snapshot s xpath).snap[k]? = reg.routes.findSome? (fun route =>
      if matchesPrefix xpath route.1 then (route.2.snapshot s xpath)[k]? else none) := by
  rw [snapshot, snapshot_foldl_find, Std.ExtTreeMap.getElem?_empty, Option.none_or]

private theorem writable_foldl (routes : List (Str × IDataProvider σ)) (s : σ) (xpath : Str)
    (res : WriteResult) :
    routes.foldl
      (fun res route =>
        if matchesPrefix xpath route.1 then
          { routed := true, applied := if route.2.writable s xpath then true else res.applied }
        else res) res =
      { routed := res.routed || routes.any (fun route => matchesPrefix xpath route.1)
        applied := res.applied ||
          routes.any (fun route => matchesPrefix xpath route.1 && route.2.writable s xpath) } := by
  induction routes generalizing res with
  | nil => rw [List.foldl_nil, List.any_nil, List.any_nil, Bool.or_false, Bool.or_false]
  | cons route routes inductionHypothesis =>
      rw [List.foldl_cons, inductionHypothesis, List.any_cons, List.any_cons]
      cases matchesPrefix xpath route.1 <;> cases route.2.writable s xpath <;> simp

/-- A path is writable when some provider that owns it accepts the write. -/
theorem writable_eq (reg : DataProviderRegistry σ) (s : σ) (xpath : Str) :
    reg.writable s xpath =
      { routed := reg.owns xpath
        applied := reg.routes.any
          (fun route => matchesPrefix xpath route.1 && route.2.writable s xpath) } := by
  rw [writable, writable_foldl, Bool.false_or, Bool.false_or]
  rfl

end DataProviderRegistry

end Backend
end PscMockServer
