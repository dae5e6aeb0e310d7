import PscMockServer.Backend.DataProvider

namespace PscMockServer
namespace Backend

open Foundations Gnmi Utils

/-!
# The leaf store

`leaf_store.cpp`.  Every operation runs under the store's lock, so each one is a
single step on the map.  A path is normalised by dropping its double quotes when
it enters the store and when it is looked up.
-/

/-- The loop of `stripKeys`: `inKey` is its flag, `out` its accumulator. -/
def stripKeysLoop : Str -> Bool -> Str -> Str
  | [], _, out => out
  | c :: rest, inKey, out =>
      if c = '[' then stripKeysLoop rest true out
      else if c = ']' then stripKeysLoop rest false out
      else if inKey then stripKeysLoop rest inKey out
      else stripKeysLoop rest inKey (out ++ [c])

/-- Drop every predicate, leaving the bare element path. -/
def stripKeys (s : Str) : Str :=
  stripKeysLoop s false []

/-- A stored leaf path is selected by a quote-stripped query.  A keyless query
also selects keyed leaves of the same shape. -/
def selects (query leaf : Str) : Bool :=
  if isPathPrefix query leaf then true
  else if query.contains '[' then false
  else isPathPrefix query (stripKeys leaf)

/-- `valueEquals`.  Serialisation is deterministic and keeps every field, so equal
strings mean equal messages. -/
def valueEquals (a b : TypedValue) : Bool :=
  decide (a = b)

structure LeafStore where
  leaves : Snapshot := ∅
deriving DecidableEq

/-- `LeafStore::Diff`. -/
structure Diff where
  updated : List (Str × Leaf) := []
  removed : List Str := []
deriving DecidableEq

namespace LeafStore

/-- One op of a batch, under the lock. -/
def applyOp (leaves : Snapshot) (op : WriteOp) : Snapshot :=
  let key := stripPathQuotes op.xpath
  match op.kind with
  | .set => leaves.insert key { val := op.val, collectedNs := op.collectedNs, type := op.type }
  | .remove => leaves.erase key

def commit (store : LeafStore) (batch : WriteBatch) : LeafStore :=
  ⟨batch.ops.foldl applyOp store.leaves⟩

def get (store : LeafStore) (xpath : Str) : Option Leaf :=
  store.leaves[stripPathQuotes xpath]?

def collect (store : LeafStore) (queryXpath : Str) (list : List Update) : List Update × Bool :=
  let query := stripPathQuotes queryXpath
  let result := store.leaves.foldl
    (fun list path leaf =>
      if selects query path then
        list ++ [{ path := some (xpathToGnmiPath path {}), val := some leaf.val }]
      else list)
    list
  (result, decide (list.length < result.length))

def snapshot (store : LeafStore) (queryXpath : Str) : Snapshot :=
  let query := stripPathQuotes queryXpath
  store.leaves.foldl
    (fun out path leaf => if selects query path then out.insertIfNew path leaf else out) ∅

/-- The first loop of `diff`: added and changed leaves. -/
def changedLeaves (prev cur : Snapshot) : List (Str × Leaf) :=
  cur.toList.filter (fun entry =>
    match prev[entry.1]? with
    | none => true
    | some old => !valueEquals old.val entry.2.val)

/-- The second loop of `diff`: vanished leaves. -/
def vanishedPaths (prev cur : Snapshot) : List Str :=
  (prev.toList.map Prod.fst).filter (fun path => (cur[path]?).isNone)

def diff (prev cur : Snapshot) : Diff where
  updated := changedLeaves prev cur
  removed := vanishedPaths prev cur

end LeafStore

/-! ## What a snapshot holds -/

namespace LeafStore

private theorem select_foldl_find (query : Str) (entries : List (Str × Leaf)) (out : Snapshot) (k : Str) :
    (entries.foldl (fun out entry =>
      if selects query entry.1 then out.insertIfNew entry.1 entry.2 else out) out)[k]? =
      (out[k]?).or (if selects query k then OrdMap.firstOf entries k else none) := by
  induction entries generalizing out with
  | nil => simp [OrdMap.firstOf]
  | cons entry entries inductionHypothesis =>
      rw [List.foldl_cons, inductionHypothesis, OrdMap.firstOf_cons]
      by_cases here : entry.1 = k
      · rw [← here]
        by_cases selected : selects query entry.1 = true
        · rw [if_pos selected, if_pos selected, if_pos selected, OrdMap.insertIfNew_find,
            if_pos rfl, if_pos rfl, Option.or_assoc, Option.some_or]
        · rw [if_neg selected, if_neg selected, if_neg selected]
      · rw [if_neg here]
        by_cases selected : selects query entry.1 = true
        · rw [if_pos selected, OrdMap.insertIfNew_find, if_neg here, Option.or_none]
        · rw [if_neg selected]

/-- A snapshot is the part of the store its query selects. -/
theorem snapshot_find (store : LeafStore) (queryXpath k : Str) :
    (store.snapshot queryXpath)[k]? =
      if selects (stripPathQuotes queryXpath) k then store.leaves[k]? else none := by
  simp only [snapshot, Std.ExtTreeMap.foldl_eq_foldl_toList]
  rw [select_foldl_find, OrdMap.firstOf_toList, Std.ExtTreeMap.getElem?_empty, Option.none_or]

/-- A snapshot has the stored leaves that its query selects. -/
theorem snapshot_find_iff (store : LeafStore) (queryXpath key : Str) (leaf : Leaf) :
    (store.snapshot queryXpath)[key]? = some leaf ↔
      store.leaves[key]? = some leaf ∧ selects (stripPathQuotes queryXpath) key = true := by
  rw [snapshot_find]
  cases selects (stripPathQuotes queryXpath) key with
  | true => exact ⟨fun found => ⟨found, rfl⟩, And.left⟩
  | false =>
      exact ⟨fun impossible => absurd impossible.symm (Option.some_ne_none leaf),
        fun both => absurd both.2 Bool.false_ne_true⟩

/-! ## What a diff reports -/

theorem mem_changedLeaves (prev cur : Snapshot) (path : Str) (leaf : Leaf) :
    (path, leaf) ∈ changedLeaves prev cur ↔
      cur[path]? = some leaf ∧ (prev[path]?).map Leaf.val ≠ some leaf.val := by
  rw [changedLeaves, List.mem_filter, Std.ExtTreeMap.mem_toList_iff_getElem?_eq_some]
  cases found : prev[path]? with
  | none => simp
  | some old => simp [valueEquals]

theorem mem_vanishedPaths (prev cur : Snapshot) (path : Str) :
    path ∈ vanishedPaths prev cur ↔ (∃ leaf, prev[path]? = some leaf) ∧ cur[path]? = none := by
  rw [vanishedPaths, List.mem_filter, List.mem_map, Option.isNone_iff_eq_none]
  constructor
  · rintro ⟨⟨entry, member, rfl⟩, gone⟩
    exact ⟨⟨entry.2, OrdMap.find_of_mem_toList member⟩, gone⟩
  · rintro ⟨⟨leaf, found⟩, gone⟩
    exact ⟨⟨(path, leaf), OrdMap.mem_toList_of_find found, rfl⟩, gone⟩

/-- The stored value of a path, forgetting when it was collected. -/
def valueAt (snap : Snapshot) (path : Str) : Option TypedValue :=
  (snap[path]?).map Leaf.val

/-- A diff is empty exactly when both snapshots have the same paths and values. -/
theorem diff_empty_iff (prev cur : Snapshot) :
    (diff prev cur).updated = [] ∧ (diff prev cur).removed = [] ↔
      ∀ path, valueAt prev path = valueAt cur path := by
  constructor
  · rintro ⟨noUpdate, noRemoval⟩ path
    rw [valueAt, valueAt]
    cases found : cur[path]? with
    | none =>
        cases old : prev[path]? with
        | none => rfl
        | some leaf =>
            have removed := (mem_vanishedPaths prev cur path).mpr ⟨⟨leaf, old⟩, found⟩
            have noMember : vanishedPaths prev cur = [] := noRemoval
            rw [noMember] at removed
            cases removed
    | some leaf =>
        by_contra different
        have updated := (mem_changedLeaves prev cur path leaf).mpr ⟨found, different⟩
        have noMember : changedLeaves prev cur = [] := noUpdate
        rw [noMember] at updated
        cases updated
  · intro same
    constructor
    · rw [List.eq_nil_iff_forall_not_mem]
      rintro ⟨path, leaf⟩ member
      rcases (mem_changedLeaves prev cur path leaf).mp member with ⟨found, different⟩
      have equal := same path
      rw [valueAt, valueAt, found] at equal
      exact different equal
    · rw [List.eq_nil_iff_forall_not_mem]
      intro path member
      rcases (mem_vanishedPaths prev cur path).mp member with ⟨⟨leaf, old⟩, gone⟩
      have equal := same path
      rw [valueAt, valueAt, old, gone] at equal
      cases equal

end LeafStore

end Backend
end PscMockServer
