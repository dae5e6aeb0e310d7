import PscMockServer.Backend.LeafStore
import Mathlib.Algebra.Group.Int.Defs

namespace PscMockServer
namespace Gnmi

open Foundations Utils Backend

/-!
# Emitting notifications

`subscribe_emit.cpp`.  A notification is stamped with the newest collection time
it carries, or else with the clock when it is built.  `clock i` is the reading the
`i`-th notification of a call gets if it has to look.
-/

/-- One update: the path of an xpath string and a value. -/
def leafUpdate (path : Str) (val : TypedValue) : Update where
  path := some (xpathToGnmiPath path {})
  val := some val

def appendLeaf (list : List Update) (path : Str) (val : TypedValue) : List Update :=
  list ++ [leafUpdate path val]

/-- `ts ? ts : get_time_nanosec()`. -/
def stampOr (ts reading : Int) : Int :=
  if ts = 0 then reading else ts

/-- The non-atomic remainder, and the groups by atomic container. -/
def partition {σ : Type} (snap : Snapshot) (reg : DataProviderRegistry σ) :
    Snapshot × OrdMap Str Snapshot :=
  OrdMap.splitBy reg.atomicPrefix snap

def emitSnapshot (snap : Snapshot) (list : List Update) : List Update × Int :=
  snap.foldl (fun acc path leaf => (appendLeaf acc.1 path leaf.val, max acc.2 leaf.collectedNs)) (list, 0)

def emitDiff (diff : Diff) (notification : Notification) : Notification × Int :=
  let updated := diff.updated.foldl
    (fun acc entry =>
      ({ acc.1 with update := appendLeaf acc.1.update entry.1 entry.2.val },
        max acc.2 entry.2.collectedNs))
    (notification, 0)
  let removed := diff.removed.foldl
    (fun n path => { n with delete := n.delete ++ [xpathToGnmiPath path {}] }) updated.1
  (removed, updated.2)

/-- The relative path is the tail after the container (`substr`, which the code
only reaches with a container that is no longer than the path). -/
def emitAtomic (snap : Snapshot) (atomicPrefix : Str) (n : Notification) : Notification × Int :=
  snap.foldl
    (fun acc path leaf =>
      let rel := path.drop atomicPrefix.length
      ({ acc.1 with update := appendLeaf acc.1.update rel leaf.val }, max acc.2 leaf.collectedNs))
    ({ n with pathPrefix := xpathToGnmiPath atomicPrefix n.pathPrefix, atomic := true }, 0)

/-- The notifications a call pushes, each built with the clock reading it may need. -/
def pushAll (clock : Nat -> Int) (builds : List (Int -> Notification)) : List Notification :=
  builds.mapIdx (fun i build => build (clock i))

/-- A non-atomic notification with a whole snapshot. -/
def fullNote (snap : Snapshot) (reading : Int) : Notification :=
  let emitted := emitSnapshot snap []
  { timestamp := stampOr emitted.2 reading, update := emitted.1, atomic := false }

/-- An atomic notification with a whole group. -/
def atomicNote (container : Str) (group : Snapshot) (reading : Int) : Notification :=
  let emitted := emitAtomic group container {}
  { emitted.1 with timestamp := stampOr emitted.2 reading }

/-- A non-atomic notification with the changes. -/
def diffNote (diff : Diff) (reading : Int) : Notification :=
  let emitted := emitDiff diff {}
  { emitted.1 with timestamp := stampOr emitted.2 reading, atomic := false }

/-- The deletion of a whole container: an empty path under its prefix. -/
def goneNote (container : Str) (reading : Int) : Notification where
  pathPrefix := xpathToGnmiPath container {}
  atomic := true
  delete := [{}]
  timestamp := reading

def buildFullNotifications {σ : Type} (snap : Snapshot) (reg : DataProviderRegistry σ)
    (clock : Nat -> Int) : List Notification :=
  let parts := partition snap reg
  let nonAtomic := if !parts.1.isEmpty || parts.2.isEmpty then [fullNote parts.1] else []
  pushAll clock (nonAtomic ++ parts.2.toList.map (fun entry => atomicNote entry.1 entry.2))

/-- The containers present before or after. -/
def changedPrefixes (before after : OrdMap Str Snapshot) : OrdSet Str :=
  OrdMap.insertKeys (OrdMap.insertKeys ∅ before) after

/-- The body of the container loop: nothing for an unchanged record, its deletion
when it is gone, its complete state otherwise. -/
def containerChange (before after : OrdMap Str Snapshot) (container : Str) :
    Option (Int -> Notification) :=
  let pg := (before[container]?).getD ∅
  let cg := (after[container]?).getD ∅
  let gd := LeafStore.diff pg cg
  if gd.updated.isEmpty && gd.removed.isEmpty then none
  else if cg.isEmpty then some (goneNote container)
  else some (atomicNote container cg)

def buildChangeNotifications {σ : Type} (prev cur : Snapshot) (reg : DataProviderRegistry σ)
    (clock : Nat -> Int) : List Notification :=
  let before := partition prev reg
  let after := partition cur reg
  let d := LeafStore.diff before.1 after.1
  let nonAtomic := if !d.updated.isEmpty || !d.removed.isEmpty then [diffNote d] else []
  pushAll clock
    (nonAtomic ++ (changedPrefixes before.2 after.2).toList.filterMap (containerChange before.2 after.2))

/-- `static_cast<long long>` of an unsigned 64-bit number. -/
def toLongLong (n : UInt64) : Int :=
  if n.toNat < 2 ^ 63 then n.toNat else (n.toNat : Int) - 2 ^ 64

/-- Time points are nanoseconds. -/
def heartbeatDue (intervalNs : UInt64) (last now : Int) : Bool :=
  if intervalNs = 0 then false else decide (toLongLong intervalNs ≤ now - last)

def resolveStreamMode {σ : Type} (sub : Subscription) (reg : DataProviderRegistry σ) :
    SubscriptionMode :=
  match sub.mode with
  | .targetDefined => reg.preferredMode (gnmiToXpath sub.path)
  | mode => mode

/-- What Get and Subscribe do to a built notification when the request has a prefix:
`CopyFrom` onto the ones that are not atomic. -/
def withRequestPrefix (pre : Option Path) (n : Notification) : Notification :=
  match pre with
  | some pre => if n.atomic then n else { n with pathPrefix := pre }
  | none => n

theorem map_withRequestPrefix_none (notes : List Notification) :
    notes.map (withRequestPrefix none) = notes :=
  List.map_id notes

theorem withRequestPrefix_of_atomic (pre : Option Path) {n : Notification} (atomic : n.atomic = true) :
    withRequestPrefix pre n = n := by
  cases pre with
  | none => rfl
  | some pre => exact if_pos atomic

theorem withRequestPrefix_fields (pre : Option Path) (n : Notification) :
    (withRequestPrefix pre n).atomic = n.atomic ∧ (withRequestPrefix pre n).update = n.update ∧
      (withRequestPrefix pre n).delete = n.delete := by
  cases pre with
  | none => exact ⟨rfl, rfl, rfl⟩
  | some pre =>
      rw [withRequestPrefix]
      split
      · exact ⟨rfl, rfl, rfl⟩
      · exact ⟨rfl, rfl, rfl⟩

/-! ## What each notification carries -/

theorem emitSnapshot_updates (snap : Snapshot) (list : List Update) :
    (emitSnapshot snap list).1 = list ++ snap.toList.map (fun entry => leafUpdate entry.1 entry.2.val) := by
  rw [emitSnapshot, Std.ExtTreeMap.foldl_eq_foldl_toList]
  generalize snap.toList = entries
  generalize (0 : Int) = newest
  induction entries generalizing list newest with
  | nil => rw [List.foldl_nil, List.map_nil, List.append_nil]
  | cons entry entries inductionHypothesis =>
      rw [List.foldl_cons, inductionHypothesis, appendLeaf, List.map_cons, List.append_assoc,
        List.singleton_append]

theorem fullNote_update (snap : Snapshot) (reading : Int) :
    (fullNote snap reading).update = snap.toList.map (fun entry => leafUpdate entry.1 entry.2.val) := by
  rw [fullNote, emitSnapshot_updates, List.nil_append]

/-- Both emitters append one update per entry, at the path they write for it. -/
private theorem appendLeaf_foldl (written : Str -> Str) (entries : List (Str × Leaf)) (n : Notification)
    (newest : Int) :
    (entries.foldl (fun acc entry =>
      (({ acc.1 with update := appendLeaf acc.1.update (written entry.1) entry.2.val } : Notification),
        max acc.2 entry.2.collectedNs)) (n, newest)).1 =
      { n with update := n.update ++
          entries.map (fun entry => leafUpdate (written entry.1) entry.2.val) } := by
  induction entries generalizing n newest with
  | nil => rw [List.foldl_nil, List.map_nil, List.append_nil]
  | cons entry entries inductionHypothesis =>
      rw [List.foldl_cons, inductionHypothesis, appendLeaf, List.map_cons, List.append_assoc,
        List.singleton_append]

private theorem emitDiff_removed (removed : List Str) (n : Notification) :
    removed.foldl (fun (n : Notification) path =>
      { n with delete := n.delete ++ [xpathToGnmiPath path {}] }) n =
      { n with delete := n.delete ++ removed.map (fun path => xpathToGnmiPath path {}) } := by
  induction removed generalizing n with
  | nil => rw [List.foldl_nil, List.map_nil, List.append_nil]
  | cons path removed inductionHypothesis =>
      rw [List.foldl_cons, inductionHypothesis, List.map_cons, List.append_assoc,
        List.singleton_append]

/-- A diff notification, apart from its timestamp. -/
theorem diffNote_eq (diff : Diff) (reading : Int) :
    diffNote diff reading =
      { timestamp := (diffNote diff reading).timestamp
        update := diff.updated.map (fun entry => leafUpdate entry.1 entry.2.val)
        delete := diff.removed.map (fun path => xpathToGnmiPath path {}) } := by
  rw [diffNote, emitDiff, emitDiff_removed, appendLeaf_foldl (fun path => path), List.nil_append,
    List.nil_append]

/-- An atomic notification, apart from its timestamp. -/
theorem atomicNote_eq (container : Str) (group : Snapshot) (reading : Int) :
    atomicNote container group reading =
      { timestamp := (atomicNote container group reading).timestamp
        pathPrefix := xpathToGnmiPath container {}
        atomic := true
        update := group.toList.map
          (fun entry => leafUpdate (entry.1.drop container.length) entry.2.val) } := by
  rw [atomicNote, emitAtomic, Std.ExtTreeMap.foldl_eq_foldl_toList,
    appendLeaf_foldl (fun path => path.drop container.length), List.nil_append]

theorem atomicNote_atomic (container : Str) (group : Snapshot) (reading : Int) :
    (atomicNote container group reading).atomic = true := by
  rw [atomicNote_eq]

/-! ## Which notifications are pushed -/

theorem pushAll_getElem {clock : Nat -> Int} {builds : List (Int -> Notification)} {i : Nat} {n : Notification}
    (atIndex : (pushAll clock builds)[i]? = some n) : ∃ build ∈ builds, n = build (clock i) := by
  rw [pushAll, List.getElem?_mapIdx, Option.map_eq_some_iff] at atIndex
  rcases atIndex with ⟨build, listed, rfl⟩
  exact ⟨build, List.mem_of_getElem? listed, rfl⟩

theorem mem_pushAll_clock {clock : Nat -> Int} {builds : List (Int -> Notification)} {n : Notification}
    (member : n ∈ pushAll clock builds) : ∃ build ∈ builds, ∃ i, n = build (clock i) := by
  rcases List.getElem?_of_mem member with ⟨i, atIndex⟩
  rcases pushAll_getElem atIndex with ⟨build, listed, same⟩
  exact ⟨build, listed, i, same⟩

theorem mem_pushAll {clock : Nat -> Int} {builds : List (Int -> Notification)} {n : Notification}
    (member : n ∈ pushAll clock builds) : ∃ build ∈ builds, ∃ reading, n = build reading := by
  rcases mem_pushAll_clock member with ⟨build, listed, i, rfl⟩
  exact ⟨build, listed, clock i, rfl⟩

theorem exists_mem_pushAll {builds : List (Int -> Notification)} {build : Int -> Notification}
    (clock : Nat -> Int) (member : build ∈ builds) : ∃ reading, build reading ∈ pushAll clock builds := by
  rcases List.getElem_of_mem member with ⟨i, inside, rfl⟩
  exact ⟨clock i, List.mem_mapIdx.mpr ⟨i, inside, rfl⟩⟩

/-- A reading of the notifications that ignores the timestamps ignores the clock. -/
theorem flatMap_pushAll {β : Type} (read : Notification -> List β) (clock : Nat -> Int)
    (builds : List (Int -> Notification))
    (same : ∀ build ∈ builds, ∀ reading, read (build reading) = read (build 0)) :
    (pushAll clock builds).flatMap read = builds.flatMap (fun build => read (build 0)) := by
  induction builds generalizing clock with
  | nil => rfl
  | cons build builds inductionHypothesis =>
      rw [pushAll, List.mapIdx_cons, List.flatMap_cons, List.flatMap_cons,
        same build List.mem_cons_self]
      exact congrArg _ (inductionHypothesis (fun i => clock (i + 1))
        (fun other member => same other (List.mem_cons_of_mem build member)))

end Gnmi
end PscMockServer
