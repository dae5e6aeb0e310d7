import PscMockServer.Backend.LeafHistory
import PscMockServer.Server.Queries
import PscMockServer.Server.Routing

namespace PscMockServer
namespace Backend

open Foundations Gnmi Utils

/-!
# One owner for each path

Every method of the registry loops over the routes and asks the providers whose prefix
owns the path.  When the prefixes are apart there is at most one such provider, and the
registry's answer is its answer: nothing depends on the order in which the providers
were registered, and a provider registered later leaves the paths of the others alone.
`fill` and `snapshot` are two such loops over the same leaves, so what they answer is
compared here as well.
-/

namespace DataProviderRegistry

variable {σ : Type} {reg : DataProviderRegistry σ}

/-- The first route whose prefix owns the path. -/
def owner (reg : DataProviderRegistry σ) (xpath : Str) : Option (Str × IDataProvider σ) :=
  reg.routes.find? (fun route => matchesPrefix xpath route.1)

theorem mem_of_owner {xpath : Str} {route : Str × IDataProvider σ}
    (owned : reg.owner xpath = some route) :
    route ∈ reg.routes ∧ matchesPrefix xpath route.1 = true := by
  rw [owner] at owned
  have holds := List.find?_some owned
  exact ⟨List.mem_of_find?_eq_some owned, holds⟩

theorem preferredMode_eq (reg : DataProviderRegistry σ) (xpath : Str) :
    reg.preferredMode xpath =
      (reg.owner xpath).elim .sample (fun route => route.2.preferredMode xpath) := by
  rw [preferredMode, owner]
  cases reg.routes.find? (fun route => matchesPrefix xpath route.1) <;> rfl

/-! ## The registry's answers are the owner's -/

namespace PrefixesApart

variable (apart : reg.PrefixesApart)

include apart

theorem snapshot_eq (s : σ) (xpath : Str) :
    reg.snapshot s xpath = (reg.owner xpath).elim { snap := ∅, routed := false }
      (fun route => { snap := route.2.snapshot s xpath, routed := true }) := by
  rw [snapshot, Dispatch.foldl_guarded (apart.exclusive xpath), owner]
  cases reg.routes.find? (fun route => matchesPrefix xpath route.1) with
  | none => rfl
  | some route => exact congrArg (fun snap => SnapResult.mk snap true) (OrdMap.empty_mergeKeep _)

theorem writable_eq_owner (s : σ) (xpath : Str) :
    reg.writable s xpath = (reg.owner xpath).elim { routed := false, applied := false }
      (fun route => { routed := true, applied := route.2.writable s xpath }) := by
  rw [writable, Dispatch.foldl_guarded (apart.exclusive xpath), owner]
  cases reg.routes.find? (fun route => matchesPrefix xpath route.1) with
  | none => rfl
  | some route =>
      change WriteResult.mk true (if route.2.writable s xpath then true else false) = _
      cases known : route.2.writable s xpath <;> simp [known]

theorem atomicPrefix_eq (xpath : Str) :
    reg.atomicPrefix xpath = (reg.owner xpath).bind (fun route => route.2.atomicPrefix xpath) := by
  rw [atomicPrefix, Dispatch.findSome?_guarded (apart.exclusive xpath), owner]

/-- The owner of a path is the same in every registry with these routes. -/
theorem owner_perm {other : DataProviderRegistry σ} (same : reg.routes.Perm other.routes) (xpath : Str) :
    reg.owner xpath = other.owner xpath :=
  Dispatch.find?_perm same (apart.exclusive xpath)

theorem perm {other : DataProviderRegistry σ} (same : reg.routes.Perm other.routes) :
    other.PrefixesApart :=
  same.pairwise apart (fun both => ⟨both.2, both.1⟩)

end PrefixesApart

/-! ## A provider registered later -/

/-- No registered prefix is a path prefix of the new one, or the other way round. -/
def ApartFrom (reg : DataProviderRegistry σ) (pre : Str) : Prop :=
  ∀ route ∈ reg.routes, isPathPrefix route.1 pre = false ∧ isPathPrefix pre route.1 = false

instance (reg : DataProviderRegistry σ) (pre : Str) : Decidable (reg.ApartFrom pre) :=
  inferInstanceAs (Decidable (∀ route ∈ reg.routes, _))

theorem ApartFrom.not_matches {pre xpath : Str} (apart : reg.ApartFrom pre)
    {route : Str × IDataProvider σ} (listed : route ∈ reg.routes)
    (owned : matchesPrefix xpath route.1 = true) : matchesPrefix xpath pre = false := by
  cases toNew : matchesPrefix xpath pre with
  | false => rfl
  | true =>
      have both := apart route listed
      rcases isPathPrefix_comparable owned toNew with above | below
      · rw [both.1] at above
        cases above
      · rw [both.2] at below
        cases below

theorem PrefixesApart.addProvider (apart : reg.PrefixesApart) {pre : Str} (apartFrom : reg.ApartFrom pre)
    (provider : IDataProvider σ) : (reg.addProvider pre provider).PrefixesApart := by
  rw [PrefixesApart, DataProviderRegistry.addProvider, List.pairwise_append]
  refine ⟨apart, List.pairwise_singleton _ _, fun route listed added member => ?_⟩
  rw [List.mem_singleton.mp member]
  exact apartFrom route listed

/-- Paths outside the new prefix keep their owner. -/
theorem owner_addProvider_of_not_matches {pre xpath : Str} (provider : IDataProvider σ)
    (outside : matchesPrefix xpath pre = false) :
    (reg.addProvider pre provider).owner xpath = reg.owner xpath := by
  rw [owner, addProvider, List.find?_append, owner]
  have notNew : [(pre, provider)].find? (fun route => matchesPrefix xpath route.1) = none := by
    rw [List.find?_eq_none]
    intro route member
    rw [List.mem_singleton.mp member, outside]
    exact Bool.false_ne_true
  rw [notNew, Option.or_none]

/-- Paths under the new prefix belong to the new provider. -/
theorem owner_addProvider_of_matches {pre xpath : Str} (apart : reg.ApartFrom pre)
    (provider : IDataProvider σ) (inside : matchesPrefix xpath pre = true) :
    (reg.addProvider pre provider).owner xpath = some (pre, provider) := by
  have noOld : reg.routes.find? (fun route => matchesPrefix xpath route.1) = none := by
    rw [List.find?_eq_none]
    intro route listed owned
    rw [apart.not_matches listed owned] at inside
    cases inside
  rw [owner, addProvider, List.find?_append, noOld, Option.none_or, List.find?_cons, inside]

end DataProviderRegistry

/-! ## `fill` beside `snapshot` -/

/-- The provider fills exactly what it snapshots. -/
def FillsSnapshot {σ : Type} (provider : IDataProvider σ) : Prop :=
  ∀ (s : σ) (xpath : Str) (list : List Update),
    provider.fill s xpath list = list ++ (emitSnapshot (provider.snapshot s xpath) []).1

/-- Every store-backed provider does. -/
theorem storeBackedProvider_fillsSnapshot {σ : Type} (self : σ -> StoreBackedProvider) :
    FillsSnapshot (storeBackedProvider self) := by
  intro s xpath list
  have collected := (self s).store.collect_eq_emitSnapshot xpath list
  exact congrArg Prod.fst collected

/-- The updates one provider adds to a `fill`. -/
def filledBy {σ : Type} (s : σ) (xpath : Str) (route : Str × IDataProvider σ) : List Update :=
  (emitSnapshot (route.2.snapshot s xpath) []).1

theorem mem_emitSnapshot {snap : Snapshot} {u : Update} :
    u ∈ (emitSnapshot snap []).1 ↔
      ∃ (key : Str) (leaf : Leaf), snap[key]? = some leaf ∧ u = leafUpdate key leaf.val := by
  rw [emitSnapshot_updates, List.nil_append, List.mem_map]
  constructor
  · rintro ⟨entry, member, rfl⟩
    exact ⟨entry.1, entry.2, OrdMap.find_of_mem_toList member, rfl⟩
  · rintro ⟨key, leaf, found, rfl⟩
    exact ⟨(key, leaf), OrdMap.mem_toList_of_find found, rfl⟩

namespace DataProviderRegistry

variable {σ : Type} {reg : DataProviderRegistry σ}

private theorem fill_foldl {routes : List (Str × IDataProvider σ)}
    (fills : ∀ route ∈ routes, FillsSnapshot route.2) (s : σ) (xpath : Str) (acc : List Update × Bool) :
    routes.foldl
      (fun acc route =>
        if matchesPrefix xpath route.1 then (route.2.fill s xpath acc.1, true) else acc) acc =
      (acc.1 ++ (routes.filter (fun route => matchesPrefix xpath route.1)).flatMap (filledBy s xpath),
        acc.2 || routes.any (fun route => matchesPrefix xpath route.1)) := by
  induction routes generalizing acc with
  | nil => rw [List.foldl_nil, List.filter_nil, List.flatMap_nil, List.append_nil, List.any_nil,
      Bool.or_false]
  | cons route routes inductionHypothesis =>
      rw [List.foldl_cons, inductionHypothesis (fun other member => fills other (List.mem_cons_of_mem _ member)),
        List.filter_cons, List.any_cons]
      cases matchesPrefix xpath route.1 with
      | false => rw [if_neg Bool.false_ne_true, if_neg Bool.false_ne_true, Bool.false_or]
      | true =>
          rw [if_pos rfl, if_pos rfl, fills route List.mem_cons_self, List.flatMap_cons,
            List.append_assoc, Bool.true_or, Bool.or_true]
          rfl

/-- `fill` appends what each owning provider has, in the order of registration. -/
theorem fill_eq (fills : ∀ route ∈ reg.routes, FillsSnapshot route.2) (s : σ) (list : List Update)
    (xpath : Str) :
    (reg.fill s list xpath).list = list ++
        (reg.routes.filter (fun route => matchesPrefix xpath route.1)).flatMap (filledBy s xpath) ∧
      (reg.fill s list xpath).routed = reg.owns xpath := by
  rw [fill, fill_foldl fills, Bool.false_or]
  exact ⟨rfl, rfl⟩

/-- A leaf of the merged snapshot comes from a provider that owns the path. -/
theorem owning_of_merged {s : σ} {xpath key : Str} {leaf : Leaf}
    (found : (reg.snapshot s xpath).snap[key]? = some leaf) :
    ∃ route ∈ reg.routes.filter (fun route => matchesPrefix xpath route.1),
      (route.2.snapshot s xpath)[key]? = some leaf := by
  rw [snapshot_find] at found
  rcases List.exists_of_findSome?_eq_some found with ⟨route, listed, answered⟩
  cases owned : matchesPrefix xpath route.1 with
  | false =>
      rw [owned, if_neg Bool.false_ne_true] at answered
      cases answered
  | true =>
      rw [owned, if_pos rfl] at answered
      exact ⟨route, List.mem_filter.mpr ⟨listed, owned⟩, answered⟩

/-- Where a provider that owns the path has a leaf, the merged snapshot has one. -/
theorem merged_of_owning {s : σ} {xpath key : Str} {leaf : Leaf} {route : Str × IDataProvider σ}
    (owning : route ∈ reg.routes.filter (fun route => matchesPrefix xpath route.1))
    (found : (route.2.snapshot s xpath)[key]? = some leaf) :
    ∃ merged, (reg.snapshot s xpath).snap[key]? = some merged := by
  rw [List.mem_filter] at owning
  rw [← Option.isSome_iff_exists, snapshot_find, List.findSome?_isSome_iff]
  refine ⟨route, owning.1, ?_⟩
  rw [owning.2, if_pos rfl, found]
  rfl

/-- The two read paths of the registry agree.  For providers that fill what they snapshot,
`fill` reports the routing that `snapshot` reports, produces something exactly when the
merged snapshot is not empty, leaves the list it was given in front, and has every leaf
of the merged snapshot in what it adds; when the prefixes are apart it adds exactly the
updates that a notification with the merged snapshot carries, in the same order. -/
theorem fill_agrees_with_snapshot (reg : DataProviderRegistry σ)
    (fills : ∀ route ∈ reg.routes, FillsSnapshot route.2) (s : σ) (list : List Update) (xpath : Str) :
    let filled := reg.fill s list xpath
    let read := reg.snapshot s xpath
    filled.routed = read.routed ∧
      (filled.produced = true ↔ read.snap.isEmpty = false) ∧
      ∃ added, filled.list = list ++ added ∧
        (emitSnapshot read.snap []).1 ⊆ added ∧
        (reg.PrefixesApart -> added = (emitSnapshot read.snap []).1) := by
  intro filled read
  have whole := fill_eq fills s list xpath
  have inMerged : ∀ u, u ∈ (emitSnapshot read.snap []).1 ↔
      ∃ (key : Str) (leaf : Leaf), read.snap[key]? = some leaf ∧ u = leafUpdate key leaf.val :=
    fun u => mem_emitSnapshot
  have lengths : (filled.produced = true ↔
      (reg.routes.filter (fun route => matchesPrefix xpath route.1)).flatMap (filledBy s xpath) ≠ []) := by
    change decide (list.length < (reg.fill s list xpath).list.length) = true ↔ _
    rw [decide_eq_true_iff, whole.1, List.length_append, Nat.lt_add_right_iff_pos, List.length_pos_iff]
  refine ⟨?_, ?_, _, whole.1, ?_, ?_⟩
  · rw [snapshot_routed]
    exact whole.2
  · rw [lengths]
    constructor
    · intro some_
      rcases List.exists_mem_of_ne_nil _ some_ with ⟨u, member⟩
      rcases List.mem_flatMap.mp member with ⟨route, owning, added⟩
      rcases mem_emitSnapshot.mp added with ⟨key, leaf, found, _⟩
      rcases merged_of_owning owning found with ⟨merged, known⟩
      exact OrdMap.isEmpty_eq_false_of_find known
    · intro notEmpty none_
      rcases OrdMap.exists_find_of_not_isEmpty notEmpty with ⟨key, leaf, found⟩
      rcases owning_of_merged found with ⟨route, owning, has⟩
      have member : leafUpdate key leaf.val ∈
          (reg.routes.filter (fun route => matchesPrefix xpath route.1)).flatMap (filledBy s xpath) :=
        List.mem_flatMap.mpr ⟨route, owning, mem_emitSnapshot.mpr ⟨key, leaf, has, rfl⟩⟩
      rw [none_] at member
      cases member
  · intro u member
    rcases (inMerged u).mp member with ⟨key, leaf, found, rfl⟩
    rcases owning_of_merged found with ⟨route, owning, has⟩
    exact List.mem_flatMap.mpr ⟨route, owning, mem_emitSnapshot.mpr ⟨key, leaf, has, rfl⟩⟩
  · intro apart
    change _ = (emitSnapshot (reg.snapshot s xpath).snap []).1
    rw [apart.snapshot_eq]
    have few := Dispatch.length_filter_le_one (apart.exclusive xpath)
    rw [owner, ← List.head?_filter]
    cases owning : reg.routes.filter (fun route => matchesPrefix xpath route.1) with
    | nil => rfl
    | cons route rest =>
        rw [owning, List.length_cons] at few
        have alone : rest = [] := List.length_eq_zero_iff.mp (by omega)
        rw [alone, List.flatMap_cons, List.flatMap_nil, List.append_nil]
        rfl

end DataProviderRegistry

end Backend

namespace Server

open Foundations Gnmi Utils Backend

/-- Both providers of this server inherit `fill` and `snapshot`. -/
theorem registry_fillsSnapshot : ∀ route ∈ registry.routes, FillsSnapshot route.2 := by
  intro route listed
  rw [registry_routes] at listed
  rcases List.mem_cons.mp listed with rfl | later
  · exact storeBackedProvider_fillsSnapshot Stores.sensor
  · rw [List.mem_singleton.mp later]
    exact storeBackedProvider_fillsSnapshot Stores.config

/-- A fill of the NTP record behind one update that is already there. -/
theorem fill_agrees_with_snapshot_ntp :
    let query := "/system/ntp/servers/server[address=\"10.0.0.1\"]/config".toList
    let filled := registry.fill (initialStores 1 2) [({} : Update)] query
    let read := registry.snapshot (initialStores 1 2) query
    filled.routed = read.routed ∧
      (filled.produced = true ↔ read.snap.isEmpty = false) ∧
      ∃ added, filled.list = [({} : Update)] ++ added ∧
        (emitSnapshot read.snap []).1 ⊆ added ∧
        (registry.PrefixesApart -> added = (emitSnapshot read.snap []).1) :=
  DataProviderRegistry.fill_agrees_with_snapshot registry registry_fillsSnapshot (initialStores 1 2)
    [({} : Update)] "/system/ntp/servers/server[address=\"10.0.0.1\"]/config".toList

end Server
end PscMockServer
