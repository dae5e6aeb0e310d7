import PscMockServer.Backend.Owners
import PscMockServer.Gnmi.Observations
import Mathlib.Data.List.Pairwise

namespace PscMockServer

open Foundations Gnmi Utils Backend

/-!
# Registering providers

`main.cpp` invites further calls of `addProvider`.  What a further provider changes for
the clients of the existing ones, and what the order of the calls decides, is said here
about whole RPCs: the answers of Get and Subscribe and the effect of Set.
-/

namespace Backend

variable {σ : Type} {reg : DataProviderRegistry σ}

/-! ## Commits over routes in another order -/

/-- Being apart is mutual. -/
theorem Cell.Apart.symm {first second : Cell σ} (apart : first.Apart second) : second.Apart first where
  first_kept := apart.second_kept
  second_kept := apart.first_kept
  put_comm := fun other provider s => (apart.put_comm provider other s).symm

/-- Providers with their objects apart take their slices in any order. -/
theorem Cell.Apart.handOver_comm {first second : (Str × IDataProvider σ) × Cell σ}
    (apart : first.2.Apart second.2)
    (firstServes : first.2.Accepts first.1.2 ∨ Cell.Refuses first.1.2)
    (secondServes : second.2.Accepts second.1.2 ∨ Cell.Refuses second.1.2)
    (acc : σ × WriteResult) (batch later : WriteBatch) :
    DataProviderRegistry.handOver (DataProviderRegistry.handOver acc (first.1, batch)) (second.1, later) =
      DataProviderRegistry.handOver (DataProviderRegistry.handOver acc (second.1, later))
        (first.1, batch) := by
  simp only [DataProviderRegistry.handOver]
  rcases firstServes with firstAccepts | firstRefuses
  · rcases secondServes with secondAccepts | secondRefuses
    · simp only [firstAccepts _ _, secondAccepts _ _, apart.second_kept, apart.first_kept,
        apart.put_comm]
    · simp only [firstAccepts _ _, secondRefuses _ _]
      rfl
  · rcases secondServes with secondAccepts | secondRefuses
    · simp only [firstRefuses _ _, secondAccepts _ _]
      rfl
    · simp only [firstRefuses _ _, secondRefuses _ _]

/-- A commit does not depend on the order of the routes. -/
theorem DataProviderRegistry.StoreBacked.commit_perm {other : DataProviderRegistry σ} (backed : reg.StoreBacked)
    (same : reg.routes.Perm other.routes) (s : σ) (batch : WriteBatch) :
    reg.commit s batch = other.commit s batch := by
  rcases backed with ⟨cells, routes, serves, apart⟩
  have mutual_ : Std.Symm
      (fun first second : (Str × IDataProvider σ) × Cell σ => first.2.Apart second.2) :=
    ⟨fun first second between => between.symm⟩
  rw [DataProviderRegistry.commit_eq_foldl, DataProviderRegistry.commit_eq_foldl]
  apply same.foldl_eq'
  intro first firstListed second secondListed acc
  rw [← routes, List.mem_map] at firstListed secondListed
  rcases firstListed with ⟨firstCell, inFirst, rfl⟩
  rcases secondListed with ⟨secondCell, inSecond, rfl⟩
  by_cases sameCell : firstCell = secondCell
  · rw [sameCell]
  · have commute := (apart.forall inFirst inSecond sameCell).handOver_comm
      (serves firstCell inFirst) (serves secondCell inSecond) acc
      (DataProviderRegistry.sliceFor batch firstCell.1) (DataProviderRegistry.sliceFor batch secondCell.1)
    by_cases firstEmpty : (DataProviderRegistry.sliceFor batch firstCell.1).isEmpty = true
    · rw [if_pos firstEmpty, if_pos firstEmpty]
    · rw [if_neg firstEmpty, if_neg firstEmpty]
      by_cases secondEmpty : (DataProviderRegistry.sliceFor batch secondCell.1).isEmpty = true
      · rw [if_pos secondEmpty, if_pos secondEmpty]
      · rw [if_neg secondEmpty, if_neg secondEmpty]
        exact commute

end Backend

namespace Server

variable {σ : Type} {reg : DataProviderRegistry σ}

/-! ## Providers keep to their prefix -/

/-- Every leaf a provider shows for a query of its own lies under its prefix. -/
def Housed (reg : DataProviderRegistry σ) (s : σ) : Prop :=
  ∀ route ∈ reg.routes, ∀ (query key : Str) (leaf : Leaf),
    DataProviderRegistry.matchesPrefix query route.1 = true ->
      (route.2.snapshot s query)[key]? = some leaf ->
        DataProviderRegistry.matchesPrefix key route.1 = true

/-- The states of this server are housed. -/
theorem Invariant.housed {s : Stores} (inv : Invariant s) : Housed registry s := by
  intro route listed query key leaf _ found
  rw [registry_routes] at listed
  rcases List.mem_cons.mp listed with rfl | later
  · have stored := ((LeafStore.snapshot_find_iff _ query key leaf).mp found).1
    have listed := (inv.sensor_leaf stored).1
    rw [DataProviderRegistry.matchesPrefix, (sensorPaths_canonical key listed).strip]
    exact (isPathPrefix_iff _ _).mpr (Or.inr (Or.inr (sensorPaths_routed key listed)))
  · rw [List.mem_singleton.mp later] at found ⊢
    have stored := ((LeafStore.snapshot_find_iff _ query key leaf).mp found).1
    have listed := (inv.config_leaf stored).1
    rw [DataProviderRegistry.matchesPrefix, (configPaths_canonical key listed).strip]
    exact config_routed listed

/-! ## A further provider -/

section Further

variable (apart : reg.PrefixesApart) {pre : Str} (apartFrom : reg.ApartFrom pre)
  (provider : IDataProvider σ)

include apart apartFrom

/-- Outside its prefix a further provider is not seen. -/
theorem answersAlike_addProvider {s : σ} (housed : Housed reg s) {query : Str}
    (outside : DataProviderRegistry.matchesPrefix query pre = false) :
    AnswersAlike (reg.addProvider pre provider) s reg s query := by
  have more := apart.addProvider apartFrom provider
  have same : (reg.addProvider pre provider).snapshot s query = reg.snapshot s query := by
    rw [more.snapshot_eq, apart.snapshot_eq,
      DataProviderRegistry.owner_addProvider_of_not_matches provider outside]
  refine ⟨same, fun key leaf found => ?_⟩
  rw [same, apart.snapshot_eq] at found
  cases owned : reg.owner query with
  | none =>
      rw [owned] at found
      simp only [Option.elim_none, Std.ExtTreeMap.getElem?_empty] at found
      cases found
  | some route =>
      rw [owned] at found
      have known := DataProviderRegistry.mem_of_owner owned
      have inside := housed route known.1 query key leaf known.2 found
      rw [more.atomicPrefix_eq, apart.atomicPrefix_eq,
        DataProviderRegistry.owner_addProvider_of_not_matches provider
          (apartFrom.not_matches known.1 inside)]

omit apart apartFrom in
/-- A commit without ops under its prefix does not reach it. -/
theorem commit_addProvider {batch : WriteBatch}
    (outside : ∀ op ∈ batch.ops, DataProviderRegistry.matchesPrefix op.xpath pre = false) (s : σ) :
    (reg.addProvider pre provider).commit s batch = reg.commit s batch := by
  have nothing : (DataProviderRegistry.sliceFor batch (pre, provider)).isEmpty = true := by
    rw [WriteBatch.isEmpty, DataProviderRegistry.sliceFor, List.isEmpty_iff, List.filter_eq_nil_iff]
    intro op member inside
    rw [outside op member] at inside
    cases inside
  rw [DataProviderRegistry.commit_eq_foldl, DataProviderRegistry.addProvider, List.foldl_append,
    List.foldl_cons, List.foldl_nil, if_pos nothing]
  rfl

end Further

/-- The order in which providers are registered decides nothing.  With prefixes apart and
each provider writing to an object of its own, two registries with the same routes in
any order give the same service to every Get and Subscribe and carry out every Set
alike. -/
theorem registration_order_ignored (apart : reg.PrefixesApart) (backed : reg.StoreBacked)
    (other : DataProviderRegistry σ) (same : reg.routes.Perm other.routes) :
    ServesAlike reg id other id (fun _ => True) ∧
      ∀ (s : σ) (now : Int) (request : SetRequest),
        Gnmi.Set.run reg s now request = Gnmi.Set.run other s now request := by
  have otherApart := apart.perm same
  have owner : ∀ xpath, reg.owner xpath = other.owner xpath := apart.owner_perm same
  refine ⟨servesAlike (fun s xpath _ => ⟨?_, fun key leaf _ => ?_⟩) (fun xpath _ => ?_), ?_⟩
  · rw [id, apart.snapshot_eq, otherApart.snapshot_eq, owner]
  · rw [apart.atomicPrefix_eq, otherApart.atomicPrefix_eq, owner]
  · rw [DataProviderRegistry.preferredMode_eq, DataProviderRegistry.preferredMode_eq, owner]
  · intro s now request
    have writable : ∀ xpath ∈ Gnmi.Set.targets request, reg.writable s xpath = other.writable s xpath := by
      intro xpath _
      rw [apart.writable_eq_owner, otherApart.writable_eq_owner, owner]
    refine Prod.ext ?_ (Gnmi.Set.run_congr writable now)
    rw [Gnmi.Set.run, Gnmi.Set.run, Gnmi.Set.checks_congr writable, backed.commit_perm same]

/-- The two providers of this server in the other order, and a client that deletes the host
name. -/
theorem registration_order_ignored_reverse :
    Gnmi.Set.run registry (initialStores 1 2) 3 { delete := [hostnamePath] } =
      Gnmi.Set.run ⟨registry.routes.reverse⟩ (initialStores 1 2) 3 { delete := [hostnamePath] } :=
  (registration_order_ignored registry_prefixesApart registry_storeBacked ⟨registry.routes.reverse⟩
    (List.reverse_perm registry.routes).symm).2 (initialStores 1 2) 3 { delete := [hostnamePath] }

end Server
end PscMockServer
