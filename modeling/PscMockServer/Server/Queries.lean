import PscMockServer.Server.SchemaInvariant
import PscMockServer.Telemetry.Emission

namespace PscMockServer
namespace Server

open Foundations Gnmi Utils Backend Telemetry

/-!
# What the registry answers to a query

A query that some registered prefix owns is answered with exactly the stored leaves
it selects, whichever provider holds them.
-/

/-- One of the two stores holds the leaf. -/
def Holds (s : Stores) (key : Str) (leaf : Leaf) : Prop :=
  s.sensor.store.leaves[key]? = some leaf ∨ s.config.store.leaves[key]? = some leaf

/-- The query selects the stored leaf. -/
def Selects (s : Stores) (query key : Str) (leaf : Leaf) : Prop :=
  Holds s key leaf ∧ selects (stripPathQuotes query) key = true

namespace Invariant

variable {s : Stores}

theorem holds_listed (inv : Invariant s) {key : Str} {leaf : Leaf} (holds : Holds s key leaf) :
    key ∈ sensorPaths ∧ leaf.type = .operational ∨ key ∈ configPaths ∧ leaf.type = .config := by
  rcases holds with sensor | config
  · exact Or.inl (inv.sensor_leaf sensor)
  · exact Or.inr (inv.config_leaf config)

theorem listed (inv : Invariant s) {key : Str} {leaf : Leaf} (holds : Holds s key leaf) :
    key ∈ sensorPaths ++ configPaths := by
  rcases inv.holds_listed holds with ⟨sensor, _⟩ | ⟨config, _⟩
  · exact List.mem_append_left _ sensor
  · exact List.mem_append_right _ config

theorem holds_canonical (inv : Invariant s) {key : Str} {leaf : Leaf} (holds : Holds s key leaf) :
    Canonical key := by
  rcases inv.holds_listed holds with ⟨listed, _⟩ | ⟨listed, _⟩
  · exact sensorPaths_canonical key listed
  · exact configPaths_canonical key listed

end Invariant

/-! ## No selection across providers -/

theorem sensorPaths_apart : ∀ key ∈ sensorPaths,
    ¬ configPrefix <+: key ∧ ¬ configPrefix <+: stripKeys key := by
  decide +kernel

theorem configPaths_apart : ∀ key ∈ configPaths,
    ¬ sensorPrefix <+: key ∧ ¬ sensorPrefix <+: stripKeys key := by
  decide +kernel

/-- What a query selects begins like the query, up to predicates. -/
theorem prefix_of_selects {pre query key : Str} (owned : pre <+: query)
    (selected : selects query key = true) : pre <+: key ∨ pre <+: stripKeys key := by
  rw [selects] at selected
  split at selected
  · next direct => exact Or.inl (owned.trans (starts_of_isPathPrefix direct))
  · split at selected
    · cases selected
    · exact Or.inr (owned.trans (starts_of_isPathPrefix selected))

theorem registry_routes : registry.routes =
    [(sensorPrefix, PscPowerSensorProvider.provider Stores.sensor),
      (configPrefix, SystemConfigProvider.provider Stores.config
        (fun config s => { s with config := config }))] := rfl

/-- The registry's snapshot of a query, in terms of the stored leaves. -/
theorem snapshot_iff {s : Stores} (inv : Invariant s) (query key : Str) (leaf : Leaf) :
    (registry.snapshot s query).snap[key]? = some leaf ↔
      registry.owns query = true ∧ Selects s query key leaf := by
  rw [DataProviderRegistry.snapshot_find, registry_routes, registry_owns]
  simp only [List.findSome?_cons, List.findSome?_nil, PscPowerSensorProvider.provider,
    SystemConfigProvider.provider, storeBackedProvider, LeafStore.snapshot_find]
  cases toSensor : DataProviderRegistry.matchesPrefix query sensorPrefix with
  | true =>
      rw [routes_exclusive toSensor]
      have owned : sensorPrefix <+: stripPathQuotes query := starts_of_isPathPrefix toSensor
      cases selected : selects (stripPathQuotes query) key with
      | false => simp [Selects, selected]
      | true =>
          have notConfig : s.config.store.leaves[key]? ≠ some leaf := by
            intro stored
            have apart := configPaths_apart key (inv.config_leaf stored).1
            exact (prefix_of_selects owned selected).elim apart.1 apart.2
          simp only [Selects, Holds, selected, notConfig]
          cases s.sensor.store.leaves[key]? <;> simp
  | false =>
      cases toConfig : DataProviderRegistry.matchesPrefix query configPrefix with
      | false => simp
      | true =>
          have owned : configPrefix <+: stripPathQuotes query := starts_of_isPathPrefix toConfig
          cases selected : selects (stripPathQuotes query) key with
          | false => simp [Selects, selected]
          | true =>
              have notSensor : s.sensor.store.leaves[key]? ≠ some leaf := by
                intro stored
                have apart := sensorPaths_apart key (inv.sensor_leaf stored).1
                exact (prefix_of_selects owned selected).elim apart.1 apart.2
              simp only [Selects, Holds, selected, notSensor]
              cases s.config.store.leaves[key]? <;> simp

theorem snapshot_canonical {s : Stores} (inv : Invariant s) (query : Str) :
    CanonicalKeys (registry.snapshot s query).snap := by
  intro key leaf found
  exact inv.holds_canonical ((snapshot_iff inv query key leaf).mp found).2.1

/-! ## The atomic containers -/

/-- The registry asks the configuration provider for every path it answers for. -/
theorem registry_atomicPrefix : registry.atomicPrefix = SystemConfigProvider.atomicPrefix := by
  funext xpath
  rw [DataProviderRegistry.atomicPrefix, registry_routes]
  simp only [List.findSome?_cons, List.findSome?_nil, PscPowerSensorProvider.provider,
    SystemConfigProvider.provider, storeBackedProvider]
  cases answer : SystemConfigProvider.atomicPrefix xpath with
  | none => simp
  | some container =>
      have known := (SystemConfigProvider.atomicPrefix_eq_some_iff xpath container).mp answer
      have rooted : configPrefix ++ ['/'] <+: stripPathQuotes xpath := by
        have head : configPrefix ++ ['/'] <+: SystemConfigProvider.root := by decide
        refine (head.trans known.1.starts).trans ?_
        rcases known.2 with same | below
        · exact same ▸ List.prefix_refl container
        · exact (List.prefix_append container ['/']).trans below
      have routed : DataProviderRegistry.matchesPrefix xpath configPrefix = true :=
        (isPathPrefix_iff configPrefix (stripPathQuotes xpath)).mpr (Or.inr (Or.inl rooted))
      simp [routed]

/-- Containers are answered for exactly the paths at or below them. -/
theorem registry_atomicLaw : AtomicLaw registry.atomicPrefix := by
  rw [registry_atomicPrefix]
  constructor
  · intro path container canonical answered
    have known := (SystemConfigProvider.atomicPrefix_eq_some_iff path container).mp answered
    rw [canonical.strip] at known
    exact known.2
  · intro path other container _ canonical answered below
    have known := (SystemConfigProvider.atomicPrefix_eq_some_iff path container).mp answered
    refine (SystemConfigProvider.atomicPrefix_eq_some_iff other container).mpr ⟨known.1, ?_⟩
    rw [canonical.strip]
    exact below

/-- Containers are cut out at a slash, answer for everything below them, do not nest, and
every snapshot has the leaves at or below a container in the group of that container and
nowhere else. -/
theorem atomic_containers_apart :
    (∀ p c : Str, SystemConfigProvider.atomicPrefix p = some c ->
      (stripPathQuotes p = c ∨ c ++ ['/'] <+: stripPathQuotes p) ∧
      SystemConfigProvider.atomicPrefix c = some c ∧
      ∀ q : Str, '"' ∉ q -> c ++ ['/'] <+: q -> SystemConfigProvider.atomicPrefix q = some c) ∧
    (∀ p q c d : Str, SystemConfigProvider.atomicPrefix p = some c ->
      SystemConfigProvider.atomicPrefix q = some d -> ¬ c ++ ['/'] <+: d) ∧
    ∀ p c : Str, SystemConfigProvider.atomicPrefix p = some c ->
      ∀ (snap : Snapshot) (key : Str) (leaf : Leaf), snap[key]? = some leaf ->
        (stripPathQuotes key = c ∨ c ++ ['/'] <+: stripPathQuotes key) ->
        (partition snap registry).1[key]? = none ∧ c ∈ (partition snap registry).2 ∧
        ∀ d : Str, ((partition snap registry).2[d]?.getD ∅)[key]? = if d = c then some leaf else none := by
  refine ⟨fun p c answered => ⟨?_, SystemConfigProvider.atomicPrefix_self answered, fun q clean below => ?_⟩,
    fun p q c d => SystemConfigProvider.containers_apart, fun p c answered snap key leaf stored below => ?_⟩
  · exact ((SystemConfigProvider.atomicPrefix_eq_some_iff p c).mp answered).2
  · apply SystemConfigProvider.atomicPrefix_of_below answered
    rw [stripPathQuotes_eq_self clean]
    exact Or.inr below
  · have own : registry.atomicPrefix key = some c := by
      rw [registry_atomicPrefix]
      exact SystemConfigProvider.atomicPrefix_of_below answered below
    refine ⟨?_, (mem_groups_iff snap registry c).mpr ⟨key, leaf, stored, own⟩, fun d => ?_⟩
    · rw [partition_rest_find, own, if_neg (Option.some_ne_none c)]
    · rw [partition_group_find, own, stored]
      by_cases same : d = c
      · rw [if_pos same, if_pos (congrArg some same.symm)]
      · rw [if_neg same, if_neg (fun other => same (Option.some.inj other).symm)]

/-- Only configuration leaves lie in containers. -/
theorem Invariant.contained_config {s : Stores} (inv : Invariant s) {key container : Str} {leaf : Leaf}
    (holds : Holds s key leaf) (answered : registry.atomicPrefix key = some container) :
    leaf.type = .config := by
  rcases inv.holds_listed holds with ⟨listed, _⟩ | ⟨_, isConfig⟩
  · have outside : ∀ path ∈ sensorPaths, SystemConfigProvider.atomicPrefix path = none := by
      decide +kernel
    rw [registry_atomicPrefix, outside key listed] at answered
    cases answered
  · exact isConfig

end Server
end PscMockServer
