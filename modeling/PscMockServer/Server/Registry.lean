import PscMockServer.Backend.SystemConfigProvider
import PscMockServer.Backend.PscPowerSensorProvider
import PscMockServer.Gnmi.Set

namespace PscMockServer
namespace Server

open Foundations Gnmi Utils Backend

/-!
# The server `main.cpp` builds

Two providers under the prefixes `/components/component` and `/system`.  The
registry never changes after `RunServer` built it; what changes is the state of the
two providers and the simulator's walks.  The only writers are Set RPCs and
simulator ticks.
-/

/-- The mutable state of the registered providers. -/
structure Stores where
  sensor : StoreBackedProvider
  config : StoreBackedProvider
deriving DecidableEq

def sensorPrefix : Str := "/components/component".toList

def configPrefix : Str := "/system".toList

/-- The registry built in `RunServer`. -/
def registry : DataProviderRegistry Stores :=
  (({} : DataProviderRegistry Stores).addProvider sensorPrefix
    (PscPowerSensorProvider.provider Stores.sensor)).addProvider configPrefix
    (SystemConfigProvider.provider Stores.config (fun config s => { s with config := config }))

/-- The two providers right after construction, with the clock readings they took. -/
def initialStores (sensorNow configNow : Int) : Stores where
  sensor := PscPowerSensorProvider.create sensorNow
  config := SystemConfigProvider.create configNow

/-! ## Runs -/

/-- The providers and the walks of the simulator thread. -/
structure World where
  stores : Stores
  walks : List PscPowerSensorProvider.Walk

def initialWorld (sensorNow configNow : Int) : World where
  stores := initialStores sensorNow configNow
  walks := PscPowerSensorProvider.buildWalks

/-- What can change the stores: a Set RPC with the time it read, or a tick with its
time and random draws. -/
inductive Action where
  | set (request : SetRequest) (now : Int)
  | tick (now : Int) (draws : Nat -> PscPowerSensorProvider.Draw)

def World.act (w : World) : Action -> World
  | .set request now => { w with stores := (Gnmi.Set.run registry w.stores now request).1 }
  | .tick now draws =>
      let result := PscPowerSensorProvider.runSimulatorStep now draws w.stores.sensor w.walks
      { stores := { w.stores with sensor := result.1 }, walks := result.2 }

def World.run (w : World) (actions : List Action) : World :=
  actions.foldl World.act w

/-- A state the stores can be in. -/
def Reachable (stores : Stores) : Prop :=
  ∃ sensorNow configNow actions,
    stores = ((initialWorld sensorNow configNow).run actions).stores

/-- The gNMI path of the host name. -/
def hostnamePath : Path where
  elem := [⟨"system".toList, .empty⟩, ⟨"config".toList, .empty⟩, ⟨"hostname".toList, .empty⟩]

/-! ## The declared leaves -/

/-- The paths of the sensor leaves, in declaration order. -/
def sensorPaths : List Str :=
  PscPowerSensorProvider.buildWalks.map PscPowerSensorProvider.Walk.path

/-- The paths of the configuration leaves, in declaration order. -/
def configPaths : List Str :=
  (SystemConfigProvider.declareLeaves 0).map DeclaredLeaf.path

theorem sensor_declared (now : Int) :
    (PscPowerSensorProvider.declareLeaves now).map DeclaredLeaf.path = sensorPaths := by
  rw [PscPowerSensorProvider.declareLeaves, List.map_map]
  rfl

theorem config_declared (now : Int) :
    (SystemConfigProvider.declareLeaves now).map DeclaredLeaf.path = configPaths := rfl

theorem sensor_type {now : Int} {d : DeclaredLeaf}
    (declared : d ∈ PscPowerSensorProvider.declareLeaves now) : d.type = .operational := by
  rcases List.mem_map.mp declared with ⟨w, _, rfl⟩
  rfl

theorem config_type {now : Int} {d : DeclaredLeaf}
    (declared : d ∈ SystemConfigProvider.declareLeaves now) : d.type = .config := by
  have types : (SystemConfigProvider.declareLeaves now).map DeclaredLeaf.type =
      List.replicate 9 .config := rfl
  exact List.eq_of_mem_replicate (types ▸ List.mem_map_of_mem declared)

theorem sensorPaths_canonical : ∀ path ∈ sensorPaths, Canonical path := by
  decide +kernel

theorem configPaths_canonical : ∀ path ∈ configPaths, Canonical path := by
  decide +kernel

theorem sensorPaths_routed : ∀ path ∈ sensorPaths, sensorPrefix ++ ['['] <+: path := by
  decide +kernel

theorem configPaths_routed : ∀ path ∈ configPaths, configPrefix ++ ['/'] <+: path := by
  decide +kernel

/-- `path` is declared with type `Config` by one of the two providers. -/
def DeclaredConfig (path : Str) : Prop :=
  ∃ now, ∃ d ∈ PscPowerSensorProvider.declareLeaves now ++ SystemConfigProvider.declareLeaves now,
    d.path = path ∧ d.type = .config

theorem declaredConfig_iff (path : Str) : DeclaredConfig path ↔ path ∈ configPaths := by
  constructor
  · rintro ⟨now, d, declared, rfl, isConfig⟩
    rcases List.mem_append.mp declared with isSensor | isSystem
    · rw [sensor_type isSensor] at isConfig
      cases isConfig
    · rw [← config_declared now]
      exact List.mem_map_of_mem isSystem
  · intro listed
    rcases List.mem_map.mp listed with ⟨d, declared, rfl⟩
    exact ⟨0, d, List.mem_append_right _ declared, rfl, config_type declared⟩

/-! ## The two schemas -/

theorem sensor_schema_find (now : Int) (path : Str) (type : LeafType) :
    (PscPowerSensorProvider.create now).schema[path]? = some type ↔
      path ∈ sensorPaths ∧ type = .operational := by
  rw [← sensor_declared now]
  apply StoreBackedProvider.initLeaves_schema_find_iff
  · exact fun d declared => sensor_type declared
  · rw [sensor_declared]
    exact fun path listed => (sensorPaths_canonical path listed).strip

theorem config_schema_find (now : Int) (path : Str) (type : LeafType) :
    (SystemConfigProvider.create now).schema[path]? = some type ↔
      path ∈ configPaths ∧ type = .config := by
  rw [← config_declared now]
  apply StoreBackedProvider.initLeaves_schema_find_iff
  · exact fun d declared => config_type declared
  · exact fun path listed => (configPaths_canonical path listed).strip

/-! ## Routing -/

/-- No path is routed to both providers. -/
theorem routes_exclusive {xpath : Str}
    (toSensor : DataProviderRegistry.matchesPrefix xpath sensorPrefix = true) :
    DataProviderRegistry.matchesPrefix xpath configPrefix = false := by
  cases toConfig : DataProviderRegistry.matchesPrefix xpath configPrefix with
  | false => rfl
  | true =>
      have clash : configPrefix <+: sensorPrefix :=
        List.prefix_of_prefix_length_le (starts_of_isPathPrefix toConfig) (starts_of_isPathPrefix toSensor)
          (by decide)
      exact absurd clash (by decide)

theorem config_routed {path : Str} (listed : path ∈ configPaths) :
    isPathPrefix configPrefix path = true :=
  (isPathPrefix_iff configPrefix path).mpr (Or.inr (Or.inl (configPaths_routed path listed)))

/-- A declared configuration path goes to the configuration provider only. -/
theorem config_routed_only {xpath : Str} (listed : stripPathQuotes xpath ∈ configPaths) :
    DataProviderRegistry.matchesPrefix xpath configPrefix = true ∧
      DataProviderRegistry.matchesPrefix xpath sensorPrefix = false := by
  have toConfig : DataProviderRegistry.matchesPrefix xpath configPrefix = true := config_routed listed
  refine ⟨toConfig, ?_⟩
  cases toSensor : DataProviderRegistry.matchesPrefix xpath sensorPrefix with
  | false => rfl
  | true =>
      rw [routes_exclusive toSensor] at toConfig
      cases toConfig

theorem registry_owns (xpath : Str) :
    registry.owns xpath = (DataProviderRegistry.matchesPrefix xpath sensorPrefix ||
      DataProviderRegistry.matchesPrefix xpath configPrefix) := by
  rw [DataProviderRegistry.owns]
  change (DataProviderRegistry.matchesPrefix xpath sensorPrefix ||
    (DataProviderRegistry.matchesPrefix xpath configPrefix || false)) = _
  rw [Bool.or_false]

/-- `writable` on the two routes. -/
theorem registry_writable (s : Stores) (xpath : Str) :
    registry.writable s xpath =
      { routed := registry.owns xpath
        applied := (DataProviderRegistry.matchesPrefix xpath sensorPrefix && s.sensor.writable xpath) ||
          (DataProviderRegistry.matchesPrefix xpath configPrefix && s.config.writable xpath) } := by
  rw [DataProviderRegistry.writable_eq]
  change WriteResult.mk _ ((DataProviderRegistry.matchesPrefix xpath sensorPrefix &&
    s.sensor.writable xpath) || ((DataProviderRegistry.matchesPrefix xpath configPrefix &&
      s.config.writable xpath) || false)) = _
  rw [Bool.or_false]

/-- The provider stores after a commit whose ops all go to the configuration provider. -/
theorem registry_commit_config (s : Stores) (batch : WriteBatch)
    (listed : ∀ op ∈ batch.ops, stripPathQuotes op.xpath ∈ configPaths) :
    (registry.commit s batch).1 = { s with config := s.config.commitStamped batch } := by
  have noSensor : batch.ops.filter
      (fun op => DataProviderRegistry.matchesPrefix op.xpath sensorPrefix) = [] := by
    rw [List.filter_eq_nil_iff]
    intro op member toSensor
    rw [(config_routed_only (listed op member)).2] at toSensor
    cases toSensor
  have allConfig : batch.ops.filter
      (fun op => DataProviderRegistry.matchesPrefix op.xpath configPrefix) = batch.ops := by
    rw [List.filter_eq_self]
    exact fun op member => (config_routed_only (listed op member)).1
  rw [DataProviderRegistry.commit, registry, DataProviderRegistry.addProvider,
    DataProviderRegistry.addProvider]
  simp only [List.nil_append, List.cons_append, List.foldl_cons, List.foldl_nil, noSensor, allConfig,
    WriteBatch.isEmpty, List.isEmpty_nil, if_true]
  cases empty : batch.ops.isEmpty with
  | true =>
      have noOps : batch = ⟨[]⟩ := congrArg WriteBatch.mk (List.isEmpty_iff.mp empty)
      rw [if_pos rfl, noOps]
      rfl
  | false => rfl

end Server
end PscMockServer
