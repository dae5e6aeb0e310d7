import PscMockServer.Server.Registry

namespace PscMockServer
namespace Server

open Foundations Gnmi Utils Backend

/-!
# The schema invariant

The commit of a provider would create an undeclared leaf of type `State`.  That no
run ever does so rests on two writers: the validation phase of a Set accepts exactly
the declared configuration leaves, whatever the stores hold, and the simulator
writes only the paths it declared.
-/

/-! ## The invariant of the stores -/

/-- What every reachable state keeps: the schemas of construction, well-typed
leaves, and exactly the declared sensor leaves. -/
structure Invariant (s : Stores) : Prop where
  sensorSchema : s.sensor.schema = (PscPowerSensorProvider.create 0).schema
  configSchema : s.config.schema = (SystemConfigProvider.create 0).schema
  sensorTyped : s.sensor.WellTyped
  configTyped : s.config.WellTyped
  sensorLeaves : ∀ path : Str, (∃ leaf, s.sensor.store.leaves[path]? = some leaf) ↔ path ∈ sensorPaths

namespace Invariant

variable {s : Stores}

/-- Every sensor leaf is operational. -/
theorem sensor_leaf (inv : Invariant s) {path : Str} {leaf : Leaf}
    (stored : s.sensor.store.leaves[path]? = some leaf) :
    path ∈ sensorPaths ∧ leaf.type = .operational := by
  have typed := (inv.sensorTyped path leaf stored).2
  rw [inv.sensorSchema] at typed
  exact (sensor_schema_find 0 path leaf.type).mp typed

/-- Every configuration leaf is declared, with type `Config`. -/
theorem config_leaf (inv : Invariant s) {path : Str} {leaf : Leaf}
    (stored : s.config.store.leaves[path]? = some leaf) :
    path ∈ configPaths ∧ leaf.type = .config := by
  have typed := (inv.configTyped path leaf stored).2
  rw [inv.configSchema] at typed
  exact (config_schema_find 0 path leaf.type).mp typed

theorem sensor_not_writable (inv : Invariant s) (xpath : Str) : s.sensor.writable xpath = false := by
  rw [StoreBackedProvider.writable, StoreBackedProvider.schemaType, inv.sensorSchema]
  cases found : (PscPowerSensorProvider.create 0).schema[stripPathQuotes xpath]? with
  | none => rfl
  | some type =>
      rw [((sensor_schema_find 0 _ _).mp found).2]
      rfl

theorem config_writable_iff (inv : Invariant s) (xpath : Str) :
    s.config.writable xpath = true ↔ stripPathQuotes xpath ∈ configPaths := by
  rw [StoreBackedProvider.writable, StoreBackedProvider.schemaType, inv.configSchema]
  cases found : (SystemConfigProvider.create 0).schema[stripPathQuotes xpath]? with
  | none =>
      constructor
      · intro impossible
        cases impossible
      · intro listed
        rw [(config_schema_find 0 _ .config).mpr ⟨listed, rfl⟩] at found
        cases found
  | some type =>
      have known := (config_schema_find 0 _ _).mp found
      rw [known.2]
      exact ⟨fun _ => known.1, fun _ => rfl⟩

/-- A path may be written exactly when it is a declared configuration leaf, whatever
the stores hold. -/
theorem writable_applied_iff (inv : Invariant s) (xpath : Str) :
    (registry.writable s xpath).applied = true ↔ stripPathQuotes xpath ∈ configPaths := by
  rw [registry_writable, inv.sensor_not_writable, Bool.and_false, Bool.false_or, Bool.and_eq_true,
    inv.config_writable_iff]
  exact ⟨fun both => both.2, fun listed => ⟨(config_routed_only listed).1, listed⟩⟩

theorem checkWritable_isOk_iff (inv : Invariant s) (xpath : Str) :
    (Gnmi.Set.checkWritable registry s xpath).isOk = true ↔ stripPathQuotes xpath ∈ configPaths := by
  rw [← inv.writable_applied_iff, Gnmi.Set.checkWritable]
  cases applied : (registry.writable s xpath).applied with
  | false => cases (registry.writable s xpath).routed <;> simp [Status.isOk]
  | true =>
      have listed := (inv.writable_applied_iff xpath).mp applied
      have routed : (registry.writable s xpath).routed = true := by
        rw [registry_writable, registry_owns, (config_routed_only listed).1, Bool.or_true]
      simp [routed, Status.isOk, Status.OK]

/-- The outcome of a check does not depend on the stored leaves. -/
theorem checkWritable_steady {other : Stores} (inv : Invariant s) (otherInv : Invariant other)
    (xpath : Str) :
    Gnmi.Set.checkWritable registry s xpath = Gnmi.Set.checkWritable registry other xpath := by
  have applied : (registry.writable s xpath).applied = (registry.writable other xpath).applied := by
    rw [Bool.eq_iff_iff, inv.writable_applied_iff, otherInv.writable_applied_iff]
  have routed : (registry.writable s xpath).routed = (registry.writable other xpath).routed := by
    rw [registry_writable, registry_writable]
  rw [Gnmi.Set.checkWritable, Gnmi.Set.checkWritable, applied, routed]

theorem validateWrite_steady {other : Stores} (inv : Invariant s) (otherInv : Invariant other)
    (upd : Update) (pre : Str) :
    Gnmi.Set.validateWrite registry s upd pre = Gnmi.Set.validateWrite registry other upd pre := by
  rw [Gnmi.Set.validateWrite, Gnmi.Set.validateWrite, inv.checkWritable_steady otherInv]

theorem checks_steady {other : Stores} (inv : Invariant s) (otherInv : Invariant other)
    {request : SetRequest} {check : Stores -> Status}
    (member : check ∈ Gnmi.Set.checks registry request) : check s = check other := by
  rw [Gnmi.Set.checks, List.mem_append, List.mem_append, List.mem_map, List.mem_map,
    List.mem_map] at member
  rcases member with (⟨delpath, _, rfl⟩ | ⟨upd, _, rfl⟩) | ⟨upd, _, rfl⟩
  · exact inv.checkWritable_steady otherInv _
  · exact inv.validateWrite_steady otherInv upd _
  · exact inv.validateWrite_steady otherInv upd _

end Invariant

/-! ## What validation proves -/

/-- The store key an operation of the request addresses. -/
def targetKey (request : SetRequest) (path : Path) : Str :=
  stripPathQuotes (Gnmi.Set.prefixXpath request ++ gnmiToXpath path)

/-- Every operation addresses a declared configuration leaf, and every write has a
path and a value. -/
def Acceptable (request : SetRequest) : Prop :=
  (∀ path ∈ request.delete, DeclaredConfig (targetKey request path)) ∧
    ∀ upd ∈ request.replace ++ request.update,
      upd.path.isSome = true ∧ upd.val.isSome = true ∧ DeclaredConfig (targetKey request upd.getPath)

theorem validateWrite_isOk_iff {s : Stores} (inv : Invariant s) (upd : Update) (pre : Str) :
    (Gnmi.Set.validateWrite registry s upd pre).isOk = true ↔
      upd.path.isSome = true ∧ upd.val.isSome = true ∧
        stripPathQuotes (pre ++ gnmiToXpath upd.getPath) ∈ configPaths := by
  rw [Gnmi.Set.validateWrite, ← inv.checkWritable_isOk_iff]
  cases upd.path with
  | none => simp [Status.isOk]
  | some path => cases upd.val <;> simp [Status.isOk]

/-- Validation passes exactly on the acceptable requests. -/
theorem checks_pass_iff {s : Stores} (inv : Invariant s) (request : SetRequest) :
    (∀ check ∈ Gnmi.Set.checks registry request, (check s).isOk = true) ↔ Acceptable request := by
  simp only [Gnmi.Set.checks, Acceptable, List.mem_append, List.mem_map, declaredConfig_iff, targetKey]
  constructor
  · intro pass
    refine ⟨fun path member => ?_, fun upd member => ?_⟩
    · exact (inv.checkWritable_isOk_iff _).mp (pass _ (Or.inl (Or.inl ⟨path, member, rfl⟩)))
    · rcases member with replaced | updated
      · exact (validateWrite_isOk_iff inv upd _).mp (pass _ (Or.inl (Or.inr ⟨upd, replaced, rfl⟩)))
      · exact (validateWrite_isOk_iff inv upd _).mp (pass _ (Or.inr ⟨upd, updated, rfl⟩))
  · rintro ⟨deletes, writes⟩ check ((⟨path, member, rfl⟩ | ⟨upd, member, rfl⟩) | ⟨upd, member, rfl⟩)
    · exact (inv.checkWritable_isOk_iff _).mpr (deletes path member)
    · exact (validateWrite_isOk_iff inv upd _).mpr (writes upd (Or.inl member))
    · exact (validateWrite_isOk_iff inv upd _).mpr (writes upd (Or.inr member))

theorem Acceptable.ops_listed {request : SetRequest} (acceptable : Acceptable request) (now : Int) :
    ∀ op ∈ (Gnmi.Set.buildBatch request now).ops, stripPathQuotes op.xpath ∈ configPaths := by
  intro op member
  rw [Gnmi.Set.buildBatch_ops] at member
  simp only [Gnmi.Set.batchOps, List.mem_append, List.mem_map] at member
  rcases member with (⟨path, deleted, rfl⟩ | ⟨upd, replaced, rfl⟩) | ⟨upd, updated, rfl⟩
  · exact (declaredConfig_iff _).mp (acceptable.1 path deleted)
  · exact (declaredConfig_iff _).mp (acceptable.2 upd (List.mem_append_left _ replaced)).2.2
  · exact (declaredConfig_iff _).mp (acceptable.2 upd (List.mem_append_right _ updated)).2.2

/-- The two outcomes of a Set on a state with the invariant. -/
theorem set_cases {s : Stores} (inv : Invariant s) (request : SetRequest) (now : Int) :
    (Gnmi.Set.run registry s now request).2.1.isOk = false ∧
        (Gnmi.Set.run registry s now request).1 = s ∧
        (request.extensionSize = 0 -> ¬ Acceptable request) ∨
      request.extensionSize = 0 ∧ Acceptable request ∧ Gnmi.Set.run registry s now request =
        ({ s with config := s.config.commitStamped (Gnmi.Set.buildBatch request now) }, Status.OK,
          Gnmi.Set.accepted request now) := by
  rw [Gnmi.Set.run]
  by_cases extended : 0 < request.extensionSize
  · rw [if_pos extended]
    exact Or.inl ⟨rfl, rfl, fun none_ => absurd none_ (Nat.pos_iff_ne_zero.mp extended)⟩
  · rw [if_neg extended]
    have noExtension : request.extensionSize = 0 := Nat.eq_zero_of_not_pos extended
    have valid : (firstError ((Gnmi.Set.checks registry request).map (fun check => check s))).isOk = true ↔
        Acceptable request := by
      rw [firstError_isOk_iff, List.forall_mem_map]
      exact checks_pass_iff inv request
    cases passed : (firstError ((Gnmi.Set.checks registry request).map (fun check => check s))).isOk with
    | false =>
        refine Or.inl ⟨?_, ?_, fun _ acceptable => ?_⟩
        · simp only [passed, Bool.not_false, if_true]
        · simp only [passed, Bool.not_false, if_true]
        · rw [valid.mpr acceptable] at passed
          cases passed
    | true =>
        have acceptable := valid.mp passed
        refine Or.inr ⟨noExtension, acceptable, ?_⟩
        simp only [passed, Bool.not_true, Bool.false_eq_true, if_false]
        rw [registry_commit_config s _ (acceptable.ops_listed now)]

/-- A Set keeps the invariant. -/
theorem Invariant.set {s : Stores} (inv : Invariant s) (request : SetRequest) (now : Int) :
    Invariant (Gnmi.Set.run registry s now request).1 := by
  rcases set_cases inv request now with ⟨_, unchanged, _⟩ | ⟨_, acceptable, done⟩
  · rw [unchanged]
    exact inv
  · rw [done]
    refine ⟨inv.sensorSchema, inv.configSchema, inv.sensorTyped, ?_, inv.sensorLeaves⟩
    apply inv.configTyped.commitStamped
    intro op member _
    rw [inv.configSchema]
    exact ⟨.config, (config_schema_find 0 _ _).mpr ⟨acceptable.ops_listed now op member, rfl⟩⟩

/-! ## The invariant holds in every run -/

private theorem sensorLeaves_commitStamped {provider : StoreBackedProvider} {batch : WriteBatch}
    (sets : ∀ op ∈ batch.ops, op.kind = .set) (path : Str) :
    (∃ leaf, (provider.commitStamped batch).store.leaves[path]? = some leaf) ↔
      (∃ op ∈ batch.ops, stripPathQuotes op.xpath = path) ∨
        ∃ leaf, provider.store.leaves[path]? = some leaf := by
  rw [StoreBackedProvider.commitStamped_find, StoreBackedProvider.afterOps]
  by_cases touched : ∃ op ∈ batch.ops, stripPathQuotes op.xpath = path
  · rcases OrdMap.lastOf_touched touched with ⟨op, member, _, result⟩
    refine ⟨fun _ => Or.inl touched, fun _ => ?_⟩
    rw [result]
    simp only [StoreBackedProvider.opResult, sets op member]
    exact ⟨_, rfl⟩
  · rw [OrdMap.lastOf_untouched (fun op member hit => touched ⟨op, member, hit⟩)]
    exact ⟨Or.inr, fun either => either.resolve_left touched⟩

theorem initial_invariant (sensorNow configNow : Int) : Invariant (initialStores sensorNow configNow) where
  sensorSchema := by
    apply Std.ExtTreeMap.ext_getElem?
    intro path
    apply Option.ext
    intro type
    exact (sensor_schema_find sensorNow path type).trans (sensor_schema_find 0 path type).symm
  configSchema := by
    apply Std.ExtTreeMap.ext_getElem?
    intro path
    apply Option.ext
    intro type
    exact (config_schema_find configNow path type).trans (config_schema_find 0 path type).symm
  sensorTyped := StoreBackedProvider.initLeaves_wellTyped _
  configTyped := StoreBackedProvider.initLeaves_wellTyped _
  sensorLeaves := by
    intro path
    constructor
    · rintro ⟨leaf, stored⟩
      have typed := StoreBackedProvider.initLeaves_wellTyped _ path leaf stored
      exact ((sensor_schema_find sensorNow path leaf.type).mp typed.2).1
    · intro listed
      rw [← sensor_declared sensorNow] at listed
      rcases List.mem_map.mp listed with ⟨d, declared, rfl⟩
      rw [sensor_declared] at listed
      rcases List.mem_map.mp declared with ⟨w, walk, rfl⟩
      have touched : ∃ op ∈ StoreBackedProvider.seedOps (PscPowerSensorProvider.declareLeaves sensorNow),
          stripPathQuotes op.xpath = w.path :=
        ⟨_, List.mem_filterMap.mpr ⟨_, declared, rfl⟩, (sensorPaths_canonical w.path listed).strip⟩
      rcases OrdMap.lastOf_touched touched with ⟨op, member, _, result⟩
      rcases List.mem_filterMap.mp member with ⟨other, _, seeded⟩
      rcases Option.map_eq_some_iff.mp seeded with ⟨value, _, rfl⟩
      have stored := StoreBackedProvider.initLeaves_store
        (PscPowerSensorProvider.declareLeaves sensorNow) w.path
      rw [StoreBackedProvider.afterOps, result] at stored
      exact ⟨_, stored⟩

/-- A tick over the declared sensor paths keeps the invariant. -/
theorem Invariant.tick {s : Stores} (inv : Invariant s) (now : Int)
    {walks : List PscPowerSensorProvider.Walk}
    (paths : walks.map PscPowerSensorProvider.Walk.path = sensorPaths) :
    Invariant { s with
      sensor := s.sensor.commitStamped (PscPowerSensorProvider.tickBatch now walks) } := by
  have ops := PscPowerSensorProvider.tickBatch_ops now walks
  have addressed : ∀ path : Str,
      (∃ op ∈ (PscPowerSensorProvider.tickBatch now walks).ops, stripPathQuotes op.xpath = path) ↔
        path ∈ sensorPaths := by
    intro path
    rw [ops, ← paths]
    constructor
    · rintro ⟨op, member, rfl⟩
      rcases List.mem_map.mp member with ⟨w, walk, rfl⟩
      have listed := List.mem_map_of_mem (f := PscPowerSensorProvider.Walk.path) walk
      rw [(sensorPaths_canonical w.path (paths ▸ listed)).strip]
      exact listed
    · intro listed
      rcases List.mem_map.mp listed with ⟨w, walk, rfl⟩
      exact ⟨_, List.mem_map.mpr ⟨w, walk, rfl⟩, (sensorPaths_canonical w.path (paths ▸ listed)).strip⟩
  have sets : ∀ op ∈ (PscPowerSensorProvider.tickBatch now walks).ops, op.kind = .set := by
    intro op member
    rw [ops] at member
    rcases List.mem_map.mp member with ⟨w, _, rfl⟩
    rfl
  refine ⟨inv.sensorSchema, inv.configSchema, ?_, inv.configTyped, ?_⟩
  · apply inv.sensorTyped.commitStamped
    intro op member _
    rw [inv.sensorSchema]
    have listed := (addressed _).mp ⟨op, member, rfl⟩
    exact ⟨.operational, (sensor_schema_find 0 _ _).mpr ⟨listed, rfl⟩⟩
  · intro path
    rw [sensorLeaves_commitStamped sets, addressed, inv.sensorLeaves, or_self]

/-- What every reachable world keeps. -/
def World.Good (w : World) : Prop :=
  Invariant w.stores ∧ w.walks.map PscPowerSensorProvider.Walk.path = sensorPaths

theorem initialWorld_good (sensorNow configNow : Int) : (initialWorld sensorNow configNow).Good :=
  ⟨initial_invariant sensorNow configNow, rfl⟩

theorem World.Good.act {w : World} (good : w.Good) (action : Action) : (w.act action).Good := by
  cases action with
  | set request now => exact ⟨good.1.set request now, good.2⟩
  | tick now draws =>
      have moved := (PscPowerSensorProvider.stepWalks_path draws w.walks).trans good.2
      exact ⟨good.1.tick now moved, moved⟩

theorem World.Good.run {w : World} (good : w.Good) (actions : List Action) : (w.run actions).Good := by
  induction actions generalizing w with
  | nil => exact good
  | cons action actions inductionHypothesis => exact inductionHypothesis (good.act action)

/-- The ticks of a run. -/
def ticks (actions : List Action) : List PscPowerSensorProvider.Iteration :=
  actions.filterMap (fun action =>
    match action with
    | .set _ _ => none
    | .tick now draws => some ⟨now, draws⟩)

theorem ticks_set (actions : List Action) (request : SetRequest) (now : Int) :
    ticks (actions ++ [.set request now]) = ticks actions := by
  simp [ticks]

theorem ticks_tick (actions : List Action) (now : Int) (draws : Nat -> PscPowerSensorProvider.Draw) :
    ticks (actions ++ [.tick now draws]) = ticks actions ++ [⟨now, draws⟩] := by
  simp [ticks]

/-- No Set changes the sensors: their store and walks are those of the simulator alone. -/
theorem World.run_simulator (sensorNow configNow : Int) (actions : List Action) :
    (((initialWorld sensorNow configNow).run actions).stores.sensor,
        ((initialWorld sensorNow configNow).run actions).walks) =
      PscPowerSensorProvider.runSimulator sensorNow (ticks actions) := by
  induction actions using List.reverseRecOn with
  | nil => rfl
  | append_singleton actions action inductionHypothesis =>
      have good := (initialWorld_good sensorNow configNow).run actions
      have last : (initialWorld sensorNow configNow).run (actions ++ [action]) =
          ((initialWorld sensorNow configNow).run actions).act action := by
        rw [World.run, List.foldl_append]
        rfl
      rw [last]
      cases action with
      | set request now =>
          rw [ticks_set, ← inductionHypothesis, World.act]
          rcases set_cases good.1 request now with ⟨_, refused, _⟩ | ⟨_, _, done⟩
          · rw [refused]
          · rw [done]
      | tick now draws =>
          rw [ticks_tick, PscPowerSensorProvider.runSimulator_snoc, ← inductionHypothesis]
          rfl

theorem Reachable.invariant {stores : Stores} (reachable : Reachable stores) : Invariant stores := by
  rcases reachable with ⟨sensorNow, configNow, actions, rfl⟩
  exact ((initialWorld_good sensorNow configNow).run actions).1

/-! ## Every run -/

/-- After any run of Sets and ticks every stored leaf is a declared one with its
declared type, the schemas and the set of sensor paths are those of construction,
and no Set that follows touches a sensor leaf. -/
theorem schema_invariant (sensorNow configNow : Int) (actions : List Action) :
    let start := (initialWorld sensorNow configNow).stores
    let reached := ((initialWorld sensorNow configNow).run actions).stores
    (∀ (path : Str) (leaf : Leaf), reached.sensor.store.leaves[path]? = some leaf ->
        '"' ∉ path ∧ reached.sensor.schema[path]? = some leaf.type) ∧
      (∀ (path : Str) (leaf : Leaf), reached.config.store.leaves[path]? = some leaf ->
        '"' ∉ path ∧ reached.config.schema[path]? = some leaf.type) ∧
      reached.sensor.schema = start.sensor.schema ∧
      reached.config.schema = start.config.schema ∧
      (∀ path : Str, path ∈ reached.sensor.store.leaves ↔ path ∈ start.sensor.store.leaves) ∧
      ∀ (request : SetRequest) (now : Int),
        (Gnmi.Set.run registry reached now request).1.sensor = reached.sensor := by
  have initial := initial_invariant sensorNow configNow
  have inv := ((initialWorld_good sensorNow configNow).run actions).1
  refine ⟨inv.sensorTyped, inv.configTyped, ?_, ?_, ?_, ?_⟩
  · rw [inv.sensorSchema]
    exact initial.sensorSchema.symm
  · rw [inv.configSchema]
    exact initial.configSchema.symm
  · intro path
    rw [Std.ExtTreeMap.mem_iff_isSome_getElem?, Std.ExtTreeMap.mem_iff_isSome_getElem?,
      Option.isSome_iff_exists, Option.isSome_iff_exists, inv.sensorLeaves]
    exact (initial.sensorLeaves path).symm
  · intro request now
    rcases set_cases inv request now with ⟨_, unchanged, _⟩ | ⟨_, _, done⟩
    · rw [unchanged]
    · rw [done]

end Server
end PscMockServer
