import PscMockServer.Gnmi.Observations
import PscMockServer.Server.Queries

namespace PscMockServer
namespace Server

open Foundations Gnmi Utils Backend

/-!
# Two domains that do not see each other

The sensors change by ticks of the simulator, the configuration by Set RPCs.  Erasing
one kind of event from a run leaves the other store as it was, so a client of one domain
cannot tell from any answer whether the other domain ever changed.
-/

/-! ## Erasing one kind of event -/

def Action.isSet : Action -> Bool
  | .set _ _ => true
  | .tick _ _ => false

/-- The run without the simulator. -/
def setsOnly (actions : List Action) : List Action :=
  actions.filter Action.isSet

/-- The run without Sets. -/
def ticksOnly (actions : List Action) : List Action :=
  actions.filter (fun action => !action.isSet)

/-- The stores after a run of the server that was built at the given times. -/
def storesAfter (sensorNow configNow : Int) (actions : List Action) : Stores :=
  ((initialWorld sensorNow configNow).run actions).stores

theorem World.run_snoc (w : World) (actions : List Action) (action : Action) :
    w.run (actions ++ [action]) = (w.run actions).act action := by
  rw [World.run, List.foldl_append]
  rfl

/-- What a Set makes of the configuration depends on the configuration alone. -/
theorem set_config_congr {s t : Stores} (inv : Invariant s) (otherInv : Invariant t)
    (same : s.config = t.config) (request : SetRequest) (now : Int) :
    (Gnmi.Set.run registry s now request).1.config = (Gnmi.Set.run registry t now request).1.config := by
  rcases set_cases inv request now with ⟨failed, kept, refused⟩ | ⟨plain, acceptable, done⟩
  · rcases set_cases otherInv request now with ⟨_, otherKept, _⟩ | ⟨plain, acceptable, _⟩
    · rw [kept, otherKept, same]
    · exact absurd acceptable (refused plain)
  · rcases set_cases otherInv request now with ⟨_, _, refused⟩ | ⟨_, _, otherDone⟩
    · exact absurd acceptable (refused plain)
    · rw [done, otherDone, same]

theorem storesAfter_setsOnly (sensorNow configNow : Int) (actions : List Action) :
    (storesAfter sensorNow configNow actions).config =
      (storesAfter sensorNow configNow (setsOnly actions)).config := by
  induction actions using List.reverseRecOn with
  | nil => rfl
  | append_singleton actions action inductionHypothesis =>
      have good := fun actions => (initialWorld_good sensorNow configNow).run actions
      rw [setsOnly, List.filter_append, storesAfter, World.run_snoc]
      cases action with
      | tick now draws =>
          have erased : [Action.tick now draws].filter Action.isSet = [] := rfl
          rw [erased, List.append_nil]
          exact inductionHypothesis
      | set request now =>
          have kept : [Action.set request now].filter Action.isSet = [.set request now] := rfl
          rw [kept, storesAfter, World.run_snoc]
          exact set_config_congr (good actions).1 (good (setsOnly actions)).1 inductionHypothesis request now

theorem ticks_ticksOnly (actions : List Action) : ticks (ticksOnly actions) = ticks actions := by
  rw [ticks, ticksOnly, List.filterMap_filter]
  apply List.filterMap_congr
  intro action _
  cases action <;> rfl

theorem storesAfter_ticksOnly (sensorNow configNow : Int) (actions : List Action) :
    (storesAfter sensorNow configNow actions).sensor =
      (storesAfter sensorNow configNow (ticksOnly actions)).sensor := by
  have whole := World.run_simulator sensorNow configNow actions
  have erased := World.run_simulator sensorNow configNow (ticksOnly actions)
  rw [ticks_ticksOnly, ← whole] at erased
  exact (congrArg Prod.fst erased).symm

/-! ## What a client of one domain sees -/

/-- A query outside the sensors is answered from the configuration. -/
theorem answersAlike_of_config {s t : Stores} (same : s.config = t.config) {query : Str}
    (outside : DataProviderRegistry.matchesPrefix query sensorPrefix = false) :
    AnswersAlike registry s registry t query := by
  refine ⟨?_, fun _ _ _ => rfl⟩
  rw [DataProviderRegistry.snapshot, DataProviderRegistry.snapshot, registry_routes]
  simp only [List.foldl_cons, List.foldl_nil, outside, Bool.false_eq_true, if_false,
    SystemConfigProvider.provider, storeBackedProvider, same]

/-- A query outside the configuration is answered from the sensors. -/
theorem answersAlike_of_sensor {s t : Stores} (same : s.sensor = t.sensor) {query : Str}
    (outside : DataProviderRegistry.matchesPrefix query configPrefix = false) :
    AnswersAlike registry s registry t query := by
  refine ⟨?_, fun _ _ _ => rfl⟩
  rw [DataProviderRegistry.snapshot, DataProviderRegistry.snapshot, registry_routes]
  simp only [List.foldl_cons, List.foldl_nil, outside, Bool.false_eq_true, if_false,
    PscPowerSensorProvider.provider, storeBackedProvider, same]

/-- Neither domain interferes with the other.  At any moments of any run, a Get or Subscribe
none of whose paths lies under the sensors' prefix is served exactly as if the simulator
had never ticked, and one none of whose paths lies under the configuration's prefix
exactly as if no Set had ever been received.  Nor do ticks matter to a Set: its status and
response are the same without them, and so is the configuration it leaves. -/
theorem domains_do_not_interfere (sensorNow configNow : Int) :
    ServesAlike registry (storesAfter sensorNow configNow) registry
        (fun actions => storesAfter sensorNow configNow (setsOnly actions))
        (fun xpath => DataProviderRegistry.matchesPrefix xpath sensorPrefix = false) ∧
      ServesAlike registry (storesAfter sensorNow configNow) registry
        (fun actions => storesAfter sensorNow configNow (ticksOnly actions))
        (fun xpath => DataProviderRegistry.matchesPrefix xpath configPrefix = false) ∧
      ∀ (actions : List Action) (now : Int) (request : SetRequest),
        let whole := Gnmi.Set.run registry (storesAfter sensorNow configNow actions) now request
        let alone := Gnmi.Set.run registry (storesAfter sensorNow configNow (setsOnly actions)) now request
        whole.2 = alone.2 ∧ whole.1.config = alone.1.config := by
  let after := storesAfter sensorNow configNow
  refine ⟨?_, ?_, ?_⟩
  · exact servesAlike (fun actions xpath outside =>
      answersAlike_of_config (storesAfter_setsOnly sensorNow configNow actions) outside)
      (fun _ _ => rfl)
  · exact servesAlike (fun actions xpath outside =>
      answersAlike_of_sensor (storesAfter_ticksOnly sensorNow configNow actions) outside)
      (fun _ _ => rfl)
  · intro actions now request whole alone
    have good : ∀ actions, Invariant (after actions) :=
      fun actions => ((initialWorld_good sensorNow configNow).run actions).1
    have writable : ∀ xpath ∈ Gnmi.Set.targets request,
        registry.writable (after actions) xpath = registry.writable (after (setsOnly actions)) xpath := by
      intro xpath _
      have applied : (registry.writable (after actions) xpath).applied =
          (registry.writable (after (setsOnly actions)) xpath).applied := by
        rw [Bool.eq_iff_iff, (good actions).writable_applied_iff,
          (good (setsOnly actions)).writable_applied_iff]
      have routed : (registry.writable (after actions) xpath).routed =
          (registry.writable (after (setsOnly actions)) xpath).routed := by
        rw [registry_writable, registry_writable]
      exact WriteResult.mk.injEq .. ▸ ⟨routed, applied⟩
    exact ⟨Gnmi.Set.run_congr writable now,
      set_config_congr (good actions) (good (setsOnly actions))
        (storesAfter_setsOnly sensorNow configNow actions) request now⟩

end Server
end PscMockServer
