import PscMockServer.Backend.StoreBackedProvider
import PscMockServer.Foundations.Runs

namespace PscMockServer
namespace Backend

open Foundations Gnmi Utils

/-!
# The power sensor provider

`psc_power_sensor_provider.cpp`: the sensor table, the random walks, and one tick
of the simulator.  The doubles are exact rationals.  The random draws of a tick
are its argument; a draw the source does not make is not looked at.
-/

namespace PscPowerSensorProvider

/-! ## The sensor table -/

def PSC_UNITS : List Str := ["PSC-0".toList, "PSC-1".toList]

structure SensorDef where
  suffix : Str
  nominal : Rat
  step : Rat
  maxDev : Rat

def SENSORS : List SensorDef :=
  [⟨"/state/temperature/instant".toList, 45, 1/2, 1/20⟩,
    ⟨"/power-supply/state/input-voltage".toList, 54, 1/10, 1/50⟩,
    ⟨"/power-supply/state/input-current".toList, 10, 1/10, 1/20⟩,
    ⟨"/power-supply/state/output-voltage".toList, 12, 1/10, 1/100⟩,
    ⟨"/power-supply/state/output-current".toList, 20, 1/10, 1/20⟩,
    ⟨"/power-supply/state/output-power".toList, 240, 1, 1/20⟩,
    ⟨"/power-supply/state/capacity".toList, 300, 0, 0⟩]

/-- Walk state of one leaf. -/
structure Walk where
  path : Str
  value : Rat
  step : Rat
  lo : Rat
  hi : Rat

def leafPath (unit suffix : Str) : Str :=
  "/components/component[name=".toList ++ unit ++ "]".toList ++ suffix

/-- `buildWalks`: every walk at its nominal value. -/
def buildWalks : List Walk :=
  PSC_UNITS.flatMap (fun unit => SENSORS.map (fun s =>
    { path := leafPath unit s.suffix, value := s.nominal, step := s.step,
      lo := s.nominal * (1 - s.maxDev), hi := s.nominal * (1 + s.maxDev) }))

/-- `declareLeaves`, with the clock reading it takes. -/
def declareLeaves (now : Int) : List DeclaredLeaf :=
  buildWalks.map (fun w =>
    { path := w.path, type := .operational, value := some (.doubleVal w.value), collectedNs := now })

/-- The constructor, before the simulator thread starts. -/
def create (now : Int) : StoreBackedProvider :=
  ({} : StoreBackedProvider).initLeaves (declareLeaves now)

/-! ## The simulator -/

/-- The two draws a walk may make in one tick. -/
structure Draw where
  stepNow : Bool
  stepUp : Bool

/-- `std::clamp`. -/
def clamp (value lo hi : Rat) : Rat :=
  if value < lo then lo else if hi < value then hi else value

/-- The body of the tick's loop on one walk. -/
def stepWalk (draw : Draw) (w : Walk) : Walk :=
  if 0 < w.step ∧ draw.stepNow then
    { w with value := clamp (w.value + if draw.stepUp then w.step else -w.step) w.lo w.hi }
  else w

/-- The walks after one tick; `draws` is indexed by the walk's position. -/
def stepWalks (draws : Nat -> Draw) (walks : List Walk) : List Walk :=
  walks.mapIdx (fun i w => stepWalk (draws i) w)

/-- The batch of one tick. -/
def tickBatch (now : Int) (walks : List Walk) : WriteBatch :=
  walks.foldl (fun tick w => tick.set w.path (.doubleVal w.value) now) {}

/-- One iteration of `runSimulator`: the walks move and their values are committed. -/
def runSimulatorStep (now : Int) (draws : Nat -> Draw) (provider : StoreBackedProvider)
    (walks : List Walk) : StoreBackedProvider × List Walk :=
  let moved := stepWalks draws walks
  (provider.commitStamped (tickBatch now moved), moved)

/-- The clock reading and the draws of one iteration. -/
structure Iteration where
  now : Int
  draws : Nat -> Draw

/-- `runSimulator`, from the provider the constructor built. -/
def runSimulator (start : Int) (iterations : List Iteration) : StoreBackedProvider × List Walk :=
  runSteps (fun s iteration => runSimulatorStep iteration.now iteration.draws s.1 s.2)
    (create start, buildWalks) iterations

/-- Nothing is overridden. -/
def provider {σ : Type} (self : σ -> StoreBackedProvider) : IDataProvider σ :=
  storeBackedProvider self

theorem runSimulator_snoc (start : Int) (iterations : List Iteration) (iteration : Iteration) :
    runSimulator start (iterations ++ [iteration]) =
      runSimulatorStep iteration.now iteration.draws (runSimulator start iterations).1
        (runSimulator start iterations).2 :=
  runSteps_snoc _ _ _ _

/-! ## What a tick writes -/

theorem stepWalk_path (draw : Draw) (w : Walk) : (stepWalk draw w).path = w.path := by
  unfold stepWalk
  split <;> rfl

theorem stepWalks_path (draws : Nat -> Draw) (walks : List Walk) :
    (stepWalks draws walks).map Walk.path = walks.map Walk.path := by
  apply List.ext_getElem?
  intro i
  rw [stepWalks, List.getElem?_map, List.getElem?_mapIdx, List.getElem?_map]
  cases walks[i]? with
  | none => rfl
  | some w => exact congrArg some (stepWalk_path (draws i) w)

private theorem tickBatch_foldl (now : Int) (walks : List Walk) (batch : WriteBatch) :
    (walks.foldl (fun tick w => tick.set w.path (.doubleVal w.value) now) batch).ops =
      batch.ops ++ walks.map (fun w =>
        { xpath := w.path, kind := .set, val := .doubleVal w.value, collectedNs := now }) := by
  induction walks generalizing batch with
  | nil => rw [List.foldl_nil, List.map_nil, List.append_nil]
  | cons w walks inductionHypothesis =>
      rw [List.foldl_cons, inductionHypothesis, WriteBatch.set, List.map_cons, List.append_assoc,
        List.singleton_append]

theorem tickBatch_ops (now : Int) (walks : List Walk) :
    (tickBatch now walks).ops = walks.map (fun w =>
      { xpath := w.path, kind := .set, val := .doubleVal w.value, collectedNs := now }) := by
  rw [tickBatch, tickBatch_foldl, List.nil_append]

end PscPowerSensorProvider

end Backend
end PscMockServer
