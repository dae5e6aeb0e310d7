import PscMockServer.Backend.PscPowerSensorProvider
import PscMockServer.Foundations.GridWalks
import Mathlib.Algebra.Order.Ring.Rat
import Mathlib.Data.Int.Cast.Lemmas

namespace PscMockServer
namespace Backend

open Foundations Gnmi Utils

/-!
# The random walks of the sensors

Each walk of the simulator is a clamped walk of its own, on the grid of its step
around its nominal value.  The bounds `nominal * (1 ± maxDev)` are on that grid for the
currents, the power and the capacity, and off it for the temperature and the two
voltages.  A walk that is clamped to a bound off the grid has moved by less than a
step, and every later value is off the grid with it.
-/

namespace PscPowerSensorProvider

/-! ## One walk as a clamped walk -/

/-- The move a draw stands for. -/
def Draw.move (draw : Draw) : SignType :=
  if draw.stepNow then (if draw.stepUp then 1 else -1) else 0

/-- The moves drawn for the walk at position `i`. -/
def drawnMoves (i : Nat) (iterations : List Iteration) : List SignType :=
  iterations.map (fun iteration => (iteration.draws i).move)

/-- The upward draws of the walk at position `i` less its downward draws. -/
def drawnSteps (i : Nat) (iterations : List Iteration) : Int :=
  net (drawnMoves i iterations)

/-- The value of a walk after the iterations, from where it was built. -/
def Walk.valueAfter (origin : Walk) (i : Nat) (iterations : List Iteration) : Rat :=
  walkValue origin.lo origin.hi origin.step origin.value (drawnMoves i iterations)

theorem drawnMoves_snoc (i : Nat) (iterations : List Iteration) (iteration : Iteration) :
    drawnMoves i (iterations ++ [iteration]) =
      drawnMoves i iterations ++ [(iteration.draws i).move] := by
  simp [drawnMoves]

theorem valueAfter_snoc (origin : Walk) (i : Nat) (iterations : List Iteration)
    (iteration : Iteration) :
    origin.valueAfter i (iterations ++ [iteration]) =
      clampedMove origin.lo origin.hi origin.step (origin.valueAfter i iterations)
        (iteration.draws i).move := by
  rw [Walk.valueAfter, drawnMoves_snoc, walkValue_snoc]
  rfl

theorem clamp_eq_clampTo {lo hi : Rat} (ordered : lo ≤ hi) (value : Rat) :
    clamp value lo hi = clampTo lo hi value := by
  rcases clampTo_cases (x := value) ordered with ⟨low, high, kept⟩ | ⟨below, cut⟩ | ⟨above, cut⟩
  · rw [clamp, if_neg low.not_gt, if_neg high.not_gt, kept]
  · rw [clamp, if_pos below, cut]
  · rw [clamp, if_neg (ordered.trans above.le).not_gt, if_pos above, cut]

/-- A walk within its bounds makes the clamped move of its draw. -/
theorem stepWalk_eq_clampedMove (draw : Draw) {w : Walk} (nonneg : 0 ≤ w.step) (low : w.lo ≤ w.value)
    (high : w.value ≤ w.hi) :
    stepWalk draw w = { w with value := clampedMove w.lo w.hi w.step w.value draw.move } := by
  rcases nonneg.eq_or_lt with static | positive
  · have still : clampedMove w.lo w.hi w.step w.value draw.move = w.value := by
      rw [clampedMove, ← static, zsmul_zero, add_zero, clampTo_of_mem low high]
    rw [still, stepWalk, if_neg]
    exact fun both => absurd both.1 static.not_lt
  · cases now : draw.stepNow with
    | false => simp [stepWalk, clampedMove, Draw.move, now, clampTo_of_mem low high]
    | true =>
        cases up : draw.stepUp with
        | false =>
            simp [stepWalk, clampedMove, Draw.move, now, up, positive,
              clamp_eq_clampTo (low.trans high)]
        | true =>
            simp [stepWalk, clampedMove, Draw.move, now, up, positive,
              clamp_eq_clampTo (low.trans high)]

/-! ## The walks of a run -/

/-- What `buildWalks` gives every walk: bounds at the same distance on both sides. -/
structure Walk.Centred (w : Walk) : Prop where
  step_nonneg : 0 ≤ w.step
  below_hi : w.value ≤ w.hi
  symmetric : w.value - w.lo = w.hi - w.value

theorem Walk.Centred.above_lo {w : Walk} (centred : w.Centred) : w.lo ≤ w.value := by
  have room := sub_nonneg.mpr centred.below_hi
  rw [← centred.symmetric] at room
  exact sub_nonneg.mp room

theorem buildWalks_centred : ∀ w ∈ buildWalks, w.Centred := by
  have all : ∀ w ∈ buildWalks,
      0 ≤ w.step ∧ w.value ≤ w.hi ∧ w.value - w.lo = w.hi - w.value := by decide +kernel
  intro w built
  rcases all w built with ⟨nonneg, below, symmetric⟩
  exact ⟨nonneg, below, symmetric⟩

theorem valueAfter_mem {origin : Walk} (centred : origin.Centred) (i : Nat)
    (iterations : List Iteration) :
    origin.lo ≤ origin.valueAfter i iterations ∧ origin.valueAfter i iterations ≤ origin.hi :=
  walkValue_mem centred.above_lo centred.below_hi (drawnMoves i iterations)

/-- Every walk keeps its position and its bounds, and has made the moves drawn for it. -/
theorem runSimulator_walk (start : Int) (iterations : List Iteration) {i : Nat} {origin : Walk}
    (built : buildWalks[i]? = some origin) :
    (runSimulator start iterations).2[i]? =
      some { origin with value := origin.valueAfter i iterations } := by
  have centred := buildWalks_centred origin (List.mem_of_getElem? built)
  induction iterations using List.reverseRecOn with
  | nil => exact built
  | append_singleton iterations iteration inductionHypothesis =>
      rcases valueAfter_mem centred i iterations with ⟨low, high⟩
      rw [runSimulator_snoc, runSimulatorStep]
      simp only [stepWalks, List.getElem?_mapIdx, inductionHypothesis, Option.map_some]
      apply congrArg some
      rw [stepWalk_eq_clampedMove]
      · rw [valueAfter_snoc]
      · exact centred.step_nonneg
      · exact low
      · exact high

theorem runSimulator_paths (start : Int) (iterations : List Iteration) :
    (runSimulator start iterations).2.map Walk.path = buildWalks.map Walk.path := by
  induction iterations using List.reverseRecOn with
  | nil => rfl
  | append_singleton iterations iteration inductionHypothesis =>
      rw [runSimulator_snoc, runSimulatorStep, stepWalks_path, inductionHypothesis]

/-! ## What is stored -/

/-- The store has this value at the path, collected at this time. -/
def Shows (provider : StoreBackedProvider) (path : Str) (value : Rat) (collected : Int) : Prop :=
  ∃ leaf, provider.store.get path = some leaf ∧ leaf.val = .doubleVal value ∧
    leaf.collectedNs = collected

theorem buildWalks_distinct : ((buildWalks.map Walk.path).map stripPathQuotes).Nodup := by
  decide +kernel

/-- Of walks with distinct paths the op of each one decides its leaf. -/
theorem afterOps_tickBatch (provider : StoreBackedProvider) (now : Int) {walks : List Walk}
    (distinct : ((walks.map Walk.path).map stripPathQuotes).Nodup) {w : Walk} (member : w ∈ walks)
    (old : Option Leaf) :
    ∃ leaf, provider.afterOps (tickBatch now walks).ops old (stripPathQuotes w.path) = some leaf ∧
      leaf.val = .doubleVal w.value ∧ leaf.collectedNs = now := by
  rw [List.map_map] at distinct
  have touched : ∃ op ∈ (tickBatch now walks).ops,
      stripPathQuotes op.xpath = stripPathQuotes w.path := by
    rw [tickBatch_ops]
    exact ⟨_, List.mem_map_of_mem member, rfl⟩
  have decided : ∃ op ∈ (tickBatch now walks).ops, stripPathQuotes op.xpath = stripPathQuotes w.path ∧
      provider.afterOps (tickBatch now walks).ops old (stripPathQuotes w.path) = provider.opResult op :=
    OrdMap.lastOf_touched touched
  rcases decided with ⟨op, listed, addressed, result⟩
  rw [tickBatch_ops] at listed
  rcases List.mem_map.mp listed with ⟨other, otherMember, rfl⟩
  have same : other = w := List.inj_on_of_nodup_map distinct otherMember member addressed
  rw [result, same]
  exact ⟨_, rfl, rfl, rfl⟩

theorem commitStamped_shows (provider : StoreBackedProvider) (now : Int) {walks : List Walk}
    (distinct : ((walks.map Walk.path).map stripPathQuotes).Nodup) {w : Walk} (member : w ∈ walks) :
    Shows (provider.commitStamped (tickBatch now walks)) w.path w.value now := by
  rw [Shows, LeafStore.get, StoreBackedProvider.commitStamped_find]
  exact afterOps_tickBatch provider now distinct member _

/-- The constructor shows every walk at its nominal value. -/
theorem create_shows (start : Int) {w : Walk} (built : w ∈ buildWalks) :
    Shows (create start) w.path w.value start := by
  have seeds : StoreBackedProvider.seedOps (declareLeaves start) =
      (tickBatch start buildWalks).ops := by
    rw [tickBatch_ops, StoreBackedProvider.seedOps, declareLeaves, List.filterMap_map]
    rw [← List.filterMap_eq_map]
    rfl
  rw [Shows, LeafStore.get, create, StoreBackedProvider.initLeaves_store, seeds]
  exact afterOps_tickBatch _ start buildWalks_distinct built none

/-- The collection time of the last commit. -/
def lastCommit (start : Int) (iterations : List Iteration) : Int :=
  (iterations.getLast?).elim start Iteration.now

/-- The walks of the simulator after some ticks. -/
def walksAfter (iterations : List Iteration) : List Walk :=
  iterations.foldl (fun walks iteration => stepWalks iteration.draws walks) buildWalks

theorem runSimulator_walks (start : Int) (iterations : List Iteration) :
    (runSimulator start iterations).2 = walksAfter iterations := by
  induction iterations using List.reverseRecOn with
  | nil => rfl
  | append_singleton iterations iteration inductionHypothesis =>
      rw [runSimulator_snoc, runSimulatorStep, inductionHypothesis, walksAfter, walksAfter, List.foldl_concat]

/-- They have the paths they were built with. -/
theorem walksAfter_paths (iterations : List Iteration) :
    (walksAfter iterations).map Walk.path = buildWalks.map Walk.path := by
  rw [← runSimulator_walks 0, runSimulator_paths]

/-- After any run the store has every walk as it is, all with the time of the last tick. -/
theorem walksAfter_shows (start : Int) (iterations : List Iteration) {walk : Walk}
    (member : walk ∈ walksAfter iterations) :
    Shows (runSimulator start iterations).1 walk.path walk.value (lastCommit start iterations) := by
  cases iterations using List.reverseRecOn with
  | nil => exact create_shows start member
  | append_singleton iterations iteration =>
      have distinct := buildWalks_distinct
      rw [← walksAfter_paths (iterations ++ [iteration])] at distinct
      rw [← runSimulator_walks start] at member distinct
      rw [runSimulator_snoc, runSimulatorStep] at member distinct ⊢
      rw [lastCommit, List.getLast?_concat]
      exact commitStamped_shows _ _ distinct member

/-- So it has every walk's value. -/
theorem runSimulator_shows (start : Int) (iterations : List Iteration) {i : Nat} {origin : Walk}
    (built : buildWalks[i]? = some origin) :
    Shows (runSimulator start iterations).1 origin.path (origin.valueAfter i iterations)
      (lastCommit start iterations) := by
  have reached := runSimulator_walk start iterations built
  rw [runSimulator_walks] at reached
  exact walksAfter_shows start iterations (List.mem_of_getElem? reached)

/-! ## Walking on the grid -/

/-- One tick of one walk: within the bounds, on the grid, and one step away from the
value before, or still there. -/
structure GridMove (origin : Walk) (old new : Rat) : Prop where
  low : origin.lo ≤ new
  high : new ≤ origin.hi
  grid : ∃ k : Int, new = origin.value + k * origin.step
  moved : new - old = 0 ∨ new - old = origin.step ∨ new - old = -origin.step
  static : origin.step = 0 -> new = old

/-- Every tick of the run moves the stored value of every walk on its grid and gives
all leaves the time of the tick. -/
def WalksOnGrid (start : Int) (iterations : List Iteration) : Prop :=
  ∀ front iteration, front ++ [iteration] <+: iterations -> ∀ origin ∈ buildWalks,
    ∃ old new collected,
      Shows (runSimulator start front).1 origin.path old collected ∧
        Shows (runSimulator start (front ++ [iteration])).1 origin.path new iteration.now ∧
          GridMove origin old new

/-- The bounds are a whole number of steps away from the nominal value. -/
def Walk.BoundsOnGrid (origin : Walk) : Prop :=
  OnGrid origin.value origin.step origin.hi

theorem onGrid_iff (base step x : Rat) : OnGrid base step x ↔ ∃ k : Int, x = base + k * step := by
  simp only [OnGrid, zsmul_eq_mul]

/-- Whether a point is on the grid is decided by dividing its distance by the step. -/
theorem boundsOnGrid_iff (origin : Walk) :
    origin.BoundsOnGrid ↔ if origin.step = 0 then origin.hi = origin.value
      else ((origin.hi - origin.value) / origin.step).den = 1 := by
  rw [Walk.BoundsOnGrid, onGrid_iff]
  by_cases static : origin.step = 0
  · simp [static]
  · rw [if_neg static, Rat.den_eq_one_iff]
    constructor
    · intro grid
      rcases grid with ⟨k, atBound⟩
      rw [atBound, add_sub_cancel_left, mul_div_cancel_right₀ _ static, Rat.num_intCast]
    · intro whole
      refine ⟨((origin.hi - origin.value) / origin.step).num, ?_⟩
      rw [whole, div_mul_cancel₀ _ static, add_sub_cancel]

instance (origin : Walk) : Decidable origin.BoundsOnGrid :=
  decidable_of_iff' _ (boundsOnGrid_iff origin)

example : (buildWalks.take 7).map (fun w => decide w.BoundsOnGrid) =
    [false, false, true, false, true, true, true] := by
  decide +kernel

/-- Both bounds are at the same distance, so both are on the grid or none is. -/
theorem Walk.Centred.lo_onGrid_iff {origin : Walk} (centred : origin.Centred) :
    OnGrid origin.value origin.step origin.lo ↔ origin.BoundsOnGrid := by
  have mirror := onGrid_sub_iff origin.value origin.step (origin.hi - origin.value)
  rw [← centred.symmetric, sub_sub_cancel, centred.symmetric, add_sub_cancel] at mirror
  exact mirror

/-- What the drawn steps alone would reach, without the clamp, is within the bounds. -/
def Walk.Within (origin : Walk) (i : Nat) (iterations : List Iteration) : Prop :=
  origin.lo ≤ origin.value + drawnSteps i iterations * origin.step ∧
    origin.value + drawnSteps i iterations * origin.step ≤ origin.hi

/-- A walk keeps to its grid exactly if its bounds are on the grid or it is never clamped. -/
theorem valueAfter_onGrid_iff {origin : Walk} (centred : origin.Centred) (i : Nat)
    (iterations : List Iteration) :
    (∀ front, front <+: iterations -> OnGrid origin.value origin.step (origin.valueAfter i front)) ↔
      (¬ origin.BoundsOnGrid -> ∀ front, front <+: iterations -> origin.Within i front) := by
  by_cases bounds : origin.BoundsOnGrid
  · apply iff_of_true
    · intro front _
      exact walkValue_onGrid_of_grid_bounds centred.step_nonneg (centred.lo_onGrid_iff.mpr bounds) bounds
        centred.above_lo centred.below_hi (drawnMoves i front)
    · exact fun off => absurd bounds off
  · have loOff : ¬ OnGrid origin.value origin.step origin.lo :=
      fun grid => bounds (centred.lo_onGrid_iff.mp grid)
    have threshold := walkValue_onGrid_iff centred.above_lo centred.below_hi loOff bounds
      (drawnMoves i iterations)
    constructor
    · intro grid _ front isFront
      have gridMoves : ∀ moves, moves <+: drawnMoves i iterations ->
          OnGrid origin.value origin.step
            (walkValue origin.lo origin.hi origin.step origin.value moves) := by
        intro moves isMoves
        rcases List.prefix_map_iff.mp isMoves with ⟨part, isPart, rfl⟩
        exact grid part isPart
      have inside := threshold.mp gridMoves (drawnMoves i front) (isFront.map _)
      rw [zsmul_eq_mul] at inside
      exact inside
    · intro within front isFront
      apply threshold.mpr
      · intro moves isMoves
        rcases List.prefix_map_iff.mp isMoves with ⟨part, isPart, rfl⟩
        rw [zsmul_eq_mul]
        exact within bounds part isPart
      · exact isFront.map _

/-! ## Every run -/

theorem GridMove.of_whole {origin : Walk} {old new : Rat} (low : origin.lo ≤ new) (high : new ≤ origin.hi)
    (grid : OnGrid origin.value origin.step new) (m : SignType)
    (whole : new = old + (m : Int) • origin.step ∨ new = old) : GridMove origin old new := by
  have moved : new - old = 0 ∨ new - old = origin.step ∨ new - old = -origin.step := by
    rcases whole with stepped | kept
    · rw [stepped, add_sub_cancel_left]
      cases m <;> simp
    · exact Or.inl (sub_eq_zero_of_eq kept)
  refine ⟨low, high, (onGrid_iff _ _ _).mp grid, moved, ?_⟩
  intro static
  rw [static, neg_zero, or_self, or_self] at moved
  exact sub_eq_zero.mp moved

/-- Between two grid points a tick moves the value by a whole step or not at all. -/
theorem gridMove_of_onGrid {origin : Walk} (centred : origin.Centred) (i : Nat)
    {iterations : List Iteration} {iteration : Iteration}
    (before : OnGrid origin.value origin.step (origin.valueAfter i iterations))
    (after : OnGrid origin.value origin.step (origin.valueAfter i (iterations ++ [iteration]))) :
    GridMove origin (origin.valueAfter i iterations)
      (origin.valueAfter i (iterations ++ [iteration])) := by
  rcases valueAfter_mem centred i iterations with ⟨low, high⟩
  rcases valueAfter_mem centred i (iterations ++ [iteration]) with ⟨newLow, newHigh⟩
  apply GridMove.of_whole newLow newHigh after (iteration.draws i).move
  rw [valueAfter_snoc] at after ⊢
  by_cases bounds : origin.BoundsOnGrid
  · exact clampedMove_of_grid_bounds centred.step_nonneg (centred.lo_onGrid_iff.mpr bounds) bounds
      before low high _
  · apply Or.inl
    apply clampedMove_of_onGrid (low.trans high) _ bounds after
    exact fun grid => bounds (centred.lo_onGrid_iff.mp grid)

theorem Shows.unique {provider : StoreBackedProvider} {path : Str} {value other : Rat}
    {collected otherCollected : Int} (shows_ : Shows provider path value collected)
    (otherShows : Shows provider path other otherCollected) : value = other := by
  rcases shows_ with ⟨leaf, found, val, _⟩
  rcases otherShows with ⟨otherLeaf, otherFound, otherVal, _⟩
  rw [found] at otherFound
  cases otherFound
  rw [val] at otherVal
  exact TypedValue.doubleVal.inj otherVal

/-- A run walks on the grid exactly if every value it reaches is on the grid. -/
theorem walksOnGrid_iff_onGrid (start : Int) (iterations : List Iteration) :
    WalksOnGrid start iterations ↔
      ∀ (i : Nat) (origin : Walk), buildWalks[i]? = some origin -> ∀ front, front <+: iterations ->
        OnGrid origin.value origin.step (origin.valueAfter i front) := by
  constructor
  · intro walks i origin built front isFront
    cases front using List.reverseRecOn with
    | nil => exact onGrid_base _ _
    | append_singleton front iteration =>
        obtain ⟨_, new, _, _, shown, move⟩ :=
          walks front iteration isFront origin (List.mem_of_getElem? built)
        have reached := runSimulator_shows start (front ++ [iteration]) built
        rw [onGrid_iff, reached.unique shown]
        exact move.grid
  · intro grid front iteration isFront origin member
    rcases List.mem_iff_getElem?.mp member with ⟨i, built⟩
    have after := runSimulator_shows start (front ++ [iteration]) built
    rw [lastCommit, List.getLast?_concat] at after
    refine ⟨_, _, _, runSimulator_shows start front built, after, ?_⟩
    apply gridMove_of_onGrid (buildWalks_centred origin member)
    · exact grid i origin built front ((List.prefix_append front [iteration]).trans isFront)
    · exact grid i origin built (front ++ [iteration]) isFront

/-- A run walks on the grid exactly if no walk with bounds off the grid is drawn across
one of them. -/
theorem walksOnGrid_iff (start : Int) (iterations : List Iteration) :
    WalksOnGrid start iterations ↔
      ∀ (i : Nat) (origin : Walk), buildWalks[i]? = some origin -> ¬ origin.BoundsOnGrid ->
        ∀ front, front <+: iterations -> origin.Within i front := by
  rw [walksOnGrid_iff_onGrid]
  apply forall_congr'
  intro i
  apply forall_congr'
  intro origin
  apply forall_congr'
  intro built
  exact valueAfter_onGrid_iff (buildWalks_centred origin (List.mem_of_getElem? built)) i iterations

/-- Two ticks that draw a step up for every walk take the output voltage from 12 to 12.1
and then to its bound 12.12. -/
theorem outputVoltage_leaves_grid :
    ¬ WalksOnGrid 0 [⟨1, fun _ => ⟨true, true⟩⟩, ⟨2, fun _ => ⟨true, true⟩⟩] := by
  intro walks
  have grid := (walksOnGrid_iff_onGrid 0 _).mp walks 3 _ rfl
  have centred := buildWalks_centred _ (List.mem_of_getElem? (i := 3) rfl)
  have within := (valueAfter_onGrid_iff centred 3 _).mp grid (by decide +kernel) _ (List.prefix_refl _)
  exact absurd within.2 (by decide +kernel)

end PscPowerSensorProvider

end Backend
end PscMockServer
