import Mathlib.Algebra.Order.Group.Basic
import Mathlib.Data.Sign.Basic
import PscMockServer.Foundations.Runs

namespace PscMockServer
namespace Foundations

/-!
# Walks on a grid between two bounds

A value moves by one step up or down, or not at all, and is clamped to an interval
after every move.  The bounds need not lie on the grid of the steps, and a value that
is clamped to such a bound leaves the grid.

Between bounds on the grid every move is a whole step or none.  Between bounds off the
grid the walk stays on the grid exactly as long as the sum of its moves stays between
the bounds, and until then the clamp does nothing.
-/

variable {K : Type} [AddCommGroup K] [LinearOrder K]

/-- The point of the interval that is nearest to `x`. -/
def clampTo (lo hi x : K) : K :=
  max lo (min hi x)

/-- A whole number of steps away from the base. -/
def OnGrid (base step x : K) : Prop :=
  ∃ k : Int, x = base + k • step

/-- One move of the walk. -/
def clampedMove (lo hi step x : K) (m : SignType) : K :=
  clampTo lo hi (x + (m : Int) • step)

/-- The value after the moves. -/
def walkValue (lo hi step base : K) (moves : List SignType) : K :=
  runSteps (clampedMove lo hi step) base moves

/-- The sum of the moves, in steps. -/
def net (moves : List SignType) : Int :=
  (moves.map (fun m => (m : Int))).sum

theorem walkValue_snoc (lo hi step base : K) (moves : List SignType) (m : SignType) :
    walkValue lo hi step base (moves ++ [m]) =
      clampedMove lo hi step (walkValue lo hi step base moves) m :=
  runSteps_snoc _ _ _ _

theorem net_snoc (moves : List SignType) (m : SignType) : net (moves ++ [m]) = net moves + m := by
  simp [net]

/-! ## Clamping -/

section Clamp

omit [AddCommGroup K]

variable {lo hi x : K}

theorem le_clampTo : lo ≤ clampTo lo hi x :=
  le_max_left _ _

theorem clampTo_le (ordered : lo ≤ hi) : clampTo lo hi x ≤ hi :=
  max_le ordered (min_le_left _ _)

theorem clampTo_of_mem (low : lo ≤ x) (high : x ≤ hi) : clampTo lo hi x = x := by
  rw [clampTo, min_eq_right high, max_eq_right low]

/-- A value is kept, or it is outside and becomes the bound it crossed. -/
theorem clampTo_cases (ordered : lo ≤ hi) :
    (lo ≤ x ∧ x ≤ hi ∧ clampTo lo hi x = x) ∨ (x < lo ∧ clampTo lo hi x = lo) ∨
      (hi < x ∧ clampTo lo hi x = hi) := by
  rcases lt_or_ge x lo with below | low
  · apply Or.inr
    apply Or.inl
    refine ⟨below, ?_⟩
    rw [clampTo, min_eq_right (below.le.trans ordered), max_eq_left below.le]
  · rcases lt_or_ge hi x with above | high
    · apply Or.inr
      apply Or.inr
      refine ⟨above, ?_⟩
      rw [clampTo, min_eq_left above.le, max_eq_right ordered]
    · exact Or.inl ⟨low, high, clampTo_of_mem low high⟩

end Clamp

/-! ## The grid -/

section Grid

omit [LinearOrder K]

theorem onGrid_base (base step : K) : OnGrid base step base :=
  ⟨0, by simp⟩

theorem OnGrid.move {base step x : K} (grid : OnGrid base step x) (k : Int) :
    OnGrid base step (x + k • step) := by
  rcases grid with ⟨j, rfl⟩
  exact ⟨j + k, by rw [add_zsmul, add_assoc]⟩

theorem onGrid_add_iff (base step d : K) : OnGrid base step (base + d) ↔ ∃ k : Int, d = k • step := by
  simp [OnGrid]

/-- Points at the same distance on both sides are both on the grid or both off it. -/
theorem onGrid_sub_iff (base step d : K) :
    OnGrid base step (base - d) ↔ OnGrid base step (base + d) := by
  rw [sub_eq_add_neg, onGrid_add_iff, onGrid_add_iff]
  constructor
  · intro grid
    rcases grid with ⟨k, same⟩
    exact ⟨-k, by rw [neg_zsmul, ← same, neg_neg]⟩
  · intro grid
    rcases grid with ⟨k, rfl⟩
    exact ⟨-k, (neg_zsmul step k).symm⟩

end Grid

variable {lo hi step base x : K}

theorem walkValue_mem (low : lo ≤ base) (high : base ≤ hi) (moves : List SignType) :
    lo ≤ walkValue lo hi step base moves ∧ walkValue lo hi step base moves ≤ hi := by
  induction moves using List.reverseRecOn with
  | nil => exact ⟨low, high⟩
  | append_singleton moves m _ =>
      rw [walkValue_snoc]
      exact ⟨le_clampTo, clampTo_le (low.trans high)⟩

/-! ## Bounds on the grid -/

section GridBounds

variable [IsOrderedAddMonoid K]

/-- Grid points are ordered as their step counts. -/
theorem grid_le_iff (positive : 0 < step) (j k : Int) : base + j • step ≤ base + k • step ↔ j ≤ k := by
  rw [add_le_add_iff_left]
  exact (zsmul_left_strictMono positive).le_iff_le

theorem grid_lt_iff (positive : 0 < step) (j k : Int) : base + j • step < base + k • step ↔ j < k := by
  rw [add_lt_add_iff_left]
  exact (zsmul_left_strictMono positive).lt_iff_lt

theorem sign_cast_bounds (m : SignType) : (-1 : Int) ≤ m ∧ (m : Int) ≤ 1 := by
  cases m <;> decide

/-- Between bounds on the grid a move is a whole step or none: a clamped value stood
at its bound already. -/
theorem clampedMove_of_grid_bounds (nonneg : 0 ≤ step) (loGrid : OnGrid base step lo)
    (hiGrid : OnGrid base step hi) (grid : OnGrid base step x) (low : lo ≤ x) (high : x ≤ hi)
    (m : SignType) :
    clampedMove lo hi step x m = x + (m : Int) • step ∨ clampedMove lo hi step x m = x := by
  rcases nonneg.eq_or_lt with rfl | positive
  · apply Or.inr
    rw [clampedMove, zsmul_zero, add_zero, clampTo_of_mem low high]
  have small := sign_cast_bounds m
  rcases clampTo_cases (x := x + (m : Int) • step) (low.trans high) with
    ⟨_, _, kept⟩ | ⟨below, cut⟩ | ⟨above, cut⟩
  · exact Or.inl kept
  · rcases loGrid with ⟨a, rfl⟩
    rcases grid with ⟨k, rfl⟩
    rw [add_assoc, ← add_zsmul, grid_lt_iff positive] at below
    rw [grid_le_iff positive] at low
    have atBound : a = k := by omega
    exact Or.inr (cut.trans (by rw [atBound]))
  · rcases hiGrid with ⟨b, rfl⟩
    rcases grid with ⟨k, rfl⟩
    rw [add_assoc, ← add_zsmul, grid_lt_iff positive] at above
    rw [grid_le_iff positive] at high
    have atBound : b = k := by omega
    exact Or.inr (cut.trans (by rw [atBound]))

theorem walkValue_onGrid_of_grid_bounds (nonneg : 0 ≤ step) (loGrid : OnGrid base step lo)
    (hiGrid : OnGrid base step hi) (low : lo ≤ base) (high : base ≤ hi) (moves : List SignType) :
    OnGrid base step (walkValue lo hi step base moves) := by
  induction moves using List.reverseRecOn with
  | nil => exact onGrid_base base step
  | append_singleton moves m inductionHypothesis =>
      have inside : lo ≤ walkValue lo hi step base moves ∧ walkValue lo hi step base moves ≤ hi :=
        walkValue_mem low high moves
      rcases inside with ⟨above, below⟩
      rw [walkValue_snoc]
      rcases clampedMove_of_grid_bounds nonneg loGrid hiGrid inductionHypothesis above below m with
        moved | kept
      · rw [moved]
        exact inductionHypothesis.move m
      · rw [kept]
        exact inductionHypothesis

end GridBounds

/-! ## Bounds off the grid -/

/-- Between bounds off the grid a move that ends on the grid is a whole one. -/
theorem clampedMove_of_onGrid (ordered : lo ≤ hi) (loOff : ¬ OnGrid base step lo)
    (hiOff : ¬ OnGrid base step hi) {m : SignType}
    (after : OnGrid base step (clampedMove lo hi step x m)) :
    clampedMove lo hi step x m = x + (m : Int) • step := by
  rcases clampTo_cases (x := x + (m : Int) • step) ordered with ⟨_, _, kept⟩ | ⟨_, cut⟩ | ⟨_, cut⟩
  · exact kept
  · rw [clampedMove, cut] at after
    exact absurd after loOff
  · rw [clampedMove, cut] at after
    exact absurd after hiOff

/-- A walk of whole moves is their sum.  The move after `front` may be seen to be whole
from where the moves of `front` lead. -/
theorem walkValue_eq_net {moves : List SignType}
    (whole : ∀ front m, front ++ [m] <+: moves ->
      walkValue lo hi step base front = base + net front • step ->
        clampedMove lo hi step (walkValue lo hi step base front) m =
          walkValue lo hi step base front + (m : Int) • step) :
    walkValue lo hi step base moves = base + net moves • step := by
  induction moves using List.reverseRecOn with
  | nil => simp [walkValue, runSteps, net]
  | append_singleton moves m inductionHypothesis =>
      have before := inductionHypothesis (fun front n isFront =>
        whole front n (isFront.trans (List.prefix_append moves [m])))
      rw [walkValue_snoc, whole moves m (List.prefix_refl _) before, before, net_snoc, add_zsmul,
        add_assoc]

/-- Between bounds off the grid, the walk stays on it exactly as long as the sum of
the moves stays between the bounds. -/
theorem walkValue_onGrid_iff (low : lo ≤ base) (high : base ≤ hi) (loOff : ¬ OnGrid base step lo)
    (hiOff : ¬ OnGrid base step hi) (moves : List SignType) :
    (∀ front, front <+: moves -> OnGrid base step (walkValue lo hi step base front)) ↔
      ∀ front, front <+: moves -> lo ≤ base + net front • step ∧ base + net front • step ≤ hi := by
  constructor
  · intro grid front isFront
    have same : walkValue lo hi step base front = base + net front • step := by
      apply walkValue_eq_net
      intro part m isPart _
      apply clampedMove_of_onGrid (low.trans high) loOff hiOff
      rw [← walkValue_snoc]
      exact grid (part ++ [m]) (isPart.trans isFront)
    rw [← same]
    exact walkValue_mem low high front
  · intro within front isFront
    have same : walkValue lo hi step base front = base + net front • step := by
      apply walkValue_eq_net
      intro part m isPart reached
      have inside := within (part ++ [m]) (isPart.trans isFront)
      rw [net_snoc, add_zsmul, ← add_assoc, ← reached] at inside
      exact clampTo_of_mem inside.1 inside.2
    rw [same]
    exact (onGrid_base base step).move _

end Foundations
end PscMockServer
