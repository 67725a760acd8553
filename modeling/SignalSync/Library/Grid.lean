import Mathlib.Algebra.Order.Floor.Ring
import Mathlib.Algebra.Order.Group.MinMax
import Mathlib.Order.Bounds.Basic

/-!
# Values on a grid

The multiples of a step. `floorTo step x` is the greatest of them that is not above `x`:

* `isGreatest_floorTo`: what it is;
* `floorTo_mono`, `floorTo_of_onGrid`: it is monotone, and keeps the values of the grid;
* `isGreatest_floorTo_clamp`: of a value that is first brought between two bounds.
-/

namespace Library

universe u

variable {K : Type u} [Field K] [LinearOrder K] [FloorRing K]

/-- A multiple of the step. -/
def OnGrid (step x : K) : Prop := ∃ n : ℤ, x = n * step

def floorTo (step x : K) : K := ⌊x / step⌋ * step

variable {step x y low high : K}

theorem onGrid_floorTo (step x : K) : OnGrid step (floorTo step x) := ⟨_, rfl⟩

variable [IsStrictOrderedRing K]

/-- The greatest multiple that is not above the value. -/
theorem isGreatest_floorTo (hstep : 0 < step) (x : K) : IsGreatest {v | OnGrid step v ∧ v ≤ x} (floorTo step x) := by
  refine ⟨⟨onGrid_floorTo step x, (le_div_iff₀ hstep).mp (Int.floor_le _)⟩, ?_⟩
  rintro v ⟨⟨n, rfl⟩, hle⟩
  have hn : n ≤ ⌊x / step⌋ := Int.le_floor.mpr ((le_div_iff₀ hstep).mpr hle)
  exact mul_le_mul_of_nonneg_right (Int.cast_le.mpr hn) hstep.le

theorem floorTo_le (hstep : 0 < step) (x : K) : floorTo step x ≤ x := (isGreatest_floorTo hstep x).1.2

theorem floorTo_mono (hstep : 0 < step) (h : x ≤ y) : floorTo step x ≤ floorTo step y :=
  (isGreatest_floorTo hstep y).2 ⟨onGrid_floorTo step x, (floorTo_le hstep x).trans h⟩

theorem floorTo_of_onGrid (hstep : 0 < step) (h : OnGrid step x) : floorTo step x = x :=
  le_antisymm (floorTo_le hstep x) ((isGreatest_floorTo hstep x).2 ⟨h, le_rfl⟩)

/-- Of a value brought between two bounds, the lower of them on the grid, it is the greatest
multiple between them that is not above the value, or the lower bound. -/
theorem isGreatest_floorTo_clamp (hstep : 0 < step) (hlow : OnGrid step low) (hle : low ≤ high) (x : K) :
    IsGreatest {v | OnGrid step v ∧ low ≤ v ∧ v ≤ high ∧ v ≤ max x low} (floorTo step (min (max x low) high)) := by
  obtain ⟨⟨hgrid, hbelow⟩, hgreatest⟩ := isGreatest_floorTo hstep (min (max x low) high)
  refine ⟨⟨hgrid, hgreatest ⟨hlow, le_min (le_max_right _ _) hle⟩, hbelow.trans (min_le_right _ _), hbelow.trans (min_le_left _ _)⟩,
    ?_⟩
  rintro v ⟨hv, -, hhigh, hx⟩
  exact hgreatest ⟨hv, le_min hx hhigh⟩

end Library
