import Mathlib.Algebra.Order.Floor.Ring
import Mathlib.Algebra.Order.Round
import Mathlib.Data.Int.Log
import Mathlib.Data.Rat.Floor
import Mathlib.Tactic.Linarith
import Mathlib.Tactic.Positivity

/-!
# Decimal numbers

Two kinds of decimal number, both with a value in `ℚ`:

* `Decimal`, the text of a finite decimal: sign, coefficient and exponent. Two
  texts can have one value and still differ (`2400` and `2400.0`);
* `Numeric s`, a column with `s` digits after the point. `Numeric.ofRat` rounds
  a value to the column, halves away from zero: it is monotone
  (`Numeric.ofRat_mono`) and keeps the values the column holds
  (`Numeric.ofRat_toRat`), so a bound that is itself a value of the column
  survives the rounding (`Numeric.ofRat_le`), and a column that is raised to
  each value above it holds their maximum (`Numeric.ofRat_raised`).

Arithmetic on the first kind is in a context: `inContext p q` has the first `p`
digits of `q`, halves to even.
-/

namespace Library

/-- A finite decimal as it is written. -/
structure Decimal where
  negative : Bool
  digits : Nat
  exponent : Int
deriving DecidableEq, Repr

namespace Decimal

/-- `coefficient · 10 ^ exponent`, the sign aside. -/
def magnitude (d : Decimal) : ℚ :=
  match d.exponent with
  | .ofNat e => d.digits * 10 ^ e
  | .negSucc e => d.digits / 10 ^ (e + 1)

def toRat (d : Decimal) : ℚ := if d.negative then -d.magnitude else d.magnitude

instance (n : Nat) : OfNat Decimal n := ⟨⟨false, n, 0⟩⟩

instance : OfScientific Decimal :=
  ⟨fun m down e => ⟨false, m, if down then -(e : Int) else e⟩⟩

end Decimal

/-- The nearest integer, halves to even. -/
def roundHalfEven (q : ℚ) : Int :=
  if q - ⌊q⌋ < 1 / 2 ∨ q - ⌊q⌋ = 1 / 2 ∧ ⌊q⌋ % 2 = 0 then ⌊q⌋ else ⌊q⌋ + 1

theorem roundHalfEven_le {q : ℚ} {n : Int} (h : q ≤ n) : roundHalfEven q ≤ n := by
  have hfloor : ⌊q⌋ ≤ n := by exact_mod_cast (Int.floor_le q).trans h
  unfold roundHalfEven
  split
  · exact hfloor
  · rename_i hup
    rcases hfloor.lt_or_eq with hlt | rfl
    · exact hlt
    · exact absurd (.inl (by linarith)) hup

/-- The last place of `q` in a context of `precision` digits. -/
def lastPlace (precision : Nat) (q : ℚ) : ℚ := 10 ^ (Int.log 10 |q| + 1 - precision)

/-- `q` with `precision` digits. -/
def inContext (precision : Nat) (q : ℚ) : ℚ := roundHalfEven (q / lastPlace precision q) * lastPlace precision q

/-- The values of a column with `s` digits after the point. -/
@[ext] structure Numeric (s : Nat) where
  units : Int
deriving DecidableEq, Repr

namespace Numeric

variable {s : Nat}

def toRat (n : Numeric s) : ℚ := n.units / 10 ^ s

/-- The number as it is printed, with all `s` digits after the point. -/
def text (n : Numeric s) : String :=
  let whole := n.units.natAbs / 10 ^ s
  let fraction := (toString (n.units.natAbs % 10 ^ s)).leftpad s '0'
  (if n.units < 0 then "-" else "") ++ toString whole ++ if s = 0 then "" else "." ++ fraction

/-- The nearest integer, halves away from zero. -/
def roundAway (q : ℚ) : Int := if 0 ≤ q then ⌊q + 1 / 2⌋ else -⌊-q + 1 / 2⌋

/-- The value a column with `s` digits stores for `q`. -/
def ofRat (s : Nat) (q : ℚ) : Numeric s := ⟨roundAway (q * 10 ^ s)⟩

theorem roundAway_intCast (z : Int) : roundAway z = z := by
  have hfl (w : Int) : ⌊(w : ℚ) + 1 / 2⌋ = w := by
    rw [Int.floor_intCast_add, Int.floor_eq_zero_iff.mpr ⟨by norm_num, by norm_num⟩, add_zero]
  unfold roundAway
  split
  · exact hfl z
  · rw [← Int.cast_neg, hfl, neg_neg]

theorem roundAway_nonneg {q : ℚ} (h : 0 ≤ q) : 0 ≤ roundAway q := by
  rw [roundAway, if_pos h]
  exact Int.floor_nonneg.mpr (by linarith)

theorem roundAway_mono {p q : ℚ} (h : p ≤ q) : roundAway p ≤ roundAway q := by
  unfold roundAway
  split_ifs with hp hq hq
  · exact Int.floor_le_floor (by linarith)
  · exact absurd (hp.trans h) hq
  · have h₁ : 0 ≤ ⌊-p + 1 / 2⌋ := Int.floor_nonneg.mpr (by linarith)
    have h₂ : 0 ≤ ⌊q + 1 / 2⌋ := Int.floor_nonneg.mpr (by linarith)
    omega
  · exact neg_le_neg (Int.floor_le_floor (by linarith))

theorem ofRat_toRat (n : Numeric s) : ofRat s n.toRat = n := by
  have h : n.toRat * 10 ^ s = (n.units : ℚ) := div_mul_cancel₀ _ (by positivity)
  rw [ofRat, h, roundAway_intCast]

theorem toRat_le_toRat {m n : Numeric s} : m.toRat ≤ n.toRat ↔ m.units ≤ n.units := by
  rw [toRat, toRat, div_le_div_iff_of_pos_right (by positivity), Int.cast_le]

theorem ofRat_mono {p q : ℚ} (h : p ≤ q) : (ofRat s p).toRat ≤ (ofRat s q).toRat :=
  toRat_le_toRat.2 (roundAway_mono (mul_le_mul_of_nonneg_right h (by positivity)))

/-- A bound that the column holds exactly is not lost to the rounding. -/
theorem ofRat_le {n : Numeric s} {q : ℚ} (h : q ≤ n.toRat) : (ofRat s q).toRat ≤ n.toRat := by
  simpa only [ofRat_toRat] using ofRat_mono (s := s) h

/-- So is the room a sum of such values leaves below such a bound. -/
theorem add_ofRat_le {m n : Numeric s} {q : ℚ} (h : m.toRat + q ≤ n.toRat) : m.toRat + (ofRat s q).toRat ≤ n.toRat := by
  have hroom : (⟨n.units - m.units⟩ : Numeric s).toRat = n.toRat - m.toRat := by
    rw [toRat, toRat, toRat, Int.cast_sub, sub_div]
  have := ofRat_le (show q ≤ (⟨n.units - m.units⟩ : Numeric s).toRat by rw [hroom]; linarith)
  rw [hroom] at this
  linarith

/-- A column that is raised to what exceeds its value holds the maximum. -/
theorem ofRat_raised (highest q : ℚ) :
    ofRat s (if (ofRat s highest).toRat < q then q else (ofRat s highest).toRat) = ofRat s (max q highest) := by
  have hle_antisymm {p q : ℚ} (hpq : (ofRat s p).toRat ≤ (ofRat s q).toRat) (hqp : (ofRat s q).toRat ≤ (ofRat s p).toRat) :
      ofRat s p = ofRat s q :=
    Numeric.ext (le_antisymm (toRat_le_toRat.1 hpq) (toRat_le_toRat.1 hqp))
  split
  · next h =>
    rcases le_total highest q with hle | hle
    · rw [max_eq_left hle]
    · rw [max_eq_right hle]
      refine hle_antisymm (ofRat_mono hle) ?_
      have hstored := ofRat_mono (s := s) h.le
      rwa [ofRat_toRat] at hstored
  · next h =>
    rw [ofRat_toRat]
    refine hle_antisymm (ofRat_mono (le_max_right _ _)) ?_
    rcases le_total highest q with hle | hle
    · rw [max_eq_left hle]
      exact ofRat_le (not_lt.mp h)
    · rw [max_eq_right hle]

theorem zero_nonneg : (0 : Int) ≤ 0 := le_rfl

theorem ofRat_units_nonneg {q : ℚ} (h : 0 ≤ q) : 0 ≤ (ofRat s q).units :=
  roundAway_nonneg (mul_nonneg h (by positivity))

theorem toRat_nonneg {n : Numeric s} (h : 0 ≤ n.units) : 0 ≤ n.toRat :=
  div_nonneg (Int.cast_nonneg h) (by positivity)

/-- A bound with no more digits than the context is not lost to it. -/
theorem inContext_le {precision : Nat} {n : Numeric s} {q : ℚ} (h₀ : 0 ≤ n.units) (hn : n.units < 10 ^ precision) (h : q ≤ n.toRat) :
    inContext precision q ≤ n.toRat := by
  have hlast : 0 < lastPlace precision q := zpow_pos (by norm_num) _
  unfold inContext
  rw [← le_div_iff₀ hlast]
  rcases le_or_gt q 0 with hq | hq
  · have hround : roundHalfEven (q / lastPlace precision q) ≤ 0 :=
      roundHalfEven_le (by simpa using div_nonpos_of_nonpos_of_nonneg hq hlast.le)
    exact (Int.cast_nonpos.mpr hround).trans (div_nonneg (toRat_nonneg h₀) hlast.le)
  · -- the bound is a whole number of last places
    have hlog : Int.log 10 q < precision - s := by
      have hbound : n.toRat < 10 ^ ((precision : Int) - s) := by
        rw [toRat, zpow_sub₀ (by norm_num), zpow_natCast, zpow_natCast]
        exact div_lt_div_of_pos_right (by exact_mod_cast hn) (by positivity)
      have hpow : (10 : ℚ) ^ Int.log 10 q < 10 ^ ((precision : Int) - s) := by
        have hle : (10 : ℚ) ^ Int.log 10 q ≤ q := by exact_mod_cast Int.zpow_log_le_self (b := 10) (by norm_num) hq
        exact hle.trans_lt (h.trans_lt hbound)
      exact (zpow_lt_zpow_iff_right₀ (by norm_num)).1 hpow
    obtain ⟨k, hk⟩ := Int.eq_ofNat_of_zero_le (by omega : 0 ≤ (precision : Int) - s - Int.log 10 q - 1)
    have hwhole : n.toRat / lastPlace precision q = ((n.units * 10 ^ k : Int) : ℚ) := by
      have hplace : lastPlace precision q = ((10 : ℚ) ^ (s + k))⁻¹ := by
        rw [lastPlace, abs_of_pos hq, ← zpow_natCast, ← zpow_neg]
        congr 1
        push_cast
        omega
      rw [hplace, toRat, div_inv_eq_mul, pow_add]
      push_cast
      field_simp
    rw [hwhole, Int.cast_le]
    exact roundHalfEven_le (by rw [← hwhole]; exact div_le_div_of_nonneg_right h hlast.le)

end Numeric

end Library
