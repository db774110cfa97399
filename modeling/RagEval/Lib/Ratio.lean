import Mathlib.Algebra.Order.Field.Basic
import Mathlib.Tactic.FieldSimp
import Mathlib.Tactic.Linarith
import Mathlib.Tactic.Positivity
import Mathlib.Tactic.Ring

/-!
# Ratios of a part to the whole, and their harmonic mean

With the convention that a quotient by zero is zero.

## Main results

- `ratio_mem` — a part of the whole is between zero and one
- `harmonicMean_mem` — the harmonic mean lies between the two numbers
- `harmonicMean_ratio` — that of two ratios with the same part
-/

namespace RagEval.Lib.Ratio

variable {K : Type*} [Field K] [LinearOrder K] [IsStrictOrderedRing K]

/-- The share of `part` in `part + rest`. -/
def ratio (part rest : K) : K := part / (part + rest)

def harmonicMean (x y : K) : K := 2 * x * y / (x + y)

theorem ratio_mem {part rest : K} (hpart : 0 ≤ part) (hrest : 0 ≤ rest) :
    0 ≤ ratio part rest ∧ ratio part rest ≤ 1 := by
  constructor
  · exact div_nonneg hpart (by linarith)
  · exact div_le_one_of_le₀ (by linarith) (by linarith)

omit [LinearOrder K] [IsStrictOrderedRing K] in
theorem ratio_zero_left (rest : K) : ratio 0 rest = 0 := by
  rw [ratio, zero_div]

omit [LinearOrder K] [IsStrictOrderedRing K] in
theorem harmonicMean_comm (x y : K) : harmonicMean x y = harmonicMean y x := by
  rw [harmonicMean, harmonicMean, add_comm x y, mul_right_comm]

theorem min_le_harmonicMean {x y : K} (hx : 0 ≤ x) (hy : 0 ≤ y) :
    min x y ≤ harmonicMean x y := by
  wlog hle : x ≤ y generalizing x y with hsymm
  · rw [min_comm, harmonicMean_comm]
    exact hsymm hy hx (le_of_not_ge hle)
  rw [min_eq_left hle, harmonicMean]
  rcases (add_nonneg hx hy).eq_or_lt with hzero | hpos
  · have hx0 : x = 0 := by linarith
    rw [hx0]
    simp
  · rw [le_div_iff₀ hpos]
    have hsq : x * x ≤ x * y := mul_le_mul_of_nonneg_left hle hx
    linarith [mul_assoc 2 x y]

theorem harmonicMean_le_max {x y : K} (hx : 0 ≤ x) (hy : 0 ≤ y) :
    harmonicMean x y ≤ max x y := by
  wlog hle : x ≤ y generalizing x y with hsymm
  · rw [max_comm, harmonicMean_comm]
    exact hsymm hy hx (le_of_not_ge hle)
  rw [max_eq_right hle, harmonicMean]
  refine div_le_of_le_mul₀ (add_nonneg hx hy) hy ?_
  have hsq : x * y ≤ y * y := mul_le_mul_of_nonneg_right hle hy
  linarith [mul_assoc 2 x y, mul_comm x y, mul_add y x y]

/-- Numbers between zero and one have such a mean. -/
theorem harmonicMean_mem {x y : K} (hx : 0 ≤ x ∧ x ≤ 1) (hy : 0 ≤ y ∧ y ≤ 1) :
    0 ≤ harmonicMean x y ∧ harmonicMean x y ≤ 1 :=
  ⟨(le_min hx.1 hy.1).trans (min_le_harmonicMean hx.1 hy.1),
    (harmonicMean_le_max hx.1 hy.1).trans (max_le hx.2 hy.2)⟩

theorem harmonicMean_ratio {part a b : K} (hpart : 0 < part) (ha : 0 ≤ a) (hb : 0 ≤ b) :
    harmonicMean (ratio part a) (ratio part b) = 2 * part / (2 * part + a + b) := by
  have hpa : part + a ≠ 0 := by positivity
  have hpb : part + b ≠ 0 := by positivity
  have hsum : 2 * part + a + b ≠ 0 := by positivity
  rw [harmonicMean, ratio, ratio, div_add_div _ _ hpa hpb]
  field_simp
  ring

end RagEval.Lib.Ratio
