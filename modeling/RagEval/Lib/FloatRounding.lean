import Mathlib.Algebra.Order.Floor.Semifield
import Mathlib.Data.Int.Log
import Mathlib.Data.Rat.Floor
import Mathlib.Tactic.FieldSimp
import Mathlib.Tactic.Linarith
import Mathlib.Tactic.Positivity
import Mathlib.Tactic.Ring
import RagEval.Lib.FloatRepr

/-!
# Rounding to the closest double

The fractions `ofDecimal` and `decimalsAround` compute with, as rationals: a fraction closer
to a double than to its neighbours rounds to it.

## Main results

- `nearestBits_eq` — the double that a fraction rounds to
- `decimalExponent_eq` — the decimal exponent is the floored logarithm
-/

namespace RagEval.Lib.Double

/-! ## Fractions -/

theorem two_zpow_pos (e : Int) : (0 : ℚ) < 2 ^ e := zpow_pos (by norm_num) e

theorem ten_zpow_pos (e : Int) : (0 : ℚ) < 10 ^ e := zpow_pos (by norm_num) e

/-- Scaling a fraction by a power, whatever the sign of the exponent. -/
theorem scaled_div {b : Nat} (hb : 0 < b) (num den : Nat) (e : Int) :
    ((num * b ^ (-e).toNat : Nat) : ℚ) / (den * b ^ e.toNat : Nat) = (num : ℚ) / den / (b : ℚ) ^ e := by
  have hne : (b : ℚ) ≠ 0 := by exact_mod_cast hb.ne'
  obtain ⟨n, rfl | rfl⟩ := e.eq_nat_or_neg
  · simp [div_div]
  · simp [div_eq_mul_inv]
    ring

/-- The same with the scale on the other side. -/
theorem mul_scaled_div {b : Nat} (hb : 0 < b) (num : Nat) (e : Int) :
    ((num * b ^ e.toNat : Nat) : ℚ) / (b ^ (-e).toNat : Nat) = (num : ℚ) * (b : ℚ) ^ e := by
  have hne : (b : ℚ) ≠ 0 := by exact_mod_cast hb.ne'
  obtain ⟨n, rfl | rfl⟩ := e.eq_nat_or_neg
  · simp
  · simp [div_eq_mul_inv]

/-! ## Rounding a fraction to an integer -/

theorem abs_sub_roundHalfEven (num : Nat) {den : Nat} (hden : 0 < den) :
    |(num : ℚ) / den - roundHalfEven num den| ≤ 1 / 2 := by
  have hpos : (0 : ℚ) < den := by exact_mod_cast hden
  have hsplit : (num : ℚ) = den * (num / den : Nat) + (num % den : Nat) := by
    exact_mod_cast (Nat.div_add_mod num den).symm
  have hdiv : (num : ℚ) / den = (num / den : Nat) + (num % den : Nat) / den := by
    rw [hsplit]
    field_simp
  have hlt : ((num % den : Nat) : ℚ) < den := by exact_mod_cast Nat.mod_lt _ hden
  have hnonneg : (0 : ℚ) ≤ (num % den : Nat) := by positivity
  rw [hdiv, abs_le, roundHalfEven]
  split_ifs with hdown
  · have hle : ((num % den : Nat) : ℚ) / den ≤ 1 / 2 := by
      rw [div_le_iff₀ hpos]
      have : 2 * (num % den) ≤ den := by omega
      have : (2 : ℚ) * (num % den : Nat) ≤ den := by exact_mod_cast this
      linarith
    have hge : (0 : ℚ) ≤ (num % den : Nat) / den := by positivity
    constructor <;> linarith
  · have hge : (1 : ℚ) / 2 ≤ (num % den : Nat) / den := by
      rw [le_div_iff₀ hpos]
      have : den ≤ 2 * (num % den) := by omega
      have : (den : ℚ) ≤ 2 * (num % den : Nat) := by exact_mod_cast this
      linarith
    have hle : ((num % den : Nat) : ℚ) / den < 1 := (div_lt_one hpos).mpr hlt
    push_cast
    constructor <;> linarith

/-- What is closer than a half to an integer rounds to it. -/
theorem roundHalfEven_eq {num den M : Nat} (hden : 0 < den)
    (h : |(num : ℚ) / den - M| < 1 / 2) : roundHalfEven num den = M := by
  have hround := abs_le.mp (abs_sub_roundHalfEven num hden)
  have hM := abs_lt.mp h
  have hlt : (roundHalfEven num den : ℚ) < M + 1 := by linarith [hround.1, hround.2, hM.1, hM.2]
  have hgt : (M : ℚ) < roundHalfEven num den + 1 := by linarith [hround.1, hround.2, hM.1, hM.2]
  have hlt' : roundHalfEven num den < M + 1 := by exact_mod_cast hlt
  have hgt' : M < roundHalfEven num den + 1 := by exact_mod_cast hgt
  omega

/-! ## Exponents -/

/-- The floored logarithm is the exponent of the power below. -/
theorem log_eq_of_zpow_le {b : Nat} (hb : 1 < b) {q : ℚ} (hq : 0 < q) {t : Int}
    (hle : (b : ℚ) ^ t ≤ q) (hlt : q < (b : ℚ) ^ (t + 1)) : Int.log b q = t := by
  apply le_antisymm
  · exact Int.lt_add_one_iff.mp ((Int.lt_zpow_iff_log_lt hb hq).mp hlt)
  · exact (Int.zpow_le_iff_le_log hb hq).mp hle

theorem binaryExponent_eq {num den : Nat} (hnum : 0 < num) (hden : 0 < den) :
    binaryExponent num den = Int.log 2 ((num : ℚ) / den) := by
  have hn : (0 : ℚ) < num := by exact_mod_cast hnum
  have hd : (0 : ℚ) < den := by exact_mod_cast hden
  have hnlow : (2 : ℚ) ^ (Nat.log2 num : Int) ≤ num := by
    exact_mod_cast Nat.log2_self_le hnum.ne'
  have hnhigh : (num : ℚ) < 2 ^ ((Nat.log2 num : Int) + 1) := by
    exact_mod_cast Nat.lt_log2_self (n := num)
  have hdlow : (2 : ℚ) ^ (Nat.log2 den : Int) ≤ den := by
    exact_mod_cast Nat.log2_self_le hden.ne'
  have hdhigh : (den : ℚ) < 2 ^ ((Nat.log2 den : Int) + 1) := by
    exact_mod_cast Nat.lt_log2_self (n := den)
  have htwo : (2 : ℚ) ≠ 0 := by norm_num
  set l : Int := (Nat.log2 num : Int) - Nat.log2 den with hl
  have hlow : (2 : ℚ) ^ (l - 1) < (num : ℚ) / den := by
    rw [lt_div_iff₀ hd]
    calc (2 : ℚ) ^ (l - 1) * den < 2 ^ (l - 1) * 2 ^ ((Nat.log2 den : Int) + 1) :=
          mul_lt_mul_of_pos_left hdhigh (two_zpow_pos _)
      _ = 2 ^ (Nat.log2 num : Int) := by rw [← zpow_add₀ htwo]; congr 1; omega
      _ ≤ num := hnlow
  have hhigh : (num : ℚ) / den < 2 ^ (l + 1) := by
    rw [div_lt_iff₀ hd]
    calc (num : ℚ) < 2 ^ ((Nat.log2 num : Int) + 1) := hnhigh
      _ = 2 ^ (l + 1) * 2 ^ (Nat.log2 den : Int) := by rw [← zpow_add₀ htwo]; congr 1; omega
      _ ≤ 2 ^ (l + 1) * den := mul_le_mul_of_nonneg_left hdlow (two_zpow_pos _).le
  have hq : (0 : ℚ) < (num : ℚ) / den := div_pos hn hd
  -- the comparison that decides between the two exponents
  have hcompare : num * 2 ^ (-l).toNat < den * 2 ^ l.toNat ↔ (num : ℚ) / den < 2 ^ l := by
    have hscaled := scaled_div (b := 2) (by decide) num den l
    have hpos : (0 : ℚ) < (den * 2 ^ l.toNat : Nat) := by positivity
    rw [← div_lt_one (two_zpow_pos l)]
    rw [Nat.cast_ofNat] at hscaled
    rw [← hscaled, div_lt_one hpos]
    exact Nat.cast_lt.symm
  symm
  simp only [binaryExponent]
  rw [← hl]
  split_ifs with hlt
  · refine log_eq_of_zpow_le (by decide) hq hlow.le ?_
    rw [sub_add_cancel]
    exact_mod_cast hcompare.mp hlt
  · refine log_eq_of_zpow_le (by decide) hq ?_ (by exact_mod_cast hhigh)
    exact_mod_cast not_lt.mp (fun h => hlt (hcompare.mpr h))

theorem decimalExponent_eq {num den : Nat} (hnum : 0 < num) (hden : 0 < den) :
    decimalExponent num den = Int.log 10 ((num : ℚ) / den) := by
  have hn : (0 : ℚ) < num := by exact_mod_cast hnum
  have hd : (0 : ℚ) < den := by exact_mod_cast hden
  unfold decimalExponent
  split_ifs with hle
  · have hone : 1 ≤ (num : ℚ) / den := by
      rw [le_div_iff₀ hd, one_mul]
      exact_mod_cast hle
    rw [Int.log_of_one_le_right _ hone, Nat.floor_div_eq_div]
  · have hone : (num : ℚ) / den ≤ 1 := by
      rw [div_le_one hd]
      exact_mod_cast (not_le.mp hle).le
    rw [Int.log_of_right_le_one _ hone, inv_div]
    congr 3
    -- rounding up in the natural numbers
    have hceil : ⌈(den : ℚ) / num⌉₊ = (den + num - 1) / num := by
      apply le_antisymm
      · rw [Nat.ceil_le, div_le_iff₀ hn]
        have hmul : den ≤ (den + num - 1) / num * num := by
          have := Nat.div_add_mod (den + num - 1) num
          have := Nat.mod_lt (den + num - 1) hnum
          rw [mul_comm]
          omega
        exact_mod_cast hmul
      · rw [Nat.div_le_iff_le_mul_add_pred hnum]
        have hle : (den : ℚ) ≤ ⌈(den : ℚ) / num⌉₊ * num := by
          rw [← div_le_iff₀ hn]
          exact Nat.le_ceil _
        have hle' : den ≤ ⌈(den : ℚ) / num⌉₊ * num := by exact_mod_cast hle
        rw [mul_comm] at hle'
        omega
    exact hceil.symm

/-! ## The closest double -/

/-- A mantissa and the exponent of its last bit: of a normal double, or of a subnormal one. -/
structure IsMantissa (M : Nat) (e : Int) : Prop where
  lt : M < 2 ^ 53
  le : -1074 ≤ e
  normal : 2 ^ 52 ≤ M ∨ e = -1074

/-- The fraction is closer to `M * 2 ^ e` than half the way to its neighbours. -/
structure ClosestTo (q : ℚ) (M : Nat) (e : Int) : Prop where
  above : q < (M + 1 / 2) * 2 ^ e
  below : (M - 1 / 2) * 2 ^ e < q
  /-- Below a power of two the neighbours are closer. -/
  belowPower : M = 2 ^ 52 → -1074 < e → (M - 1 / 4) * 2 ^ e < q

theorem ClosestTo.abs_sub_lt {q : ℚ} {M : Nat} {e : Int} (h : ClosestTo q M e) :
    |q / 2 ^ e - M| < 1 / 2 := by
  have hpos := two_zpow_pos e
  have habove : q / 2 ^ e < M + 1 / 2 := (div_lt_iff₀ hpos).mpr h.above
  have hbelow : (M : ℚ) - 1 / 2 < q / 2 ^ e := (lt_div_iff₀ hpos).mpr h.below
  rw [abs_lt]
  constructor <;> linarith

/-- The exponent of the mantissa of a fraction is that of the double it is close to, or, just
below a power of two, the one before. -/
theorem ClosestTo.exponent {q : ℚ} {M : Nat} {e : Int} (h : ClosestTo q M e) (hM : IsMantissa M e)
    (hq : 0 < q) : max (-1074) (Int.log 2 q - 52) = e ∨
      (M = 2 ^ 52 ∧ -1074 < e ∧ max (-1074) (Int.log 2 q - 52) = e - 1 ∧ q < 2 ^ 52 * 2 ^ e) := by
  have htwo : (2 : ℚ) ≠ 0 := by norm_num
  have hpos := two_zpow_pos e
  have hlt : Int.log 2 q < e + 53 := by
    apply (Int.lt_zpow_iff_log_lt (by decide) hq).mp
    have hle : (M : ℚ) + 1 ≤ 2 ^ 53 := by exact_mod_cast hM.lt
    calc q < (M + 1 / 2) * 2 ^ e := h.above
      _ ≤ 2 ^ 53 * 2 ^ e := mul_le_mul_of_nonneg_right (by linarith) hpos.le
      _ = ((2 : Nat) : ℚ) ^ (e + 53) := by
        rw [Nat.cast_ofNat, add_comm e, zpow_add₀ htwo]
        norm_cast
  have hpower : (2 : ℚ) ^ (e + 52) = 2 ^ 52 * 2 ^ e := by
    rw [add_comm e, zpow_add₀ htwo]
    norm_cast
  by_cases hge : e + 52 ≤ Int.log 2 q
  · left
    have := hM.le
    omega
  · rcases hM.normal with hnormal | hsub
    · have hlow : q < 2 ^ 52 * 2 ^ e := by
        have := (Int.lt_zpow_iff_log_lt (b := 2) (by decide) hq).mpr (not_le.mp hge)
        rwa [Nat.cast_ofNat, hpower] at this
      -- the mantissa is the smallest normal one: the next is already too far away
      have hM52 : M = 2 ^ 52 := by
        by_contra hne
        have hsucc : (2 : ℚ) ^ 52 + 1 ≤ M := by
          exact_mod_cast Nat.lt_of_le_of_ne hnormal (Ne.symm hne)
        have : (2 : ℚ) ^ 52 * 2 ^ e ≤ (M - 1 / 2) * 2 ^ e :=
          mul_le_mul_of_nonneg_right (by linarith) hpos.le
        exact absurd (h.below.trans hlow) (not_lt.mpr this)
      by_cases he : e = -1074
      · left
        omega
      · right
        have hle := hM.le
        refine ⟨hM52, by omega, ?_, hlow⟩
        have hge' : e + 51 ≤ Int.log 2 q := by
          apply (Int.zpow_le_iff_le_log (b := 2) (by decide) hq).mp
          have hquarter := h.belowPower hM52 (by omega)
          have h51 : (2 : ℚ) ^ (e + 51) = 2 ^ 51 * 2 ^ e := by
            rw [add_comm e, zpow_add₀ htwo]
            norm_cast
          rw [Nat.cast_ofNat, h51]
          refine le_trans ?_ hquarter.le
          apply mul_le_mul_of_nonneg_right _ hpos.le
          rw [hM52]
          norm_num
        omega
    · left
      omega

/-- A fraction rounds to the double it is closest to; doubles are numbered in order. -/
theorem nearestBits_eq {num den M : Nat} {e : Int} (hnum : 0 < num) (hden : 0 < den)
    (hM : IsMantissa M e) (h : ClosestTo ((num : ℚ) / den) M e)
    (hfinite : (e + 1074).toNat * 2 ^ 52 + M ≤ 2047 * 2 ^ 52) :
    nearestBits num den = (e + 1074).toNat * 2 ^ 52 + M := by
  have hq : (0 : ℚ) < (num : ℚ) / den := by positivity
  have hscaled := fun e' : Int => scaled_div (b := 2) (by decide) num den e'
  simp only [Nat.cast_ofNat] at hscaled
  rw [nearestBits, if_neg hnum.ne', binaryExponent_eq hnum hden]
  rcases h.exponent hM hq with he | ⟨rfl, he, hprev, hlow⟩
  · simp only [he]
    have hround : roundHalfEven (num * 2 ^ (-e).toNat) (den * 2 ^ e.toNat) = M := by
      apply roundHalfEven_eq (by positivity)
      rw [hscaled e]
      exact h.abs_sub_lt
    rw [hround]
    exact min_eq_right hfinite
  · simp only [hprev]
    -- the mantissa rounds up to `2 ^ 53`, which carries over into the exponent
    have hround : roundHalfEven (num * 2 ^ (-(e - 1)).toNat) (den * 2 ^ (e - 1).toNat) = 2 ^ 53 := by
      apply roundHalfEven_eq (by positivity)
      have hpos := two_zpow_pos (e - 1)
      have hdouble : (2 : ℚ) ^ e = 2 * 2 ^ (e - 1) := by
        rw [← zpow_one_add₀ (by norm_num)]
        congr 1
        omega
      have hquarter := h.belowPower rfl he
      rw [hscaled (e - 1), abs_lt]
      rw [hdouble] at hquarter hlow
      constructor
      · have : (2 ^ 53 - 1 / 2 : ℚ) < (num : ℚ) / den / 2 ^ (e - 1) := by
          rw [lt_div_iff₀ hpos]
          push_cast at hquarter
          linarith
        push_cast
        linarith
      · have : (num : ℚ) / den / 2 ^ (e - 1) < 2 ^ 53 := by
          rw [div_lt_iff₀ hpos]
          linarith
        push_cast
        linarith
    rw [hround]
    have hcarry : (e - 1 + 1074).toNat * 2 ^ 52 + 2 ^ 53 = (e + 1074).toNat * 2 ^ 52 + 2 ^ 52 := by
      have : (e + 1074).toNat = (e - 1 + 1074).toNat + 1 := by omega
      rw [this]
      ring
    rw [hcarry]
    exact min_eq_right hfinite

end RagEval.Lib.Double
