import Mathlib.Algebra.Order.Field.Power
import Mathlib.Data.Rat.Cast.Order
import Mathlib.Order.WithBot
import RagEval.Lib.Value

/-!
# The order of numbers

The comparison of integers and doubles, which is made over their smaller exponent, is that of
the rationals they are. Bounds leave the finite numbers only.

## Main results

- `Num.finLe_iff` — the comparison of finite numbers
- `Num.exists_rat` — a number with bounds is a rational between them
- `Num.lt_iff_extended` — the comparison of all numbers but NaNs
-/

namespace RagEval.Lib

namespace Num

/-- The rational a number is, unless it is infinite or a NaN. -/
def toRat? : Num → Option ℚ
  | .fin m e => some (m * 2 ^ e)
  | _ => none

theorem finLe_iff (m e m' e' : Int) :
    finLe m e m' e' = true ↔ (m * 2 ^ e : ℚ) ≤ m' * 2 ^ e' := by
  have hshift : ∀ a b : Int, a ≤ b → (2 : ℚ) ^ b = 2 ^ a * 2 ^ (b - a).toNat := by
    intro a b hab
    rw [← zpow_natCast, ← zpow_add₀ two_ne_zero]
    congr 1
    omega
  have hpos : ∀ a : Int, (0 : ℚ) < 2 ^ a := fun a => zpow_pos two_pos a
  unfold finLe
  split
  · next he =>
    rw [decide_eq_true_eq, hshift e e' he, mul_left_comm, mul_comm (m : ℚ),
      mul_le_mul_iff_right₀ (hpos e)]
    exact_mod_cast Iff.rfl
  · next he =>
    rw [decide_eq_true_eq, hshift e' e (by omega), mul_left_comm, mul_comm (m' : ℚ),
      mul_le_mul_iff_right₀ (hpos e')]
    exact_mod_cast Iff.rfl

theorem le_iff {x y : Num} {a b : ℚ} (hx : x.toRat? = some a) (hy : y.toRat? = some b) :
    x.le y = true ↔ a ≤ b := by
  cases x with
  | fin m e =>
    cases y with
    | fin m' e' =>
      rw [← Option.some.inj hx, ← Option.some.inj hy]
      exact finLe_iff m e m' e'
    | _ => cases hy
  | _ => cases hx

theorem ofInt_ne_nan (i : Int) : ofInt i ≠ .nan := nofun

theorem toRat?_ofInt (i : Int) : (ofInt i).toRat? = some (i : ℚ) := by
  rw [ofInt, toRat?, zpow_zero, mul_one]

/-- A number with bounds is a rational between them. -/
theorem exists_rat {lo hi x : Num} {a b : ℚ} (hlo : lo.toRat? = some a) (hhi : hi.toRat? = some b)
    (hle : lo.le x = true) (hge : x.le hi = true) : ∃ q, x.toRat? = some q ∧ a ≤ q ∧ q ≤ b := by
  cases x with
  | fin m e => exact ⟨_, rfl, (le_iff hlo rfl).mp hle, (le_iff rfl hhi).mp hge⟩
  | nan =>
    cases hi with
    | fin => cases hge
    | _ => cases hhi
  | inf negative =>
    cases lo with
    | fin =>
      cases hi with
      | fin =>
        -- above the one bound it is positive, below the other negative
        cases negative with
        | true => cases hle
        | false => cases hge
      | _ => cases hhi
    | _ => cases hlo

/-! Numbers that are no NaN are ordered linearly. -/

theorem le_of_lt_eq_false {x y : Num} (hx : x ≠ .nan) (hy : y ≠ .nan) (h : x.lt y = false) :
    y.le x = true := by
  cases x with
  | nan => exact absurd rfl hx
  | _ =>
    cases y with
    | nan => exact absurd rfl hy
    | _ => simpa only [lt, Bool.not_eq_false'] using h

theorem le_of_le_eq_false {x y : Num} (hx : x ≠ .nan) (hy : y ≠ .nan) (h : x.le y = false) :
    y.le x = true := by
  cases x with
  | nan => exact absurd rfl hx
  | fin m e =>
    cases y with
    | nan => exact absurd rfl hy
    | fin m' e' =>
      have hlt : ¬(m * 2 ^ e : ℚ) ≤ m' * 2 ^ e' := by
        rw [← finLe_iff]
        exact Bool.eq_false_iff.mp h
      exact (finLe_iff m' e' m e).mpr (le_of_not_ge hlt)
    | inf negative =>
      cases negative with
      | true => rfl
      | false => cases h
  | inf negative =>
    cases y with
    | nan => exact absurd rfl hy
    | fin m' e' =>
      cases negative with
      | true => cases h
      | false => rfl
    | inf negative' =>
      cases negative with
      | true => cases h
      | false => cases negative' <;> rfl

/-- The place of a number, unless it is a NaN, among the rationals with two infinities. -/
def extended : Num → WithBot (WithTop ℚ)
  | .fin m e => ((m * 2 ^ e : ℚ) : WithTop ℚ)
  | .inf true => ⊥
  | .inf false => (⊤ : WithTop ℚ)
  | .nan => ⊥

theorem extended_fin_between (m e : Int) :
    (⊥ : WithBot (WithTop ℚ)) < extended (.fin m e) ∧
      extended (.fin m e) < ((⊤ : WithTop ℚ) : WithBot (WithTop ℚ)) :=
  ⟨WithBot.bot_lt_coe _, WithBot.coe_lt_coe.mpr (WithTop.coe_lt_top _)⟩

theorem le_iff_extended {x y : Num} (hx : x ≠ .nan) (hy : y ≠ .nan) :
    x.le y = true ↔ x.extended ≤ y.extended := by
  cases x with
  | nan => exact absurd rfl hx
  | fin m e =>
    obtain ⟨hbot, htop⟩ := extended_fin_between m e
    cases y with
    | nan => exact absurd rfl hy
    | fin m' e' =>
      show finLe m e m' e' = true ↔ _
      rw [finLe_iff, extended, extended, WithBot.coe_le_coe, WithTop.coe_le_coe]
    | inf negative =>
      cases negative with
      | true => exact iff_of_false Bool.false_ne_true hbot.not_ge
      | false => exact iff_of_true rfl htop.le
  | inf negative =>
    cases y with
    | nan => exact absurd rfl hy
    | fin m e =>
      obtain ⟨hbot, htop⟩ := extended_fin_between m e
      cases negative with
      | true => exact iff_of_true rfl hbot.le
      | false => exact iff_of_false Bool.false_ne_true htop.not_ge
    | inf negative' =>
      have hends : (⊥ : WithBot (WithTop ℚ)) < ((⊤ : WithTop ℚ) : WithBot (WithTop ℚ)) :=
        WithBot.bot_lt_coe _
      cases negative with
      | true => exact iff_of_true rfl bot_le
      | false =>
        cases negative' with
        | true => exact iff_of_false Bool.false_ne_true hends.not_ge
        | false => exact iff_of_true rfl le_rfl

theorem lt_iff_extended {x y : Num} (hx : x ≠ .nan) (hy : y ≠ .nan) :
    x.lt y = true ↔ x.extended < y.extended := by
  have hlt : x.lt y = !y.le x := by
    cases x with
    | nan => exact absurd rfl hx
    | _ =>
      cases y with
      | nan => exact absurd rfl hy
      | _ => rfl
  rw [hlt, ← not_le, ← le_iff_extended hy hx, Bool.not_eq_true', Bool.not_eq_true]

end Num

/-- The rational a value is, if it is a finite number. -/
def Value.toRat? (v : Value) : Option ℚ := v.num?.bind Num.toRat?

end RagEval.Lib
