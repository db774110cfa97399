import Mathlib.Data.List.TakeWhile
import RagEval.Lib.FloatRounding

/-!
# Doubles read back from their text

Every finite double is among the readings of its own decimals of seventeen digits, so that
`repr` always finds a literal.

## Main results

- `readUnsigned_formatDecimal` — the decimal a formatted literal reads as
- `readFloat_reprFloat` — a finite double reads back from its text
- `reprFloat_eq` — the form of that text
-/

namespace RagEval.Lib.Double

/-! ## Reading a literal -/

theorem readNat_eq {cs : List Char} (hne : cs ≠ []) (hcs : ∀ c ∈ cs, c.isDigit = true) :
    readNat cs = some (Nat.ofDigitChars 10 cs 0) :=
  if_pos ⟨hne, List.all_eq_true.mpr hcs⟩

theorem ne_of_isDigit {c d : Char} (hd : d.isDigit = false) (hc : c.isDigit = true) : c ≠ d := by
  rintro rfl
  rw [hc] at hd
  cases hd

/-- What stands before a character is what is taken while it does not come. -/
theorem takeWhile_append_cons {c : Char} {xs ys : List Char} (hxs : ∀ x ∈ xs, x ≠ c) :
    (xs ++ c :: ys).takeWhile (· ≠ c) = xs := by
  rw [List.takeWhile_append_of_pos (by simpa using hxs)]
  simp

theorem dropWhile_append_cons {c : Char} {xs ys : List Char} (hxs : ∀ x ∈ xs, x ≠ c) :
    (xs ++ c :: ys).dropWhile (· ≠ c) = c :: ys := by
  rw [List.dropWhile_append_of_pos (by simpa using hxs)]
  simp

theorem takeWhile_eq_self {c : Char} {xs : List Char} (hxs : ∀ x ∈ xs, x ≠ c) :
    xs.takeWhile (· ≠ c) = xs := by
  rw [List.takeWhile_eq_self_iff]
  simpa using hxs

theorem dropWhile_eq_nil {c : Char} {xs : List Char} (hxs : ∀ x ∈ xs, x ≠ c) :
    xs.dropWhile (· ≠ c) = [] := by
  rw [List.dropWhile_eq_nil_iff]
  simpa using hxs

/-- The fraction of a literal: nothing, or digits after the point. -/
def fractionText : Option (List Char) → List Char
  | none => []
  | some fraction => '.' :: fraction

def fractionDigits (fraction : Option (List Char)) : List Char := fraction.getD []

/-- The exponent of a literal. -/
def exponentText : Option (List Char) → List Char
  | none => []
  | some exponent => 'e' :: exponent

theorem mantissa_split {whole : List Char} (fraction : Option (List Char))
    (hwhole : ∀ c ∈ whole, c.isDigit = true) :
    (whole ++ fractionText fraction).takeWhile (· ≠ '.') = whole ∧
      ((whole ++ fractionText fraction).dropWhile (· ≠ '.')).drop 1 = fractionDigits fraction := by
  have hpoint : ∀ c ∈ whole, c ≠ '.' := fun c hc => ne_of_isDigit (by decide) (hwhole c hc)
  cases fraction with
  | none =>
    rw [fractionText, List.append_nil, takeWhile_eq_self hpoint, dropWhile_eq_nil hpoint]
    exact ⟨rfl, rfl⟩
  | some fraction =>
    rw [fractionText, takeWhile_append_cons hpoint, dropWhile_append_cons hpoint]
    exact ⟨rfl, rfl⟩

/-- A literal reads as its digits, scaled by its exponent and the places after the point. -/
theorem readUnsigned_literal (negative : Bool) {whole : List Char}
    (fraction exponent : Option (List Char)) {x : Int} (hne : whole ≠ [])
    (hwhole : ∀ c ∈ whole, c.isDigit = true)
    (hfraction : ∀ c ∈ fractionDigits fraction, c.isDigit = true)
    (hx : (exponent.map readInt).getD (some 0) = some x) :
    readUnsigned negative (whole ++ fractionText fraction ++ exponentText exponent) =
      some (ofDecimal negative (Nat.ofDigitChars 10 (whole ++ fractionDigits fraction) 0)
        (x - (fractionDigits fraction).length)) := by
  have hmantissa : ∀ c ∈ whole ++ fractionText fraction, c ≠ 'e' := by
    rw [List.forall_mem_append]
    refine ⟨fun c hc => ne_of_isDigit (by decide) (hwhole c hc), ?_⟩
    cases fraction with
    | none => exact fun c hc => (nomatch hc)
    | some fraction =>
      rw [fractionText, List.forall_mem_cons]
      exact ⟨by decide, fun c hc => ne_of_isDigit (by decide) (hfraction c hc)⟩
  obtain ⟨htake, hdrop⟩ := mantissa_split fraction hwhole
  have hdigits : readNat (whole ++ fractionDigits fraction) =
      some (Nat.ofDigitChars 10 (whole ++ fractionDigits fraction) 0) := by
    apply readNat_eq (by simp [hne])
    rw [List.forall_mem_append]
    exact ⟨hwhole, hfraction⟩
  cases exponent with
  | none =>
    obtain rfl : 0 = x := Option.some.inj hx
    have hnot : 'e' ∉ whole ++ fractionText fraction := fun h => hmantissa _ h rfl
    simp only [readUnsigned, exponentText, List.append_nil, takeWhile_eq_self hmantissa, htake,
      hdrop, hdigits, if_neg hnot]
    rfl
  | some exponent =>
    have hmem : 'e' ∈ whole ++ fractionText fraction ++ 'e' :: exponent := by simp
    have hexp : readInt (('e' :: exponent).drop 1) = some x := hx
    simp only [readUnsigned, exponentText, takeWhile_append_cons hmantissa,
      dropWhile_append_cons hmantissa, htake, hdrop, hdigits, if_pos hmem, hexp]
    rfl

/-- The decimals the printer formats: digits, and the power of ten of the first of them. -/
structure IsSignificand (ds : List Char) : Prop where
  ne_nil : ds ≠ []
  digits : ∀ c ∈ ds, c.isDigit = true

theorem IsSignificand.replicate_append {ds : List Char} (h : IsSignificand ds) (n : Nat) :
    IsSignificand (List.replicate n '0' ++ ds) := by
  refine ⟨by simp [h.ne_nil], ?_⟩
  rw [List.forall_mem_append]
  exact ⟨isDigit_replicate n, h.digits⟩

/-- The signed exponent of a literal, padded to two digits. -/
theorem readInt_exponent (k : Int) :
    readInt ((if k < 0 then '-' else '+') ::
      (List.replicate (2 - (Nat.toDigits 10 k.natAbs).length) '0' ++ Nat.toDigits 10 k.natAbs)) =
      some k := by
  have hsig : IsSignificand (Nat.toDigits 10 k.natAbs) := ⟨Nat.toDigits_ne_nil, isDigit_toDigits _⟩
  have hpadded := hsig.replicate_append (2 - (Nat.toDigits 10 k.natAbs).length)
  have hread : readNat (List.replicate (2 - (Nat.toDigits 10 k.natAbs).length) '0' ++
      Nat.toDigits 10 k.natAbs) = some k.natAbs := by
    rw [readNat_eq hpadded.ne_nil hpadded.digits, Nat.ofDigitChars_append,
      Nat.ofDigitChars_replicate_zero, Nat.mul_zero, Nat.ofDigitChars_ten_toDigits]
  split_ifs with hneg
  · simp only [readInt, hread]
    show some (-(k.natAbs : Int)) = some k
    rw [Option.some.injEq]
    omega
  · simp only [readInt, hread]
    show some (k.natAbs : Int) = some k
    rw [Option.some.injEq]
    omega

theorem ofDigitChars_zero_cons (cs : List Char) :
    Nat.ofDigitChars 10 ('0' :: cs) 0 = Nat.ofDigitChars 10 cs 0 := by
  rw [Nat.ofDigitChars_cons]
  rfl

/-- The decimal a formatted literal reads as, in whichever layout it stands. -/
theorem readUnsigned_formatDecimal {ds : List Char} (h : IsSignificand ds) (k : Int)
    (negative : Bool) :
    ∃ (digits : Nat) (x : Int),
      readUnsigned negative (formatDecimal ds k) = some (ofDecimal negative digits x) ∧
      (digits : ℚ) * 10 ^ x = Nat.ofDigitChars 10 ds 0 * 10 ^ (k + 1 - ds.length) := by
  have hten : (10 : ℚ) ≠ 0 := by norm_num
  have htake : ∀ n, ∀ c ∈ ds.take n, c.isDigit = true := fun n c hc =>
    h.digits c (List.mem_of_mem_take hc)
  have hdrop : ∀ n, ∀ c ∈ ds.drop n, c.isDigit = true := fun n c hc =>
    h.digits c (List.mem_of_mem_drop hc)
  have hlen : 0 < ds.length := List.length_pos_of_ne_nil h.ne_nil
  unfold formatDecimal
  split
  · by_cases hone : ds.length ≤ 1
    · -- one digit and an exponent
      have hds : ds.take 1 = ds := List.take_of_length_le hone
      have hlen1 : ds.length = 1 := by omega
      have hread := readUnsigned_literal negative none
        (some ((if k < 0 then '-' else '+') :: _)) h.ne_nil h.digits
        (fun c hc => (nomatch hc)) (readInt_exponent k)
      rw [if_pos hone, hds]
      refine ⟨_, _, hread, ?_⟩
      simp [fractionDigits, hlen1]
    · -- digits around a point and an exponent
      have hread := readUnsigned_literal negative (some (ds.drop 1))
        (some ((if k < 0 then '-' else '+') :: _)) (by simp [h.ne_nil]) (htake 1) (hdrop 1)
        (readInt_exponent k)
      rw [if_neg hone]
      refine ⟨_, _, hread, ?_⟩
      simp only [fractionDigits, Option.getD_some, List.take_append_drop, List.length_drop]
      congr 2
      omega
  split
  · -- a fraction below one
    have hzero : IsSignificand ['0'] := ⟨by simp, by simp⟩
    have hread := readUnsigned_literal negative
      (some (List.replicate (-k - 1).toNat '0' ++ ds)) none hzero.ne_nil hzero.digits
      (h.replicate_append _).digits rfl
    simp only [fractionText, exponentText, List.append_nil, List.cons_append, List.nil_append]
      at hread
    refine ⟨_, _, hread, ?_⟩
    simp only [fractionDigits, Option.getD_some, ofDigitChars_zero_cons, Nat.ofDigitChars_append,
      Nat.ofDigitChars_replicate_zero, Nat.mul_zero, List.length_append, List.length_replicate]
    congr 2
    push_cast
    omega
  split
  · -- a whole number
    have hdigits : ∀ c ∈ ds ++ List.replicate ((k + 1).toNat - ds.length) '0', c.isDigit = true := by
      rw [List.forall_mem_append]
      exact ⟨h.digits, isDigit_replicate _⟩
    have hread := readUnsigned_literal negative (some ['0']) none (by simp [h.ne_nil]) hdigits
      (by simp [fractionDigits]) rfl
    simp only [fractionText, exponentText, List.append_nil] at hread
    refine ⟨_, _, hread, ?_⟩
    have hpow : (10 : ℚ) ^ (k + 1 - ds.length) = 10 ^ ((k + 1).toNat - ds.length) := by
      rw [← zpow_natCast]
      congr 1
      omega
    have hlast : ∀ n, Nat.ofDigitChars 10 ['0'] n = 10 * n := fun n =>
      Nat.ofDigitChars_replicate_zero (n := 1)
    simp only [fractionDigits, Option.getD_some, Nat.ofDigitChars_append,
      Nat.ofDigitChars_replicate_zero, List.length_singleton, hpow, hlast]
    push_cast
    rw [zpow_neg, zpow_one]
    field_simp
  · -- digits around the point
    have hread := readUnsigned_literal negative (some (ds.drop (k + 1).toNat)) none
      (by simp only [ne_eq, List.take_eq_nil_iff, h.ne_nil, or_false]; omega)
      (htake (k + 1).toNat) (hdrop _) rfl
    simp only [fractionText, exponentText, List.append_nil] at hread
    refine ⟨_, _, hread, ?_⟩
    simp only [fractionDigits, Option.getD_some, List.take_append_drop, List.length_drop]
    congr 2
    omega

/-! ## The mantissa of a double -/

/-- The number of a double among the doubles of its sign. -/
def ordinal (M : Nat) (e : Int) : Nat := (e + 1074).toNat * 2 ^ 52 + M

/-- A finite double by its sign, mantissa and exponent. -/
theorem bits_of_finite {bits : BitVec 64} {m e : Int} (h : Num.ofFloat bits = .fin m e) :
    IsMantissa m.natAbs e ∧ ordinal m.natAbs e < 2047 * 2 ^ 52 ∧
      bits.toNat = (if isNegative bits then 2 ^ 63 else 0) + ordinal m.natAbs e := by
  have hlt : bits.toNat < 2 ^ 64 := bits.isLt
  have hsign : (if isNegative bits then 2 ^ 63 else 0) = if 2 ^ 63 ≤ bits.toNat then 2 ^ 63 else 0 := by
    simp only [isNegative, decide_eq_true_eq]
  rw [hsign]
  have habs : ∀ n : Nat, (if decide (2 ^ 63 ≤ bits.toNat) = true then -(n : Int) else n).natAbs = n := by
    intro n
    split
    · rw [Int.natAbs_neg, Int.natAbs_natCast]
    · rw [Int.natAbs_natCast]
  simp only [Num.ofFloat] at h
  by_cases hspecial : bits.toNat / 2 ^ 52 % 2 ^ 11 = 2047
  · rw [if_pos hspecial] at h
    split at h <;> cases h
  rw [if_neg hspecial] at h
  by_cases hsub : bits.toNat / 2 ^ 52 % 2 ^ 11 = 0
  · rw [if_pos hsub] at h
    injection h with hm he
    rw [← hm, habs, ← he, ordinal]
    refine ⟨⟨by omega, le_rfl, .inr rfl⟩, by omega, ?_⟩
    split <;> omega
  · rw [if_neg hsub] at h
    injection h with hm he
    rw [← hm, habs, ← he, ordinal]
    refine ⟨⟨by omega, by omega, .inl (by omega)⟩, by omega, ?_⟩
    split <;> omega

/-- A decimal reads as the double it is closest to. -/
theorem ofDecimal_eq {negative : Bool} {digits M : Nat} {x e : Int} (hM : IsMantissa M e)
    (hfinite : ordinal M e < 2047 * 2 ^ 52) (hdigits : 0 < digits)
    (h : ClosestTo ((digits : ℚ) * 10 ^ x) M e) :
    ofDecimal negative digits x =
      BitVec.ofNat 64 ((if negative then 2 ^ 63 else 0) + ordinal M e) := by
  have hvalue := mul_scaled_div (b := 10) (by decide) digits x
  rw [Nat.cast_ofNat] at hvalue
  rw [← hvalue] at h
  rw [ofDecimal, nearestBits_eq (by positivity) (by positivity) hM h hfinite.le, ordinal]

/-! ## Seventeen digits -/

/-- The two decimals of `n` digits around a fraction: the integers around its scaled value, or
a carried power of ten. -/
def decimalText (n d : Nat) (k : Int) : List Char :=
  if d = 10 ^ n then formatDecimal ['1'] (k + 1) else formatDecimal (Nat.toDigits 10 d) k

theorem mem_decimalsAround_iff {num den n : Nat} {cs : List Char} :
    cs ∈ decimalsAround num den n ↔
      ∃ d, (d = num * 10 ^ (-(decimalExponent num den - n + 1)).toNat /
          (den * 10 ^ (decimalExponent num den - n + 1).toNat) ∨
        d = num * 10 ^ (-(decimalExponent num den - n + 1)).toNat /
          (den * 10 ^ (decimalExponent num den - n + 1).toNat) + 1) ∧
        cs = decimalText n d (decimalExponent num den) := by
  simp only [decimalsAround, decimalText]
  split
  · simp only [List.mem_cons, List.not_mem_nil, or_false]
    constructor
    · rintro (h | h)
      · exact ⟨_, .inl rfl, h⟩
      · exact ⟨_, .inr rfl, h⟩
    · rintro ⟨d, rfl | rfl, h⟩
      · exact .inl h
      · exact .inr h
  · simp only [List.mem_cons, List.not_mem_nil, or_false]
    constructor
    · rintro (h | h)
      · exact ⟨_, .inr rfl, h⟩
      · exact ⟨_, .inl rfl, h⟩
    · rintro ⟨d, rfl | rfl, h⟩
      · exact .inr h
      · exact .inl h

theorem length_toDigits {n d : Nat} (hn : 1 < n) (hle : 10 ^ (n - 1) ≤ d) (hlt : d < 10 ^ n) :
    (Nat.toDigits 10 d).length = n := by
  apply le_antisymm
  · exact (Nat.length_toDigits_le_iff (by decide) (by omega)).mpr hlt
  · by_contra hlen
    have hshort : (Nat.toDigits 10 d).length ≤ n - 1 := by omega
    have := (Nat.length_toDigits_le_iff (by decide) (by omega)).mp hshort
    omega

/-- The decimal that stands for an integer of `n` digits. -/
theorem readUnsigned_decimalText {n d : Nat} (hn : 1 < n) (hlow : 10 ^ (n - 1) ≤ d)
    (hhigh : d ≤ 10 ^ n) (k : Int) (negative : Bool) :
    ∃ (digits : Nat) (x : Int),
      readUnsigned negative (decimalText n d k) = some (ofDecimal negative digits x) ∧
      (digits : ℚ) * 10 ^ x = d * 10 ^ (k - n + 1) := by
  unfold decimalText
  split_ifs with hcarry
  · have hone : IsSignificand ['1'] := ⟨by simp, List.forall_mem_singleton.mpr rfl⟩
    obtain ⟨digits, x, hread, hvalue⟩ := readUnsigned_formatDecimal hone (k + 1) negative
    refine ⟨digits, x, hread, ?_⟩
    have hvalue1 : Nat.ofDigitChars 10 ['1'] 0 = 1 := rfl
    rw [hvalue, hvalue1, hcarry, Nat.cast_one, one_mul, List.length_singleton]
    push_cast
    rw [← zpow_natCast, ← zpow_add₀ (by norm_num)]
    congr 1
    omega
  · have hlt : d < 10 ^ n := Nat.lt_of_le_of_ne hhigh hcarry
    obtain ⟨digits, x, hread, hvalue⟩ := readUnsigned_formatDecimal
      ⟨Nat.toDigits_ne_nil, isDigit_toDigits d⟩ k negative
    refine ⟨digits, x, hread, ?_⟩
    rw [hvalue, Nat.ofDigitChars_ten_toDigits, length_toDigits hn hlow hlt]
    congr 2
    omega

section
variable {num den M : Nat} {e : Int}

/-- The scaled value of a fraction lies in its decade. -/
theorem scaled_decade (hnum : 0 < num) (hden : 0 < den) (n : Nat) :
    (10 : ℚ) ^ ((n : Int) - 1) ≤
        (num : ℚ) / den / 10 ^ (decimalExponent num den - n + 1) ∧
      (num : ℚ) / den / 10 ^ (decimalExponent num den - n + 1) < 10 ^ (n : Int) := by
  have hq : (0 : ℚ) < (num : ℚ) / den := by positivity
  have hten : (10 : ℚ) ≠ 0 := by norm_num
  have hlow := Int.zpow_log_le_self (b := 10) (by decide) hq
  have hhigh := Int.lt_zpow_succ_log_self (b := 10) (by decide) ((num : ℚ) / den)
  rw [← decimalExponent_eq hnum hden, Nat.cast_ofNat] at hlow hhigh
  have hpos := ten_zpow_pos (decimalExponent num den - n + 1)
  constructor
  · rw [le_div_iff₀ hpos, ← zpow_add₀ hten]
    refine le_trans (le_of_eq ?_) hlow
    congr 1
    omega
  · rw [div_lt_iff₀ hpos, ← zpow_add₀ hten]
    refine lt_of_lt_of_eq hhigh ?_
    congr 1
    omega

/-- A unit of the seventeenth digit is less than one of the last bit, and less than half of it
at a power of two. -/
theorem ten_zpow_lt (hM : IsMantissa M e) (hnum : 0 < num) (hden : 0 < den)
    (hq : (num : ℚ) / den = M * 2 ^ e) :
    (10 : ℚ) ^ (decimalExponent num den - 17 + 1) < 2 ^ e ∧
      (M = 2 ^ 52 → (10 : ℚ) ^ (decimalExponent num den - 17 + 1) < 2 ^ e / 2) := by
  have hpos := two_zpow_pos e
  have hdecade := (scaled_decade hnum hden 17).1
  rw [le_div_iff₀ (ten_zpow_pos _), hq] at hdecade
  have hsixteen : (10 : ℚ) ^ (((17 : Nat) : Int) - 1) = 10 ^ 16 := by norm_cast
  rw [hsixteen] at hdecade
  push_cast at hdecade
  have hbound : (M : ℚ) + 1 ≤ 2 ^ 53 := by exact_mod_cast hM.lt
  constructor
  · nlinarith
  · rintro rfl
    push_cast at hdecade
    linarith

/-- Rounded to seventeen digits, the value of a double is still closest to it. -/
theorem closestTo_seventeen (hM : IsMantissa M e) (hnum : 0 < num) (hden : 0 < den)
    (hq : (num : ℚ) / den = M * 2 ^ e) :
    ∃ d : Nat, decimalText 17 d (decimalExponent num den) ∈ decimalsAround num den 17 ∧
      10 ^ 16 ≤ d ∧ d ≤ 10 ^ 17 ∧
      ClosestTo (d * 10 ^ (decimalExponent num den - 17 + 1)) M e := by
  set p := decimalExponent num den - 17 + 1 with hp
  have hpos := ten_zpow_pos p
  obtain ⟨hlow, hhigh⟩ := scaled_decade hnum hden 17
  have hround := abs_le.mp (abs_sub_roundHalfEven (num * 10 ^ (-p).toNat)
    (mul_pos hden (Nat.pow_pos (by decide : 0 < 10)) : 0 < den * 10 ^ p.toNat))
  rw [scaled_div (b := 10) (by decide), Nat.cast_ofNat] at hround
  generalize hd : roundHalfEven (num * 10 ^ (-p).toNat) (den * 10 ^ p.toNat) = d at hround
  have hsixteen : (10 : ℚ) ^ (((17 : Nat) : Int) - 1) = 10 ^ 16 := by norm_cast
  have hseventeen : (10 : ℚ) ^ ((17 : Nat) : Int) = 10 ^ 17 := by norm_cast
  rw [hsixteen] at hlow
  rw [hseventeen] at hhigh
  push_cast at hlow hhigh
  rw [← hp] at hlow hhigh
  refine ⟨d, ?_, ?_, ?_, ?_⟩
  · refine mem_decimalsAround_iff.mpr ⟨d, ?_, rfl⟩
    push_cast
    rw [← hp, ← hd, roundHalfEven]
    split_ifs
    · exact .inl rfl
    · exact .inr rfl
  · have : (10 ^ 16 : ℚ) < d + 1 := by linarith [hround.2]
    have : 10 ^ 16 < d + 1 := by exact_mod_cast this
    omega
  · have : (d : ℚ) < 10 ^ 17 + 1 := by linarith [hround.1]
    have : d < 10 ^ 17 + 1 := by exact_mod_cast this
    omega
  · obtain ⟨hunit, hhalf⟩ := ten_zpow_lt hM hnum hden hq
    rw [← hp] at hunit hhalf
    -- the rounding moves the value by half a unit of the last digit at most
    have hvalue : (num : ℚ) / den / 10 ^ p * 10 ^ p = M * 2 ^ e := by
      rw [div_mul_cancel₀ _ hpos.ne', hq]
    have hle : (d : ℚ) * 10 ^ p ≤ M * 2 ^ e + 10 ^ p / 2 := by
      rw [← hvalue]
      nlinarith [hround.1]
    have hge : (M : ℚ) * 2 ^ e - 10 ^ p / 2 ≤ d * 10 ^ p := by
      rw [← hvalue]
      nlinarith [hround.2]
    refine ⟨by linarith, by linarith, fun hM52 _ => ?_⟩
    have := hhalf hM52
    linarith

end

/-! ## Every finite double has a literal -/

/-- A formatted decimal starts with a digit. -/
theorem formatDecimal_eq_cons {ds : List Char} (h : IsSignificand ds) (k : Int) :
    ∃ c cs, formatDecimal ds k = c :: cs ∧ c.isDigit = true := by
  obtain ⟨c, rest, rfl⟩ := List.exists_cons_of_ne_nil h.ne_nil
  have hc := h.digits c List.mem_cons_self
  unfold formatDecimal
  split
  · exact ⟨c, _, rfl, hc⟩
  split
  · exact ⟨'0', _, rfl, rfl⟩
  split
  · exact ⟨c, _, rfl, hc⟩
  · obtain ⟨n, hn⟩ : ∃ n, (k + 1).toNat = n + 1 := ⟨k.toNat, by omega⟩
    rw [hn]
    exact ⟨c, _, rfl, hc⟩

theorem readFloat_signed {ds : List Char} (h : IsSignificand ds) (k : Int) (negative : Bool) :
    readFloat ((if negative then ['-'] else []) ++ formatDecimal ds k) =
      readUnsigned negative (formatDecimal ds k) := by
  cases negative with
  | true => rfl
  | false =>
    obtain ⟨c, cs, heq, hc⟩ := formatDecimal_eq_cons h k
    have hne : c ≠ '-' := ne_of_isDigit (by decide) hc
    rw [if_neg (by decide), List.nil_append, heq, readFloat]
    rintro rest hrest
    exact hne (List.cons.inj hrest).1

theorem magnitude_eq {bits : BitVec 64} {m e : Int} (h : Num.ofFloat bits = .fin m e) :
    magnitude bits = (m.natAbs * 2 ^ e.toNat, 2 ^ (-e).toNat) := by
  rw [magnitude, h]

theorem decimalText_eq (n d : Nat) (k : Int) :
    ∃ ds k', decimalText n d k = formatDecimal ds k' ∧ IsSignificand ds := by
  unfold decimalText
  split
  · exact ⟨['1'], k + 1, rfl, by simp, List.forall_mem_singleton.mpr rfl⟩
  · exact ⟨_, k, rfl, Nat.toDigits_ne_nil, isDigit_toDigits d⟩

/-- One of the candidates of a finite double reads as the double. -/
theorem exists_candidate {bits : BitVec 64} {m e : Int} (h : Num.ofFloat bits = .fin m e) :
    ∃ cs ∈ candidates bits, readFloat cs = some bits := by
  obtain ⟨hM, hfinite, hbits⟩ := bits_of_finite h
  have hofNat : BitVec.ofNat 64 ((if isNegative bits then 2 ^ 63 else 0) + ordinal m.natAbs e) =
      bits := by
    rw [← hbits]
    exact BitVec.ofNat_toNat _ _
  by_cases hzero : m.natAbs = 0
  · have hdigit : IsSignificand ['0'] := ⟨by simp, List.forall_mem_singleton.mpr rfl⟩
    refine ⟨(if isNegative bits then ['-'] else []) ++ formatDecimal ['0'] 0, ?_, ?_⟩
    · refine List.mem_map.mpr ⟨formatDecimal ['0'] 0, ?_, rfl⟩
      rw [magnitude_eq h, hzero, Nat.zero_mul, if_pos rfl]
      exact List.mem_singleton.mpr rfl
    · obtain ⟨digits, x, hread, hvalue⟩ := readUnsigned_formatDecimal hdigit 0 (isNegative bits)
      have hofDigits : Nat.ofDigitChars 10 ['0'] 0 = 0 := rfl
      rw [hofDigits, Nat.cast_zero, zero_mul, mul_eq_zero] at hvalue
      have hdigits : digits = 0 := by
        rcases hvalue with hd | hx
        · exact_mod_cast hd
        · exact absurd hx (ten_zpow_pos x).ne'
      have hexp : e = -1074 := by
        rcases hM.normal with hnormal | hsub
        · omega
        · exact hsub
      have hordinal : ordinal m.natAbs e = 0 := by
        rw [ordinal, hzero, hexp]
        rfl
      rw [hordinal] at hofNat
      rw [readFloat_signed hdigit, hread, hdigits, ofDecimal, Nat.zero_mul, nearestBits,
        if_pos rfl, hofNat]
  · have hpos : 0 < m.natAbs := Nat.pos_of_ne_zero hzero
    have hnum : 0 < m.natAbs * 2 ^ e.toNat := by positivity
    have hden : 0 < 2 ^ (-e).toNat := by positivity
    have hq := mul_scaled_div (b := 2) (by decide) m.natAbs e
    rw [Nat.cast_ofNat] at hq
    obtain ⟨d, hmem, hlow, hhigh, hclosest⟩ := closestTo_seventeen hM hnum hden hq
    refine ⟨(if isNegative bits then ['-'] else []) ++ decimalText 17 d
      (decimalExponent (m.natAbs * 2 ^ e.toNat) (2 ^ (-e).toNat)), ?_, ?_⟩
    · refine List.mem_map.mpr ⟨_, ?_, rfl⟩
      rw [magnitude_eq h, if_neg hnum.ne']
      exact List.mem_flatMap.mpr ⟨16, by decide, hmem⟩
    · obtain ⟨ds, k, htext, hds⟩ := decimalText_eq 17 d
        (decimalExponent (m.natAbs * 2 ^ e.toNat) (2 ^ (-e).toNat))
      obtain ⟨digits, x, hread, hvalue⟩ := readUnsigned_decimalText (by decide) hlow hhigh
        (decimalExponent (m.natAbs * 2 ^ e.toNat) (2 ^ (-e).toNat)) (isNegative bits)
      have hdigits : 0 < digits := by
        have hd : (0 : ℚ) < d := by
          have : 0 < d := by omega
          exact_mod_cast this
        have hright : (0 : ℚ) < digits * 10 ^ x := by
          rw [hvalue]
          exact mul_pos hd (ten_zpow_pos _)
        have := (mul_pos_iff_of_pos_right (ten_zpow_pos x)).mp hright
        exact_mod_cast this
      push_cast at hvalue
      rw [← hvalue] at hclosest
      rw [htext, readFloat_signed hds, ← htext, hread, ofDecimal_eq hM hfinite hdigits hclosest,
        hofNat]

/-- A finite double reads back from its text. -/
theorem readFloat_reprFloat {bits : BitVec 64} {m e : Int} (h : Num.ofFloat bits = .fin m e) :
    reprFloat bits ∈ candidates bits ∧ readFloat (reprFloat bits) = some bits := by
  obtain ⟨cs, hmem, hread⟩ := exists_candidate h
  have hsome : ((candidates bits).find? fun cs => readFloat cs = some bits).isSome := by
    rw [List.find?_isSome]
    exact ⟨cs, hmem, by simpa using hread⟩
  obtain ⟨found, hfound⟩ := Option.isSome_iff_exists.mp hsome
  have heq : reprFloat bits = found := by rw [reprFloat, hfound, Option.getD_some]
  rw [heq]
  exact ⟨List.mem_of_find?_eq_some hfound, by simpa using List.find?_some hfound⟩

end RagEval.Lib.Double
