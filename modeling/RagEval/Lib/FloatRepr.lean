import Mathlib.Data.Nat.Log
import RagEval.Lib.Value

/-!
# The shortest decimal of a double

`float.__repr__`: of the decimal literals that read as a given double, one with the fewest
digits, and of these the closest to it. Literals are read with correct rounding, halves to
the even mantissa.

## Main definitions

- `readFloat` — the double a literal reads as
- `reprFloat` — the literal a double is written as

## Main result

- `reprFloat_injective` — two doubles are never written alike
-/

namespace RagEval.Lib.Double

/-! ## Reading -/

def roundHalfEven (num den : Nat) : Nat :=
  let q := num / den
  let r := num % den
  if 2 * r < den ∨ 2 * r = den ∧ q % 2 = 0 then q else q + 1

/-- The exponent of the leading bit of `num / den`. -/
def binaryExponent (num den : Nat) : Int :=
  let l : Int := (Nat.log2 num : Int) - Nat.log2 den
  if num * 2 ^ (-l).toNat < den * 2 ^ l.toNat then l - 1 else l

/-- The bits, but for the sign, of the double closest to `num / den`. Normal and subnormal
doubles are numbered in order, so that a mantissa rounded up to `2 ^ 53` carries over. -/
def nearestBits (num den : Nat) : Nat :=
  if num = 0 then 0
  else
    -- the exponent of the mantissa's last bit; what lies above all doubles rounds to infinity
    let e := max (-1074) (binaryExponent num den - 52)
    min (2047 * 2 ^ 52)
      ((e + 1074).toNat * 2 ^ 52 + roundHalfEven (num * 2 ^ (-e).toNat) (den * 2 ^ e.toNat))

/-- The double closest to `± digits * 10 ^ exponent`. -/
def ofDecimal (negative : Bool) (digits : Nat) (exponent : Int) : BitVec 64 :=
  BitVec.ofNat 64 ((if negative then 2 ^ 63 else 0) +
    nearestBits (digits * 10 ^ exponent.toNat) (10 ^ (-exponent).toNat))

def readNat (cs : List Char) : Option Nat :=
  if cs ≠ [] ∧ cs.all Char.isDigit then some (Nat.ofDigitChars 10 cs 0) else none

def readInt : List Char → Option Int
  | '-' :: cs => (readNat cs).map fun n => -n
  | '+' :: cs => (readNat cs).map fun n => n
  | cs => (readNat cs).map fun n => n

def readUnsigned (negative : Bool) (cs : List Char) : Option (BitVec 64) := do
  let mantissa := cs.takeWhile (· ≠ 'e')
  let fraction := (mantissa.dropWhile (· ≠ '.')).drop 1
  let digits ← readNat (mantissa.takeWhile (· ≠ '.') ++ fraction)
  let exponent ← if 'e' ∈ cs then readInt ((cs.dropWhile (· ≠ 'e')).drop 1) else some 0
  return ofDecimal negative digits (exponent - fraction.length)

/-- `float(s)` for the literals `repr` writes. -/
def readFloat : List Char → Option (BitVec 64)
  | '-' :: cs => readUnsigned true cs
  | cs => readUnsigned false cs

/-! ## Writing -/

/-- The digits `ds` with the point after the first one, times `10 ^ k`; with an exponent
only below `10 ^ -4` and from `10 ^ 16` on. -/
def formatDecimal (ds : List Char) (k : Int) : List Char :=
  if k < -4 ∨ 16 ≤ k then
    -- `1e-05`, `1.5e+16`: two digits of exponent at least
    let exponent := Nat.toDigits 10 k.natAbs
    ds.take 1 ++ (if ds.length ≤ 1 then [] else '.' :: ds.drop 1) ++
      'e' :: (if k < 0 then '-' else '+') :: (List.replicate (2 - exponent.length) '0' ++ exponent)
  else if k < 0 then '0' :: '.' :: (List.replicate (-k - 1).toNat '0' ++ ds)
  else if ds.length ≤ (k + 1).toNat then
    ds ++ List.replicate ((k + 1).toNat - ds.length) '0' ++ ['.', '0']
  else ds.take (k + 1).toNat ++ '.' :: ds.drop (k + 1).toNat

/-- The largest `k` with `10 ^ k ≤ num / den`. -/
def decimalExponent (num den : Nat) : Int :=
  if den ≤ num then (Nat.log 10 (num / den) : Int) else -(Nat.clog 10 ((den + num - 1) / num) : Int)

/-- The two decimals of `n` digits around `num / den`, the closer one first. -/
def decimalsAround (num den n : Nat) : List (List Char) :=
  let k := decimalExponent num den
  let p := k - n + 1
  -- rounding up to `10 ^ n` carries into one more digit before the point
  let digits (d : Nat) :=
    if d = 10 ^ n then formatDecimal ['1'] (k + 1) else formatDecimal (Nat.toDigits 10 d) k
  let num := num * 10 ^ (-p).toNat
  let den := den * 10 ^ p.toNat
  let below := num / den
  if roundHalfEven num den = below then [digits below, digits (below + 1)]
  else [digits (below + 1), digits below]

/-- The absolute value of a finite double as a fraction. -/
def magnitude (bits : BitVec 64) : Nat × Nat :=
  match Num.ofFloat bits with
  | .fin m e => (m.natAbs * 2 ^ e.toNat, 2 ^ (-e).toNat)
  | _ => (0, 1)

def isNegative (bits : BitVec 64) : Bool := decide (2 ^ 63 ≤ bits.toNat)

/-- The decimals of one up to seventeen digits around a double. -/
def candidates (bits : BitVec 64) : List (List Char) :=
  let sign := if isNegative bits then ['-'] else []
  let unsigned :=
    if (magnitude bits).1 = 0 then [formatDecimal ['0'] 0]
    else (List.range 17).flatMap fun i => decimalsAround (magnitude bits).1 (magnitude bits).2 (i + 1)
  unsigned.map fun cs => sign ++ cs

/-- `float.__repr__` of a finite double. One of the candidates reads as the double, since
seventeen digits tell all doubles apart; what stands for none of them is not a literal. -/
def reprFloat (bits : BitVec 64) : List Char :=
  ((candidates bits).find? fun cs => readFloat cs = some bits).getD
    ('e' :: Nat.toDigits 10 bits.toNat)

/-! ## What is written -/

/-- The characters of a literal. -/
def IsLiteralChar (c : Char) : Prop := c.isDigit = true ∨ c ∈ ['.', 'e', '+', '-']

theorem toDigits_injective : Function.Injective (Nat.toDigits 10) := by
  intro m n h
  rw [← Nat.ofDigitChars_ten_toDigits (n := m), h, Nat.ofDigitChars_ten_toDigits]

theorem isDigit_toDigits (n : Nat) : ∀ c ∈ Nat.toDigits 10 n, c.isDigit = true :=
  fun _ hc => Nat.isDigit_of_mem_toDigits (by decide) (by decide) hc

theorem isDigit_replicate (n : Nat) : ∀ c ∈ List.replicate n '0', c.isDigit = true := by
  intro c hc
  rw [List.eq_of_mem_replicate hc]
  rfl

/-- A text of literal characters. -/
def IsLiteral (cs : List Char) : Prop := ∀ c ∈ cs, IsLiteralChar c

theorem isLiteral_of_isDigit {cs : List Char} (h : ∀ c ∈ cs, c.isDigit = true) : IsLiteral cs :=
  fun c hc => .inl (h c hc)

theorem IsLiteral.append {cs ds : List Char} (h : IsLiteral cs) (h' : IsLiteral ds) :
    IsLiteral (cs ++ ds) :=
  List.forall_mem_append.mpr ⟨h, h'⟩

theorem IsLiteral.cons {c : Char} {cs : List Char} (hc : IsLiteralChar c) (h : IsLiteral cs) :
    IsLiteral (c :: cs) :=
  List.forall_mem_cons.mpr ⟨hc, h⟩

theorem isLiteralChar_point : IsLiteralChar '.' := .inr (by decide)

theorem isLiteralChar_exponent : IsLiteralChar 'e' := .inr (by decide)

/-- A formatted decimal has no other characters than a literal. -/
theorem isLiteral_formatDecimal {ds : List Char} (hds : ∀ c ∈ ds, c.isDigit = true) (k : Int) :
    IsLiteral (formatDecimal ds k) := by
  have htake : ∀ n, IsLiteral (ds.take n) := fun n =>
    isLiteral_of_isDigit fun c hc => hds c (List.mem_of_mem_take hc)
  have hdrop : ∀ n, IsLiteral (ds.drop n) := fun n =>
    isLiteral_of_isDigit fun c hc => hds c (List.mem_of_mem_drop hc)
  have hzeros : ∀ n, IsLiteral (List.replicate n '0') := fun n =>
    isLiteral_of_isDigit (isDigit_replicate n)
  have hzero : IsLiteralChar '0' := .inl rfl
  unfold formatDecimal
  split
  · have hsign : IsLiteralChar (if k < 0 then '-' else '+') := by
      split
      · exact .inr (by decide)
      · exact .inr (by decide)
    refine ((htake 1).append ?_).append (.cons isLiteralChar_exponent (.cons hsign ?_))
    · split
      · exact fun _ hc => (nomatch hc)
      · exact .cons isLiteralChar_point (hdrop 1)
    · exact (hzeros _).append (isLiteral_of_isDigit (isDigit_toDigits _))
  · split
    · exact .cons hzero (.cons isLiteralChar_point ((hzeros _).append (isLiteral_of_isDigit hds)))
    · split
      · refine ((isLiteral_of_isDigit hds).append (hzeros _)).append ?_
        exact .cons isLiteralChar_point (.cons hzero fun _ hc => (nomatch hc))
      · exact (htake _).append (.cons isLiteralChar_point (hdrop _))

/-- A formatted decimal is not an integer: it has a point or an exponent. -/
theorem point_mem_formatDecimal (ds : List Char) (k : Int) :
    '.' ∈ formatDecimal ds k ∨ 'e' ∈ formatDecimal ds k := by
  unfold formatDecimal
  split
  · exact .inr (by simp)
  · refine .inl ?_
    split
    · simp
    · split <;> simp

/-- The text is a formatted decimal. -/
def IsDecimal (cs : List Char) : Prop :=
  ∃ ds k, (∀ c ∈ ds, Char.isDigit c = true) ∧ cs = formatDecimal ds k

theorem isDecimal_carried (d n : Nat) (k : Int) : IsDecimal
    (if d = 10 ^ n then formatDecimal ['1'] (k + 1) else formatDecimal (Nat.toDigits 10 d) k) := by
  split
  · exact ⟨['1'], k + 1, List.forall_mem_singleton.mpr rfl, rfl⟩
  · exact ⟨Nat.toDigits 10 d, k, isDigit_toDigits d, rfl⟩

theorem isDecimal_of_mem_decimalsAround {num den n : Nat} {cs : List Char}
    (h : cs ∈ decimalsAround num den n) : IsDecimal cs := by
  simp only [decimalsAround] at h
  -- the two decimals are the same either way, in another order
  split at h
  · obtain rfl | rfl := List.mem_pair.mp h
    · apply isDecimal_carried
    · apply isDecimal_carried
  · obtain rfl | rfl := List.mem_pair.mp h
    · apply isDecimal_carried
    · apply isDecimal_carried

/-- The candidates are decimals after a sign. -/
theorem mem_candidates {bits : BitVec 64} {cs : List Char} (h : cs ∈ candidates bits) :
    ∃ sign ds k, (sign = [] ∨ sign = ['-']) ∧ (∀ c ∈ ds, Char.isDigit c = true) ∧
      cs = sign ++ formatDecimal ds k := by
  obtain ⟨unsigned, hmem, rfl⟩ := List.mem_map.mp h
  have hsign : (if isNegative bits then ['-'] else []) = [] ∨
      (if isNegative bits then ['-'] else []) = ['-'] := by
    split
    · exact .inr rfl
    · exact .inl rfl
  have hform : IsDecimal unsigned := by
    split at hmem
    · obtain rfl := List.mem_singleton.mp hmem
      exact ⟨['0'], 0, List.forall_mem_singleton.mpr rfl, rfl⟩
    · obtain ⟨i, -, hmem⟩ := List.mem_flatMap.mp hmem
      exact isDecimal_of_mem_decimalsAround hmem
  obtain ⟨ds, k, hds, rfl⟩ := hform
  exact ⟨_, ds, k, hsign, hds, rfl⟩

/-- What is written is a candidate that reads as the double, or no literal at all. -/
theorem reprFloat_cases (bits : BitVec 64) :
    (reprFloat bits ∈ candidates bits ∧ readFloat (reprFloat bits) = some bits) ∨
      reprFloat bits = 'e' :: Nat.toDigits 10 bits.toNat := by
  unfold reprFloat
  cases h : (candidates bits).find? fun cs => readFloat cs = some bits with
  | none => exact .inr rfl
  | some cs =>
    refine .inl ⟨List.mem_of_find?_eq_some h, ?_⟩
    simpa using List.find?_some h

theorem isLiteral_reprFloat (bits : BitVec 64) : IsLiteral (reprFloat bits) := by
  obtain ⟨hmem, -⟩ | h := reprFloat_cases bits
  · obtain ⟨sign, ds, k, hsign, hds, heq⟩ := mem_candidates hmem
    rw [heq]
    refine IsLiteral.append ?_ (isLiteral_formatDecimal hds k)
    obtain rfl | rfl := hsign
    · exact fun _ hc => (nomatch hc)
    · exact .cons (.inr (by decide)) fun _ hc => (nomatch hc)
  · rw [h]
    exact .cons isLiteralChar_exponent (isLiteral_of_isDigit (isDigit_toDigits _))

theorem point_mem_reprFloat (bits : BitVec 64) : '.' ∈ reprFloat bits ∨ 'e' ∈ reprFloat bits := by
  obtain ⟨hmem, -⟩ | h := reprFloat_cases bits
  · obtain ⟨sign, ds, k, -, -, heq⟩ := mem_candidates hmem
    rw [heq]
    exact (point_mem_formatDecimal ds k).imp (List.mem_append_right _) (List.mem_append_right _)
  · rw [h]
    exact .inr (List.mem_cons_self ..)

theorem readFloat_exponent (cs : List Char) : readFloat ('e' :: cs) = none := rfl

/-- Two doubles are never written alike. -/
theorem reprFloat_injective : Function.Injective reprFloat := by
  intro x y h
  obtain ⟨-, hx⟩ | hx := reprFloat_cases x
  · obtain ⟨-, hy⟩ | hy := reprFloat_cases y
    · rw [h, hy] at hx
      exact (Option.some.inj hx).symm
    · rw [h, hy, readFloat_exponent] at hx
      cases hx
  · obtain ⟨-, hy⟩ | hy := reprFloat_cases y
    · rw [← h, hx, readFloat_exponent] at hy
      cases hy
    · rw [hx, hy] at h
      exact BitVec.eq_of_toNat_eq (toDigits_injective (List.cons.inj h).2)

end RagEval.Lib.Double
