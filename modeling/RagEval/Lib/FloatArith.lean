import RagEval.Lib.FloatRepr

/-!
# Arithmetic of doubles

The operations return the double closest to the exact result, halves to the even mantissa, with
the signs of zeros, the infinities and the NaNs of the format.
-/

namespace RagEval.Lib.Double

/-- The double closest to `± m * 2 ^ e`. -/
def ofDyadic (negative : Bool) (m : Nat) (e : Int) : BitVec 64 :=
  BitVec.ofNat 64 ((if negative then 2 ^ 63 else 0) + nearestBits (m * 2 ^ e.toNat) (2 ^ (-e).toNat))

def infinity (negative : Bool) : BitVec 64 :=
  if negative then 0xFFF0000000000000#64 else 0x7FF0000000000000#64

def quietNaN : BitVec 64 := 0x7FF8000000000000#64

/-- `x * y`. -/
def mul (x y : BitVec 64) : BitVec 64 :=
  let negative := isNegative x != isNegative y
  match Num.ofFloat x, Num.ofFloat y with
  | .fin m e, .fin m' e' => ofDyadic negative (m * m').natAbs (e + e')
  | .nan, _ | _, .nan => quietNaN
  | .inf _, .fin m _ | .fin m _, .inf _ => if m = 0 then quietNaN else infinity negative
  | .inf _, .inf _ => infinity negative

/-- `x - y`; a difference of zero is negative only as `-0.0 - 0.0`. -/
def sub (x y : BitVec 64) : BitVec 64 :=
  match Num.ofFloat x, Num.ofFloat y with
  | .fin m e, .fin m' e' =>
    let low := min e e'
    let difference := m * 2 ^ (e - low).toNat - m' * 2 ^ (e' - low).toNat
    let negative := decide (difference < 0) || m = 0 && m' = 0 && isNegative x && !isNegative y
    ofDyadic negative difference.natAbs low
  | .nan, _ | _, .nan => quietNaN
  | .inf negative, .inf negative' => if negative = negative' then quietNaN else infinity negative
  | .inf negative, .fin _ _ => infinity negative
  | .fin _ _, .inf negative => infinity !negative

/-- The integer has a double closest to it that is finite. -/
def hasFloat (i : Int) : Bool := decide (nearestBits i.natAbs 1 < 2047 * 2 ^ 52)

/-- `float(i)`. -/
def ofInt (i : Int) : Except PyError (BitVec 64) :=
  if hasFloat i then .ok (ofDyadic (decide (i < 0)) i.natAbs 0)
  else .error (.overflowError "int too large to convert to float")

end RagEval.Lib.Double
