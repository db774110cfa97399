import Mathlib.Tactic.Positivity
import RagEval.Lib.Dict
import RagEval.Lib.FloatArith
import RagEval.Lib.Split
import RagEval.Lib.Text
import RagEval.Lib.Value

/-!
# Operators on Python values

Truth, indexing, slicing, repetition and the string operations whose operand may be any
value. A `float` is no index, whatever its value.
-/

namespace RagEval.Lib

/-- What a bound admits it admits all below. -/
theorem Num.le_of_ofInt_le {m n : Int} (h : m ≤ n) {x : Num} (hx : (ofInt n).le x = true) :
    (ofInt m).le x = true := by
  cases x with
  | fin m' e' =>
    simp only [ofInt, le, finLe] at hx ⊢
    split at hx <;> rename_i he
    · rw [if_pos he, decide_eq_true_eq]
      exact h.trans (of_decide_eq_true hx)
    · rw [if_neg he, decide_eq_true_eq]
      have hpow : (0 : Int) ≤ 2 ^ (0 - e').toNat := by positivity
      exact (Int.mul_le_mul_of_nonneg_right h hpow).trans (of_decide_eq_true hx)
  | inf negative => exact hx
  | nan => exact hx

namespace Value

/-- `bool(v)`. -/
def truthy : Value → Bool
  | .none => false
  | .bool b => b
  | .int i => decide (i ≠ 0)
  | .float x => match Num.ofFloat x with
    | .fin m _ => decide (m ≠ 0)
    | _ => true
  | .str s => decide (s ≠ "")
  | .list xs => !xs.isEmpty
  | .dict kvs => !kvs.isEmpty

/-- The integer a value with `__index__` is. -/
def index? : Value → Option Int
  | .bool b => some (if b then 1 else 0)
  | .int i => some i
  | _ => Option.none

/-- `range(v)` and its like. -/
def index (v : Value) : Except PyError Int :=
  match v.index? with
  | some i => .ok i
  | Option.none => .error (.typeError
      ("'" ++ v.typeName ++ "' object cannot be interpreted as an integer"))

/-- `min(v, n)`: the first operand, unless the second is less. -/
def minInt (v : Value) (n : Int) : Except PyError Value := do
  if ← lt (.int n) v then pure (.int n) else pure v

/-- `v[0] if v else dflt`. -/
def firstOr (v dflt : Value) : Except PyError Value :=
  match v with
  | .list (x :: _) => .ok x
  | .str s => .ok (match s.toList with
    | c :: _ => .str c.toString
    | [] => dflt)
  | .dict (_ :: _) => .error (.keyError "0")
  | v => if v.truthy then .error (.typeError
      ("'" ++ v.typeName ++ "' object is not subscriptable")) else .ok dflt

/-- The number of elements of a sequence of length `len` before a slice's end `v`. -/
def sliceStop (len : Nat) (v : Value) : Except PyError Nat :=
  match v, v.index? with
  | .none, _ => .ok len
  | _, some i => .ok (if i < 0 then len - i.natAbs else min i.toNat len)
  | _, Option.none => .error (.typeError
      "slice indices must be integers or None or have an __index__ method")

/-- The start of `s[max(0, len(s) - v):]` for a string of length `len`: `max` is its first
operand unless the difference is positive, and a positive difference with a `float` is one. -/
def tailStart (len : Nat) : Value → Except PyError Nat
  | .int i => .ok (len - i).toNat
  | .bool b => .ok (len - if b then 1 else 0)
  | .float x =>
    if (Num.ofFloat x).lt (Num.ofInt len) then .error (.typeError
      "slice indices must be integers or None or have an __index__ method")
    else .ok 0
  | v => .error (.typeError
      ("unsupported operand type(s) for -: 'int' and '" ++ v.typeName ++ "'"))

/-- `len(v)`. -/
def len : Value → Except PyError Nat
  | .str s => .ok s.length
  | .list xs => .ok xs.length
  | .dict kvs => .ok kvs.length
  | v => .error (.typeError ("object of type '" ++ v.typeName ++ "' has no len()"))

/-- The elements of `v[:n]`. -/
def firstItems (n : Nat) : Value → Except PyError (List Value)
  | .list xs => .ok (xs.take n)
  | .str s => .ok ((s.toList.take n).map fun c => .str c.toString)
  | .dict _ => .error (.keyError ("slice(None, " ++ toString n ++ ", None)"))
  | v => .error (.typeError ("'" ++ v.typeName ++ "' object is not subscriptable"))

/-- `v.get(key, dflt)`. -/
def attrGet (v : Value) (key : String) (dflt : Value) : Except PyError Value :=
  match v with
  | .dict kvs => .ok ((Assoc.get key kvs).getD dflt)
  | v => .error (.attributeError ("'" ++ v.typeName ++ "' object has no attribute 'get'"))

/-- `hash(v)`, which only has to exist. -/
def hashable (v : Value) : Bool :=
  match v with
  | .list _ | .dict _ => false
  | _ => true

/-- `v * x` for a double. -/
def timesFloat (v : Value) (x : BitVec 64) : Except PyError (BitVec 64) :=
  match v with
  | .float y => .ok (Double.mul y x)
  | .bool b => do return Double.mul (← Double.ofInt (if b then 1 else 0)) x
  | .int i => do return Double.mul (← Double.ofInt i) x
  | .str _ | .list _ => .error (.typeError "can't multiply sequence by non-int of type 'float'")
  | v => .error (.typeError
      ("unsupported operand type(s) for *: '" ++ v.typeName ++ "' and 'float'"))

/-- `[x] * v`. -/
def repeated (x : Value) (v : Value) : Except PyError (List Value) :=
  match v.index? with
  | some i => .ok (List.replicate i.toNat x)
  | Option.none => .error (.typeError
      ("can't multiply sequence by non-int of type '" ++ v.typeName ++ "'"))

/-- What is false has no first element. -/
theorem firstOr_of_falsy {v dflt : Value} (h : v.truthy = false) : v.firstOr dflt = .ok dflt := by
  cases v with
  | str s =>
    obtain rfl : s = "" := by simpa [truthy] using h
    rfl
  | list xs =>
    obtain rfl : xs = [] := by simpa [truthy] using h
    rfl
  | dict kvs =>
    obtain rfl : kvs = [] := by simpa [truthy] using h
    rfl
  | _ => simp only [firstOr, h, Bool.false_eq_true, if_false]

end Value

namespace Text

/-- `s.split(sep)` for a nonempty `sep`. -/
def splitOn (s sep : String) : List String :=
  (Split.split sep.toList s.toList).map String.ofList

/-- `s.split()`. -/
def words (s : String) : List String :=
  ((s.toList.splitOnP isSpace).filter fun w => !w.isEmpty).map String.ofList

/-- `s.split(v)`. -/
def splitValue (s : String) : Value → Except PyError (List String)
  | .str sep => if sep = "" then .error (.valueError "empty separator") else .ok (splitOn s sep)
  | .none => .ok (words s)
  | v => .error (.typeError ("must be str or None, not " ++ v.typeName))

/-- `s + v`. -/
def concat (s : String) : Value → Except PyError String
  | .str t => .ok (s ++ t)
  | v => .error (.typeError ("can only concatenate str (not \"" ++ v.typeName ++ "\") to str"))

/-- `s[n:]`. -/
def dropFirst (s : String) (n : Nat) : String := String.ofList (s.toList.drop n)

theorem toList_strip (s : String) : (strip s).toList = Split.trim isSpace s.toList := by
  rw [strip, String.toList_ofList]
  rfl

theorem strip_strip (s : String) : strip (strip s) = strip s := by
  apply String.toList_inj.mp
  rw [toList_strip, toList_strip, Split.trim_trim]

theorem mem_of_mem_strip {s : String} {c : Char} (h : c ∈ (strip s).toList) : c ∈ s.toList := by
  rw [toList_strip] at h
  exact (Split.trim_isInfix isSpace s.toList).subset h

/-- What is stripped to nothing. -/
theorem strip_eq_empty_iff (s : String) : strip s = "" ↔ ∀ c ∈ s.toList, isSpace c = true := by
  rw [← String.toList_eq_nil_iff, toList_strip, Split.trim_eq_nil_iff]

end Text

end RagEval.Lib
