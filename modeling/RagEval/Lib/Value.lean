import Mathlib.Data.BitVec

/-!
# Python values

The values a JSON document or a `dict[str, Any]` may hold, the exceptions the
interpreter raises on them, and the exact ordering of numbers. A `float` is its
IEEE 754 double, kept as its 64 bits; integers and doubles compare by their
mathematical values, as Python compares them.
-/

namespace RagEval.Lib

/-- Exceptions raised by the interpreter. `diverges` is not one of Python's: it
marks a loop that outlived its budget, and every loop is proved never to. -/
inductive PyError where
  | keyError (key : String)
  | valueError (msg : String)
  | typeError (msg : String)
  | attributeError (msg : String)
  | overflowError (msg : String)
  | diverges
  deriving Repr, DecidableEq

inductive Value where
  | none
  | bool (b : Bool)
  | int (i : Int)
  | float (bits : BitVec 64)
  | str (s : String)
  | list (xs : List Value)
  | dict (kvs : List (String × Value))
  deriving Repr, Inhabited

/-- A number on the extended line; `fin m e` is `m * 2 ^ e`, the form of every
integer and of every finite double. -/
inductive Num where
  | fin (m e : Int)
  | inf (negative : Bool)
  | nan
  deriving Repr, DecidableEq

namespace Num

def ofInt (i : Int) : Num := .fin i 0

/-- Sign bit, eleven exponent bits, fifty-two fraction bits. -/
def ofFloat (bits : BitVec 64) : Num :=
  let n := bits.toNat
  let negative := decide (2 ^ 63 ≤ n)
  let exponent : Nat := n / 2 ^ 52 % 2 ^ 11
  let fraction : Nat := n % 2 ^ 52
  let signed (m : Nat) : Int := if negative then -m else m
  if exponent = 2047 then
    if fraction = 0 then .inf negative else .nan
  else if exponent = 0 then .fin (signed fraction) (-1074)
  else .fin (signed (2 ^ 52 + fraction)) ((exponent : Int) - 1075)

/-- Compare `m * 2 ^ e` with `m' * 2 ^ e'` over their smaller exponent. -/
def finLe (m e m' e' : Int) : Bool :=
  if e ≤ e' then decide (m ≤ m' * 2 ^ (e' - e).toNat) else decide (m * 2 ^ (e - e').toNat ≤ m')

/-- `a <= b`; every comparison with a NaN is false. -/
def le : Num → Num → Bool
  | .nan, _ => false
  | _, .nan => false
  | .fin m e, .fin m' e' => finLe m e m' e'
  | .fin _ _, .inf n => !n
  | .inf n, .fin _ _ => n
  | .inf n, .inf n' => n || !n'

/-- `a < b`. -/
def lt : Num → Num → Bool
  | .nan, _ => false
  | _, .nan => false
  | a, b => !b.le a

end Num

namespace Value

/-- The name `type(v).__name__`. -/
def typeName : Value → String
  | .none => "NoneType"
  | .bool _ => "bool"
  | .int _ => "int"
  | .float _ => "float"
  | .str _ => "str"
  | .list _ => "list"
  | .dict _ => "dict"

/-- The number a value is; `bool` is a subclass of `int`. -/
def num? : Value → Option Num
  | .bool b => some (Num.ofInt (if b then 1 else 0))
  | .int i => some (Num.ofInt i)
  | .float x => some (Num.ofFloat x)
  | _ => Option.none

def isNumber (v : Value) : Bool := v.num?.isSome

/-- An ordering comparison one side of which is a number: any other operand
raises `TypeError`. -/
def compareNum (op : String) (f : Num → Num → Bool) (a b : Value) : Except PyError Bool :=
  match a.num?, b.num? with
  | some x, some y => .ok (f x y)
  | _, _ => .error (.typeError
      ("'" ++ op ++ "' not supported between instances of '" ++ a.typeName ++ "' and '" ++
        b.typeName ++ "'"))

def lt (a b : Value) : Except PyError Bool := compareNum "<" Num.lt a b
def le (a b : Value) : Except PyError Bool := compareNum "<=" Num.le a b
def gt (a b : Value) : Except PyError Bool := compareNum ">" (fun x y => y.lt x) a b
def ge (a b : Value) : Except PyError Bool := compareNum ">=" (fun x y => y.le x) a b

/-- `iter(v)`: list elements, characters, or keys. -/
def iter : Value → Except PyError (List Value)
  | .list xs => .ok xs
  | .str s => .ok (s.toList.map fun c => .str c.toString)
  | .dict kvs => .ok (kvs.map fun kv => .str kv.1)
  | v => .error (.typeError ("'" ++ v.typeName ++ "' object is not iterable"))

/-- `v in ss` for a list of strings. -/
def inStrings (v : Value) (ss : List String) : Bool :=
  match v with
  | .str s => decide (s ∈ ss)
  | _ => false

theorem compareNum_ok (op : String) (f : Num → Num → Bool) {a b : Value}
    (ha : a.isNumber) (hb : b.isNumber) : ∃ r, compareNum op f a b = .ok r := by
  obtain ⟨x, hx⟩ := Option.isSome_iff_exists.mp ha
  obtain ⟨y, hy⟩ := Option.isSome_iff_exists.mp hb
  exact ⟨f x y, by simp [compareNum, hx, hy]⟩

/-- A comparison that returns has compared two numbers. -/
theorem isNumber_of_compareNum {op : String} {f : Num → Num → Bool} {a b : Value} {r : Bool}
    (h : compareNum op f a b = .ok r) : a.isNumber = true ∧ b.isNumber = true := by
  unfold compareNum at h
  split at h
  · rename_i x y hx hy
    exact ⟨by rw [isNumber, hx]; rfl, by rw [isNumber, hy]; rfl⟩
  · cases h

end Value

end RagEval.Lib
