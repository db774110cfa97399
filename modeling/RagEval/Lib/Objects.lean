import RagEval.Lib.Value

/-!
# Objects of any type

What operators and built-in functions make of an object, whatever its type: a tuple, a set, a
`Decimal`. The values of JSON documents are among the objects; of the others nothing is known, and
each operation may raise.

## Main definitions

- `PyObject` — a type of objects, with the operations
- `PyObject.between`, `PyObject.notIn` — a chained comparison and a filter over them
-/

namespace RagEval.Lib

/-- A type of objects: the values among them, the truth of an ordering comparison, membership in a
list of strings, and iteration. -/
class PyObject (α : Type) where
  ofValue : Value → α
  lt : α → α → Except PyError Bool
  le : α → α → Except PyError Bool
  gt : α → α → Except PyError Bool
  ge : α → α → Except PyError Bool
  inStrings : α → List String → Except PyError Bool
  iter : α → Except PyError (List α)

instance : PyObject Value where
  ofValue v := v
  lt := Value.lt
  le := Value.le
  gt := Value.gt
  ge := Value.ge
  inStrings v ss := .ok (v.inStrings ss)
  iter := Value.iter

namespace PyObject

variable {α : Type} [PyObject α]

/-- `lo <= v <= hi`, short-circuiting. -/
def between (lo v hi : α) : Except PyError Bool := do
  if ← le lo v then le v hi else pure false

/-- `[x for x in xs if x not in ss]`. -/
def notIn (ss : List String) : List α → Except PyError (List α)
  | [] => .ok []
  | x :: xs => do
    let held ← inStrings x ss
    let rest ← notIn ss xs
    return if held then rest else x :: rest

/-- Of values every membership can be told. -/
theorem notIn_values (ss : List String) (vs : List Value) :
    notIn ss vs = .ok (vs.filter fun v => !v.inStrings ss) := by
  induction vs with
  | nil => rfl
  | cons v vs ih =>
    rw [notIn, ih]
    show Except.ok (if v.inStrings ss then _ else _) = _
    cases h : v.inStrings ss <;> simp [h]

end PyObject

end RagEval.Lib
