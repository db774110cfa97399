import Mathlib.Tactic.Basic

/-!
# Context variables

`contextvars.ContextVar` within one context: `set` gives a token that remembers what the variable
held, and `reset` puts that back and spends the token.

## Main definitions

- `ContextVar.set`, `ContextVar.reset` — as documented
- `ContextVar.SetIf` — a `set` that may be left out
- `ContextVar.Restored` — what code that resets whatever it sets does to a variable

## Main result

- `SetIf.exists_resetIf` — the reset after such code puts the old value back
-/

namespace RagEval.Lib

universe u

/-- What `set` returns; `oldValue` is `none` for `Token.MISSING`. -/
structure Token (α : Type u) where
  var : String
  id : Nat
  oldValue : Option α

/-- A variable, by its name. One that holds nothing reads as its default. -/
structure ContextVar (α : Type u) where
  name : String
  default : α
  current : Option α := none
  issued : Nat := 0
  used : List Nat := []
  used_lt : ∀ i ∈ used, i < issued := by simp

/-- Why a token is refused: a `RuntimeError` and a `ValueError`. -/
inductive ResetError where
  | usedOnce | differentVar
  deriving Repr, DecidableEq

namespace ContextVar
variable {α : Type u}

def get (v : ContextVar α) : α := v.current.getD v.default

/-- The tokens of a variable are numbered. -/
def set (v : ContextVar α) (value : α) : Token α × ContextVar α :=
  (⟨v.name, v.issued, v.current⟩,
   { v with
     current := some value
     issued := v.issued + 1
     used_lt := fun i hi => Nat.lt_succ_of_lt (v.used_lt i hi) })

def reset (v : ContextVar α) (token : Token α) : Except ResetError (ContextVar α) :=
  if token.var = v.name ∧ token.id ∈ v.used then .error .usedOnce
  else if h : token.var = v.name ∧ token.id < v.issued then
    .ok { v with
          current := token.oldValue
          used := token.id :: v.used
          used_lt := List.forall_mem_cons.mpr ⟨h.2, v.used_lt⟩ }
  else .error .differentVar

/-- `if token: var.reset(token)`. -/
def resetIf (v : ContextVar α) : Option (Token α) → Except ResetError (ContextVar α)
  | none => .ok v
  | some token => v.reset token

/-- The variable holds what it held, and none of the tokens there were has been spent. -/
structure Restored (v w : ContextVar α) : Prop where
  name_eq : w.name = v.name
  default_eq : w.default = v.default
  current_eq : w.current = v.current
  issued_le : v.issued ≤ w.issued
  mem_used : ∀ i < v.issued, i ∈ w.used → i ∈ v.used

namespace Restored
variable {v w u : ContextVar α}

theorem refl (v : ContextVar α) : Restored v v := ⟨rfl, rfl, rfl, Nat.le_refl _, fun _ _ h => h⟩

theorem trans (h : Restored v w) (h' : Restored w u) : Restored v u where
  name_eq := h'.name_eq.trans h.name_eq
  default_eq := h'.default_eq.trans h.default_eq
  current_eq := h'.current_eq.trans h.current_eq
  issued_le := Nat.le_trans h.issued_le h'.issued_le
  mem_used i hi hmem := h.mem_used i hi (h'.mem_used i (Nat.lt_of_lt_of_le hi h.issued_le) hmem)

theorem get_eq (h : Restored v w) : w.get = v.get := by
  rw [get, get, h.default_eq, h.current_eq]

/-- The token of a `set` is good after code that resets whatever it sets, and then the variable is
as it was before that `set`. -/
theorem exists_reset {value : α} (h : Restored (v.set value).2 w) :
    ∃ u, w.reset (v.set value).1 = .ok u ∧ Restored v u := by
  have hissued : v.issued < w.issued := h.issued_le
  have hunused : v.issued ∉ w.used := by
    intro hmem
    have hused := h.mem_used v.issued (Nat.lt_succ_self _) hmem
    exact Nat.lt_irrefl _ (v.used_lt _ hused)
  refine ⟨_, (if_neg fun hspent => hunused hspent.2).trans (dif_pos ⟨h.name_eq.symm, hissued⟩), ?_⟩
  constructor
  · exact h.name_eq
  · exact h.default_eq
  · rfl
  · exact Nat.le_of_lt hissued
  · intro i hi hmem
    obtain rfl | hmem := List.mem_cons.mp hmem
    · exact absurd hi (Nat.lt_irrefl _)
    · exact h.mem_used i (Nat.lt_succ_of_lt hi) hmem

end Restored

/-- The variable was set, and the token is that of the `set`, or it was left alone. -/
inductive SetIf (v : ContextVar α) : Option (Token α) → ContextVar α → Prop
  | set (value : α) : SetIf v (some (v.set value).1) (v.set value).2
  | skip : SetIf v none v

theorem SetIf.exists_resetIf {v w u : ContextVar α} {token : Option (Token α)}
    (hset : SetIf v token w) (h : Restored w u) : ∃ x, u.resetIf token = .ok x ∧ Restored v x := by
  cases hset with
  | set value => exact h.exists_reset
  | skip => exact ⟨u, rfl, h⟩

end ContextVar

end RagEval.Lib
