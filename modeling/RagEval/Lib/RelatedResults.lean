import Mathlib.Data.List.Forall2
import RagEval.Lib.Loop

/-!
# Computations with related results

Two computations whose results are related wherever both return.
-/

namespace RagEval.Lib

variable {ε α β γ δ : Type}

/-- Where both return, they return related values. -/
def RelatedResults (R : α → β → Prop) (x : Except ε α) (y : Except ε β) : Prop :=
  ∀ a b, x = .ok a → y = .ok b → R a b

namespace RelatedResults

variable {R : α → β → Prop} {S : γ → δ → Prop}

theorem ok {a : α} {b : β} (h : R a b) :
    RelatedResults R (.ok a : Except ε α) (.ok b : Except ε β) := by
  rintro _ _ ⟨⟩ ⟨⟩
  exact h

theorem of_eq {S : α → α → Prop} (hS : ∀ a, S a a) {x y : Except ε α} (h : x = y) :
    RelatedResults S x y := by
  intro a b hx hy
  obtain rfl := Except.ok.inj (hx.symm.trans (h.trans hy))
  exact hS a

theorem bind {x : Except ε α} {y : Except ε β} {f : α → Except ε γ} {g : β → Except ε δ}
    (h : RelatedResults R x y) (hfg : ∀ {a b}, R a b → RelatedResults S (f a) (g b)) :
    RelatedResults S (x >>= f) (y >>= g) := by
  intro c d hc hd
  obtain ⟨a, ha, hfa⟩ := bind_ok hc
  obtain ⟨b, hb, hgb⟩ := bind_ok hd
  exact hfg (h a b ha hb) c d hfa hgb

/-- Loops over related elements, each round of which keeps the states related. -/
theorem foldlM {Q : γ → δ → Prop} {f : α → γ → Except ε α} {g : β → δ → Except ε β}
    (hstep : ∀ {a b x y}, R a b → Q x y → RelatedResults R (f a x) (g b y))
    {xs : List γ} {ys : List δ} (hxs : List.Forall₂ Q xs ys) :
    ∀ {a : α} {b : β}, R a b → RelatedResults R (xs.foldlM f a) (ys.foldlM g b) := by
  induction hxs with
  | nil => exact fun hab => .ok hab
  | cons hxy _ ih =>
    intro a b hab
    rw [List.foldlM_cons, List.foldlM_cons]
    exact (hstep hab hxy).bind ih

end RelatedResults

end RagEval.Lib
