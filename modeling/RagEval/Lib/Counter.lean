import Mathlib.Algebra.GroupWithZero.Nat
import Mathlib.Data.List.Induction
import RagEval.Lib.Dict

/-!
# Counting the elements of a list

`collections.Counter` as a dictionary: each element with the number of its occurrences, in the
order of their first ones.

## Main results

- `getD_counter` — what is counted
- `sum_values_counter` — the counts add up to the length
- `get?_counter_perm` — the order of the list does not matter, as far as lookups go
-/

namespace RagEval.Lib

variable {α : Type*} [DecidableEq α]

/-- `dict(Counter(xs))`. -/
def counter (xs : List α) : Dict α Nat :=
  xs.foldl (fun d x => d.set x (d.getD x 0 + 1)) Dict.empty

theorem counter_concat (xs : List α) (x : α) :
    counter (xs ++ [x]) = (counter xs).set x ((counter xs).getD x 0 + 1) := by
  rw [counter, List.foldl_append]
  rfl

/-- The entries are the elements of the list with their counts. -/
theorem get?_counter (xs : List α) (x : α) :
    (counter xs).get? x = if x ∈ xs then some (xs.count x) else none := by
  induction xs using List.reverseRecOn with
  | nil => rfl
  | append_singleton xs y ih =>
    rw [counter_concat, Dict.get?_set, List.count_append, List.count_singleton]
    by_cases hy : y = x
    · subst hy
      have hcount : (counter xs).getD y 0 = xs.count y := by
        rw [Dict.getD, ih]
        split
        · rfl
        · next hmem => exact (List.count_eq_zero.mpr hmem).symm
      simp [hcount]
    · simp [ih, hy, Ne.symm hy]

theorem getD_counter (xs : List α) (x : α) : (counter xs).getD x 0 = xs.count x := by
  rw [Dict.getD, get?_counter]
  split
  · rfl
  · next hmem => exact (List.count_eq_zero.mpr hmem).symm

/-- Lists with the same elements, equally often, have the same counts. -/
theorem get?_counter_perm {xs ys : List α} (h : xs.Perm ys) (x : α) :
    (counter xs).get? x = (counter ys).get? x := by
  simp only [get?_counter, h.count_eq x, h.mem_iff]

omit [DecidableEq α] in
/-- The elements with one property fall into those with and those without another. -/
theorem countP_and_add (p q : α → Prop) [DecidablePred p] [DecidablePred q] (xs : List α) :
    xs.countP (fun x => p x ∧ q x) + xs.countP (fun x => p x ∧ ¬q x) = xs.countP p := by
  rw [List.countP_eq_countP_filter_add xs p q, List.countP_filter, List.countP_filter]
  simp only [Bool.decide_and, decide_not]

theorem Assoc.sum_values_set (k : α) (v : Nat) (l : List (α × Nat)) :
    ((Assoc.set k v l).map Prod.snd).sum + (Assoc.get k l).getD 0 = (l.map Prod.snd).sum + v := by
  induction l with
  | nil => simp [Assoc.set, Assoc.get]
  | cons kv rest ih =>
    obtain ⟨k', v'⟩ := kv
    by_cases hk : k' = k
    · simp only [Assoc.set, Assoc.get, if_pos hk, List.map_cons, List.sum_cons, Option.getD_some]
      omega
    · simp only [Assoc.set, Assoc.get, if_neg hk, List.map_cons, List.sum_cons]
      omega

theorem sum_values_counter (xs : List α) : (counter xs).values.sum = xs.length := by
  induction xs using List.reverseRecOn with
  | nil => rfl
  | append_singleton xs x ih =>
    have hset := Assoc.sum_values_set x ((counter xs).getD x 0 + 1) (counter xs).items
    rw [counter_concat, List.length_append, List.length_singleton, ← ih]
    exact Nat.add_right_cancel (hset.trans (by rw [← Nat.add_assoc, Nat.add_right_comm]; rfl))

end RagEval.Lib
