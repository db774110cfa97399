import Mathlib.Data.List.Nodup
import Mathlib.Order.Lattice

/-!
# The best of a list

A stable sort by descending keys, cut off after `k` elements, selects positions of the list: the
best `k` of them, the best first, and of equal keys the first ones first.

## Main definitions

- `Precedes` — the order of positions
- `Selects` — the positions that are selected

## Main result

- `exists_selects` — what the first elements of a sorted list are
-/

namespace RagEval.Lib

universe u v
variable {α : Type u} {κ : Type v} [LinearOrder κ] {key : α → κ} {l : List α}

/-- The element at `i` has the larger key, or the same and the earlier place. -/
def Precedes (key : α → κ) (l : List α) (i j : ℕ) : Prop :=
  ∃ a b, l[i]? = some a ∧ l[j]? = some b ∧ (key b < key a ∨ key a = key b ∧ i < j)

/-- The best `k` positions of a list, in their order. -/
structure Selects (key : α → κ) (l : List α) (k : ℕ) (picked : List ℕ) : Prop where
  length_eq : picked.length = min k l.length
  mem_lt : ∀ i ∈ picked, i < l.length
  ordered : picked.Pairwise (Precedes key l)
  best : ∀ i ∈ picked, ∀ j < l.length, j ∉ picked → Precedes key l i j

/-- Elements in the order of a stable sort stand at positions in their order. -/
theorem precedes_of_zipIdxLE {x y : α × ℕ} (hx : l[x.2]? = some x.1) (hy : l[y.2]? = some y.1)
    (hle : List.zipIdxLE (fun a b => decide (key b ≤ key a)) x y = true) (hne : x.2 ≠ y.2) :
    Precedes key l x.2 y.2 := by
  refine ⟨x.1, y.1, hx, hy, ?_⟩
  simp only [List.zipIdxLE, decide_eq_true_eq] at hle
  split_ifs at hle with hyx hxy
  · exact .inr ⟨hxy.antisymm hyx, Nat.lt_of_le_of_ne (of_decide_eq_true hle) hne⟩
  · exact .inl (not_le.mp hxy)

/-- **What a stable sort selects.** The first `k` elements of a list sorted by descending keys
are the elements at its best `k` positions. -/
theorem exists_selects {r : α → α → Bool}
    (hr : ∀ a ∈ l, ∀ b ∈ l, r a b = decide (key b ≤ key a)) (k : ℕ) :
    ∃ picked, Selects key l k picked ∧
      ∀ n i : ℕ, picked[n]? = some i → ((l.mergeSort r).take k)[n]? = l[i]? := by
  let le : α → α → Bool := fun a b => decide (key b ≤ key a)
  have htrans : ∀ a b c, le a b = true → le b c = true → le a c = true := by
    intro a b c hab hbc
    exact decide_eq_true ((of_decide_eq_true hbc).trans (of_decide_eq_true hab))
  have htotal : ∀ a b, (le a b || le b a) = true := by
    intro a b
    simpa [le] using le_total (key b) (key a)
  have hsort : l.mergeSort r = l.mergeSort le := by
    have hmap := List.map_mergeSort (r := r) (s := le) (f := id) (l := l) hr
    rwa [List.map_id, List.map_id] at hmap
  -- the sorted elements with the positions they come from
  let sorted := l.zipIdx.mergeSort (List.zipIdxLE le)
  have hperm : sorted.Perm l.zipIdx := List.mergeSort_perm _ _
  have hfst : sorted.map Prod.fst = l.mergeSort r := by
    rw [hsort]
    exact List.mergeSort_zipIdx
  have hget : ∀ x ∈ sorted, l[x.2]? = some x.1 := fun x hx =>
    List.mem_zipIdx_iff_getElem?.mp (hperm.mem_iff.mp hx)
  have hpairs : sorted.Pairwise fun x y => List.zipIdxLE le x y = true :=
    List.pairwise_mergeSort (List.zipIdxLE_trans htrans) (List.zipIdxLE_total htotal) _
  have hpositions : (sorted.map Prod.snd).Perm (List.range l.length) := by
    rw [List.range_eq_range', ← List.zipIdx_map_snd 0 l]
    exact hperm.map _
  have hnodup : (sorted.map Prod.snd).Nodup := hpositions.nodup_iff.mpr List.nodup_range
  have hordered : sorted.Pairwise fun x y => Precedes key l x.2 y.2 := by
    have hne : sorted.Pairwise fun x y => x.2 ≠ y.2 := List.pairwise_map.mp hnodup
    refine (hpairs.and hne).imp_of_mem fun hx hy h => ?_
    exact precedes_of_zipIdxLE (hget _ hx) (hget _ hy) h.1 h.2
  refine ⟨(sorted.take k).map Prod.snd, ⟨?_, ?_, ?_, ?_⟩, ?_⟩
  · rw [List.length_map, List.length_take, hperm.length_eq, List.length_zipIdx]
  · intro i hi
    rw [List.map_take] at hi
    exact List.mem_range.mp (hpositions.mem_iff.mp (List.mem_of_mem_take hi))
  · rw [List.pairwise_map]
    exact hordered.sublist (List.take_sublist k sorted)
  · intro i hi j hj hnot
    obtain ⟨x, hx, rfl⟩ := List.mem_map.mp hi
    have hmem : j ∈ sorted.map Prod.snd := hpositions.mem_iff.mpr (List.mem_range.mpr hj)
    obtain ⟨y, hy, rfl⟩ := List.mem_map.mp hmem
    -- what is not among the first comes after them
    have hdrop : y ∈ sorted.drop k := by
      rw [← List.take_append_drop k sorted] at hy
      exact (List.mem_append.mp hy).resolve_left fun hy => hnot (List.mem_map_of_mem hy)
    have hsplit := hordered
    rw [← List.take_append_drop k sorted, List.pairwise_append] at hsplit
    exact hsplit.2.2 x hx y hdrop
  · intro n i hn
    obtain ⟨x, hx, rfl⟩ := Option.map_eq_some_iff.mp ((List.getElem?_map ..).symm.trans hn)
    rw [← hfst, ← List.map_take, List.getElem?_map, hx]
    exact (hget x (List.mem_of_mem_take (List.mem_of_getElem? hx))).symm

end RagEval.Lib
