import Mathlib.Data.List.SplitBy
import RagEval.Lib.Chunking

/-!
# Blocks of a list

A list cut before each of its elements that satisfies a predicate, as runs of elements
(`List.splitBy`) and as a loop that gathers a block and closes it at the next such element.

## Main definitions

- `blocks` — the blocks of a list
- `feed` — one round of the loop

## Main results

- `flush_foldl_feed` — the loop computes the blocks
- `mem_blocks_iff` — which parts of a list are its blocks
-/

namespace RagEval.Lib.Blocks
open Chunking

variable {α : Type*} (p : α → Bool)

/-- The list, cut before each element that satisfies `p`. -/
def blocks (l : List α) : List (List α) := l.splitBy fun _ a => !p a

theorem flatten_blocks (l : List α) : (blocks p l).flatten = l := List.flatten_splitBy _ l

@[simp] theorem blocks_nil : blocks p [] = [] := rfl

/-- The last part of a list that begins with an element satisfying `p` has its own blocks. -/
theorem blocks_append {l m : List α} (h : ∀ a ∈ m.head?, p a = true) :
    blocks p (l ++ m) = blocks p l ++ blocks p m := by
  refine List.splitBy_append fun _ _ a ha => ?_
  rw [h a ha]
  rfl

/-- A list without such elements behind its first one is a block. -/
theorem blocks_of_forall (a : α) {l : List α} (h : ∀ b ∈ l, p b = false) :
    blocks p (a :: l) = [a :: l] := by
  refine List.splitBy_of_isChain (List.cons_ne_nil a l) ?_
  induction l generalizing a with
  | nil => exact .singleton _
  | cons b rest ih =>
    rw [List.forall_mem_cons] at h
    exact .cons_cons (by rw [h.1]; rfl) (ih b h.2)

/-- Without the elements before the next one that satisfies `p`, a list begins with that one. -/
theorem head_dropWhile {l : List α} : ∀ a ∈ (l.dropWhile (!p ·)).head?, p a = true := by
  intro a ha
  have hhead := List.head?_dropWhile_not (!p ·) l
  rw [Option.mem_def.mp ha] at hhead
  simpa using hhead

/-- The first block goes to the next element that satisfies `p`. -/
theorem blocks_cons (a : α) (l : List α) :
    blocks p (a :: l) = (a :: l.takeWhile (!p ·)) :: blocks p (l.dropWhile (!p ·)) := by
  have hfirst : ∀ b ∈ l.takeWhile (!p ·), p b = false := by
    intro b hb
    simpa using List.mem_takeWhile_imp hb
  calc blocks p (a :: l)
      = blocks p ((a :: l.takeWhile (!p ·)) ++ l.dropWhile (!p ·)) := by
        rw [List.cons_append, List.takeWhile_append_dropWhile]
    _ = (a :: l.takeWhile (!p ·)) :: blocks p (l.dropWhile (!p ·)) := by
        rw [blocks_append p (head_dropWhile p), blocks_of_forall p a hfirst, List.singleton_append]

/-- The blocks are the parts that begin at the first element or at one that satisfies `p`, and go
to the next one. -/
theorem mem_blocks_iff {block l : List α} :
    block ∈ blocks p l ↔ ∃ before a rest, l = before ++ a :: rest ∧
      (before = [] ∨ p a = true) ∧ block = a :: rest.takeWhile (!p ·) := by
  constructor
  · intro h
    induction hlength : l.length using Nat.strong_induction_on generalizing l with
    | _ n ih =>
      cases l with
      | nil => exact absurd h List.not_mem_nil
      | cons a rest =>
        rw [blocks_cons] at h
        rcases List.mem_cons.mp h with rfl | h
        · exact ⟨[], a, rest, rfl, .inl rfl, rfl⟩
        · have hshorter : (rest.dropWhile (!p ·)).length < n := by
            have hle := (List.dropWhile_suffix (!p ·) (l := rest)).length_le
            rw [← hlength, List.length_cons]
            omega
          obtain ⟨before, b, rest', hsplit, hb, rfl⟩ := ih _ hshorter h rfl
          refine ⟨a :: (rest.takeWhile (!p ·) ++ before), b, rest', ?_, .inr ?_, rfl⟩
          · rw [List.cons_append, List.append_assoc, ← hsplit, List.takeWhile_append_dropWhile]
          · rcases hb with rfl | hb
            · exact head_dropWhile p b (by rw [hsplit]; rfl)
            · exact hb
  · rintro ⟨before, a, rest, rfl, ha, rfl⟩
    rcases ha with rfl | ha
    · rw [List.nil_append, blocks_cons]
      exact List.mem_cons_self
    · have hhead : ∀ b ∈ (a :: rest).head?, p b = true := by
        rintro b ⟨⟩
        exact ha
      rw [blocks_append p hhead, blocks_cons]
      exact List.mem_append_right _ List.mem_cons_self

/-- Only the first element of a block may satisfy `p`. -/
theorem forall_tail_of_mem_blocks {block l : List α} (h : block ∈ blocks p l) :
    block ≠ [] ∧ ∀ a ∈ block.tail, p a = false := by
  obtain ⟨before, a, rest, -, -, rfl⟩ := (mem_blocks_iff p).mp h
  refine ⟨List.cons_ne_nil _ _, fun b hb => ?_⟩
  simpa using List.mem_takeWhile_imp hb

/-- Every block but the first begins with an element that satisfies `p`. -/
theorem head_of_mem_tail_blocks {block l : List α} (h : block ∈ (blocks p l).tail) :
    ∃ a ∈ block.head?, p a = true := by
  cases l with
  | nil => exact absurd h List.not_mem_nil
  | cons a rest =>
    rw [blocks_cons, List.tail_cons, mem_blocks_iff] at h
    obtain ⟨before, b, rest', hsplit, hb, rfl⟩ := h
    refine ⟨b, rfl, ?_⟩
    rcases hb with rfl | hb
    · exact head_dropWhile p b (by rw [hsplit]; rfl)
    · exact hb

/-! ## The loop -/

/-- Close the current block at an element that satisfies `p`, or go on with it. -/
def feed (s : Chunks α) (a : α) : Chunks α :=
  if p a then ⟨s.flush, [a]⟩ else ⟨s.closed, s.current ++ [a]⟩

/-- From a current block on, the loop adds to it up to the next block. -/
theorem flush_foldl_feed_of_ne_nil (l : List α) {s : Chunks α} (h : s.current ≠ []) :
    (l.foldl (feed p) s).flush =
      s.closed ++ (s.current ++ l.takeWhile (!p ·)) :: blocks p (l.dropWhile (!p ·)) := by
  induction l generalizing s with
  | nil => simp [Chunks.flush_of_ne_nil h]
  | cons a rest ih =>
    rw [List.foldl_cons, feed]
    by_cases ha : p a = true
    · rw [if_pos ha, ih (List.cons_ne_nil _ _), Chunks.flush_of_ne_nil h, List.append_assoc,
        List.singleton_append, List.singleton_append, ← blocks_cons, List.takeWhile_cons_of_neg,
        List.dropWhile_cons_of_neg, List.append_nil]
      · simp [ha]
      · simp [ha]
    · rw [if_neg ha, ih (by simp), List.takeWhile_cons_of_pos, List.dropWhile_cons_of_pos,
        List.append_assoc, List.singleton_append]
      · simp [ha]
      · simp [ha]

/-- **The loop computes the blocks.** -/
theorem flush_foldl_feed (l : List α) :
    (l.foldl (feed p) Chunks.init).flush = blocks p l := by
  cases l with
  | nil => rfl
  | cons a rest =>
    have hfirst : feed p Chunks.init a = ⟨[], [a]⟩ := by
      unfold feed Chunks.init
      split <;> rfl
    rw [List.foldl_cons, hfirst, flush_foldl_feed_of_ne_nil p rest (List.cons_ne_nil _ _),
      blocks_cons]
    rfl

end RagEval.Lib.Blocks
