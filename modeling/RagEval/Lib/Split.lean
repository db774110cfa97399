import Mathlib.Data.List.DropRight
import Mathlib.Data.List.Infix

/-!
# Splitting, trimming and overlapping lists

A list cut at the occurrences of a separator, a list without the elements at its ends that
satisfy a predicate, and the last elements of a list carried over to the next one.

## Main definitions

- `split` — the pieces between the occurrences of a separator
- `terminated` — pieces put together again, each followed by the separator
- `trim` — a list without the elements at either end that satisfy `p`

## Main results

- `terminated_split` — the terminated pieces are the list and a last separator
- `append_cons_eq_append_cons_iff` — when two parts with a separator between them are confused
- `rtake_rtake_append` — what is carried over from an overlapped list is what is carried
  over from the whole
- `length_trim_le_append` — trimming an extension leaves no less
-/

namespace RagEval.Lib.Split

variable {α : Type*}

section Pieces
variable [DecidableEq α]

/-- The parts before and after the first occurrence of a nonempty `sep`. -/
def breakOn (sep : List α) : List α → Option (List α × List α)
  | [] => none
  | a :: rest =>
    if sep.isPrefixOf (a :: rest) then some ([], (a :: rest).drop sep.length)
    else (breakOn sep rest).map fun xy => (a :: xy.1, xy.2)

/-- Cut at no more than `n` occurrences. -/
def cuts (sep : List α) : Nat → List α → List (List α)
  | 0, l => [l]
  | n + 1, l =>
    match breakOn sep l with
    | none => [l]
    | some (piece, rest) => piece :: cuts sep n rest

/-- Cut at the occurrences of a nonempty `sep`, from the left; each takes an element of the
list at least. -/
def split (sep l : List α) : List (List α) := cuts sep l.length l

end Pieces

/-- The pieces, each followed by `sep`. -/
def terminated (sep : List α) (pieces : List (List α)) : List α := pieces.flatMap (· ++ sep)

@[simp] theorem terminated_nil (sep : List α) : terminated sep [] = [] := rfl

@[simp] theorem terminated_cons (sep piece : List α) (pieces : List (List α)) :
    terminated sep (piece :: pieces) = piece ++ sep ++ terminated sep pieces := rfl

@[simp] theorem terminated_append (sep : List α) (pieces pieces' : List (List α)) :
    terminated sep (pieces ++ pieces') = terminated sep pieces ++ terminated sep pieces' :=
  List.flatMap_append

/-- The terminated pieces are the pieces around the separator, and a last separator. -/
theorem terminated_eq_intercalate (sep : List α) {pieces : List (List α)} (h : pieces ≠ []) :
    terminated sep pieces = sep.intercalate pieces ++ sep := by
  induction pieces with
  | nil => exact absurd rfl h
  | cons piece rest ih =>
    cases rest with
    | nil => simp
    | cons next rest =>
      rw [terminated_cons, ih (List.cons_ne_nil _ _), List.intercalate_cons_cons]
      simp

/-- Two parts with the separator between them make the same list if they are the same, or if the
front of one reaches beyond a separator that the other has in its back. -/
theorem append_cons_eq_append_cons_iff {c : α} {x y x' y' : List α} :
    x ++ c :: y = x' ++ c :: y' ↔
      (x = x' ∧ y = y') ∨ (∃ w, x' = x ++ c :: w ∧ y = w ++ c :: y') ∨
        ∃ w, x = x' ++ c :: w ∧ y' = w ++ c :: y := by
  constructor
  · intro h
    obtain ⟨w, hx, hy⟩ | ⟨w, hx, hy⟩ := List.append_eq_append_iff.mp h
    · cases w with
      | nil =>
        rw [List.append_nil] at hx
        exact .inl ⟨hx.symm, (List.cons.inj hy).2⟩
      | cons b w =>
        obtain ⟨rfl, rfl⟩ := List.cons.inj hy
        exact .inr (.inl ⟨w, hx, rfl⟩)
    · cases w with
      | nil =>
        rw [List.append_nil] at hx
        exact .inl ⟨hx, (List.cons.inj hy).2.symm⟩
      | cons b w =>
        obtain ⟨rfl, rfl⟩ := List.cons.inj hy
        exact .inr (.inr ⟨w, hx, rfl⟩)
  · rintro (⟨rfl, rfl⟩ | ⟨w, rfl, rfl⟩ | ⟨w, rfl, rfl⟩) <;> simp

/-- A part of a list that leaves out one of its elements stands before or after it. -/
theorem append_cons_eq_append_append {x : α} {s t u m v : List α} (hm : x ∉ m)
    (h : s ++ x :: t = u ++ m ++ v) :
    (∃ w, s = u ++ m ++ w ∧ v = w ++ x :: t) ∨ ∃ w, u = s ++ x :: w ∧ t = w ++ m ++ v := by
  obtain ⟨w, hum, hv⟩ | ⟨w, hs, hv⟩ := List.append_eq_append_iff.mp h
  · cases w with
    | nil =>
      refine .inl ⟨[], ?_, hv.symm⟩
      rw [List.append_nil, hum, List.append_nil]
    | cons y w =>
      obtain ⟨rfl, rfl⟩ := List.cons.inj hv
      obtain ⟨z, rfl, rfl⟩ | ⟨z, rfl, hz⟩ := List.append_eq_append_iff.mp hum
      · exact absurd (List.mem_append_right z List.mem_cons_self) hm
      · cases z with
        | nil =>
          rw [List.nil_append] at hz
          exact absurd (hz ▸ List.mem_cons_self) hm
        | cons y z =>
          obtain ⟨rfl, rfl⟩ := List.cons.inj hz
          exact .inr ⟨z, rfl, rfl⟩
  · exact .inl ⟨w, hs, hv⟩

/-- A word without the separator is in one of the parts around it. -/
theorem infix_append_cons_iff {c : α} {m : List α} (hm : c ∉ m) (s t : List α) :
    m <:+: s ++ c :: t ↔ m <:+: s ∨ m <:+: t := by
  constructor
  · rintro ⟨u, v, h⟩
    obtain ⟨w, rfl, -⟩ | ⟨w, -, rfl⟩ := append_cons_eq_append_append hm h.symm
    · exact .inl ⟨u, w, rfl⟩
    · exact .inr ⟨w, v, rfl⟩
  · rintro (⟨u, v, rfl⟩ | ⟨u, v, rfl⟩)
    · exact ⟨u, v ++ c :: t, by simp⟩
    · exact ⟨s ++ c :: u, v, by simp⟩

section Pieces
variable [DecidableEq α]

theorem breakOn_eq_some {sep l x y : List α} (h : breakOn sep l = some (x, y)) :
    l = x ++ sep ++ y := by
  induction l generalizing x with
  | nil => cases h
  | cons a rest ih =>
    rw [breakOn] at h
    split at h
    · rename_i hfront
      obtain ⟨t, ht⟩ := List.isPrefixOf_iff_prefix.mp hfront
      simp only [Option.some.injEq, Prod.mk.injEq] at h
      obtain ⟨rfl, rfl⟩ := h
      rw [← ht, List.drop_left, List.nil_append]
    · obtain ⟨⟨x', y'⟩, hrest, hxy⟩ := Option.map_eq_some_iff.mp h
      obtain ⟨rfl, rfl⟩ := Prod.mk.inj hxy
      rw [ih hrest]
      simp

theorem terminated_cuts (sep : List α) (n : Nat) (l : List α) :
    terminated sep (cuts sep n l) = l ++ sep := by
  induction n generalizing l with
  | zero => simp [cuts]
  | succ n ih =>
    rw [cuts]
    split
    · simp
    · rename_i piece rest hbreak
      rw [terminated_cons, ih, breakOn_eq_some hbreak]
      simp

/-- The terminated pieces of a list are the list and a last separator. -/
theorem terminated_split (sep l : List α) : terminated sep (split sep l) = l ++ sep :=
  terminated_cuts sep l.length l

theorem split_of_not_isInfix {sep l : List α} (h : ¬sep <:+: l) : split sep l = [l] := by
  unfold split
  cases l.length with
  | zero => rfl
  | succ n =>
    rw [cuts]
    cases hbreak : breakOn sep l with
    | none => rfl
    | some xy => exact absurd ⟨xy.1, xy.2, (breakOn_eq_some hbreak).symm⟩ h

end Pieces

/-- Terminated pieces end with the separator, so what precedes the last of them is a prefix of
the list they were cut from. -/
theorem prefix_of_terminated {sep l : List α} {before after : List (List α)}
    (h : terminated sep (before ++ after) = l ++ sep) (hafter : after ≠ []) :
    terminated sep before <+: l := by
  obtain ⟨front, last, rfl⟩ := List.eq_nil_or_concat after |>.resolve_left hafter
  refine ⟨terminated sep front ++ last, ?_⟩
  rw [List.concat_eq_append, terminated_append, terminated_append, terminated_cons, terminated_nil,
    List.append_nil, ← List.append_assoc, ← List.append_assoc] at h
  rw [← List.append_assoc]
  exact List.append_cancel_right h

/-! ## The last elements -/

/-- What is carried over from a list that begins with carried over elements. -/
theorem rtake_rtake_append (n : Nat) (k l : List α) :
    (k.rtake n ++ l).rtake n = (k ++ l).rtake n := by
  simp only [List.rtake_eq_reverse_take_reverse, List.reverse_append, List.reverse_reverse,
    List.take_append, List.take_take]
  congr 3
  omega

theorem length_rtake_le (n : Nat) (l : List α) : (l.rtake n).length ≤ l.length := by
  rw [List.rtake, List.length_drop]
  omega

theorem length_rtake (n : Nat) (l : List α) : (l.rtake n).length = min n l.length := by
  rw [List.rtake, List.length_drop]
  omega

theorem rtake_suffix (n : Nat) (l : List α) : l.rtake n <:+ l := List.drop_suffix _ _

/-! ## Trimming -/

section Trim
variable (p : α → Bool)

/-- The list without the elements at either end that satisfy `p`. -/
def trim (l : List α) : List α := (l.dropWhile p).rdropWhile p

theorem trim_isInfix (l : List α) : trim p l <:+: l :=
  (List.rdropWhile_prefix p _).isInfix.trans (List.dropWhile_suffix p).isInfix

variable {p}

theorem rdropWhile_append_of_all {w : List α} (h : ∀ a ∈ w, p a = true) (l : List α) :
    (l ++ w).rdropWhile p = l.rdropWhile p := by
  have hw : w.reverse.dropWhile p = [] := by
    rw [List.dropWhile_eq_nil_iff]
    exact fun a ha => h a (List.mem_reverse.mp ha)
  rw [List.rdropWhile, List.reverse_append, List.dropWhile_append, hw]
  rfl

/-- Elements that satisfy `p` do not count at the end. -/
theorem trim_append_of_all {w : List α} (h : ∀ a ∈ w, p a = true) (l : List α) :
    trim p (l ++ w) = trim p l := by
  unfold trim
  rw [List.dropWhile_append]
  cases hl : l.dropWhile p with
  | nil =>
    rw [List.isEmpty_nil, if_pos rfl, List.dropWhile_eq_nil_iff.mpr h]
  | cons a rest =>
    rw [List.isEmpty_cons, if_neg Bool.false_ne_true, rdropWhile_append_of_all h]

theorem length_rdropWhile_le_append (l m : List α) :
    (l.rdropWhile p).length ≤ ((l ++ m).rdropWhile p).length := by
  rw [List.rdropWhile, List.rdropWhile, List.reverse_append, List.dropWhile_append]
  cases hm : m.reverse.dropWhile p with
  | nil => rfl
  | cons a rest =>
    rw [List.isEmpty_cons, if_neg Bool.false_ne_true, List.length_reverse, List.length_reverse,
      List.length_append]
    have hle := (List.dropWhile_suffix p (l := l.reverse)).length_le
    omega

/-- What follows on a list leaves no less of it. -/
theorem length_trim_le_append (l m : List α) :
    (trim p l).length ≤ (trim p (l ++ m)).length := by
  unfold trim
  rw [List.dropWhile_append]
  cases hl : l.dropWhile p with
  | nil => exact Nat.zero_le _
  | cons a rest =>
    rw [List.isEmpty_cons, if_neg Bool.false_ne_true]
    exact length_rdropWhile_le_append _ _

theorem length_trim_le (l : List α) : (trim p l).length ≤ l.length := (trim_isInfix p l).length_le

/-- Trimming removes nothing that fails `p`. -/
theorem countP_trim (l : List α) : (trim p l).countP (!p ·) = l.countP (!p ·) := by
  have hdrop : ∀ l : List α, (l.dropWhile p).countP (!p ·) = l.countP (!p ·) := by
    intro l
    induction l with
    | nil => rfl
    | cons a rest ih =>
      rw [List.dropWhile_cons]
      split
      · rename_i ha
        rw [ih, List.countP_cons, ha]
        rfl
      · rfl
  rw [trim, List.rdropWhile, List.countP_reverse, hdrop, List.countP_reverse, hdrop]

/-- Trimming leaves nothing to trim. -/
theorem trim_trim (l : List α) : trim p (trim p l) = trim p l := by
  have hdrop : (trim p l).dropWhile p = trim p l := by
    obtain ⟨t, ht⟩ := List.rdropWhile_prefix p (l := l.dropWhile p)
    rw [trim]
    cases htrim : (l.dropWhile p).rdropWhile p with
    | nil => rfl
    | cons a rest =>
      -- what is left starts as the front-trimmed list does
      have ha : ¬p a = true := by
        have hfront := List.dropWhile_idempotent (p := p) (l := l)
        rw [← ht, htrim, List.cons_append] at hfront
        intro ha
        rw [List.dropWhile_cons_of_pos ha] at hfront
        have hlen := (List.dropWhile_suffix p (l := rest ++ t)).length_le
        rw [hfront, List.length_cons] at hlen
        omega
      exact List.dropWhile_cons_of_neg ha
  rw [trim, hdrop, trim, List.rdropWhile_idempotent]

/-- There is nothing to trim where no element satisfies `p`. -/
theorem trim_eq_self {l : List α} (h : ∀ a ∈ l, p a = false) : trim p l = l := by
  have hdrop : ∀ l : List α, (∀ a ∈ l, p a = false) → l.dropWhile p = l := by
    intro l hl
    cases l with
    | nil => rfl
    | cons a rest =>
      refine List.dropWhile_cons_of_neg ?_
      rw [hl a List.mem_cons_self]
      exact Bool.false_ne_true
  have hreverse : ∀ a ∈ l.reverse, p a = false := fun a ha => h a (List.mem_reverse.mp ha)
  rw [trim, hdrop l h, List.rdropWhile, hdrop l.reverse hreverse, List.reverse_reverse]

/-- Nothing is left exactly of the lists whose elements all satisfy `p`. -/
theorem trim_eq_nil_iff (l : List α) : trim p l = [] ↔ ∀ a ∈ l, p a = true := by
  constructor
  · intro h a ha
    have hcount := countP_trim (p := p) l
    rw [h, List.countP_nil, eq_comm, List.countP_eq_zero] at hcount
    simpa using hcount a ha
  · intro h
    have hnil : trim p ([] ++ l) = trim p [] := trim_append_of_all h []
    exact hnil

end Trim

end RagEval.Lib.Split
