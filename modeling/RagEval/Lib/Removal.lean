import Mathlib.Data.List.Infix

/-!
# Removing the occurrences of a word

A list without the occurrences of a word, found from the left and not overlapping, and what can
be found in it afterwards. The word starts with a symbol that it has nowhere else, so that its
occurrences do not overlap anyway, and a second word that starts like it is in what is left
exactly if the list has it with copies of the first put between its symbols.

## Main definitions

- `remove` — the list without the occurrences of a word
- `Spread`, `Emerges` — a second word with copies of the first between its symbols

## Main results

- `remove_append_cons` — what comes before and after a symbol is searched apart
- `remove_eq_self_iff` — when there was nothing to remove
- `infix_remove_iff` — what is in the list without the occurrences
-/

namespace RagEval.Lib.Removal

universe u
variable {α : Type u}

section Remove
variable [DecidableEq α]

/-- The list without the occurrences of `word`; the counter skips the rest of one just found. -/
def removeFrom (word : List α) : Nat → List α → List α
  | _, [] => []
  | skip + 1, _ :: s => removeFrom word skip s
  | 0, a :: s =>
    if word.isPrefixOf (a :: s) then removeFrom word (word.length - 1) s
    else a :: removeFrom word 0 s

/-- The list without the occurrences of a nonempty `word`, from the left. -/
def remove (word s : List α) : List α := removeFrom word 0 s

theorem removeFrom_eq (word s : List α) (skip : Nat) :
    removeFrom word skip s = remove word (s.drop skip) := by
  induction s generalizing skip with
  | nil => simp [remove, removeFrom]
  | cons a s ih =>
    cases skip with
    | zero => rfl
    | succ skip => exact ih skip

end Remove

/-! ## One occurrence after the other -/

section Occurrences
variable {h c : α} {t : List α}

/-- A list is empty, or starts with the word, or starts with another symbol. -/
@[elab_as_elim]
theorem occurrence_induction {motive : List α → Prop} (nil : motive [])
    (found : ∀ s, motive s → motive (h :: t ++ s))
    (other : ∀ a s, ¬h :: t <+: a :: s → motive s → motive (a :: s)) (s : List α) : motive s := by
  induction hlen : s.length using Nat.strong_induction_on generalizing s with
  | _ n ih =>
    cases s with
    | nil => exact nil
    | cons a s =>
      by_cases hword : h :: t <+: a :: s
      · obtain ⟨rest, hrest⟩ := hword
        rw [← hrest, List.length_append, List.length_cons] at hlen
        rw [← hrest]
        exact found rest (ih rest.length (by omega) rest rfl)
      · exact other a s hword (ih s.length (by rw [← hlen]; simp) s rfl)

/-- A symbol that the word has at its start at most lets no occurrence reach beyond it. -/
theorem not_prefix_append_cons (hc : c ∉ t) {a : α} {u : List α} (hu : ¬h :: t <+: a :: u)
    (w : List α) : ¬h :: t <+: a :: (u ++ c :: w) := by
  rintro ⟨rest, hrest⟩
  rw [← List.cons_append] at hrest
  obtain ⟨x, hx, -⟩ | ⟨x, hx, hw⟩ := List.append_eq_append_iff.mp hrest
  · exact hu ⟨x, hx.symm⟩
  · cases x with
    | nil =>
      rw [List.append_nil] at hx
      exact hu (hx ▸ List.prefix_rfl)
    | cons b x =>
      rw [List.cons_append, List.cons.injEq] at hx
      obtain ⟨rfl, -⟩ := List.cons.inj hw
      rw [hx.2] at hc
      exact hc (List.mem_append_right u List.mem_cons_self)

variable [DecidableEq α]

@[simp] theorem remove_nil (word : List α) : remove word [] = [] := rfl

theorem remove_append (s : List α) : remove (h :: t) (h :: t ++ s) = remove (h :: t) s := by
  have hfront : (h :: t).isPrefixOf (h :: t ++ s) = true :=
    List.isPrefixOf_iff_prefix.mpr (List.prefix_append _ _)
  rw [List.cons_append] at hfront ⊢
  rw [remove, removeFrom, if_pos hfront, removeFrom_eq, List.length_cons, Nat.add_sub_cancel,
    List.drop_left]

theorem remove_cons {a : α} {s : List α} (hword : ¬h :: t <+: a :: s) :
    remove (h :: t) (a :: s) = a :: remove (h :: t) s := by
  rw [remove, removeFrom, if_neg (mt List.isPrefixOf_iff_prefix.mp hword)]
  rfl

/-- What comes before and after a symbol is searched apart. -/
theorem remove_append_cons (hc : c ∉ t) {w : List α} (hw : ¬h :: t <+: c :: w) (u : List α) :
    remove (h :: t) (u ++ c :: w) = remove (h :: t) u ++ c :: remove (h :: t) w := by
  induction u using occurrence_induction (h := h) (t := t) with
  | nil => exact remove_cons hw
  | found u ih => rw [List.append_assoc, remove_append, remove_append, ih]
  | other a u hu ih =>
    rw [List.cons_append, remove_cons (not_prefix_append_cons hc hu w), remove_cons hu, ih,
      List.cons_append]

theorem remove_sublist (s : List α) : (remove (h :: t) s).Sublist s := by
  induction s using occurrence_induction (h := h) (t := t) with
  | nil => exact List.Sublist.refl []
  | found s ih =>
    rw [remove_append]
    exact ih.trans (List.sublist_append_right _ s)
  | other a s hs ih =>
    rw [remove_cons hs]
    exact ih.cons_cons a

/-- A list is left as it is exactly if the word is not in it. -/
theorem remove_eq_self_iff (s : List α) : remove (h :: t) s = s ↔ ¬h :: t <:+: s := by
  induction s using occurrence_induction (h := h) (t := t) with
  | nil => simp
  | found s ih =>
    refine iff_of_false (fun heq => ?_) (not_not_intro (List.prefix_append _ _).isInfix)
    have hlen := (remove_sublist (h := h) (t := t) s).length_le
    rw [remove_append] at heq
    rw [heq, List.length_append, List.length_cons] at hlen
    omega
  | other a s hs ih =>
    rw [remove_cons hs, List.cons.injEq, and_iff_right rfl, ih, List.infix_cons_iff,
      or_iff_right hs]

end Occurrences

/-! ## Words that emerge -/

/-- The list `m` is `n` with copies of `word` put before some of its symbols. -/
inductive Spread (word : List α) : List α → List α → Prop
  | nil : Spread word [] []
  | copy {b : α} {n m : List α} : Spread word (b :: n) m → Spread word (b :: n) (word ++ m)
  | elem {b : α} {n m : List α} : Spread word n m → Spread word (b :: n) (b :: m)

/-- The list has `a :: n` in it, with copies of `word` put between its symbols; an occurrence of
`word` itself does not count. -/
def Emerges (word : List α) (a : α) (n s : List α) : Prop :=
  ∃ u m v, s = u ++ a :: (m ++ v) ∧ Spread word n m ∧ a :: m ≠ word

section Emerging
variable {h : α} {t n m : List α}

/-- A copy of the word does not start before a copy that is in it. -/
theorem Spread.eq_of_prefix {word : List α} (hspread : Spread (h :: word) n m) {r v : List α}
    (hr : h ∉ r) (hn : n <+: r ∨ r <+: n → n = r) (hpre : r <+: m ++ v) : m = r := by
  induction hspread generalizing r with
  | nil => exact hn (.inl List.nil_prefix)
  | copy _ _ =>
    cases r with
    | nil => exact absurd (hn (.inr List.nil_prefix)) (List.cons_ne_nil _ _)
    | cons b r =>
      obtain ⟨rest, hrest⟩ := hpre
      obtain ⟨rfl, -⟩ := List.cons.inj hrest
      exact absurd List.mem_cons_self hr
  | @elem b n m _ ih =>
    cases r with
    | nil => exact absurd (hn (.inr List.nil_prefix)) (List.cons_ne_nil _ _)
    | cons a r =>
      rw [List.cons_append, List.cons_prefix_cons] at hpre
      obtain ⟨rfl, hpre⟩ := hpre
      refine congrArg _ (ih (fun hmem => hr (List.mem_cons_of_mem a hmem)) (fun hor => ?_) hpre)
      have hcons : a :: n <+: a :: r ∨ a :: r <+: a :: n := by
        rwa [List.cons_prefix_cons, List.cons_prefix_cons, and_iff_right rfl, and_iff_right rfl]
      exact (List.cons.inj (hn hcons)).2

variable [DecidableEq α]

/-- The copies that are put before the symbols are removed. -/
theorem Spread.remove_append (hspread : Spread (h :: t) n m) (hn : h ∉ n) (v : List α) :
    remove (h :: t) (m ++ v) = n ++ remove (h :: t) v := by
  induction hspread with
  | nil => rfl
  | copy _ ih => rw [List.append_assoc, Removal.remove_append, ih hn]
  | @elem b n m _ ih =>
    have hb : ¬h :: t <+: b :: (m ++ v) := by
      intro hpre
      exact hn ((List.cons_prefix_cons.mp hpre).1 ▸ List.mem_cons_self)
    rw [List.cons_append, remove_cons hb, ih fun hmem => hn (List.mem_cons_of_mem b hmem),
      List.cons_append]

/-- What is left starts with what the list has spread over its start. -/
theorem spread_of_prefix_remove {s : List α} (hn : n <+: remove (h :: t) s) :
    ∃ m v, s = m ++ v ∧ Spread (h :: t) n m := by
  induction s using occurrence_induction (h := h) (t := t) generalizing n with
  | nil =>
    obtain rfl := List.prefix_nil.mp hn
    exact ⟨[], [], rfl, .nil⟩
  | found s ih =>
    cases n with
    | nil => exact ⟨[], _, rfl, .nil⟩
    | cons b n =>
      rw [remove_append] at hn
      obtain ⟨m, v, rfl, hspread⟩ := ih hn
      exact ⟨h :: t ++ m, v, (List.append_assoc _ _ _).symm, hspread.copy⟩
  | other a s hs ih =>
    cases n with
    | nil => exact ⟨[], _, rfl, .nil⟩
    | cons b n =>
      rw [remove_cons hs, List.cons_prefix_cons] at hn
      obtain ⟨rfl, hn⟩ := hn
      obtain ⟨m, v, rfl, hspread⟩ := ih hn
      exact ⟨b :: m, v, rfl, hspread.elem⟩

theorem emerges_of_infix_remove {s : List α} (hn : h :: n <:+: remove (h :: t) s) :
    Emerges (h :: t) h n s := by
  induction s using occurrence_induction (h := h) (t := t) with
  | nil => exact absurd (List.infix_nil.mp hn) (List.cons_ne_nil _ _)
  | found s ih =>
    rw [remove_append] at hn
    obtain ⟨u, m, v, rfl, hspread, hne⟩ := ih hn
    exact ⟨h :: t ++ u, m, v, (List.append_assoc _ _ _).symm, hspread, hne⟩
  | other a s hs ih =>
    rw [remove_cons hs, List.infix_cons_iff] at hn
    obtain hn | hn := hn
    · obtain ⟨rfl, hrest⟩ := List.cons_prefix_cons.mp hn
      obtain ⟨m, v, rfl, hspread⟩ := spread_of_prefix_remove hrest
      refine ⟨[], m, v, rfl, hspread, fun hword => hs ?_⟩
      rw [← hword, ← List.cons_append]
      exact List.prefix_append _ _
    · obtain ⟨u, m, v, rfl, hspread, hne⟩ := ih hn
      exact ⟨a :: u, m, v, rfl, hspread, hne⟩

/-- Another word that starts like the word removed, neither of which is a proper prefix of the
other, is in what is left exactly if it emerges. -/
theorem infix_remove_iff (ht : h ∉ t) (hn : h ∉ n) (hpre : n <+: t ∨ t <+: n → n = t)
    (s : List α) : h :: n <:+: remove (h :: t) s ↔ Emerges (h :: t) h n s := by
  refine ⟨emerges_of_infix_remove, ?_⟩
  rintro ⟨u, m, v, rfl, hspread, hne⟩
  have hw : ¬h :: t <+: h :: (m ++ v) := by
    intro hword
    have heq := hspread.eq_of_prefix ht hpre (List.cons_prefix_cons.mp hword).2
    exact hne (congrArg _ heq)
  rw [remove_append_cons ht hw, hspread.remove_append hn]
  exact ⟨remove (h :: t) u, remove (h :: t) v, by simp⟩

end Emerging

end RagEval.Lib.Removal
