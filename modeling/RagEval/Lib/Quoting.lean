import Mathlib.Data.List.Infix

/-!
# Quoting for URLs

`urllib.parse.quote_plus`: a blank becomes a plus, a letter, a digit and a few signs stay, and
everything else becomes the bytes of its UTF-8 encoding in hexadecimal. A word of plus signs and
of letters that are no hexadecimal digits can be in a quoted text only if the text has it, with
blanks for the plus signs.

## Main definitions

- `quotePlus` — `urllib.parse.quote_plus`
- `Plain` — the characters that nothing but themselves, or a blank, is quoted to

## Main result

- `infix_quotePlus_iff` — which words of plain characters are in a quoted text
-/

namespace RagEval.Lib.Quoting

def hexUpper : List Char :=
  ['0', '1', '2', '3', '4', '5', '6', '7', '8', '9', 'A', 'B', 'C', 'D', 'E', 'F']

/-- The characters that are never quoted. -/
def isSafe (c : Char) : Bool := c.isAlphanum || decide (c ∈ ['_', '.', '-', '~'])

/-- `%` and the two digits of a byte. -/
def percentByte (b : UInt8) : List Char :=
  ['%', hexUpper.getD (b.toNat / 16) '0', hexUpper.getD (b.toNat % 16) '0']

def quoteChar (c : Char) : List Char :=
  if c = ' ' then ['+']
  else if isSafe c then [c]
  else (String.utf8EncodeChar c).flatMap percentByte

/-- `quote_plus(s)`. -/
def quotePlus (s : String) : String := String.ofList (s.toList.flatMap quoteChar)

/-! ## Words of plain characters -/

/-- A plus, or a character that stays as it is and is no digit of a byte. -/
def Plain (a : Char) : Prop := a = '+' ∨ isSafe a = true ∧ a ∉ hexUpper

instance (a : Char) : Decidable (Plain a) :=
  inferInstanceAs (Decidable (a = '+' ∨ isSafe a = true ∧ a ∉ hexUpper))

/-- What a plain character is quoted from. -/
def unquoted (a : Char) : Char := if a = '+' then ' ' else a

theorem unquoted_of_isSafe {a : Char} (h : isSafe a = true) : unquoted a = a := by
  have hplus : a ≠ '+' := by
    rintro rfl
    exact absurd h (by decide)
  rw [unquoted, if_neg hplus]

theorem quoteChar_unquoted {a : Char} (h : Plain a) : quoteChar (unquoted a) = [a] := by
  obtain rfl | ⟨hsafe, -⟩ := h
  · decide
  · have hblank : a ≠ ' ' := by
      rintro rfl
      exact absurd hsafe (by decide)
    rw [unquoted_of_isSafe hsafe, quoteChar, if_neg hblank, if_pos hsafe]

theorem not_plain_of_mem_hexUpper {x : Char} (h : x ∈ hexUpper) : ¬Plain x := by
  rintro (rfl | ⟨-, hnot⟩)
  · exact absurd h (by decide)
  · exact hnot h

theorem getD_mem_hexUpper (n : Nat) : hexUpper.getD n '0' ∈ hexUpper := by
  rw [List.getD_eq_getElem?_getD]
  cases hget : hexUpper[n]? with
  | none => exact List.mem_cons_self
  | some x => exact List.mem_of_getElem? hget

theorem not_plain_of_mem_percentByte {b : UInt8} {x : Char} (h : x ∈ percentByte b) :
    ¬Plain x := by
  simp only [percentByte, List.mem_cons, List.not_mem_nil, or_false] at h
  obtain rfl | rfl | rfl := h
  · rintro (hplus | ⟨hsafe, -⟩)
    · exact absurd hplus (by decide)
    · exact absurd hsafe (by decide)
  · exact not_plain_of_mem_hexUpper (getD_mem_hexUpper _)
  · exact not_plain_of_mem_hexUpper (getD_mem_hexUpper _)

/-- A character is quoted to one that it can be read from, or to none that is plain. -/
theorem quoteChar_cases (c : Char) :
    (∃ x, quoteChar c = [x] ∧ unquoted x = c) ∨
      quoteChar c ≠ [] ∧ ∀ x ∈ quoteChar c, ¬Plain x := by
  by_cases hblank : c = ' '
  · subst hblank
    exact .inl ⟨'+', by decide, by decide⟩
  · by_cases hsafe : isSafe c = true
    · refine .inl ⟨c, ?_, unquoted_of_isSafe hsafe⟩
      rw [quoteChar, if_neg hblank, if_pos hsafe]
    · right
      rw [quoteChar, if_neg hblank, if_neg hsafe]
      constructor
      · obtain ⟨b, bytes, hbytes⟩ :=
          List.exists_cons_of_ne_nil (String.utf8EncodeChar_ne_nil (c := c))
        rw [hbytes]
        exact List.cons_ne_nil _ _
      · intro x hx
        obtain ⟨b, -, hx⟩ := List.mem_flatMap.mp hx
        exact not_plain_of_mem_percentByte hx

/-- A plain character that a quoted text starts with is from the first one of the text. -/
theorem cons_prefix_quoteChar_iff {a : Char} (ha : Plain a) (c : Char) (w rest : List Char) :
    a :: w <+: quoteChar c ++ rest ↔ unquoted a = c ∧ w <+: rest := by
  constructor
  · intro hpre
    obtain ⟨x, hx, rfl⟩ | ⟨hne, hplain⟩ := quoteChar_cases c
    · rw [hx, List.singleton_append, List.cons_prefix_cons] at hpre
      exact ⟨congrArg unquoted hpre.1, hpre.2⟩
    · obtain ⟨x, xs, hx⟩ := List.exists_cons_of_ne_nil hne
      rw [hx, List.cons_append, List.cons_prefix_cons] at hpre
      refine absurd ha (hplain a ?_)
      rw [hx, hpre.1]
      exact List.mem_cons_self
  · rintro ⟨rfl, hpre⟩
    rw [quoteChar_unquoted ha, List.singleton_append, List.cons_prefix_cons]
    exact ⟨rfl, hpre⟩

theorem prefix_flatMap_iff {w : List Char} (hw : ∀ a ∈ w, Plain a) (s : List Char) :
    w <+: s.flatMap quoteChar ↔ w.map unquoted <+: s := by
  induction s generalizing w with
  | nil =>
    rw [List.flatMap_nil, List.prefix_nil, List.prefix_nil, List.map_eq_nil_iff]
  | cons c s ih =>
    cases w with
    | nil => exact iff_of_true List.nil_prefix List.nil_prefix
    | cons a w =>
      rw [List.forall_mem_cons] at hw
      rw [List.flatMap_cons, cons_prefix_quoteChar_iff hw.1, List.map_cons, List.cons_prefix_cons,
        ih hw.2]

/-- A word that starts with a plain character is not in what comes before the plain ones. -/
theorem infix_append_of_not_plain {a : Char} (ha : Plain a) {w xs rest : List Char}
    (hxs : ∀ x ∈ xs, ¬Plain x) : a :: w <:+: xs ++ rest ↔ a :: w <:+: rest := by
  induction xs with
  | nil => rfl
  | cons x xs ih =>
    rw [List.forall_mem_cons] at hxs
    rw [List.cons_append, List.infix_cons_iff, ih hxs.2, or_iff_right]
    intro hpre
    exact hxs.1 ((List.cons_prefix_cons.mp hpre).1 ▸ ha)

theorem infix_flatMap_iff {w : List Char} (hw : ∀ a ∈ w, Plain a) (hne : w ≠ [])
    (s : List Char) : w <:+: s.flatMap quoteChar ↔ w.map unquoted <:+: s := by
  obtain ⟨a, w, rfl⟩ := List.exists_cons_of_ne_nil hne
  have ha := hw a List.mem_cons_self
  induction s with
  | nil => simp
  | cons c s ih =>
    have hpre := prefix_flatMap_iff hw (c :: s)
    rw [List.infix_cons_iff, ← hpre, List.flatMap_cons]
    refine Iff.trans ?_ (or_congr_right ih)
    obtain ⟨x, hx, -⟩ | ⟨-, hplain⟩ := quoteChar_cases c
    · rw [hx, List.singleton_append, List.infix_cons_iff]
    · rw [infix_append_of_not_plain ha hplain, or_iff_right]
      intro hstart
      obtain rfl := ((cons_prefix_quoteChar_iff ha c w _).mp hstart).1
      rw [quoteChar_unquoted ha] at hplain
      exact hplain a List.mem_cons_self ha

/-- A word of plain characters is in a quoted text exactly if the text has it with blanks for the
plus signs. -/
theorem infix_quotePlus_iff {w : List Char} (hw : ∀ a ∈ w, Plain a) (hne : w ≠ [])
    (s : String) : w <:+: (quotePlus s).toList ↔ w.map unquoted <:+: s.toList := by
  rw [quotePlus, String.toList_ofList, infix_flatMap_iff hw hne]

end RagEval.Lib.Quoting
