import Mathlib.Data.List.Basic
import Mathlib.Data.List.Infix

/-!
# String methods

Python's `str` methods as functions on the list of code points.
-/

namespace RagEval.Lib.Text

/-- `s.startswith(p)`. -/
def startswith (s p : String) : Bool := p.toList.isPrefixOf s.toList

/-- `s.endswith(p)`. -/
def endswith (s p : String) : Bool := p.toList.isSuffixOf s.toList

/-- `s[:-n]` for a positive `n`. -/
def dropEnd (s : String) (n : Nat) : String :=
  String.ofList (s.toList.take (s.toList.length - n))

/-- `c in s` for a single character. -/
def contains (s : String) (c : Char) : Bool := decide (c ∈ s.toList)

/-- `sub in s`. -/
def containsText (s sub : String) : Bool := decide (sub.toList <:+: s.toList)

/-- `s.lower()`, as far as the letters of ASCII go. -/
def lower (s : String) : String := String.ofList (s.toList.map Char.toLower)

/-- `c.isspace()`. -/
def isSpace (c : Char) : Bool :=
  let n := c.toNat
  decide (9 ≤ n ∧ n ≤ 13 ∨ 28 ≤ n ∧ n ≤ 32 ∨ n = 0x85 ∨ n = 0xA0 ∨ n = 0x1680 ∨
    0x2000 ≤ n ∧ n ≤ 0x200A ∨ n = 0x2028 ∨ n = 0x2029 ∨ n = 0x202F ∨ n = 0x205F ∨ n = 0x3000)

/-- `s.strip()`. -/
def strip (s : String) : String :=
  String.ofList ((s.toList.dropWhile isSpace).reverse.dropWhile isSpace).reverse

/-- `s.split(c)` for a single character. -/
def split (s : String) (c : Char) : List String := (s.toList.splitOn c).map String.ofList

/-- Split around the last occurrence of `c`. -/
def splitLast (c : Char) : List Char → Option (List Char × List Char)
  | [] => none
  | a :: rest =>
    match splitLast c rest with
    | some (x, y) => some (a :: x, y)
    | none => if a = c then some ([], rest) else none

/-- `s.rsplit(c, 1)` when it has two parts, that is when `c in s`. -/
def rsplit (s : String) (c : Char) : Option (String × String) :=
  (splitLast c s.toList).map fun xy => (String.ofList xy.1, String.ofList xy.2)

theorem startswith_iff (s p : String) : startswith s p = true ↔ ∃ t, s = p ++ t := by
  rw [startswith, List.isPrefixOf_iff_prefix]
  constructor
  · rintro ⟨t, ht⟩
    refine ⟨String.ofList t, String.toList_inj.mp ?_⟩
    rw [String.toList_append, String.toList_ofList, ht]
  · rintro ⟨t, rfl⟩
    exact ⟨t.toList, String.toList_append.symm⟩

theorem endswith_iff (s p : String) : endswith s p = true ↔ ∃ r, s = r ++ p := by
  rw [endswith, List.isSuffixOf_iff_suffix]
  constructor
  · rintro ⟨r, hr⟩
    refine ⟨String.ofList r, String.toList_inj.mp ?_⟩
    rw [String.toList_append, String.toList_ofList, hr]
  · rintro ⟨r, rfl⟩
    exact ⟨r.toList, String.toList_append.symm⟩

/-- Dropping a known suffix by its length leaves the front. -/
theorem dropEnd_append (r p : String) : dropEnd (r ++ p) p.toList.length = r := by
  apply String.toList_inj.mp
  simp [dropEnd]

/-- The parts of a split have no separator in them. -/
theorem not_mem_of_mem_splitOn {c : Char} {l part : List Char} (h : part ∈ l.splitOn c) :
    c ∉ part := by
  induction l generalizing part with
  | nil =>
    rw [List.splitOn_nil, List.mem_singleton] at h
    rw [h]
    exact List.not_mem_nil
  | cons a l ih =>
    rw [List.splitOn_cons_eq_if_modifyHead] at h
    by_cases ha : a = c
    · rw [if_pos (beq_iff_eq.mpr ha)] at h
      obtain rfl | h := List.mem_cons.mp h
      · exact List.not_mem_nil
      · exact ih h
    · rw [if_neg (mt beq_iff_eq.mp ha)] at h
      obtain ⟨first, parts, hparts⟩ := List.exists_cons_of_ne_nil (List.splitOn_ne_nil c l)
      rw [hparts, List.modifyHead_cons] at h
      obtain rfl | h := List.mem_cons.mp h
      · rw [List.mem_cons, not_or]
        exact ⟨Ne.symm ha, ih (hparts ▸ List.mem_cons_self)⟩
      · exact ih (hparts ▸ List.mem_cons_of_mem first h)

theorem not_mem_of_mem_split {s part : String} {c : Char} (h : part ∈ split s c) :
    c ∉ part.toList := by
  obtain ⟨l, hl, rfl⟩ := List.mem_map.mp h
  rw [String.toList_ofList]
  exact not_mem_of_mem_splitOn hl

/-- Splitting a joined list gives the list, unless that is empty. -/
theorem split_intercalate {parts : List String} {c : Char} (hne : parts ≠ [])
    (hparts : ∀ part ∈ parts, c ∉ part.toList) :
    split (c.toString.intercalate parts) c = parts := by
  have hsep : c.toString.toList = [c] := by simp
  rw [split, String.toList_intercalate, hsep,
    List.splitOn_intercalate c ?_ (by simpa using hne), List.map_map]
  · simp [Function.comp_def]
  · intro l hl
    obtain ⟨part, hpart, rfl⟩ := List.mem_map.mp hl
    exact hparts part hpart

theorem splitLast_append {c : Char} {l x y : List Char} (h : splitLast c l = some (x, y)) :
    l = x ++ c :: y := by
  induction l generalizing x with
  | nil => simp [splitLast] at h
  | cons a rest ih =>
    cases hs : splitLast c rest with
    | some xy =>
      obtain ⟨x', y'⟩ := xy
      simp only [splitLast, hs, Option.some.injEq, Prod.mk.injEq] at h
      obtain ⟨rfl, rfl⟩ := h
      rw [ih hs, List.cons_append]
    | none =>
      by_cases ha : a = c
      · simp only [splitLast, hs, if_pos ha, Option.some.injEq, Prod.mk.injEq] at h
        obtain ⟨rfl, rfl⟩ := h
        rw [ha, List.nil_append]
      · simp [splitLast, hs, ha] at h

/-- The two parts of a right split recompose the string. -/
theorem rsplit_append {s resource action : String} {c : Char}
    (h : rsplit s c = some (resource, action)) : s = resource ++ c.toString ++ action := by
  simp only [rsplit, Option.map_eq_some_iff, Prod.mk.injEq] at h
  obtain ⟨⟨x, y⟩, hxy, rfl, rfl⟩ := h
  apply String.toList_inj.mp
  simp [splitLast_append hxy]

end RagEval.Lib.Text
