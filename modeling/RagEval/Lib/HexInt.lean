import Mathlib.Data.List.FinRange
import RagEval.Lib.Split
import RagEval.Lib.Text

/-!
# Hexadecimal integer literals

`int(text, 16)`, for a text without a minus sign, as the digits of the number. Beside plain
digits it takes white space around the number, a plus sign, the prefix `0x`, single
underscores between digits, and the decimal digits of every script.
-/

namespace RagEval.Lib.HexInt

open Text (isSpace)

def hexDigits : List Char :=
  ['0', '1', '2', '3', '4', '5', '6', '7', '8', '9', 'a', 'b', 'c', 'd', 'e', 'f']

def hexChar (d : Fin 16) : Char := hexDigits.getD d '0'

/-- A hexadecimal digit of either case. -/
def hexValue (c : Char) : Option (Fin 16) :=
  (List.finRange 16).find? fun d => hexChar d = c.toLower

/-- The code points of the zeros of Unicode 15.1; nine more digits follow each. -/
def decimalZeros : List Nat :=
  [0x660, 0x6f0, 0x7c0, 0x966, 0x9e6, 0xa66, 0xae6, 0xb66, 0xbe6, 0xc66, 0xce6, 0xd66, 0xde6,
    0xe50, 0xed0, 0xf20, 0x1040, 0x1090, 0x17e0, 0x1810, 0x1946, 0x19d0, 0x1a80, 0x1a90, 0x1b50,
    0x1bb0, 0x1c40, 0x1c50, 0xa620, 0xa8d0, 0xa900, 0xa9d0, 0xa9f0, 0xaa50, 0xabf0, 0xff10,
    0x104a0, 0x10d30, 0x11066, 0x110f0, 0x11136, 0x111d0, 0x112f0, 0x11450, 0x114d0, 0x11650,
    0x116c0, 0x11730, 0x118e0, 0x11950, 0x11c50, 0x11d50, 0x11da0, 0x11f50, 0x16a60, 0x16ac0,
    0x16b50, 0x1d7ce, 0x1d7d8, 0x1d7e2, 0x1d7ec, 0x1d7f6, 0x1e140, 0x1e2f0, 0x1e4f0, 0x1e950,
    0x1fbf0]

/-- The ASCII character a number's character stands for: a space for white space, the digit
for a decimal digit of any script. -/
def asciiChar (c : Char) : Char :=
  if c.toNat < 127 then c
  else if isSpace c then ' '
  else
    match decimalZeros.find? fun z => decide (z ≤ c.toNat ∧ c.toNat < z + 10) with
    | some z => Char.ofNat ('0'.toNat + (c.toNat - z))
    | none => '?'

/-- A text of ASCII characters is left as it is. -/
def toAscii (cs : List Char) : List Char :=
  if cs.all fun c => decide (c.toNat < 128) then cs else cs.map asciiChar

/-- The white space of C. -/
def isCSpace (c : Char) : Bool := decide (9 ≤ c.toNat ∧ c.toNat ≤ 13 ∨ c = ' ')

def dropSign : List Char → List Char
  | '+' :: cs => cs
  | cs => cs

/-- The prefix may end with an underscore. -/
def dropPrefix : List Char → List Char
  | '0' :: x :: cs =>
    if x = 'x' ∨ x = 'X' then
      match cs with
      | '_' :: rest => rest
      | _ => cs
    else '0' :: x :: cs
  | cs => cs

/-- Digits, with at most one underscore between one and the next. -/
def readDigits : List Char → Option (List (Fin 16))
  | [] => none
  | [c] => (hexValue c).map fun d => [d]
  | c :: '_' :: cs => do
    let d ← hexValue c
    let ds ← readDigits cs
    pure (d :: ds)
  | c :: c' :: cs => do
    let d ← hexValue c
    let ds ← readDigits (c' :: cs)
    pure (d :: ds)

/-- `int(text, 16)`. -/
def read (cs : List Char) : Option (List (Fin 16)) :=
  readDigits (dropPrefix (dropSign (Split.trim isCSpace (toAscii cs))))

theorem hexValue_hexChar : ∀ d : Fin 16, hexValue (hexChar d) = some d := by
  decide

/-- A written digit is an ASCII character that no other part of a number can be. -/
theorem hexChar_plain : ∀ d : Fin 16, (hexChar d).toNat < 128 ∧ isCSpace (hexChar d) = false ∧
    hexChar d ≠ '+' ∧ hexChar d ≠ 'x' ∧ hexChar d ≠ 'X' ∧ hexChar d ≠ '_' := by
  decide

theorem toAscii_hexChars (ds : List (Fin 16)) : toAscii (ds.map hexChar) = ds.map hexChar := by
  rw [toAscii, if_pos]
  simp only [List.all_map, List.all_eq_true, Function.comp_apply, decide_eq_true_eq]
  exact fun d _ => (hexChar_plain d).1

theorem trim_hexChars (ds : List (Fin 16)) :
    Split.trim isCSpace (ds.map hexChar) = ds.map hexChar := by
  refine Split.trim_eq_self fun c hc => ?_
  obtain ⟨d, -, rfl⟩ := List.mem_map.mp hc
  exact (hexChar_plain d).2.1

theorem dropSign_hexChars (ds : List (Fin 16)) : dropSign (ds.map hexChar) = ds.map hexChar := by
  cases ds with
  | nil => rfl
  | cons d ds => simp [dropSign, (hexChar_plain d).2.2.1]

theorem dropPrefix_hexChars (ds : List (Fin 16)) :
    dropPrefix (ds.map hexChar) = ds.map hexChar := by
  match ds with
  | [] => rfl
  | [d] => simp [dropPrefix]
  | d :: d' :: ds =>
    simp only [List.map_cons, dropPrefix]
    obtain ⟨-, -, -, hx, hX, -⟩ := hexChar_plain d'
    split <;> simp_all

theorem readDigits_hexChars {ds : List (Fin 16)} (h : ds ≠ []) :
    readDigits (ds.map hexChar) = some ds := by
  induction ds with
  | nil => exact absurd rfl h
  | cons d rest ih =>
    cases rest with
    | nil => simp [readDigits, hexValue_hexChar]
    | cons d' ds =>
      simp only [List.map_cons] at ih ⊢
      rw [readDigits, hexValue_hexChar, ih (by simp)]
      · rfl
      · exact fun h => (hexChar_plain d').2.2.2.2.2 h

/-- **Round trip**: written digits are read as themselves. -/
theorem read_hexChars {ds : List (Fin 16)} (h : ds ≠ []) : read (ds.map hexChar) = some ds := by
  rw [read, toAscii_hexChars, trim_hexChars, dropSign_hexChars, dropPrefix_hexChars,
    readDigits_hexChars h]

end RagEval.Lib.HexInt
