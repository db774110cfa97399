import Mathlib.Data.List.Basic
import RagEval.Lib.Value

/-!
# Texts with lone surrogates

A Python text is a list of code points, and those of surrogates may stand alone in it. Such a
text has no UTF-8 encoding; the others are the strings.
-/

namespace RagEval.Lib

abbrev CodePoints := List Nat

/-- The text has a UTF-8 encoding. -/
def encodable (text : CodePoints) : Bool := text.all fun c => !(0xD800 ≤ c && c ≤ 0xDFFF)

def codePoints (s : String) : CodePoints := s.toList.map Char.toNat

theorem encodable_codePoints (s : String) : encodable (codePoints s) = true := by
  rw [encodable, codePoints, List.all_map, List.all_eq_true]
  intro c _
  have hvalid : c.toNat < 0xD800 ∨ (0xDFFF < c.toNat ∧ c.toNat < 0x110000) := c.valid
  simp only [Function.comp_apply, Bool.not_eq_true', Bool.and_eq_false_iff, decide_eq_false_iff_not]
  omega

/-- `text.encode()`, as the string that the bytes spell. -/
def encodeUtf8 (text : CodePoints) : Except PyError String :=
  if encodable text then .ok (String.ofList (text.map Char.ofNat))
  else .error (.valueError "'utf-8' codec can't encode character: surrogates not allowed")

/-- A string is encoded as itself. -/
theorem encodeUtf8_codePoints (s : String) : encodeUtf8 (codePoints s) = .ok s := by
  rw [encodeUtf8, if_pos (encodable_codePoints s)]
  have hchars : s.toList.map (fun c => Char.ofNat c.toNat) = s.toList := by
    simp
  simp only [codePoints, List.map_map, Function.comp_def, hchars, String.ofList_toList]

theorem encodeUtf8_ok_iff {text : CodePoints} :
    (∃ s, encodeUtf8 text = .ok s) ↔ encodable text = true := by
  rw [encodeUtf8]
  split <;> simp_all

end RagEval.Lib
