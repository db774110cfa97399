import RagEval.Lib.HexInt
import RagEval.Lib.Value

/-!
# UUIDs

A `UUID` is its 32 hexadecimal digits. `UUID.str` writes them in the form
8-4-4-4-12; `UUID.parse` accepts any 32 characters that read as a hexadecimal integer, with
optional hyphens, braces and URN prefix, and reads back what `UUID.str` wrote.
-/

namespace RagEval.Lib

structure UUID where
  digits : List (Fin 16)
  length_digits : digits.length = 32
  deriving DecidableEq

namespace UUID

open HexInt (hexChar)

/-- There is a digit, so a number can be written for one. -/
instance neZero_digits : NeZero 16 := ⟨by decide⟩

/-- `str(uuid)`. -/
def str (u : UUID) : String :=
  let digits := u.digits.map hexChar
  String.ofList (digits.take 8 ++ '-' :: ((digits.drop 8).take 4 ++ '-' :: ((digits.drop 12).take 4 ++
    '-' :: ((digits.drop 16).take 4 ++ '-' :: digits.drop 20))))

/-- `text.replace(word, '')`; the counter skips the rest of a word just found. -/
def removeWord (word : List Char) : Nat → List Char → List Char
  | _, [] => []
  | skip + 1, _ :: xs => removeWord word skip xs
  | 0, x :: xs =>
    if word.isPrefixOf (x :: xs) then removeWord word (word.length - 1) xs
    else x :: removeWord word 0 xs

/-- The brackets `strip('{}')` takes off both ends. -/
def isBrace (c : Char) : Bool := c = '\x7b' || c = '\x7d'

/-- The characters left of a text: `'urn:'`, `'uuid:'`, the braces at both ends and the
hyphens are taken out. -/
def hex (text : String) : List Char :=
  (Split.trim isBrace
    (removeWord ['u', 'u', 'i', 'd', ':'] 0 (removeWord ['u', 'r', 'n', ':'] 0 text.toList))).filter
      (· ≠ '-')

/-- The UUID of an integer, given as its digits. -/
def ofInt (digits : List (Fin 16)) : Except PyError UUID :=
  if h : digits.length ≤ 32 then
    .ok ⟨List.replicate (32 - digits.length) 0 ++ digits, by simp [h]⟩
  else .error (.valueError "int is out of range (need a 128-bit value)")

/-- `UUID(text)`. -/
def parse (text : String) : Except PyError UUID :=
  if (hex text).length ≠ 32 then
    .error (.valueError "badly formed hexadecimal UUID string")
  else
    match HexInt.read (hex text) with
    | some digits => ofInt digits
    | none => .error (.valueError
        ("invalid literal for int() with base 16: '" ++ String.ofList (hex text) ++ "'"))

/-- A written digit is neither a hyphen, nor a brace, nor the first letter of a
removed word. -/
theorem hexChar_plain : ∀ d : Fin 16,
    hexChar d ≠ '-' ∧ isBrace (hexChar d) = false ∧ hexChar d ≠ 'u' := by
  decide

theorem removeWord_of_not_mem {c : Char} (rest : List Char) {cs : List Char} (h : c ∉ cs) :
    removeWord (c :: rest) 0 cs = cs := by
  induction cs with
  | nil => rfl
  | cons x xs ih =>
    simp only [List.mem_cons, not_or] at h
    have hp : (c :: rest).isPrefixOf (x :: xs) = false := by
      simp [List.isPrefixOf, h.1]
    simp only [removeWord, hp, Bool.false_eq_true, if_false, ih h.2]

theorem mem_str_toList {u : UUID} {c : Char} (h : c ∈ u.str.toList) :
    c = '-' ∨ ∃ d, c = hexChar d := by
  simp only [str, String.toList_ofList, List.mem_append, List.mem_cons] at h
  have hseg : ∀ {l : List (Fin 16)}, c ∈ l.map hexChar → ∃ d, c = hexChar d := by
    intro l hc
    obtain ⟨d, -, rfl⟩ := List.mem_map.mp hc
    exact ⟨d, rfl⟩
  simp only [← List.map_take, ← List.map_drop] at h
  rcases h with h | h | h | h | h | h | h | h | h
  all_goals first | exact Or.inl h | exact Or.inr (hseg h)

theorem filter_str (u : UUID) :
    u.str.toList.filter (· ≠ '-') = u.digits.map hexChar := by
  have hseg : ∀ l : List (Fin 16), (l.map hexChar).filter (· ≠ '-') = l.map hexChar := by
    intro l
    rw [List.filter_eq_self]
    intro c hc
    obtain ⟨d, -, rfl⟩ := List.mem_map.mp hc
    simpa using (hexChar_plain d).1
  simp only [str, String.toList_ofList, ← List.map_take, ← List.map_drop, List.filter_append,
    List.filter_cons, ne_eq, not_true, decide_false, Bool.false_eq_true, if_false]
  simp only [ne_eq] at hseg
  simp only [hseg, ← List.map_append]
  congr 1
  have hjoin : ∀ m : Nat, (u.digits.drop m).take 4 ++ u.digits.drop (m + 4) = u.digits.drop m := by
    intro m
    rw [← List.drop_drop, List.take_append_drop]
  rw [hjoin 16, hjoin 12, hjoin 8, List.take_append_drop]

/-- What is left of a written UUID is its digits. -/
theorem hex_str (u : UUID) : hex u.str = u.digits.map hexChar := by
  have hplain : ∀ c ∈ u.str.toList, isBrace c = false ∧ c ≠ 'u' := by
    intro c hc
    rcases mem_str_toList hc with rfl | ⟨d, rfl⟩
    · decide
    · exact (hexChar_plain d).2
  have hu : 'u' ∉ u.str.toList := fun hmem => (hplain _ hmem).2 rfl
  rw [hex, removeWord_of_not_mem _ hu, removeWord_of_not_mem _ hu,
    Split.trim_eq_self fun c hc => (hplain c hc).1, filter_str]

/-- Thirty-two digits are a UUID as they stand. -/
theorem ofInt_digits (u : UUID) : ofInt u.digits = .ok u := by
  obtain ⟨digits, h⟩ := u
  simp [ofInt, h]

/-- **Round trip**: the constructor reads back what `str` wrote. -/
theorem parse_str (u : UUID) : parse u.str = .ok u := by
  have hne : u.digits ≠ [] := by
    intro h
    simpa [h] using u.length_digits
  rw [parse, if_neg, hex_str, HexInt.read_hexChars hne]
  · exact ofInt_digits u
  · simp [hex_str, u.length_digits]

/-- The version `uuid4()` gives its results. -/
def version (u : UUID) : Fin 16 := u.digits.getD 12 0

end UUID

/-- A result of `uuid4()`. -/
structure UUID4 extends UUID where
  version_eq : toUUID.version = 4

end RagEval.Lib
