import Mathlib.Data.List.Basic
import Mathlib.Data.String.Basic

/-!
# Regular expressions of an alternation of texts

Patterns `^(a|b|c)d` whose parts are rows of characters, an escaped character standing for itself.
The texts of an alternation survive being escaped, joined and read back.

## Main definitions

- `escape` — what a pattern has to say for a text to be meant
- `compile` — what a pattern says
- `isMatch` — a match at the start of a text

## Main result

- `isMatch_choices` — the pattern of escaped texts matches where one of these texts is
-/

namespace RagEval.Lib.Alternation

/-- The characters that `re.escape` puts a backslash before. -/
def escaped : List Char :=
  ['(', ')', '[', ']', '{', '}', '?', '*', '+', '-', '|', '^', '$', '\\', '.', '&', '~', '#', ' ',
   '\t', '\n', '\r', '\x0b', '\x0c']

/-- The characters that say something else than themselves in a pattern. -/
def special : List Char := ['.', '\\', '[', '{', '(', ')', '*', '+', '?', '^', '$', '|']

def escapeChar (c : Char) : List Char := if c ∈ escaped then ['\\', c] else [c]

/-- `re.escape`. -/
def escape (s : String) : String := String.ofList (s.toList.flatMap escapeChar)

/-- A symbol of a pattern: a character to be met, or one that says something else. -/
inductive Token where
  | char (c : Char)
  | operator (c : Char)

def tokenOf (c : Char) : Token := if c ∈ special then .operator c else .char c

/-- The symbols of a pattern, behind a backslash or not. A backslash before a letter or a digit is
a class or a reference, of which nothing is said here. -/
def tokens : Bool → List Char → Option (List Token)
  | backslash, [] => if backslash then none else some []
  | true, c :: s => if c.isAlphanum then none else (tokens false s).map (.char c :: ·)
  | false, c :: s => if c = '\\' then tokens true s else (tokens false s).map (tokenOf c :: ·)

/-- A match of `^(…|…)…`: one of the choices, and the rest behind it. -/
structure Compiled where
  choices : List (List Char)
  rest : List Char

/-- A choice, with a character before it. -/
def push (c : Char) : List (List Char) × List Token → List (List Char) × List Token
  | ([], s) => ([], s)
  | (choice :: choices, s) => ((c :: choice) :: choices, s)

/-- The choices of a group, behind its opening parenthesis, and what is behind the closing one. -/
def readGroup : List Token → Option (List (List Char) × List Token)
  | [] => none
  | .operator ')' :: s => some ([[]], s)
  | .operator '|' :: s => (readGroup s).map fun (choices, s) => ([] :: choices, s)
  | .operator _ :: _ => none
  | .char c :: s => (readGroup s).map (push c)

/-- A row of characters. -/
def readText : List Token → Option (List Char)
  | [] => some []
  | .operator _ :: _ => none
  | .char c :: s => (readText s).map (c :: ·)

/-- `re.compile`, of the patterns of this form. -/
def compile (pattern : String) : Option Compiled :=
  match tokens false pattern.toList with
  | some (.operator '^' :: .operator '(' :: s) => do
    let (choices, s) ← readGroup s
    let rest ← readText s
    return ⟨choices, rest⟩
  | _ => none

/-- `re.match`. -/
def isMatch (pattern s : String) : Bool :=
  (compile pattern).any fun re => re.choices.any fun choice =>
    (choice ++ re.rest).isPrefixOf s.toList

/-! ## Reading an escaped text -/

theorem mem_escaped_of_mem_special {c : Char} (h : c ∈ special) : c ∈ escaped := by
  have hall : special.all (· ∈ escaped) = true := by rfl
  simpa using List.all_eq_true.mp hall c h

theorem isAlphanum_of_mem_escaped {c : Char} (h : c ∈ escaped) : c.isAlphanum = false := by
  have hall : escaped.all (!·.isAlphanum) = true := by rfl
  simpa using List.all_eq_true.mp hall c h

/-- An escaped character is a character to be met. -/
theorem tokens_escapeChar (c : Char) (s : List Char) :
    tokens false (escapeChar c ++ s) = (tokens false s).map (.char c :: ·) := by
  rw [escapeChar]
  by_cases hc : c ∈ escaped
  · rw [if_pos hc]
    show tokens false ('\\' :: c :: s) = _
    rw [tokens, if_pos rfl, tokens, isAlphanum_of_mem_escaped hc, if_neg Bool.false_ne_true]
  · have hbackslash : c ≠ '\\' := fun h => hc (h ▸ by decide)
    have hspecial : c ∉ special := mt mem_escaped_of_mem_special hc
    rw [if_neg hc, List.singleton_append, tokens, if_neg hbackslash, tokenOf, if_neg hspecial]

theorem tokens_escape (text s : List Char) :
    tokens false (text.flatMap escapeChar ++ s) = (tokens false s).map (text.map .char ++ ·) := by
  induction text with
  | nil => simp
  | cons c text ih =>
    rw [List.flatMap_cons, List.append_assoc, tokens_escapeChar, ih, Option.map_map]
    rfl

/-- The symbols of texts with bars between them. -/
def bars (texts : List (List Char)) : List Token :=
  List.intercalate [.operator '|'] (texts.map fun text => text.map .char)

theorem tokens_join (texts : List (List Char)) (s : List Char) :
    tokens false (List.intercalate ['|'] (texts.map (·.flatMap escapeChar)) ++ s) =
      (tokens false s).map (bars texts ++ ·) := by
  induction texts with
  | nil => simp [bars]
  | cons text texts ih =>
    cases texts with
    | nil => simpa [bars] using tokens_escape text s
    | cons next texts =>
      have hbar (s : List Char) :
          tokens false ('|' :: s) = (tokens false s).map (.operator '|' :: ·) := rfl
      rw [List.map_cons, List.map_cons, List.intercalate_cons_cons, List.append_assoc,
        List.append_assoc, tokens_escape, List.singleton_append, hbar, ← List.map_cons, ih,
        Option.map_map, Option.map_map]
      simp [bars, List.intercalate_cons_cons, Function.comp_def]

/-- A text is read as part of the choice it begins. -/
theorem readGroup_text (text choice : List Char) {choices : List (List Char)} {s t : List Token}
    (h : readGroup s = some (choice :: choices, t)) :
    readGroup (text.map .char ++ s) = some ((text ++ choice) :: choices, t) := by
  induction text with
  | nil => exact h
  | cons c text ih =>
    rw [List.map_cons, List.cons_append, readGroup, ih]
    rfl

/-- Texts with bars between them are read as the choices of a group. -/
theorem readGroup_bars (text : List Char) (texts : List (List Char)) (s : List Token) :
    readGroup (bars (text :: texts) ++ .operator ')' :: s) = some (text :: texts, s) := by
  have hclose : readGroup (.operator ')' :: s) = some ([[]], s) := rfl
  induction texts generalizing text with
  | nil =>
    have htext := readGroup_text text [] hclose
    rw [List.append_nil] at htext
    simpa [bars] using htext
  | cons next texts ih =>
    have hnext : readGroup (.operator '|' :: (bars (next :: texts) ++ .operator ')' :: s)) =
        some ([] :: next :: texts, s) := by
      rw [readGroup, ih]
      rfl
    have htext := readGroup_text text [] hnext
    rw [List.append_nil] at htext
    simpa [bars, List.intercalate_cons_cons] using htext

/-- The choices of an alternation of texts: without texts there is the empty one. -/
def choicesOf (texts : List String) : List String := if texts.isEmpty then [""] else texts

theorem readGroup_choicesOf (texts : List String) (s : List Token) :
    readGroup (bars (texts.map String.toList) ++ .operator ')' :: s) =
      some ((choicesOf texts).map String.toList, s) := by
  cases texts with
  | nil => rfl
  | cons text texts => exact readGroup_bars _ _ s

/-- An alternation of escaped texts matches where one of the texts is, with the rest behind it. -/
theorem isMatch_choices (texts : List String) (tail s : String) (rest : List Char)
    (hrest : (tokens false tail.toList).bind readText = some rest) :
    isMatch ("^(" ++ "|".intercalate (texts.map escape) ++ ")" ++ tail) s =
      (choicesOf texts).any fun text => (text.toList ++ rest).isPrefixOf s.toList := by
  obtain ⟨ts, htail, hrest⟩ := Option.bind_eq_some_iff.mp hrest
  have hopen (s : List Char) : tokens false ("^(".toList ++ s) =
      (tokens false s).map ([.operator '^', .operator '('] ++ ·) := by
    show ((tokens false s).map (.operator '(' :: ·)).map (.operator '^' :: ·) = _
    rw [Option.map_map]
    rfl
  have hclose (s : List Char) : tokens false (")".toList ++ s) =
      (tokens false s).map (.operator ')' :: ·) := rfl
  have htexts : (texts.map escape).map String.toList =
      (texts.map String.toList).map (·.flatMap escapeChar) := by
    simp [escape]
  have hcompile : compile ("^(" ++ "|".intercalate (texts.map escape) ++ ")" ++ tail) =
      some ⟨(choicesOf texts).map String.toList, rest⟩ := by
    have htokens : tokens false
        ("^(" ++ "|".intercalate (texts.map escape) ++ ")" ++ tail).toList =
        some (.operator '^' :: .operator '(' ::
          (bars (texts.map String.toList) ++ .operator ')' :: ts)) := by
      rw [String.toList_append, String.toList_append, String.toList_append, List.append_assoc,
        List.append_assoc, hopen, String.toList_intercalate, htexts,
        show "|".toList = ['|'] from rfl, tokens_join, hclose, htail]
      rfl
    rw [compile, htokens]
    show (readGroup _ >>= _) = _
    rw [readGroup_choicesOf]
    show (readText ts >>= _) = _
    rw [hrest]
    rfl
  rw [isMatch, hcompile]
  simp [List.any_map, Function.comp_def]

end RagEval.Lib.Alternation
