import RagEval.Lib.Regex
import RagEval.Workflows.NodeSafety

/-!
# Redaction of personal data

The three substitutions of `OutputGuardrailNode._redact_pii`, with the regular expressions they
are made by. What a substitution puts into a text stands between brackets, which no match of any
of the three crosses, so the later substitutions undo nothing of the earlier ones.

## Main definitions

- `emailRe`, `phoneRe`, `ssnRe` — the patterns of the source, piece by piece
- `Runtime.Substitutes` — `re.sub` on these patterns
- `HasPii` — a text with a match of one of them

## Main results

- `not_contains_redactPii` — nothing is left to redact
- `redactPii_eq_self_iff` — redaction shows exactly where there was something to redact
-/

namespace RagEval.Workflows
open RagEval.Lib RagEval.Lib.Regex

namespace OutputGuardrailNode
variable (t : CharTable)

/-- `emailPattern`; the last class has the `|` of the source in it. -/
def emailRe : Pattern Char where
  pieces := [.atLeast 1 (alnumOr ['.', '_', '%', '+', '-']), .one (· == '@'),
    .atLeast 1 (alnumOr ['.', '-']), .one (· == '.'), .atLeast 2 (letterOr ['|'])]
  consumes := ⟨_, List.mem_cons_self, Nat.one_pos⟩

/-- `phonePattern`. -/
def phoneRe : Pattern Char where
  pieces := [.exactly 3 t.digit, .optional (· ∈ ['-', '.']), .exactly 3 t.digit,
    .optional (· ∈ ['-', '.']), .exactly 4 t.digit]
  consumes := ⟨_, List.mem_cons_self, Nat.succ_pos 2⟩

/-- `ssnPattern`. -/
def ssnRe : Pattern Char where
  pieces := [.exactly 3 t.digit, .one (· == '-'), .exactly 2 t.digit, .one (· == '-'),
    .exactly 4 t.digit]
  consumes := ⟨_, List.mem_cons_self, Nat.succ_pos 2⟩

/-- The patterns as the source writes them and as they are read. -/
def piiPatterns : List (String × Pattern Char) :=
  [(emailPattern, emailRe), (phonePattern, phoneRe t), (ssnPattern, ssnRe t)]

theorem email_mem : (emailPattern, emailRe) ∈ piiPatterns t := List.mem_cons_self

theorem phone_mem : (phonePattern, phoneRe t) ∈ piiPatterns t :=
  List.mem_cons_of_mem _ List.mem_cons_self

theorem ssn_mem : (ssnPattern, ssnRe t) ∈ piiPatterns t :=
  List.mem_cons_of_mem _ (List.mem_cons_of_mem _ List.mem_cons_self)

/-- The text has a match of one of the patterns. -/
def HasPii (text : String) : Prop :=
  ∃ re ∈ piiPatterns t, Contains t.word re.2 text.toList

end OutputGuardrailNode

/-- `re.sub` replaces the matches of the patterns by a text without escapes. -/
def Runtime.Substitutes (rt : Runtime) (t : CharTable) : Prop :=
  ∀ re ∈ OutputGuardrailNode.piiPatterns t, ∀ repl text : String, '\\' ∉ repl.toList →
    rt.sub re.1 repl text = Regex.sub t.word re.2 (fun _ => repl) text

namespace OutputGuardrailNode
variable {t : CharTable}

/-- A label stands between two brackets and has nothing to redact in it. -/
structure Label (repl : String) (inner : List Char) : Prop where
  toList_eq : repl.toList = '[' :: inner ++ [']']
  no_escape : '\\' ∉ repl.toList
  plain : ∀ c ∈ inner, c.toNat < 128 ∧ c.isDigit = false ∧ c ≠ '@'

theorem label_email : Label "[EMAIL]" ['E', 'M', 'A', 'I', 'L'] :=
  ⟨by decide, by decide, by simp [Char.isDigit]⟩

theorem label_phone : Label "[PHONE]" ['P', 'H', 'O', 'N', 'E'] :=
  ⟨by decide, by decide, by simp [Char.isDigit]⟩

theorem label_ssn : Label "[SSN]" ['S', 'S', 'N'] :=
  ⟨by decide, by decide, by simp [Char.isDigit]⟩

/-- No match of the three patterns crosses a bracket. -/
theorem stop_bracket {re : String × Pattern Char} (hre : re ∈ piiPatterns t) {b : Char}
    (hb : b = '[' ∨ b = ']') : Stop t.word re.2 b := by
  have hascii : b.toNat < 128 := by obtain rfl | rfl := hb <;> decide
  have hword : t.word b = false :=
    t.word_eq_false hascii (by obtain rfl | rfl := hb <;> decide)
  have hdigit : t.digit b = false :=
    t.digit_eq_false hascii (by obtain rfl | rfl := hb <;> decide)
  have hdash : b ≠ '-' := by obtain rfl | rfl := hb <;> decide
  have hdot : b ≠ '.' := by obtain rfl | rfl := hb <;> decide
  refine ⟨hword, ?_⟩
  simp only [piiPatterns, List.mem_cons, List.not_mem_nil, or_false] at hre
  obtain rfl | rfl | rfl := hre
  · obtain rfl | rfl := hb <;>
      simp only [emailRe, List.forall_mem_cons, Piece.atLeast, Piece.one] <;> decide
  · simp [phoneRe, Piece.exactly, Piece.optional, hdigit, hdash, hdot]
  · simp [ssnRe, Piece.exactly, Piece.one, hdigit, hdash]

/-- A match of the three patterns has an `@` or a digit in it. -/
theorem Label.not_contains {repl : String} {inner : List Char} (h : Label repl inner)
    {re : String × Pattern Char} (hre : re ∈ piiPatterns t) : ¬Contains t.word re.2 inner := by
  have hdigit : ∀ c ∈ inner, t.digit c = false := by
    intro c hc
    obtain ⟨hascii, hdigit, -⟩ := h.plain c hc
    exact t.digit_eq_false hascii hdigit
  simp only [piiPatterns, List.mem_cons, List.not_mem_nil, or_false] at hre
  obtain rfl | rfl | rfl := hre
  · apply not_contains_of_forall (List.mem_cons_of_mem _ List.mem_cons_self) Nat.one_pos
    exact fun c hc => beq_eq_false_iff_ne.mpr (h.plain c hc).2.2
  · exact not_contains_of_forall List.mem_cons_self (Nat.succ_pos 2) hdigit
  · exact not_contains_of_forall List.mem_cons_self (Nat.succ_pos 2) hdigit

/-- Nothing that is put in has a match together with what is around it. -/
theorem Label.severs {repl : String} {inner : List Char} (h : Label repl inner)
    {re : String × Pattern Char} (hre : re ∈ piiPatterns t) :
    Severs t.word re.2 repl.toList [] [] := by
  rw [h.toList_eq]
  exact severs_of_bracketed (stop_bracket hre (.inl rfl)) (stop_bracket hre (.inr rfl))
    (h.not_contains hre)

/-! ## The three substitutions -/

section Substitutions
variable {rt : Runtime} (hrt : rt.Substitutes t)
include hrt

section One
variable {re : String × Pattern Char} (hre : re ∈ piiPatterns t) {repl : String}
  {inner : List Char} (hlabel : Label repl inner) (text : String)
include hre hlabel

theorem toList_sub : (rt.sub re.1 repl text).toList =
    (cut t.word re.2 text.toList).replace fun _ => repl.toList := by
  rw [hrt re hre repl text hlabel.no_escape, Regex.sub, String.toList_ofList]

/-- A substitution leaves no match of its pattern. -/
theorem not_contains_sub : ¬Contains t.word re.2 (rt.sub re.1 repl text).toList := by
  rw [toList_sub hrt hre hlabel]
  exact not_contains_replace_self fun _ _ => hlabel.severs hre

/-- A substitution brings in no match of the others. -/
theorem contains_of_contains_sub {re' : String × Pattern Char} (hre' : re' ∈ piiPatterns t)
    (h : Contains t.word re'.2 (rt.sub re.1 repl text).toList) :
    Contains t.word re'.2 text.toList := by
  rw [toList_sub hrt hre hlabel] at h
  exact contains_of_contains_replace (fun _ _ => hlabel.severs hre') h

theorem sub_of_not_contains (h : ¬Contains t.word re.2 text.toList) :
    rt.sub re.1 repl text = text := by
  apply String.toList_inj.mp
  rw [toList_sub hrt hre hlabel, replace_of_not_contains h]

end One

theorem not_hasPii_redactPii (text : String) : ¬HasPii t (redactPii rt text) := by
  rintro ⟨re, hre, hcontains⟩
  -- a match that is left was there after each of the substitutions
  have hafterPhone := contains_of_contains_sub hrt (ssn_mem t) label_ssn _ hre hcontains
  have hafterEmail := contains_of_contains_sub hrt (phone_mem t) label_phone _ hre hafterPhone
  have hcases := hre
  simp only [piiPatterns, List.mem_cons, List.not_mem_nil, or_false] at hcases
  obtain rfl | rfl | rfl := hcases
  · exact not_contains_sub hrt (email_mem t) label_email text hafterEmail
  · exact not_contains_sub hrt (phone_mem t) label_phone _ hafterPhone
  · exact not_contains_sub hrt (ssn_mem t) label_ssn _ hcontains

/-- Redaction leaves alone exactly the texts with nothing to redact. -/
theorem redactPii_eq_self_iff (text : String) : redactPii rt text = text ↔ ¬HasPii t text := by
  refine ⟨fun h hpii => not_hasPii_redactPii hrt text (h.symm ▸ hpii), fun h => ?_⟩
  have hnot : ∀ re ∈ piiPatterns t, ¬Contains t.word re.2 text.toList :=
    fun re hre hcontains => h ⟨re, hre, hcontains⟩
  rw [redactPii, sub_of_not_contains hrt (email_mem t) label_email text (hnot _ (email_mem t)),
    sub_of_not_contains hrt (phone_mem t) label_phone text (hnot _ (phone_mem t)),
    sub_of_not_contains hrt (ssn_mem t) label_ssn text (hnot _ (ssn_mem t))]

end Substitutions

/-- What a run reports of the redaction. -/
theorem wasModified_of_run {rt : Runtime} {inputData config out : Dict String Value}
    (h : run rt inputData config = .ok out) :
    ∃ answer redaction, getText inputData "answer" "text" = .ok answer ∧
      getItem (mergedConfig defaultConfig config) "pii_redaction" = .ok redaction ∧
      out.get? "filtered_answer" =
        some (.str (if redaction.truthy then redactPii rt answer else answer)) ∧
      out.get? "was_modified" = some (.bool
        (decide ((if redaction.truthy then redactPii rt answer else answer) ≠ answer))) := by
  rw [run] at h
  obtain ⟨answer, hanswer, h⟩ := bind_ok h
  obtain ⟨_, -, h⟩ := bind_ok h
  obtain ⟨_, -, h⟩ := bind_ok h
  obtain ⟨_, -, h⟩ := bind_ok h
  obtain ⟨_, -, h⟩ := bind_ok h
  obtain ⟨_, -, h⟩ := bind_ok h
  obtain ⟨redaction, hredaction, h⟩ := bind_ok h
  obtain rfl := Except.ok.inj h
  exact ⟨answer, redaction, mapError_ok hanswer, mapError_ok hredaction, rfl, rfl⟩

end OutputGuardrailNode

/-- `re.sub` on ASCII texts. -/
def substitutingRuntime : Runtime where
  toInterpreter := literalRuntime.toInterpreter
  str := literalRuntime.str
  compiles := literalRuntime.compiles
  search := literalRuntime.search
  sub pattern repl text :=
    match (OutputGuardrailNode.piiPatterns .ascii).lookup pattern with
    | some re => Regex.sub CharTable.ascii.word re (fun _ => repl) text
    | none => text
  draw := literalRuntime.draw
  mean := literalRuntime.mean

theorem substitutes_substitutingRuntime : substitutingRuntime.Substitutes .ascii := by
  intro re hre repl text _
  simp only [OutputGuardrailNode.piiPatterns, List.mem_cons, List.not_mem_nil, or_false] at hre
  obtain rfl | rfl | rfl := hre <;> rfl

end RagEval.Workflows
