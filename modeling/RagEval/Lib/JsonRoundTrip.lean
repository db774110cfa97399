import Mathlib.Tactic.FinCases
import RagEval.Lib.JsonReader

/-!
# JSON text reads back

`json.dumps` with any separators that are blanks after the commas and the colons, and
`json.loads` of what it writes.

## Main definitions

- `Separators`, `dumpsWith` — the text of a value

## Main results

- `scanNumber_reprFloat` — a float in its text
- `loads_dumpsWith` — a value reads back from its text, up to the bits of its NaNs
-/

namespace RagEval.Lib.Json
open RagEval.Lib.Double

/-! ## Strings -/

theorem hexDigit?_digitChar {d : Nat} (h : d < 16) : hexDigit? (Nat.digitChar d) = some d := by
  have hall : ∀ d < 16, hexDigit? (Nat.digitChar d) = some d := by decide
  exact hall d h

theorem scanUnit_escapeUnit {n : Nat} (h : n < 0x10000) (rest : List Char) :
    scanUnit ((escapeUnit n).drop 2 ++ rest) = some (n, rest) := by
  have hdigit : ∀ m, hexDigit? (Nat.digitChar (m % 16)) = some (m % 16) := fun m =>
    hexDigit?_digitChar (Nat.mod_lt _ (by decide))
  simp only [escapeUnit, List.drop_succ_cons, List.drop_zero, List.cons_append, List.nil_append,
    scanUnit, hdigit, Option.bind_eq_bind, Option.bind_some, Option.some.injEq, Prod.mk.injEq,
    and_true]
  omega

/-- A character stands for itself, or its escape is read as it. -/
theorem scanEscape_cases (c : Char) :
    (c ≠ '"' ∧ c ≠ '\\' ∧ 32 ≤ c.toNat ∧ escapeChar c = [c]) ∨
      ∃ cs, escapeChar c = '\\' :: cs ∧ ∀ rest, scanEscape (cs ++ rest) = some (c, rest) := by
  by_cases hshort : c ∈ ['"', '\\', '\n', '\r', '\t', '\x0c', '\x08']
  · right
    simp only [List.mem_cons, List.not_mem_nil, or_false] at hshort
    rcases hshort with rfl | rfl | rfl | rfl | rfl | rfl | rfl
    all_goals exact ⟨_, rfl, fun rest => rfl⟩
  simp only [List.mem_cons, List.not_mem_nil, or_false, not_or] at hshort
  obtain ⟨h1, h2, h3, h4, h5, h6, h7⟩ := hshort
  rw [escapeChar, if_neg h1, if_neg h2, if_neg h3, if_neg h4, if_neg h5, if_neg h6, if_neg h7]
  by_cases hprintable : 32 ≤ c.toNat ∧ c.toNat ≤ 126
  · left
    exact ⟨h1, h2, hprintable.1, if_pos hprintable⟩
  right
  rw [if_neg hprintable]
  have hvalid : c.toNat < 0xd800 ∨ 0xdfff < c.toNat ∧ c.toNat < 0x110000 := c.valid
  by_cases hbasic : c.toNat < 0x10000
  · refine ⟨_, if_pos hbasic, fun rest => ?_⟩
    show (scanUnit ((escapeUnit c.toNat).drop 2 ++ rest)).bind _ = _
    rw [scanUnit_escapeUnit hbasic, Option.bind_some]
    show (if _ then _ else if _ then _ else _) = _
    rw [if_neg (by omega), if_neg (by omega), Char.ofNat_toNat]
  · refine ⟨_, if_neg hbasic, fun rest => ?_⟩
    have hhigh : 0xd800 + (c.toNat - 0x10000) / 1024 < 0x10000 := by omega
    have hlow : 0xdc00 + (c.toNat - 0x10000) % 1024 < 0x10000 := by omega
    have hcode : 0x10000 + (0xd800 + (c.toNat - 0x10000) / 1024 - 0xd800) * 1024 +
        (0xdc00 + (c.toNat - 0x10000) % 1024 - 0xdc00) = c.toNat := by omega
    show (scanUnit ((escapeUnit _).drop 2 ++ escapeUnit _ ++ rest)).bind _ = _
    rw [List.append_assoc, scanUnit_escapeUnit hhigh, Option.bind_some]
    show (if _ then scanLowSurrogate _ _ else _) = _
    rw [if_pos (by omega)]
    show (scanUnit ((escapeUnit _).drop 2 ++ rest)).bind _ = _
    rw [scanUnit_escapeUnit hlow, Option.bind_some]
    show (if _ then _ else _) = _
    rw [if_pos (by omega), hcode, Char.ofNat_toNat]

theorem scanChars_escape (cs rest : List Char) {n : Nat} (h : (escape cs).length < n) :
    scanChars n (escape cs ++ '"' :: rest) = some (cs, rest) := by
  induction cs generalizing n with
  | nil =>
    obtain ⟨n, rfl⟩ : ∃ m, n = m + 1 := ⟨n - 1, by omega⟩
    rfl
  | cons c cs ih =>
    obtain ⟨n, rfl⟩ : ∃ m, n = m + 1 := ⟨n - 1, by omega⟩
    rw [escape, List.flatMap_cons, ← escape, List.length_append] at h
    rw [escape, List.flatMap_cons, ← escape, List.append_assoc]
    obtain ⟨hquote, hbackslash, hprintable, hc⟩ | ⟨ds, hc, hread⟩ := scanEscape_cases c
    · rw [hc, List.length_singleton] at h
      rw [hc, List.singleton_append, scanChars, if_neg (not_lt.mpr hprintable), ih (by omega)]
      · rfl
      · exact hquote
      · exact hbackslash
    · rw [hc, List.length_cons] at h
      rw [hc, List.cons_append, scanChars, hread, Option.bind_eq_bind, Option.bind_some]
      dsimp only
      rw [ih (by omega)]
      rfl

/-- A printed string reads as itself. -/
theorem scanString_printStr (s : String) (rest : List Char) :
    scanString (escape s.toList ++ '"' :: rest) = some (s, rest) := by
  have hlen : (escape s.toList).length < (escape s.toList ++ '"' :: rest).length + 1 := by
    rw [List.length_append]
    omega
  rw [scanString, scanChars_escape _ _ hlen, Option.map_some]
  dsimp only
  rw [String.ofList_toList]

/-! ## Numbers -/

/-- The text after a number does not go on with it. -/
def EndsNumber (rest : List Char) : Prop :=
  ∀ c, rest.head? = some c → c.isDigit = false ∧ c ≠ '.' ∧ c ≠ 'e' ∧ c ≠ 'E'

theorem endsNumber_of_delimits {rest : List Char} (h : Delimits rest) : EndsNumber rest := by
  have hall : ∀ c ∈ [',', ']', '}'], c.isDigit = false ∧ c ≠ '.' ∧ c ≠ 'e' ∧ c ≠ 'E' := by
    simp
  exact fun c hc => hall c (h c hc)

theorem scanDigits_append {ds rest : List Char} (hds : ∀ c ∈ ds, c.isDigit = true)
    (hrest : ∀ c, rest.head? = some c → c.isDigit = false) :
    scanDigits (ds ++ rest) = (ds, rest) := by
  rw [scanDigits, List.takeWhile_append_of_pos hds, List.dropWhile_append_of_pos hds]
  cases rest with
  | nil => rw [List.takeWhile_nil, List.append_nil, List.dropWhile_nil]
  | cons c rest =>
    have hc : ¬c.isDigit = true := by
      rw [hrest c rfl]
      exact Bool.false_ne_true
    rw [List.takeWhile_cons_of_neg hc, List.append_nil, List.dropWhile_cons_of_neg hc]

/-- The integer part of a number in its shortest form. -/
structure IsWhole (whole : List Char) : Prop extends IsSignificand whole where
  shortest : ∀ rest, whole = '0' :: rest → rest = []

theorem scanWhole_append {whole rest : List Char} (h : IsWhole whole)
    (hrest : ∀ c, rest.head? = some c → c.isDigit = false) :
    scanWhole (whole ++ rest) = some (whole, rest) := by
  obtain ⟨c, ds, rfl⟩ := List.exists_cons_of_ne_nil h.ne_nil
  by_cases hc : c = '0'
  · subst hc
    rw [h.shortest ds rfl]
    rfl
  · have hdigit := h.digits c List.mem_cons_self
    have hscan := scanDigits_append h.digits hrest
    rw [List.cons_append] at hscan ⊢
    rw [scanWhole, if_pos hdigit, hscan]
    exact hc

/-- The parts of a printed number. -/
structure IsNumber (whole : List Char) (fraction exponent : Option (List Char)) (x : Int) :
    Prop where
  isWhole : IsWhole whole
  isFraction : ∀ f, fraction = some f → IsSignificand f
  isExponent : ∀ e, exponent = some e → ∃ negative ds, e = (if negative then '-' else '+') :: ds ∧
    IsSignificand ds ∧ x = signed negative (Nat.ofDigitChars 10 ds 0)
  noExponent : exponent = none → x = 0

section
variable {whole rest : List Char} {fraction exponent : Option (List Char)} {x : Int}

theorem scanFraction_append (hfraction : ∀ f, fraction = some f → IsSignificand f)
    (hrest : ∀ c, rest.head? = some c → c.isDigit = false ∧ c ≠ '.') :
    scanFraction (fractionText fraction ++ rest) = (fraction, rest) := by
  cases fraction with
  | none =>
    rw [fractionText, List.nil_append]
    unfold scanFraction
    split
    · exact absurd rfl (hrest '.' rfl).2
    · rfl
  | some f =>
    have hf := hfraction f rfl
    rw [fractionText, List.cons_append, scanFraction,
      scanDigits_append hf.digits fun c hc => (hrest c hc).1, if_neg hf.ne_nil]

theorem scanSign_ite (negative : Bool) (ds : List Char) :
    scanSign ((if negative then '-' else '+') :: ds) = (negative, ds) := by
  cases negative with
  | true => rfl
  | false => rfl

theorem scanExponent_append (h : IsNumber whole fraction exponent x) (hrest : EndsNumber rest) :
    scanExponent (exponentText exponent ++ rest) = (exponent.map fun _ => x, rest) := by
  cases hexp : exponent with
  | none =>
    rw [exponentText, List.nil_append, Option.map_none]
    cases rest with
    | nil => rfl
    | cons c rest =>
      obtain ⟨-, -, he, hE⟩ := hrest c rfl
      rw [scanExponent, if_neg (by simp [he, hE])]
  | some e =>
    obtain ⟨negative, ds, rfl, hds, hx⟩ := h.isExponent e hexp
    rw [exponentText, List.cons_append, List.cons_append, scanExponent, if_pos (.inl rfl),
      scanSign_ite]
    dsimp only
    rw [scanDigits_append hds.digits fun c hc => (hrest c hc).1, if_neg hds.ne_nil, hx]
    rfl

/-- The head of what follows the integer part of a number. -/
theorem head?_fraction_exponent (hrest : EndsNumber rest) {c : Char}
    (hc : (fractionText fraction ++ (exponentText exponent ++ rest)).head? = some c) :
    c.isDigit = false := by
  cases fraction with
  | some f =>
    obtain rfl := Option.some.inj hc
    rfl
  | none =>
    cases exponent with
    | some e =>
      obtain rfl := Option.some.inj hc
      rfl
    | none => exact (hrest c hc).1

theorem head?_exponent (hrest : EndsNumber rest) {c : Char}
    (hc : (exponentText exponent ++ rest).head? = some c) : c.isDigit = false ∧ c ≠ '.' := by
  cases exponent with
  | some e =>
    obtain rfl := Option.some.inj hc
    decide
  | none => exact ⟨(hrest c hc).1, (hrest c hc).2.1⟩

theorem scanMinus_append (negative : Bool) (h : IsWhole whole) (more : List Char) :
    scanMinus ((if negative then ['-'] else []) ++ (whole ++ more)) = (negative, whole ++ more) := by
  cases negative with
  | true => rfl
  | false =>
    obtain ⟨c, ds, rfl⟩ := List.exists_cons_of_ne_nil h.ne_nil
    have hne : c ≠ '-' := ne_of_isDigit (by decide) (h.digits c List.mem_cons_self)
    rw [if_neg (by decide), List.nil_append, List.cons_append, scanMinus]
    exact fun _ hcons => hne (List.cons.inj hcons).1

/-- A printed number reads as the value of its parts. -/
theorem scanNumber_append (negative : Bool) (h : IsNumber whole fraction exponent x)
    (hrest : EndsNumber rest) :
    scanNumber ((if negative then ['-'] else []) ++
        (whole ++ (fractionText fraction ++ (exponentText exponent ++ rest)))) =
      some (numberValue negative whole fraction (exponent.map fun _ => x), rest) := by
  rw [scanNumber, scanMinus_append negative h.isWhole]
  dsimp only
  rw [scanWhole_append h.isWhole fun c hc => head?_fraction_exponent hrest hc]
  dsimp only
  rw [scanFraction_append h.isFraction fun c hc => head?_exponent hrest hc]
  dsimp only
  rw [scanExponent_append h hrest]

end

/-- Digits of a number do not start with a zero, unless they are one. -/
theorem toDigits_shortest (n : Nat) : IsWhole (Nat.toDigits 10 n) := by
  refine ⟨⟨Nat.toDigits_ne_nil, isDigit_toDigits n⟩, ?_⟩
  induction n using Nat.strongRecOn with
  | ind n ih =>
    intro rest hrest
    by_cases hlt : n < 10
    · rw [Nat.toDigits_of_lt_base hlt] at hrest
      exact ((List.cons.inj hrest).2).symm
    · rw [Nat.toDigits_of_base_le (by decide) (not_lt.mp hlt)] at hrest
      obtain ⟨c, ds, hds⟩ := List.exists_cons_of_ne_nil (l := Nat.toDigits 10 (n / 10))
        Nat.toDigits_ne_nil
      rw [hds, List.cons_append, List.cons.injEq] at hrest
      obtain ⟨rfl, -⟩ := hrest
      -- what is before the last digit would be a zero
      have hnil := ih (n / 10) (Nat.div_lt_self (by omega) (by decide)) ds hds
      rw [hnil] at hds
      have hvalue := congrArg (fun cs => Nat.ofDigitChars 10 cs 0) hds
      simp only [Nat.ofDigitChars_ten_toDigits] at hvalue
      have hzero : Nat.ofDigitChars 10 ['0'] 0 = 0 := rfl
      rw [hzero] at hvalue
      omega

theorem printInt_eq (i : Int) :
    printInt i = (if decide (i < 0) then ['-'] else []) ++ Nat.toDigits 10 i.natAbs := by
  by_cases h : i < 0
  · rw [printInt, if_pos h, if_pos (decide_eq_true h), List.singleton_append]
  · rw [printInt, if_neg h, if_neg (by simpa using h), List.nil_append]

/-- A printed integer reads as itself. -/
theorem scanNumber_printInt (i : Int) {rest : List Char} (hrest : EndsNumber rest) :
    scanNumber (printInt i ++ rest) = some (.int i, rest) := by
  have hnumber : IsNumber (Nat.toDigits 10 i.natAbs) none none 0 :=
    ⟨toDigits_shortest _, fun _ h => absurd h.symm (Option.some_ne_none _),
      fun _ h => absurd h.symm (Option.some_ne_none _), fun _ => rfl⟩
  have hscan := scanNumber_append (decide (i < 0)) hnumber hrest
  rw [fractionText, exponentText, List.nil_append, List.nil_append, ← List.append_assoc,
    ← printInt_eq] at hscan
  rw [hscan, numberValue, if_pos ⟨rfl, rfl⟩, Nat.ofDigitChars_ten_toDigits]
  have hsigned : signed (decide (i < 0)) i.natAbs = i := by
    unfold signed
    simp only [decide_eq_true_eq]
    split_ifs <;> omega
  rw [hsigned]

/-- The first digit of a decimal is no zero, unless it is zero. -/
def Leads (ds : List Char) (k : Int) : Prop := (∀ rest, ds ≠ '0' :: rest) ∨ ds = ['0'] ∧ k = 0

theorem isWhole_of_leads {ds more : List Char} (h : IsSignificand ds) (hlead : ∀ rest, ds ≠ '0' :: rest)
    (hmore : ∀ c ∈ more, c.isDigit = true) : IsWhole (ds ++ more) := by
  obtain ⟨c, rest, rfl⟩ := List.exists_cons_of_ne_nil h.ne_nil
  refine ⟨⟨by simp, ?_⟩, ?_⟩
  · rw [List.forall_mem_append]
    exact ⟨h.digits, hmore⟩
  · intro tail htail
    rw [List.cons_append, List.cons.injEq] at htail
    exact absurd (congrArg (· :: rest) htail.1) (hlead rest)

/-- The parts of a formatted decimal. -/
theorem formatDecimal_parts {ds : List Char} {k : Int} (h : IsSignificand ds) (hlead : Leads ds k) :
    ∃ whole fraction exponent x,
      formatDecimal ds k = whole ++ (fractionText fraction ++ exponentText exponent) ∧
      IsNumber whole fraction exponent x ∧ (fraction ≠ none ∨ exponent ≠ none) := by
  have htake : ∀ n, ∀ c ∈ ds.take n, c.isDigit = true := fun n c hc =>
    h.digits c (List.mem_of_mem_take hc)
  have hdrop : ∀ n, ∀ c ∈ ds.drop n, c.isDigit = true := fun n c hc =>
    h.digits c (List.mem_of_mem_drop hc)
  have hpadded : IsSignificand (List.replicate (2 - (Nat.toDigits 10 k.natAbs).length) '0' ++
      Nat.toDigits 10 k.natAbs) :=
    IsSignificand.replicate_append ⟨Nat.toDigits_ne_nil, isDigit_toDigits _⟩ _
  have hexp : ∀ e, some ((if decide (k < 0) then '-' else '+') ::
      (List.replicate (2 - (Nat.toDigits 10 k.natAbs).length) '0' ++ Nat.toDigits 10 k.natAbs)) =
        some e → ∃ negative ds, e = (if negative then '-' else '+') :: ds ∧ IsSignificand ds ∧
          k = signed negative (Nat.ofDigitChars 10 ds 0) := by
    rintro e he
    refine ⟨decide (k < 0), _, (Option.some.inj he).symm, hpadded, ?_⟩
    rw [Nat.ofDigitChars_append, Nat.ofDigitChars_replicate_zero, Nat.mul_zero,
      Nat.ofDigitChars_ten_toDigits]
    unfold signed
    simp only [decide_eq_true_eq]
    split_ifs <;> omega
  have hone : IsWhole (ds.take 1) := by
    obtain ⟨c, rest, rfl⟩ := List.exists_cons_of_ne_nil h.ne_nil
    refine ⟨⟨by simp, htake 1⟩, fun rest' hrest' => ?_⟩
    exact ((List.cons.inj hrest').2).symm
  unfold formatDecimal
  split
  · refine ⟨ds.take 1, if ds.length ≤ 1 then none else some (ds.drop 1), some _, k, ?_,
      ⟨hone, ?_, hexp, fun h => absurd h (Option.some_ne_none _)⟩, .inr (by simp)⟩
    · simp only [decide_eq_true_eq]
      split <;> simp [fractionText, exponentText]
    · split
      · exact fun _ hf => absurd hf.symm (Option.some_ne_none _)
      · next hlong =>
        rintro f hf
        obtain rfl := Option.some.inj hf
        refine ⟨?_, hdrop 1⟩
        rw [ne_eq, List.drop_eq_nil_iff]
        exact hlong
  split
  · refine ⟨['0'], some (List.replicate (-k - 1).toNat '0' ++ ds), none, 0, ?_,
      ⟨⟨⟨by simp, by simp⟩, by simp⟩, ?_, fun _ h => absurd h.symm (Option.some_ne_none _), fun _ => rfl⟩, .inl (by simp)⟩
    · simp [fractionText, exponentText]
    · rintro f hf
      obtain rfl := Option.some.inj hf
      exact h.replicate_append _
  split
  · next hk hneg hlen =>
    refine ⟨ds ++ List.replicate ((k + 1).toNat - ds.length) '0', some ['0'], none, 0, ?_,
      ⟨?_, ?_, fun _ h => absurd h.symm (Option.some_ne_none _), fun _ => rfl⟩, .inl (by simp)⟩
    · simp [fractionText, exponentText]
    · rcases hlead with hlead | ⟨rfl, rfl⟩
      · exact isWhole_of_leads h hlead (isDigit_replicate _)
      · exact ⟨⟨by simp, by simp⟩, by simp⟩
    · rintro f hf
      obtain rfl := Option.some.inj hf
      exact ⟨by simp, by simp⟩
  · next hk hneg hlen =>
    refine ⟨ds.take (k + 1).toNat, some (ds.drop (k + 1).toNat), none, 0, ?_,
      ⟨?_, ?_, fun _ h => absurd h.symm (Option.some_ne_none _), fun _ => rfl⟩, .inl (by simp)⟩
    · simp [fractionText, exponentText]
    · refine ⟨⟨?_, htake _⟩, fun rest hrest => ?_⟩
      · simp only [ne_eq, List.take_eq_nil_iff, h.ne_nil, or_false]
        omega
      · rcases hlead with hlead | ⟨rfl, rfl⟩
        · obtain ⟨c, tail, rfl⟩ := List.exists_cons_of_ne_nil h.ne_nil
          obtain ⟨n, hn⟩ : ∃ n, (k + 1).toNat = n + 1 := ⟨k.toNat, by omega⟩
          rw [hn, List.take_succ_cons, List.cons.injEq] at hrest
          exact absurd (congrArg (· :: tail) hrest.1) (hlead tail)
        · exact absurd hlen (by decide)
    · rintro f hf
      obtain rfl := Option.some.inj hf
      refine ⟨?_, hdrop _⟩
      simp only [ne_eq, List.drop_eq_nil_iff]
      omega

/-- The value of the parts of a literal is the one it is read as. -/
theorem numberValue_eq {whole : List Char} {fraction exponent : Option (List Char)} {x : Int}
    (h : IsNumber whole fraction exponent x) (hfloat : fraction ≠ none ∨ exponent ≠ none)
    {negative : Bool} {bits : BitVec 64}
    (hread : readUnsigned negative (whole ++ fractionText fraction ++ exponentText exponent) =
      some bits) :
    numberValue negative whole fraction (exponent.map fun _ => x) = .float bits := by
  have hx : (exponent.map readInt).getD (some 0) = some x := by
    cases hexp : exponent with
    | none => rw [h.noExponent hexp]; rfl
    | some e =>
      obtain ⟨minus, ds, rfl, hds, hvalue⟩ := h.isExponent e hexp
      rw [Option.map_some, Option.getD_some, hvalue]
      have hnat := readNat_eq hds.ne_nil hds.digits
      cases minus with
      | true =>
        simp only [if_true, readInt, hnat]
        rfl
      | false =>
        simp only [Bool.false_eq_true, if_false, readInt, hnat]
        rfl
  have hdigits : ∀ c ∈ fractionDigits fraction, c.isDigit = true := by
    cases hf : fraction with
    | none => exact List.forall_mem_nil _
    | some f => exact (h.isFraction f hf).digits
  rw [readUnsigned_literal _ _ _ h.isWhole.ne_nil h.isWhole.digits hdigits hx, Option.some.injEq] at hread
  have hnone : ¬(fraction = none ∧ (exponent.map fun _ => x) = none) := by
    rw [Option.map_eq_none_iff]
    rintro ⟨hf, he⟩
    exact hfloat.elim (fun h => h hf) (fun h => h he)
  have hexponent : (exponent.map fun _ => x).getD 0 = x := by
    cases hexp : exponent with
    | none => exact (h.noExponent hexp).symm
    | some e => rfl
  rw [numberValue, if_neg hnone, hexponent, hread]

/-- The decimals of a double start with a digit other than zero, unless it is zero. -/
theorem leads_of_mem_decimalsAround {num den n : Nat} {cs : List Char} (hnum : 0 < num)
    (hden : 0 < den) (hn : 0 < n) (h : cs ∈ decimalsAround num den n) :
    ∃ ds k, cs = formatDecimal ds k ∧ IsSignificand ds ∧ Leads ds k := by
  obtain ⟨d, hd, rfl⟩ := mem_decimalsAround_iff.mp h
  have hpos : 0 < d := by
    obtain ⟨hlow, -⟩ := scaled_decade hnum hden n
    have hone : (1 : ℚ) ≤ 10 ^ ((n : Int) - 1) := one_le_zpow₀ (by norm_num) (by omega)
    have hscaled := scaled_div (b := 10) (by decide) num den (decimalExponent num den - n + 1)
    rw [Nat.cast_ofNat] at hscaled
    rw [← hscaled] at hlow
    have hle := hone.trans hlow
    rw [one_le_div (by positivity)] at hle
    have hle' := Nat.cast_le.mp hle
    have hbelow := (Nat.one_le_div_iff (by positivity)).mpr hle'
    omega
  unfold decimalText
  split
  · exact ⟨['1'], _, rfl, ⟨by simp, by simp⟩, .inl (by simp)⟩
  · refine ⟨_, _, rfl, (toDigits_shortest d).toIsSignificand, .inl fun rest hrest => ?_⟩
    have hnil := (toDigits_shortest d).shortest rest hrest
    rw [hnil] at hrest
    have hvalue := congrArg (fun cs => Nat.ofDigitChars 10 cs 0) hrest
    simp only [Nat.ofDigitChars_ten_toDigits] at hvalue
    have hzero : Nat.ofDigitChars 10 ['0'] 0 = 0 := rfl
    omega

theorem leads_of_mem_candidates {bits : BitVec 64} {m e : Int} (h : Num.ofFloat bits = .fin m e)
    {cs : List Char} (hcs : cs ∈ candidates bits) :
    ∃ ds k, cs = (if isNegative bits then ['-'] else []) ++ formatDecimal ds k ∧
      IsSignificand ds ∧ Leads ds k := by
  obtain ⟨unsigned, hmem, rfl⟩ := List.mem_map.mp hcs
  rw [magnitude_eq h] at hmem
  split at hmem
  · obtain rfl := List.mem_singleton.mp hmem
    exact ⟨['0'], 0, rfl, ⟨by simp, by simp⟩, .inr ⟨rfl, rfl⟩⟩
  · next hne =>
    obtain ⟨i, -, hmem⟩ := List.mem_flatMap.mp hmem
    obtain ⟨ds, k, rfl, hds, hlead⟩ := leads_of_mem_decimalsAround (Nat.pos_of_ne_zero hne)
      (by positivity) (Nat.succ_pos i) hmem
    exact ⟨ds, k, rfl, hds, hlead⟩

/-- A printed finite float reads as itself. -/
theorem scanNumber_reprFloat {bits : BitVec 64} {m e : Int} (h : Num.ofFloat bits = .fin m e)
    {rest : List Char} (hrest : EndsNumber rest) :
    scanNumber (reprFloat bits ++ rest) = some (.float bits, rest) := by
  obtain ⟨hmem, hread⟩ := readFloat_reprFloat h
  obtain ⟨ds, k, htext, hds, hlead⟩ := leads_of_mem_candidates h hmem
  obtain ⟨whole, fraction, exponent, x, hparts, hnumber, hfloat⟩ := formatDecimal_parts hds hlead
  rw [htext, readFloat_signed hds, hparts, ← List.append_assoc] at hread
  rw [htext, hparts, List.append_assoc, List.append_assoc, List.append_assoc,
    scanNumber_append _ hnumber hrest, numberValue_eq hnumber hfloat hread]

/-! ## Atoms -/

theorem scanAtom_word (w : Fin 6) (rest : List Char) :
    scanAtom ((Atom.word w).text ++ rest) = some ((Atom.word w).value, rest) := by
  fin_cases w <;> rfl

/-- A number is none of the words. -/
theorem scanAtom_number (negative : Bool) {c : Char} (hc : c.isDigit = true) (cs : List Char) :
    scanAtom ((if negative then ['-'] else []) ++ c :: cs) =
      scanNumber ((if negative then ['-'] else []) ++ c :: cs) := by
  -- a word starts with a letter, or with a minus before one
  have hfirst : ∀ w : Fin 6, (Atom.word w).text.head?.all (fun d => !d.isDigit) = true ∧
      ((Atom.word w).text.head? = some '-' → (Atom.word w).text.tail.head? = some 'I') := by
    decide
  have hnone : ((List.finRange 6).find? fun w =>
      (Atom.word w).text.isPrefixOf ((if negative then ['-'] else []) ++ c :: cs)) = none := by
    rw [List.find?_eq_none]
    rintro w - hpre
    rw [List.isPrefixOf_iff_prefix] at hpre
    obtain ⟨d, ds, hw⟩ := List.exists_cons_of_ne_nil (Atom.word w).text_chars.1
    obtain ⟨hdigit, hminus⟩ := hfirst w
    rw [hw] at hpre hdigit hminus
    cases negative with
    | true =>
      rw [if_pos rfl, List.singleton_append, List.cons_prefix_cons] at hpre
      obtain ⟨rfl, hpre⟩ := hpre
      cases ds with
      | nil => exact absurd (hminus rfl) (by simp)
      | cons e ds =>
        rw [List.cons_prefix_cons] at hpre
        obtain rfl : e = 'I' := Option.some.inj (hminus rfl)
        rw [← hpre.1] at hc
        exact absurd hc (by decide)
    | false =>
      rw [if_neg (by decide), List.nil_append, List.cons_prefix_cons] at hpre
      simp [hpre.1, hc] at hdigit
  rw [scanAtom, hnone]

theorem scanAtom_printInt (i : Int) {rest : List Char} (hrest : EndsNumber rest) :
    scanAtom (printInt i ++ rest) = some (.int i, rest) := by
  have hscan := scanNumber_printInt i hrest
  obtain ⟨c, ds, hds⟩ := List.exists_cons_of_ne_nil (l := Nat.toDigits 10 i.natAbs)
    Nat.toDigits_ne_nil
  have hc : c.isDigit = true := isDigit_toDigits i.natAbs c (by rw [hds]; exact List.mem_cons_self)
  rw [printInt_eq, hds, List.append_assoc, List.cons_append] at hscan ⊢
  rw [scanAtom_number _ hc, hscan]

theorem scanAtom_reprFloat {bits : BitVec 64} {m e : Int} (h : Num.ofFloat bits = .fin m e)
    {rest : List Char} (hrest : EndsNumber rest) :
    scanAtom (reprFloat bits ++ rest) = some (.float bits, rest) := by
  have hscan := scanNumber_reprFloat h hrest
  obtain ⟨ds, k, htext, hds, -⟩ := leads_of_mem_candidates h (readFloat_reprFloat h).1
  obtain ⟨c, cs, hcons, hc⟩ := formatDecimal_eq_cons hds k
  rw [htext, hcons, List.append_assoc, List.cons_append] at hscan ⊢
  rw [scanAtom_number _ hc, hscan]

/-- A float in its text, which is a word when it is not finite. -/
theorem scanAtom_printFloat (bits : BitVec 64) {rest : List Char} (hrest : EndsNumber rest) :
    scanAtom (printFloat bits ++ rest) = some (.float (unifyNaN bits), rest) := by
  rw [printFloat, unifyNaN]
  cases hbits : Num.ofFloat bits with
  | nan => exact scanAtom_word 3 rest
  | inf negative =>
    rw [bits_of_inf hbits]
    cases negative with
    | true => exact scanAtom_word 5 rest
    | false => exact scanAtom_word 4 rest
  | fin m e =>
    rw [if_neg (by simp)]
    exact scanAtom_reprFloat hbits hrest

/-! ## Values -/

/-- The separators of `json.dumps`, after their comma and colon. -/
structure Separators where
  item : List Char
  key : List Char
  blank : ∀ c ∈ item ++ key, isBlank c = true

/-- `separators=(",", ":")`. -/
def Separators.compact : Separators := ⟨[], [], by simp⟩

/-- The separators by default, `(", ", ": ")`. -/
def Separators.spaced : Separators := ⟨[' '], [' '], by simp [isBlank]⟩

variable (sep : Separators)

mutual
/-- The text of a value; the items of a list or a dict print with what closes it. -/
def printWith : Value → List Char
  | .none => "null".toList
  | .bool true => "true".toList
  | .bool false => "false".toList
  | .int i => printInt i
  | .float x => printFloat x
  | .str s => printStr s
  | .list [] => ['[', ']']
  | .list (v :: vs) => '[' :: (printWith v ++ printElements vs)
  | .dict [] => ['{', '}']
  | .dict ((k, v) :: kvs) =>
    '{' :: (printStr k ++ ':' :: (sep.key ++ (printWith v ++ printMembers kvs)))

def printElements : List Value → List Char
  | [] => [']']
  | v :: vs => ',' :: (sep.item ++ (printWith v ++ printElements vs))

def printMembers : List (String × Value) → List Char
  | [] => ['}']
  | (k, v) :: kvs =>
    ',' :: (sep.item ++ (printStr k ++ ':' :: (sep.key ++ (printWith v ++ printMembers kvs))))
end

/-- `json.dumps(v, separators=...)`. -/
def dumpsWith (v : Value) : String := String.ofList (printWith sep v)

/-- Without blanks what is printed with separators is compact. -/
theorem cons_append_congr (c : Char) {as bs as' bs' : List Char} (ha : as = as') (hb : bs = bs') :
    c :: ([] ++ (as ++ bs)) = c :: (as' ++ bs') := by
  rw [List.nil_append, ha, hb]

mutual
theorem printWith_compact : ∀ v : Value, printWith .compact v = printValue v
  | .none | .bool true | .bool false | .int _ | .float _ | .str _ => rfl
  | .list [] => rfl
  | .list (v :: vs) => cons_append_congr '[' (printWith_compact v) (printElements_compact vs)
  | .dict [] => rfl
  | .dict ((k, v) :: kvs) => congrArg (fun cs => '{' :: (printStr k ++ cs))
      (cons_append_congr ':' (printWith_compact v) (printMembers_compact kvs))

theorem printElements_compact : ∀ vs : List Value, printElements .compact vs = printRest vs
  | [] => rfl
  | v :: vs => cons_append_congr ',' (printWith_compact v) (printElements_compact vs)

theorem printMembers_compact : ∀ kvs : List (String × Value),
    printMembers .compact kvs = printItemsRest kvs
  | [] => rfl
  | (k, v) :: kvs => congrArg (fun cs => ',' :: (printStr k ++ cs))
      (cons_append_congr ':' (printWith_compact v) (printMembers_compact kvs))
end

theorem isBlank_of_isLiteralChar {c : Char} (h : IsLiteralChar c) : isBlank c = false := by
  have hall : ∀ d ∈ [' ', '\t', '\n', '\r'], ¬(d.isDigit = true ∨ d ∈ ['.', 'e', '+', '-']) := by
    simp
  rw [isBlank, Bool.eq_false_iff, ne_eq, List.contains_iff_mem]
  exact fun hc => hall c hc h

/-- The text of a value starts with no blank, nothing that closes a list or a dict, and no byte
order mark. -/
theorem printWith_eq_cons (v : Value) :
    ∃ c cs, printWith sep v = c :: cs ∧ isBlank c = false ∧ c ∉ [']', '}', '\ufeff'] := by
  have hliteral : ∀ {cs : List Char}, cs ≠ [] → IsLiteral cs →
      ∃ c ds, cs = c :: ds ∧ isBlank c = false ∧ c ∉ [']', '}', '\ufeff'] := by
    intro cs hne hcs
    obtain ⟨c, ds, rfl⟩ := List.exists_cons_of_ne_nil hne
    have hc := hcs c List.mem_cons_self
    have hall : ∀ d ∈ [']', '}', '\ufeff'], ¬(d.isDigit = true ∨ d ∈ ['.', 'e', '+', '-']) := by
      simp
    exact ⟨c, ds, rfl, isBlank_of_isLiteralChar hc, fun hmem => hall c hmem hc⟩
  cases v with
  | none => exact ⟨'n', _, rfl, rfl, by decide⟩
  | bool b =>
    cases b with
    | true => exact ⟨'t', _, rfl, rfl, by decide⟩
    | false => exact ⟨'f', _, rfl, rfl, by decide⟩
  | int i =>
    refine hliteral ?_ (isLiteral_printInt i)
    exact (Atom.int i).text_chars.1
  | float x =>
    show ∃ c cs, printFloat x = c :: cs ∧ _
    unfold printFloat
    split
    · exact ⟨'N', _, rfl, rfl, by decide⟩
    · exact ⟨'-', _, rfl, rfl, by decide⟩
    · exact ⟨'I', _, rfl, rfl, by decide⟩
    · exact hliteral (Atom.float x).text_chars.1 (isLiteral_reprFloat x)
  | str s => exact ⟨'"', _, rfl, rfl, by decide⟩
  | list vs =>
    cases vs with
    | nil => exact ⟨'[', _, rfl, rfl, by decide⟩
    | cons v vs => exact ⟨'[', _, rfl, rfl, by decide⟩
  | dict kvs =>
    cases kvs with
    | nil => exact ⟨'{', _, rfl, rfl, by decide⟩
    | cons kv kvs => exact ⟨'{', _, rfl, rfl, by decide⟩

theorem skipBlanks_append {blanks cs : List Char} {c : Char}
    (h : ∀ b ∈ blanks, isBlank b = true) (hc : isBlank c = false) :
    skipBlanks (blanks ++ c :: cs) = c :: cs := by
  rw [skipBlanks, List.dropWhile_append_of_pos h,
    List.dropWhile_cons_of_neg (by rw [hc]; exact Bool.false_ne_true)]

theorem skipBlanks_cons {c : Char} (cs : List Char) (hc : isBlank c = false) :
    skipBlanks (c :: cs) = c :: cs :=
  List.dropWhile_cons_of_neg (by rw [hc]; exact Bool.false_ne_true)

theorem skipBlanks_printWith {blanks : List Char} (h : ∀ b ∈ blanks, isBlank b = true) (v : Value)
    (more : List Char) : skipBlanks (blanks ++ (printWith sep v ++ more)) = printWith sep v ++ more := by
  obtain ⟨c, cs, hcons, hc, -⟩ := printWith_eq_cons sep v
  rw [hcons, List.cons_append, skipBlanks_append h hc]

/-- A value that opens with nothing reads as itself. -/
theorem scanValue_atom {v : Value} (hv : opening v = none) {rest : List Char} {n : Nat}
    (hrest : Delimits rest) :
    scanValue (n + 1) (printWith sep v ++ rest) = some (unifyNaNs v, rest) := by
  have hnumber := endsNumber_of_delimits hrest
  have hatom : scanAtom (printWith sep v ++ rest) = some (unifyNaNs v, rest) := by
    cases v with
    | none => exact scanAtom_word 0 rest
    | bool b =>
      cases b with
      | true => exact scanAtom_word 1 rest
      | false => exact scanAtom_word 2 rest
    | int i => exact scanAtom_printInt i hnumber
    | float x => exact scanAtom_printFloat x hnumber
    | str | list | dict => cases hv
  have hprint : printWith sep v = printValue v := by
    cases v with
    | none | int | float => rfl
    | bool b => cases b <;> rfl
    | str | list | dict => cases hv
  obtain ⟨a, ha, -⟩ := exists_atom hv
  obtain ⟨c, cs, hcons⟩ := List.exists_cons_of_ne_nil a.text_chars.1
  have hc : IsAtomChar c := a.text_chars.2 c (by rw [hcons]; exact List.mem_cons_self)
  rw [hprint, ha, hcons, List.cons_append] at hatom ⊢
  rw [scanValue, hatom]
  all_goals
    intro _ h
    obtain rfl := (List.cons.inj h).1
    exact hc (by decide)

/-- The elements of a list up to its closing bracket, those of a dict up to its closing brace. -/
def elementsText : List Value → List Char
  | [] => []
  | v :: vs => printWith sep v ++ printElements sep vs

def membersText : List (String × Value) → List Char
  | [] => []
  | (k, v) :: kvs => printStr k ++ ':' :: (sep.key ++ (printWith sep v ++ printMembers sep kvs))

theorem delimits_printElements (vs : List Value) (rest : List Char) :
    Delimits (printElements sep vs ++ rest) := by
  intro c hc
  cases vs with
  | nil => rw [← Option.some.inj hc]; decide
  | cons v vs => rw [← Option.some.inj hc]; decide

theorem delimits_printMembers (kvs : List (String × Value)) (rest : List Char) :
    Delimits (printMembers sep kvs ++ rest) := by
  intro c hc
  cases kvs with
  | nil => rw [← Option.some.inj hc]; decide
  | cons kv kvs => rw [← Option.some.inj hc]; decide

theorem keys_unifyNaNsItems (kvs : List (String × Value)) :
    (unifyNaNsItems kvs).map Prod.fst = kvs.map Prod.fst := by
  rw [unifyNaNsItems_eq_map, List.map_map]
  rfl

mutual
theorem scanValue_printWith : ∀ (v : Value), DistinctKeys v → ∀ {n : Nat} {rest : List Char},
    Delimits rest → 2 * (printWith sep v).length < n →
    scanValue n (printWith sep v ++ rest) = some (unifyNaNs v, rest)
  | .none, _, n, rest, hrest, hn => by
    obtain ⟨n, rfl⟩ : ∃ m, n = m + 1 := ⟨n - 1, by omega⟩
    exact scanValue_atom sep rfl hrest
  | .bool _, _, n, rest, hrest, hn => by
    obtain ⟨n, rfl⟩ : ∃ m, n = m + 1 := ⟨n - 1, by omega⟩
    exact scanValue_atom sep rfl hrest
  | .int _, _, n, rest, hrest, hn => by
    obtain ⟨n, rfl⟩ : ∃ m, n = m + 1 := ⟨n - 1, by omega⟩
    exact scanValue_atom sep rfl hrest
  | .float _, _, n, rest, hrest, hn => by
    obtain ⟨n, rfl⟩ : ∃ m, n = m + 1 := ⟨n - 1, by omega⟩
    exact scanValue_atom sep rfl hrest
  | .str s, _, n, rest, _, hn => by
    obtain ⟨n, rfl⟩ : ∃ m, n = m + 1 := ⟨n - 1, by omega⟩
    rw [printWith, printStr, List.cons_append, List.append_assoc, List.singleton_append, scanValue,
      scanString_printStr]
    rfl
  | .list [], _, n, rest, _, hn => by
    obtain ⟨n, rfl⟩ : ∃ m, n = m + 1 := ⟨n - 1, by omega⟩
    rfl
  | .list (v :: vs), hv, n, rest, _, hn => by
    obtain ⟨n, rfl⟩ : ∃ m, n = m + 1 := ⟨n - 1, by omega⟩
    have htext : printWith sep (.list (v :: vs)) = '[' :: elementsText sep (v :: vs) := rfl
    rw [htext, List.length_cons] at hn
    have helements := scanElements_elementsText (v :: vs) (by simp) hv n rest (by omega)
    obtain ⟨c, cs, hcons, hblank, hclose⟩ := printWith_eq_cons sep v
    have hskip : skipBlanks (elementsText sep (v :: vs) ++ rest) = elementsText sep (v :: vs) ++ rest := by
      rw [elementsText, hcons, List.cons_append, List.cons_append, skipBlanks_cons _ hblank]
    rw [htext, List.cons_append, scanValue, hskip]
    split
    · next more hmore =>
      rw [elementsText, hcons, List.cons_append, List.cons_append, List.cons.injEq] at hmore
      exact absurd hmore.1 fun h => hclose (by simp [h])
    · rw [helements]
      rfl
  | .dict [], _, n, rest, _, hn => by
    obtain ⟨n, rfl⟩ : ∃ m, n = m + 1 := ⟨n - 1, by omega⟩
    rfl
  | .dict ((k, v) :: kvs), hv, n, rest, _, hn => by
    obtain ⟨n, rfl⟩ : ∃ m, n = m + 1 := ⟨n - 1, by omega⟩
    have htext : printWith sep (.dict ((k, v) :: kvs)) = '{' :: membersText sep ((k, v) :: kvs) := rfl
    rw [htext, List.length_cons] at hn
    have hmembers := scanMembers_membersText ((k, v) :: kvs) (by simp) hv.2 n rest (by omega)
    have hskip : skipBlanks (membersText sep ((k, v) :: kvs) ++ rest) =
        membersText sep ((k, v) :: kvs) ++ rest := rfl
    have hnodup : (Dict.ofList (unifyNaNsItems ((k, v) :: kvs))).items =
        unifyNaNsItems ((k, v) :: kvs) := by
      apply Dict.items_ofList
      rw [keys_unifyNaNsItems]
      exact hv.1
    rw [htext, List.cons_append, scanValue, hskip]
    split
    · next more hmore => cases hmore
    · rw [hmembers, Option.map_some]
      dsimp only
      rw [hnodup]
      rfl

theorem scanElements_elementsText : ∀ (vs : List Value), vs ≠ [] → DistinctKeysList vs →
    ∀ (n : Nat) (rest : List Char), 2 * (elementsText sep vs).length + 1 < n →
    scanElements n (elementsText sep vs ++ rest) = some (unifyNaNsList vs, rest)
  | [], hne, _, n, rest, hn => absurd rfl hne
  | v :: vs, _, hvs, n, rest, hn => by
    obtain ⟨n, rfl⟩ : ∃ m, n = m + 1 := ⟨n - 1, by omega⟩
    rw [elementsText, List.length_append] at hn
    have hvalue := scanValue_printWith v hvs.1 (delimits_printElements sep vs rest) (n := n) (by omega)
    rw [elementsText, List.append_assoc, scanElements, hvalue, Option.bind_eq_bind, Option.bind_some]
    dsimp only
    match vs with
    | [] => rfl
    | w :: ws =>
      have htext : printElements sep (w :: ws) = ',' :: (sep.item ++ elementsText sep (w :: ws)) := rfl
      rw [htext, List.length_cons, List.length_append] at hn
      have helements := scanElements_elementsText (w :: ws) (by simp) hvs.2 n rest (by omega)
      have hskip : skipBlanks (sep.item ++ (elementsText sep (w :: ws) ++ rest)) =
          elementsText sep (w :: ws) ++ rest := by
        rw [elementsText, List.append_assoc]
        exact skipBlanks_printWith sep (fun b hb => sep.blank b (List.mem_append_left _ hb)) w _
      rw [htext, List.cons_append, List.append_assoc, skipBlanks_cons _ rfl]
      show (scanElements n (skipBlanks _)).bind _ = _
      rw [hskip, helements]
      rfl

theorem scanMembers_membersText : ∀ (kvs : List (String × Value)), kvs ≠ [] → DistinctKeysItems kvs →
    ∀ (n : Nat) (rest : List Char), 2 * (membersText sep kvs).length < n →
    scanMembers n (membersText sep kvs ++ rest) = some (unifyNaNsItems kvs, rest)
  | [], hne, _, n, rest, hn => absurd rfl hne
  | (k, v) :: kvs, _, hkvs, n, rest, hn => by
    obtain ⟨n, rfl⟩ : ∃ m, n = m + 1 := ⟨n - 1, by omega⟩
    rw [membersText, printStr] at hn
    simp only [List.length_append, List.length_cons] at hn
    have hvalue := scanValue_printWith v hkvs.1 (delimits_printMembers sep kvs rest) (n := n) (by omega)
    have hskip : skipBlanks (sep.key ++ (printWith sep v ++ (printMembers sep kvs ++ rest))) =
        printWith sep v ++ (printMembers sep kvs ++ rest) :=
      skipBlanks_printWith sep (fun b hb => sep.blank b (List.mem_append_right _ hb)) v _
    rw [membersText, printStr, List.cons_append, List.cons_append, List.append_assoc,
      List.append_assoc, List.singleton_append, List.cons_append, List.append_assoc,
      List.append_assoc, scanMembers, scanString_printStr, Option.bind_eq_bind, Option.bind_some]
    dsimp only
    rw [skipBlanks_cons _ rfl]
    show (scanValue n (skipBlanks _)).bind _ = _
    rw [hskip, hvalue, Option.bind_some]
    dsimp only
    match kvs with
    | [] => rfl
    | (k', w) :: ws =>
      have htext : printMembers sep ((k', w) :: ws) =
          ',' :: (sep.item ++ membersText sep ((k', w) :: ws)) := rfl
      rw [htext] at hn
      simp only [List.length_append, List.length_cons] at hn
      have hmembers := scanMembers_membersText ((k', w) :: ws) (by simp) hkvs.2 n rest (by omega)
      have hskip' : skipBlanks (sep.item ++ (membersText sep ((k', w) :: ws) ++ rest)) =
          membersText sep ((k', w) :: ws) ++ rest :=
        skipBlanks_append (fun b hb => sep.blank b (List.mem_append_left _ hb)) rfl
      rw [htext, List.cons_append, List.append_assoc, skipBlanks_cons _ rfl]
      show (scanMembers n (skipBlanks _)).bind _ = _
      rw [hskip', hmembers]
      rfl
end

/-- A value reads back from its text, whatever the separators. -/
theorem loads_dumpsWith {v : Value} (hv : DistinctKeys v) :
    loads (dumpsWith sep v) = some (unifyNaNs v) := by
  obtain ⟨c, cs, hcons, hc, hfirst⟩ := printWith_eq_cons sep v
  have hread := scanValue_printWith sep v hv delimits_nil
    (n := 2 * (printWith sep v).length + 1) (Nat.lt_succ_self _)
  rw [List.append_nil] at hread
  rw [loads, dumpsWith, String.toList_ofList]
  split
  · next more hmore =>
    rw [hcons, List.cons.injEq] at hmore
    exact absurd hmore.1 fun h => hfirst (by simp [h])
  · have hskip : skipBlanks (printWith sep v) = printWith sep v := by
      rw [hcons, skipBlanks_cons _ hc]
    rw [hskip, hread]
    rfl

end RagEval.Lib.Json
