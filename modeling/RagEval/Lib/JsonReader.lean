import RagEval.Lib.FloatRoundTrip
import RagEval.Lib.Json
import RagEval.Lib.Dict

/-!
# Reading JSON text

`json.loads`. A string that holds a lone surrogate is none of a `String`: the reader refuses it,
where Python would return it. An integer of more than 4300 digits and a nesting beyond the
recursion limit, which Python refuses, are read. Every scanner returns what it read and the text
after it; the nested ones are given twice the length of the text as fuel, which suffices.

## Main definitions

- `scanValue` — one value and what follows it
- `loads` — a whole text

## Main results

- `scanValue_fuel` — more fuel changes nothing
-/

namespace RagEval.Lib.Json
open RagEval.Lib.Double

/-! ## Scanners -/

def isBlank (c : Char) : Bool := [' ', '\t', '\n', '\r'].contains c

def skipBlanks (cs : List Char) : List Char := cs.dropWhile isBlank

def hexDigit? (c : Char) : Option Nat :=
  if c.isDigit then some (c.toNat - '0'.toNat)
  else if 'a' ≤ c ∧ c ≤ 'f' then some (c.toNat - 'a'.toNat + 10)
  else if 'A' ≤ c ∧ c ≤ 'F' then some (c.toNat - 'A'.toNat + 10)
  else none

/-- Four hexadecimal digits. -/
def scanUnit : List Char → Option (Nat × List Char)
  | a :: b :: c :: d :: rest => do
    let a ← hexDigit? a
    let b ← hexDigit? b
    let c ← hexDigit? c
    let d ← hexDigit? d
    some (4096 * a + 256 * b + 16 * c + d, rest)
  | _ => none

/-- The second unit of a pair of surrogates. -/
def scanLowSurrogate (high : Nat) : List Char → Option (Char × List Char)
  | '\\' :: 'u' :: rest => do
    let (low, rest) ← scanUnit rest
    if 0xdc00 ≤ low ∧ low ≤ 0xdfff then
      some (Char.ofNat (0x10000 + (high - 0xd800) * 1024 + (low - 0xdc00)), rest)
    else none
  | _ => none

/-- The escape after a backslash. -/
def scanEscape : List Char → Option (Char × List Char)
  | '"' :: rest => some ('"', rest)
  | '\\' :: rest => some ('\\', rest)
  | '/' :: rest => some ('/', rest)
  | 'b' :: rest => some ('\x08', rest)
  | 'f' :: rest => some ('\x0c', rest)
  | 'n' :: rest => some ('\n', rest)
  | 'r' :: rest => some ('\r', rest)
  | 't' :: rest => some ('\t', rest)
  | 'u' :: rest => do
    let (unit, rest) ← scanUnit rest
    if 0xd800 ≤ unit ∧ unit ≤ 0xdbff then scanLowSurrogate unit rest
    else if 0xdc00 ≤ unit ∧ unit ≤ 0xdfff then none
    else some (Char.ofNat unit, rest)
  | _ => none

/-- The characters of a string up to its closing quote. -/
def scanChars : Nat → List Char → Option (List Char × List Char)
  | 0, _ => none
  | _ + 1, [] => none
  | _ + 1, '"' :: rest => some ([], rest)
  | fuel + 1, '\\' :: rest => do
    let (c, rest) ← scanEscape rest
    let (cs, rest) ← scanChars fuel rest
    some (c :: cs, rest)
  | fuel + 1, c :: rest =>
    if c.toNat < 32 then none
    else do
      let (cs, rest) ← scanChars fuel rest
      some (c :: cs, rest)

/-- `scanstring`, after the opening quote. -/
def scanString (cs : List Char) : Option (String × List Char) :=
  (scanChars (cs.length + 1) cs).map fun (s, rest) => (String.ofList s, rest)

def scanDigits (cs : List Char) : List Char × List Char := (cs.takeWhile Char.isDigit, cs.dropWhile Char.isDigit)

/-- The integer part: a zero, or digits that start with none. -/
def scanWhole : List Char → Option (List Char × List Char)
  | '0' :: rest => some (['0'], rest)
  | c :: rest => if c.isDigit then some (scanDigits (c :: rest)) else none
  | [] => none

def scanFraction : List Char → Option (List Char) × List Char
  | '.' :: rest =>
    if (scanDigits rest).1 = [] then (none, '.' :: rest)
    else (some (scanDigits rest).1, (scanDigits rest).2)
  | cs => (none, cs)

def scanSign : List Char → Bool × List Char
  | '-' :: rest => (true, rest)
  | '+' :: rest => (false, rest)
  | cs => (false, cs)

/-- `n` or `-n`. -/
def signed (negative : Bool) (n : Nat) : Int := if negative then -n else n

def scanExponent : List Char → Option Int × List Char
  | [] => (none, [])
  | c :: rest =>
    if c = 'e' ∨ c = 'E' then
      let digits := scanDigits (scanSign rest).2
      if digits.1 = [] then (none, c :: rest)
      else (some (signed (scanSign rest).1 (Nat.ofDigitChars 10 digits.1 0)), digits.2)
    else (none, c :: rest)

/-- The value of a number; with neither fraction nor exponent it is an integer. -/
def numberValue (negative : Bool) (whole : List Char) (fraction : Option (List Char))
    (exponent : Option Int) : Value :=
  if fraction = none ∧ exponent = none then .int (signed negative (Nat.ofDigitChars 10 whole 0))
  else .float (ofDecimal negative (Nat.ofDigitChars 10 (whole ++ fractionDigits fraction) 0)
    (exponent.getD 0 - (fractionDigits fraction).length))

def scanMinus : List Char → Bool × List Char
  | '-' :: rest => (true, rest)
  | cs => (false, cs)

/-- `_match_number_unicode`. -/
def scanNumber (cs : List Char) : Option (Value × List Char) :=
  match scanWhole (scanMinus cs).2 with
  | none => none
  | some (whole, rest) =>
    let fraction := scanFraction rest
    let exponent := scanExponent fraction.2
    some (numberValue (scanMinus cs).1 whole fraction.1 exponent.1, exponent.2)

/-- A word, or else a number. -/
def scanAtom (cs : List Char) : Option (Value × List Char) :=
  match (List.finRange 6).find? fun w => (Atom.word w).text.isPrefixOf cs with
  | some w => some ((Atom.word w).value, cs.drop (Atom.word w).text.length)
  | none => scanNumber cs

mutual
/-- `scan_once`. -/
def scanValue : Nat → List Char → Option (Value × List Char)
  | 0, _ => none
  | _ + 1, '"' :: cs => (scanString cs).map fun (s, rest) => (.str s, rest)
  | fuel + 1, '[' :: cs =>
    match skipBlanks cs with
    | ']' :: rest => some (.list [], rest)
    | rest => (scanElements fuel rest).map fun (vs, rest) => (.list vs, rest)
  | fuel + 1, '{' :: cs =>
    match skipBlanks cs with
    | '}' :: rest => some (.dict [], rest)
    | rest => (scanMembers fuel rest).map fun (kvs, rest) => (.dict (Dict.ofList kvs).items, rest)
  | _ + 1, cs => scanAtom cs

/-- The elements of a list up to its closing bracket. -/
def scanElements : Nat → List Char → Option (List Value × List Char)
  | 0, _ => none
  | fuel + 1, cs => do
    let (v, rest) ← scanValue fuel cs
    match skipBlanks rest with
    | ']' :: rest => some ([v], rest)
    | ',' :: rest => do
      let (vs, rest) ← scanElements fuel (skipBlanks rest)
      some (v :: vs, rest)
    | _ => none

/-- The members of an object up to its closing brace. -/
def scanMembers : Nat → List Char → Option (List (String × Value) × List Char)
  | fuel + 1, '"' :: cs => do
    let (k, rest) ← scanString cs
    match skipBlanks rest with
    | ':' :: rest => do
      let (v, rest) ← scanValue fuel (skipBlanks rest)
      match skipBlanks rest with
      | '}' :: rest => some ([(k, v)], rest)
      | ',' :: rest => do
        let (kvs, rest) ← scanMembers fuel (skipBlanks rest)
        some ((k, v) :: kvs, rest)
      | _ => none
    | _ => none
  | _, _ => none
end

/-- `json.loads(s)`: none where it raises. -/
def loads (s : String) : Option Value :=
  match s.toList with
  | '\ufeff' :: _ => none
  | cs =>
    match scanValue (2 * cs.length + 1) (skipBlanks cs) with
    | some (v, rest) => if skipBlanks rest = [] then some v else none
    | none => none

/-! ## Every scanner moves on -/

theorem skipBlanks_length_le (cs : List Char) : (skipBlanks cs).length ≤ cs.length :=
  (List.dropWhile_sublist _).length_le

theorem scanUnit_length {cs rest : List Char} {n : Nat} (h : scanUnit cs = some (n, rest)) :
    rest.length + 4 = cs.length := by
  match cs, h with
  | a :: b :: c :: d :: cs, h =>
    simp only [scanUnit, Option.bind_eq_bind, Option.bind_eq_some_iff] at h
    obtain ⟨a, -, b, -, c, -, d, -, h⟩ := h
    rw [← (Prod.mk.inj (Option.some.inj h)).2]
    rfl
  | [], h | [_], h | [_, _], h | [_, _, _], h => cases h

theorem scanLowSurrogate_length {high : Nat} {cs rest : List Char} {c : Char}
    (h : scanLowSurrogate high cs = some (c, rest)) : rest.length < cs.length := by
  unfold scanLowSurrogate at h
  split at h
  · obtain ⟨⟨low, more⟩, hunit, h⟩ := Option.bind_eq_some_iff.mp h
    have := scanUnit_length hunit
    dsimp only at h
    split_ifs at h
    rw [← (Prod.mk.inj (Option.some.inj h)).2, List.length_cons, List.length_cons]
    omega
  · cases h

theorem scanEscape_length {cs rest : List Char} {c : Char} (h : scanEscape cs = some (c, rest)) :
    rest.length < cs.length := by
  unfold scanEscape at h
  split at h
  case h_9 more =>
    obtain ⟨⟨unit, more'⟩, hunit, h⟩ := Option.bind_eq_some_iff.mp h
    have := scanUnit_length hunit
    rw [List.length_cons]
    dsimp only at h
    split_ifs at h
    · have := scanLowSurrogate_length h
      omega
    · rw [← (Prod.mk.inj (Option.some.inj h)).2]
      omega
  case h_10 => cases h
  all_goals
    rw [← (Prod.mk.inj (Option.some.inj h)).2]
    exact Nat.lt_succ_self _

theorem scanChars_length {n : Nat} {cs s rest : List Char} (h : scanChars n cs = some (s, rest)) :
    rest.length < cs.length := by
  induction n, cs using scanChars.induct generalizing s with
  | case1 | case2 => cases h
  | case3 fuel more =>
    rw [← (Prod.mk.inj (Option.some.inj h)).2]
    exact Nat.lt_succ_self _
  | case4 fuel more ih =>
    obtain ⟨⟨c, more'⟩, hescape, h⟩ := Option.bind_eq_some_iff.mp h
    obtain ⟨⟨s', rest'⟩, hrest, h⟩ := Option.bind_eq_some_iff.mp h
    obtain rfl := (Prod.mk.inj (Option.some.inj h)).2
    have hlt := scanEscape_length hescape
    have hlt' := ih more' hrest
    rw [List.length_cons]
    omega
  | case5 fuel c more hquote hbackslash hcontrol =>
    rw [scanChars, if_pos hcontrol] at h
    · cases h
    · exact hquote
    · exact hbackslash
  | case6 fuel c more hquote hbackslash hcontrol ih =>
    rw [scanChars, if_neg hcontrol] at h
    · obtain ⟨⟨s', rest'⟩, hrest, h⟩ := Option.bind_eq_some_iff.mp h
      obtain rfl := (Prod.mk.inj (Option.some.inj h)).2
      have hlt := ih hrest
      rw [List.length_cons]
      omega
    · exact hquote
    · exact hbackslash

theorem scanString_length {cs rest : List Char} {s : String} (h : scanString cs = some (s, rest)) :
    rest.length < cs.length := by
  obtain ⟨⟨s', more⟩, hchars, h⟩ := Option.map_eq_some_iff.mp h
  rw [← (Prod.mk.inj h).2]
  exact scanChars_length hchars

theorem scanDigits_length (cs : List Char) : (scanDigits cs).2.length ≤ cs.length :=
  (List.dropWhile_sublist _).length_le

theorem scanWhole_length {cs whole rest : List Char} (h : scanWhole cs = some (whole, rest)) :
    rest.length < cs.length := by
  unfold scanWhole at h
  split at h
  · rw [← (Prod.mk.inj (Option.some.inj h)).2]
    exact Nat.lt_succ_self _
  · next c more _ =>
    split_ifs at h with hc
    rw [← (Prod.mk.inj (Option.some.inj h)).2, List.dropWhile_cons_of_pos hc, List.length_cons]
    exact Nat.lt_succ_of_le (scanDigits_length more)
  · cases h

theorem scanFraction_length (cs : List Char) : (scanFraction cs).2.length ≤ cs.length := by
  unfold scanFraction
  split
  · next rest =>
    split_ifs
    · exact le_rfl
    · exact (scanDigits_length rest).trans (Nat.le_succ _)
  · exact le_rfl

theorem scanSign_length (cs : List Char) : (scanSign cs).2.length ≤ cs.length := by
  unfold scanSign
  split
  · exact Nat.le_succ _
  · exact Nat.le_succ _
  · exact le_rfl

theorem scanExponent_length (cs : List Char) : (scanExponent cs).2.length ≤ cs.length := by
  unfold scanExponent
  split
  · exact le_rfl
  · next c rest =>
    split_ifs
    · dsimp only
      split_ifs
      · exact le_rfl
      · exact ((scanDigits_length _).trans (scanSign_length rest)).trans (Nat.le_succ _)
    · exact le_rfl

theorem scanMinus_length (cs : List Char) : (scanMinus cs).2.length ≤ cs.length := by
  unfold scanMinus
  split
  · exact Nat.le_succ _
  · exact le_rfl

theorem scanNumber_length {cs rest : List Char} {v : Value} (h : scanNumber cs = some (v, rest)) :
    rest.length < cs.length := by
  unfold scanNumber at h
  split at h
  · cases h
  · next whole more hwhole =>
    have hlt := scanWhole_length hwhole
    have hminus := scanMinus_length cs
    have hfraction := scanFraction_length more
    have hexponent := scanExponent_length (scanFraction more).2
    rw [← (Prod.mk.inj (Option.some.inj h)).2]
    omega

theorem scanAtom_length {cs rest : List Char} {v : Value} (h : scanAtom cs = some (v, rest)) :
    rest.length < cs.length := by
  unfold scanAtom at h
  split at h
  · next w hw =>
    have hpre : (Atom.word w).text <+: cs := by
      simpa using List.find?_some hw
    have hle := hpre.length_le
    have hpos := List.length_pos_of_ne_nil (Atom.word w).text_chars.1
    rw [← (Prod.mk.inj (Option.some.inj h)).2, List.length_drop]
    omega
  · exact scanNumber_length h

theorem scan_length (n : Nat) :
    (∀ {cs rest v}, scanValue n cs = some (v, rest) → rest.length < cs.length) ∧
    (∀ {cs rest vs}, scanElements n cs = some (vs, rest) → rest.length < cs.length) ∧
    ∀ {cs rest kvs}, scanMembers n cs = some (kvs, rest) → rest.length < cs.length := by
  induction n with
  | zero =>
    refine ⟨fun h => ?_, fun h => ?_, fun h => ?_⟩
    · rw [scanValue] at h
      cases h
    · rw [scanElements] at h
      cases h
    · rw [scanMembers] at h
      · cases h
      · rintro _ _ ⟨⟩
  | succ n ih =>
    obtain ⟨ihvalue, ihelements, ihmembers⟩ := ih
    refine ⟨?_, ?_, ?_⟩
    · intro cs rest v h
      unfold scanValue at h
      split at h
      · cases h
      · obtain ⟨⟨s, more⟩, hs, h⟩ := Option.map_eq_some_iff.mp h
        rw [← (Prod.mk.inj h).2]
        exact (scanString_length hs).trans (Nat.lt_succ_self _)
      · next fuel tail hn =>
        obtain rfl := Nat.succ.inj hn
        have hle := skipBlanks_length_le tail
        split at h
        · next more hmore =>
          rw [hmore, List.length_cons] at hle
          rw [← (Prod.mk.inj (Option.some.inj h)).2, List.length_cons]
          omega
        · obtain ⟨⟨vs, more⟩, hvs, h⟩ := Option.map_eq_some_iff.mp h
          have hlt := ihelements hvs
          rw [← (Prod.mk.inj h).2, List.length_cons]
          omega
      · next fuel tail hn =>
        obtain rfl := Nat.succ.inj hn
        have hle := skipBlanks_length_le tail
        split at h
        · next more hmore =>
          rw [hmore, List.length_cons] at hle
          rw [← (Prod.mk.inj (Option.some.inj h)).2, List.length_cons]
          omega
        · obtain ⟨⟨kvs, more⟩, hkvs, h⟩ := Option.map_eq_some_iff.mp h
          have hlt := ihmembers hkvs
          rw [← (Prod.mk.inj h).2, List.length_cons]
          omega
      · exact scanAtom_length h
    · intro cs rest vs h
      rw [scanElements] at h
      obtain ⟨⟨v, more⟩, hv, h⟩ := Option.bind_eq_some_iff.mp h
      have hlt := ihvalue hv
      have hle := skipBlanks_length_le more
      dsimp only at h
      split at h
      · next more' hmore =>
        rw [hmore, List.length_cons] at hle
        rw [← (Prod.mk.inj (Option.some.inj h)).2]
        omega
      · next more' hmore =>
        rw [hmore, List.length_cons] at hle
        obtain ⟨⟨vs', rest'⟩, hvs, h⟩ := Option.bind_eq_some_iff.mp h
        dsimp only at h
        obtain rfl := (Prod.mk.inj (Option.some.inj h)).2
        have hlt' := ihelements hvs
        have hle' := skipBlanks_length_le more'
        omega
      · cases h
    · intro cs rest kvs h
      unfold scanMembers at h
      split at h
      · next fuel tail hn =>
        obtain rfl := Nat.succ.inj hn
        obtain ⟨⟨k, more⟩, hk, h⟩ := Option.bind_eq_some_iff.mp h
        have hlt := scanString_length hk
        have hle := skipBlanks_length_le more
        dsimp only at h
        split at h
        · next more' hmore =>
          rw [hmore, List.length_cons] at hle
          obtain ⟨⟨v, next⟩, hv, h⟩ := Option.bind_eq_some_iff.mp h
          have hlt' := ihvalue hv
          have hle' := skipBlanks_length_le more'
          have hle'' := skipBlanks_length_le next
          dsimp only at h
          split at h
          · next next' hnext =>
            rw [hnext, List.length_cons] at hle''
            rw [← (Prod.mk.inj (Option.some.inj h)).2, List.length_cons]
            omega
          · next next' hnext =>
            rw [hnext, List.length_cons] at hle''
            obtain ⟨⟨kvs', rest'⟩, hkvs, h⟩ := Option.bind_eq_some_iff.mp h
            dsimp only at h
            obtain rfl := (Prod.mk.inj (Option.some.inj h)).2
            have hlt'' := ihmembers hkvs
            have hle''' := skipBlanks_length_le next'
            rw [List.length_cons]
            omega
          · cases h
        · cases h
      · cases h

/-- Enough fuel reads the same as any more of it. -/
theorem scan_fuel (n : Nat) :
    (∀ {m cs}, 2 * cs.length < n → 2 * cs.length < m → scanValue n cs = scanValue m cs) ∧
    (∀ {m cs}, 2 * cs.length + 1 < n → 2 * cs.length + 1 < m →
      scanElements n cs = scanElements m cs) ∧
    ∀ {m cs}, 2 * cs.length < n → 2 * cs.length < m → scanMembers n cs = scanMembers m cs := by
  induction n with
  | zero => exact ⟨fun h => absurd h (by omega), fun h => absurd h (by omega),
      fun h => absurd h (by omega)⟩
  | succ n ih =>
    obtain ⟨ihvalue, ihelements, ihmembers⟩ := ih
    refine ⟨?_, ?_, ?_⟩
    · intro m cs hn hm
      obtain ⟨m, rfl⟩ : ∃ m', m = m' + 1 := ⟨m - 1, by omega⟩
      match cs with
      | [] => rfl
      | c :: cs =>
        rw [List.length_cons] at hn hm
        have hle := skipBlanks_length_le cs
        by_cases hquote : c = '"'
        · rw [hquote, scanValue, scanValue]
        by_cases hbracket : c = '['
        · rw [hbracket, scanValue, scanValue]
          split
          · rfl
          · rw [ihelements (m := m) (by omega) (by omega)]
        by_cases hbrace : c = '{'
        · rw [hbrace, scanValue, scanValue]
          split
          · rfl
          · rw [ihmembers (m := m) (by omega) (by omega)]
        · rw [scanValue, scanValue] <;> rintro _ ⟨⟩ <;> contradiction
    · intro m cs hn hm
      obtain ⟨m, rfl⟩ : ∃ m', m = m' + 1 := ⟨m - 1, by omega⟩
      rw [scanElements, scanElements, ihvalue (m := m) (by omega) (by omega)]
      refine Option.bind_congr fun ⟨v, rest⟩ hv => ?_
      have hlt := (scan_length m).1 hv
      have hle := skipBlanks_length_le rest
      dsimp only
      split
      · rfl
      · next more hmore =>
        rw [hmore, List.length_cons] at hle
        have hle' := skipBlanks_length_le more
        rw [ihelements (m := m) (by omega) (by omega)]
      · rfl
    · intro m cs hn hm
      obtain ⟨m, rfl⟩ : ∃ m', m = m' + 1 := ⟨m - 1, by omega⟩
      match cs with
      | [] => rfl
      | c :: cs =>
        rw [List.length_cons] at hn hm
        by_cases hquote : c = '"'
        · rw [hquote, scanMembers, scanMembers]
          refine Option.bind_congr fun ⟨k, rest⟩ hk => ?_
          have hlt := scanString_length hk
          have hle := skipBlanks_length_le rest
          dsimp only
          split
          · next more hmore =>
            rw [hmore, List.length_cons] at hle
            have hle' := skipBlanks_length_le more
            rw [ihvalue (m := m) (by omega) (by omega)]
            refine Option.bind_congr fun ⟨v, next⟩ hv => ?_
            have hlt' := (scan_length m).1 hv
            have hle'' := skipBlanks_length_le next
            dsimp only
            split
            · rfl
            · next more' hmore' =>
              rw [hmore', List.length_cons] at hle''
              have hle''' := skipBlanks_length_le more'
              rw [ihmembers (m := m) (by omega) (by omega)]
            · rfl
          · rfl
        · rw [scanMembers, scanMembers] <;> rintro _ _ ⟨⟩ <;> rintro ⟨⟩ <;> contradiction

theorem scanValue_fuel {n : Nat} {cs : List Char} (h : 2 * cs.length < n) :
    scanValue n cs = scanValue (2 * cs.length + 1) cs :=
  (scan_fuel n).1 h (Nat.lt_succ_self _)

end RagEval.Lib.Json
