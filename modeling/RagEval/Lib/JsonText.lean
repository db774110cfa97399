import RagEval.Lib.FloatRepr

/-!
# Compact JSON text

`json.dumps` with separators `,` and `:` and everything beyond ASCII escaped, on the keys
in the order they stand.

## Main result

- `printValue_eq_iff` — values have one text when they are equal, up to the bits of their NaNs
-/

namespace RagEval.Lib.Json
open RagEval.Lib.Double

/-! ## Strings -/

/-- `\uXXXX`. -/
def escapeUnit (n : Nat) : List Char :=
  ['\\', 'u', Nat.digitChar (n / 4096 % 16), Nat.digitChar (n / 256 % 16),
    Nat.digitChar (n / 16 % 16), Nat.digitChar (n % 16)]

/-- A character within a string; beyond the basic plane as a pair of surrogates. -/
def escapeChar (c : Char) : List Char :=
  if c = '"' then ['\\', '"']
  else if c = '\\' then ['\\', '\\']
  else if c = '\n' then ['\\', 'n']
  else if c = '\r' then ['\\', 'r']
  else if c = '\t' then ['\\', 't']
  else if c = '\x0c' then ['\\', 'f']
  else if c = '\x08' then ['\\', 'b']
  else if 32 ≤ c.toNat ∧ c.toNat ≤ 126 then [c]
  else if c.toNat < 0x10000 then escapeUnit c.toNat
  else escapeUnit (0xd800 + (c.toNat - 0x10000) / 1024) ++
    escapeUnit (0xdc00 + (c.toNat - 0x10000) % 1024)

def escape (cs : List Char) : List Char := cs.flatMap escapeChar

def printStr (s : String) : List Char := '"' :: (escape s.toList ++ ['"'])

/-- The value of a hexadecimal digit. -/
def hexVal (c : Char) : Nat := "0123456789abcdef".toList.idxOf c

def readUnit : List Char → Option (Nat × List Char)
  | a :: b :: c :: d :: rest =>
    some (4096 * hexVal a + 256 * hexVal b + 16 * hexVal c + hexVal d, rest)
  | _ => none

/-- The first character of a string, and what follows it. -/
def readChar : List Char → Option (Char × List Char)
  | '\\' :: 'u' :: cs => do
    let (n, cs) ← readUnit cs
    if 0xd800 ≤ n ∧ n < 0xdc00 then
      let (m, cs) ← readUnit (cs.drop 2)
      some (Char.ofNat (0x10000 + (n - 0xd800) * 1024 + (m - 0xdc00)), cs)
    else some (Char.ofNat n, cs)
  | '\\' :: 'n' :: cs => some ('\n', cs)
  | '\\' :: 'r' :: cs => some ('\r', cs)
  | '\\' :: 't' :: cs => some ('\t', cs)
  | '\\' :: 'f' :: cs => some ('\x0c', cs)
  | '\\' :: 'b' :: cs => some ('\x08', cs)
  | '\\' :: c :: cs => some (c, cs)
  | c :: cs => some (c, cs)
  | [] => none

theorem hexVal_digitChar {d : Nat} (h : d < 16) : hexVal (Nat.digitChar d) = d := by
  have hall : ∀ d < 16, hexVal (Nat.digitChar d) = d := by decide
  exact hall d h

theorem readUnit_escapeUnit {n : Nat} (h : n < 0x10000) (rest : List Char) :
    readUnit ((escapeUnit n).drop 2 ++ rest) = some (n, rest) := by
  have hdigit : ∀ m, hexVal (Nat.digitChar (m % 16)) = m % 16 := fun m =>
    hexVal_digitChar (Nat.mod_lt _ (by decide))
  show some (_, rest) = some (n, rest)
  rw [hdigit, hdigit, hdigit, hdigit]
  congr 2
  omega

theorem readChar_plain {c : Char} (h : c ≠ '\\') (rest : List Char) :
    readChar (c :: rest) = some (c, rest) := by
  unfold readChar
  split <;> simp_all

theorem readChar_escapeUnit {n : Nat} (h : n < 0x10000) (rest : List Char) :
    readChar (escapeUnit n ++ rest) =
      if 0xd800 ≤ n ∧ n < 0xdc00 then (readUnit (rest.drop 2)).bind fun mr =>
        some (Char.ofNat (0x10000 + (n - 0xd800) * 1024 + (mr.1 - 0xdc00)), mr.2)
      else some (Char.ofNat n, rest) := by
  have hsplit : escapeUnit n ++ rest = '\\' :: 'u' :: ((escapeUnit n).drop 2 ++ rest) := rfl
  simp only [hsplit, readChar, readUnit_escapeUnit h, bind, Option.bind_some]

/-- A character stands for itself, or its escape begins with a backslash and reads as it. -/
theorem escapeChar_cases (c : Char) :
    (c ≠ '"' ∧ c ≠ '\\' ∧ escapeChar c = [c]) ∨
      ∃ cs, escapeChar c = '\\' :: cs ∧ ∀ rest, readChar ('\\' :: cs ++ rest) = some (c, rest) := by
  by_cases hshort : c ∈ ['"', '\\', '\n', '\r', '\t', '\x0c', '\x08']
  · right
    simp only [List.mem_cons, List.not_mem_nil, or_false] at hshort
    rcases hshort with rfl | rfl | rfl | rfl | rfl | rfl | rfl
    all_goals exact ⟨_, rfl, fun rest => rfl⟩
  simp only [List.mem_cons, List.not_mem_nil, or_false, not_or] at hshort
  obtain ⟨h1, h2, h3, h4, h5, h6, h7⟩ := hshort
  rw [escapeChar, if_neg h1, if_neg h2, if_neg h3, if_neg h4, if_neg h5, if_neg h6, if_neg h7]
  by_cases hprintable : 32 ≤ c.toNat ∧ c.toNat ≤ 126
  · left
    exact ⟨h1, h2, if_pos hprintable⟩
  right
  rw [if_neg hprintable]
  have hvalid : c.toNat < 0xd800 ∨ 0xdfff < c.toNat ∧ c.toNat < 0x110000 := c.valid
  by_cases hbasic : c.toNat < 0x10000
  · refine ⟨_, if_pos hbasic, fun rest => ?_⟩
    show readChar (escapeUnit c.toNat ++ rest) = some (c, rest)
    rw [readChar_escapeUnit hbasic, if_neg (by omega), Char.ofNat_toNat]
  · refine ⟨_, if_neg hbasic, fun rest => ?_⟩
    show readChar (escapeUnit (0xd800 + (c.toNat - 0x10000) / 1024) ++
      escapeUnit (0xdc00 + (c.toNat - 0x10000) % 1024) ++ rest) = some (c, rest)
    have hhigh : 0xd800 + (c.toNat - 0x10000) / 1024 < 0xdc00 := by omega
    have hlow : 0xdc00 + (c.toNat - 0x10000) % 1024 < 0x10000 := by omega
    have hcode : 0x10000 + (0xd800 + (c.toNat - 0x10000) / 1024 - 0xd800) * 1024 +
        (0xdc00 + (c.toNat - 0x10000) % 1024 - 0xdc00) = c.toNat := by omega
    rw [List.append_assoc, readChar_escapeUnit (by omega), if_pos ⟨by omega, hhigh⟩]
    show (readUnit ((escapeUnit _).drop 2 ++ rest)).bind _ = _
    rw [readUnit_escapeUnit hlow, Option.bind_some, hcode, Char.ofNat_toNat]

/-- An escaped character reads as itself. -/
theorem readChar_escapeChar (c : Char) (rest : List Char) :
    readChar (escapeChar c ++ rest) = some (c, rest) := by
  obtain ⟨-, hplain, hc⟩ | ⟨cs, hc, hread⟩ := escapeChar_cases c
  · rw [hc]
    exact readChar_plain hplain rest
  · rw [hc]
    exact hread rest

/-- A closing quote is none of an escaped character. -/
theorem escapeChar_ne_quote (c : Char) (rest rest' : List Char) :
    escapeChar c ++ rest ≠ '"' :: rest' := by
  intro h
  obtain ⟨hquote, -, hc⟩ | ⟨cs, hc, -⟩ := escapeChar_cases c
  · rw [hc] at h
    exact hquote (List.cons.inj h).1
  · rw [hc] at h
    exact absurd (List.cons.inj h).1 (by decide)

/-- The closing quote tells where a string ends. -/
theorem escape_injective {cs ds s t : List Char} (h : escape cs ++ '"' :: s = escape ds ++ '"' :: t) :
    cs = ds ∧ s = t := by
  induction cs generalizing ds with
  | nil =>
    cases ds with
    | nil => exact ⟨rfl, (List.cons.inj h).2⟩
    | cons d ds =>
      rw [escape, escape, List.flatMap_nil, List.flatMap_cons, List.append_assoc] at h
      exact absurd h.symm (escapeChar_ne_quote d _ _)
  | cons c cs ih =>
    cases ds with
    | nil =>
      rw [escape, escape, List.flatMap_nil, List.flatMap_cons, List.append_assoc] at h
      exact absurd h (escapeChar_ne_quote c _ _)
    | cons d ds =>
      rw [escape, escape, List.flatMap_cons, List.flatMap_cons, List.append_assoc,
        List.append_assoc] at h
      have hread := congrArg readChar h
      rw [readChar_escapeChar, readChar_escapeChar, Option.some.injEq, Prod.mk.injEq] at hread
      obtain ⟨rfl, hrest⟩ := hread
      obtain ⟨rfl, rfl⟩ := ih hrest
      exact ⟨rfl, rfl⟩

theorem printStr_injective {a b : String} {s t : List Char} (h : printStr a ++ s = printStr b ++ t) :
    a = b ∧ s = t := by
  simp only [printStr, List.cons_append, List.append_assoc, List.cons.injEq, true_and] at h
  obtain ⟨hab, rfl⟩ := escape_injective h
  exact ⟨String.toList_inj.mp hab, rfl⟩

/-! ## Atoms -/

/-- `int.__repr__`. -/
def printInt (i : Int) : List Char :=
  if i < 0 then '-' :: Nat.toDigits 10 i.natAbs else Nat.toDigits 10 i.natAbs

/-- A float, which JSON has no text for when it is not finite. -/
def printFloat (bits : BitVec 64) : List Char :=
  match Num.ofFloat bits with
  | .nan => "NaN".toList
  | .inf true => "-Infinity".toList
  | .inf false => "Infinity".toList
  | .fin _ _ => reprFloat bits

/-- The words of JSON text. -/
def words : List String := ["null", "true", "false", "NaN", "Infinity", "-Infinity"]

/-- What is printed without quotes or brackets. -/
inductive Atom where
  | word (w : Fin 6)
  | int (i : Int)
  | float (bits : BitVec 64)

def Atom.text : Atom → List Char
  | .word w => (words.get w).toList
  | .int i => printInt i
  | .float bits => reprFloat bits

theorem printInt_injective : Function.Injective printInt := by
  have hminus : ∀ n, '-' ∉ Nat.toDigits 10 n := fun n h => absurd (isDigit_toDigits n _ h) (by decide)
  intro i j h
  unfold printInt at h
  split_ifs at h
  · have := toDigits_injective (List.cons.inj h).2
    omega
  · exact absurd (h ▸ List.mem_cons_self ..) (hminus _)
  · exact absurd (h ▸ List.mem_cons_self ..) (hminus _)
  · have := toDigits_injective h
    omega

theorem isLiteral_printInt (i : Int) : IsLiteral (printInt i) := by
  unfold printInt
  split
  · exact .cons (.inr (by decide)) (isLiteral_of_isDigit (isDigit_toDigits _))
  · exact isLiteral_of_isDigit (isDigit_toDigits _)

theorem printInt_ne_reprFloat (i : Int) (bits : BitVec 64) : printInt i ≠ reprFloat bits := by
  have hchars : ∀ c ∈ printInt i, c.isDigit = true ∨ c = '-' := by
    intro c hc
    unfold printInt at hc
    split at hc
    · obtain rfl | hc := List.mem_cons.mp hc
      · exact .inr rfl
      · exact .inl (isDigit_toDigits _ c hc)
    · exact .inl (isDigit_toDigits _ c hc)
  intro h
  obtain hp | he := point_mem_reprFloat bits
  · exact absurd (hchars _ (h ▸ hp)) (by decide)
  · exact absurd (hchars _ (h ▸ he)) (by decide)

/-- A word has a character that no number has. -/
theorem not_isLiteral_word (w : Fin 6) : ¬IsLiteral (words.get w).toList := by
  have hall : ∀ w : Fin 6, (words.get w).toList.any
      (fun c => !c.isDigit && !(['.', 'e', '+', '-'].contains c)) = true := by
    decide
  obtain ⟨c, hc, hnot⟩ := List.any_eq_true.mp (hall w)
  intro h
  obtain hdigit | hsign := h c hc
  · simp [hdigit] at hnot
  · rw [Bool.and_eq_true, List.contains_iff_mem.mpr hsign] at hnot
    exact absurd hnot.2 Bool.false_ne_true

theorem Atom.text_injective : Function.Injective Atom.text := by
  have hint : ∀ w i, Atom.text (.word w) ≠ Atom.text (.int i) := fun w i h =>
    not_isLiteral_word w (by rw [show (words.get w).toList = printInt i from h]; exact isLiteral_printInt i)
  have hfloat : ∀ w x, Atom.text (.word w) ≠ Atom.text (.float x) := fun w x h =>
    not_isLiteral_word w
      (by rw [show (words.get w).toList = reprFloat x from h]; exact isLiteral_reprFloat x)
  intro a b h
  cases a with
  | word w =>
    cases b with
    | word w' =>
      have hall : ∀ w w' : Fin 6, (words.get w).toList = (words.get w').toList → w = w' := by decide
      rw [hall w w' h]
    | int j => exact absurd h (hint w j)
    | float y => exact absurd h (hfloat w y)
  | int i =>
    cases b with
    | word w => exact absurd h.symm (hint w i)
    | int j => rw [printInt_injective h]
    | float y => exact absurd h (printInt_ne_reprFloat i y)
  | float x =>
    cases b with
    | word w => exact absurd h.symm (hfloat w x)
    | int j => exact absurd h.symm (printInt_ne_reprFloat j x)
    | float y => rw [reprFloat_injective h]

/-! ## Values -/

mutual
/-- The text of a value; the items of a list or a dict print with what closes it. -/
def printValue : Value → List Char
  | .none => "null".toList
  | .bool true => "true".toList
  | .bool false => "false".toList
  | .int i => printInt i
  | .float x => printFloat x
  | .str s => printStr s
  | .list [] => ['[', ']']
  | .list (v :: vs) => '[' :: (printValue v ++ printRest vs)
  | .dict [] => ['{', '}']
  | .dict ((k, v) :: kvs) => '{' :: (printStr k ++ ':' :: (printValue v ++ printItemsRest kvs))

def printRest : List Value → List Char
  | [] => [']']
  | v :: vs => ',' :: (printValue v ++ printRest vs)

def printItemsRest : List (String × Value) → List Char
  | [] => ['}']
  | (k, v) :: kvs => ',' :: (printStr k ++ ':' :: (printValue v ++ printItemsRest kvs))
end

/-- One of the bit patterns of NaN. -/
def quietNaN : BitVec 64 := 0x7ff8000000000000

def unifyNaN (x : BitVec 64) : BitVec 64 := if Num.ofFloat x = .nan then quietNaN else x

mutual
/-- The value with one bit pattern for all its NaNs. -/
def unifyNaNs : Value → Value
  | .none => .none
  | .bool b => .bool b
  | .int i => .int i
  | .float x => .float (unifyNaN x)
  | .str s => .str s
  | .list vs => .list (unifyNaNsList vs)
  | .dict kvs => .dict (unifyNaNsItems kvs)

def unifyNaNsList : List Value → List Value
  | [] => []
  | v :: vs => unifyNaNs v :: unifyNaNsList vs

def unifyNaNsItems : List (String × Value) → List (String × Value)
  | [] => []
  | (k, v) :: kvs => (k, unifyNaNs v) :: unifyNaNsItems kvs
end

def Atom.value : Atom → Value
  | .word 0 => .none
  | .word 1 => .bool true
  | .word 2 => .bool false
  | .word 3 => .float quietNaN
  | .word 4 => .float 0x7ff0000000000000
  | .word 5 => .float 0xfff0000000000000
  | .int i => .int i
  | .float x => .float x

theorem bits_of_inf {x : BitVec 64} {negative : Bool} (h : Num.ofFloat x = .inf negative) :
    x = if negative then 0xfff0000000000000 else 0x7ff0000000000000 := by
  have hlt := x.isLt
  simp only [Num.ofFloat] at h
  split_ifs at h with hexp hfrac
  obtain rfl := Num.inf.inj h
  apply BitVec.eq_of_toNat_eq
  by_cases hneg : 2 ^ 63 ≤ x.toNat
  · simp only [hneg, decide_true, if_true]
    show x.toNat = 0xfff0000000000000
    omega
  · simp only [hneg, decide_false, Bool.false_eq_true, if_false]
    show x.toNat = 0x7ff0000000000000
    omega

/-- The character a string, a list or a dict opens with; other values are atoms. -/
def opening : Value → Option Char
  | .str _ => some '"'
  | .list _ => some '['
  | .dict _ => some '{'
  | .none | .bool _ | .int _ | .float _ => none

/-- Values that open with nothing print as atoms that tell what they are. -/
theorem exists_atom {v : Value} (h : opening v = none) :
    ∃ a : Atom, printValue v = a.text ∧ unifyNaNs v = a.value := by
  cases v with
  | none => exact ⟨.word 0, rfl, rfl⟩
  | bool b =>
    cases b with
    | true => exact ⟨.word 1, rfl, rfl⟩
    | false => exact ⟨.word 2, rfl, rfl⟩
  | int i => exact ⟨.int i, rfl, rfl⟩
  | float x =>
    have hprint : printValue (.float x) = printFloat x := rfl
    have hvalue : unifyNaNs (.float x) = .float (unifyNaN x) := rfl
    rw [hprint, hvalue, printFloat, unifyNaN]
    -- what is not finite has a word of its own
    cases hx : Num.ofFloat x with
    | nan => exact ⟨.word 3, rfl, rfl⟩
    | inf negative =>
      rw [bits_of_inf hx]
      cases negative with
      | true => exact ⟨.word 5, rfl, rfl⟩
      | false => exact ⟨.word 4, rfl, rfl⟩
    | fin m e => exact ⟨.float x, rfl, rfl⟩
  | str s => cases h
  | list vs => cases h
  | dict kvs => cases h

/-- A character that neither ends an atom nor starts a string, a list or a dict. -/
def IsAtomChar (c : Char) : Prop := c ∉ [',', ']', '}', '"', '[', '{']

/-- What may follow a value: nothing, or what ends an atom. -/
def Delimits (s : List Char) : Prop := ∀ c, s.head? = some c → c ∈ [',', ']', '}']

theorem isAtomChar_of_isLiteralChar {c : Char} (h : IsLiteralChar c) : IsAtomChar c := by
  have hall : ∀ d ∈ [',', ']', '}', '"', '[', '{'], ¬(d.isDigit = true ∨ d ∈ ['.', 'e', '+', '-']) := by
    simp
  exact fun hc => hall c hc h

theorem Atom.text_chars (a : Atom) : a.text ≠ [] ∧ ∀ c ∈ a.text, IsAtomChar c := by
  cases a with
  | word w =>
    have hall : ∀ w : Fin 6, (words.get w).toList ≠ [] ∧ (words.get w).toList.all
        (fun c => !([',', ']', '}', '"', '[', '{'].contains c)) = true := by
      decide
    obtain ⟨hne, hchars⟩ := hall w
    refine ⟨hne, fun c hc => ?_⟩
    simpa [IsAtomChar] using List.all_eq_true.mp hchars c hc
  | int i =>
    refine ⟨?_, fun c hc => isAtomChar_of_isLiteralChar (isLiteral_printInt i c hc)⟩
    show printInt i ≠ []
    unfold printInt
    split
    · exact List.cons_ne_nil _ _
    · exact Nat.toDigits_ne_nil
  | float x =>
    refine ⟨?_, fun c hc => isAtomChar_of_isLiteralChar (isLiteral_reprFloat x c hc)⟩
    show reprFloat x ≠ []
    obtain h | h := point_mem_reprFloat x
    · exact List.ne_nil_of_mem h
    · exact List.ne_nil_of_mem h

/-- Two texts of atom characters before delimiters are equal when what they start is. -/
theorem append_injective {a b s t : List Char} (ha : ∀ c ∈ a, IsAtomChar c)
    (hb : ∀ c ∈ b, IsAtomChar c) (hs : Delimits s) (ht : Delimits t) (h : a ++ s = b ++ t) :
    a = b ∧ s = t := by
  have hdelim : ∀ {c : Char} {l r r' : List Char}, IsAtomChar c → Delimits r → r = c :: l ++ r' → False := by
    intro c l r r' hc hr heq
    have hmem := hr c (by rw [heq]; rfl)
    exact hc (List.mem_append_left ['"', '[', '{'] hmem)
  induction a generalizing b with
  | nil =>
    cases b with
    | nil => exact ⟨rfl, h⟩
    | cons c b => exact (hdelim (hb c (List.mem_cons_self ..)) hs h).elim
  | cons c a ih =>
    cases b with
    | nil => exact (hdelim (ha c (List.mem_cons_self ..)) ht h.symm).elim
    | cons d b =>
      rw [List.forall_mem_cons] at ha hb
      obtain ⟨rfl, htail⟩ := List.cons.inj h
      obtain ⟨rfl, rfl⟩ := ih ha.2 hb.2 htail
      exact ⟨rfl, rfl⟩

theorem delimits_nil : Delimits [] := fun _ h => (nomatch h)

theorem delimits_printRest (vs : List Value) (s : List Char) : Delimits (printRest vs ++ s) := by
  intro c h
  cases vs with
  | nil => rw [← Option.some.inj h]; decide
  | cons v vs => rw [← Option.some.inj h]; decide

theorem delimits_printItemsRest (kvs : List (String × Value)) (s : List Char) :
    Delimits (printItemsRest kvs ++ s) := by
  intro c h
  cases kvs with
  | nil => rw [← Option.some.inj h]; decide
  | cons kv kvs => rw [← Option.some.inj h]; decide

/-- The text of an atom starts with a character of atoms. -/
theorem Atom.isAtomChar_of_text {a : Atom} {c : Char} {s t : List Char} (h : a.text ++ s = c :: t) :
    IsAtomChar c := by
  obtain ⟨hne, hchars⟩ := a.text_chars
  cases ha : a.text with
  | nil => exact absurd ha hne
  | cons d ds =>
    rw [ha] at h hchars
    rw [← (List.cons.inj h).1]
    exact hchars d (List.mem_cons_self ..)

theorem text_of_opening {v : Value} {c : Char} (h : opening v = some c) (s : List Char) :
    ¬IsAtomChar c ∧ ∃ t, printValue v ++ s = c :: t := by
  unfold IsAtomChar
  cases v with
  | str b =>
    obtain rfl := Option.some.inj h
    exact ⟨by decide, _, rfl⟩
  | list vs =>
    obtain rfl := Option.some.inj h
    cases vs with
    | nil => exact ⟨by decide, _, rfl⟩
    | cons v vs => exact ⟨by decide, _, rfl⟩
  | dict kvs =>
    obtain rfl := Option.some.inj h
    cases kvs with
    | nil => exact ⟨by decide, _, rfl⟩
    | cons kv kvs => exact ⟨by decide, _, rfl⟩
  | _ => cases h

section
variable {v w : Value} {s t : List Char}

/-- The first character of a text tells how its value opens. -/
theorem opening_of_text {c : Char} (h : printValue v ++ s = c :: t) (hc : ¬IsAtomChar c) :
    opening v = some c := by
  cases hv : opening v with
  | none =>
    obtain ⟨a, ha, -⟩ := exists_atom hv
    rw [ha] at h
    exact absurd (Atom.isAtomChar_of_text h) hc
  | some d =>
    obtain ⟨-, t', ht'⟩ := text_of_opening hv s
    rw [(List.cons.inj (ht'.symm.trans h)).1]

/-- Values of one text open alike. -/
theorem opening_eq {c : Char} (hv : opening v = some c)
    (h : printValue v ++ s = printValue w ++ t) : opening w = some c := by
  obtain ⟨hc, t', ht'⟩ := text_of_opening hv s
  exact opening_of_text (h.symm.trans ht') hc

/-- An atom is told from every other value by its text. -/
theorem atom_injective (hv : opening v = none) (hs : Delimits s) (ht : Delimits t)
    (h : printValue v ++ s = printValue w ++ t) : unifyNaNs v = unifyNaNs w ∧ s = t := by
  cases hw : opening w with
  | none =>
    obtain ⟨a, ha, havalue⟩ := exists_atom hv
    obtain ⟨b, hb, hbvalue⟩ := exists_atom hw
    rw [ha, hb] at h
    obtain ⟨heq, hst⟩ := append_injective a.text_chars.2 b.text_chars.2 hs ht h
    rw [havalue, hbvalue, Atom.text_injective heq]
    exact ⟨rfl, hst⟩
  | some c =>
    rw [opening_eq hw h.symm] at hv
    cases hv

/-- A closing bracket stands where no value starts. -/
theorem printValue_ne_bracket (v : Value) (s t : List Char) : printValue v ++ s ≠ ']' :: t := by
  intro h
  have hv : opening v = some ']' := opening_of_text h fun hc => hc (by decide)
  cases v <;> simp [opening] at hv

end

/-- Lists of one text print alike after a comma too. -/
theorem printRest_eq_of_list {vs ws : List Value} {s t : List Char}
    (h : printValue (.list vs) ++ s = printValue (.list ws) ++ t) :
    printRest vs ++ s = printRest ws ++ t := by
  cases vs with
  | nil =>
    cases ws with
    | nil => exact (List.cons.inj h).2
    | cons w ws =>
      have hw : printValue w ++ (printRest ws ++ t) = ']' :: s := by
        rw [← List.append_assoc]
        exact (List.cons.inj h).2.symm
      exact absurd hw (printValue_ne_bracket w _ _)
  | cons v vs =>
    cases ws with
    | nil =>
      have hv : printValue v ++ (printRest vs ++ s) = ']' :: t := by
        rw [← List.append_assoc]
        exact (List.cons.inj h).2
      exact absurd hv (printValue_ne_bracket v _ _)
    | cons w ws => exact congrArg (List.cons ',') (List.cons.inj h).2

theorem printItemsRest_eq_of_dict {kvs kws : List (String × Value)} {s t : List Char}
    (h : printValue (.dict kvs) ++ s = printValue (.dict kws) ++ t) :
    printItemsRest kvs ++ s = printItemsRest kws ++ t := by
  cases kvs with
  | nil =>
    cases kws with
    | nil => exact (List.cons.inj h).2
    | cons kw kws => exact absurd (List.cons.inj (List.cons.inj h).2).1 (by decide)
  | cons kv kvs =>
    cases kws with
    | nil => exact absurd (List.cons.inj (List.cons.inj h).2).1 (by decide)
    | cons kw kws => exact congrArg (List.cons ',') (List.cons.inj h).2

mutual
/-- The text of a value tells the value, and where it ends. -/
theorem printValue_append_injective (v w : Value) {s t : List Char} (hs : Delimits s)
    (ht : Delimits t) (h : printValue v ++ s = printValue w ++ t) :
    unifyNaNs v = unifyNaNs w ∧ s = t :=
  match v with
  | .none => atom_injective rfl hs ht h
  | .bool _ => atom_injective rfl hs ht h
  | .int _ => atom_injective rfl hs ht h
  | .float _ => atom_injective rfl hs ht h
  | .str a => by
    obtain ⟨b, rfl⟩ : ∃ b, w = .str b := by
      have hw : opening w = some '"' := opening_eq rfl h
      cases w <;> simp [opening] at hw ⊢
    obtain ⟨rfl, rfl⟩ := printStr_injective h
    exact ⟨rfl, rfl⟩
  | .list vs => by
    obtain ⟨ws, rfl⟩ : ∃ ws, w = .list ws := by
      have hw : opening w = some '[' := opening_eq rfl h
      cases w <;> simp [opening] at hw ⊢
    obtain ⟨hvs, hst⟩ := printRest_injective vs ws (printRest_eq_of_list h)
    exact ⟨congrArg Value.list hvs, hst⟩
  | .dict kvs => by
    obtain ⟨kws, rfl⟩ : ∃ kws, w = .dict kws := by
      have hw : opening w = some '{' := opening_eq rfl h
      cases w <;> simp [opening] at hw ⊢
    obtain ⟨hkvs, hst⟩ := printItemsRest_injective kvs kws (printItemsRest_eq_of_dict h)
    exact ⟨congrArg Value.dict hkvs, hst⟩

/-- The same of the values of a list. -/
theorem printRest_injective (vs ws : List Value) {s t : List Char}
    (h : printRest vs ++ s = printRest ws ++ t) :
    unifyNaNsList vs = unifyNaNsList ws ∧ s = t :=
  match vs, ws with
  | [], [] => ⟨rfl, (List.cons.inj h).2⟩
  | [], _ :: _ => absurd (List.cons.inj h).1 (by decide)
  | _ :: _, [] => absurd (List.cons.inj h).1 (by decide)
  | v :: vs, w :: ws => by
    have h : printValue v ++ (printRest vs ++ s) = printValue w ++ (printRest ws ++ t) := by
      simpa [printRest] using h
    obtain ⟨hv, hrest⟩ := printValue_append_injective v w (delimits_printRest vs s)
      (delimits_printRest ws t) h
    obtain ⟨hvs, hst⟩ := printRest_injective vs ws hrest
    exact ⟨congrArg₂ List.cons hv hvs, hst⟩

/-- The same of the items of a dict. -/
theorem printItemsRest_injective (kvs kws : List (String × Value)) {s t : List Char}
    (h : printItemsRest kvs ++ s = printItemsRest kws ++ t) :
    unifyNaNsItems kvs = unifyNaNsItems kws ∧ s = t :=
  match kvs, kws with
  | [], [] => ⟨rfl, (List.cons.inj h).2⟩
  | [], _ :: _ => absurd (List.cons.inj h).1 (by decide)
  | _ :: _, [] => absurd (List.cons.inj h).1 (by decide)
  | (k, v) :: kvs, (l, w) :: kws => by
    have h : printStr k ++ (':' :: (printValue v ++ (printItemsRest kvs ++ s))) =
        printStr l ++ (':' :: (printValue w ++ (printItemsRest kws ++ t))) := by
      simpa [printItemsRest] using h
    obtain ⟨rfl, hitem⟩ := printStr_injective h
    obtain ⟨hv, hrest⟩ := printValue_append_injective v w (delimits_printItemsRest kvs s)
      (delimits_printItemsRest kws t) (List.cons.inj hitem).2
    obtain ⟨hkvs, hst⟩ := printItemsRest_injective kvs kws hrest
    exact ⟨congrArg₂ List.cons (congrArg (Prod.mk k) hv) hkvs, hst⟩
end

theorem printFloat_unifyNaN (x : BitVec 64) : printFloat (unifyNaN x) = printFloat x := by
  unfold unifyNaN
  split
  · next hx =>
    have hnan : printFloat x = "NaN".toList := by rw [printFloat, hx]
    rw [hnan]
    rfl
  · rfl

mutual
/-- All NaNs print alike. -/
theorem printValue_unifyNaNs : ∀ v : Value, printValue (unifyNaNs v) = printValue v
  | .none | .bool _ | .int _ | .str _ => rfl
  | .float x => printFloat_unifyNaN x
  | .list [] => rfl
  | .list (v :: vs) => congrArg (List.cons '[')
      (congrArg₂ (· ++ ·) (printValue_unifyNaNs v) (printRest_unifyNaNsList vs))
  | .dict [] => rfl
  | .dict ((k, v) :: kvs) => congrArg (fun text => '{' :: (printStr k ++ ':' :: text))
      (congrArg₂ (· ++ ·) (printValue_unifyNaNs v) (printItemsRest_unifyNaNsItems kvs))

theorem printRest_unifyNaNsList : ∀ vs : List Value, printRest (unifyNaNsList vs) = printRest vs
  | [] => rfl
  | v :: vs => congrArg (List.cons ',')
      (congrArg₂ (· ++ ·) (printValue_unifyNaNs v) (printRest_unifyNaNsList vs))

theorem printItemsRest_unifyNaNsItems : ∀ kvs : List (String × Value),
    printItemsRest (unifyNaNsItems kvs) = printItemsRest kvs
  | [] => rfl
  | (k, v) :: kvs => congrArg (fun text => ',' :: (printStr k ++ ':' :: text))
      (congrArg₂ (· ++ ·) (printValue_unifyNaNs v) (printItemsRest_unifyNaNsItems kvs))
end

/-- Values have one text when they are equal, up to the bits of their NaNs. -/
theorem printValue_eq_iff {v w : Value} :
    printValue v = printValue w ↔ unifyNaNs v = unifyNaNs w := by
  constructor
  · intro h
    have happend : printValue v ++ [] = printValue w ++ [] := by rw [h]
    exact (printValue_append_injective v w delimits_nil delimits_nil happend).1
  · intro h
    rw [← printValue_unifyNaNs v, h, printValue_unifyNaNs]

end RagEval.Lib.Json
