import Mathlib.Data.List.Basic

/-!
# Base64 with the URL-safe alphabet

`base64.urlsafe_b64decode` of a string, and the encoding whose padding is stripped, as tokens
use it. The decoder skips every character outside the alphabet, and once a quad is padded it
ignores whatever follows.

## Main definitions

- `encode` — the unpadded encoding
- `urlsafeDecode` — the decoder, none where it raises

## Main result

- `urlsafeDecode_encode` — what was encoded decodes, once it is padded again
-/

namespace RagEval.Lib.Base64

/-- The character of six bits. -/
def sextetChar (x : Nat) : Char :=
  if x < 26 then Char.ofNat (65 + x)
  else if x < 52 then Char.ofNat (71 + x)
  else if x < 62 then Char.ofNat (x - 4)
  else if x = 62 then '-'
  else '_'

/-- `urlsafe_b64encode(bs).rstrip("=")`. -/
def encode : List UInt8 → List Char
  | [] => []
  | [a] => [sextetChar (a.toNat / 4), sextetChar (a.toNat % 4 * 16)]
  | [a, b] =>
    [sextetChar (a.toNat / 4), sextetChar (a.toNat % 4 * 16 + b.toNat / 16),
      sextetChar (b.toNat % 16 * 4)]
  | a :: b :: c :: rest =>
    sextetChar (a.toNat / 4) :: sextetChar (a.toNat % 4 * 16 + b.toNat / 16) ::
      sextetChar (b.toNat % 16 * 4 + c.toNat / 64) :: sextetChar (c.toNat % 64) :: encode rest

/-- The URL-safe characters stand for two of the standard alphabet. -/
def translate (c : Char) : Char := if c = '-' then '+' else if c = '_' then '/' else c

/-- The six bits of a character of the standard alphabet. -/
def sextet? (c : Char) : Option Nat :=
  if 'A' ≤ c ∧ c ≤ 'Z' then some (c.toNat - 65)
  else if 'a' ≤ c ∧ c ≤ 'z' then some (c.toNat - 71)
  else if '0' ≤ c ∧ c ≤ '9' then some (c.toNat + 4)
  else if c = '+' then some 62
  else if c = '/' then some 63
  else none

/-- `binascii.a2b_base64` from a position within a quad, with the bits left over from its last
character and the number of pads since. -/
def scan : Nat → Nat → Nat → List Char → Option (List UInt8)
  | quadPos, _, _, [] => if quadPos = 0 then some [] else none
  | quadPos, left, pads, c :: cs =>
    if c = '=' then
      if 2 ≤ quadPos then
        if 4 ≤ quadPos + (pads + 1) then some [] else scan quadPos left (pads + 1) cs
      else scan quadPos left pads cs
    else
      match sextet? c with
      | none => scan quadPos left pads cs
      | some x =>
        match quadPos with
        | 0 => scan 1 x 0 cs
        | 1 => (scan 2 (x % 16) 0 cs).map (UInt8.ofNat (left * 4 + x / 16) :: ·)
        | 2 => (scan 3 (x % 4) 0 cs).map (UInt8.ofNat (left * 16 + x / 4) :: ·)
        | _ => (scan 0 0 0 cs).map (UInt8.ofNat (left * 64 + x) :: ·)

/-- `base64.urlsafe_b64decode(s)`; a string beyond ASCII raises. -/
def urlsafeDecode (s : List Char) : Option (List UInt8) :=
  if s.all fun c => c.toNat < 128 then scan 0 0 0 (s.map translate) else none

/-! ## Characters -/

theorem sextetChar_spec {x : Nat} (h : x < 64) :
    sextet? (translate (sextetChar x)) = some x ∧ translate (sextetChar x) ≠ '=' ∧
      (sextetChar x).toNat < 128 ∧ sextetChar x ≠ '.' := by
  have hall : ∀ x < 64, sextet? (translate (sextetChar x)) = some x ∧
      translate (sextetChar x) ≠ '=' ∧ (sextetChar x).toNat < 128 ∧ sextetChar x ≠ '.' := by
    decide
  exact hall x h

section Scan
variable {x left pads : Nat} (hx : x < 64) (cs : List Char)
include hx

theorem scan_zero :
    scan 0 left pads (translate (sextetChar x) :: cs) = scan 1 x 0 cs := by
  obtain ⟨hsextet, hpad, -⟩ := sextetChar_spec hx
  rw [scan, if_neg hpad, hsextet]
  rfl

theorem scan_one :
    scan 1 left pads (translate (sextetChar x) :: cs) =
      (scan 2 (x % 16) 0 cs).map (UInt8.ofNat (left * 4 + x / 16) :: ·) := by
  obtain ⟨hsextet, hpad, -⟩ := sextetChar_spec hx
  rw [scan, if_neg hpad, hsextet]
  rfl

theorem scan_two :
    scan 2 left pads (translate (sextetChar x) :: cs) =
      (scan 3 (x % 4) 0 cs).map (UInt8.ofNat (left * 16 + x / 4) :: ·) := by
  obtain ⟨hsextet, hpad, -⟩ := sextetChar_spec hx
  rw [scan, if_neg hpad, hsextet]
  rfl

theorem scan_three :
    scan 3 left pads (translate (sextetChar x) :: cs) =
      (scan 0 0 0 cs).map (UInt8.ofNat (left * 64 + x) :: ·) := by
  obtain ⟨hsextet, hpad, -⟩ := sextetChar_spec hx
  rw [scan, if_neg hpad, hsextet]
  rfl

end Scan

/-! ## Decoding what was encoded -/

/-- The pads that fill up the last quad, as the readers of tokens add them. -/
def padding (n : Nat) : List Char := if 4 - n % 4 ≠ 4 then List.replicate (4 - n % 4) '=' else []

theorem padding_add_four (n : Nat) : padding (n + 4) = padding n := by
  rw [padding, padding, Nat.add_mod_right]

theorem ofNat_eq (a : UInt8) {n : Nat} (h : n = a.toNat) : UInt8.ofNat n = a := by
  rw [h, UInt8.ofNat_toNat]

theorem scan_encode (bs : List UInt8) :
    scan 0 0 0 ((encode bs).map translate ++ padding (encode bs).length) = some bs := by
  induction bs using encode.induct with
  | case1 => rfl
  | case2 a =>
    have ha := a.toNat_lt
    show scan 0 0 0 (_ :: _ :: ['=', '=']) = _
    rw [scan_zero (by omega), scan_one (by omega), ofNat_eq a (by omega)]
    rfl
  | case3 a b =>
    have ha := a.toNat_lt
    have hb := b.toNat_lt
    show scan 0 0 0 (_ :: _ :: _ :: ['=']) = _
    rw [scan_zero (by omega), scan_one (by omega), scan_two (by omega), ofNat_eq a (by omega),
      ofNat_eq b (by omega)]
    rfl
  | case4 a b c rest ih =>
    have ha := a.toNat_lt
    have hb := b.toNat_lt
    have hc := c.toNat_lt
    rw [encode, List.length_cons, List.length_cons, List.length_cons, List.length_cons,
      padding_add_four]
    show scan 0 0 0 (_ :: _ :: _ :: _ :: ((encode rest).map translate ++ padding _)) = _
    rw [scan_zero (by omega), scan_one (by omega), scan_two (by omega), scan_three (by omega),
      ofNat_eq a (by omega), ofNat_eq b (by omega), ofNat_eq c (by omega), ih]
    rfl

/-- The characters of an encoding are those of six bits each. -/
theorem exists_sextet_of_mem_encode {bs : List UInt8} {c : Char} (h : c ∈ encode bs) :
    ∃ x < 64, c = sextetChar x := by
  induction bs using encode.induct with
  | case1 => cases h
  | case2 a =>
    have ha := a.toNat_lt
    simp only [encode, List.mem_cons, List.not_mem_nil, or_false] at h
    rcases h with rfl | rfl
    all_goals exact ⟨_, by omega, rfl⟩
  | case3 a b =>
    have ha := a.toNat_lt
    have hb := b.toNat_lt
    simp only [encode, List.mem_cons, List.not_mem_nil, or_false] at h
    rcases h with rfl | rfl | rfl
    all_goals exact ⟨_, by omega, rfl⟩
  | case4 a b c rest ih =>
    have ha := a.toNat_lt
    have hb := b.toNat_lt
    have hc := c.toNat_lt
    simp only [encode, List.mem_cons] at h
    rcases h with rfl | rfl | rfl | rfl | h
    · exact ⟨_, by omega, rfl⟩
    · exact ⟨_, by omega, rfl⟩
    · exact ⟨_, by omega, rfl⟩
    · exact ⟨_, by omega, rfl⟩
    · exact ih h

theorem ne_dot_of_mem_encode {bs : List UInt8} {c : Char} (h : c ∈ encode bs) : c ≠ '.' := by
  obtain ⟨x, hx, rfl⟩ := exists_sextet_of_mem_encode h
  exact (sextetChar_spec hx).2.2.2

theorem map_translate_padding (n : Nat) : (padding n).map translate = padding n := by
  unfold padding
  split_ifs
  · exact List.map_replicate
  · rfl

/-- Padded to quads, an encoding decodes to the bytes. -/
theorem urlsafeDecode_encode (bs : List UInt8) :
    urlsafeDecode (encode bs ++ padding (encode bs).length) = some bs := by
  have hascii : ∀ c ∈ encode bs ++ padding (encode bs).length, c.toNat < 128 := by
    rw [List.forall_mem_append]
    constructor
    · intro c hc
      obtain ⟨x, hx, rfl⟩ := exists_sextet_of_mem_encode hc
      exact (sextetChar_spec hx).2.2.1
    · intro c hc
      unfold padding at hc
      split_ifs at hc
      · rw [List.eq_of_mem_replicate hc]
        decide
      · cases hc
  have hall := List.all_eq_true.mpr fun c hc => decide_eq_true (hascii c hc)
  rw [urlsafeDecode, if_pos hall, List.map_append, map_translate_padding, scan_encode]

end RagEval.Lib.Base64
