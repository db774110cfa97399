import Mathlib.Data.List.Basic
import Mathlib.Data.List.Infix
import RagEval.Lib.Split

/-!
# Searching and replacing between word boundaries

Regular expressions of the form `\b … \b` around a sequence of classes, each class with a
greedy quantifier, over an alphabet of which some symbols are word symbols. The search
backtracks from the longest choice of each class to the shortest; a text is cut from the left
at the matches that do not overlap.

## Main definitions

- `Occurs`, `Contains` — what a match is, with the text around it
- `ways`, `matchAt`, `cut` — the search for matches
- `Cutting.replace` — the text with its matches replaced
- `Stop` — a symbol that no match crosses

## Main results

- `mem_ways_iff` — the search tries every way to match
- `cuts_cut` — the cutting found is the one of the leftmost matches
- `contains_append_stop_iff` — a text with a stop in it is searched part by part
- `contains_replace_iff` — where the matches left after a replacement are
- `not_contains_replace_self`, `contains_of_contains_replace` — a replacement that severs the
  gaps leaves no match, and brings in none of another pattern
-/

namespace RagEval.Lib.Regex

universe u
variable {α : Type u}

/-- A class with a greedy quantifier `{least,most}`; without `most` there is no upper bound. -/
structure Piece (α : Type u) where
  cls : α → Bool
  least : Nat
  most : Option Nat

/-- `[…]`. -/
def Piece.one (cls : α → Bool) : Piece α := ⟨cls, 1, some 1⟩

/-- `[…]?`. -/
def Piece.optional (cls : α → Bool) : Piece α := ⟨cls, 0, some 1⟩

/-- `[…]{n}`. -/
def Piece.exactly (n : Nat) (cls : α → Bool) : Piece α := ⟨cls, n, some n⟩

/-- `[…]{n,}`; `[…]+` for one. -/
def Piece.atLeast (n : Nat) (cls : α → Bool) : Piece α := ⟨cls, n, none⟩

/-- `\b … \b` around the pieces, one of which takes a symbol at least. -/
structure Pattern (α : Type u) where
  pieces : List (Piece α)
  consumes : ∃ p ∈ pieces, 0 < p.least

/-! ## What a match is -/

/-- The piece takes `m`. -/
def Piece.Takes (p : Piece α) (m : List α) : Prop :=
  (∀ a ∈ m, p.cls a = true) ∧ p.least ≤ m.length ∧ ∀ n ∈ p.most, m.length ≤ n

/-- The pieces take `m` one after the other. -/
def Derives : List (Piece α) → List α → Prop
  | [], m => m = []
  | p :: ps, m => ∃ x y, m = x ++ y ∧ p.Takes x ∧ Derives ps y

theorem Derives.mem {ps : List (Piece α)} {m : List α} (h : Derives ps m) {a : α} (ha : a ∈ m) :
    ∃ p ∈ ps, p.cls a = true := by
  induction ps generalizing m with
  | nil =>
    rw [Derives] at h
    exact absurd (h ▸ ha) List.not_mem_nil
  | cons p ps ih =>
    obtain ⟨x, y, rfl, hx, hy⟩ := h
    obtain hax | hay := List.mem_append.mp ha
    · exact ⟨p, List.mem_cons_self, hx.1 a hax⟩
    · obtain ⟨q, hq, hqa⟩ := ih hy hay
      exact ⟨q, List.mem_cons_of_mem p hq, hqa⟩

/-- A piece that takes a symbol at least has taken one. -/
theorem Derives.exists_mem {ps : List (Piece α)} {m : List α} (h : Derives ps m) {p : Piece α}
    (hp : p ∈ ps) (hpos : 0 < p.least) : ∃ a ∈ m, p.cls a = true := by
  induction ps generalizing m with
  | nil => exact absurd hp List.not_mem_nil
  | cons q ps ih =>
    obtain ⟨x, y, rfl, hx, hy⟩ := h
    obtain rfl | hp := List.mem_cons.mp hp
    · have hlen : 0 < x.length := Nat.lt_of_lt_of_le hpos hx.2.1
      obtain ⟨a, ha⟩ := List.exists_mem_of_length_pos hlen
      exact ⟨a, List.mem_append_left y ha, hx.1 a ha⟩
    · obtain ⟨a, ha, hcls⟩ := ih hy hp
      exact ⟨a, List.mem_append_right x ha, hcls⟩

section Words
variable (word : α → Bool)

/-- A word symbol stands at the end. -/
def wordEnd (s : List α) : Bool := s.getLast?.any word

/-- A word symbol stands at the start. -/
def wordStart (s : List α) : Bool := s.head?.any word

/-- `\b` between `s` and `t`. -/
def Boundary (s t : List α) : Prop := wordEnd word s ≠ wordStart word t

instance (s t : List α) : Decidable (Boundary word s t) :=
  inferInstanceAs (Decidable (wordEnd word s ≠ wordStart word t))

/-- `m` is a match of the pattern with `u` before and `v` after it. -/
structure Occurs (P : Pattern α) (u m v : List α) : Prop where
  derives : Derives P.pieces m
  left : Boundary word u m
  right : Boundary word m v

/-- There is a match somewhere in `s`. -/
def Contains (P : Pattern α) (s : List α) : Prop :=
  ∃ u m v, s = u ++ m ++ v ∧ Occurs word P u m v

/-- A match starts after `u`, at the start of `s`. -/
def Starts (P : Pattern α) (u s : List α) : Prop := ∃ m v, s = m ++ v ∧ Occurs word P u m v

variable {word} {P Q : Pattern α}

@[simp] theorem wordEnd_nil : wordEnd word ([] : List α) = false := rfl

@[simp] theorem wordStart_nil : wordStart word ([] : List α) = false := rfl

@[simp] theorem wordStart_cons (a : α) (s : List α) : wordStart word (a :: s) = word a := by
  simp [wordStart]

theorem wordEnd_append (s : List α) {t : List α} (h : t ≠ []) :
    wordEnd word (s ++ t) = wordEnd word t := by
  rw [wordEnd, List.getLast?_append_of_ne_nil s h, wordEnd]

@[simp] theorem wordEnd_concat (s : List α) (a : α) : wordEnd word (s ++ [a]) = word a := by
  rw [wordEnd_append s (List.cons_ne_nil a [])]
  simp [wordEnd]

theorem wordStart_append {s : List α} (h : s ≠ []) (t : List α) :
    wordStart word (s ++ t) = wordStart word s := by
  cases s with
  | nil => exact absurd rfl h
  | cons a s => rw [List.cons_append, wordStart_cons, wordStart_cons]

theorem Pattern.ne_nil_of_derives {m : List α} (h : Derives P.pieces m) : m ≠ [] := by
  obtain ⟨p, hp, hpos⟩ := P.consumes
  obtain ⟨a, ha, -⟩ := h.exists_mem hp hpos
  exact List.ne_nil_of_mem ha

theorem Occurs.ne_nil {u m v : List α} (h : Occurs word P u m v) : m ≠ [] :=
  Pattern.ne_nil_of_derives h.derives

/-- A text has no match that has nothing in it for one of the pieces. -/
theorem not_contains_of_forall {s : List α} {p : Piece α} (hp : p ∈ P.pieces)
    (hpos : 0 < p.least) (hs : ∀ a ∈ s, p.cls a = false) : ¬Contains word P s := by
  rintro ⟨u, m, v, rfl, hocc⟩
  obtain ⟨a, ha, hcls⟩ := hocc.derives.exists_mem hp hpos
  have hnot := hs a (List.mem_append_left v (List.mem_append_right u ha))
  rw [hcls] at hnot
  exact Bool.false_ne_true hnot.symm

/-- Only the word symbols next to it matter to a match. -/
theorem Occurs.congr {u u' m v v' : List α} (h : Occurs word P u m v)
    (hu : wordEnd word u = wordEnd word u') (hv : wordStart word v = wordStart word v') :
    Occurs word P u' m v' := by
  refine ⟨h.derives, ?_, ?_⟩
  · rw [Boundary, ← hu]
    exact h.left
  · rw [Boundary, ← hv]
    exact h.right

/-! ## The search -/

/-- How many symbols of `s` the piece may take, most first. -/
def Piece.counts (p : Piece α) (s : List α) : List Nat :=
  let run := (s.takeWhile p.cls).length
  let longest := match p.most with
    | none => run
    | some n => min n run
  (List.range (longest + 1)).reverse.filter (p.least ≤ ·)

/-- The ways to take a start of `s`, in the order they are tried. -/
def ways : List (Piece α) → List α → List (List α)
  | [], _ => [[]]
  | p :: ps, s => (p.counts s).flatMap fun n => (ways ps (s.drop n)).map (s.take n ++ ·)

theorem le_length_takeWhile_iff (f : α → Bool) (s : List α) (n : Nat) :
    n ≤ (s.takeWhile f).length ↔ n ≤ s.length ∧ ∀ a ∈ s.take n, f a = true := by
  induction s generalizing n with
  | nil => simp
  | cons a s ih =>
    cases n with
    | zero => simp
    | succ n =>
      rw [List.takeWhile_cons]
      by_cases ha : f a = true
      · rw [if_pos ha, List.length_cons, List.length_cons, Nat.add_le_add_iff_right, ih]
        simp [ha]
      · rw [if_neg ha]
        simp [ha]

theorem Piece.mem_counts_iff (p : Piece α) (s : List α) (n : Nat) :
    n ∈ p.counts s ↔ n ≤ s.length ∧ p.Takes (s.take n) := by
  have hlongest : n ∈ p.counts s ↔
      (n ≤ (s.takeWhile p.cls).length ∧ ∀ k ∈ p.most, n ≤ k) ∧ p.least ≤ n := by
    cases hm : p.most with
    | none =>
      simp only [counts, hm, List.mem_filter, List.mem_reverse, List.mem_range,
        Nat.lt_add_one_iff, decide_eq_true_eq]
      simp
    | some k =>
      simp only [counts, hm, List.mem_filter, List.mem_reverse, List.mem_range,
        Nat.lt_add_one_iff, Nat.le_min, decide_eq_true_eq, Option.mem_some_iff]
      grind
  rw [hlongest, le_length_takeWhile_iff, Takes]
  constructor
  · rintro ⟨⟨⟨hn, hcls⟩, hmost⟩, hleast⟩
    rw [List.length_take_of_le hn]
    exact ⟨hn, hcls, hleast, hmost⟩
  · rintro ⟨hn, hcls, hleast, hmost⟩
    rw [List.length_take_of_le hn] at hleast hmost
    exact ⟨⟨⟨hn, hcls⟩, hmost⟩, hleast⟩

/-- The search tries every way the pieces take a start of the text. -/
theorem mem_ways_iff (ps : List (Piece α)) (s m : List α) :
    m ∈ ways ps s ↔ m <+: s ∧ Derives ps m := by
  induction ps generalizing s m with
  | nil =>
    rw [ways, List.mem_singleton, Derives]
    constructor
    · rintro rfl
      exact ⟨List.nil_prefix, rfl⟩
    · exact fun h => h.2
  | cons p ps ih =>
    rw [ways, List.mem_flatMap]
    constructor
    · rintro ⟨n, hn, hm⟩
      obtain ⟨y, hy, rfl⟩ := List.mem_map.mp hm
      obtain ⟨hpre, hder⟩ := (ih _ _).mp hy
      have htakes := ((p.mem_counts_iff s n).mp hn).2
      refine ⟨?_, s.take n, y, rfl, htakes, hder⟩
      calc s.take n ++ y <+: s.take n ++ s.drop n := (List.prefix_append_right_inj _).mpr hpre
        _ = s := List.take_append_drop n s
    · rintro ⟨⟨t, rfl⟩, x, y, rfl, hx, hy⟩
      have htake : (x ++ y ++ t).take x.length = x := by
        rw [List.append_assoc, List.take_left]
      have hdrop : (x ++ y ++ t).drop x.length = y ++ t := by
        rw [List.append_assoc, List.drop_left]
      refine ⟨x.length, ?_, List.mem_map.mpr ⟨y, ?_, ?_⟩⟩
      · rw [p.mem_counts_iff, htake]
        refine ⟨?_, hx⟩
        rw [List.length_append, List.length_append]
        omega
      · rw [hdrop, ih]
        exact ⟨List.prefix_append y t, hy⟩
      · rw [htake]

variable (word P)

/-- The match at the start of `s`, after the text `u`. -/
def matchAt (u s : List α) : Option (List α) :=
  if Boundary word u s then
    (ways P.pieces s).find? fun m => decide (Boundary word (u ++ m) (s.drop m.length))
  else none

variable {word P}

theorem matchAt_eq_some {u s m : List α} (h : matchAt word P u s = some m) :
    ∃ v, s = m ++ v ∧ Occurs word P u m v := by
  rw [matchAt] at h
  split_ifs at h with hleft
  obtain ⟨⟨v, rfl⟩, hder⟩ := (mem_ways_iff _ _ _).mp (List.mem_of_find?_eq_some h)
  have hne : m ≠ [] := Pattern.ne_nil_of_derives hder
  have hright := List.find?_some h
  simp only [decide_eq_true_eq] at hright
  rw [List.drop_left, Boundary, wordEnd_append u hne] at hright
  rw [Boundary, wordStart_append hne] at hleft
  exact ⟨v, rfl, hder, hleft, hright⟩

theorem matchAt_eq_none {u s : List α} (h : matchAt word P u s = none) : ¬Starts word P u s := by
  rintro ⟨m, v, rfl, hocc⟩
  have hleft : Boundary word u (m ++ v) := by
    rw [Boundary, wordStart_append hocc.ne_nil]
    exact hocc.left
  rw [matchAt, if_pos hleft, List.find?_eq_none] at h
  have hway : m ∈ ways P.pieces (m ++ v) :=
    (mem_ways_iff _ _ _).mpr ⟨List.prefix_append m v, hocc.derives⟩
  refine h m hway (decide_eq_true ?_)
  rw [List.drop_left, Boundary, wordEnd_append u hocc.ne_nil]
  exact hocc.right

/-- A match that the search finds is one in the text. -/
theorem contains_of_matchAt {u s m : List α} (h : matchAt word P u s = some m) :
    Contains word P (u ++ s) := by
  obtain ⟨v, rfl, hocc⟩ := matchAt_eq_some h
  exact ⟨u, m, v, (List.append_assoc u m v).symm, hocc⟩

/-! ## Cutting a text at its matches -/

/-- A text as its matches and the gaps before, between and after them. -/
inductive Cutting (α : Type u) where
  | last (gap : List α)
  | hit (gap found : List α) (rest : Cutting α)

namespace Cutting

/-- One more symbol before the first gap. -/
def push (a : α) : Cutting α → Cutting α
  | last gap => last (a :: gap)
  | hit gap found rest => hit (a :: gap) found rest

/-- The text with each match replaced. -/
def replace (repl : List α → List α) : Cutting α → List α
  | last gap => gap
  | hit gap found rest => gap ++ repl found ++ rest.replace repl

/-- The text that was cut. -/
def text : Cutting α → List α
  | last gap => gap
  | hit gap found rest => gap ++ found ++ rest.text

def gaps : Cutting α → List (List α)
  | last gap => [gap]
  | hit gap _ rest => gap :: rest.gaps

@[simp] theorem text_push (a : α) (c : Cutting α) : (c.push a).text = a :: c.text := by
  cases c <;> rfl

end Cutting

variable (word P)

/-- Cut `s` at its matches, `u` being the text before it; `skip` symbols of it belong to the
match found last. -/
def scan (u : List α) (skip : Nat) : List α → Cutting α
  | [] => .last []
  | a :: s =>
    match skip with
    | skip + 1 => scan (u ++ [a]) skip s
    | 0 =>
      match matchAt word P u (a :: s) with
      | some m => .hit [] m (scan (u ++ [a]) (m.length - 1) s)
      | none => (scan (u ++ [a]) 0 s).push a

/-- Cut a text at the leftmost matches that do not overlap, as `re.sub` and `re.finditer` do. -/
def cut (s : List α) : Cutting α := scan word P [] 0 s

/-- No match starts in the gap `g`, between `u` and `t`. -/
def Free (u g t : List α) : Prop :=
  ∀ a b, g = a ++ b → b ≠ [] → ¬Starts word P (u ++ a) (b ++ t)

/-- After the text `u`, the hits are matches and no other match starts in a gap. -/
inductive Cuts : List α → Cutting α → Prop where
  | last {u gap : List α} : Free word P u gap [] → Cuts u (.last gap)
  | hit {u gap found : List α} {rest : Cutting α} :
      Free word P u gap (found ++ rest.text) → Occurs word P (u ++ gap) found rest.text →
        Cuts (u ++ gap ++ found) rest → Cuts u (.hit gap found rest)

variable {word P}

theorem free_nil (u t : List α) : Free word P u [] t := by
  intro a b hab hb
  exact absurd (List.append_eq_nil_iff.mp hab.symm).2 hb

theorem Free.cons {u g t : List α} {a : α} (h : Free word P (u ++ [a]) g t)
    (ha : ¬Starts word P u (a :: (g ++ t))) : Free word P u (a :: g) t := by
  intro x y hxy hy
  cases x with
  | nil =>
    rw [List.nil_append] at hxy
    rw [List.append_nil, ← hxy]
    exact ha
  | cons b x =>
    obtain ⟨rfl, rfl⟩ := List.cons.inj hxy
    rw [List.append_cons]
    exact h x y rfl hy

theorem Cuts.push {u : List α} {c : Cutting α} {a : α} (h : Cuts word P (u ++ [a]) c)
    (ha : ¬Starts word P u (a :: c.text)) : Cuts word P u (c.push a) := by
  cases h with
  | last hfree =>
    refine .last (hfree.cons ?_)
    rw [List.append_nil]
    exact ha
  | @hit _ gap found rest hfree hocc hrest =>
    have hassoc : u ++ [a] ++ gap = u ++ a :: gap := (List.append_cons u a gap).symm
    rw [hassoc] at hocc hrest
    refine .hit (hfree.cons ?_) hocc hrest
    rw [← List.append_assoc]
    exact ha

/-- What is left to cut after the symbols to skip is cut at its leftmost matches. -/
theorem cuts_scan (s u : List α) (skip : Nat) (hskip : skip ≤ s.length) :
    (scan word P u skip s).text = s.drop skip ∧
      Cuts word P (u ++ s.take skip) (scan word P u skip s) := by
  induction s generalizing u skip with
  | nil =>
    obtain rfl := Nat.le_zero.mp hskip
    exact ⟨rfl, .last (free_nil _ _)⟩
  | cons a s ih =>
    cases skip with
    | succ skip =>
      obtain ⟨htext, hcuts⟩ := ih (u ++ [a]) skip (Nat.le_of_succ_le_succ hskip)
      rw [← List.append_cons] at hcuts
      exact ⟨htext, hcuts⟩
    | zero =>
      rw [List.take_zero, List.append_nil, List.drop_zero, scan]
      cases hm : matchAt word P u (a :: s) with
      | some m =>
        obtain ⟨v, hs, hocc⟩ := matchAt_eq_some hm
        obtain ⟨b, m, rfl⟩ := List.exists_cons_of_ne_nil hocc.ne_nil
        rw [List.cons_append, List.cons.injEq] at hs
        obtain ⟨rfl, rfl⟩ := hs
        have hle : m.length ≤ (m ++ v).length := by
          rw [List.length_append]
          exact Nat.le_add_right _ _
        obtain ⟨htext, hcuts⟩ := ih (u ++ [a]) m.length hle
        rw [List.drop_left] at htext
        rw [List.take_left, ← List.append_cons] at hcuts
        simp only [List.length_cons, Nat.add_sub_cancel]
        refine ⟨?_, .hit (free_nil _ _) ?_ ?_⟩
        · rw [Cutting.text, htext]
          rfl
        · rw [htext, List.append_nil]
          exact hocc
        · rw [List.append_nil]
          exact hcuts
      | none =>
        obtain ⟨htext, hcuts⟩ := ih (u ++ [a]) 0 (Nat.zero_le _)
        rw [List.drop_zero] at htext
        rw [List.take_zero, List.append_nil] at hcuts
        refine ⟨by rw [Cutting.text_push, htext], hcuts.push ?_⟩
        rw [htext]
        exact matchAt_eq_none hm

@[simp] theorem text_cut (s : List α) : (cut word P s).text = s :=
  (cuts_scan s [] 0 (Nat.zero_le _)).1

theorem cuts_cut (s : List α) : Cuts word P [] (cut word P s) := by
  have h : Cuts word P ([] ++ s.take 0) (cut word P s) := (cuts_scan s [] 0 (Nat.zero_le _)).2
  rwa [List.take_zero] at h

/-! ## Matches in the gaps -/

theorem replace_of_not_contains {s : List α} (h : ¬Contains word P s)
    (repl : List α → List α) : (cut word P s).replace repl = s := by
  have htext : (cut word P s).text = s := text_cut s
  have hcuts : Cuts word P [] (cut word P s) := cuts_cut s
  cases hc : cut word P s with
  | last gap =>
    rw [hc] at htext
    exact htext
  | hit gap found rest =>
    rw [hc] at htext hcuts
    cases hcuts with
    | hit _ hocc _ => exact absurd ⟨_, _, _, htext.symm, hocc⟩ h

/-- A match within a gap is one of the whole text too: the gap ends at boundaries. -/
theorem Occurs.widen {u g t a m b : List α} (h : Occurs word Q a m b) (hg : g = a ++ m ++ b)
    (hu : u = [] ∨ Boundary word u (g ++ t)) (ht : t = [] ∨ Boundary word (u ++ g) t) :
    Occurs word Q (u ++ a) m (b ++ t) := by
  subst hg
  refine h.congr ?_ ?_
  · by_cases ha : a = []
    · subst ha
      rw [List.append_nil, wordEnd_nil]
      obtain rfl | hu := hu
      · rfl
      · have hleft := h.left
        rw [Boundary, wordEnd_nil] at hleft
        rw [Boundary, List.nil_append, List.append_assoc, wordStart_append h.ne_nil] at hu
        grind
    · rw [wordEnd_append u ha]
  · by_cases hb : b = []
    · subst hb
      rw [List.nil_append, wordStart_nil]
      obtain rfl | ht := ht
      · rfl
      · have hright := h.right
        rw [Boundary, wordStart_nil] at hright
        rw [Boundary, List.append_nil, ← List.append_assoc, wordEnd_append _ h.ne_nil] at ht
        grind
    · rw [wordStart_append hb]

/-- Where a gap stands in the text: no match starts in it, and it ends at boundaries. -/
theorem Cuts.exists_context {u : List α} {c : Cutting α} (h : Cuts word P u c)
    (hu : u = [] ∨ Boundary word u c.text) {g : List α} (hg : g ∈ c.gaps) :
    ∃ x t, x ++ g ++ t = u ++ c.text ∧ Free word P x g t ∧
      (x = [] ∨ Boundary word x (g ++ t)) ∧ (t = [] ∨ Boundary word (x ++ g) t) := by
  induction h with
  | @last u gap hfree =>
    obtain rfl := List.mem_singleton.mp hg
    refine ⟨u, [], List.append_nil _, hfree, ?_, .inl rfl⟩
    rw [List.append_nil]
    exact hu
  | @hit u gap found rest hfree hocc hrest ih =>
    obtain rfl | hg := List.mem_cons.mp hg
    · refine ⟨u, found ++ rest.text, by simp [Cutting.text], hfree, ?_, .inr ?_⟩
      · rw [← List.append_assoc]
        exact hu
      · rw [Boundary, wordStart_append hocc.ne_nil]
        exact hocc.left
    · have hboundary : Boundary word (u ++ gap ++ found) rest.text := by
        rw [Boundary, wordEnd_append _ hocc.ne_nil]
        exact hocc.right
      obtain ⟨x, t, htext, hx⟩ := ih (.inr hboundary) hg
      refine ⟨x, t, ?_, hx⟩
      rw [htext, Cutting.text]
      simp only [List.append_assoc]

/-- No gap has a match in it, not even one that ends where the gap does. -/
theorem not_contains_gap {s g : List α} (hg : g ∈ (cut word P s).gaps) :
    ¬Contains word P g := by
  rintro ⟨a, m, b, rfl, hocc⟩
  obtain ⟨x, t, -, hfree, hx, ht⟩ := (cuts_cut s).exists_context (.inl rfl) hg
  have hne : m ++ b ≠ [] := List.append_ne_nil_of_left_ne_nil hocc.ne_nil b
  refine hfree a (m ++ b) (List.append_assoc a m b) hne ⟨m, b ++ t, List.append_assoc m b t, ?_⟩
  exact hocc.widen rfl hx ht

/-- What matches in a gap matches in the text. -/
theorem contains_of_contains_gap {s g : List α} (hg : g ∈ (cut word P s).gaps)
    (h : Contains word Q g) : Contains word Q s := by
  obtain ⟨a, m, b, hab, hocc⟩ := h
  obtain ⟨x, t, htext, -, hx, ht⟩ := (cuts_cut s).exists_context (.inl rfl) hg
  rw [text_cut, List.nil_append] at htext
  refine ⟨x ++ a, m, b ++ t, ?_, hocc.widen hab hx ht⟩
  rw [← htext, hab]
  simp only [List.append_assoc]

/-! ## Stops -/

variable (word) in
/-- No match crosses the symbol, and it is no word symbol. -/
structure Stop (P : Pattern α) (x : α) : Prop where
  not_word : word x = false
  not_taken : ∀ p ∈ P.pieces, p.cls x = false

theorem Stop.not_mem {x : α} (hx : Stop word P x) {u m v : List α} (h : Occurs word P u m v) :
    x ∉ m := by
  intro hm
  obtain ⟨p, hp, hcls⟩ := h.derives.mem hm
  rw [hx.not_taken p hp] at hcls
  exact Bool.false_ne_true hcls

/-- A text with a stop in it has a match if one of the parts has. -/
theorem contains_append_stop_iff {x : α} (hx : Stop word P x) (s t : List α) :
    Contains word P (s ++ x :: t) ↔ Contains word P s ∨ Contains word P t := by
  have hstart : wordStart word (x :: t) = wordStart word [] := by
    rw [wordStart_cons, hx.not_word, wordStart_nil]
  have hend : wordEnd word (s ++ [x]) = wordEnd word [] := by
    rw [wordEnd_concat, hx.not_word, wordEnd_nil]
  constructor
  · rintro ⟨u, m, v, heq, hocc⟩
    obtain ⟨w, rfl, rfl⟩ | ⟨w, rfl, rfl⟩ :=
      Split.append_cons_eq_append_append (hx.not_mem hocc) heq
    · refine .inl ⟨u, m, w, rfl, hocc.congr rfl ?_⟩
      cases w with
      | nil => exact hstart
      | cons b w => rfl
    · refine .inr ⟨w, m, v, rfl, hocc.congr ?_ rfl⟩
      rw [List.append_cons]
      by_cases hw : w = []
      · subst hw
        rw [List.append_nil]
        exact hend
      · rw [wordEnd_append _ hw]
  · rintro (⟨u, m, v, rfl, hocc⟩ | ⟨u, m, v, rfl, hocc⟩)
    · refine ⟨u, m, v ++ x :: t, by simp, hocc.congr rfl ?_⟩
      cases v with
      | nil => exact hstart.symm
      | cons b v => rfl
    · refine ⟨s ++ [x] ++ u, m, v, by simp, hocc.congr ?_ rfl⟩
      by_cases hu : u = []
      · subst hu
        rw [List.append_nil]
        exact hend.symm
      · rw [wordEnd_append _ hu]

/-! ## Replacing the matches -/

variable (word) in
/-- Around `r` a text is searched as two: what precedes it with `front`, and `back` with what
follows it. -/
def Severs (Q : Pattern α) (r front back : List α) : Prop :=
  ∀ s t, Contains word Q (s ++ r ++ t) ↔
    Contains word Q (s ++ front) ∨ Contains word Q (back ++ t)

theorem not_contains_nil : ¬Contains word P [] := by
  obtain ⟨p, hp, hpos⟩ := P.consumes
  exact not_contains_of_forall hp hpos (fun a ha => absurd ha List.not_mem_nil)

/-- A row of stops severs what is before it from what is after it. -/
theorem severs_of_stops {front stops back : List α} (hne : stops ≠ [])
    (hstops : ∀ x ∈ stops, Stop word Q x) : Severs word Q (front ++ stops ++ back) front back := by
  intro s t
  induction stops generalizing s front with
  | nil => exact absurd rfl hne
  | cons x stops ih =>
    have hx := hstops x List.mem_cons_self
    have hassoc : s ++ (front ++ x :: stops ++ back) ++ t =
        s ++ front ++ x :: (stops ++ back ++ t) := by simp
    rw [hassoc, contains_append_stop_iff hx]
    by_cases hrest : stops = []
    · subst hrest
      rw [List.nil_append]
    · have hsever : Contains word Q ([] ++ ([] ++ stops ++ back) ++ t) ↔
          Contains word Q ([] ++ []) ∨ Contains word Q (back ++ t) :=
        ih hrest (fun y hy => hstops y (List.mem_cons_of_mem x hy)) []
      rw [List.nil_append, List.nil_append, List.nil_append] at hsever
      rw [hsever, or_iff_right not_contains_nil]

/-- A text without a match severs what is around it when it stands between two stops. -/
theorem severs_of_bracketed {l r : α} {inner : List α} (hl : Stop word Q l)
    (hr : Stop word Q r) (hinner : ¬Contains word Q inner) :
    Severs word Q (l :: inner ++ [r]) [] [] := by
  intro s t
  have hassoc : s ++ (l :: inner ++ [r]) ++ t = s ++ l :: (inner ++ r :: t) := by simp
  rw [hassoc, contains_append_stop_iff hl, contains_append_stop_iff hr, or_iff_right hinner,
    List.append_nil, List.nil_append]

/-- The parts of the text with its matches replaced that are searched one by one: the gaps,
with what is left of the matches around them. -/
def Cutting.stretches (front back : List α → List α) (lead : List α) : Cutting α → List (List α)
  | .last gap => [lead ++ gap]
  | .hit gap found rest => (lead ++ gap ++ front found) :: rest.stretches front back (back found)

theorem Cutting.stretches_nil (c : Cutting α) :
    c.stretches (fun _ => []) (fun _ => []) [] = c.gaps := by
  induction c with
  | last gap => rfl
  | hit gap found rest ih => rw [stretches, ih, List.nil_append, List.append_nil, gaps]

theorem Cuts.contains_replace_iff {repl front back : List α → List α}
    (hsever : ∀ m, Derives P.pieces m → Severs word Q (repl m) (front m) (back m))
    {u : List α} {c : Cutting α} (h : Cuts word P u c) (lead : List α) :
    Contains word Q (lead ++ c.replace repl) ↔
      ∃ w ∈ c.stretches front back lead, Contains word Q w := by
  induction h generalizing lead with
  | last hfree => simp [Cutting.replace, Cutting.stretches]
  | @hit u gap found rest hfree hocc hrest ih =>
    have hassoc : lead ++ (gap ++ repl found ++ rest.replace repl) =
        lead ++ gap ++ repl found ++ rest.replace repl := by simp
    rw [Cutting.replace, hassoc, hsever found hocc.derives, ih, Cutting.stretches,
      List.exists_mem_cons_iff]

/-- A text with its matches replaced has a match if one of its stretches has. -/
theorem contains_replace_iff {repl front back : List α → List α}
    (hsever : ∀ m, Derives P.pieces m → Severs word Q (repl m) (front m) (back m))
    (s : List α) :
    Contains word Q ((cut word P s).replace repl) ↔
      ∃ w ∈ (cut word P s).stretches front back [], Contains word Q w :=
  (cuts_cut s).contains_replace_iff hsever []

section Severed
variable {repl : List α → List α} {s : List α}

/-- No match is left where the replacements sever the gaps. -/
theorem not_contains_replace_self
    (hsever : ∀ m, Derives P.pieces m → Severs word P (repl m) [] []) :
    ¬Contains word P ((cut word P s).replace repl) := by
  rw [contains_replace_iff hsever, Cutting.stretches_nil]
  rintro ⟨g, hg, hcontains⟩
  exact not_contains_gap hg hcontains

/-- Replacements that sever the gaps bring in no match of another pattern. -/
theorem contains_of_contains_replace
    (hsever : ∀ m, Derives P.pieces m → Severs word Q (repl m) [] [])
    (h : Contains word Q ((cut word P s).replace repl)) : Contains word Q s := by
  rw [contains_replace_iff hsever, Cutting.stretches_nil] at h
  obtain ⟨g, hg, hcontains⟩ := h
  exact contains_of_contains_gap hg hcontains

end Severed

end Words

/-! ## Strings -/

/-- The word characters `\w` and the decimal digits `\d` of Unicode. -/
structure CharTable where
  word : Char → Bool
  digit : Char → Bool
  ascii_word : ∀ c : Char, c.toNat < 128 → word c = (c.isAlphanum || c == '_')
  ascii_digit : ∀ c : Char, c.toNat < 128 → digit c = c.isDigit

/-- `\w` and `\d` under `re.ASCII`. -/
def CharTable.ascii : CharTable where
  word c := c.isAlphanum || c == '_'
  digit := Char.isDigit
  ascii_word _ _ := rfl
  ascii_digit _ _ := rfl

theorem CharTable.word_eq_false (t : CharTable) {c : Char} (hascii : c.toNat < 128)
    (h : (c.isAlphanum || c == '_') = false) : t.word c = false :=
  (t.ascii_word c hascii).trans h

theorem CharTable.digit_eq_false (t : CharTable) {c : Char} (hascii : c.toNat < 128)
    (h : c.isDigit = false) : t.digit c = false :=
  (t.ascii_digit c hascii).trans h

/-- `[A-Za-z…]` with further characters. -/
def letterOr (extra : List Char) (c : Char) : Bool := c.isAlpha || decide (c ∈ extra)

/-- `[A-Za-z0-9…]` with further characters. -/
def alnumOr (extra : List Char) (c : Char) : Bool := c.isAlphanum || decide (c ∈ extra)

variable (word : Char → Bool) (P : Pattern Char)

/-- `re.sub(pattern, repl, s)` for a function `repl` of the match. -/
def sub (repl : String → String) (s : String) : String :=
  String.ofList ((cut word P s.toList).replace fun m => (repl (String.ofList m)).toList)

end RagEval.Lib.Regex
