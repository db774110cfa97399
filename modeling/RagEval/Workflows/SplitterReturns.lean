import RagEval.Lib.NumOrder
import RagEval.Lib.Outcome
import RagEval.Workflows.Chunks

/-!
# When the text splitter returns, and what

The checks of the splitter compare `chunk_size` and `chunk_overlap` with numbers and leave
`separators` alone. What remains is decided by the separators, and by a `chunk_overlap` that is a
`float`: it is no bound of a slice, and comes to none as long as it is not exceeded.

## Main results

- `succeeds_run_iff` — when the node returns
- `run_of_parts` — the chunks it returns are those of the abstract model, stripped
-/

namespace RagEval.Workflows.RecursiveTextSplitterNode
open RagEval.Lib RagEval.Lib.Outcome Split Chunking

/-- The separators part a text: the separator that is added to each part, and the parts. -/
inductive Parts (text : String) : Value → String → List String → Prop where
  | first {sep : String} (others : List Value) (hsep : sep ≠ "") :
    Parts text (.list (.str sep :: others)) sep (Text.splitOn text sep)
  | firstChar {separators : String} {c : Char} {cs : List Char} (hc : separators.toList = c :: cs) :
    Parts text (.str separators) c.toString (Text.splitOn text c.toString)
  | noWords (others : List Value) (hwords : Text.words text = []) :
    Parts text (.list (.none :: others)) "" []
  | whole {separators : Value} (hfalsy : separators.truthy = false) : Parts text separators "" [text]

/-- A part that does not fit finds a chunk before it that is not longer than the overlap. -/
def FloatOverlapUnused (chunkSize chunkOverlap : Value) (sep : String) (parts : List String) :
    Prop :=
  ∀ before part after, parts = before ++ part :: after →
    let length := (before.map fun p => p.length + sep.length).sum
    Value.le (.int (length + part.length)) chunkSize = .ok true ∨
      Value.lt chunkOverlap (.int length) = .ok false

/-- The text can be split: it has parts, and a `float` as overlap is not used. -/
def Splittable (text : String) (chunkSize chunkOverlap separators : Value) : Prop :=
  ∃ sep parts, Parts text separators sep parts ∧
    (chunkOverlap.index?.isSome = true ∨ FloatOverlapUnused chunkSize chunkOverlap sep parts)

/-! ## The loop -/

/-- Over a nonempty list: the first element, and those behind it. -/
theorem forall_parts_cons {Q : List String → String → Prop} {p : String} {rest : List String} :
    (∀ before part after, p :: rest = before ++ part :: after → Q before part) ↔
      Q [] p ∧ ∀ before part after, rest = before ++ part :: after → Q (p :: before) part := by
  constructor
  · intro h
    refine ⟨h [] p rest rfl, fun before part after hrest => h (p :: before) part after ?_⟩
    rw [hrest]
    rfl
  · rintro ⟨hfirst, hrest⟩ before part after hsplit
    cases before with
    | nil =>
      obtain ⟨rfl, -⟩ := List.cons.inj hsplit
      exact hfirst
    | cons b before =>
      obtain ⟨rfl, htail⟩ := List.cons.inj hsplit
      exact hrest before part after htail

section
variable {chunkSize chunkOverlap : Value} (hsize : chunkSize.isNumber = true)
include hsize

theorem addPart_fits {s : SplitState} {part : String} (sep : String)
    (hfits : fitsIn chunkSize (s.currentChunk.length + part.length) = true) :
    addPart chunkSize chunkOverlap (.str sep) s part =
      .ok ⟨s.chunks, s.currentChunk ++ (part ++ sep)⟩ := by
  have hcast : (s.currentChunk.length + part.length : Int) =
      (s.currentChunk.length + part.length : Nat) := by omega
  rw [addPart, hcast, le_eq_fitsIn hsize, hfits]
  rfl

theorem addPart_exceeds {s : SplitState} {part : String} (sep : String)
    (hfits : fitsIn chunkSize (s.currentChunk.length + part.length) = false) :
    addPart chunkSize chunkOverlap (.str sep) s part =
      chunkOverlap.tailStart s.currentChunk.length >>= fun start =>
        .ok ⟨s.flush, Text.dropFirst s.currentChunk start ++ part ++ sep⟩ := by
  have hcast : (s.currentChunk.length + part.length : Int) =
      (s.currentChunk.length + part.length : Nat) := by omega
  rw [addPart, hcast, le_eq_fitsIn hsize, hfits]
  rfl

/-- With an integer as overlap every round returns. -/
theorem succeeds_addPart_of_index (hindex : chunkOverlap.index?.isSome = true) (sep : String)
    (s : SplitState) (part : String) :
    Succeeds (addPart chunkSize chunkOverlap (.str sep) s part) := by
  cases hfits : fitsIn chunkSize (s.currentChunk.length + part.length) with
  | true => exact ⟨_, addPart_fits hsize sep hfits⟩
  | false =>
    rw [addPart_exceeds hsize sep hfits]
    cases chunkOverlap with
    | int i => exact ⟨_, rfl⟩
    | bool b => exact ⟨_, rfl⟩
    | _ => cases hindex

/-- With a `float` as overlap a round returns unless it would use it, and cuts nothing off. -/
theorem succeeds_addPart_float_iff {x : BitVec 64} (sep : String) (s : SplitState) (part : String) :
    (∀ s', addPart chunkSize (.float x) (.str sep) s part = .ok s' →
      s'.currentChunk.length = s.currentChunk.length + (part.length + sep.length)) ∧
    (Succeeds (addPart chunkSize (.float x) (.str sep) s part) ↔
      fitsIn chunkSize (s.currentChunk.length + part.length) = true ∨
        Value.lt (.float x) (.int s.currentChunk.length) = .ok false) := by
  cases hfits : fitsIn chunkSize (s.currentChunk.length + part.length) with
  | true =>
    rw [addPart_fits hsize sep hfits]
    refine ⟨fun s' hs' => ?_, by simp⟩
    obtain rfl := Except.ok.inj hs'
    simp only [String.length_append]
  | false =>
    have hlt : Value.lt (.float x) (.int s.currentChunk.length) =
        .ok ((Num.ofFloat x).lt (Num.ofInt s.currentChunk.length)) := rfl
    rw [addPart_exceeds hsize sep hfits, Value.tailStart, hlt]
    cases (Num.ofFloat x).lt (Num.ofInt s.currentChunk.length) with
    -- the difference is positive and a `float`, which no slice takes
    | true =>
      refine ⟨fun s' hs' => ?_, ?_⟩
      · cases hs'
      · refine ⟨fun h => ?_, fun h => ?_⟩
        · obtain ⟨a, ha⟩ := h
          cases ha
        · rcases h with h | h <;> cases h
    -- `max` keeps its `0`, and the slice the whole chunk
    | false =>
      refine ⟨fun s' hs' => ?_, ?_⟩
      · obtain rfl := Except.ok.inj hs'
        simp only [String.length_append, Text.dropFirst, List.drop_zero, String.ofList_toList]
        omega
      · exact ⟨fun _ => .inr rfl, fun _ => ⟨_, rfl⟩⟩

/-- The loop returns unless a round would use the overlap. -/
theorem succeeds_foldlM_float_iff {x : BitVec 64} (sep : String) (parts : List String)
    (s : SplitState) :
    Succeeds (parts.foldlM (addPart chunkSize (.float x) (.str sep)) s) ↔
      ∀ before part after, parts = before ++ part :: after →
        fitsIn chunkSize (s.currentChunk.length + (before.map fun p => p.length + sep.length).sum +
            part.length) = true ∨
          Value.lt (.float x) (.int (s.currentChunk.length +
            (before.map fun p => p.length + sep.length).sum : Nat)) = .ok false := by
  -- the first round leaves what the positions behind it count from
  induction parts generalizing s with
  | nil => simp
  | cons part rest ih =>
    obtain ⟨hlength, hround⟩ := succeeds_addPart_float_iff hsize (x := x) sep s part
    rw [List.foldlM_cons, succeeds_bind, forall_parts_cons]
    simp only [List.map_nil, List.sum_nil, Nat.add_zero, List.map_cons, List.sum_cons]
    rw [← hround]
    constructor
    · rintro ⟨s', hs', hrest⟩
      refine ⟨⟨s', hs'⟩, ?_⟩
      have hall := (ih s').mp hrest
      rw [hlength s' hs'] at hall
      simpa only [Nat.add_assoc] using hall
    · rintro ⟨⟨s', hs'⟩, hrest⟩
      refine ⟨s', hs', (ih s').mpr ?_⟩
      rw [hlength s' hs']
      simpa only [Nat.add_assoc] using hrest

theorem succeeds_foldlM_of_index (hindex : chunkOverlap.index?.isSome = true) (sep : String)
    (parts : List String) (s : SplitState) :
    Succeeds (parts.foldlM (addPart chunkSize chunkOverlap (.str sep)) s) := by
  induction parts generalizing s with
  | nil => exact ⟨s, rfl⟩
  | cons part rest ih =>
    obtain ⟨s', hs'⟩ := succeeds_addPart_of_index hsize hindex sep s part
    rw [List.foldlM_cons, hs', ok_bind]
    exact ih s'

/-- From the beginning, for any number as overlap. -/
theorem succeeds_loop_iff (hoverlap : chunkOverlap.isNumber = true) (sep : String)
    (parts : List String) :
    Succeeds (parts.foldlM (addPart chunkSize chunkOverlap (.str sep)) ⟨[], ""⟩) ↔
      chunkOverlap.index?.isSome = true ∨
        FloatOverlapUnused chunkSize chunkOverlap sep parts := by
  by_cases hindex : chunkOverlap.index?.isSome = true
  · simp only [hindex, true_or, iff_true]
    exact succeeds_foldlM_of_index hsize hindex sep parts _
  · rw [or_iff_right hindex]
    cases chunkOverlap with
    | float x =>
      have hle : ∀ m n : Nat, Value.le (.int (m + n)) chunkSize = .ok (fitsIn chunkSize (m + n)) :=
        fun m n => le_eq_fitsIn hsize (m + n)
      rw [succeeds_foldlM_float_iff hsize, FloatOverlapUnused]
      simp only [hle, Except.ok.injEq, String.length_empty, Nat.zero_add]
    | int i => exact absurd rfl hindex
    | bool b => exact absurd rfl hindex
    | _ => cases hoverlap

end

/-! ## Parts -/

section
variable {text : String} {chunkSize chunkOverlap separators : Value}

/-- No part can be extended by `None`. -/
theorem not_succeeds_addPart_none (s : SplitState) (part : String) :
    ¬Succeeds (addPart chunkSize chunkOverlap .none s part) := by
  rw [addPart, succeeds_bind]
  rintro ⟨fits, -, h⟩
  cases fits with
  | true => exact not_succeeds_error _ h
  | false =>
    obtain ⟨start, -, h⟩ := (succeeds_bind _ _).mp h
    exact not_succeeds_error _ h

/-- With parts, the function is its loop over them. -/
theorem splitRecursive_of_parts {sep : String} {parts : List String}
    (hparts : Parts text separators sep parts) :
    splitRecursive text chunkSize chunkOverlap separators =
      parts.foldlM (addPart chunkSize chunkOverlap (.str sep)) ⟨[], ""⟩ >>= fun s => pure s.flush := by
  cases hparts with
  | first others hsep =>
    show (Text.splitValue text (.str sep) >>= _) = _
    rw [Text.splitValue, if_neg hsep]
    rfl
  | @firstChar s c cs hc =>
    have hne : s ≠ "" := by
      rintro rfl
      cases hc
    have hchar : c.toString ≠ "" := by
      rw [ne_eq, ← String.toList_inj]
      simp
    have hfirst : (Value.str s).firstOr (.str "") = .ok (.str c.toString) := by
      rw [Value.firstOr, hc]
    rw [splitRecursive, hfirst, ok_bind, Value.truthy, if_pos (by simpa using hne),
      Text.splitValue, if_neg hchar]
    rfl
  | noWords others hwords =>
    rw [splitRecursive, Value.firstOr, ok_bind, Value.truthy, List.isEmpty_cons, Bool.not_false,
      if_pos rfl, Text.splitValue, hwords]
    rfl
  | whole hfalsy =>
    rw [splitRecursive, Value.firstOr_of_falsy hfalsy, ok_bind, hfalsy]
    rfl

/-- With parts, the function returns if its loop over them does. -/
theorem succeeds_splitRecursive_of_parts {sep : String} {parts : List String}
    (hparts : Parts text separators sep parts) :
    Succeeds (splitRecursive text chunkSize chunkOverlap separators) ↔
      Succeeds (parts.foldlM (addPart chunkSize chunkOverlap (.str sep)) ⟨[], ""⟩) := by
  rw [splitRecursive_of_parts hparts, succeeds_bind]
  simp only [succeeds_pure, and_true]
  rfl

/-- Where the function returns there are parts. -/
theorem parts_of_succeeds (h : Succeeds (splitRecursive text chunkSize chunkOverlap separators)) :
    ∃ sep parts, Parts text separators sep parts := by
  by_cases htruthy : separators.truthy = true
  · obtain ⟨separator, hfirst, h⟩ := (succeeds_bind _ _).mp h
    rw [if_pos htruthy] at h
    obtain ⟨parts, hsplit, h⟩ := (succeeds_bind _ _).mp h
    cases separators with
    | str s =>
      cases hs : s.toList with
      | nil =>
        obtain rfl : s = "" := by rwa [String.toList_eq_nil_iff] at hs
        cases htruthy
      | cons c cs => exact ⟨_, _, .firstChar hs⟩
    | list xs =>
      cases xs with
      | nil => cases htruthy
      | cons x others =>
        obtain rfl := Except.ok.inj hfirst
        cases x with
        | str sep =>
          by_cases hsep : sep = ""
          · rw [Text.splitValue, if_pos hsep] at hsplit
            cases hsplit
          · exact ⟨_, _, .first others hsep⟩
        | none =>
          -- split at whitespace, but `None` cannot be added to a part
          obtain rfl : Text.words text = parts := Except.ok.inj hsplit
          cases hwords : Text.words text with
          | nil => exact ⟨_, _, .noWords others hwords⟩
          | cons part rest =>
            obtain ⟨s, hloop, -⟩ := (succeeds_bind _ _).mp h
            rw [hwords, List.foldlM_cons] at hloop
            obtain ⟨s', hround, -⟩ := bind_ok hloop
            exact absurd ⟨s', hround⟩ (not_succeeds_addPart_none _ _)
        | _ => cases hsplit
    | dict kvs =>
      cases kvs with
      | nil => cases htruthy
      | cons kv rest => cases hfirst
    | _ => simp only [Value.firstOr, htruthy, if_true, reduceCtorEq] at hfirst
  · exact ⟨"", [text], .whole (Bool.eq_false_of_not_eq_true htruthy)⟩

theorem succeeds_splitRecursive_iff (hsize : chunkSize.isNumber = true)
    (hoverlap : chunkOverlap.isNumber = true) :
    Succeeds (splitRecursive text chunkSize chunkOverlap separators) ↔
      Splittable text chunkSize chunkOverlap separators := by
  constructor
  · intro h
    obtain ⟨sep, parts, hparts⟩ := parts_of_succeeds h
    have hloop := (succeeds_splitRecursive_of_parts hparts).mp h
    exact ⟨sep, parts, hparts, (succeeds_loop_iff hsize hoverlap sep parts).mp hloop⟩
  · rintro ⟨sep, parts, hparts, hoverlap'⟩
    rw [succeeds_splitRecursive_of_parts hparts, succeeds_loop_iff hsize hoverlap]
    exact hoverlap'

end

/-- For accepted parameters the node returns exactly if there is no text or it can be split. -/
theorem succeeds_run_iff {inputData config : Dict String Value} {text : String}
    (haccepted : validateConfig config = .ok [])
    (htext : inputData.getD "text" (.str "") = .str text) :
    Succeeds (run inputData config) ↔ text = "" ∨
      Splittable text (config.getD "chunk_size" (.int 1000))
        (config.getD "chunk_overlap" (.int 200)) (config.getD "separators" defaultSeparators) := by
  by_cases hne : text = ""
  · subst hne
    rw [run_of_empty htext]
    simp
  · obtain ⟨hsize, hoverlap⟩ := isNumber_sizes haccepted
    rw [run_of_text config htext hne, or_iff_right hne, succeeds_bind,
      ← succeeds_splitRecursive_iff hsize hoverlap]
    simp only [succeeds_ok, and_true]
    rfl

theorem parts_first_iff {text sep sep' : String} {others : List Value} {parts : List String} :
    Parts text (.list (.str sep :: others)) sep' parts ↔
      sep ≠ "" ∧ sep' = sep ∧ parts = Text.splitOn text sep := by
  constructor
  · intro h
    cases h with
    | first others hsep => exact ⟨hsep, rfl, rfl⟩
    | whole hfalsy => cases hfalsy
  · rintro ⟨hsep, rfl, rfl⟩
    exact .first others hsep

/-- A part of a text with its separator is never empty. -/
theorem Parts.append_ne_nil {text sep : String} {separators : Value} {parts : List String}
    (h : Parts text separators sep parts) (hne : text ≠ "") :
    ∀ piece ∈ parts.map String.toList, piece ++ sep.toList ≠ [] := by
  intro piece hpiece
  cases h with
  | first others hsep =>
    exact List.append_ne_nil_of_right_ne_nil _ (by rwa [ne_eq, String.toList_eq_nil_iff])
  | firstChar hc => exact List.append_ne_nil_of_right_ne_nil _ (by simp)
  | noWords others hwords => cases hpiece
  | whole hfalsy =>
    obtain rfl := List.mem_singleton.mp hpiece
    exact List.append_ne_nil_of_left_ne_nil (by rwa [ne_eq, String.toList_eq_nil_iff]) _

/-! ## What is returned -/

/-- How many characters a chunk hands on to the next one, if it has as many. -/
inductive Carries (chunkSize : Value) (sep : String) (parts : List String) : Value → Nat → Prop where
  | index {chunkOverlap : Value} {overlap : Nat}
    (h : chunkOverlap.index? = some (overlap : Int)) : Carries chunkSize sep parts chunkOverlap overlap
  | whole {x : BitVec 64} (h : FloatOverlapUnused chunkSize (.float x) sep parts) :
    Carries chunkSize sep parts (.float x) (parts.map fun p => p.length + sep.length).sum

section
variable {chunkSize chunkOverlap separators : Value} {text sep : String} {parts : List String}
  {overlap : Nat}

/-- With an unused `float`, a chunk hands on all it has. -/
theorem foldlM_addPart_float (hsize : chunkSize.isNumber = true) {x : BitVec 64} (sep : String)
    (parts : List String) (s : Chunks Char)
    (hlong : s.current.length + (parts.map fun p => p.length + sep.length).sum ≤ overlap)
    (hunused : ∀ before part after, parts = before ++ part :: after →
      fitsIn chunkSize (s.current.length + (before.map fun p => p.length + sep.length).sum +
          part.length) = true ∨
        Value.lt (.float x) (.int (s.current.length +
          (before.map fun p => p.length + sep.length).sum : Nat)) = .ok false) :
    parts.foldlM (addPart chunkSize (.float x) (.str sep)) (ofChunks s) =
      .ok (ofChunks ((parts.map String.toList).foldl (add (fitsIn chunkSize) overlap sep.toList)
        s)) := by
  induction parts generalizing s with
  | nil => rfl
  | cons part rest ih =>
    obtain ⟨hfirst, hrest⟩ := forall_parts_cons.mp hunused
    rw [List.map_cons, List.sum_cons] at hlong
    simp only [List.map_nil, List.sum_nil, Nat.add_zero] at hfirst
    have htail : fitsIn chunkSize (s.current.length + part.toList.length) = false →
        Value.tailStart s.current.length (.float x) = .ok (s.current.length - overlap) := by
      intro hfits
      have hlt := hfirst.resolve_left (by rw [← String.length_toList, hfits]; exact Bool.false_ne_true)
      have hnone : (Num.ofFloat x).lt (Num.ofInt s.current.length) = false := Except.ok.inj hlt
      rw [Value.tailStart, hnone, Nat.sub_eq_zero_of_le (by omega)]
      rfl
    have hround := addPart_ofChunks_of_tailStart hsize sep s part.toList htail
    rw [String.ofList_toList] at hround
    -- what the chunk hands on is all of it, so it grows by the part whether that fits or not
    have hgrows : (add (fitsIn chunkSize) overlap sep.toList s part.toList).current.length =
        s.current.length + (part.length + sep.length) := by
      rw [add, ← String.length_toList, ← String.length_toList]
      split
      · rw [List.length_append, List.length_append]
      · rw [List.length_append, List.length_append, length_rtake, Nat.min_eq_right (by omega)]
    rw [List.foldlM_cons, hround, ok_bind, List.map_cons, List.foldl_cons]
    refine ih _ ?_ ?_
    · rw [hgrows]
      omega
    · intro before p after hsplit
      have hp := hrest before p after hsplit
      rw [List.map_cons, List.sum_cons, ← Nat.add_assoc] at hp
      rwa [hgrows]

theorem foldlM_addPart_of_carries (hsize : chunkSize.isNumber = true)
    (hcarries : Carries chunkSize sep parts chunkOverlap overlap) :
    parts.foldlM (addPart chunkSize chunkOverlap (.str sep)) (ofChunks Chunks.init) =
      .ok (ofChunks (gather (fitsIn chunkSize) overlap sep.toList (parts.map String.toList))) := by
  cases hcarries with
  | index h =>
    have hloop := foldlM_addPart hsize h sep (parts.map String.toList) Chunks.init
    rwa [List.map_map, show String.ofList ∘ String.toList = id from
      funext fun _ => String.ofList_toList, List.map_id] at hloop
  | whole h =>
    have hle : ∀ m n : Nat, Value.le (.int (m + n)) chunkSize = .ok (fitsIn chunkSize (m + n)) :=
      fun m n => le_eq_fitsIn hsize (m + n)
    refine foldlM_addPart_float hsize sep parts Chunks.init ?_ ?_
    · rw [Chunks.init, List.length_nil, Nat.zero_add]
    · intro before part after hsplit
      have hpart := h before part after hsplit
      simp only [hle, Except.ok.injEq] at hpart
      rw [Chunks.init, List.length_nil, Nat.zero_add]
      exact hpart

/-- **Refinement**: wherever the function returns, its chunks are those of the abstract model. -/
theorem splitRecursive_eq_of_parts (hsize : chunkSize.isNumber = true)
    (hparts : Parts text separators sep parts)
    (hcarries : Carries chunkSize sep parts chunkOverlap overlap) :
    splitRecursive text chunkSize chunkOverlap separators =
      .ok ((chunk (fitsIn chunkSize) overlap sep.toList (parts.map String.toList)).map stripped) := by
  have hinit : (⟨[], ""⟩ : SplitState) = ofChunks Chunks.init := rfl
  rw [splitRecursive_of_parts hparts, hinit, foldlM_addPart_of_carries hsize hcarries, ok_bind,
    flush_ofChunks]
  rfl

/-- An overlap with which the function returns hands on some number of characters: an accepted one
is not negative. -/
theorem exists_carries {config : Dict String Value} (haccepted : validateConfig config = .ok [])
    (hoverlap : (config.getD "chunk_overlap" (.int 200)).index?.isSome = true ∨
      FloatOverlapUnused chunkSize (config.getD "chunk_overlap" (.int 200)) sep parts) :
    ∃ overlap, Carries chunkSize sep parts (config.getD "chunk_overlap" (.int 200)) overlap := by
  have hnumber := (isNumber_sizes haccepted).2
  have hchecks := (runChecks_nil_iff _).mp haccepted
  simp only [List.forall_mem_cons] at hchecks
  obtain ⟨-, -, -, hnonneg, -⟩ := hchecks
  generalize config.getD "chunk_overlap" (.int 200) = chunkOverlap at *
  cases chunkOverlap with
  | int i =>
    have hlt : (Num.ofInt i).lt (Num.ofInt 0) = false := Except.ok.inj hnonneg
    have hle := Num.le_of_lt_eq_false (Num.ofInt_ne_nan i) (Num.ofInt_ne_nan 0) hlt
    rw [Num.le_iff (Num.toRat?_ofInt 0) (Num.toRat?_ofInt i), Int.cast_le] at hle
    obtain ⟨overlap, rfl⟩ := Int.eq_ofNat_of_zero_le hle
    exact ⟨overlap, .index rfl⟩
  | bool b =>
    cases b with
    | false => exact ⟨0, .index rfl⟩
    | true => exact ⟨1, .index rfl⟩
  | float x => exact ⟨_, .whole (hoverlap.resolve_left Bool.false_ne_true)⟩
  | _ => cases hnumber

/-- The parts of a text determine what a run returns. -/
theorem run_of_parts {inputData config : Dict String Value}
    (haccepted : validateConfig config = .ok [])
    (htext : inputData.getD "text" (.str "") = .str text) (hne : text ≠ "")
    (hparts : Parts text (config.getD "separators" defaultSeparators) sep parts)
    (hcarries : Carries (config.getD "chunk_size" (.int 1000)) sep parts
      (config.getD "chunk_overlap" (.int 200)) overlap) :
    run inputData config = .ok (output
      ((chunk (fitsIn (config.getD "chunk_size" (.int 1000))) overlap sep.toList
        (parts.map String.toList)).map stripped)
      (config.getD "chunk_size" (.int 1000)) (config.getD "chunk_overlap" (.int 200))) := by
  rw [run_of_text config htext hne,
    splitRecursive_eq_of_parts (isNumber_sizes haccepted).1 hparts hcarries]
  rfl

end

end RagEval.Workflows.RecursiveTextSplitterNode
