import RagEval.Workflows.SplitterReturns

/-!
# The chunks of a text

What the chunks of `_split_recursive` repeat, what they lose, how long they get and where in the
text they stand, for every accepted configuration. A `float` as overlap is accepted too; the
function returns with it only as long as no chunk is longer.

## Main results

- `splitRecursive_reconstructs_iff` — when the text can be put together from the chunks
- `chunks_within_size_iff` — when no chunk is longer than `chunk_size`
- `chunks_in_text_iff` — when all chunks are parts of the text
-/

namespace RagEval.Workflows.RecursiveTextSplitterNode
open RagEval.Lib RagEval.Lib.Outcome Split Chunking

/-! ## Putting the text together -/

/-- The raw chunks are the text and a last separator, cut into consecutive groups of whole
pieces, each behind the overlap with the chunk before it. -/
structure Reconstructs (overlap : Nat) (sep text : List Char) (raws : List (List Char)) :
    Prop where
  overlaps : raws.IsChain fun r r' => r.rtake overlap <+: r'
  joined : (freshParts overlap raws).flatten = text ++ sep
  groups : ∃ groups : List (List (List Char)), groups.flatten = split sep text ∧
    freshParts overlap raws = groups.map (terminated sep)
  pieces : ∀ piece ∈ split sep text, ∃ r ∈ raws, piece <:+: r

/-- `min(chunk_overlap, n)` where it is a number of characters: an integer, or `n` itself under a
`float` that is not less. -/
def minOverlap (chunkOverlap : Value) (n : Nat) : Option Nat :=
  match chunkOverlap.index? with
  | some overlap => some (min overlap.toNat n)
  | none =>
    match chunkOverlap.lt (.int n) with
    | .ok false => some n
    | _ => none

/-- The chunks are, in order, the stripped forms of raw chunks from which the text can be put
together, each beginning with the last `min(chunk_overlap, len)` characters of the one before. -/
def Reconstructed (chunkOverlap : Value) (sep text : List Char) (chunks : List String) : Prop :=
  ∃ raws overlap, raws.map stripped = chunks ∧
    (∀ r ∈ raws.dropLast, minOverlap chunkOverlap r.length = some (min overlap r.length)) ∧
    Reconstructs overlap sep text raws

theorem reconstructs_chunk (fits : Nat → Bool) (overlap : Nat) {sep : List Char} (hsep : sep ≠ [])
    (text : List Char) :
    Reconstructs overlap sep text (chunk fits overlap sep (split sep text)) := by
  obtain ⟨groups, hflat, hdiv⟩ := exists_division fits overlap sep (split sep text)
  rw [← hflat, chunk_of_division hdiv fun _ _ => List.append_ne_nil_of_right_ne_nil _ hsep]
  refine ⟨isChain_overlapped _ _ _ _, ?_, ⟨groups, hflat, freshParts_overlapped _ _ _⟩, ?_⟩
  · rw [freshParts_overlapped, flatten_map_terminated, hflat, terminated_split]
  · intro piece hpiece
    rw [← hflat] at hpiece
    exact exists_infix_overlapped overlap sep [] hpiece

theorem length_terminated (sep : List Char) (pieces : List (List Char)) :
    (terminated sep pieces).length = (pieces.map fun p => p.length + sep.length).sum := by
  induction pieces with
  | nil => rfl
  | cons piece rest ih => simp [ih, Nat.add_assoc]

section
variable {chunkSize chunkOverlap : Value} {sep : String} {parts : List String} {overlap : Nat}

/-- Where a part does not fit, an unused `float` is not less than the parts before it. -/
theorem FloatOverlapUnused.lt_eq_false (hsize : chunkSize.isNumber = true) {x : BitVec 64}
    (h : FloatOverlapUnused chunkSize (.float x) sep parts) {before after : List (List Char)}
    {piece : List Char} (hsplit : parts.map String.toList = before ++ piece :: after)
    (hfits : fitsIn chunkSize ((terminated sep.toList before).length + piece.length) = false) :
    Value.lt (.float x) (.int (terminated sep.toList before).length) = .ok false := by
  obtain ⟨front, rest, rfl, rfl, hrest⟩ := List.map_eq_append_iff.mp hsplit
  obtain ⟨part, back, rfl, rfl, -⟩ := List.map_eq_cons_iff.mp hrest
  have hlength : (terminated sep.toList (front.map String.toList)).length =
      (front.map fun p => p.length + sep.length).sum := by
    rw [length_terminated, List.map_map]
    rfl
  have hle := le_eq_fitsIn hsize
    ((terminated sep.toList (front.map String.toList)).length + part.toList.length)
  rw [hfits] at hle
  have hpart := h front part back rfl
  rw [hlength] at hle ⊢
  refine hpart.resolve_left ?_
  rw [show ((front.map fun p => p.length + sep.length).sum + part.length : Int) =
    ((front.map fun p => p.length + sep.length).sum + part.toList.length : Nat) from rfl, hle]
  exact fun h => nomatch h

/-- A chunk with another one behind it hands on `min(chunk_overlap, len)` characters. -/
theorem minOverlap_of_carries (hsize : chunkSize.isNumber = true) (hsep : sep ≠ "")
    (hcarries : Carries chunkSize sep parts chunkOverlap overlap) :
    ∀ r ∈ (chunk (fitsIn chunkSize) overlap sep.toList (parts.map String.toList)).dropLast,
      minOverlap chunkOverlap r.length = some (min overlap r.length) := by
  intro r hr
  cases hcarries with
  | index h =>
    rw [minOverlap, h]
    rfl
  | @whole x h =>
    have hsep' : sep.toList ≠ [] := by rwa [ne_eq, String.toList_eq_nil_iff]
    obtain ⟨groups, hflat, hdiv⟩ := exists_division (fitsIn chunkSize)
      (parts.map fun p => p.length + sep.length).sum sep.toList (parts.map String.toList)
    rw [← hflat, chunk_of_division hdiv fun _ _ => List.append_ne_nil_of_right_ne_nil _ hsep'] at hr
    -- the chunk is the stretch of a group with a piece behind it, and begins where the text does
    rcases List.eq_nil_or_concat groups with rfl | ⟨front, last, rfl⟩
    · cases hr
    rw [List.concat_eq_append] at hflat hdiv hr
    rw [overlapped_concat, List.dropLast_concat] at hr
    obtain ⟨before, group, after, rfl, rfl⟩ := (mem_overlapped_iff _ _).mp hr
    obtain ⟨next, behind, hnext⟩ : ∃ next behind, after ++ [last] = next :: behind :=
      List.exists_cons_of_ne_nil (by simp)
    have hgroups : before ++ group :: after ++ [last] = before ++ group :: next :: behind := by
      rw [List.append_assoc, List.cons_append, hnext]
    rw [hgroups] at hflat hdiv
    obtain ⟨piece, back, rfl⟩ := List.exists_cons_of_ne_nil (hdiv.nonempty next (by simp))
    have htotal : (parts.map fun p => p.length + sep.length).sum =
        (terminated sep.toList (parts.map String.toList)).length := by
      rw [length_terminated, List.map_map]
      rfl
    have hall : (terminated sep.toList (parts.map String.toList)).length =
        (terminated sep.toList (before.flatten ++ group)).length +
          (terminated sep.toList ((piece :: back) ++ behind.flatten)).length := by
      rw [← hflat, ← List.length_append, ← terminated_append]
      simp
    have hstretch : stretch (parts.map fun p => p.length + sep.length).sum sep.toList before group =
        terminated sep.toList (before.flatten ++ group) := by
      rw [stretch, terminated_append, List.rtake, Nat.sub_eq_zero_of_le, List.drop_zero]
      rw [htotal, hall, terminated_append, List.length_append]
      omega
    have hfits := hdiv.exceeds before group piece back behind rfl
    rw [hstretch] at hfits ⊢
    have hpieces : parts.map String.toList =
        (before.flatten ++ group) ++ piece :: (back ++ behind.flatten) := by
      rw [← hflat]
      simp
    have hlt := h.lt_eq_false hsize hpieces hfits
    rw [htotal, hall, Nat.min_eq_right (Nat.le_add_right _ _)]
    simp only [minOverlap, Value.index?, hlt]

end

/-- **Reconstruction.** For accepted parameters and a nonempty first separator, the text can be put
together from the chunks exactly if the overlap is an integer, or a `float` that no chunk before a
part that does not fit exceeds. With any other overlap there are no chunks. -/
theorem splitRecursive_reconstructs_iff (text : String) (chunkSize chunkOverlap : Value)
    (sep : String) (others : List Value)
    (haccepted : validateConfig (sizes chunkSize chunkOverlap) = .ok []) (hsep : sep ≠ "") :
    (∃ chunks, splitRecursive text chunkSize chunkOverlap (.list (.str sep :: others)) = .ok chunks ∧
      Reconstructed chunkOverlap sep.toList text.toList chunks) ↔
    chunkOverlap.index?.isSome = true ∨
      FloatOverlapUnused chunkSize chunkOverlap sep (Text.splitOn text sep) := by
  obtain ⟨hsize, hoverlap⟩ : chunkSize.isNumber = true ∧ chunkOverlap.isNumber = true :=
    isNumber_sizes haccepted
  have hparts : Parts text (.list (.str sep :: others)) sep (Text.splitOn text sep) :=
    .first others hsep
  constructor
  · rintro ⟨chunks, hchunks, -⟩
    obtain ⟨sep', parts, hparts', h⟩ :=
      (succeeds_splitRecursive_iff hsize hoverlap).mp ⟨chunks, hchunks⟩
    obtain ⟨-, rfl, rfl⟩ := parts_first_iff.mp hparts'
    exact h
  · intro h
    obtain ⟨overlap, hcarries⟩ := exists_carries haccepted h
    refine ⟨_, splitRecursive_eq_of_parts hsize hparts hcarries, _, overlap, rfl,
      minOverlap_of_carries hsize hsep hcarries, ?_⟩
    have hpieces : (Text.splitOn text sep).map String.toList = split sep.toList text.toList := by
      simp [Text.splitOn]
    rw [hpieces]
    exact reconstructs_chunk _ overlap (by rwa [ne_eq, String.toList_eq_nil_iff]) text.toList

/-- A text of two paragraphs, the first of 99 characters, the second of 2. -/
def twoParagraphs : String := String.ofList (List.replicate 99 'a' ++ ['\n', '\n', 'b', 'b'])

theorem splitRecursive_reconstructs_iff_twoParagraphs :
    ∃ chunks, splitRecursive twoParagraphs (.int 100) (.int 10) (.list [.str "\n\n"]) = .ok chunks ∧
      Reconstructed (.int 10) "\n\n".toList twoParagraphs.toList chunks :=
  (splitRecursive_reconstructs_iff twoParagraphs (.int 100) (.int 10) "\n\n" [] (by rfl)
    (by decide)).mpr (.inl rfl)

/-- The overlap `10.0` is accepted, and no bound of a slice. -/
theorem splitRecursive_float_overlap :
    validateConfig (sizes (.int 100) (.float 0x4024000000000000#64)) = .ok [] ∧
      splitRecursive twoParagraphs (.int 100) (.float 0x4024000000000000#64)
          (.list [.str "\n\n"]) = .error (.typeError
        "slice indices must be integers or None or have an __index__ method") ∧
      ¬∃ chunks, splitRecursive twoParagraphs (.int 100) (.float 0x4024000000000000#64)
          (.list [.str "\n\n"]) = .ok chunks ∧
        Reconstructed (.float 0x4024000000000000#64) "\n\n".toList twoParagraphs.toList chunks := by
  have hraises : splitRecursive twoParagraphs (.int 100) (.float 0x4024000000000000#64)
      (.list [.str "\n\n"]) = .error (.typeError
        "slice indices must be integers or None or have an __index__ method") := by
    decide +kernel
  refine ⟨by rfl, hraises, ?_⟩
  rintro ⟨chunks, hchunks, -⟩
  rw [hraises] at hchunks
  cases hchunks

/-! ## Every chunk -/

/-- Each chunk that a run returns is a text with the property. -/
def EveryChunk (Q : String → Prop) (inputData config : Dict String Value) : Prop :=
  ∀ out vs, run inputData config = .ok out → out.get? "chunks" = some (.list vs) →
    ∀ v ∈ vs, ∃ chunk, v = .str chunk ∧ Q chunk

section
variable {inputData config : Dict String Value} {text sep : String} {others : List Value}
  (haccepted : validateConfig config = .ok [])
  (htext : inputData.getD "text" (.str "") = .str text)
include haccepted htext

/-- The chunks are those of the abstract model, for whatever parts the text has. -/
theorem everyChunk_iff (Q : String → Prop) :
    EveryChunk Q inputData config ↔ text = "" ∨ ∀ sep parts overlap,
      Parts text (config.getD "separators" defaultSeparators) sep parts →
      Carries (config.getD "chunk_size" (.int 1000)) sep parts
        (config.getD "chunk_overlap" (.int 200)) overlap →
      ∀ r ∈ chunk (fitsIn (config.getD "chunk_size" (.int 1000))) overlap sep.toList
        (parts.map String.toList), Q (stripped r) := by
  by_cases hne : text = ""
  · subst hne
    refine iff_of_true (fun out vs hrun hvs => ?_) (.inl rfl)
    obtain rfl := Except.ok.inj ((run_of_empty htext).symm.trans hrun)
    obtain rfl := Value.list.inj (Option.some.inj hvs)
    exact fun v hv => absurd hv List.not_mem_nil
  rw [or_iff_right hne]
  constructor
  · intro hevery sep parts overlap hparts hcarries r hr
    obtain ⟨chunk, hchunk, hQ⟩ := hevery _ _ (run_of_parts haccepted htext hne hparts hcarries) rfl
      (.str (stripped r)) (List.mem_map_of_mem (List.mem_map_of_mem hr))
    rwa [Value.str.inj hchunk]
  · intro hall out vs hrun hvs v hv
    obtain ⟨sep, parts, hparts, hoverlap⟩ :=
      ((succeeds_run_iff haccepted htext).mp ⟨out, hrun⟩).resolve_left hne
    obtain ⟨overlap, hcarries⟩ := exists_carries haccepted hoverlap
    have hok := run_of_parts haccepted htext hne hparts hcarries
    obtain rfl := Except.ok.inj (hok.symm.trans hrun)
    obtain rfl := Value.list.inj (Option.some.inj hvs)
    obtain ⟨chunk, hchunk, rfl⟩ := List.mem_map.mp hv
    obtain ⟨r, hr, rfl⟩ := List.mem_map.mp hchunk
    exact ⟨_, rfl, hall sep parts overlap hparts hcarries r hr⟩

/-- With a text for a first separator the parts are the pieces between its occurrences. -/
theorem everyChunk_first_iff (Q : String → Prop)
    (hseparators : config.getD "separators" defaultSeparators = .list (.str sep :: others))
    (hsep : sep ≠ "") :
    EveryChunk Q inputData config ↔ text = "" ∨ ∀ overlap,
      Carries (config.getD "chunk_size" (.int 1000)) sep (Text.splitOn text sep)
        (config.getD "chunk_overlap" (.int 200)) overlap →
      ∀ r ∈ chunk (fitsIn (config.getD "chunk_size" (.int 1000))) overlap sep.toList
        (split sep.toList text.toList), Q (stripped r) := by
  have hpieces : (Text.splitOn text sep).map String.toList = split sep.toList text.toList := by
    simp [Text.splitOn]
  rw [everyChunk_iff haccepted htext, hseparators]
  simp only [parts_first_iff]
  refine or_congr_right ⟨fun h overlap hcarries => ?_, ?_⟩
  · rw [← hpieces]
    exact h sep _ overlap ⟨hsep, rfl, rfl⟩ hcarries
  · rintro h sep' parts overlap ⟨-, rfl, rfl⟩ hcarries
    rw [hpieces]
    exact h overlap hcarries

end

/-! ## Lengths -/

theorem length_stripped (r : List Char) : (stripped r).length = (trim Text.isSpace r).length := by
  rw [← String.length_toList, stripped, Text.toList_strip, String.toList_ofList]

/-- Each piece of the text and the `overlap` characters before it, or all if there are fewer,
are at most `chunk_size` characters, the spaces at both ends not counted. -/
def PiecesFit (chunkSize : Value) (overlap : Nat) (sep text : List Char) : Prop :=
  ∀ before piece after, split sep text = before ++ piece :: after →
    Value.le (.int (trim Text.isSpace
      ((terminated sep before).rtake overlap ++ piece)).length) chunkSize = .ok true

/-- **Length.** With the default separators, all chunks of a text are at most `chunk_size`
characters long exactly when each paragraph is together with the overlap before it. -/
theorem chunks_within_size_iff (text : String) (inputData config : Dict String Value)
    (haccepted : validateConfig config = .ok [])
    (hseparators : config.getD "separators" defaultSeparators = defaultSeparators)
    (htext : inputData.getD "text" (.str "") = .str text) :
    EveryChunk (fun chunk =>
        Value.le (.int chunk.length) (config.getD "chunk_size" (.int 1000)) = .ok true)
        inputData config ↔
      text = "" ∨ ∀ overlap,
        Carries (config.getD "chunk_size" (.int 1000)) "\n\n" (Text.splitOn text "\n\n")
          (config.getD "chunk_overlap" (.int 200)) overlap →
        PiecesFit (config.getD "chunk_size" (.int 1000)) overlap "\n\n".toList text.toList := by
  have hsize := (isNumber_sizes haccepted).1
  have hspace : ∀ c ∈ "\n\n".toList, Text.isSpace c = true := List.all_eq_true.mp (by decide)
  rw [everyChunk_first_iff haccepted htext _ hseparators (by decide)]
  refine or_congr_right (forall₂_congr fun overlap _ => ?_)
  simp only [PiecesFit, le_eq_fitsIn hsize, length_stripped, Except.ok.injEq]
  exact fits_trim_iff overlap (fun _ _ => fitsIn_mono) hspace (by decide) _

/-- A single paragraph of one word. -/
def longWord : String := String.ofList (List.replicate 101 'a')

theorem longWord_not_within_size :
    ¬EveryChunk (fun chunk => Value.le (.int chunk.length) (.int 100) = .ok true)
      (textInput longWord) (sizes (.int 100) (.int 10)) := by
  have hchunk : chunk (fitsIn (.int 100)) 10 "\n\n".toList (split "\n\n".toList longWord.toList) =
      [longWord.toList ++ "\n\n".toList] := by decide +kernel
  have hlength : (trim Text.isSpace (longWord.toList ++ "\n\n".toList)).length = 101 := by
    decide +kernel
  intro hevery
  have hall := ((everyChunk_first_iff (by rfl) (by rfl) _ (by rfl) (by decide)).mp
    hevery).resolve_left (by decide) 10 (.index rfl)
  have hle := hall _ (hchunk ▸ List.mem_singleton_self _)
  rw [length_stripped, hlength] at hle
  exact absurd hle (by decide)

theorem chunks_within_size_iff_word : PiecesFit (.int 100) 10 "\n\n".toList "word".toList := by
  have hrun : run (textInput "word") (sizes (.int 100) (.int 10)) =
      .ok (output ["word"] (.int 100) (.int 10)) := by rfl
  have hall : EveryChunk (fun chunk => Value.le (.int chunk.length) (.int 100) = .ok true)
      (textInput "word") (sizes (.int 100) (.int 10)) := by
    intro out vs hout hvs v hv
    obtain rfl := Except.ok.inj (hrun.symm.trans hout)
    obtain rfl := Value.list.inj (Option.some.inj hvs)
    exact ⟨"word", List.mem_singleton.mp hv, by decide⟩
  have hiff := chunks_within_size_iff "word" (textInput "word") (sizes (.int 100) (.int 10))
    (by rfl) (by rfl) (by rfl)
  exact (hiff.mp hall).resolve_left (by decide) 10 (.index rfl)

/-! ## Where the chunks stand -/

/-- A trimmed list followed by `sep` lies in a blank list only if `sep` is blank too. -/
theorem isSpace_of_trim_isInfix {t sep l : List Char} (hl : ∀ c ∈ l, Text.isSpace c = true)
    (h : trim Text.isSpace (t ++ sep) <:+: l) : ∀ c ∈ sep, Text.isSpace c = true := by
  have hcount : (t ++ sep).countP (!Text.isSpace ·) ≤ l.countP (!Text.isSpace ·) := by
    rw [← countP_trim]
    exact h.sublist.countP_le
  have hzero : l.countP (!Text.isSpace ·) = 0 := by
    rw [List.countP_eq_zero]
    intro c hc
    simp [hl c hc]
  rw [hzero, Nat.le_zero, List.countP_eq_zero] at hcount
  intro c hc
  simpa using hcount c (List.mem_append_right _ hc)

/-- The last stretch of the pieces occurs in the text, stripped: the last group of a division of
them and the overlap before it, with a separator behind each piece. -/
def LastInText (chunkSize : Value) (overlap : Nat) (sep text : List Char) : Prop :=
  ∀ before group, (before ++ [group]).flatten = split sep text →
    Division (fitsIn chunkSize) overlap sep (before ++ [group]) →
      trim Text.isSpace (stretch overlap sep before group) <:+: text

/-- All chunks of a text occur in it if the last one does, and all of them if the separator is
blank. -/
theorem forall_mem_chunk_infix_iff {chunkSize : Value} {overlap : Nat} {sep text : List Char}
    (hsep : sep ≠ []) :
    (∀ r ∈ chunk (fitsIn chunkSize) overlap sep (split sep text),
        (stripped r).toList <:+: text) ↔
      (∀ c ∈ sep, Text.isSpace c = true) ∨ LastInText chunkSize overlap sep text := by
  have hstripped : ∀ r, (stripped r).toList = trim Text.isSpace r := by
    intro r
    rw [stripped, Text.toList_strip, String.toList_ofList]
  simp only [hstripped]
  have hne : ∀ piece ∈ split sep text, piece ++ sep ≠ [] :=
    fun _ _ => List.append_ne_nil_of_right_ne_nil _ hsep
  rw [forall_mem_chunk_iff hne]
  constructor
  · intro hall
    exact .inr fun before group hflat hdiv => hall _ hflat hdiv before group [] rfl
  · intro h groups hflat hdiv before group after hsplit
    have hterminated : ∀ gs g, groups = gs ++ [g] →
        terminated sep (gs ++ [g]).flatten = text ++ sep := by
      rintro gs g rfl
      rw [hflat, terminated_split]
    rcases List.eq_nil_or_concat after with rfl | ⟨rest, last, rfl⟩
    · -- the last stretch ends with a separator that the text does not have
      subst hsplit
      obtain ⟨t, ht, hsuffix⟩ := @stretch_eq_concat _ overlap _ _ _ _ (hterminated before group rfl)
        (hdiv.nonempty group (by simp))
      rcases h with hblank | hlast
      · rw [ht, trim_append_of_all hblank]
        exact (trim_isInfix _ t).trans hsuffix.isInfix
      · exact hlast before group hflat hdiv
    · rw [List.concat_eq_append, ← List.cons_append, ← List.append_assoc] at hsplit
      refine (trim_isInfix _ _).trans ?_
      refine infix_of_mem_overlapped (hterminated _ last hsplit) (hdiv.nonempty last ?_)
        ((mem_overlapped_iff overlap sep).mpr ⟨before, group, rest, rfl, rfl⟩)
      simp [hsplit]

theorem everyChunk_infix_iff {inputData config : Dict String Value} {text sep : String}
    {others : List Value} (haccepted : validateConfig config = .ok [])
    (hseparators : config.getD "separators" defaultSeparators = .list (.str sep :: others))
    (hsep : sep ≠ "") (htext : inputData.getD "text" (.str "") = .str text) :
    EveryChunk (fun chunk => chunk.toList <:+: text.toList) inputData config ↔
      (∀ c ∈ sep.toList, Text.isSpace c = true) ∨ text = "" ∨ ∀ overlap,
        Carries (config.getD "chunk_size" (.int 1000)) sep (Text.splitOn text sep)
          (config.getD "chunk_overlap" (.int 200)) overlap →
        LastInText (config.getD "chunk_size" (.int 1000)) overlap sep.toList text.toList := by
  have hsep' : sep.toList ≠ [] := by rwa [ne_eq, String.toList_eq_nil_iff]
  rw [everyChunk_first_iff haccepted htext _ hseparators hsep]
  simp only [forall_mem_chunk_infix_iff hsep']
  by_cases hblank : ∀ c ∈ sep.toList, Text.isSpace c = true
  · exact iff_of_true (.inr fun _ _ => .inl hblank) (.inl hblank)
  · simp only [or_iff_right hblank]

/-- A text without the separator is one part, which comes first, so no overlap is used. -/
theorem carries_of_not_isInfix {config : Dict String Value} {text sep : String}
    (haccepted : validateConfig config = .ok []) (hsub : ¬sep.toList <:+: text.toList) :
    ∃ overlap, Carries (config.getD "chunk_size" (.int 1000)) sep (Text.splitOn text sep)
      (config.getD "chunk_overlap" (.int 200)) overlap := by
  refine exists_carries haccepted (.inr ?_)
  have hchecks := (runChecks_nil_iff _).mp haccepted
  simp only [List.forall_mem_cons] at hchecks
  obtain ⟨-, -, -, hnonneg, -⟩ := hchecks
  have hparts : Text.splitOn text sep = [text] := by
    rw [Text.splitOn, split_of_not_isInfix hsub, List.map_singleton, String.ofList_toList]
  intro before part after hsplit
  rw [hparts] at hsplit
  obtain rfl : before = [] := by
    have hlength := congrArg List.length hsplit
    rw [List.length_singleton, List.length_append, List.length_cons] at hlength
    exact List.length_eq_zero_iff.mp (by omega)
  exact .inr hnonneg

/-- **Place.** For accepted parameters and a nonempty first separator: the chunks of all texts are
parts of them exactly when the separator is blank; with any separator the chunks of a text are
parts of it exactly when the separator is blank or the last stretch of the pieces, which ends with
a separator that was never there, happens to occur in the text. -/
theorem chunks_in_text_iff (config : Dict String Value) (sep : String) (others : List Value)
    (haccepted : validateConfig config = .ok [])
    (hseparators : config.getD "separators" defaultSeparators = .list (.str sep :: others))
    (hsep : sep ≠ "") :
    ((∀ text, text ≠ "" →
        EveryChunk (fun chunk => chunk.toList <:+: text.toList) (textInput text) config) ↔
      ∀ c ∈ sep.toList, Text.isSpace c = true) ∧
    ∀ text, text ≠ "" →
      (EveryChunk (fun chunk => chunk.toList <:+: text.toList) (textInput text) config ↔
        (∀ c ∈ sep.toList, Text.isSpace c = true) ∨ ∀ overlap,
          Carries (config.getD "chunk_size" (.int 1000)) sep (Text.splitOn text sep)
            (config.getD "chunk_overlap" (.int 200)) overlap →
          LastInText (config.getD "chunk_size" (.int 1000)) overlap sep.toList text.toList) := by
  have hone : ∀ text, text ≠ "" →
      (EveryChunk (fun chunk => chunk.toList <:+: text.toList) (textInput text) config ↔
        (∀ c ∈ sep.toList, Text.isSpace c = true) ∨ ∀ overlap,
          Carries (config.getD "chunk_size" (.int 1000)) sep (Text.splitOn text sep)
            (config.getD "chunk_overlap" (.int 200)) overlap →
          LastInText (config.getD "chunk_size" (.int 1000)) overlap sep.toList text.toList) := by
    intro text hne
    rw [everyChunk_infix_iff haccepted hseparators hsep (show _ = Value.str text from rfl),
      or_iff_right hne]
  refine ⟨⟨fun hall => ?_, fun hblank text hne => (hone text hne).mpr (.inl hblank)⟩, hone⟩
  -- a text of one space has no room for anything else
  by_contra hink
  have hspace : ∀ c ∈ " ".toList, Text.isSpace c = true := List.all_eq_true.mp (by decide)
  have hsub : ¬sep.toList <:+: " ".toList := fun h => hink fun c hc => hspace c (h.subset hc)
  obtain ⟨overlap, hcarries⟩ := carries_of_not_isInfix haccepted hsub
  have hlast := ((hone " " (by decide)).mp (hall " " (by decide))).resolve_left hink overlap hcarries
  have hoccurs := hlast [] [" ".toList] (split_of_not_isInfix hsub).symm (division_singleton _)
  simp only [stretch, List.flatten_nil, terminated_nil, List.rtake_nil, List.nil_append,
    terminated_cons, List.append_nil] at hoccurs
  exact hink (isSpace_of_trim_isInfix hspace hoccurs)

/-- Split at commas. -/
def atCommas : Dict String Value := Dict.ofList
  [("chunk_size", .int 100), ("chunk_overlap", .int 10), ("separators", .list [.str ","])]

theorem comma_invented :
    run (textInput "abc") atCommas = .ok (output ["abc,"] (.int 100) (.int 10)) ∧
      ¬EveryChunk (fun chunk => chunk.toList <:+: "abc".toList) (textInput "abc") atCommas := by
  have hrun : run (textInput "abc") atCommas = .ok (output ["abc,"] (.int 100) (.int 10)) := by rfl
  refine ⟨hrun, fun hall => ?_⟩
  obtain ⟨chunk, hchunk, hinside⟩ := hall _ _ hrun rfl (.str "abc,") (List.mem_singleton_self _)
  rw [← Value.str.inj hchunk] at hinside
  exact absurd hinside.length_le (by decide)

theorem chunks_in_text_iff_default :
    EveryChunk (fun chunk => chunk.toList <:+: "two words".toList) (textInput "two words")
      (sizes (.int 100) (.int 10)) :=
  (chunks_in_text_iff (sizes (.int 100) (.int 10)) "\n\n"
    [.str "\n", .str ". ", .str " ", .str ""] (by rfl) (by rfl) (by decide)).1.mpr
    (List.all_eq_true.mp (by decide)) "two words" (by decide)

end RagEval.Workflows.RecursiveTextSplitterNode
