import RagEval.Workflows.ChunkLaws
import RagEval.Workflows.Headers

/-!
# Empty chunks

Both splitters test a chunk for emptiness before they strip it, so a chunk of white space is
returned as an empty one. When that happens is decided by the text: for the text splitter by the
stretches into which the lengths of its parts divide it, for the markdown splitter by its header
lines.

## Main results

- `forall_noEmptyChunk_iff` — for which separators the text splitter never returns an empty chunk
- `noEmptyChunks_iff` — when a run returns no empty chunk, for either splitter
-/

namespace RagEval.Workflows
open RagEval.Lib RagEval.Lib.Outcome Split Chunking

/-- The characters are not all white space. -/
def Inked (cs : List Char) : Prop := ∃ c ∈ cs, Text.isSpace c = false

theorem strip_ne_empty_iff (s : String) : Text.strip s ≠ "" ↔ Inked s.toList := by
  rw [ne_eq, Text.strip_eq_empty_iff]
  simp [Inked]

/-! ## The text splitter -/

namespace RecursiveTextSplitterNode

/-- No chunk that a run returns is the empty string. -/
def NoEmptyChunk (inputData config : Dict String Value) : Prop :=
  EveryChunk (· ≠ "") inputData config

/-- Each stretch of a division of the parts has a character that is not white space. -/
def Filled (chunkSize : Value) (overlap : Nat) (sep : String) (parts : List String) : Prop :=
  ∀ groups, groups.flatten = parts.map String.toList →
    Division (fitsIn chunkSize) overlap sep.toList groups →
      ∀ before group after, groups = before ++ group :: after →
        Inked (stretch overlap sep.toList before group)

section
variable {config : Dict String Value} {sep : String} {others : List Value}
  (haccepted : validateConfig config = .ok [])
include haccepted

/-- No chunk is empty exactly if there is no text, or the stretches of its parts are filled. -/
theorem noEmptyChunk_iff {inputData : Dict String Value} {text : String}
    (htext : inputData.getD "text" (.str "") = .str text) :
    NoEmptyChunk inputData config ↔ text = "" ∨ ∀ sep parts overlap,
      Parts text (config.getD "separators" defaultSeparators) sep parts →
      Carries (config.getD "chunk_size" (.int 1000)) sep parts
        (config.getD "chunk_overlap" (.int 200)) overlap →
      Filled (config.getD "chunk_size" (.int 1000)) overlap sep parts := by
  have hstripped : ∀ r, stripped r ≠ "" ↔ Inked r := by
    intro r
    rw [stripped, strip_ne_empty_iff, String.toList_ofList]
  rw [NoEmptyChunk, everyChunk_iff haccepted htext]
  simp only [hstripped]
  by_cases hne : text = ""
  · simp [hne]
  · refine or_congr_right (forall₄_congr fun sep parts overlap hparts => imp_congr_right fun _ => ?_)
    exact forall_mem_chunk_iff (hparts.append_ne_nil hne)

omit haccepted in
/-- A stretch ends with the separator. -/
theorem suffix_stretch {overlap : Nat} {sep : List Char} {before : List (List (List Char))}
    {group : List (List Char)} (hne : group ≠ []) : sep <:+ stretch overlap sep before group := by
  obtain ⟨front, last, rfl⟩ := List.eq_nil_or_concat group |>.resolve_left hne
  rw [List.concat_eq_append, stretch_concat, ← List.append_assoc]
  exact List.suffix_append _ _

omit haccepted in
/-- Some blank text does not have the separator in it. -/
theorem exists_blank (sep : String) (hsep : sep ≠ "") :
    ∃ text, text ≠ "" ∧ (∀ c ∈ text.toList, Text.isSpace c = true) ∧
      ¬sep.toList <:+: text.toList := by
  by_cases hspace : sep.toList = [' ']
  · refine ⟨"\t", by decide, List.all_eq_true.mp (by decide), ?_⟩
    rw [hspace]
    decide
  · refine ⟨" ", by decide, List.all_eq_true.mp (by decide), fun hsub => ?_⟩
    have hpos : 0 < sep.toList.length :=
      List.length_pos_iff.mpr fun h => hsep (String.toList_eq_nil_iff.mp h)
    obtain ⟨c, hc⟩ := List.length_eq_one_iff.mp (le_antisymm hsub.length_le hpos)
    have hmem : c ∈ [' '] := hsub.subset (hc ▸ List.mem_singleton_self c)
    obtain rfl := List.mem_singleton.mp hmem
    exact hspace hc

/-- With a nonempty first separator: no text at all has an empty chunk exactly if the separator is
not white space. -/
theorem forall_noEmptyChunk_iff
    (hseparators : config.getD "separators" defaultSeparators = .list (.str sep :: others))
    (hsep : sep ≠ "") :
    (∀ text, NoEmptyChunk (textInput text) config) ↔ Inked sep.toList := by
  constructor
  · intro hall
    obtain ⟨text, hne, hblank, hsub⟩ := exists_blank sep hsep
    have hsplit := split_of_not_isInfix hsub
    have hparts : Parts text (config.getD "separators" defaultSeparators) sep
        (Text.splitOn text sep) := by
      rw [hseparators]
      exact .first others hsep
    obtain ⟨overlap, hcarries⟩ := carries_of_not_isInfix haccepted hsub
    have hfilled := ((noEmptyChunk_iff haccepted rfl).mp (hall text)).resolve_left hne
      sep _ overlap hparts hcarries [[text.toList]] (by simp [Text.splitOn, hsplit])
      (division_singleton _) [] [text.toList] [] rfl
    -- the text is blank, so what is not white space is of the separator
    obtain ⟨c, hc, hspace⟩ := hfilled
    simp only [stretch, List.flatten_nil, terminated_nil, List.rtake_nil, List.nil_append,
      terminated_cons, List.append_nil, List.mem_append] at hc
    rcases hc with hc | hc
    · rw [hblank c hc] at hspace
      cases hspace
    · exact ⟨c, hc, hspace⟩
  · rintro ⟨c, hc, hspace⟩ text
    refine (noEmptyChunk_iff haccepted rfl).mpr (.inr ?_)
    intro sep' parts overlap hparts _ groups _ hdiv before group after hsplit
    rw [hseparators] at hparts
    obtain ⟨-, rfl, -⟩ := parts_first_iff.mp hparts
    exact ⟨c, (suffix_stretch (hdiv.nonempty group (by simp [hsplit]))).subset hc, hspace⟩

end

end RecursiveTextSplitterNode

/-! ## The markdown splitter -/

namespace MarkdownHeaderSplitterNode
open Blocks

/-- No chunk that a run returns has an empty content. -/
def NoEmptyContent (inputData config : Dict String Value) : Prop :=
  ∀ out vs, run inputData config = .ok out → out.get? "chunks" = some (.list vs) →
    ∀ chunk ∈ vs, chunk.attrGet "content" .none ≠ .ok (.str "")

/-- The first line and each header line, with the lines up to the next header line: one of them
has a character that is not white space. -/
def SectionsFilled (headers lines : List String) : Prop :=
  ∀ before line rest, lines = before ++ line :: rest →
    before = [] ∨ isHeader headers line = true →
    ∃ l ∈ line :: rest.takeWhile (!isHeader headers ·), Inked l.toList

theorem inked_rawText_iff (lines : List String) :
    Inked (rawText lines).toList ↔ ∃ line ∈ lines, Inked line.toList := by
  have hnewline : Text.isSpace '\n' = true := by decide
  rw [toList_rawText]
  constructor
  · rintro ⟨c, hc, hspace⟩
    obtain ⟨piece, hpiece, hc⟩ := List.mem_flatMap.mp hc
    obtain ⟨line, hline, rfl⟩ := List.mem_map.mp hpiece
    rcases List.mem_append.mp hc with hc | hc
    · exact ⟨line, hline, c, hc, hspace⟩
    · rw [List.mem_singleton.mp hc, hnewline] at hspace
      cases hspace
  · rintro ⟨line, hline, c, hc, hspace⟩
    exact ⟨c, List.mem_flatMap.mpr ⟨line.toList, List.mem_map_of_mem hline,
      List.mem_append_left _ hc⟩, hspace⟩

theorem sectionsFilled_iff (headers lines : List String) : SectionsFilled headers lines ↔
    ∀ block ∈ blocks (isHeader headers) lines, Text.strip (rawText block) ≠ "" := by
  simp only [strip_ne_empty_iff, inked_rawText_iff, mem_blocks_iff]
  constructor
  · rintro h block ⟨before, line, rest, hlines, hline, rfl⟩
    exact h before line rest hlines hline
  · intro h before line rest hlines hline
    exact h _ ⟨before, line, rest, hlines, hline, rfl⟩

/-- No content is empty exactly if there is no text, or its sections are filled. -/
theorem noEmptyContent_iff {inputData config : Dict String Value} {text : String}
    (htext : inputData.getD "text" (.str "") = .str text) :
    NoEmptyContent inputData config ↔ text = "" ∨ ∀ headers,
      headersIn (config.getD "headers_to_split_on" defaultHeaders) = .ok headers →
      SectionsFilled headers (Text.split text '\n') := by
  by_cases hne : text = ""
  · subst hne
    refine iff_of_true (fun out vs hrun hvs => ?_) (.inl rfl)
    have hempty : run inputData config =
        .ok (Dict.ofList [("chunks", .list []), ("headers", .list [])]) := by
      rw [run, htext]
      rfl
    obtain rfl := Except.ok.inj (hempty.symm.trans hrun)
    obtain rfl := Value.list.inj (Option.some.inj hvs)
    exact fun chunk h => absurd h List.not_mem_nil
  rw [or_iff_right hne]
  constructor
  · intro hnone headers hheaders
    rw [sectionsFilled_iff]
    intro block hblock hempty
    refine hnone _ _ (run_of_headers htext hne hheaders) rfl _
      (List.mem_map_of_mem (List.mem_map_of_mem hblock)) ?_
    show Except.ok (Value.str (Text.strip (rawText block))) = _
    rw [hempty]
  · intro hall out vs hrun hvs chunk hchunk
    cases hheaders : headersIn (config.getD "headers_to_split_on" defaultHeaders) with
    | error e =>
      rw [run_of_text config htext hne, hheaders] at hrun
      cases hrun
    | ok headers =>
      obtain rfl := Except.ok.inj ((run_of_headers htext hne hheaders).symm.trans hrun)
      obtain rfl := Value.list.inj (Option.some.inj hvs)
      obtain ⟨pair, hpair, rfl⟩ := List.mem_map.mp hchunk
      obtain ⟨block, hblock, rfl⟩ := List.mem_map.mp hpair
      intro hempty
      exact (sectionsFilled_iff headers _).mp (hall headers hheaders) block hblock
        (Value.str.inj (Except.ok.inj hempty))

end MarkdownHeaderSplitterNode

/-! ## Both splitters -/

section
open RecursiveTextSplitterNode MarkdownHeaderSplitterNode

/-- When the runs on a text return no empty chunk: that of the text splitter with an accepted
configuration, and that of the markdown splitter, which accepts all. -/
theorem noEmptyChunks_iff (inputData config markdownConfig : Dict String Value) (text : String)
    (htext : inputData.getD "text" (.str "") = .str text)
    (haccepted : RecursiveTextSplitterNode.validateConfig config = .ok []) :
    (NoEmptyChunk inputData config ↔ text = "" ∨ ∀ sep parts overlap,
      Parts text (config.getD "separators" defaultSeparators) sep parts →
      Carries (config.getD "chunk_size" (.int 1000)) sep parts
        (config.getD "chunk_overlap" (.int 200)) overlap →
      Filled (config.getD "chunk_size" (.int 1000)) overlap sep parts) ∧
    (NoEmptyContent inputData markdownConfig ↔ text = "" ∨ ∀ headers,
      headersIn (markdownConfig.getD "headers_to_split_on" defaultHeaders) = .ok headers →
      SectionsFilled headers (Text.split text '\n')) :=
  ⟨noEmptyChunk_iff haccepted htext, noEmptyContent_iff htext⟩

theorem noEmptyChunks_iff_words :
    (∀ sep parts overlap, Parts "two words" (.list [.str " "]) sep parts →
      Carries (.int 100) sep parts (.int 10) overlap → Filled (.int 100) overlap sep parts) ∧
    SectionsFilled ["#"] ["two words"] := by
  have hrun : RecursiveTextSplitterNode.run (textInput "two words") (Dict.ofList
      [("chunk_size", .int 100), ("chunk_overlap", .int 10), ("separators", .list [.str " "])]) =
      .ok (RecursiveTextSplitterNode.output ["two words"] (.int 100) (.int 10)) := by rfl
  have hmarkdown : MarkdownHeaderSplitterNode.run (textInput "two words") (Dict.ofList
      [("headers_to_split_on", .list [.str "#"])]) =
      .ok (MarkdownHeaderSplitterNode.output [("two words", "")]) := by rfl
  obtain ⟨hsplitter, hsections⟩ := noEmptyChunks_iff (textInput "two words") (Dict.ofList
      [("chunk_size", .int 100), ("chunk_overlap", .int 10), ("separators", .list [.str " "])])
    (Dict.ofList [("headers_to_split_on", .list [.str "#"])]) "two words" (by rfl) (by rfl)
  refine ⟨(hsplitter.mp ?_).resolve_left (by decide),
    (hsections.mp ?_).resolve_left (by decide) ["#"] rfl⟩
  · intro out vs hout hvs v hv
    obtain rfl := Except.ok.inj (hrun.symm.trans hout)
    obtain rfl := Value.list.inj (Option.some.inj hvs)
    exact ⟨"two words", List.mem_singleton.mp hv, by decide⟩
  · intro out vs hout hvs chunk hchunk
    obtain rfl := Except.ok.inj (hmarkdown.symm.trans hout)
    obtain rfl := Value.list.inj (Option.some.inj hvs)
    rw [List.mem_singleton.mp hchunk]
    intro hempty
    exact absurd (Value.str.inj (Except.ok.inj hempty)) (by decide)

/-- A text of one space, with the default configurations. -/
theorem space_yields_empty_chunk :
    RecursiveTextSplitterNode.run (textInput " ") Dict.empty =
        .ok (RecursiveTextSplitterNode.output [""] (.int 1000) (.int 200)) ∧
      ¬NoEmptyChunk (textInput " ") Dict.empty ∧
      MarkdownHeaderSplitterNode.run (textInput " ") Dict.empty =
        .ok (MarkdownHeaderSplitterNode.output [("", "")]) ∧
      ¬NoEmptyContent (textInput " ") Dict.empty := by
  have hrun : RecursiveTextSplitterNode.run (textInput " ") Dict.empty =
      .ok (RecursiveTextSplitterNode.output [""] (.int 1000) (.int 200)) := by rfl
  have hmarkdown : MarkdownHeaderSplitterNode.run (textInput " ") Dict.empty =
      .ok (MarkdownHeaderSplitterNode.output [("", "")]) := by rfl
  refine ⟨hrun, fun h => ?_, hmarkdown, fun h => ?_⟩
  · obtain ⟨chunk, hchunk, hne⟩ := h _ _ hrun rfl _ List.mem_cons_self
    exact hne (Value.str.inj hchunk).symm
  · exact h _ _ hmarkdown rfl _ List.mem_cons_self rfl

end

end RagEval.Workflows
