import RagEval.Lib.Blocks
import RagEval.Workflows.NodeRuns

/-!
# The chunks of a markdown text

The loop of `MarkdownHeaderSplitterNode.run` gathers the blocks of the lines that begin at header
lines. What a chunk holds and where one begins follows from there.

## Main results

- `isHeader_eq` — what the pattern put together from the headers matches
- `run_of_headers` — the chunks are the blocks of the lines
- `run_partitions` — nothing of the text is lost
- `startsChunk_iff_isHeader` — where chunks begin
-/

namespace RagEval.Workflows.MarkdownHeaderSplitterNode
open RagEval.Lib Chunking Blocks

/-! ## Header lines -/

/-- The pattern of these headers. -/
def patternOf (headers : List String) : String := pattern (headers.map Alternation.escape)

/-- `re.match(pattern, line)` for the pattern of these headers. -/
def isHeader (headers : List String) (line : String) : Bool :=
  Alternation.isMatch (patternOf headers) line

/-- A header line begins with one of the headers and a space; the pattern of no headers is that of
the empty one. -/
theorem isHeader_eq (headers : List String) (line : String) : isHeader headers line =
    (Alternation.choicesOf headers).any fun h => Text.startswith line (h ++ " ") := by
  have hpattern : patternOf headers =
      "^(" ++ "|".intercalate (headers.map Alternation.escape) ++ ")" ++ " " := by
    rw [patternOf, pattern, show ") " = ")" ++ " " from rfl, ← String.append_assoc]
  rw [isHeader, hpattern, Alternation.isMatch_choices headers " " line [' '] rfl]
  simp only [Text.startswith, String.toList_append]
  rfl

/-! ## The loop -/

/-- The text of a chunk before it is stripped: its lines, each with its newline. -/
def rawText (lines : List String) : String := String.join (lines.map (· ++ "\n"))

/-- The header of a chunk with these lines. -/
def headerOf (headers : List String) : List String → String
  | [] => ""
  | line :: _ => if isHeader headers line then Text.strip line else ""

/-- The chunk with these lines: its content and its header. -/
def chunkOf (headers : List String) (lines : List String) : String × String :=
  (Text.strip (rawText lines), headerOf headers lines)

/-- The variables of the loop, for closed blocks and a current one. -/
def ofBlocks (headers : List String) (s : Chunks String) : SplitState :=
  ⟨s.closed.map (chunkOf headers), rawText s.current, headerOf headers s.current⟩

theorem rawText_singleton (line : String) : rawText [line] = line ++ "\n" := by
  rw [rawText, List.map_singleton, String.join_cons, String.join_nil, String.append_empty]

theorem rawText_append (lines lines' : List String) :
    rawText (lines ++ lines') = rawText lines ++ rawText lines' := by
  rw [rawText, List.map_append, String.join_append]
  rfl

theorem rawText_eq_empty_iff (lines : List String) : rawText lines = "" ↔ lines = [] := by
  rcases List.eq_nil_or_concat lines with rfl | ⟨front, last, rfl⟩
  · simp [rawText]
  · rw [List.concat_eq_append, rawText_append, rawText_singleton]
    simp

theorem headerOf_append_singleton {headers lines : List String} {line : String}
    (h : isHeader headers line = false) :
    headerOf headers (lines ++ [line]) = headerOf headers lines := by
  cases lines with
  | nil =>
    show (if isHeader headers line then Text.strip line else "") = ""
    rw [h, if_neg Bool.false_ne_true]
  | cons first rest => rfl

section
variable (headers : List String)

theorem flush_ofBlocks (s : Chunks String) :
    (ofBlocks headers s).flush = s.flush.map (chunkOf headers) := by
  unfold SplitState.flush ofBlocks
  by_cases h : s.current = []
  · rw [if_pos ((rawText_eq_empty_iff _).mpr h)]
    simp [Chunks.flush, h]
  · rw [if_neg (mt (rawText_eq_empty_iff _).mp h), Chunks.flush_of_ne_nil h, List.map_append]
    rfl

/-- One round of the loop is one of gathering blocks. -/
theorem addLine_ofBlocks (s : Chunks String) (line : String) :
    addLine (patternOf headers) (ofBlocks headers s) line =
      ofBlocks headers (feed (isHeader headers) s line) := by
  rw [addLine, ← isHeader, feed]
  cases h : isHeader headers line with
  | true =>
    rw [if_pos rfl, if_pos rfl, flush_ofBlocks]
    simp only [ofBlocks, headerOf, h, rawText_singleton, if_true]
  | false =>
    rw [if_neg Bool.false_ne_true, if_neg Bool.false_ne_true]
    simp only [ofBlocks, headerOf_append_singleton h, rawText_append, rawText_singleton]

theorem foldl_addLine (lines : List String) (s : Chunks String) :
    lines.foldl (addLine (patternOf headers)) (ofBlocks headers s) =
      ofBlocks headers (lines.foldl (feed (isHeader headers)) s) := by
  induction lines generalizing s with
  | nil => rfl
  | cons line rest ih => rw [List.foldl_cons, addLine_ofBlocks, ih, List.foldl_cons]

/-- **Refinement**: the chunks of the lines are those of their blocks. -/
theorem flush_foldl_addLine (lines : List String) :
    (lines.foldl (addLine (patternOf headers)) ⟨[], "", ""⟩).flush =
      (blocks (isHeader headers) lines).map (chunkOf headers) := by
  have hinit : (⟨[], "", ""⟩ : SplitState) = ofBlocks headers Chunks.init := by
    rw [ofBlocks, Chunks.init, (rawText_eq_empty_iff []).mpr rfl]
    rfl
  rw [hinit, foldl_addLine, flush_ofBlocks, flush_foldl_feed]

end

/-! ## The lines of a text -/

theorem toList_rawText (lines : List String) :
    (rawText lines).toList = Split.terminated ['\n'] (lines.map String.toList) := by
  rw [rawText, String.toList_join, List.flatMap_map, Split.terminated, List.flatMap_map]
  simp only [String.toList_append]
  rfl

/-- The lines of a text, each with a newline, are the text and a newline. -/
theorem rawText_split (text : String) : rawText (Text.split text '\n') = text ++ "\n" := by
  apply String.toList_inj.mp
  have hpieces : (Text.split text '\n').map String.toList = text.toList.splitOn '\n' := by
    simp [Text.split]
  rw [toList_rawText, hpieces, Split.terminated_eq_intercalate _ (List.splitOn_ne_nil _ _),
    List.intercalate_splitOn, String.toList_append]
  rfl

theorem join_map_rawText (raws : List (List String)) :
    String.join (raws.map rawText) = rawText raws.flatten := by
  induction raws with
  | nil => rfl
  | cons lines rest ih =>
    rw [List.map_cons, String.join_cons, ih, List.flatten_cons, rawText_append]

/-! ## The run -/

/-- The text that `re.escape` is given. -/
def headerText : Value → Except PyError String
  | .str h => .ok h
  | v => escape v

/-- The headers a value of the configuration holds. -/
def headersIn (value : Value) : Except PyError (List String) := do
  let headers ← value.iter
  headers.mapM headerText

theorem mapM_escape (headers : List Value) : headers.mapM escape =
    headers.mapM headerText >>= fun texts => .ok (texts.map Alternation.escape) := by
  induction headers with
  | nil => rfl
  | cons h rest ih =>
    rw [List.mapM_cons, List.mapM_cons, ih]
    cases h with
    | str s => cases rest.mapM headerText <;> rfl
    | _ => rfl

theorem headersIn_list (headers : List String) :
    headersIn (.list (headers.map .str)) = .ok headers := by
  show (headers.map Value.str).mapM headerText = .ok headers
  induction headers with
  | nil => rfl
  | cons h rest ih =>
    rw [List.map_cons, List.mapM_cons, ih]
    rfl

def output (chunks : List (String × String)) : Dict String Value :=
  Dict.ofList
    [("chunks", .list (chunks.map chunkValue)), ("chunk_count", .int chunks.length),
     ("headers", .list (((chunks.map Prod.snd).filter fun h => h ≠ "").map .str))]

def defaultHeaders : Value := .list [.str "#", .str "##", .str "###"]

section
variable {inputData config : Dict String Value} {text : String}

theorem run_of_text (config : Dict String Value)
    (htext : inputData.getD "text" (.str "") = .str text) (hne : text ≠ "") :
    run inputData config = headersIn (config.getD "headers_to_split_on" defaultHeaders) >>=
      fun headers => .ok (output ((blocks (isHeader headers) (Text.split text '\n')).map
        (chunkOf headers))) := by
  have hheaders : getItem (mergedConfig defaultConfig config) "headers_to_split_on" =
      .ok (config.getD "headers_to_split_on" defaultHeaders) := getItem_mergedConfig rfl
  have hpattern (headers : List String) :
      pattern (headers.map Alternation.escape) = patternOf headers := rfl
  simp only [run, htext, asText, ok_bind, if_neg hne, hheaders, headersIn, mapM_escape, hpattern,
    flush_foldl_addLine, bind_assoc]
  rfl

/-- The chunks are the blocks of the lines. -/
theorem run_of_headers {headers : List String}
    (htext : inputData.getD "text" (.str "") = .str text) (hne : text ≠ "")
    (hheaders : headersIn (config.getD "headers_to_split_on" defaultHeaders) = .ok headers) :
    run inputData config = .ok (output ((blocks (isHeader headers) (Text.split text '\n')).map
      (chunkOf headers))) := by
  rw [run_of_text config htext hne, hheaders]
  rfl

end

/-- The text is cut between lines into raw chunks, and the chunks of the result are these in order:
the content is the raw chunk, stripped. Joined they are the text and a newline; every one but the
first begins with a header line, and no other line of one is a header line. -/
theorem run_partitions (inputData config : Dict String Value) (text : String)
    (headers : List String) (htext : inputData.getD "text" (.str "") = .str text) (hne : text ≠ "")
    (hheaders : config.getD "headers_to_split_on" defaultHeaders = .list (headers.map .str)) :
    ∃ raws : List (List String),
      run inputData config = .ok (output (raws.map fun lines =>
        (Text.strip (rawText lines), match lines with
          | [] => ""
          | line :: _ => if isHeader headers line then Text.strip line else ""))) ∧
      raws.flatten = Text.split text '\n' ∧ String.join (raws.map rawText) = text ++ "\n" ∧
      (∀ lines ∈ raws.tail, ∃ line ∈ lines.head?, isHeader headers line = true) ∧
      ∀ lines ∈ raws, lines ≠ [] ∧ ∀ line ∈ lines.tail, isHeader headers line = false := by
  have hin : headersIn (config.getD "headers_to_split_on" defaultHeaders) = .ok headers := by
    rw [hheaders, headersIn_list]
  refine ⟨blocks (isHeader headers) (Text.split text '\n'), ?_, flatten_blocks _ _, ?_, ?_, ?_⟩
  · rw [run_of_headers htext hne hin]
    rfl
  · rw [join_map_rawText, flatten_blocks, rawText_split]
  · exact fun lines hlines => head_of_mem_tail_blocks _ hlines
  · exact fun lines hlines => forall_tail_of_mem_blocks _ hlines

/-- A text in front of two sections, the first without a body. -/
theorem run_partitions_sections :
    ∃ raws : List (List String),
      run (Dict.ofList [("text", .str "intro\n# A\n## B\nbody")]) Dict.empty =
        .ok (output (raws.map fun lines => (Text.strip (rawText lines), match lines with
          | [] => ""
          | line :: _ => if isHeader ["#", "##", "###"] line then Text.strip line else ""))) ∧
      raws.flatten = Text.split "intro\n# A\n## B\nbody" '\n' ∧
      String.join (raws.map rawText) = "intro\n# A\n## B\nbody" ++ "\n" ∧
      (∀ lines ∈ raws.tail, ∃ line ∈ lines.head?, isHeader ["#", "##", "###"] line = true) ∧
      ∀ lines ∈ raws, lines ≠ [] ∧ ∀ line ∈ lines.tail,
        isHeader ["#", "##", "###"] line = false :=
  run_partitions _ _ "intro\n# A\n## B\nbody" ["#", "##", "###"] rfl (by decide) rfl

/-! ## Where chunks begin -/

/-- In the loop over the lines, the line behind `before` closes the chunk so far and begins the
next one. -/
def StartsChunk (headers before : List String) (line : String) : Prop :=
  let s := before.foldl (addLine (patternOf headers)) ⟨[], "", ""⟩
  let s' := addLine (patternOf headers) s line
  s'.chunks = s.flush ∧ s'.currentChunk = line ++ "\n"

theorem currentChunk_ne_empty (headers : List String) {before : List String} (hne : before ≠ []) :
    (before.foldl (addLine (patternOf headers)) ⟨[], "", ""⟩).currentChunk ≠ "" := by
  obtain ⟨front, last, rfl⟩ := List.eq_nil_or_concat before |>.resolve_left hne
  rw [List.concat_eq_append, List.foldl_append, List.foldl_cons, List.foldl_nil, addLine]
  split <;> simp

/-- Behind the first line, chunks begin at the header lines. -/
theorem startsChunk_iff_isHeader (headers : List String) {before : List String} (hne : before ≠ [])
    (line : String) : StartsChunk headers before line ↔ isHeader headers line = true := by
  unfold StartsChunk addLine
  rw [← isHeader]
  cases h : isHeader headers line with
  | true => exact iff_of_true ⟨rfl, rfl⟩ rfl
  | false =>
    refine iff_of_false ?_ Bool.false_ne_true
    rintro ⟨-, hcurrent⟩
    rw [if_neg Bool.false_ne_true] at hcurrent
    -- the line would be added to nothing
    have hempty := String.toList_inj.mpr hcurrent
    rw [String.toList_append, List.append_left_eq_self, String.toList_eq_nil_iff] at hempty
    exact currentChunk_ne_empty headers hne hempty

/-- The lines that begin with one of the headers and a space. -/
def BeginsWithHeader (headers : List String) (line : String) : Prop :=
  ∃ h ∈ headers, Text.startswith line (h ++ " ") = true

theorem isHeader_iff {headers : List String} (hne : headers ≠ []) (line : String) :
    isHeader headers line = true ↔ BeginsWithHeader headers line := by
  rw [isHeader_eq, Alternation.choicesOf, if_neg (by simpa using hne), List.any_eq_true,
    BeginsWithHeader]

theorem isHeader_nil (line : String) : isHeader [] line = Text.startswith line " " :=
  (isHeader_eq [] line).trans (Bool.or_false _)

/-- A line of a text behind the first begins a chunk exactly if it begins with a header and a
space, for all lines of the text, if there are headers, or none of those lines begins with a
space. -/
theorem startsChunk_iff (text : String) (headers : List String) :
    (∀ before line after, Text.split text '\n' = before ++ line :: after → before ≠ [] →
      (StartsChunk headers before line ↔ BeginsWithHeader headers line)) ↔
    headers ≠ [] ∨ ∀ line ∈ (Text.split text '\n').tail, Text.startswith line " " = false := by
  by_cases hne : headers = []
  · subst hne
    have hnone : ∀ line, ¬BeginsWithHeader [] line := by
      rintro line ⟨h, hmem, -⟩
      exact List.not_mem_nil hmem
    rw [or_iff_right (by simp)]
    constructor
    · intro hall line hline
      obtain ⟨first, rest, hsplit⟩ := List.exists_cons_of_ne_nil
        (List.ne_nil_of_mem (List.mem_of_mem_tail hline))
      rw [hsplit, List.tail_cons] at hline
      obtain ⟨before, after, rfl⟩ := List.append_of_mem hline
      have hstarts := hall (first :: before) line after hsplit (List.cons_ne_nil _ _)
      rw [startsChunk_iff_isHeader [] (List.cons_ne_nil _ _), isHeader_nil] at hstarts
      exact Bool.eq_false_of_not_eq_true fun h => hnone line (hstarts.mp h)
    · intro hall before line after hsplit hbefore
      have hline : line ∈ (Text.split text '\n').tail := by
        rw [hsplit, List.tail_append_of_ne_nil hbefore]
        exact List.mem_append_right _ List.mem_cons_self
      rw [startsChunk_iff_isHeader [] hbefore, isHeader_nil, hall line hline]
      exact iff_of_false Bool.false_ne_true (hnone line)
  · refine iff_of_true (fun before line after _ hbefore => ?_) (.inl hne)
    rw [startsChunk_iff_isHeader headers hbefore, isHeader_iff hne]

/-- Without headers a text is cut before its indented lines. -/
theorem startsChunk_without_headers :
    Text.split "intro\n indented" '\n' = ["intro"] ++ " indented" :: [] ∧
      StartsChunk [] ["intro"] " indented" ∧ ¬BeginsWithHeader [] " indented" ∧
      run (Dict.ofList [("text", .str "intro\n indented")])
        (Dict.ofList [("headers_to_split_on", .list [])]) =
        .ok (output [("intro", ""), ("indented", "indented")]) := by
  refine ⟨by decide, ⟨by decide, by decide⟩, ?_, by rfl⟩
  rintro ⟨h, hmem, -⟩
  exact List.not_mem_nil hmem

end RagEval.Workflows.MarkdownHeaderSplitterNode
