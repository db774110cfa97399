import RagEval.Lib.Chunking
import RagEval.Workflows.TextSplitter

/-!
# The loop of the text splitter

Each round of the loop of `_split_recursive` is a step of the greedy chunking of
`RagEval.Lib.Chunking`, and `run` passes the loop the parameters of the configuration.
-/

namespace RagEval.Workflows.RecursiveTextSplitterNode
open RagEval.Lib Split Chunking

/-- `len <= chunk_size`, for a number. -/
def fitsIn (chunkSize : Value) (len : Nat) : Bool :=
  match chunkSize.num? with
  | some size => (Num.ofInt len).le size
  | none => false

/-- `chunk.strip()` of a chunk of the abstract model. -/
def stripped (chunk : List Char) : String := Text.strip (String.ofList chunk)

/-- The state of the loop that a state of the abstract model stands for. -/
def ofChunks (s : Chunks Char) : SplitState := ⟨s.closed.map stripped, String.ofList s.current⟩

theorem fitsIn_mono {chunkSize : Value} {m n : Nat} (h : m ≤ n)
    (hn : fitsIn chunkSize n = true) : fitsIn chunkSize m = true := by
  unfold fitsIn at hn ⊢
  cases hsize : chunkSize.num? with
  | none =>
    rw [hsize] at hn
    cases hn
  | some size =>
    rw [hsize] at hn
    exact Num.le_of_ofInt_le (Int.ofNat_le.mpr h) hn

theorem le_eq_fitsIn {chunkSize : Value} (h : chunkSize.isNumber = true) (len : Nat) :
    Value.le (.int len) chunkSize = .ok (fitsIn chunkSize len) := by
  obtain ⟨size, hsize⟩ := Option.isSome_iff_exists.mp h
  unfold Value.le Value.compareNum fitsIn
  rw [hsize]
  rfl

theorem tailStart_of_index {chunkOverlap : Value} {overlap : Nat}
    (h : chunkOverlap.index? = some (overlap : Int)) (len : Nat) :
    chunkOverlap.tailStart len = .ok (len - overlap) := by
  cases chunkOverlap with
  | int i =>
    obtain rfl : i = overlap := Option.some.inj h
    rw [Value.tailStart]
    congr 1
    omega
  | bool b =>
    have hb : (if b then 1 else 0 : Int) = overlap := Option.some.inj h
    cases b with
    | false =>
      obtain rfl : overlap = 0 := by simpa using hb.symm
      rfl
    | true =>
      obtain rfl : overlap = 1 := by simpa using hb.symm
      rfl
  | _ => cases h

theorem ofList_eq_empty_iff (l : List Char) : String.ofList l = "" ↔ l = [] := by
  rw [← String.toList_inj, String.toList_ofList]
  rfl

theorem flush_ofChunks (s : Chunks Char) : (ofChunks s).flush = s.flush.map stripped := by
  unfold SplitState.flush ofChunks
  by_cases h : s.current = []
  · simp [Chunks.flush, h]
  · rw [Chunks.flush_of_ne_nil h, if_neg (by rwa [ofList_eq_empty_iff]), List.map_append]
    rfl

/-- One round of the loop is one step of the abstract model, if a chunk that is closed hands on its
last `overlap` characters. -/
theorem addPart_ofChunks_of_tailStart {chunkSize chunkOverlap : Value} {overlap : Nat}
    (hsize : chunkSize.isNumber = true) (sep : String) (s : Chunks Char) (piece : List Char)
    (htail : fitsIn chunkSize (s.current.length + piece.length) = false →
      chunkOverlap.tailStart s.current.length = .ok (s.current.length - overlap)) :
    addPart chunkSize chunkOverlap (.str sep) (ofChunks s) (String.ofList piece) =
      .ok (ofChunks (add (fitsIn chunkSize) overlap sep.toList s piece)) := by
  have hlength : ((ofChunks s).currentChunk.length + (String.ofList piece).length : Int) =
      (s.current.length + piece.length : Nat) := by
    simp [ofChunks, String.length_ofList]
  have hcurrent : (ofChunks s).currentChunk.length = s.current.length := String.length_ofList
  rw [addPart, hlength, le_eq_fitsIn hsize, ok_bind, add]
  cases hfits : fitsIn chunkSize (s.current.length + piece.length) with
  | true =>
    simp [Text.concat, ofChunks, bind, Except.bind, pure, Except.pure, String.ofList_append]
  | false =>
    simp only [hcurrent, htail hfits, Text.concat, bind, Except.bind, pure, Except.pure,
      flush_ofChunks]
    simp [ofChunks, Text.dropFirst, List.rtake, String.ofList_append, String.append_assoc]

/-- With an integer as overlap the loop is the abstract model. -/
theorem foldlM_addPart {chunkSize chunkOverlap : Value} {overlap : Nat}
    (hsize : chunkSize.isNumber = true) (hoverlap : chunkOverlap.index? = some (overlap : Int))
    (sep : String) (pieces : List (List Char)) (s : Chunks Char) :
    (pieces.map String.ofList).foldlM (addPart chunkSize chunkOverlap (.str sep)) (ofChunks s) =
      .ok (ofChunks (pieces.foldl (add (fitsIn chunkSize) overlap sep.toList) s)) := by
  induction pieces generalizing s with
  | nil => rfl
  | cons piece rest ih =>
    rw [List.map_cons, List.foldlM_cons, addPart_ofChunks_of_tailStart hsize sep s piece
      (fun _ => tailStart_of_index hoverlap _), ok_bind, ih]
    rfl

/-! ## Accepted parameters -/

/-- The checks compare both parameters. -/
theorem isNumber_sizes {config : Dict String Value} {errors : List String}
    (h : validateConfig config = .ok errors) :
    (config.getD "chunk_size" (.int 1000)).isNumber = true ∧
      (config.getD "chunk_overlap" (.int 200)).isNumber = true := by
  have hall := (succeeds_runChecks_iff _).mp ⟨errors, h⟩
  simp only [List.forall_mem_cons] at hall
  obtain ⟨-, -, ⟨_, hoverlap⟩, -⟩ := hall
  exact (Value.isNumber_of_compareNum hoverlap).symm

/-- The two parameters as a configuration. -/
def sizes (chunkSize chunkOverlap : Value) : Dict String Value :=
  Dict.ofList [("chunk_size", chunkSize), ("chunk_overlap", chunkOverlap)]

/-! ## The output of the node -/

def defaultSeparators : Value := .list [.str "\n\n", .str "\n", .str ". ", .str " ", .str ""]

section
variable {inputData config : Dict String Value} {text : String}

theorem run_of_empty (htext : inputData.getD "text" (.str "") = .str "") :
    run inputData config = .ok emptyOutput := by
  rw [run, htext]
  rfl

theorem run_of_text (config : Dict String Value)
    (htext : inputData.getD "text" (.str "") = .str text) (hne : text ≠ "") :
    run inputData config =
      splitRecursive text (config.getD "chunk_size" (.int 1000))
        (config.getD "chunk_overlap" (.int 200)) (config.getD "separators" defaultSeparators) >>=
      fun chunks => .ok (output chunks (config.getD "chunk_size" (.int 1000))
        (config.getD "chunk_overlap" (.int 200))) := by
  have hsize : getItem (mergedConfig defaultConfig config) "chunk_size" =
      .ok (config.getD "chunk_size" (.int 1000)) := getItem_mergedConfig rfl
  have hoverlap : getItem (mergedConfig defaultConfig config) "chunk_overlap" =
      .ok (config.getD "chunk_overlap" (.int 200)) := getItem_mergedConfig rfl
  have hseparators : getItem (mergedConfig defaultConfig config) "separators" =
      .ok (config.getD "separators" defaultSeparators) := getItem_mergedConfig rfl
  simp only [run, htext, asText, ok_bind, if_neg hne, hsize, hoverlap, hseparators]
  rfl

end

/-- A text as the input of the node. -/
def textInput (text : String) : Dict String Value := Dict.ofList [("text", .str text)]

end RagEval.Workflows.RecursiveTextSplitterNode
