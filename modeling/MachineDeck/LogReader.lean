import MachineDeck.LogModels
import MachineDeck.Utf8Text

/-!
# The lines of a log reader

What `logging/adapters.py` and `logging/models.py` do with the output of a subprocess before they
know what it says.

* `boundedLines` — the loop of `_bounded_lines` over the bytes;
* `boundedLines_lines` — it finds the lines of the bytes, each cut to the bound;
* `readLines`, `bounded_lines_chunks` — the same loop over the reads: it does not depend on them;
* `boundedMessage` — a message of at most 64 KiB.
-/

namespace MachineDeck.Logs

def maxLogLineBytes : ℕ := 64 * 1024

/-- A line, cut to the bound, with the length it had. -/
structure RawLine where
  raw : List UInt8 := []
  truncated : Bool := false
  originalSize : ℕ := 0
  deriving DecidableEq, Repr

def RawLine.push (maxBytes : ℕ) (line : RawLine) (byte : UInt8) : RawLine :=
  if line.raw.length < maxBytes then
    { line with raw := line.raw ++ [byte], originalSize := line.originalSize + 1 }
  else { line with truncated := true, originalSize := line.originalSize + 1 }

/-- The bytes still to come, behind a line that has begun. -/
def boundedLinesFrom (maxBytes : ℕ) (line : RawLine) : List UInt8 → List RawLine
  | [] => if line.originalSize = 0 then [] else [line]
  | byte :: rest =>
    if byte = 10 then line :: boundedLinesFrom maxBytes {} rest
    else boundedLinesFrom maxBytes (line.push maxBytes byte) rest

def boundedLines (maxBytes : ℕ) (stdout : List UInt8) : List RawLine :=
  boundedLinesFrom maxBytes {} stdout

/-- What the loop makes of a whole line. -/
def boundLine (maxBytes : ℕ) (line : List UInt8) : RawLine :=
  ⟨line.take maxBytes, decide (maxBytes < line.length), line.length⟩

theorem push_boundLine (maxBytes : ℕ) (line : List UInt8) (byte : UInt8) :
    (boundLine maxBytes line).push maxBytes byte = boundLine maxBytes (line ++ [byte]) := by
  by_cases hlength : line.length < maxBytes
  · have hpush : (boundLine maxBytes line).raw.length < maxBytes := by
      show (line.take maxBytes).length < maxBytes
      rw [List.length_take]
      omega
    rw [RawLine.push, if_pos hpush]
    show RawLine.mk (line.take maxBytes ++ [byte]) (decide (maxBytes < line.length))
        (line.length + 1) =
      ⟨(line ++ [byte]).take maxBytes, decide (maxBytes < (line ++ [byte]).length),
        (line ++ [byte]).length⟩
    rw [List.take_of_length_le (by omega : line.length ≤ maxBytes),
      List.take_of_length_le (by rw [List.length_append, List.length_singleton]; omega),
      List.length_append, List.length_singleton]
    have hno : ¬ maxBytes < line.length := by omega
    have hno' : ¬ maxBytes < line.length + 1 := by omega
    rw [decide_eq_false hno, decide_eq_false hno']
  · have hpush : ¬ (boundLine maxBytes line).raw.length < maxBytes := by
      show ¬ (line.take maxBytes).length < maxBytes
      rw [List.length_take]
      omega
    rw [RawLine.push, if_neg hpush]
    show RawLine.mk (line.take maxBytes) true (line.length + 1) =
      ⟨(line ++ [byte]).take maxBytes, decide (maxBytes < (line ++ [byte]).length),
        (line ++ [byte]).length⟩
    rw [List.take_append_of_le_length (by omega), List.length_append, List.length_singleton]
    have hlong : maxBytes < line.length + 1 := by omega
    rw [decide_eq_true hlong]

theorem boundLine_nil (maxBytes : ℕ) : boundLine maxBytes [] = {} := by simp [boundLine]

theorem raw_boundLine {maxBytes : ℕ} (hmax : 0 < maxBytes) (line : List UInt8) :
    (boundLine maxBytes line).raw = [] ↔ line = [] := by
  show line.take maxBytes = [] ↔ line = []
  rw [List.take_eq_nil_iff]
  constructor
  · rintro (h | h)
    · omega
    · exact h
  · exact Or.inr

/-- The lines of a stream; behind its last newline only a line that is not empty. -/
def streamLines (stream : List UInt8) : List (List UInt8) :=
  let pieces := stream.splitOn 10
  if pieces.getLast? = some [] then pieces.dropLast else pieces

theorem streamLines_line {line : List UInt8} (hline : 10 ∉ line) (rest : List UInt8) :
    streamLines (line ++ 10 :: rest) = line :: streamLines rest := by
  have hsplit : (line ++ 10 :: rest).splitOn 10 = line :: rest.splitOn 10 :=
    List.splitOn_append_cons_self_of_not_mem hline rest
  have hne : rest.splitOn 10 ≠ [] := List.splitOn_ne_nil 10 rest
  simp only [streamLines, hsplit]
  rw [List.getLast?_cons_of_ne_nil hne, List.dropLast_cons_of_ne_nil hne]
  split_ifs
  · rfl
  · rfl

theorem streamLines_end {line : List UInt8} (hline : 10 ∉ line) :
    streamLines line = if line = [] then [] else [line] := by
  simp only [streamLines, List.splitOn_eq_singleton hline, List.getLast?_singleton,
    List.dropLast_singleton, Option.some.injEq]

/-- The loop from the middle of a line. -/
theorem boundedLinesFrom_eq (maxBytes : ℕ) (line rest : List UInt8) (hline : 10 ∉ line) :
    boundedLinesFrom maxBytes (boundLine maxBytes line) rest =
      (streamLines (line ++ rest)).map (boundLine maxBytes) := by
  induction rest generalizing line with
  | nil =>
    rw [boundedLinesFrom, List.append_nil, streamLines_end hline]
    show (if line.length = 0 then [] else [boundLine maxBytes line]) = _
    simp only [List.length_eq_zero_iff]
    split_ifs
    · rfl
    · rfl
  | cons byte rest ih =>
    rw [boundedLinesFrom]
    by_cases hbyte : byte = 10
    · subst hbyte
      have hrest := ih [] (by simp)
      rw [boundLine_nil, List.nil_append] at hrest
      rw [if_pos rfl, streamLines_line hline, List.map_cons, hrest]
    · have hlonger : 10 ∉ line ++ [byte] := by
        rw [List.mem_append, List.mem_singleton]
        exact fun hmem => hmem.elim hline fun heq => hbyte heq.symm
      rw [if_neg hbyte, push_boundLine, ih (line ++ [byte]) hlonger, List.append_assoc,
        List.singleton_append]

/-- **Split, then cut**: the loop finds the lines of the bytes, each cut to the bound. -/
theorem boundedLines_lines (maxBytes : ℕ) (stdout : List UInt8) :
    boundedLines maxBytes stdout = (streamLines stdout).map (boundLine maxBytes) := by
  have hstart := boundedLinesFrom_eq maxBytes [] stdout (by simp)
  rwa [boundLine_nil] at hstart

theorem filter_streamLines (stream : List UInt8) :
    (streamLines stream).filter (· ≠ []) = (stream.splitOn 10).filter (· ≠ []) := by
  simp only [streamLines]
  split_ifs with hlast
  · conv_rhs => rw [← List.dropLast_append_getLast? [] hlast, List.filter_append]
    simp
  · rfl

/-- **The lines that are not empty**: those of the bytes, each cut to the bound. -/
theorem boundedLines_eq {maxBytes : ℕ} (hmax : 0 < maxBytes) (stdout : List UInt8) :
    (boundedLines maxBytes stdout).filter (fun l => l.raw ≠ []) =
      ((stdout.splitOn 10).filter (· ≠ [])).map (boundLine maxBytes) := by
  have hraw : (fun line => decide ((boundLine maxBytes line).raw ≠ [])) =
      fun line => decide (line ≠ []) :=
    funext fun line => decide_eq_decide.mpr (not_congr (raw_boundLine hmax line))
  rw [boundedLines_lines, List.filter_map, ← filter_streamLines]
  exact congrArg (List.map _) (congrArg (List.filter · _) hraw)

/-! ### Reads -/

/-- One turn of the inner loop: the lines that are done and the one that has begun. -/
def readByte (maxBytes : ℕ) (state : List RawLine × RawLine) (byte : UInt8) :
    List RawLine × RawLine :=
  if byte = 10 then (state.1 ++ [state.2], {}) else (state.1, state.2.push maxBytes byte)

def readChunk (maxBytes : ℕ) (line : RawLine) (chunk : List UInt8) : List RawLine × RawLine :=
  chunk.foldl (readByte maxBytes) ([], line)

/-- The loop of `_bounded_lines` over what its reads return; an empty read is the end. -/
def readLines (maxBytes : ℕ) (line : RawLine) : List (List UInt8) → List RawLine
  | [] => if line.originalSize = 0 then [] else [line]
  | chunk :: reads =>
    if chunk = [] then if line.originalSize = 0 then [] else [line]
    else
      let (done, line) := readChunk maxBytes line chunk
      done ++ readLines maxBytes line reads

/-- What is done does not matter to what follows. -/
theorem foldl_readByte (maxBytes : ℕ) (done : List RawLine) (line : RawLine) (chunk : List UInt8) :
    chunk.foldl (readByte maxBytes) (done, line) =
      (done ++ (readChunk maxBytes line chunk).1, (readChunk maxBytes line chunk).2) := by
  induction chunk generalizing done line with
  | nil => rw [readChunk, List.foldl_nil, List.foldl_nil, List.append_nil]
  | cons byte chunk ih =>
    rw [readChunk, List.foldl_cons, List.foldl_cons, readByte, readByte]
    split_ifs
    · rw [ih, ih ([] ++ [line]), List.append_assoc]
      rfl
    · rw [ih, ih []]
      rfl

/-- A chunk is read as a part of the stream. -/
theorem boundedLinesFrom_chunk (maxBytes : ℕ) (line : RawLine) (chunk rest : List UInt8) :
    boundedLinesFrom maxBytes line (chunk ++ rest) =
      (readChunk maxBytes line chunk).1 ++
        boundedLinesFrom maxBytes (readChunk maxBytes line chunk).2 rest := by
  induction chunk generalizing line with
  | nil => rfl
  | cons byte chunk ih =>
    rw [List.cons_append, boundedLinesFrom, readChunk, List.foldl_cons, readByte]
    split_ifs
    · rw [foldl_readByte, ih]
      rfl
    · rw [foldl_readByte, ih]
      rfl

theorem readLines_eq (maxBytes : ℕ) (line : RawLine) {reads : List (List UInt8)}
    (h : ∀ chunk ∈ reads, chunk ≠ []) :
    readLines maxBytes line reads = boundedLinesFrom maxBytes line reads.flatten := by
  induction reads generalizing line with
  | nil => rfl
  | cons chunk reads ih =>
    obtain ⟨hchunk, hreads⟩ := List.forall_mem_cons.mp h
    rw [readLines, if_neg hchunk, List.flatten_cons, boundedLinesFrom_chunk]
    exact congrArg _ (ih _ hreads)

/-- **Bounded line splitting does not depend on the reads**: whatever the chunks, the loop finds
the lines of the whole stream, each cut to the bound, marked where it is longer, with its length. -/
theorem bounded_lines_chunks (maxBytes : ℕ) {reads : List (List UInt8)}
    (h : ∀ chunk ∈ reads, chunk ≠ []) :
    readLines maxBytes {} reads =
      (streamLines reads.flatten).map fun line =>
        { raw := line.take maxBytes, truncated := decide (maxBytes < line.length),
          originalSize := line.length } := by
  rw [readLines_eq maxBytes {} h]
  exact boundedLines_lines maxBytes reads.flatten

/-- A line that is too long, in two reads. -/
theorem bounded_lines_chunks_two :
    readLines 2 {} [[97, 98], [99, 10, 100]] =
      (streamLines [97, 98, 99, 10, 100]).map fun line =>
        { raw := line.take 2, truncated := decide (2 < line.length), originalSize := line.length } :=
  bounded_lines_chunks 2 (by decide)

/-! ### Messages -/

/-- `bounded_message`: the message, whether it was cut, and the size it had. -/
def boundedMessage (maxBytes : ℕ) (message : String) : String × Bool × ℕ :=
  let originalSize := Utf8Text.byteSize message.toList
  if originalSize ≤ maxBytes then (message, false, originalSize)
  else (String.ofList (Utf8Text.takeBytes maxBytes message.toList), true, originalSize)

/-- A message within the limit is kept as it is. -/
theorem boundedMessage_of_le {maxBytes : ℕ} {message : String}
    (h : Utf8Text.byteSize message.toList ≤ maxBytes) :
    boundedMessage maxBytes message = (message, false, Utf8Text.byteSize message.toList) :=
  if_pos h

theorem boundedMessage_size (maxBytes : ℕ) (message : String) :
    Utf8Text.byteSize (boundedMessage maxBytes message).1.toList ≤ maxBytes := by
  simp only [boundedMessage]
  split
  · assumption
  · rw [String.toList_ofList]
    exact Utf8Text.byteSize_takeBytes maxBytes message.toList

end MachineDeck.Logs
