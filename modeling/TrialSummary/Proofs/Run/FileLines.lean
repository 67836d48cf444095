import TrialSummary.Proofs.Run.Loading
import TrialSummary.Proofs.Text.Bytes

/-!
# Lines of a file

The lines of a file are a matter of its bytes alone. They are there exactly if the bytes are UTF-8,
they are the lines that were written, whichever line ends were used, and their number is known from
the line feeds among the bytes. It makes no difference whether the file is decoded as a whole or one
line at a time.
-/

namespace TrialSummary.Files

variable {files : Files} {path : String} {bytes : ByteArray}

/-- The lines of a file are the lines of its text, if it has one. -/
theorem readLines_eq_decode? (h : files.read path = .ok bytes) :
    files.readLines path =
      ((Text.decode? bytes.data.toList).map Text.lines).elim (.error .notUtf8)
        fun lines => .ok ⟨path, lines.map String.ofList⟩ := by
  rw [readLines, readText, h, Text.decode?_data]
  dsimp only
  cases String.fromUTF8? bytes <;> rfl

theorem exists_readLines_iff (h : files.read path = .ok bytes) :
    (∃ file, files.readLines path = .ok file) ↔ bytes.IsValidUTF8 := by
  rw [readLines_eq_decode? h, ← Text.isSome_decode?_iff]
  cases Text.decode? bytes.data.toList <;> simp

theorem readLines_eq_notUtf8 (h : files.read path = .ok bytes) (hvalid : ¬ bytes.IsValidUTF8) :
    files.readLines path = .error .notUtf8 := by
  have hnone : Text.decode? bytes.data.toList = none := by
    rwa [← Text.isSome_decode?_iff, Option.not_isSome_iff_eq_none] at hvalid
  simp [readLines_eq_decode? h, hnone]

/-- The lines that are read have been cut at the line feeds, and none is missing. -/
theorem lines_of_readLines (h : files.read path = .ok bytes) {file : TextFile}
    (hfile : files.readLines path = .ok file) :
    (∀ line ∈ file.lines, '\n' ∉ line.toList) ∧
      file.lines.length = bytes.data.toList.count Text.feedByte +
        if bytes.data.toList = [] ∨ bytes.data.toList.getLast? = some Text.feedByte
        then 0 else 1 := by
  rw [readLines_eq_decode? h] at hfile
  rcases hdecode : Text.decode? bytes.data.toList with _ | cs
  · simp [hdecode] at hfile
  simp only [hdecode, Option.map_some, Option.elim_some, Except.ok.injEq] at hfile
  subst hfile
  rw [← Text.decode?_eq_some_iff.mp hdecode]
  refine ⟨?_, ?_⟩
  · intro line hline
    obtain ⟨cs', hcs', rfl⟩ := List.mem_map.mp hline
    rw [String.toList_ofList]
    exact Text.feed_notMem_of_mem_lines hcs'
  · simp only [List.length_map, Text.length_lines, Text.count_encode, Text.encode_eq_nil,
      Text.getLast?_encode_eq_feed_iff]

/-- Reading the lines of a file undoes writing them, for every mixture of line ends and with or
without one behind the last line. It succeeds exactly on UTF-8, and then there is a line for each
line feed and one for what stands behind the last of them. Decoding each line for itself gives the
same, because a line feed is no part of another character. -/
theorem readLines_of_bytes (h : files.read path = .ok bytes) :
    (∀ t : Text.WrittenText, t.bytes = bytes →
      files.readLines path = .ok ⟨path, t.lines.map String.ofList⟩) ∧
    ((∃ file, files.readLines path = .ok file) ↔ bytes.IsValidUTF8) ∧
    (¬ bytes.IsValidUTF8 → files.readLines path = .error .notUtf8) ∧
    (∀ file, files.readLines path = .ok file →
      (∀ line ∈ file.lines, '\n' ∉ line.toList) ∧
      file.lines.length = bytes.data.toList.count Text.feedByte +
        if bytes.data.toList = [] ∨ bytes.data.toList.getLast? = some Text.feedByte
        then 0 else 1) ∧
    files.readLines path =
      (Text.decodeLines? bytes.data.toList).elim (.error .notUtf8)
        fun lines => .ok ⟨path, lines.map String.ofList⟩ := by
  refine ⟨?_, exists_readLines_iff h, readLines_eq_notUtf8 h, fun _ => lines_of_readLines h, ?_⟩
  · rintro t rfl
    exact readLines_eq h
  · rw [Text.decodeLines?_eq, readLines_eq_decode? h]

/-- Both line ends in one file, a return at the end of a line, and no line end behind the last. -/
def mixedText : Text.WrittenText where
  ended := [⟨"a".toList, .feed, by decide, by decide⟩,
    ⟨"b | 2\r".toList, .returnFeed, by decide, by decide⟩]
  rest := "Time: 1 ms".toList
  feed_notMem := by decide

theorem readLines_of_mixedText :
    let files : Files := .ofRead fun _ => .ok mixedText.bytes
    files.read "results/p-70-9" = .ok mixedText.bytes ∧
      files.readLines "results/p-70-9" =
        .ok ⟨"results/p-70-9", ["a", "b | 2\r", "Time: 1 ms"]⟩ := by
  refine ⟨rfl, ?_⟩
  exact (readLines_of_bytes rfl).1 mixedText rfl

end TrialSummary.Files
