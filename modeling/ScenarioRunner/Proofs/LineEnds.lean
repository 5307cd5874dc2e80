import ScenarioRunner.Feature.Draft
import ScenarioRunner.Proofs.Transcript.Decoration

/-!
# Line ends of other systems

A carriage return before a line feed stands at the end of the line that is cut there, and is dropped with all others
that stand there. Main statement: feature files and transcripts are read in the same way with such line ends.
-/

namespace ScenarioRunner

open ScenarioRunner.Text

set_option autoImplicit false

/-! ## Texts -/

namespace Text

def withReturns (s : List Char) : List Char :=
  s.flatMap fun c => if c = '\n' then ['\r', '\n'] else [c]

theorem withReturns_append (s t : List Char) : withReturns (s ++ t) = withReturns s ++ withReturns t :=
  List.flatMap_append

theorem withReturns_of_notMem {s : List Char} (h : '\n' ∉ s) : withReturns s = s := by
  induction s with
  | nil => rfl
  | cons c s ih =>
    rw [List.mem_cons, not_or] at h
    rw [withReturns, List.flatMap_cons, if_neg (Ne.symm h.1), ← withReturns, ih h.2, List.singleton_append]

theorem withReturns_lines {lines : List (List Char)} (h : ∀ line ∈ lines, '\n' ∉ line) :
    withReturns (lines.flatMap (· ++ ['\n'])) = (lines.map (· ++ ['\r'])).flatMap (· ++ ['\n']) := by
  induction lines with
  | nil => rfl
  | cons line lines ih =>
    obtain ⟨hLine, hLines⟩ := List.forall_mem_cons.mp h
    rw [List.flatMap_cons, withReturns_append, withReturns_append, withReturns_of_notMem hLine, ih hLines]
    simp [withReturns]

/-- The lines that have ended get a carriage return, and the open line stays as it is. -/
theorem parts_withReturns (s : List Char) :
    endedLines (withReturns s) = (endedLines s).map (· ++ ['\r']) ∧ openLine (withReturns s) = openLine s := by
  have hLines : ∀ line ∈ (endedLines s).map (· ++ ['\r']), '\n' ∉ line := by
    intro line hLine
    obtain ⟨line, hMem, rfl⟩ := List.mem_map.mp hLine
    simp [notMem_endedLines s line hMem]
  have hText : withReturns s = ((endedLines s).map (· ++ ['\r'])).flatMap (· ++ ['\n']) ++ openLine s := by
    rw [← withReturns_lines (notMem_endedLines s), ← withReturns_of_notMem (notMem_openLine s), ← withReturns_append,
      flatMap_endedLines]
  rw [hText]
  exact parts_of_lines_append _ hLines (notMem_openLine s)

theorem dropTrailing_concat {p : Char → Bool} {c : Char} (h : p c = true) (s : List Char) :
    dropTrailing p (s ++ [c]) = dropTrailing p s := by
  rw [dropTrailing, List.reverse_concat, List.dropWhile_cons, if_pos h, dropTrailing]

end Text

/-! ## Feature files -/

namespace Feature

theorem scanLines_congr {lines others : List (List Char)}
    (h : lines.map (dropTrailing (· == '\r')) = others.map (dropTrailing (· == '\r'))) (inExamples : Bool)
    (number : Nat) : scanLines inExamples number lines = scanLines inExamples number others := by
  induction lines generalizing others inExamples number with
  | nil =>
    obtain rfl := List.map_eq_nil_iff.mp h.symm
    rfl
  | cons line lines ih =>
    obtain ⟨other, others, rfl, hLine, hLines⟩ := List.map_eq_cons_iff.mp h.symm
    simp only [scanLines, hLine]
    split
    · exact ih hLines.symm inExamples (number + 1)
    · rw [ih hLines.symm]

theorem scan_withReturns (text : String) : scan (String.ofList (withReturns text.toList)) = scan text := by
  obtain ⟨hEnded, hOpen⟩ := parts_withReturns text.toList
  rw [scan, scan, String.toList_ofList, ← endedLines_append_openLine, ← endedLines_append_openLine, hEnded, hOpen]
  apply scanLines_congr
  rw [List.map_append, List.map_append, List.map_map]
  congr 1
  exact List.map_congr_left fun line _ => dropTrailing_concat rfl line

end Feature

/-! ## Transcripts -/

namespace Transcript

theorem cleanLine_concat (line : List Char) : cleanLine (line ++ ['\r']) = cleanLine line := by
  rw [cleanLine, stripCodes_concat rfl rfl, dropTrailing_concat rfl, cleanLine]

theorem Reader.feed_withReturns (text : String) :
    ({} : Reader).feed (String.ofList (withReturns text.toList)) = ({} : Reader).feed text := by
  obtain ⟨hEnded, hOpen⟩ := parts_withReturns text.toList
  have hLines : ((endedLines text.toList).map (· ++ ['\r'])).map cleanLine = (endedLines text.toList).map cleanLine := by
    rw [List.map_map]
    exact List.map_congr_left fun line _ => cleanLine_concat line
  simp only [Reader.feed, String.toList_ofList, List.nil_append, hEnded, hOpen]
  rw [Reader.foldl_readLine_congr hLines]

end Transcript

open Feature Transcript

/-- A text with carriage returns before its line feeds has the events, and so the tree, of the text without them. Fed in
any chunks, also with a cut between the two characters, it leaves the reader in the same state and has the same
verdict. -/
theorem independent_of_line_ends (text : String) :
    scan (String.ofList (withReturns text.toList)) = scan text ∧
    (∀ (uri : String) (generation : Int),
      build uri (String.ofList (withReturns text.toList)) generation = build uri text generation) ∧
    ∀ chunks others : List String, String.join chunks = String.ofList (withReturns text.toList) →
      String.join others = text →
      chunks.foldl Reader.feed {} = others.foldl Reader.feed {} ∧
      ∀ subject : Subject, ((chunks.foldl Reader.feed {}).finish subject).2 =
        ((others.foldl Reader.feed {}).finish subject).2 := by
  have hScan := scan_withReturns text
  refine ⟨hScan, ?_, ?_⟩
  · intro uri generation
    rw [build, hScan, build]
  · intro chunks others hChunks hOthers
    have hFeed : chunks.foldl Reader.feed {} = others.foldl Reader.feed {} := by
      rw [Reader.foldl_feed_fresh, Reader.foldl_feed_fresh, hChunks, hOthers, Reader.feed_withReturns]
    exact ⟨hFeed, fun subject => by rw [hFeed]⟩

/-- A chunk that ends between the two characters of a line end. -/
theorem feed_of_cut_line_end :
    String.join ["1 scenario (1 passed)\r", "\n1 step"] =
      String.ofList (withReturns "1 scenario (1 passed)\n1 step".toList) ∧
    ["1 scenario (1 passed)\r", "\n1 step"].foldl Reader.feed {} =
      ["1 scenario (1 passed)\n1 step"].foldl Reader.feed {} := by
  have hJoin : String.join ["1 scenario (1 passed)\r", "\n1 step"] =
      String.ofList (withReturns "1 scenario (1 passed)\n1 step".toList) := by decide
  exact ⟨hJoin, ((independent_of_line_ends _).2.2 _ _ hJoin (by decide)).1⟩

end ScenarioRunner
