import Mathlib.Data.List.Forall2
import ScenarioRunner.Proofs.Text.TerminalCodes
import ScenarioRunner.Proofs.Transcript.Chunks

/-!
# Coloured output

A line is read in its clean form only. Main statement: colour codes and zero-width characters in the output change
nothing that is read from it, wherever they stand and however the output is cut into chunks.
-/

namespace ScenarioRunner.Transcript

open ScenarioRunner.Text

set_option autoImplicit false

/-! ## Lines with one clean form -/

theorem Reader.readLine_congr {line other : List Char} (h : cleanLine line = cleanLine other) (r : Reader) :
    r.readLine line = r.readLine other := by
  unfold Reader.readLine
  rw [h]

theorem Reader.foldl_readLine_congr {lines others : List (List Char)}
    (h : lines.map cleanLine = others.map cleanLine) (r : Reader) :
    lines.foldl Reader.readLine r = others.foldl Reader.readLine r := by
  induction lines generalizing others r with
  | nil =>
    obtain rfl := List.map_eq_nil_iff.mp h.symm
    rfl
  | cons line lines ih =>
    obtain ⟨other, others, rfl, hLine, hLines⟩ := List.map_eq_cons_iff.mp h.symm
    rw [List.foldl_cons, List.foldl_cons, Reader.readLine_congr hLine, ih hLines.symm]

theorem cleanLine_eq_of_decorates {line decorated : List Char} (h : Decorates line decorated)
    (hLine : IsUnmarked line) : cleanLine decorated = cleanLine line := by
  rw [cleanLine, cleanLine, h.stripCodes_eq hLine, hLine.stripCodes_eq]

/-! ## Chunks that end inside a line -/

/-- While output arrives, the lines that are complete have been read, and the rest is held back. -/
theorem Reader.foldl_feed_lines {lines chunks : List String} {part : String}
    (hLines : ∀ line ∈ lines, '\n' ∉ line.toList) (hPart : '\n' ∉ part.toList)
    (hJoin : String.join chunks = String.join (lines.map (· ++ "\n")) ++ part) :
    chunks.foldl Reader.feed {} = { lines.foldl Reader.feedLine {} with held := part.toList } := by
  have hText : (String.join chunks).toList = (lines.map String.toList).flatMap (· ++ ['\n']) ++ part.toList := by
    rw [hJoin]
    simp [String.toList_join, List.flatMap_map]
  obtain ⟨hEnded, hOpen⟩ := parts_of_lines_append (lines.map String.toList) (by simpa using hLines) hPart
  rw [Reader.foldl_feed_fresh, Reader.foldl_feedLine_of_notMem {} hLines]
  simp only [Reader.feed, List.nil_append, hText, hEnded, hOpen]

/-! ## Decorated lines -/

abbrev DecoratesAll (lines decorated : List String) : Prop :=
  List.Forall₂ (fun line other => Decorates line.toList other.toList) lines decorated

theorem Reader.foldl_feedLine_decorated {lines decorated : List String} (h : DecoratesAll lines decorated)
    (hLines : ∀ line ∈ lines, IsUnmarked line.toList ∧ '\n' ∉ line.toList) (r : Reader) :
    decorated.foldl Reader.feedLine r = lines.foldl Reader.feedLine r := by
  induction h generalizing r with
  | nil => rfl
  | @cons line other lines decorated hLine _ ih =>
    obtain ⟨⟨hUnmarked, hFeed⟩, hLines⟩ := List.forall_mem_cons.mp hLines
    rw [List.foldl_cons, List.foldl_cons, r.feedLine_of_notMem hFeed, r.feedLine_of_notMem (hLine.notMem hFeed),
      Reader.readLine_congr (cleanLine_eq_of_decorates hLine hUnmarked), ih hLines]

theorem DecoratesAll.notMem {lines decorated : List String} (h : DecoratesAll lines decorated)
    (hLines : ∀ line ∈ lines, '\n' ∉ line.toList) : ∀ line ∈ decorated, '\n' ∉ line.toList := by
  induction h with
  | nil => exact hLines
  | cons hLine _ ih =>
    obtain ⟨hFeed, hLines⟩ := List.forall_mem_cons.mp hLines
    exact List.forall_mem_cons.mpr ⟨hLine.notMem hFeed, ih hLines⟩

/-- Marks in the lines of a transcript change neither what is read from it line by line nor its verdict, and the same is
true of its chunks, which may be cut inside a mark. -/
theorem verdict_independent_of_marks {lines decorated : List String}
    (hLines : ∀ line ∈ lines, IsUnmarked line.toList ∧ '\n' ∉ line.toList) (h : DecoratesAll lines decorated) :
    (∀ (r : Reader) (n : Nat),
      (decorated.take n).foldl Reader.feedLine r = (lines.take n).foldl Reader.feedLine r) ∧
    (∀ subject : Subject, interpret decorated subject = interpret lines subject) ∧
    (∀ (n : Nat) (part : String) (chunks : List String), '\n' ∉ part.toList →
      String.join chunks = String.join ((decorated.take n).map (· ++ "\n")) ++ part →
      chunks.foldl Reader.feed {} = { (lines.take n).foldl Reader.feedLine {} with held := part.toList }) ∧
    ∀ (subject : Subject) (chunks : List String),
      String.join chunks = String.join (decorated.map (· ++ "\n")) →
      ((chunks.foldl Reader.feed {}).finish subject).2 = interpret lines subject := by
  have hFeeds := h.notMem fun line hLine => (hLines line hLine).2
  have hTake : ∀ (r : Reader) (n : Nat),
      (decorated.take n).foldl Reader.feedLine r = (lines.take n).foldl Reader.feedLine r := fun r n =>
    Reader.foldl_feedLine_decorated (List.forall₂_take n h)
      (fun line hLine => hLines line (List.mem_of_mem_take hLine)) r
  have hAll := Reader.foldl_feedLine_decorated h hLines {}
  refine ⟨hTake, ?_, ?_, ?_⟩
  · intro subject
    rw [interpret, interpret, hAll]
  · intro n part chunks hPart hJoin
    rw [Reader.foldl_feed_lines (fun line hLine => hFeeds line (List.mem_of_mem_take hLine)) hPart hJoin, hTake]
  · intro subject chunks hJoin
    rw [Reader.foldl_feed_fresh, hJoin, Reader.feed_lines hFeeds, hAll, interpret]

/-- A line in green with a zero-width character in it, in chunks that are cut inside the codes. -/
theorem verdict_of_coloured_count :
    (∀ line ∈ ["1 scenario", "0 steps"], IsUnmarked line.toList ∧ '\n' ∉ line.toList) ∧
    DecoratesAll ["1 scenario", "0 steps"] ["\x1b[1;32m1 scen\u200Bario\x1b[0m", "0 steps"] ∧
    ((["\x1b[1;3", "2m1 scen\u200Bario\x1b", "[0m\n0 steps\n"].foldl Reader.feed {}).finish ⟨"Login", false⟩).2 =
      interpret ["1 scenario", "0 steps"] ⟨"Login", false⟩ := by
  have hLines : ∀ line ∈ ["1 scenario", "0 steps"], IsUnmarked line.toList ∧ '\n' ∉ line.toList := by decide
  have hGreen : Mark ('\x1b' :: '[' :: ("1;32".toList ++ ['m'])) := .colour (by simp) (by decide)
  have hReset : Mark ('\x1b' :: '[' :: ("0".toList ++ ['m'])) := .colour (by simp) (by decide)
  have hJoiner : Mark "\u200B".toList := .zeroWidth (by decide)
  have hFirst : Decorates "1 scenario".toList "\x1b[1;32m1 scen\u200Bario\x1b[0m".toList :=
    .mark hGreen (.append (.refl "1 scen".toList) (.mark hJoiner (.append (.refl "ario".toList) (.mark hReset .nil))))
  have hDecorated : DecoratesAll ["1 scenario", "0 steps"] ["\x1b[1;32m1 scen\u200Bario\x1b[0m", "0 steps"] :=
    .cons hFirst (.cons (.refl _) .nil)
  exact ⟨hLines, hDecorated, (verdict_independent_of_marks hLines hDecorated).2.2.2 _ _ (by decide)⟩

end ScenarioRunner.Transcript
