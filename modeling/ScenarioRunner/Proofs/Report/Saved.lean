import ScenarioRunner.CommandLine.Program
import ScenarioRunner.Proofs.Files.Written
import ScenarioRunner.Proofs.Text.Lines
import ScenarioRunner.Proofs.Text.Numeral

/-!
# Saved reports

Reports of both formats have different names, so that each of them stays as it was written.
-/

namespace ScenarioRunner.Report

open ScenarioRunner.Calendar
open ScenarioRunner.CommandLine
open ScenarioRunner.Files
open ScenarioRunner.Text

set_option autoImplicit false

/-! ## Names of reports -/

theorem isDigit_of_mem_padded {width n : Nat} {c : Char} (h : c ∈ (padded width n).toList) : c.isDigit = true := by
  rw [padded, String.toList_ofList] at h
  exact isDigit_of_mem_padLeft h

theorem slash_notMem_compact (moment : Moment) : '/' ∉ moment.compact.toList := by
  have hPadded : ∀ width n, '/' ∉ (padded width n).toList := by
    intro width n h
    cases isDigit_of_mem_padded h
  simp [Moment.compact, Date.text, Moment.clock, hPadded]

def reportStem (moment : Moment) : String :=
  "cucumber_report_" ++ moment.compact ++ "."

def Format.fileName (f : Format) (moment : Moment) : String :=
  reportStem moment ++ f.extension

theorem Format.toList_fileName (f : Format) (moment : Moment) : ∃ rest, '/' ∉ rest ∧
    (f.fileName moment).toList = 'c' :: rest := by
  have hLead : "cucumber_report_".toList = 'c' :: "ucumber_report_".toList := by decide
  have hRest : '/' ∉ "ucumber_report_".toList := by decide
  have hExtension : '/' ∉ ".".toList ++ f.extension.toList := by cases f <;> decide
  refine ⟨"ucumber_report_".toList ++ (moment.compact.toList ++ (".".toList ++ f.extension.toList)), ?_, ?_⟩
  · rw [List.mem_append, List.mem_append, not_or, not_or]
    exact ⟨hRest, slash_notMem_compact moment, hExtension⟩
  · unfold Format.fileName reportStem
    simp only [String.toList_append, hLead, List.cons_append, List.append_assoc]

theorem Format.fileName_ne {f : Format} {moment : Moment} {name : String} (h : name.toList.head? ≠ some 'c') :
    f.fileName moment ≠ name := by
  obtain ⟨rest, -, hText⟩ := f.toList_fileName moment
  rintro rfl
  rw [hText] at h
  exact h rfl

theorem Format.names_path (f : Format) (moment : Moment) :
    (f.path defaultDirectory moment).names = ["reports"] ++ [f.fileName moment] := by
  obtain ⟨rest, hSlash, hText⟩ := f.toList_fileName moment
  have hRoot : rootOf (f.fileName moment).toList = "" := by rw [hText]; rfl
  have hPieces : pieces '/' (f.fileName moment).toList = [(f.fileName moment).toList] := by
    apply pieces_of_notMem
    rw [hText, List.mem_cons, not_or]
    exact ⟨by decide, hSlash⟩
  have hNames : (Path.ofText (f.fileName moment)).names = [f.fileName moment] := by
    rw [Path.ofText, hPieces, List.map_singleton, String.ofList_toList, List.filter_cons_of_pos, List.filter_nil]
    rw [Bool.and_eq_true, bne_iff_ne, bne_iff_ne]
    exact ⟨Format.fileName_ne (by decide), Format.fileName_ne (by decide)⟩
  have hRelative : (Path.ofText (f.fileName moment)).isAbsolute = false := by
    rw [Path.isAbsolute, Path.ofText, hRoot]
    rfl
  have hDirectory : defaultDirectory.names = ["reports"] := by decide +kernel
  have hPath : f.path defaultDirectory moment = defaultDirectory.join (Path.ofText (f.fileName moment)) := rfl
  rw [hPath, Path.join, hRelative, if_neg (by simp), hNames, hDirectory]

theorem Format.fileName_inj {f g : Format} {moment : Moment} (h : f.fileName moment = g.fileName moment) : f = g := by
  have hLists := congrArg String.toList h
  rw [Format.fileName, Format.fileName, String.toList_append, String.toList_append] at hLists
  have hExtension : f.extension.toList = g.extension.toList := List.append_cancel_left hLists
  cases f with
  | html =>
    cases g with
    | html => rfl
    | json => exact absurd hExtension (by decide)
  | json =>
    cases g with
    | html => exact absurd hExtension (by decide)
    | json => rfl

/-! ## Writing reports -/

def IsSaved (files : FileTree) (f : Format) (moment : Moment) (text : String) : Prop :=
  ∃ names, files.Holds (f.path defaultDirectory moment) names (encodeUtf8 text)

theorem Format.store_of_none {f : Format} {files : FileTree} {p : Path} {w : Writing} (h : w.fault = none) :
    f.store files p w = files.writeFile p (encodeUtf8 w.text) := by
  unfold Format.store
  split
  · next hSome =>
    rw [h] at hSome
    cases hSome
  · rfl

theorem Format.save_ok {f : Format} {files files' : FileTree} {moment : Moment} {entries : List Entry} {p : Path}
    (h : f.save files defaultDirectory moment entries = (files', .ok p)) :
    (f.writing moment entries).fault = none ∧ IsSaved files' f moment (f.writing moment entries).text ∧
      ∀ g ≠ f, ∀ text, IsSaved files g moment text → IsSaved files' g moment text := by
  rw [Format.save] at h
  cases hMade : files.makeDirectory defaultDirectory with
  | error fault =>
    simp only [hMade] at h
    cases h
  | ok made =>
    simp only [hMade] at h
    cases hStored : f.store made (f.path defaultDirectory moment) (f.writing moment entries) with
    | error fault =>
      simp only [hStored] at h
      cases h
    | ok stored =>
      simp only [hStored] at h
      cases hFault : (f.writing moment entries).fault with
      | some fault =>
        simp only [hFault] at h
        cases h
      | none =>
        simp only [hFault] at h
        obtain ⟨rfl, -⟩ := Prod.mk.inj h
        rw [Format.store_of_none hFault] at hStored
        obtain ⟨here, hHolds, hKeeps, hOthers⟩ :=
          FileTree.holds_writeFile (f.names_path moment) (Format.fileName_ne (by decide)) hStored
        refine ⟨rfl, ⟨_, hHolds⟩, ?_⟩
        rintro g hNe text ⟨names, hSaved⟩
        have hGrown := (FileTree.grows_makeDirectory hMade).holds hSaved
        obtain ⟨there, rfl⟩ :=
          FileTree.eq_concat_of_locate (g.names_path moment) (Format.fileName_ne (by decide)) hGrown.locate_eq
        have hApart : there ++ [g.fileName moment] ≠ here ++ [f.fileName moment] := by
          intro hSame
          have hLast := congrArg List.getLast? hSame
          rw [List.getLast?_concat, List.getLast?_concat] at hLast
          exact hNe (Format.fileName_inj (Option.some.inj hLast))
        exact ⟨_, hKeeps.locate hGrown.locate_eq, (hOthers _ hApart).trans hGrown.find?_eq⟩

/-- All reports that are asked for are there in the end. -/
theorem writeReports_ok {moment : Moment} {entries : List Entry} {formats : List Format} {files files' : FileTree}
    (h : writeReports moment entries formats files = (files', .ok ())) (hNodup : formats.Nodup) :
    (∀ f ∈ formats, (f.writing moment entries).fault = none ∧
      IsSaved files' f moment (f.writing moment entries).text) ∧
      ∀ g ∉ formats, ∀ text, IsSaved files g moment text → IsSaved files' g moment text := by
  induction formats generalizing files with
  | nil =>
    cases h
    exact ⟨by simp, fun _ _ _ hSaved => hSaved⟩
  | cons f formats ih =>
    rw [writeReports] at h
    obtain ⟨hFree, hRest⟩ := List.nodup_cons.mp hNodup
    rcases hSave : f.save files defaultDirectory moment entries with ⟨next, fault | p⟩
    · rw [hSave] at h
      cases h
    · rw [hSave] at h
      obtain ⟨hFault, hSaved, hKept⟩ := Format.save_ok hSave
      obtain ⟨hFormats, hOthers⟩ := ih h hRest
      refine ⟨List.forall_mem_cons.mpr ⟨⟨hFault, hOthers f hFree _ hSaved⟩, hFormats⟩, ?_⟩
      intro g hNotMem text hThere
      rw [List.mem_cons, not_or] at hNotMem
      exact hOthers g hNotMem.2 text (hKept g hNotMem.1 text hThere)

end ScenarioRunner.Report
