import ScenarioRunner.Files.FileTree
import ScenarioRunner.Report.Html
import ScenarioRunner.Report.Json

/-!
# Report files

A report is written to a file that is named for the moment of the report. A page is written as a whole or not at all;
of a document the part that could be written stays.
-/

namespace ScenarioRunner.Report

open ScenarioRunner.Calendar
open ScenarioRunner.Files

set_option autoImplicit false

inductive Format where
  | html
  | json
deriving DecidableEq, Repr

def Format.extension : Format → String
  | .html => "html"
  | .json => "json"

def Format.writing (f : Format) (moment : Moment) (entries : List Entry) : Writing :=
  match f with
  | .html => .whole (Html.page moment entries)
  | .json => Json.document moment entries

def defaultDirectory : Path :=
  Path.ofText "reports"

def Format.path (f : Format) (directory : Path) (moment : Moment) : Path :=
  directory.child ("cucumber_report_" ++ moment.compact ++ "." ++ f.extension)

def Format.store (f : Format) (files : FileTree) (p : Path) (w : Writing) : Except Fault FileTree :=
  match f, w.fault with
  | .html, some _ => .ok files
  | _, _ => files.writeFile p (Text.encodeUtf8 w.text)

def Format.save (f : Format) (files : FileTree) (directory : Path) (moment : Moment) (entries : List Entry) :
    FileTree × Except Fault Path :=
  let p := f.path directory moment
  let w := f.writing moment entries
  match files.makeDirectory directory with
  | .error fault => (files, .error fault)
  | .ok files =>
    match f.store files p w, w.fault with
    | .error fault, _ => (files, .error fault)
    | .ok files, some fault => (files, .error fault)
    | .ok files, none => (files, .ok p)

end ScenarioRunner.Report
