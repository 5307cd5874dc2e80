import ScenarioRunner.Text.Lead

/-!
# Placeholders

A name of an outline holds placeholders such as `<count>`, one for each column of its examples.
-/

namespace ScenarioRunner.Feature

open ScenarioRunner.Text

set_option autoImplicit false

def fill (header value : List Char) : List Char → List Char
  | [] => []
  | c :: s =>
    if c = '<' then
      match _h : after? (header ++ ['>']) s with
      | some rest => value ++ fill header value rest
      | none => c :: fill header value s
    else c :: fill header value s
termination_by s => s.length
decreasing_by
  · have := length_of_after? _h
    simp only [List.length_cons]
    omega
  · simp
  · simp

/-- Fills the columns one after the other; headers without a value, and values without a header, are left out. -/
def substitute (template : String) (headers values : List String) : String :=
  String.ofList ((headers.zip values).foldl (fun name column =>
    fill column.1.toList column.2.toList name) template.toList)

end ScenarioRunner.Feature
