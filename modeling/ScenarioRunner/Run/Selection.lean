import ScenarioRunner.Feature.Store

/-!
# Selecting cases

The cases of the given files in their order. An excluded node takes everything below it along. In an aggregate run an
outline is one case of its own.
-/

namespace ScenarioRunner.Run

open ScenarioRunner.Feature

set_option autoImplicit false

structure Selection where
  filter : Option String := none
  excluded : List String := []
  aggregatesOutlines : Bool := false

def outlineCases (filter : Option String) (suite : Suite) : List Case :=
  if suite.containsMatch filter then suite.header.outlineCase.toOption.toList else []

mutual

def Selection.casesOf (s : Selection) : Node → List Case
  | .case c => if s.excluded.contains c.id || !c.passes s.filter then [] else [c]
  | .suite header children =>
    if s.excluded.contains header.id then []
    else if header.isOutline && s.aggregatesOutlines then outlineCases s.filter ⟨header, children⟩
    else s.casesOfAll children

def Selection.casesOfAll (s : Selection) : List Node → List Case
  | [] => []
  | n :: rest => s.casesOf n ++ s.casesOfAll rest

end

def Selection.collect (s : Selection) (files : List FeatureFile) : List Case :=
  files.flatMap fun file =>
    match file.root with
    | some suite => s.casesOf suite.node
    | none => []

end ScenarioRunner.Run
