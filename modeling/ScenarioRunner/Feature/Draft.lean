import ScenarioRunner.Feature.Event
import ScenarioRunner.Feature.Placeholder
import ScenarioRunner.Feature.Tree

/-!
# From events to a tree

The events of a file are taken one by one into a draft of its tree. Scenarios before the feature, further features, and
rows that belong to no outline add nothing. The first row of a block of examples names its columns.
-/

namespace ScenarioRunner.Feature

set_option autoImplicit false

inductive Block where
  | outside
  | opened
  | columns (headers : List String)
deriving DecidableEq

structure Draft where
  names : List String := []
  root : Option Header := none
  /-- The finished children of the root. -/
  children : List Node := []
  /-- The outline that rows belong to, with its rows so far. -/
  outline : Option (Header × List Case) := none
  block : Block := .outside

/-- The id of the next node: the file, the name, and from the second node of one name on its number. -/
def Draft.nextId (d : Draft) (uri name : String) : String :=
  match d.names.count name with
  | 0 => uri ++ "/" ++ name
  | earlier + 1 => uri ++ "/" ++ name ++ " [" ++ toString (earlier + 2) ++ "]"

def Draft.allChildren (d : Draft) : List Node :=
  match d.outline with
  | none => d.children
  | some (header, rows) => d.children ++ [.suite header (rows.map .case)]

def Draft.addFeature (d : Draft) (uri : String) (generation : Int) (span : Span) (name : String) : Draft :=
  match d.root with
  | some _ => d
  | none =>
    { d with
      names := d.names ++ [name]
      root := some { id := d.nextId uri name, name, uri, span, generation }
      outline := none
      block := .outside }

def Draft.addScenario (d : Draft) (uri : String) (generation : Int) (span : Span) (name : String)
    (isOutline : Bool) : Draft :=
  match d.root with
  | none => { d with outline := none, block := .outside }
  | some _ =>
    let id := d.nextId uri name
    if isOutline then
      { d with
        names := d.names ++ [name]
        children := d.allChildren
        outline := some ({ id, name, uri, span, generation, isOutline := true }, [])
        block := .outside }
    else
      { d with
        names := d.names ++ [name]
        children := d.allChildren ++
          [.case { id, name, uri, span, anchor := span.stop, generation, templateName := name }]
        outline := none
        block := .outside }

def Draft.addRow (d : Draft) (uri : String) (generation : Int) (span : Span) (cells : List String) : Draft :=
  match d.outline, d.block with
  | some _, .opened => { d with block := .columns cells }
  | some (header, rows), .columns headers =>
    let name := substitute header.name headers cells
    { d with
      names := d.names ++ [name]
      outline := some (header, rows ++ [{
        id := d.nextId uri name, name, uri, span, anchor := header.span.stop, generation,
        templateName := header.name }]) }
  | _, _ => d

def Draft.add (uri : String) (generation : Int) (d : Draft) (e : Event) : Draft :=
  match e.kind with
  | .feature name => d.addFeature uri generation e.span name
  | .scenario name isOutline => d.addScenario uri generation e.span name isOutline
  | .examples => { d with block := .opened }
  | .tableRow cells => d.addRow uri generation e.span cells

def Draft.ofEvents (uri : String) (generation : Int) (events : List Event) : Draft :=
  events.foldl (Draft.add uri generation) {}

def Draft.suite? (d : Draft) : Option Suite :=
  d.root.map fun header => ⟨header, d.allChildren⟩

def build (uri text : String) (generation : Int := 0) : Option Suite :=
  (Draft.ofEvents uri generation (scan text)).suite?

end ScenarioRunner.Feature
