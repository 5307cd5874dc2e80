import ScenarioRunner.Feature.Draft

/-!
# Builders

A builder is made for one file and reads texts of it, one after the other. A reading begins with nothing of the reading
before, which may have ended anywhere: without a feature, in an outline, or in a block of examples.
-/

namespace ScenarioRunner.Feature

set_option autoImplicit false

structure Builder extends Draft where
  uri : String
  generation : Int := 0

def Builder.reset (b : Builder) : Builder :=
  { b with names := [], root := none, children := [], outline := none, block := .outside, generation := 0 }

def Builder.add (b : Builder) (e : Event) : Builder :=
  { b with toDraft := b.toDraft.add b.uri b.generation e }

def Builder.build (b : Builder) (text : String) (generation : Int := 0) : Builder × Option Suite :=
  let b := (scan text).foldl Builder.add { b.reset with generation }
  (b, b.suite?)

end ScenarioRunner.Feature
