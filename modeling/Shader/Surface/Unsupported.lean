import Shader.IR.Operator
import Shader.Text.Structured

/-!
# Expressions that are not supported

The expressions of the surface language that programs do not have after elaboration: those that
read textures, derivatives, classifications of floats, ray queries and results of operations on
groups.  Elaboration rejects them, and messages show them in full.
-/

namespace Shader.Surface

/-- A handle that may be missing, in a structured value. -/
def optionText (h : Option (Handle .expression)) : String := Text.option (h.map Handle.text)

/-- The direction of a derivative on the screen. -/
inductive DerivativeAxis where
  | x
  | y
  /-- The sum of the magnitudes along both. -/
  | width
deriving DecidableEq, Repr

namespace DerivativeAxis

def all : List DerivativeAxis := [.x, .y, .width]

theorem mem_all (a : DerivativeAxis) : a ∈ all := by cases a <;> decide

def name : DerivativeAxis → String
  | x => "X"
  | y => "Y"
  | width => "Width"

end DerivativeAxis

/-- How precise a derivative has to be. -/
inductive DerivativeControl where
  | coarse
  | fine
  | none
deriving DecidableEq, Repr

namespace DerivativeControl

def all : List DerivativeControl := [.coarse, .fine, .none]

theorem mem_all (c : DerivativeControl) : c ∈ all := by cases c <;> decide

def name : DerivativeControl → String
  | coarse => "Coarse"
  | fine => "Fine"
  | none => "None"

end DerivativeControl

/-- A property of floats or truth values. -/
inductive RelationalFunction where
  | all
  | any
  | isNan
  | isInf
deriving DecidableEq, Repr

namespace RelationalFunction

def values : List RelationalFunction := [.all, .any, .isNan, .isInf]

theorem mem_values (f : RelationalFunction) : f ∈ values := by cases f <;> decide

def name : RelationalFunction → String
  | all => "All"
  | any => "Any"
  | isNan => "IsNan"
  | isInf => "IsInf"

end RelationalFunction

/-- The level of detail that a texture is sampled at. -/
inductive SampleLevel where
  | auto
  | zero
  | exact (level : Handle .expression)
  | bias (bias : Handle .expression)
  | gradient (x y : Handle .expression)
deriving DecidableEq, Repr

def SampleLevel.valueText : SampleLevel → String
  | auto => "Auto"
  | zero => "Zero"
  | exact level => Text.applied "Exact" [level.text]
  | bias b => Text.applied "Bias" [b.text]
  | gradient x y => Text.record "Gradient" [("x", x.text), ("y", y.text)]

/-- What is asked about a texture. -/
inductive ImageQuery where
  | size (level : Option (Handle .expression))
  | levels
  | layers
  | samples
deriving DecidableEq, Repr

def ImageQuery.valueText : ImageQuery → String
  | size level => Text.record "Size" [("level", optionText level)]
  | levels => "NumLevels"
  | layers => "NumLayers"
  | samples => "NumSamples"

structure ImageSample where
  image : Handle .expression
  sampler : Handle .expression
  /-- The component that is gathered from four texels. -/
  gather : Option IR.Component
  coordinate : Handle .expression
  arrayIndex : Option (Handle .expression)
  offset : Option (Handle .expression)
  level : SampleLevel
  depthReference : Option (Handle .expression)
  clampToEdge : Bool
deriving DecidableEq, Repr

def ImageSample.valueText (s : ImageSample) : String :=
  Text.record "ImageSample"
    [("image", s.image.text), ("sampler", s.sampler.text),
      ("gather", Text.option (s.gather.map IR.Component.name)), ("coordinate", s.coordinate.text),
      ("array_index", optionText s.arrayIndex), ("offset", optionText s.offset),
      ("level", s.level.valueText), ("depth_ref", optionText s.depthReference),
      ("clamp_to_edge", Text.bool s.clampToEdge)]

inductive UnsupportedExpression where
  | imageSample (sample : ImageSample)
  | imageLoad (image coordinate : Handle .expression)
      (arrayIndex sample level : Option (Handle .expression))
  | imageQuery (image : Handle .expression) (query : ImageQuery)
  | derivative (axis : DerivativeAxis) (control : DerivativeControl) (operand : Handle .expression)
  | relational (function : RelationalFunction) (operand : Handle .expression)
  | rayQueryProceedResult
  | rayQueryIntersection (query : Handle .expression) (committed : Bool)
  | rayQueryVertexPositions (query : Handle .expression) (committed : Bool)
  | subgroupBallotResult
  | subgroupOperationResult (type : Handle .type)
  | workgroupUniformLoadResult (type : Handle .type)
deriving DecidableEq, Repr

namespace UnsupportedExpression

def name : UnsupportedExpression → String
  | imageSample _ => "ImageSample"
  | imageLoad .. => "ImageLoad"
  | imageQuery .. => "ImageQuery"
  | derivative .. => "Derivative"
  | relational .. => "Relational"
  | rayQueryProceedResult => "RayQueryProceedResult"
  | rayQueryIntersection .. => "RayQueryGetIntersection"
  | rayQueryVertexPositions .. => "RayQueryVertexPositions"
  | subgroupBallotResult => "SubgroupBallotResult"
  | subgroupOperationResult _ => "SubgroupOperationResult"
  | workgroupUniformLoadResult _ => "WorkGroupUniformLoadResult"

/-- The expression as a structured value. -/
def valueText (e : UnsupportedExpression) : String :=
  match e with
  | imageSample sample => sample.valueText
  | imageLoad image coordinate arrayIndex sample level =>
    Text.record e.name
      [("image", image.text), ("coordinate", coordinate.text),
        ("array_index", optionText arrayIndex), ("sample", optionText sample),
        ("level", optionText level)]
  | imageQuery image query =>
    Text.record e.name [("image", image.text), ("query", query.valueText)]
  | derivative axis control operand =>
    Text.record e.name [("axis", axis.name), ("ctrl", control.name), ("expr", operand.text)]
  | relational function operand =>
    Text.record e.name [("fun", function.name), ("argument", operand.text)]
  | rayQueryIntersection query committed | rayQueryVertexPositions query committed =>
    Text.record e.name [("query", query.text), ("committed", Text.bool committed)]
  | subgroupOperationResult type | workgroupUniformLoadResult type =>
    Text.record e.name [("ty", type.text)]
  | rayQueryProceedResult | subgroupBallotResult => e.name

end UnsupportedExpression

end Shader.Surface
