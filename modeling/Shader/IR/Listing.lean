import Shader.IR.Module

/-!
# Listings

The human-readable text of a module.  A listing exists only when every type and every initialiser
it has to show lies inside its arena.
-/

namespace Shader.IR

/-- A line, indented. -/
def line (indent : Nat) (text : String) : String := "".pushn ' ' indent ++ text ++ "\n"

/-- What a listing calls something without a name. -/
def nameOrBlank (name : Option String) : String := name.getD "_"

/-- An initialiser or a binding that may be missing, with text around it. -/
def around (before : String) (after : String) : Option String → String
  | some text => before ++ text ++ after
  | none => ""

/-! ### Types -/

namespace Module

variable (m : Module)

/-- The text of a shape, given the texts of its component types. -/
def shapeTextWith (component : Handle .type → Except Error String) :
    TypeShape → Except Error String
  | .scalar s => pure s.text
  | .vector size s => pure s!"vec{size.text}<{s.text}>"
  | .matrix columns rows s => pure s!"mat{columns.text}x{rows.text}<{s.text}>"
  | .atomic s => pure s!"atomic<{s.text}>"
  | .pointer base space => do
    let base ← component base
    pure s!"ptr<{space.text}, {base}>"
  | .array base (.fixed length) stride => do
    let base ← component base
    pure s!"array<{base}, {length.toNat}> /*stride {stride.toNat}*/"
  | .array base .runtime stride => do
    let base ← component base
    pure s!"array<{base}> /*stride {stride.toNat}*/"
  | .struct members span => pure s!"struct({members.length} members, span {span.toNat})"

/-- The text of a type: its name, or its shape.  `depth` bounds how far shapes nest. -/
def typeTextWithin : Nat → Handle .type → Except Error String
  | 0, h => .error (.badHandle h.index m.types.size)
  | depth + 1, h => do
    let type ← m.typeAt h
    match type.name with
    | some name => pure name
    | none => shapeTextWith (typeTextWithin depth) type.shape

/-- The text of a type. -/
def typeText (h : Handle .type) : Except Error String := m.typeTextWithin (m.types.size + 1) h

/-- The text of a shape. -/
def shapeText (shape : TypeShape) : Except Error String := shapeTextWith m.typeText shape

end Module

/-! ### Statements -/

/-- The result of a call or an atomic, if it is used. -/
def arrow (result : Option (Handle .expression)) : String := around " -> " "" (result.map (·.text))

mutual

def Statement.listing (indent : Nat) : Statement → String
  | .emit range => line indent s!"Emit({range.text})"
  | .block body =>
    line indent "Block \x7b" ++ statementsListing (indent + 4) body ++ line indent "\x7d"
  | .store pointer value => line indent s!"Store {pointer.text} = {value.text}"
  | .ifElse condition accept reject =>
    line indent (s!"If ({condition.text}) " ++ "\x7b") ++ statementsListing (indent + 4) accept ++
      (if reject.isEmpty then ""
        else line indent "\x7d else \x7b" ++ statementsListing (indent + 4) reject) ++
      line indent "\x7d"
  | .switch selector cases =>
    line indent (s!"Switch ({selector.text}) " ++ "\x7b") ++ casesListing indent cases ++
      line indent "\x7d"
  | .loop body continuing breakIf =>
    line indent "Loop \x7b" ++ statementsListing (indent + 4) body ++
      (if continuing.isEmpty && breakIf.isNone then ""
        else line indent "  Continuing \x7b" ++ statementsListing (indent + 8) continuing ++
          (match breakIf with
            | some condition => line indent s!"    BreakIf({condition.text})"
            | none => "") ++
          line indent "  \x7d") ++
      line indent "\x7d"
  | .call function arguments result =>
    line indent ("Call " ++ Text.applied function.text (arguments.map (·.text)) ++ arrow result)
  | .atomic pointer function value result =>
    line indent (Text.applied function.text [pointer.text, value.text] ++ arrow result)
  | .break => line indent "Break"
  | .continue => line indent "Continue"
  | .return (some value) => line indent s!"Return {value.text}"
  | .return none => line indent "Return"
  | .kill => line indent "Kill"
  | .barrier b => line indent s!"Barrier({b.text})"
termination_by structural s => s

def statementsListing (indent : Nat) : List Statement → String
  | [] => ""
  | s :: rest => s.listing indent ++ statementsListing indent rest
termination_by structural body => body

def casesListing (indent : Nat) : List SwitchCase → String
  | [] => ""
  | c :: rest => caseListing indent c ++ casesListing indent rest
termination_by structural cases => cases

def caseListing (indent : Nat) : SwitchCase → String
  | ⟨values, body⟩ =>
    line indent ("  Case " ++ ", ".intercalate (values.map (·.text)) ++ ":") ++
      statementsListing (indent + 4) body
termination_by structural c => c

end

/-! ### Functions and modules -/

namespace Module

variable (m : Module)

def argumentListing (a : Argument) : Except Error String := do
  let binding := around "" " " (a.binding.map (·.text))
  let type ← m.typeText a.type
  pure s!"{binding}{nameOrBlank a.name}: {type}"

def localListing (f : Function) (h : Handle .localVariable) (v : LocalVariable) :
    Except Error String := do
  let init ← v.init.mapM fun h => do return (← f.expressions.fetch h).text
  let type ← m.typeText v.type
  pure (line 4 (s!"var {h.text} {nameOrBlank v.name}: {type}" ++ around " = " "" init))

def expressionListing (f : Function) (h : Handle .expression) (e : Expression) :
    Except Error String := do
  let type ← match f.expressions.types[h.index]? with
    | some type => m.typeText type
    | none => pure "?"
  pure (line 6 s!"{h.text} {e.text} : {type}")

def functionListing (label : String) (f : Function) : Except Error String := do
  let arguments ← f.arguments.mapM m.argumentListing
  let result ← f.result.mapM fun r => m.typeText r.type
  let head := s!"fn {Text.applied (nameOrBlank f.name) arguments}  [{label}]"
  let locals ← f.locals.entries.mapM fun (h, v) => m.localListing f h v
  let expressions ← f.expressions.entries.mapM fun (h, e) => m.expressionListing f h e
  pure <|
    line 2 (head ++ around " -> " "" result ++ " \x7b") ++ String.join locals ++
    (if expressions.isEmpty then "" else line 4 "Expressions:" ++ String.join expressions) ++
    (if f.body.isEmpty then "" else line 4 "Body:" ++ statementsListing 6 f.body) ++
    line 2 "\x7d"

def overrideListing (h : Handle .override) (o : Override) : Except Error String := do
  let id := around "@id(" ") " (o.id.map fun n => s!"{n.toNat}")
  let init := around " = " "" (o.init.map (·.text))
  let type ← m.typeText o.type
  pure (line 2 s!"{h.text} {id}override {nameOrBlank o.name}: {type}{init}")

def globalListing (h : Handle .globalVariable) (v : GlobalVariable) : Except Error String := do
  let binding := around "" " " (v.binding.map (·.text))
  let type ← m.typeText v.type
  pure (line 2 s!"{h.text} {binding}var<{v.space.text}>  {nameOrBlank v.name}: {type}")

def entryPointListing (e : EntryPoint) : Except Error String := do
  let (x, y, z) := e.workgroupSize
  let size := match e.stage with
    | .compute => s!" @workgroup_size({x.toNat}, {y.toNat}, {z.toNat})"
    | .vertex | .fragment => ""
  pure (line 2 (e.stage.text ++ size) ++ (← m.functionListing e.name e.function))

/-- A titled part of the listing, left out when it has nothing to show. -/
def part (title : String) (items : List String) : String :=
  if items.isEmpty then "" else "\n" ++ title ++ ":\n" ++ String.join items

/-- The text of the whole module. -/
def listing : Except Error String := do
  let types ← m.types.entries.mapM fun (h, _) => do
    return line 2 (h.text ++ " " ++ (← m.typeText h))
  let overrides ← m.overrides.entries.mapM fun (h, o) => m.overrideListing h o
  let globals ← m.globals.entries.mapM fun (h, v) => m.globalListing h v
  let constants := m.constants.entries.map fun (h, e) => line 2 s!"{h.text} {e.text}"
  let functions ← m.functions.entries.mapM fun (h, f) => m.functionListing h.text f
  let entryPoints ← m.entryPoints.mapM m.entryPointListing
  pure <|
    "Types:\n" ++ String.join types ++ part "Overrides" overrides ++
    part "Global Variables" globals ++ part "Global Expressions" constants ++
    part "Functions" functions ++ part "Entry Points" entryPoints

end Module

end Shader.IR
