import Shader.Surface.Renaming

/-!
# Elaboration

The program that a surface module stands for.  Types and constant expressions come first, then
variables, then functions; a function may call those before it.
-/

namespace Shader.Surface

/-! ### Expressions -/

/-- Abstract literals become literals of 32 bits, if they fit. -/
def Literal.elaborate : Literal → Except Error IR.Literal
  | concrete literal => .ok literal
  | f16 bits => .error (.unsupported (.literal (f16 bits)))
  | abstractInt value =>
    if Int32.minValue.toInt ≤ value.toInt ∧ value.toInt ≤ Int32.maxValue.toInt then
      .ok (.i32 (Int32.ofInt value.toInt))
    else .error (.unsupported (.abstractInt value))
  | abstractFloat bits =>
    .ok (.f32 (UInt32.ofNat (Number.Format.double.convert .single bits.toNat)))

def MathFunction.elaborate : MathFunction → Except Error IR.MathFunction
  | known function => .ok function
  | other name => .error (.unsupported (.mathFunction name))

/-- A constant expression of the module. -/
def Expression.elaborateConstant (r : Renaming) (e : Expression) : Except Error IR.Expression :=
  match e with
  | literal l => return .literal (← l.elaborate)
  | zeroValue type => return .zeroValue (← r.type type)
  | constant c => return .constant (← r.constant c)
  | compose type components =>
    return .compose (← r.type type) (← components.mapM r.constantExpression)
  | splat size value => return .splat size (← r.constantExpression value)
  | override o => return .override (← r.override o)
  | _ => .error (.malformed (.notConstant e))

/-- An expression of a function. -/
def Expression.elaborate (s : Scope) : Expression → Except Error IR.Expression
  | literal l => return .literal (← l.elaborate)
  | constant c => return .constant (← s.constant c)
  | override o => return .override (← s.override o)
  | zeroValue type => return .zeroValue (← s.type type)
  | compose type components => return .compose (← s.type type) (← components.mapM s.expression)
  | access base index => return .access (← s.expression base) (← s.expression index)
  | accessIndex base index => return .accessIndex (← s.expression base) index
  | splat size value => return .splat size (← s.expression value)
  | swizzle size vector pattern => return .swizzle size (← s.expression vector) pattern
  | argument index => return .argument index
  | globalVariable global => return .globalVariable (← s.globalVariable global)
  | localVariable slot => return .localVariable (← s.localVariable slot)
  | load pointer => return .load (← s.expression pointer)
  | unary op operand => return .unary op (← s.expression operand)
  | binary op left right => return .binary op (← s.expression left) (← s.expression right)
  | select condition accept reject =>
    return .select (← s.expression condition) (← s.expression accept) (← s.expression reject)
  | math function arg arg1 arg2 none =>
    return .math (← function.elaborate) (← s.expression arg) (← arg1.mapM s.expression)
      (← arg2.mapM s.expression)
  | math function _ _ _ (some _) => .error (.unsupported (.fourArguments function))
  | cast operand kind width => return .cast (← s.expression operand) kind.elaborate width
  | callResult function => return .callResult (← s.function function)
  | atomicResult type comparison => return .atomicResult (← s.type type) comparison
  | arrayLength array => return .arrayLength (← s.expression array)
  | unsupported e => .error (.unsupported (.expression e))

/-! ### Statements -/

def elaborateAtomic (s : Scope) : IR.AtomicFunction → Except Error IR.AtomicFunction
  | .exchange compare => return .exchange (← compare.mapM s.expression)
  | function => return function

/-- A run of expressions to emit; an empty one disappears. -/
def elaborateEmit (s : Scope) (range : HandleRange .expression) :
    Except Error (Option IR.Statement) := do
  if range.isEmpty then
    return none
  let first ← s.expression ⟨range.start⟩
  let last ← s.expression ⟨range.stop - 1⟩
  return some (.emit (.inclusive first last))

mutual

/-- A statement; one without effect disappears. -/
def Statement.elaborate (s : Scope) : Statement → Except Error (Option IR.Statement)
  | .emit range => elaborateEmit s range
  | .block body => return some (.block (← elaborateBody s body))
  | .store pointer value =>
    return some (.store (← s.expression pointer) (← s.expression value))
  | .ifElse condition accept reject =>
    return some (.ifElse (← s.expression condition) (← elaborateBody s accept)
      (← elaborateBody s reject))
  | .switch selector cases =>
    return some (.switch (← s.expression selector) (← elaborateCases s [] cases))
  | .loop body continuing breakIf =>
    return some (.loop (← elaborateBody s body) (← elaborateBody s continuing)
      (← breakIf.mapM s.expression))
  | .call function arguments result =>
    return some (.call (← s.calledFunction function) (← arguments.mapM s.expression)
      (← result.mapM s.expression))
  | .atomic pointer function value result =>
    return some (.atomic (← s.expression pointer) (← elaborateAtomic s function)
      (← s.expression value) (← result.mapM s.expression))
  | .break => return some .break
  | .continue => return some .continue
  | .return value => return some (.return (← value.mapM s.expression))
  | .kill => return some .kill
  | .barrier b => return if b.isEmpty then none else some (.barrier b)
  | .other name => .error (.unsupported (.statement name))
termination_by structural statement => statement

def elaborateBody (s : Scope) : List Statement → Except Error (List IR.Statement)
  | [] => return []
  | statement :: rest => do
    let head ← statement.elaborate s
    let tail ← elaborateBody s rest
    return head.toList ++ tail
termination_by structural body => body

/-- Joins cases that fall through with the one that has the body, whose selectors come after
those that are pending. -/
def elaborateCases (s : Scope) (pending : List IR.SwitchValue) :
    List SwitchCase → Except Error (List IR.SwitchCase)
  | [] => return if pending.isEmpty then [] else [⟨pending, []⟩]
  | c :: rest => do
    let values := pending ++ [c.value]
    if c.fallsThrough then
      if c.body.isEmpty then elaborateCases s values rest
      else .error (.unsupported .fallThrough)
    else
      let body ← elaborateCase s c
      let others ← elaborateCases s [] rest
      return ⟨values, body⟩ :: others
termination_by structural cases => cases

def elaborateCase (s : Scope) : SwitchCase → Except Error (List IR.Statement)
  | ⟨_, body, _⟩ => elaborateBody s body
termination_by structural c => c

end

/-! ### Functions -/

def Argument.elaborate (r : Renaming) (argument : Argument) : Except Error IR.Argument := do
  let type ← r.type argument.type
  let binding ← argument.binding.mapM Binding.elaborate
  return { name := argument.name, type, binding }

def Result.elaborate (r : Renaming) (result : Result) : Except Error IR.Result := do
  let type ← r.type result.type
  let binding ← result.binding.mapM Binding.elaborate
  return { type, binding }

/-- The initial values of local variables.  One that is not among the first `count` expressions,
which the function has itself, is a constant expression of the module and is wrapped in an
expression of the function. -/
def elaborateInits (r : Renaming) (constants : IR.ExpressionArena) (count : Nat)
    (arena : IR.ExpressionArena) :
    List LocalVariable → Except Error (List (Option (Handle .expression)) × IR.ExpressionArena)
  | [] => return ([], arena)
  | v :: rest => do
    match v.init with
    | none =>
      let (inits, arena) ← elaborateInits r constants count arena rest
      return (none :: inits, arena)
    | some init =>
      if init.index < count then
        let (inits, arena) ← elaborateInits r constants count arena rest
        return (some init :: inits, arena)
      else
        let value ← r.constantExpression init
        match constants.typeOf value with
        | .error error => .error (.malformed (.ir error))
        | .ok type =>
          let (wrapped, arena) := arena.add (.constant value) type
          let (inits, arena) ← elaborateInits r constants count arena rest
          return (some wrapped :: inits, arena)

/-- The names of the first `count` expressions. -/
def elaborateNames (count : Nat) (named : List (Handle .expression × String)) :
    List (Handle .expression × String) :=
  (named.filter fun (h, _) => h.index < count).foldl
    (fun names (h, name) => IR.Function.insertName h name names) []

/-- The expressions of a function, each of which may refer to the ones before it. -/
def elaborateExpressions (r : Renaming) (f : Function) : TypesM IR.ExpressionArena := do
  let types ← f.expressions.mapM fun e => e.type.elaborate r
  let expressions ← f.expressions.zipIdx.mapM fun (e, index) =>
    e.expression.elaborate { r with locals := f.locals.length, expressions := index }
  return { items := expressions.toArray, types := types.toArray }

def localVariable (v : LocalVariable) (type : Handle .type) (init : Option (Handle .expression)) :
    IR.LocalVariable :=
  { name := v.name, type, init }

def Function.elaborate (r : Renaming) (constants : IR.ExpressionArena) (f : Function) :
    TypesM IR.Function := do
  let arguments ← f.arguments.mapM fun argument => argument.elaborate r
  let result ← f.result.mapM fun result => result.elaborate r
  let localTypes ← f.locals.mapM fun v => r.type v.type
  let arena ← elaborateExpressions r f
  let count := f.expressions.length
  let (inits, expressions) ← elaborateInits r constants count arena f.locals
  let body ← elaborateBody { r with locals := f.locals.length, expressions := count } f.body
  return {
    name := f.name
    arguments
    result
    locals := .ofList <| (f.locals.zip (localTypes.zip inits)).map fun (v, type, init) =>
      localVariable v type init
    expressions
    named := elaborateNames count f.named
    body }

def Stage.elaborate : Stage → Except Error IR.Stage
  | known stage => .ok stage
  | other name => .error (.unsupported (.stage name))

def EntryPoint.elaborate (r : Renaming) (constants : IR.ExpressionArena) (entry : EntryPoint) :
    TypesM IR.EntryPoint := do
  let stage ← entry.stage.elaborate
  if entry.overridesSize then
    throw (.unsupported .pendingWorkgroup)
  let function ← entry.function.elaborate r constants
  return { name := entry.name, stage, workgroupSize := entry.workgroupSize, function }

/-! ### Modules -/

/-- The constant expressions of a module, each of which may refer to the ones before it. -/
def elaborateConstants (r : Renaming) (expressions : List TypedExpression) :
    TypesM IR.ExpressionArena := do
  let entries ← expressions.zipIdx.mapM fun (e, index) => do
    let type ← e.type.elaborate r
    let expression ← e.expression.elaborateConstant { r with constants := index }
    return (expression, type)
  return { items := (entries.map Prod.fst).toArray, types := (entries.map Prod.snd).toArray }

def GlobalVariable.elaborate (r : Renaming) (v : GlobalVariable) :
    Except Error IR.GlobalVariable := do
  let space ← v.space.elaborate
  let type ← r.type v.type
  let init ← v.init.mapM r.constantExpression
  return { name := v.name, space, binding := v.binding, type, init }

/-- Global variables without textures and samplers, and the handles of those that are left, of
which the first is `next`. -/
def elaborateGlobals (r : Renaming) (next : Nat) :
    List GlobalVariable →
      Except Error (List IR.GlobalVariable × List (Option (Handle .globalVariable)))
  | [] => return ([], [])
  | v :: rest => do
    if v.space = .handle then
      let (globals, handles) ← elaborateGlobals r next rest
      return (globals, none :: handles)
    else
      let global ← v.elaborate r
      let (globals, handles) ← elaborateGlobals r (next + 1) rest
      return (global :: globals, some ⟨next⟩ :: handles)

def Override.elaborate (o : Override) (type : Handle .type) (init : Option (Handle .expression)) :
    IR.Override :=
  { name := o.name, id := o.id, type, init }

/-- Elaborates a module; the types are left in the state. -/
def Module.elaborateParts (m : Module) : TypesM IR.Module := do
  let r ← elaborateTypes { module := m } m.types
  let overrideTypes ← m.overrides.mapM fun o => r.type o.type
  let r := { r with overrides := m.overrides.length }
  let constants ← elaborateConstants r m.expressions
  let r := { r with constants := m.expressions.length }
  let overrideInits ← m.overrides.mapM fun o =>
    o.init.mapM fun init => r.constantExpression init
  let (globals, handles) ← elaborateGlobals r 0 m.globals
  let r := { r with globals := handles.toArray }
  let functions ← m.functions.zipIdx.mapM fun (f, index) =>
    f.elaborate { r with functions := index } constants
  let r := { r with functions := m.functions.length }
  let entryPoints ← m.entryPoints.mapM (EntryPoint.elaborate r constants)
  return {
    overrides := .ofList <| (m.overrides.zip (overrideTypes.zip overrideInits)).map
      fun (o, type, init) => o.elaborate type init
    globals := .ofList globals
    constants
    functions := .ofList functions
    entryPoints }

/-- The program that a surface module stands for. -/
def Module.elaborate (m : Module) : Except Error IR.Module :=
  match m.elaborateParts {} with
  | .ok parts types => .ok { parts with types }
  | .error error _ => .error error

end Shader.Surface
