import Shader.Emit.Global
import Shader.Emit.Interface
import Shader.Emit.Statement

/-!
# Functions and entry points

A helper function takes its arguments as parameters and returns its result.  An entry point takes
and returns nothing: its arguments are loaded from input variables and its result is stored to
output variables.
-/

namespace Shader.Emit

open Assembly (Id Instruction Operand)
open IR (Expression)

/-! ### Bodies -/

/-- The initial value of a local variable, which has to be a constant. -/
def localInit (env : FunctionEnv) (v : IR.LocalVariable) : BodyM (Option Id) := do
  match v.init with
  | none => return none
  | some init =>
    let id ← expression env init
    let assembly := (← get).progress.assembly
    unless assembly.isConstant id || assembly.isSpecialization id do
      throw (.unsupported (.localInit v.name))
    return some id

def declareLocal (env : FunctionEnv) (v : IR.LocalVariable) : BodyM Unit := do
  let type ← typeId env.toEnv v.type
  let pointer ← Assembly.pointerType .function type
  let init ← localInit env v
  let id ← Assembly.freshId
  Assembly.addVariable (.variable pointer id .function init)
  Assembly.nameTarget id v.name
  modify fun body => { body with locals := body.locals.push id }

/-- Whether a function mentions a global variable. -/
def mentions (f : IR.Function) (global : Nat) : Bool :=
  f.expressions.toList.any fun e => e == .globalVariable ⟨global⟩

/-- Pointers to the contents of the wrapped buffers that a function mentions, for the global
variables from `index` on. -/
def contentsPointers (f : IR.Function) (index : Nat) : List GlobalPlace → BodyM (List (Option Id))
  | [] => return []
  | place :: rest => do
    let pointer ← match place.contents with
      | some type =>
        if mentions f index then
          let zero ← Assembly.indexConstant 0
          some <$> emitResult .accessChain type (Operand.ids [place.id, zero])
        else
          pure none
      | none => pure none
    return pointer :: (← contentsPointers f (index + 1) rest)

/-- Opens the first block, with the local variables and the pointers that lead it. -/
def beginBody (env : FunctionEnv) : BodyM Unit := do
  let label ← Assembly.freshId
  beginBlock label
  env.function.locals.toList.forM (declareLocal env)
  let globals := (← get).progress.globals
  let contents ← contentsPointers env.function 0 globals.toList
  modify fun body => { body with contents := contents.toArray }

/-- What a function does when control reaches its end: it returns nothing, or a null. -/
def fallOff (env : FunctionEnv) : BodyM Unit := do
  if (← openLabel?).isSome then
    match env.result with
    | none => terminate .ret
    | some type =>
      let null ← Assembly.nullConstant type
      terminate (.returnValue null)

/-- Emits the statements and closes the function. -/
def finishBody (env : FunctionEnv) : BodyM Unit := do
  statements env env.function.body
  fallOff env
  let depth := (← get).flow.depth
  if depth ≠ 0 then
    throw (.inconsistent (.framesLeftOpen depth env.name))
  Assembly.closeFunction

/-! ### Helper functions -/

/-- The type of the result of a function. -/
def resultType (env : Env) (f : IR.Function) : EmitM (Option Id) := do
  match f.result with
  | some result => return some (← typeId env result.type)
  | none => return none

/-- Issues the ids of parameters. -/
def declareParameter (argument : IR.Argument) (type : Id) :
    Assembly.DeclareM Assembly.Parameter := do
  let id ← Assembly.freshId
  Assembly.nameTarget id argument.name
  return ⟨type, id⟩

/-- Emits a helper function under the id set apart for it. -/
def emitHelper (env : Env) (id : Id) (name : String) (f : IR.Function) : EmitM Unit := do
  let result ← resultType env f
  let returnType ← match result with
    | some type => pure type
    | none => Assembly.voidType
  let types ← f.arguments.mapM fun argument => typeId env argument.type
  let type ← Assembly.typeId (.function returnType types)
  let parameters ← (f.arguments.zip types).mapM fun (argument, type) =>
    declareParameter argument type
  Assembly.nameTarget id name
  Assembly.openFunction { id, typeId := type, returnType, parameters := parameters.toArray }
  let functionEnv : FunctionEnv :=
    { toEnv := env.within f, function := f, name, result, outputs := [], deferred := deferred f }
  inBody f (parameters.map Assembly.Parameter.id).toArray do
    beginBody functionEnv
    finishBody functionEnv

/-! ### Entry points -/

/-- The variables of an argument of an entry point. -/
structure EntryArgument where
  type : Handle .type
  inputs : List InterfaceVariable

/-- Loads a member of an argument from its variable. -/
def loadMember (v : InterfaceVariable) : BodyM Id := do
  match v.member with
  | none => throw (.inconsistent .inputWithoutMember)
  | some (_, type) =>
    let pointer ← interfacePointer v
    emitResult .load type [.id pointer]

/-- Loads an argument: from its one variable, or member by member. -/
def loadArgument (env : Env) (argument : EntryArgument) : BodyM Unit := do
  let type ← typeId env argument.type
  let value ← match argument.inputs with
    | [⟨id, none, element⟩] => do
      let pointer ← interfacePointer ⟨id, none, element⟩
      emitResult .load type [.id pointer]
    | inputs => do
      let parts ← inputs.mapM loadMember
      emitResult .compositeConstruct type (Operand.ids parts)
  modify fun body => { body with arguments := body.arguments.push value }

def executionMode (id : Id) (mode : Assembly.ExecutionMode) (operands : List UInt32) :
    Instruction :=
  ⟨.executionMode, .id id :: .word mode.word :: Operand.words operands⟩

def executionModel : IR.Stage → Assembly.ExecutionModel
  | .vertex => .vertex
  | .fragment => .fragment
  | .compute => .compute

/-- How an entry point executes, by its stage. -/
def executionModes (m : IR.Module) (id : Id) (entry : IR.EntryPoint) : List Instruction :=
  match entry.stage with
  | .vertex => []
  | .fragment =>
    executionMode id .originUpperLeft [] ::
      if entry.function.result.any (writesDepth m) then [executionMode id .depthReplacing []]
      else []
  | .compute =>
    let (x, y, z) := entry.workgroupSize
    [executionMode id .localSize [x, y, z]]

/-- Declares the variables of the arguments of an entry point. -/
def entryArguments (env : Env) (entry : IR.EntryPoint) : EmitM (List EntryArgument) :=
  entry.function.arguments.mapM fun argument => do
    let inputs ← interfaceVariables env entry.stage .input argument.type argument.binding
      argument.name
    return ⟨argument.type, inputs⟩

/-- Declares the variables of the result of an entry point. -/
def entryOutputs (env : Env) (entry : IR.EntryPoint) : EmitM (List InterfaceVariable) := do
  match entry.function.result with
  | none => return []
  | some result => interfaceVariables env entry.stage .output result.type result.binding none

/-- Emits an entry point. -/
def emitEntryPoint (env : Env) (entry : IR.EntryPoint) : EmitM Unit := do
  entry.validate
  let void ← Assembly.voidType
  let type ← Assembly.typeId (.function void [])
  let id ← Assembly.freshId
  Assembly.nameTarget id entry.name
  let arguments ← entryArguments env entry
  let outputs ← entryOutputs env entry
  let globals := (← get).globals.toList.map GlobalPlace.id
  let interface :=
    (arguments.flatMap EntryArgument.inputs ++ outputs).map InterfaceVariable.id ++
      if env.options.listsGlobals then globals else []
  let functionEnv : FunctionEnv :=
    { toEnv := env.within entry.function, function := entry.function, name := entry.name,
      result := none, outputs, deferred := deferred entry.function }
  Assembly.openFunction { id, typeId := type, returnType := void }
  inBody entry.function #[] do
    beginBody functionEnv
    arguments.forM (loadArgument functionEnv.toEnv)
    finishBody functionEnv
  Assembly.pushTo .entryPoints
    ⟨.entryPoint, .word (executionModel entry.stage).word :: .id id :: .text entry.name ::
      Operand.ids interface⟩
  (executionModes env.module id entry).forM fun mode => Assembly.pushTo .executionModes mode

end Shader.Emit
