import Shader.Emit.Function

/-!
# Modules

Overrides and global variables are declared first; if one fails, so does the module.  Then every
function is tried on its own, and the module fails if some of them do.
-/

namespace Shader.Emit

open Assembly (Id)

/-- What every module starts with. -/
def declarePreamble : Assembly.DeclareM Unit := do
  Assembly.requireCapability .shader
  Assembly.pushTo .memoryModel
    ⟨.memoryModel, [.word Assembly.logicalAddressing, .word Assembly.shadingMemoryModel]⟩

/-- Everything outside the functions, and the ids that helper functions are called by. -/
def declareModule (env : Env) : EmitM Unit := do
  declarePreamble
  declareOverrides env
  declareGlobals env
  let ids ← env.module.functions.toList.mapM fun _ => Assembly.freshId
  modify fun p => { p with functions := ids.toArray }

/-- Tries to emit a function; if that fails, its draft is dropped and the fault is kept. -/
def attempt (name : String) (act : EmitM Unit) (p : Progress) : Progress :=
  match act p with
  | .ok () p => p
  | .error fault p =>
    { p with
      assembly := { p.assembly with draft := none }
      faults := p.faults.push ⟨name, fault⟩ }

def helperName (h : Handle .function) (f : IR.Function) : String :=
  f.name.getD s!"function{h.index}"

/-- Tries to emit a helper function. -/
def attemptHelper (env : Env) (p : Progress) (entry : Handle .function × IR.Function) : Progress :=
  let (h, f) := entry
  let name := helperName h f
  attempt name (do emitHelper env (← functionId h) name f) p

def attemptEntryPoint (env : Env) (p : Progress) (entry : IR.EntryPoint) : Progress :=
  attempt entry.name (emitEntryPoint env entry) p

/-- Tries all functions, the helper functions first. -/
def attemptFunctions (env : Env) (p : Progress) : Progress :=
  env.module.entryPoints.foldl (attemptEntryPoint env)
    (env.module.functions.entries.foldl (attemptHelper env) p)

/-- The module of the target format that a program becomes in an environment. -/
def assembleIn (env : Env) : Except Failure Assembly.Module :=
  match declareModule env (.initial env) with
  | .error fault _ => .error (.declaration fault)
  | .ok () p =>
    let p := attemptFunctions env p
    if p.faults.isEmpty then .ok p.assembly else .error (.functions p.faults.toList)

/-- The module of the target format that a program becomes. -/
def assemble (m : IR.Module) (options : Options) : Except Failure Assembly.Module :=
  assembleIn (.of m options)

/-- The words of the module that a program becomes. -/
def words (m : IR.Module) (options : Options) : Except Failure (List UInt32) := do
  let assembly ← assemble m options
  return assembly.encode options.version options.generator

end Shader.Emit
