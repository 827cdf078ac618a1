import SpirvRules.Decoration.Section
import SpirvRules.Interface.Basic
import SpirvRules.Interface.Check
import SpirvRules.Rule.Basic
import SpirvRules.Rule.Buffer
import SpirvRules.Rule.Target

/-!
# Validation

A module goes through its checks in a fixed order, and the first that fails decides. What is left of
a module that passes is its decoration table.
-/

set_option autoImplicit false

namespace SpirvRules

/-!
### Diagnostics

Why a module is refused: a cause for each stage that can refuse one. A diagnostic is the report of a
cause, less the rule of the Vulkan specification where the environment is another.
-/

structure VersionFault where
  stated : Version
  env : TargetEnv
  deriving DecidableEq

def VersionFault.report (f : VersionFault) : Report :=
  .version (s!"Invalid SPIR-V binary version {f.stated.text} for target environment " ++
    s!"{f.env.name} (at most {f.env.ceiling.text} is allowed)")

inductive Cause where
  | unreadable (reason : String)
  | version (fault : VersionFault)
  | index (fault : IndexFault)
  | table (fault : TableFault)
  | target (fault : TargetFault)
  | repetition (fault : RepetitionFault)
  | builtInStruct (fault : BuiltInStructFault)
  | buffer (fault : BufferFault)
  | interface (fault : InterfaceFault)
  deriving DecidableEq

/-- Nothing is reported of a sum that is no word: there the program ends. -/
def Cause.report? : Cause → Option Report
  | .unreadable reason => some <| .binary s!"failed to parse SPIR-V binary: {reason}"
  | .version f => some f.report
  | .index f => some f.report
  | .table f => some f.report
  | .target f => f.report?
  | .repetition f => some f.report
  | .builtInStruct f => some f.report
  | .buffer f => some f.report
  | .interface f => some f.report

namespace Report

/-- Only Vulkan goes by the rules of its specification. -/
def within (r : Report) (env : TargetEnv) : Report :=
  { r with vuid := if env.isVulkan then r.vuid else none }

def text (r : Report) : String :=
  match r.vuid with
  | some v => s!"[{v.text}] {r.message}"
  | none => r.message

end Report

/-! ### Validation -/

namespace Context

def checkTargets (cx : Context) : Except Cause Unit := (Target.check cx).mapError .target

def checkRepetition (cx : Context) : Except Cause Unit :=
  (Repetition.check cx.table).mapError .repetition

def checkBuiltInStructs (cx : Context) : Except Cause Unit :=
  (BuiltInStruct.check cx.index cx.table).mapError .builtInStruct

def checkBuffers (cx : Context) : Except Cause Unit := (Buffer.check cx).mapError .buffer

def checkInterfaces (cx : Context) : Except Cause Unit := (Interface.check cx).mapError .interface

/-- The rules on a module whose annotations are in order. -/
def check (cx : Context) : Except Cause Unit := do
  cx.checkTargets
  cx.checkRepetition
  cx.checkBuiltInStructs
  cx.checkBuffers
  cx.checkInterfaces

end Context

namespace Module

def checkVersion (m : Module) (env : TargetEnv) : Except Cause Unit :=
  if env.ceiling.before m.statedVersion then .error (.version ⟨m.statedVersion, env⟩) else .ok ()

def context (m : Module) (o : Options) : Except Cause Context := do
  let index ← (Index.ofModule m).mapError .index
  let table ← (Table.ofIndex index).mapError .table
  return ⟨index, table, o⟩

def validate (m : Module) (o : Options) : Except Cause Table := do
  m.checkVersion o.targetEnv
  let cx ← m.context o
  cx.check
  return cx.table

end Module

/-- Validates what a loader makes of a binary, and gives the module with its table. A loader that
makes nothing of it says why. -/
def Binary.validate {α : Type} (load : α → Except String Module) (binary : α) (o : Options) :
    Except Cause (Module × Table) := do
  let m ← (load binary).mapError .unreadable
  return (m, ← m.validate o)

end SpirvRules
