import SpirvRules.Collection
import SpirvRules.Rule.Basic

/-!
# Interfaces of entry points

An entry point lists the variables it takes part in. This module has the variables as rules see
them, and what can be wrong with an interface.
-/

set_option autoImplicit false

namespace SpirvRules

structure InterfaceVar where
  id : Id
  storage : StorageClass
  /-- The type it points to. -/
  pointee : Id
  deriving DecidableEq

inductive Direction where
  | input | output
  deriving DecidableEq

namespace Direction

def storage : Direction → StorageClass
  | .input => .input
  | .output => .output

def text : Direction → String
  | .input => "input"
  | .output => "output"

end Direction

inductive InterfaceFault where
  | repeated (id : Id) (name : Option String)
  | undefined (id function : Id)
  | notVariable (id : Id) (op : Opcode)
  | malformed (id : Id)
  | neitherInNorOut (id : Id) (storage : StorageClass) (function : Id)
  | notGlobal (id : Id)
  | storage (id : Id) (storage : StorageClass) (model : ExecutionModel) (function : Id)
  | builtInsOutsideBlock (struct : Id)
  | secondBuiltInBlock (id function : Id)
  | repeatedBuiltIn (id : Id) (b : BuiltIn) (direction : Direction)
  | pushConstants (function : Id)
  | workgroupCapability (id : Id)
  | workgroupMixed (function : Id)
  | workgroupAliased (function : Id)
  | interpolated (id function : Id) (kind : DecorationKind) (direction : Direction)
  | notFlat (id function : Id)
  | perVertexStage (id : Id)
  | perVertexArray (id : Id)
  deriving DecidableEq

namespace InterfaceFault

def named (id : Id) : Option String → String
  | some name => s!"%{id}({Text.quote name})"
  | none => s!"%{id}"

/-- The stage at whose outer side interpolation has no place. -/
def outerStage : Direction → String
  | .input => "Vertex"
  | .output => "Fragment"

def report : InterfaceFault → Report
  | .repeated id name => .ids s!"Non-unique OpEntryPoint interface {named id name} is disallowed" id
  | .undefined id f => .binary s!"OpEntryPoint interface id {id} is not defined" (some f)
  | .notVariable id op =>
    .ids s!"Interfaces passed to OpEntryPoint must be variables. Found {op.spelling}." id
  | .malformed id =>
    .binary s!"OpVariable {id} is missing its storage class or pointer type" (some id)
  | .neitherInNorOut id c f =>
    .ids ("OpEntryPoint interfaces must be OpVariables with Storage Class of Input(1) or " ++
      s!"Output(3). Found Storage Class {c.value} for Entry Point id {f}.") id
  | .notGlobal id => .ids "OpEntryPoint interfaces should only list global variables" id
  | .storage id c model f =>
    .ids (s!"{c.name} storage class is not allowed in the interface of a {model.name} " ++
      s!"entry point. Entry Point id {f} lists variable id {id}.") id
  | .builtInsOutsideBlock struct =>
    .ids ("Interface struct has no Block decoration but has BuiltIn members. " ++
      "Location decorations must be used on each member of OpVariable with a " ++
      "structure type that is a block not decorated with Location.") struct
      (some ⟨"Location", 4919⟩)
  | .secondBuiltInBlock id f =>
    .binary ("There must be at most one object per Storage Class that can contain a structure " ++
      "type containing members decorated with BuiltIn, consumed per entry-point. Entry " ++
      s!"Point id {f} does not meet this requirement.") (some id)
  | .repeatedBuiltIn id b direction =>
    .ids (s!"OpEntryPoint contains duplicate {direction.text} variables with " ++
      s!"{b.name} builtin") id
      (some ⟨"OpEntryPoint", match direction with | .input => 9658 | .output => 9659⟩)
  | .pushConstants f =>
    .ids (s!"Entry point id '{f}' uses more than one PushConstant interface.\n" ++
      "From Vulkan spec:\n" ++
      "There must be no more than one push constant block statically used per shader " ++
      "entry point.") f (some ⟨"OpEntryPoint", 6674⟩)
  | .workgroupCapability id =>
    .binary ("Workgroup Storage Class variables can't be decorated with Block unless declaring " ++
      "the WorkgroupMemoryExplicitLayoutKHR capability.") (some id)
  | .workgroupMixed f =>
    .binary ("When declaring WorkgroupMemoryExplicitLayoutKHR, either all or none of the " ++
      "Workgroup Storage Class variables in the entry point interface must point to struct " ++
      s!"types decorated with Block (or an array of them). Entry point id {f} does not meet " ++
      "this requirement.") (some f)
  | .workgroupAliased f =>
    .binary ("When declaring WorkgroupMemoryExplicitLayoutKHR, if more than one Workgroup " ++
      "Storage Class variable in the entry point interface point to a type decorated with " ++
      "Block, all of them must be decorated with Aliased (or an array of them). Entry point id " ++
      s!"{f} does not meet this requirement.") (some f)
  | .interpolated id f kind direction =>
    .ids (s!"{kind.name} decoration is not allowed on {direction.storage.name} variables of a " ++
      s!"{outerStage direction} entry point. Entry Point id {f}, variable id {id}.") id
      (some ⟨"Flat", match direction with | .output => 6201 | .input => 6202⟩)
  | .notFlat id f =>
    .ids (s!"Fragment OpEntryPoint operand {id} with Input interfaces with integer or float " ++
      s!"type must have a Flat decoration for Entry Point id {f}.") id (some ⟨"Flat", 4744⟩)
  | .perVertexStage id =>
    .ids "PerVertexKHR can only be applied to Fragment Execution Models" id
      (some ⟨"PerVertexKHR", 6777⟩)
  | .perVertexArray id =>
    .ids "PerVertexKHR must be declared as arrays" id (some ⟨"Input", 6778⟩)

end InterfaceFault

namespace InterfaceVar

variable (cx : Context) (v : InterfaceVar)

def struct? : Option Id :=
  let id := cx.index.stripArrays v.pointee
  if (cx.index.type? id).any TypeView.isStruct then some id else none

def isInOrOut : Bool := v.storage = .input || v.storage = .output

end InterfaceVar

/-!
### What an interface lists

Before version 1.4 an interface lists inputs and outputs. From then on it lists every global
variable used, each once, and some storage classes only in some stages.
-/

def ExecutionModel.isRayTracing : ExecutionModel → Bool
  | .rayGenerationNV | .intersectionNV | .anyHitNV | .closestHitNV | .missNV | .callableNV => true
  | _ => false

def StorageClass.allowedIn (m : ExecutionModel) : StorageClass → Bool
  | .rayPayloadNV | .incomingRayPayloadNV | .hitAttributeNV | .callableDataNV
  | .incomingCallableDataNV | .shaderRecordBufferNV => m.isRayTracing
  | .hitObjectAttributeNV => m ∈ [.rayGenerationNV, .closestHitNV, .missNV]
  | .taskPayloadWorkgroupEXT => m ∈ [.taskEXT, .meshEXT]
  | .workgroup => m ∈ [.glCompute, .kernel, .taskNV, .meshNV, .taskEXT, .meshEXT]
  | _ => true

namespace Listing

variable (cx : Context) (e : EntryPoint)

/-- From 1.4 on interfaces list all globals. -/
def listsGlobals : Bool := cx.index.version.atLeast .v1_4

def checkUnique : Except InterfaceFault Unit :=
  match firstRepeat? (fun id : Id => id) e.interface with
  | some id => if listsGlobals cx then .error (.repeated id (cx.index.name? id)) else .ok ()
  | none => .ok ()

def stated (l : Located) (id : Id) : Except InterfaceFault InterfaceVar :=
  if l.inst.op ≠ .opVariable then .error (.notVariable id l.inst.op)
  else
    match cx.index.variableClass? id, cx.index.pointer? id with
    | some c, some (_, pointee) => .ok ⟨id, c, pointee⟩
    | _, _ => .error (.malformed id)

/-- What is wrong with listing a variable, given the function its definition stands in. -/
def listingFault? (within : Option Id) (v : InterfaceVar) : Option InterfaceFault :=
  if listsGlobals cx then
    if within.isSome ∨ v.storage = .function then some (.notGlobal v.id)
    else if v.storage.allowedIn e.model then none
    else some (.storage v.id v.storage e.model e.function)
  else if v.isInOrOut then none
  else some (.neitherInNorOut v.id v.storage e.function)

def listed (id : Id) : Except InterfaceFault InterfaceVar :=
  match cx.index.def? id with
  | none => .error (.undefined id e.function)
  | some l => do
    let v ← stated cx l id
    match listingFault? cx e l.function v with
    | some f => .error f
    | none => .ok v

def listedVars : Except InterfaceFault (List InterfaceVar) := do
  checkUnique cx e
  e.interface.mapM (listed cx e)

end Listing

end SpirvRules
