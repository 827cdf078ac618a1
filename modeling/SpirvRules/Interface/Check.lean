import SpirvRules.Collection
import SpirvRules.Interface.Basic

/-!
# Checking interfaces

The rules on the interface of an entry point, in the order they are looked at.
-/

set_option autoImplicit false

namespace SpirvRules

/-!
### Built-ins of an interface

Built-ins come on variables or on the members of a struct; such a struct is a block, and there is at
most one of it among the inputs and one among the outputs. In each direction a built-in comes once.
-/

namespace BuiltIns

variable (cx : Context) (vs : List InterfaceVar)

def builtInStruct? (v : InterfaceVar) : Option Id :=
  if v.isInOrOut then (v.struct? cx).filter fun s => cx.table.anyMemberHas s .builtIn else none

/-- Goes through the variables with the storage classes that have had their struct of built-ins. -/
def blocksFault? (function : Id) : List StorageClass → List InterfaceVar → Option InterfaceFault
  | _, [] => none
  | seen, v :: rest =>
    match builtInStruct? cx v with
    | none => blocksFault? function seen rest
    | some s =>
      if !cx.table.has s .block then some (.builtInsOutsideBlock s)
      else if v.storage ∈ seen then some (.secondBuiltInBlock v.id function)
      else blocksFault? function (v.storage :: seen) rest

def provided (v : InterfaceVar) : List BuiltIn :=
  let members := match v.struct? cx with
    | some s => (cx.table.decorations s).filter (·.member.isSome)
    | none => []
  ((cx.table.objectDecorations v.id ++ members).filter (·.kind = .builtIn)).filterMap
    Decoration.builtIn?

def providedIn (d : Direction) : List (Id × BuiltIn) :=
  (vs.filter (·.storage = d.storage)).flatMap fun v => (provided cx v).map (v.id, ·)

def repeatFault? (d : Direction) : Option InterfaceFault :=
  (firstRepeat? (·.2) (providedIn cx vs d)).map fun (id, b) => .repeatedBuiltIn id b d

def fault? (function : Id) : Option InterfaceFault :=
  blocksFault? cx function [] vs <|> repeatFault? cx vs .input <|> repeatFault? cx vs .output

end BuiltIns

/-!
### Interpolation

How a value is interpolated between vertices is said between the stages: not on what goes into the
vertex stage, nor on what comes out of the fragment stage. A fragment input that cannot be
interpolated, an integer or a 64-bit float, is declared flat. Values per vertex are arrays in the
fragment stage.
-/

namespace Interpolation

variable (cx : Context) (e : EntryPoint) (v : InterfaceVar)

def kinds : List DecorationKind := [.flat, .noPerspective, .sample, .centroid]

def outerSide? : Option Direction :=
  match e.model, v.storage with
  | .fragment, .output => some .output
  | .vertex, .input => some .input
  | _, _ => none

def outerFault? : Option InterfaceFault := do
  let side ← outerSide? e v
  let d ← (cx.table.decorations v.id).find? (·.kind ∈ kinds)
  return .interpolated v.id e.function d.kind side

def cannotBlend (s : NumericShape) : Bool := !s.floating || s.width = 64

def isDiscrete (type : Id) : Bool :=
  (cx.index.numericShape? (cx.index.stripArrays type)).any cannotBlend

def memberNotFlat (struct : Id) : Bool :=
  let view := cx.index.type? struct
  (List.range ((view.map TypeView.memberCount).getD 0)).any fun i =>
    (view.bind (·.member? i)).any (isDiscrete cx) && !cx.table.memberHas struct i .flat

def needsFlat : Bool :=
  if cx.table.has v.id .flat ∨ cx.table.has v.id .builtIn then false
  else
    match v.struct? cx with
    | some s => !cx.table.anyMemberHas s .builtIn && memberNotFlat cx s
    | none => isDiscrete cx v.pointee

def flatFault? : Option InterfaceFault :=
  if e.model = .fragment ∧ v.storage = .input ∧ e.function ∈ cx.index.staticUsers v.id ∧
      needsFlat cx v then
    some (.notFlat v.id e.function)
  else none

def fault? : Option InterfaceFault := outerFault? cx e v <|> flatFault? cx e v

def perVertexFault? : Option InterfaceFault :=
  if !cx.table.has v.id .perVertexKHR then none
  else if e.model ≠ .fragment then some (.perVertexStage v.id)
  else if (cx.index.type? v.pointee).any TypeView.isArray then none
  else some (.perVertexArray v.id)

end Interpolation

/-!
### Memory an entry point shares

Under Vulkan an entry point uses one push constant variable at most, listed or not. Blocks in
workgroup memory need a capability; with it either all workgroup variables listed are blocks or none
is, and several have to be declared to alias.
-/

namespace Shared

variable (cx : Context) (vs : List InterfaceVar)

def pushConstants (function : Id) : List Id :=
  (cx.index.module.globals.filterMap Instruction.result).filter fun id =>
    cx.index.variableClass? id = some .pushConstant ∧ function ∈ cx.index.staticUsers id

def pushConstantFault? (function : Id) : Option InterfaceFault :=
  if 1 < (pushConstants cx function).length then some (.pushConstants function) else none

def workgroup : List InterfaceVar := vs.filter (·.storage = .workgroup)

def workgroupBlocks : List Id :=
  (((workgroup vs).filter fun v => (v.struct? cx).any (cx.table.has · .block)).map
    InterfaceVar.id).eraseDups

def workgroupFault? (function : Id) : Option InterfaceFault :=
  match workgroupBlocks cx vs with
  | [] => none
  | first :: others =>
    if !cx.index.module.declares .workgroupMemoryExplicitLayoutKHR then
      some (.workgroupCapability first)
    else if (first :: others).length ≠ (workgroup vs).length then some (.workgroupMixed function)
    else if others ≠ [] ∧ !(first :: others).all (cx.table.has · .aliased) then
      some (.workgroupAliased function)
    else none

end Shared

/-! ### Checking interfaces -/

namespace Interface

variable (cx : Context) (e : EntryPoint) (vs : List InterfaceVar)

def vulkanOnly (f : Option InterfaceFault) : Option InterfaceFault :=
  if cx.isVulkan then f else none

def fault? : Option InterfaceFault :=
  BuiltIns.fault? cx vs e.function <|>
    vulkanOnly cx (Shared.pushConstantFault? cx e.function) <|>
    Shared.workgroupFault? cx vs e.function <|>
    vulkanOnly cx (vs.findSome? (Interpolation.fault? cx e)) <|>
    vs.findSome? (Interpolation.perVertexFault? cx e)

def checkEntryPoint : Except InterfaceFault Unit := do
  let vs ← Listing.listedVars cx e
  match fault? cx e vs with
  | some f => throw f
  | none => return

def check : Except InterfaceFault Unit := cx.index.entryPoints.forM (checkEntryPoint cx)

end Interface

end SpirvRules
