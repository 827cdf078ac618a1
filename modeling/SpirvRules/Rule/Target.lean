import SpirvRules.Rule.Object

/-!
# Targets

Each decoration has to suit what it decorates: the kind of instruction, the memory it declares, the
version of the module, and under Vulkan the storage class. A decoration group carries decorations
only for its targets, and is not looked at itself.
-/

set_option autoImplicit false

namespace SpirvRules

inductive Wanted where
  | specConstant | struct | arrayOrPointer | constant | variable | memoryObject | pointer
  deriving DecidableEq

def Wanted.text : Wanted → String
  | .specConstant => "must be a scalar specialization constant"
  | .struct => "must be a structure type"
  | .arrayOrPointer => "must be an array or pointer type"
  | .constant => "must be a constant for WorkgroupSize"
  | .variable => "must be a variable"
  | .memoryObject => "must be a memory object declaration"
  | .pointer => "must be a pointer type"

inductive TargetCause where
  | notInVulkan (kind : DecorationKind)
  | wanted (kind : DecorationKind) (what : Wanted)
  | builtIn
  | location
  | storage (kind : DecorationKind) (rule : Vuid)
  | notStruct (kind : DecorationKind)
  | bufferBlockVersion
  | access (kind : DecorationKind) (storage : StorageClass) (privateToo : Bool)
  | wrapVersion (kind : DecorationKind)
  | wrapTarget (kind : DecorationKind) (op : Opcode)
  | linkage (name : String)
  | component (fault : ComponentFault)
  | rounding (fault : RoundingFault)
  | uniformity (fault : UniformityFault)
  deriving DecidableEq

structure TargetFault where
  target : Id
  cause : TargetCause
  deriving DecidableEq

def TargetCause.report? (id : Id) : TargetCause → Option Report
  | .notInVulkan kind =>
    some <| .ids (s!"OpDecorate decoration '{kind.name}' is not valid for the Vulkan execution " ++
      "environment.") id (some ⟨"GLSLShared", 4669⟩)
  | .wanted kind what =>
    some <| .ids s!"{kind.name} decoration on target <id> {id} {what.text}" id
  | .builtIn =>
    some <| .ids "BuiltIns can only target variables, structure members or constants" id
  | .location =>
    some <| .ids ("Location decoration can only be applied to a variable or member of a " ++
      "structure type") id
  | .storage kind rule =>
    some <| .ids s!"{kind.name} decoration must not be applied to this storage class" id
      (some rule)
  | .notStruct kind => some <| .ids s!"{kind.name} decoration on a non-struct type." id
  | .bufferBlockVersion =>
    some <| .version "BufferBlock decoration requires SPIR-V version 1.3 or earlier" (some id)
  | .access kind c privateToo =>
    let others := if privateToo then
      "storage buffer, or variable in Private or Function storage class" else "or storage buffer"
    some <| .ids (s!"Target of {kind.name} decoration is invalid: must point to a storage " ++
      s!"image, uniform block, {others}. Found a pointer in the {c.name} storage class.") id
  | .wrapVersion kind =>
    some <| .version (s!"{kind.name} decoration requires SPIR-V version 1.4 or later, or the " ++
      "SPV_KHR_no_integer_wrap_decoration extension") (some id)
  | .wrapTarget kind op =>
    some <| .ids s!"{kind.name} decoration may not be applied to {op.spelling}" id
  | .linkage name =>
    some <| .binary (s!"The LinkageAttributes Decoration (Linkage name: {name}) cannot be " ++
      s!"applied to function id {id} because it is targeted by an OpEntryPoint instruction.")
      (some id)
  | .component f => f.report? id
  | .rounding f => some (f.report id)
  | .uniformity f => some (f.report id)

def TargetFault.report? (f : TargetFault) : Option Report := f.cause.report? f.target

namespace Target

variable (cx : Context) (id : Id) (d : Decoration)

def memoryFault? : Option TargetCause :=
  if !cx.isMemoryObject id then some (.wanted d.kind .memoryObject)
  else if (cx.index.pointer? id).isNone then some (.wanted d.kind .pointer)
  else none

/-- In shaders the size of a workgroup is a constant; every other built-in is a variable. -/
def builtInFault? (op : Opcode) : Option TargetCause :=
  if op ≠ .opVariable ∧ !op.isConstant then some .builtIn
  else if cx.index.module.declares .shader ∧ d.builtIn? = some .workgroupSize then
    if op.isConstant then none else some (.wanted d.kind .constant)
  else if op ≠ .opVariable then some (.wanted d.kind .variable)
  else none

def instructionFault? (op : Opcode) : Option TargetCause :=
  let want (fits : Bool) (what : Wanted) : Option TargetCause :=
    if fits then none else some (.wanted d.kind what)
  match d.kind with
  | .specId =>
    want (op ∈ [.opSpecConstant, .opSpecConstantTrue, .opSpecConstantFalse]) .specConstant
  | .glslShared | .glslPacked | .cPacked => want (op = .opTypeStruct) .struct
  | .arrayStride =>
    want (op ∈ [.opTypeArray, .opTypeRuntimeArray, .opTypePointer]) .arrayOrPointer
  | .builtIn => builtInFault? cx d op
  | .noPerspective | .flat | .patch | .centroid | .sample | .restrict | .aliased | .volatile
  | .coherent | .nonWritable | .nonReadable | .xfbBuffer | .xfbStride | .component | .stream
  | .restrictPointer | .aliasedPointer => memoryFault? cx id d
  | .location => if cx.isVariable id then none else some .location
  | .invariant | .index | .binding | .descriptorSet | .inputAttachmentIndex =>
    want (cx.isVariable id) .variable
  | _ => none

def locationStorage : List StorageClass :=
  [.input, .output, .rayPayloadNV, .incomingRayPayloadNV, .hitAttributeNV, .callableDataNV,
   .incomingCallableDataNV, .shaderRecordBufferNV, .hitObjectAttributeNV]

def interfaceStorage : List StorageClass := [.input, .output]

/-- The storage classes Vulkan leaves to a kind, and the rule that says so. -/
def storageRule? : DecorationKind → Option (List StorageClass × Vuid)
  | .location | .component => some (locationStorage, ⟨"Location", 6672⟩)
  | .index => some (interfaceStorage, ⟨"Location", 6672⟩)
  | .flat | .noPerspective | .centroid | .sample => some (interfaceStorage, ⟨"Flat", 4670⟩)
  | .inputAttachmentIndex => some ([.uniformConstant], ⟨"InputAttachmentIndex", 6678⟩)
  | .perVertexKHR => some ([.input], ⟨"PerVertexKHR", 6777⟩)
  | _ => none

def storageFault? : Option TargetCause :=
  match storageRule? d.kind, cx.index.variableClass? id with
  | some (allowed, rule), some c =>
    if cx.isVulkan ∧ c ∉ allowed then some (.storage d.kind rule) else none
  | _, _ => none

def blockFault? : Option TargetCause :=
  if !(cx.index.type? id).any TypeView.isStruct then some (.notStruct d.kind)
  else if d.kind = .bufferBlock ∧ cx.index.version.atLeast .v1_4 then some .bufferBlockVersion
  else none

def componentFault? (type : Id) : Option TargetCause :=
  if !cx.isVulkan then none
  else
    match cx.index.numericShape? (cx.index.stripArrays type) with
    | none => some (.component .notNumeric)
    | some s => (s.componentFault? (d.literal?.getD 0)).map .component

/-- Read-only and write-only access is a matter of buffers and images, and from 1.4 on of private
memory. -/
def accessFault? : Option TargetCause :=
  match cx.index.pointer? id with
  | none => none
  | some (c, pointee) =>
    let privateToo := cx.index.version.atLeast .v1_4
    if privateToo ∧ (c = .function ∨ c = .privateStorage) then none
    else if cx.pointsToUniformBlock c pointee ∨ cx.pointsToStorageBuffer c pointee ∨
        cx.pointsToStorageImage c pointee then none
    else some (.access d.kind c privateToo)

def wrapExtension : String := "SPV_KHR_no_integer_wrap_decoration"

/-- Negation overflows only as signed. -/
def mayWrap (kind : DecorationKind) (op : Opcode) : Bool :=
  op ∈ [.opIAdd, .opISub, .opIMul, .opShiftLeftLogical, .opExtInst] ||
    kind = .noSignedWrap && op = .opSNegate

def wrapFault? (op : Opcode) : Option TargetCause :=
  if cx.index.version.before .v1_4 ∧ !cx.index.module.hasExtension wrapExtension then
    some (.wrapVersion d.kind)
  else if mayWrap d.kind op then none
  else some (.wrapTarget d.kind op)

def linkageFault? (op : Opcode) : Option TargetCause :=
  if op = .opFunction ∧ cx.index.entryPoints.any (·.function = id) then
    some (.linkage (d.string?.getD ""))
  else none

def kindFault? (op : Opcode) : Option TargetCause :=
  match d.kind with
  | .block | .bufferBlock => blockFault? cx id d
  | .component => (cx.index.pointer? id).bind fun (_, pointee) => componentFault? cx d pointee
  | .nonWritable | .nonReadable => accessFault? cx id d
  | .fpRoundingMode => (Rounding.fault? cx id d).map .rounding
  | .noSignedWrap | .noUnsignedWrap => wrapFault? cx d op
  | .uniform | .uniformId => (Uniformity.fault? cx id d).map .uniformity
  | .linkageAttributes => linkageFault? cx id d op
  | _ => none

def vulkanFault? : Option TargetCause :=
  if cx.isVulkan ∧ (d.kind = .glslShared ∨ d.kind = .glslPacked) then some (.notInVulkan d.kind)
  else none

def objectFault? (op : Opcode) : Option TargetCause :=
  vulkanFault? cx d <|> instructionFault? cx id d op <|> storageFault? cx id d <|>
    kindFault? cx id d op

def memberFault? (member : Nat) : Option TargetCause :=
  if d.kind = .component then
    ((cx.index.type? id).bind (·.member? member)).bind (componentFault? cx d)
  else none

/-- What is wrong with a decoration where it is. -/
def fault? : Option TargetCause :=
  match d.member, cx.index.op? id with
  | _, none | _, some .opDecorationGroup => none
  | some member, _ => memberFault? cx id d member
  | none, some op => objectFault? cx id d op

def check : Except TargetFault Unit :=
  cx.table.targets.forM fun id => (cx.table.decorations id).forM fun d =>
    match fault? cx id d with
    | some cause => .error ⟨id, cause⟩
    | none => .ok ()

end Target

end SpirvRules
