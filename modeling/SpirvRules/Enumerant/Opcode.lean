/-!
# Opcodes

The instructions the rules speak of each have a constructor; any other is kept under its name, since
a message may have to print it.
-/

set_option autoImplicit false

namespace SpirvRules

inductive Opcode where
  | opName | opLine | opNoLine | opExtension | opExtInstImport | opExtInst | opMemoryModel
  | opEntryPoint | opExecutionMode | opCapability | opTypeVoid | opTypeBool | opTypeInt
  | opTypeFloat | opTypeVector | opTypeMatrix | opTypeImage | opTypeSampler | opTypeSampledImage
  | opTypeArray | opTypeRuntimeArray | opTypeStruct | opTypeOpaque | opTypePointer
  | opTypeFunction | opTypeEvent | opTypeDeviceEvent | opTypeReserveId | opTypeQueue | opTypePipe
  | opTypeForwardPointer | opTypePipeStorage | opTypeNamedBarrier
  | opTypeAccelerationStructureKHR | opTypeRayQueryKHR | opConstantTrue | opConstantFalse
  | opConstant | opConstantComposite | opConstantNull | opSpecConstantTrue | opSpecConstantFalse
  | opSpecConstant | opSpecConstantComposite | opSpecConstantOp | opFunction
  | opFunctionParameter | opFunctionEnd | opFunctionCall | opVariable | opStore | opDecorate
  | opMemberDecorate | opDecorationGroup | opGroupDecorate | opGroupMemberDecorate | opDecorateId
  | opDecorateString | opMemberDecorateString | opFConvert | opSNegate | opIAdd | opISub | opIMul
  | opShiftLeftLogical | opLabel | opReturn
  | other (name : String)
  deriving DecidableEq

namespace Opcode

def known : List Opcode :=
  [.opName, .opLine, .opNoLine, .opExtension, .opExtInstImport, .opExtInst, .opMemoryModel,
   .opEntryPoint, .opExecutionMode, .opCapability, .opTypeVoid, .opTypeBool, .opTypeInt,
   .opTypeFloat, .opTypeVector, .opTypeMatrix, .opTypeImage, .opTypeSampler, .opTypeSampledImage,
   .opTypeArray, .opTypeRuntimeArray, .opTypeStruct, .opTypeOpaque, .opTypePointer,
   .opTypeFunction, .opTypeEvent, .opTypeDeviceEvent, .opTypeReserveId, .opTypeQueue,
   .opTypePipe, .opTypeForwardPointer, .opTypePipeStorage, .opTypeNamedBarrier,
   .opTypeAccelerationStructureKHR, .opTypeRayQueryKHR, .opConstantTrue, .opConstantFalse,
   .opConstant, .opConstantComposite, .opConstantNull, .opSpecConstantTrue, .opSpecConstantFalse,
   .opSpecConstant, .opSpecConstantComposite, .opSpecConstantOp, .opFunction,
   .opFunctionParameter, .opFunctionEnd, .opFunctionCall, .opVariable, .opStore, .opDecorate,
   .opMemberDecorate, .opDecorationGroup, .opGroupDecorate, .opGroupMemberDecorate,
   .opDecorateId, .opDecorateString, .opMemberDecorateString, .opFConvert, .opSNegate, .opIAdd,
   .opISub, .opIMul, .opShiftLeftLogical, .opLabel, .opReturn]

def name : Opcode → String
  | .opName => "Name"
  | .opLine => "Line"
  | .opNoLine => "NoLine"
  | .opExtension => "Extension"
  | .opExtInstImport => "ExtInstImport"
  | .opExtInst => "ExtInst"
  | .opMemoryModel => "MemoryModel"
  | .opEntryPoint => "EntryPoint"
  | .opExecutionMode => "ExecutionMode"
  | .opCapability => "Capability"
  | .opTypeVoid => "TypeVoid"
  | .opTypeBool => "TypeBool"
  | .opTypeInt => "TypeInt"
  | .opTypeFloat => "TypeFloat"
  | .opTypeVector => "TypeVector"
  | .opTypeMatrix => "TypeMatrix"
  | .opTypeImage => "TypeImage"
  | .opTypeSampler => "TypeSampler"
  | .opTypeSampledImage => "TypeSampledImage"
  | .opTypeArray => "TypeArray"
  | .opTypeRuntimeArray => "TypeRuntimeArray"
  | .opTypeStruct => "TypeStruct"
  | .opTypeOpaque => "TypeOpaque"
  | .opTypePointer => "TypePointer"
  | .opTypeFunction => "TypeFunction"
  | .opTypeEvent => "TypeEvent"
  | .opTypeDeviceEvent => "TypeDeviceEvent"
  | .opTypeReserveId => "TypeReserveId"
  | .opTypeQueue => "TypeQueue"
  | .opTypePipe => "TypePipe"
  | .opTypeForwardPointer => "TypeForwardPointer"
  | .opTypePipeStorage => "TypePipeStorage"
  | .opTypeNamedBarrier => "TypeNamedBarrier"
  | .opTypeAccelerationStructureKHR => "TypeAccelerationStructureKHR"
  | .opTypeRayQueryKHR => "TypeRayQueryKHR"
  | .opConstantTrue => "ConstantTrue"
  | .opConstantFalse => "ConstantFalse"
  | .opConstant => "Constant"
  | .opConstantComposite => "ConstantComposite"
  | .opConstantNull => "ConstantNull"
  | .opSpecConstantTrue => "SpecConstantTrue"
  | .opSpecConstantFalse => "SpecConstantFalse"
  | .opSpecConstant => "SpecConstant"
  | .opSpecConstantComposite => "SpecConstantComposite"
  | .opSpecConstantOp => "SpecConstantOp"
  | .opFunction => "Function"
  | .opFunctionParameter => "FunctionParameter"
  | .opFunctionEnd => "FunctionEnd"
  | .opFunctionCall => "FunctionCall"
  | .opVariable => "Variable"
  | .opStore => "Store"
  | .opDecorate => "Decorate"
  | .opMemberDecorate => "MemberDecorate"
  | .opDecorationGroup => "DecorationGroup"
  | .opGroupDecorate => "GroupDecorate"
  | .opGroupMemberDecorate => "GroupMemberDecorate"
  | .opDecorateId => "DecorateId"
  | .opDecorateString => "DecorateString"
  | .opMemberDecorateString => "MemberDecorateString"
  | .opFConvert => "FConvert"
  | .opSNegate => "SNegate"
  | .opIAdd => "IAdd"
  | .opISub => "ISub"
  | .opIMul => "IMul"
  | .opShiftLeftLogical => "ShiftLeftLogical"
  | .opLabel => "Label"
  | .opReturn => "Return"
  | .other name => name

def ofName (s : String) : Opcode := (known.find? (·.name = s)).getD (.other s)

theorem name_ofName (s : String) : (ofName s).name = s := by
  unfold ofName
  cases h : known.find? (·.name = s) with
  | none => rfl
  | some op => simpa using List.find?_some h

def spelling (op : Opcode) : String := "Op" ++ op.name

def isConstant : Opcode → Bool
  | .opConstant | .opConstantTrue | .opConstantFalse | .opConstantComposite | .opConstantNull
  | .opSpecConstant | .opSpecConstantTrue | .opSpecConstantFalse | .opSpecConstantComposite
  | .opSpecConstantOp => true
  | _ => false

end Opcode

end SpirvRules
