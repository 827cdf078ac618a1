import SpirvRules.Module

/-!
# Views of type declarations

Types are ids; a view is what the declaring instruction says, with the parts still ids. A type whose
operands are malformed is one no rule speaks of.
-/

set_option autoImplicit false

namespace SpirvRules

inductive TypeView where
  | void
  | bool
  | int (width : UInt32) (signed : Bool)
  | float (width : UInt32)
  | vector (component : Id) (count : UInt32)
  | matrix (column : Id) (count : UInt32)
  /-- The length is the id of a constant. -/
  | array (element length : Id)
  | runtimeArray (element : Id)
  | struct (members : List Operand)
  | pointer (storage : StorageClass) (pointee : Id)
  | function
  | image (sampledType : Id) (dim : String) (sampled : UInt32)
  | sampler
  | sampledImage (image : Id)
  | other
  deriving DecidableEq

def Opcode.declaresType : Opcode → Bool
  | .opTypeVoid | .opTypeBool | .opTypeInt | .opTypeFloat | .opTypeVector | .opTypeMatrix
  | .opTypeImage | .opTypeSampler | .opTypeSampledImage | .opTypeArray | .opTypeRuntimeArray
  | .opTypeStruct | .opTypeOpaque | .opTypePointer | .opTypeFunction | .opTypeEvent
  | .opTypeDeviceEvent | .opTypeReserveId | .opTypeQueue | .opTypePipe | .opTypeForwardPointer
  | .opTypePipeStorage | .opTypeNamedBarrier | .opTypeAccelerationStructureKHR
  | .opTypeRayQueryKHR => true
  | _ => false

namespace TypeView

def wellFormed? (i : Instruction) : Option TypeView :=
  match i.op with
  | .opTypeVoid => some .void
  | .opTypeBool => some .bool
  | .opTypeInt => do return .int (← i.literalAt? 0) ((← i.literalAt? 1) ≠ 0)
  | .opTypeFloat => do return .float (← i.literalAt? 0)
  | .opTypeVector => do return .vector (← i.idAt? 0) (← i.literalAt? 1)
  | .opTypeMatrix => do return .matrix (← i.idAt? 0) (← i.literalAt? 1)
  | .opTypeArray => do return .array (← i.idAt? 0) (← i.idAt? 1)
  | .opTypeRuntimeArray => do return .runtimeArray (← i.idAt? 0)
  | .opTypeStruct => some (.struct i.operands)
  | .opTypePointer =>
    match i.operand? 0, i.idAt? 1 with
    | some (.storageClass c), some p => some (.pointer c p)
    | _, _ => none
  | .opTypeFunction => some .function
  | .opTypeImage =>
    match i.idAt? 0, i.operand? 1, i.literalAt? 5 with
    | some t, some (.dim d), some s => some (.image t d s)
    | _, _, _ => none
  | .opTypeSampler => some .sampler
  | .opTypeSampledImage => do return .sampledImage (← i.idAt? 0)
  | _ => none

def ofInstruction? (i : Instruction) : Option TypeView :=
  if i.op.declaresType then some ((wellFormed? i).getD .other) else none

def memberIds : TypeView → List Id
  | .struct members => members.filterMap Operand.anyId?
  | _ => []

def memberCount : TypeView → Nat
  | .struct members => members.length
  | _ => 0

def member? : TypeView → Nat → Option Id
  | .struct members, n => members[n]?.bind Operand.anyId?
  | _, _ => none

def element? : TypeView → Option Id
  | .array element _ | .runtimeArray element => some element
  | _ => none

def isStruct : TypeView → Bool
  | .struct _ => true
  | _ => false

def isArray : TypeView → Bool
  | .array .. | .runtimeArray _ => true
  | _ => false

end TypeView

/-- A number or a vector of them. -/
structure NumericShape where
  floating : Bool
  /-- Bits of a component. -/
  width : UInt32
  count : UInt32
  deriving DecidableEq

def TypeView.scalarShape? : TypeView → Option NumericShape
  | .int width _ => some ⟨false, width, 1⟩
  | .float width => some ⟨true, width, 1⟩
  | _ => none

end SpirvRules
