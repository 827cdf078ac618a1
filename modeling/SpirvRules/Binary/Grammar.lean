import SpirvRules.Module

/-!
# The binary form

Instructions as words: which fields an opcode has, where in a module it goes, and why words do not
make a module. The opcodes here are those of modules with little more than empty functions, float
types and structs; there are no integers, vectors, pointers or variables, and no entry points.
-/

set_option autoImplicit false

namespace SpirvRules.Binary

inductive Section where
  | capabilities | memoryModel | annotations | globals
  deriving DecidableEq

inductive Place where
  | within (s : Section)
  | functionHead
  | parameter
  | label
  | terminator
  | functionTail
  deriving DecidableEq

inductive Form where
  | id | literal | functionControl | capability | addressingModel | memoryModel | decoration
  deriving DecidableEq

inductive Field where
  | resultType
  | result
  | one (f : Form)
  | any (f : Form)
  deriving DecidableEq

structure Format where
  op : Opcode
  place : Place
  fields : List Field

def format? (code : UInt32) : Option Format :=
  match code.toNat with
  | 14 => some ⟨.opMemoryModel, .within .memoryModel, [.one .addressingModel, .one .memoryModel]⟩
  | 17 => some ⟨.opCapability, .within .capabilities, [.one .capability]⟩
  | 19 => some ⟨.opTypeVoid, .within .globals, [.result]⟩
  | 22 => some ⟨.opTypeFloat, .within .globals, [.result, .one .literal]⟩
  | 30 => some ⟨.opTypeStruct, .within .globals, [.result, .any .id]⟩
  | 33 => some ⟨.opTypeFunction, .within .globals, [.result, .one .id, .any .id]⟩
  | 54 =>
    some ⟨.opFunction, .functionHead, [.resultType, .result, .one .functionControl, .one .id]⟩
  | 55 => some ⟨.opFunctionParameter, .parameter, [.resultType, .result]⟩
  | 56 => some ⟨.opFunctionEnd, .functionTail, []⟩
  | 71 => some ⟨.opDecorate, .within .annotations, [.one .id, .one .decoration]⟩
  | 72 =>
    some ⟨.opMemberDecorate, .within .annotations, [.one .id, .one .literal, .one .decoration]⟩
  | 248 => some ⟨.opLabel, .label, [.result]⟩
  | 253 => some ⟨.opReturn, .terminator, []⟩
  | _ => none

def takesLiteral : DecorationKind → Bool
  | .specId | .arrayStride | .matrixStride | .stream | .location | .component | .index | .binding
  | .descriptorSet | .offset | .xfbBuffer | .xfbStride | .inputAttachmentIndex | .alignment
  | .maxByteOffset | .secondaryViewportRelativeNV => true
  | _ => false

def addressingModels : List (UInt32 × String) :=
  [(0, "Logical"), (1, "Physical32"), (2, "Physical64"), (5348, "PhysicalStorageBuffer64")]

def memoryModels : List (UInt32 × String) :=
  [(0, "Simple"), (1, "GLSL450"), (2, "OpenCL"), (3, "Vulkan")]

def capability (code : UInt32) : Capability :=
  match code.toNat with
  | 1 => .shader
  | 6 => .kernel
  | 4428 => .workgroupMemoryExplicitLayoutKHR
  | n => .other (toString n)

/-!
### Unreadable binaries

Why words do not make a module. Offsets count octets, instructions are numbered from one.
-/

inductive AssemblyFault where
  | nestedFunction
  | endOutsideFunction
  | openBlock
  | openFunction
  | parameterOutsideFunction
  | blockOutsideFunction
  | nestedBlock
  | returnOutsideBlock
  deriving DecidableEq

def AssemblyFault.text : AssemblyFault → String
  | .nestedFunction => "NestedFunction"
  | .endOutsideFunction => "MismatchedFunctionEnd"
  | .openBlock => "UnclosedBlock"
  | .openFunction => "UnclosedFunction"
  | .parameterOutsideFunction => "DetachedFunctionParameter"
  | .blockOutsideFunction => "DetachedBlock"
  | .nestedBlock => "NestedBlock"
  | .returnOutsideBlock => "MismatchedTerminator"

inductive ReadFault where
  | headerIncomplete (offset : Nat)
  | endianness
  | magic
  | zeroCount (offset number : Nat)
  | unknownOpcode (offset number : Nat) (code : UInt32)
  | operandMissing (offset number : Nat)
  | operandsLeft (offset number : Nat)
  | streamEnds (offset : Nat)
  | unknownValue (family : String) (offset : Nat) (value : UInt32)
  | assembly (fault : AssemblyFault)
  deriving DecidableEq

namespace ReadFault

def text : ReadFault → String
  | .headerIncomplete o => s!"HeaderIncomplete(StreamExpected({o}))"
  | .endianness => "EndiannessUnsupported"
  | .magic => "HeaderIncorrect"
  | .zeroCount o n => s!"WordCountZero({o}, {n})"
  | .unknownOpcode o n code => s!"OpcodeUnknown({o}, {n}, {code})"
  | .operandMissing o n => s!"OperandExpected({o}, {n})"
  | .operandsLeft o n => s!"OperandExceeded({o}, {n})"
  | .streamEnds o => s!"OperandError(StreamExpected({o}))"
  | .unknownValue family o v => s!"OperandError({family}Unknown({o}, {v}))"
  | .assembly f => s!"ConsumerError({f.text})"

end ReadFault

end SpirvRules.Binary
