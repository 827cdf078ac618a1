/-!
# Enumerants among the operands

The smaller families of values that instructions name: each with its members, their numbers where
they are read from a binary, and their names.
-/

set_option autoImplicit false

namespace SpirvRules

/-!
### Storage classes

Where a pointer points. Ray tracing classes print under their first spelling.
-/

inductive StorageClass where
  | uniformConstant | input | uniform | output | workgroup | crossWorkgroup | privateStorage
  | function | generic | pushConstant | atomicCounter | image | storageBuffer | tileImageEXT
  | nodePayloadAMDX | nodeOutputPayloadAMDX | callableDataNV | incomingCallableDataNV
  | rayPayloadNV | hitAttributeNV | incomingRayPayloadNV | shaderRecordBufferNV
  | physicalStorageBuffer | hitObjectAttributeNV | taskPayloadWorkgroupEXT | codeSectionINTEL
  | deviceOnlyINTEL | hostOnlyINTEL
  deriving DecidableEq

namespace StorageClass

def entry : StorageClass → String × UInt32
  | .uniformConstant => ("UniformConstant", 0)
  | .input => ("Input", 1)
  | .uniform => ("Uniform", 2)
  | .output => ("Output", 3)
  | .workgroup => ("Workgroup", 4)
  | .crossWorkgroup => ("CrossWorkgroup", 5)
  | .privateStorage => ("Private", 6)
  | .function => ("Function", 7)
  | .generic => ("Generic", 8)
  | .pushConstant => ("PushConstant", 9)
  | .atomicCounter => ("AtomicCounter", 10)
  | .image => ("Image", 11)
  | .storageBuffer => ("StorageBuffer", 12)
  | .tileImageEXT => ("TileImageEXT", 4172)
  | .nodePayloadAMDX => ("NodePayloadAMDX", 5068)
  | .nodeOutputPayloadAMDX => ("NodeOutputPayloadAMDX", 5076)
  | .callableDataNV => ("CallableDataNV", 5328)
  | .incomingCallableDataNV => ("IncomingCallableDataNV", 5329)
  | .rayPayloadNV => ("RayPayloadNV", 5338)
  | .hitAttributeNV => ("HitAttributeNV", 5339)
  | .incomingRayPayloadNV => ("IncomingRayPayloadNV", 5342)
  | .shaderRecordBufferNV => ("ShaderRecordBufferNV", 5343)
  | .physicalStorageBuffer => ("PhysicalStorageBuffer", 5349)
  | .hitObjectAttributeNV => ("HitObjectAttributeNV", 5385)
  | .taskPayloadWorkgroupEXT => ("TaskPayloadWorkgroupEXT", 5402)
  | .codeSectionINTEL => ("CodeSectionINTEL", 5605)
  | .deviceOnlyINTEL => ("DeviceOnlyINTEL", 5936)
  | .hostOnlyINTEL => ("HostOnlyINTEL", 5937)

def name (k : StorageClass) : String := k.entry.1

def value (k : StorageClass) : UInt32 := k.entry.2

def all : List StorageClass :=
  [.uniformConstant, .input, .uniform, .output, .workgroup, .crossWorkgroup, .privateStorage,
   .function, .generic, .pushConstant, .atomicCounter, .image, .storageBuffer, .tileImageEXT,
   .nodePayloadAMDX, .nodeOutputPayloadAMDX, .callableDataNV, .incomingCallableDataNV,
   .rayPayloadNV, .hitAttributeNV, .incomingRayPayloadNV, .shaderRecordBufferNV,
   .physicalStorageBuffer, .hitObjectAttributeNV, .taskPayloadWorkgroupEXT, .codeSectionINTEL,
   .deviceOnlyINTEL, .hostOnlyINTEL]

def ofName? (s : String) : Option StorageClass := all.find? (·.name = s)

def ofValue? (v : UInt32) : Option StorageClass := all.find? (·.value = v)

theorem mem_all (k : StorageClass) : k ∈ all := by
  cases k <;> decide +kernel

theorem ofValue?_value (k : StorageClass) : ofValue? k.value = some k := by
  have h : ∀ k ∈ all, ofValue? k.value = some k := by decide +kernel
  exact h k (mem_all k)

theorem value_injective {j k : StorageClass} (h : j.value = k.value) : j = k :=
  Option.some.inj (by rw [← ofValue?_value j, h, ofValue?_value k])

end StorageClass

/-!
### Execution models

The pipeline stage an entry point runs in. Ray tracing stages print under their first spelling.
-/

inductive ExecutionModel where
  | vertex | tessellationControl | tessellationEvaluation | geometry | fragment | glCompute
  | kernel | taskNV | meshNV | rayGenerationNV | intersectionNV | anyHitNV | closestHitNV
  | missNV | callableNV | taskEXT | meshEXT
  deriving DecidableEq

namespace ExecutionModel

def entry : ExecutionModel → String × UInt32
  | .vertex => ("Vertex", 0)
  | .tessellationControl => ("TessellationControl", 1)
  | .tessellationEvaluation => ("TessellationEvaluation", 2)
  | .geometry => ("Geometry", 3)
  | .fragment => ("Fragment", 4)
  | .glCompute => ("GLCompute", 5)
  | .kernel => ("Kernel", 6)
  | .taskNV => ("TaskNV", 5267)
  | .meshNV => ("MeshNV", 5268)
  | .rayGenerationNV => ("RayGenerationNV", 5313)
  | .intersectionNV => ("IntersectionNV", 5314)
  | .anyHitNV => ("AnyHitNV", 5315)
  | .closestHitNV => ("ClosestHitNV", 5316)
  | .missNV => ("MissNV", 5317)
  | .callableNV => ("CallableNV", 5318)
  | .taskEXT => ("TaskEXT", 5364)
  | .meshEXT => ("MeshEXT", 5365)

def name (k : ExecutionModel) : String := k.entry.1

def value (k : ExecutionModel) : UInt32 := k.entry.2

def all : List ExecutionModel :=
  [.vertex, .tessellationControl, .tessellationEvaluation, .geometry, .fragment, .glCompute,
   .kernel, .taskNV, .meshNV, .rayGenerationNV, .intersectionNV, .anyHitNV, .closestHitNV,
   .missNV, .callableNV, .taskEXT, .meshEXT]

def ofName? (s : String) : Option ExecutionModel := all.find? (·.name = s)

def ofValue? (v : UInt32) : Option ExecutionModel := all.find? (·.value = v)

theorem mem_all (k : ExecutionModel) : k ∈ all := by
  cases k <;> decide +kernel

theorem ofValue?_value (k : ExecutionModel) : ofValue? k.value = some k := by
  have h : ∀ k ∈ all, ofValue? k.value = some k := by decide +kernel
  exact h k (mem_all k)

theorem value_injective {j k : ExecutionModel} (h : j.value = k.value) : j = k :=
  Option.some.inj (by rw [← ofValue?_value j, h, ofValue?_value k])

end ExecutionModel

/-!
### Capabilities

Three capabilities change the rules; any other is kept under its name.
-/

inductive Capability where
  | shader | kernel | workgroupMemoryExplicitLayoutKHR
  | other (name : String)
  deriving DecidableEq

namespace Capability

def name : Capability → String
  | .shader => "Shader"
  | .kernel => "Kernel"
  | .workgroupMemoryExplicitLayoutKHR => "WorkgroupMemoryExplicitLayoutKHR"
  | .other name => name

def known : List Capability := [.shader, .kernel, .workgroupMemoryExplicitLayoutKHR]

def ofName (s : String) : Capability := (known.find? (·.name = s)).getD (.other s)

theorem name_ofName (s : String) : (ofName s).name = s := by
  unfold ofName
  cases h : known.find? (·.name = s) with
  | none => rfl
  | some c => simpa using List.find?_some h

end Capability

/-!
### Enumerants of decoration parameters

Rounding modes, linkage and function parameter attributes: each is read only as the parameter of a
decoration.
-/

inductive RoundingMode where
  | rte | rtz | rtp | rtn
  deriving DecidableEq

namespace RoundingMode

def entry : RoundingMode → String × UInt32
  | .rte => ("RTE", 0)
  | .rtz => ("RTZ", 1)
  | .rtp => ("RTP", 2)
  | .rtn => ("RTN", 3)

def name (k : RoundingMode) : String := k.entry.1

def value (k : RoundingMode) : UInt32 := k.entry.2

def all : List RoundingMode :=
  [.rte, .rtz, .rtp, .rtn]

def ofName? (s : String) : Option RoundingMode := all.find? (·.name = s)

def ofValue? (v : UInt32) : Option RoundingMode := all.find? (·.value = v)

theorem mem_all (k : RoundingMode) : k ∈ all := by
  cases k <;> decide +kernel

theorem ofValue?_value (k : RoundingMode) : ofValue? k.value = some k := by
  have h : ∀ k ∈ all, ofValue? k.value = some k := by decide +kernel
  exact h k (mem_all k)

theorem value_injective {j k : RoundingMode} (h : j.value = k.value) : j = k :=
  Option.some.inj (by rw [← ofValue?_value j, h, ofValue?_value k])

end RoundingMode

inductive Linkage where
  | exported | imported | linkOnceODR
  deriving DecidableEq

namespace Linkage

def entry : Linkage → String × UInt32
  | .exported => ("Export", 0)
  | .imported => ("Import", 1)
  | .linkOnceODR => ("LinkOnceODR", 2)

def name (k : Linkage) : String := k.entry.1

def value (k : Linkage) : UInt32 := k.entry.2

def all : List Linkage :=
  [.exported, .imported, .linkOnceODR]

def ofName? (s : String) : Option Linkage := all.find? (·.name = s)

def ofValue? (v : UInt32) : Option Linkage := all.find? (·.value = v)

theorem mem_all (k : Linkage) : k ∈ all := by
  cases k <;> decide +kernel

theorem ofValue?_value (k : Linkage) : ofValue? k.value = some k := by
  have h : ∀ k ∈ all, ofValue? k.value = some k := by decide +kernel
  exact h k (mem_all k)

theorem value_injective {j k : Linkage} (h : j.value = k.value) : j = k :=
  Option.some.inj (by rw [← ofValue?_value j, h, ofValue?_value k])

end Linkage

inductive ParameterAttribute where
  | zext | sext | byVal | sret | noAlias | noCapture | noWrite | noReadWrite
  | runtimeAlignedINTEL
  deriving DecidableEq

namespace ParameterAttribute

def entry : ParameterAttribute → String × UInt32
  | .zext => ("Zext", 0)
  | .sext => ("Sext", 1)
  | .byVal => ("ByVal", 2)
  | .sret => ("Sret", 3)
  | .noAlias => ("NoAlias", 4)
  | .noCapture => ("NoCapture", 5)
  | .noWrite => ("NoWrite", 6)
  | .noReadWrite => ("NoReadWrite", 7)
  | .runtimeAlignedINTEL => ("RuntimeAlignedINTEL", 5940)

def name (k : ParameterAttribute) : String := k.entry.1

def value (k : ParameterAttribute) : UInt32 := k.entry.2

def all : List ParameterAttribute :=
  [.zext, .sext, .byVal, .sret, .noAlias, .noCapture, .noWrite, .noReadWrite,
   .runtimeAlignedINTEL]

def ofName? (s : String) : Option ParameterAttribute := all.find? (·.name = s)

def ofValue? (v : UInt32) : Option ParameterAttribute := all.find? (·.value = v)

theorem mem_all (k : ParameterAttribute) : k ∈ all := by
  cases k <;> decide +kernel

theorem ofValue?_value (k : ParameterAttribute) : ofValue? k.value = some k := by
  have h : ∀ k ∈ all, ofValue? k.value = some k := by decide +kernel
  exact h k (mem_all k)

theorem value_injective {j k : ParameterAttribute} (h : j.value = k.value) : j = k :=
  Option.some.inj (by rw [← ofValue?_value j, h, ofValue?_value k])

end ParameterAttribute

/-!
### Bit masks in text

A mask is shown as the names of its set bits, lowest first, joined by bars; bits without a name are
shown together as one number, and the empty mask as zero.
-/

namespace Text

inductive MaskFamily where
  | functionControl | fpFastMathMode | memoryAccess
  deriving DecidableEq

namespace MaskFamily

def name : MaskFamily → String
  | .functionControl => "FunctionControl"
  | .fpFastMathMode => "FPFastMathMode"
  | .memoryAccess => "MemoryAccess"

def flags : MaskFamily → List (Nat × String)
  | .functionControl =>
    [(1, "INLINE"), (2, "DONT_INLINE"), (4, "PURE"), (8, "CONST"), (65536, "OPT_NONE_INTEL")]
  | .fpFastMathMode =>
    [(1, "NOT_NAN"), (2, "NOT_INF"), (4, "NSZ"), (8, "ALLOW_RECIP"), (16, "FAST"),
     (65536, "ALLOW_CONTRACT_FAST_INTEL"), (131072, "ALLOW_REASSOC_INTEL")]
  | .memoryAccess =>
    [(1, "VOLATILE"), (2, "ALIGNED"), (4, "NONTEMPORAL"), (8, "MAKE_POINTER_AVAILABLE"),
     (16, "MAKE_POINTER_VISIBLE"), (32, "NON_PRIVATE_POINTER"), (65536, "ALIAS_SCOPE_INTEL_MASK"),
     (131072, "NO_ALIAS_INTEL_MASK")]

def render (family : MaskFamily) (bits : Nat) : String :=
  let set := family.flags.filter fun (bit, _) => bits &&& bit ≠ 0
  let rest := set.foldl (fun left (bit, _) => left - bit) bits
  let hex := "0x" ++ String.ofList (Nat.toDigits 16 rest)
  let parts := set.map (·.2) ++ if rest = 0 then [] else [hex]
  if parts.isEmpty then hex else " | ".intercalate parts

end MaskFamily

end Text

end SpirvRules
