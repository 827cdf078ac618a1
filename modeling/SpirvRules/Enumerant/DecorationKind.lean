/-!
# Decoration kinds

The kinds of decoration with their spelling and number. Where the grammar has two spellings of one
number, the one listed here is the one printed.
-/

set_option autoImplicit false

namespace SpirvRules

inductive DecorationKind where
  | relaxedPrecision | specId | block | bufferBlock | rowMajor | colMajor | arrayStride
  | matrixStride | glslShared | glslPacked | cPacked | builtIn | noPerspective | flat | patch
  | centroid | sample | invariant | restrict | aliased | volatile | constant | coherent
  | nonWritable | nonReadable | uniform | uniformId | saturatedConversion | stream | location
  | component | index | binding | descriptorSet | offset | xfbBuffer | xfbStride | funcParamAttr
  | fpRoundingMode | fpFastMathMode | linkageAttributes | noContraction | inputAttachmentIndex
  | alignment | maxByteOffset | alignmentId | maxByteOffsetId | noSignedWrap | noUnsignedWrap
  | weightTextureQCOM | blockMatchTextureQCOM | explicitInterpAMD
  | nodeSharesPayloadLimitsWithAMDX | nodeMaxPayloadsAMDX | trackFinishWritingAMDX
  | payloadNodeNameAMDX | overrideCoverageNV | passthroughNV | viewportRelativeNV
  | secondaryViewportRelativeNV | perPrimitiveNV | perViewNV | perTaskNV | perVertexKHR
  | nonUniform | restrictPointer | aliasedPointer | hitObjectShaderRecordBufferNV
  | bindlessSamplerNV | bindlessImageNV | boundSamplerNV | boundImageNV | simtCallINTEL
  | referencedIndirectlyINTEL | clobberINTEL | sideEffectsINTEL | vectorComputeVariableINTEL
  | funcParamIOKindINTEL | vectorComputeFunctionINTEL | stackCallINTEL
  | globalVariableOffsetINTEL | counterBuffer | userSemantic | userTypeGOOGLE
  | functionRoundingModeINTEL | functionDenormModeINTEL | registerINTEL | memoryINTEL
  | numbanksINTEL | bankwidthINTEL | maxPrivateCopiesINTEL | singlepumpINTEL | doublepumpINTEL
  | maxReplicatesINTEL | simpleDualPortINTEL | mergeINTEL | bankBitsINTEL | forcePow2DepthINTEL
  | burstCoalesceINTEL | cacheSizeINTEL | dontStaticallyCoalesceINTEL | prefetchINTEL
  | stallEnableINTEL | fuseLoopsInFunctionINTEL | mathOpDSPModeINTEL | aliasScopeINTEL
  | noAliasINTEL | initiationIntervalINTEL | maxConcurrencyINTEL | pipelineEnableINTEL
  | bufferLocationINTEL | ioPipeStorageINTEL | functionFloatingPointModeINTEL
  | singleElementVectorINTEL | vectorComputeCallableFunctionINTEL | mediaBlockIOINTEL
  | initModeINTEL | implementInRegisterMapINTEL | hostAccessINTEL | fpMaxErrorDecorationINTEL
  | latencyControlLabelINTEL | latencyControlConstraintINTEL | conduitKernelArgumentINTEL
  | registerMapKernelArgumentINTEL | mmHostInterfaceAddressWidthINTEL
  | mmHostInterfaceDataWidthINTEL | mmHostInterfaceLatencyINTEL
  | mmHostInterfaceReadWriteModeINTEL | mmHostInterfaceMaxBurstINTEL
  | mmHostInterfaceWaitRequestINTEL | stableKernelArgumentINTEL | cacheControlLoadINTEL
  | cacheControlStoreINTEL
  deriving DecidableEq

namespace DecorationKind

def entry : DecorationKind → String × UInt32
  | .relaxedPrecision => ("RelaxedPrecision", 0)
  | .specId => ("SpecId", 1)
  | .block => ("Block", 2)
  | .bufferBlock => ("BufferBlock", 3)
  | .rowMajor => ("RowMajor", 4)
  | .colMajor => ("ColMajor", 5)
  | .arrayStride => ("ArrayStride", 6)
  | .matrixStride => ("MatrixStride", 7)
  | .glslShared => ("GLSLShared", 8)
  | .glslPacked => ("GLSLPacked", 9)
  | .cPacked => ("CPacked", 10)
  | .builtIn => ("BuiltIn", 11)
  | .noPerspective => ("NoPerspective", 13)
  | .flat => ("Flat", 14)
  | .patch => ("Patch", 15)
  | .centroid => ("Centroid", 16)
  | .sample => ("Sample", 17)
  | .invariant => ("Invariant", 18)
  | .restrict => ("Restrict", 19)
  | .aliased => ("Aliased", 20)
  | .volatile => ("Volatile", 21)
  | .constant => ("Constant", 22)
  | .coherent => ("Coherent", 23)
  | .nonWritable => ("NonWritable", 24)
  | .nonReadable => ("NonReadable", 25)
  | .uniform => ("Uniform", 26)
  | .uniformId => ("UniformId", 27)
  | .saturatedConversion => ("SaturatedConversion", 28)
  | .stream => ("Stream", 29)
  | .location => ("Location", 30)
  | .component => ("Component", 31)
  | .index => ("Index", 32)
  | .binding => ("Binding", 33)
  | .descriptorSet => ("DescriptorSet", 34)
  | .offset => ("Offset", 35)
  | .xfbBuffer => ("XfbBuffer", 36)
  | .xfbStride => ("XfbStride", 37)
  | .funcParamAttr => ("FuncParamAttr", 38)
  | .fpRoundingMode => ("FPRoundingMode", 39)
  | .fpFastMathMode => ("FPFastMathMode", 40)
  | .linkageAttributes => ("LinkageAttributes", 41)
  | .noContraction => ("NoContraction", 42)
  | .inputAttachmentIndex => ("InputAttachmentIndex", 43)
  | .alignment => ("Alignment", 44)
  | .maxByteOffset => ("MaxByteOffset", 45)
  | .alignmentId => ("AlignmentId", 46)
  | .maxByteOffsetId => ("MaxByteOffsetId", 47)
  | .noSignedWrap => ("NoSignedWrap", 4469)
  | .noUnsignedWrap => ("NoUnsignedWrap", 4470)
  | .weightTextureQCOM => ("WeightTextureQCOM", 4487)
  | .blockMatchTextureQCOM => ("BlockMatchTextureQCOM", 4488)
  | .explicitInterpAMD => ("ExplicitInterpAMD", 4999)
  | .nodeSharesPayloadLimitsWithAMDX => ("NodeSharesPayloadLimitsWithAMDX", 5019)
  | .nodeMaxPayloadsAMDX => ("NodeMaxPayloadsAMDX", 5020)
  | .trackFinishWritingAMDX => ("TrackFinishWritingAMDX", 5078)
  | .payloadNodeNameAMDX => ("PayloadNodeNameAMDX", 5091)
  | .overrideCoverageNV => ("OverrideCoverageNV", 5248)
  | .passthroughNV => ("PassthroughNV", 5250)
  | .viewportRelativeNV => ("ViewportRelativeNV", 5252)
  | .secondaryViewportRelativeNV => ("SecondaryViewportRelativeNV", 5256)
  | .perPrimitiveNV => ("PerPrimitiveNV", 5271)
  | .perViewNV => ("PerViewNV", 5272)
  | .perTaskNV => ("PerTaskNV", 5273)
  | .perVertexKHR => ("PerVertexKHR", 5285)
  | .nonUniform => ("NonUniform", 5300)
  | .restrictPointer => ("RestrictPointer", 5355)
  | .aliasedPointer => ("AliasedPointer", 5356)
  | .hitObjectShaderRecordBufferNV => ("HitObjectShaderRecordBufferNV", 5386)
  | .bindlessSamplerNV => ("BindlessSamplerNV", 5398)
  | .bindlessImageNV => ("BindlessImageNV", 5399)
  | .boundSamplerNV => ("BoundSamplerNV", 5400)
  | .boundImageNV => ("BoundImageNV", 5401)
  | .simtCallINTEL => ("SIMTCallINTEL", 5599)
  | .referencedIndirectlyINTEL => ("ReferencedIndirectlyINTEL", 5602)
  | .clobberINTEL => ("ClobberINTEL", 5607)
  | .sideEffectsINTEL => ("SideEffectsINTEL", 5608)
  | .vectorComputeVariableINTEL => ("VectorComputeVariableINTEL", 5624)
  | .funcParamIOKindINTEL => ("FuncParamIOKindINTEL", 5625)
  | .vectorComputeFunctionINTEL => ("VectorComputeFunctionINTEL", 5626)
  | .stackCallINTEL => ("StackCallINTEL", 5627)
  | .globalVariableOffsetINTEL => ("GlobalVariableOffsetINTEL", 5628)
  | .counterBuffer => ("CounterBuffer", 5634)
  | .userSemantic => ("UserSemantic", 5635)
  | .userTypeGOOGLE => ("UserTypeGOOGLE", 5636)
  | .functionRoundingModeINTEL => ("FunctionRoundingModeINTEL", 5822)
  | .functionDenormModeINTEL => ("FunctionDenormModeINTEL", 5823)
  | .registerINTEL => ("RegisterINTEL", 5825)
  | .memoryINTEL => ("MemoryINTEL", 5826)
  | .numbanksINTEL => ("NumbanksINTEL", 5827)
  | .bankwidthINTEL => ("BankwidthINTEL", 5828)
  | .maxPrivateCopiesINTEL => ("MaxPrivateCopiesINTEL", 5829)
  | .singlepumpINTEL => ("SinglepumpINTEL", 5830)
  | .doublepumpINTEL => ("DoublepumpINTEL", 5831)
  | .maxReplicatesINTEL => ("MaxReplicatesINTEL", 5832)
  | .simpleDualPortINTEL => ("SimpleDualPortINTEL", 5833)
  | .mergeINTEL => ("MergeINTEL", 5834)
  | .bankBitsINTEL => ("BankBitsINTEL", 5835)
  | .forcePow2DepthINTEL => ("ForcePow2DepthINTEL", 5836)
  | .burstCoalesceINTEL => ("BurstCoalesceINTEL", 5899)
  | .cacheSizeINTEL => ("CacheSizeINTEL", 5900)
  | .dontStaticallyCoalesceINTEL => ("DontStaticallyCoalesceINTEL", 5901)
  | .prefetchINTEL => ("PrefetchINTEL", 5902)
  | .stallEnableINTEL => ("StallEnableINTEL", 5905)
  | .fuseLoopsInFunctionINTEL => ("FuseLoopsInFunctionINTEL", 5907)
  | .mathOpDSPModeINTEL => ("MathOpDSPModeINTEL", 5909)
  | .aliasScopeINTEL => ("AliasScopeINTEL", 5914)
  | .noAliasINTEL => ("NoAliasINTEL", 5915)
  | .initiationIntervalINTEL => ("InitiationIntervalINTEL", 5917)
  | .maxConcurrencyINTEL => ("MaxConcurrencyINTEL", 5918)
  | .pipelineEnableINTEL => ("PipelineEnableINTEL", 5919)
  | .bufferLocationINTEL => ("BufferLocationINTEL", 5921)
  | .ioPipeStorageINTEL => ("IOPipeStorageINTEL", 5944)
  | .functionFloatingPointModeINTEL => ("FunctionFloatingPointModeINTEL", 6080)
  | .singleElementVectorINTEL => ("SingleElementVectorINTEL", 6085)
  | .vectorComputeCallableFunctionINTEL => ("VectorComputeCallableFunctionINTEL", 6087)
  | .mediaBlockIOINTEL => ("MediaBlockIOINTEL", 6140)
  | .initModeINTEL => ("InitModeINTEL", 6147)
  | .implementInRegisterMapINTEL => ("ImplementInRegisterMapINTEL", 6148)
  | .hostAccessINTEL => ("HostAccessINTEL", 6168)
  | .fpMaxErrorDecorationINTEL => ("FPMaxErrorDecorationINTEL", 6170)
  | .latencyControlLabelINTEL => ("LatencyControlLabelINTEL", 6172)
  | .latencyControlConstraintINTEL => ("LatencyControlConstraintINTEL", 6173)
  | .conduitKernelArgumentINTEL => ("ConduitKernelArgumentINTEL", 6175)
  | .registerMapKernelArgumentINTEL => ("RegisterMapKernelArgumentINTEL", 6176)
  | .mmHostInterfaceAddressWidthINTEL => ("MMHostInterfaceAddressWidthINTEL", 6177)
  | .mmHostInterfaceDataWidthINTEL => ("MMHostInterfaceDataWidthINTEL", 6178)
  | .mmHostInterfaceLatencyINTEL => ("MMHostInterfaceLatencyINTEL", 6179)
  | .mmHostInterfaceReadWriteModeINTEL => ("MMHostInterfaceReadWriteModeINTEL", 6180)
  | .mmHostInterfaceMaxBurstINTEL => ("MMHostInterfaceMaxBurstINTEL", 6181)
  | .mmHostInterfaceWaitRequestINTEL => ("MMHostInterfaceWaitRequestINTEL", 6182)
  | .stableKernelArgumentINTEL => ("StableKernelArgumentINTEL", 6183)
  | .cacheControlLoadINTEL => ("CacheControlLoadINTEL", 6442)
  | .cacheControlStoreINTEL => ("CacheControlStoreINTEL", 6443)

def name (k : DecorationKind) : String := k.entry.1

def value (k : DecorationKind) : UInt32 := k.entry.2

def all : List DecorationKind :=
  [.relaxedPrecision, .specId, .block, .bufferBlock, .rowMajor, .colMajor, .arrayStride,
   .matrixStride, .glslShared, .glslPacked, .cPacked, .builtIn, .noPerspective, .flat, .patch,
   .centroid, .sample, .invariant, .restrict, .aliased, .volatile, .constant, .coherent,
   .nonWritable, .nonReadable, .uniform, .uniformId, .saturatedConversion, .stream, .location,
   .component, .index, .binding, .descriptorSet, .offset, .xfbBuffer, .xfbStride, .funcParamAttr,
   .fpRoundingMode, .fpFastMathMode, .linkageAttributes, .noContraction, .inputAttachmentIndex,
   .alignment, .maxByteOffset, .alignmentId, .maxByteOffsetId, .noSignedWrap, .noUnsignedWrap,
   .weightTextureQCOM, .blockMatchTextureQCOM, .explicitInterpAMD,
   .nodeSharesPayloadLimitsWithAMDX, .nodeMaxPayloadsAMDX, .trackFinishWritingAMDX,
   .payloadNodeNameAMDX, .overrideCoverageNV, .passthroughNV, .viewportRelativeNV,
   .secondaryViewportRelativeNV, .perPrimitiveNV, .perViewNV, .perTaskNV, .perVertexKHR,
   .nonUniform, .restrictPointer, .aliasedPointer, .hitObjectShaderRecordBufferNV,
   .bindlessSamplerNV, .bindlessImageNV, .boundSamplerNV, .boundImageNV, .simtCallINTEL,
   .referencedIndirectlyINTEL, .clobberINTEL, .sideEffectsINTEL, .vectorComputeVariableINTEL,
   .funcParamIOKindINTEL, .vectorComputeFunctionINTEL, .stackCallINTEL,
   .globalVariableOffsetINTEL, .counterBuffer, .userSemantic, .userTypeGOOGLE,
   .functionRoundingModeINTEL, .functionDenormModeINTEL, .registerINTEL, .memoryINTEL,
   .numbanksINTEL, .bankwidthINTEL, .maxPrivateCopiesINTEL, .singlepumpINTEL, .doublepumpINTEL,
   .maxReplicatesINTEL, .simpleDualPortINTEL, .mergeINTEL, .bankBitsINTEL, .forcePow2DepthINTEL,
   .burstCoalesceINTEL, .cacheSizeINTEL, .dontStaticallyCoalesceINTEL, .prefetchINTEL,
   .stallEnableINTEL, .fuseLoopsInFunctionINTEL, .mathOpDSPModeINTEL, .aliasScopeINTEL,
   .noAliasINTEL, .initiationIntervalINTEL, .maxConcurrencyINTEL, .pipelineEnableINTEL,
   .bufferLocationINTEL, .ioPipeStorageINTEL, .functionFloatingPointModeINTEL,
   .singleElementVectorINTEL, .vectorComputeCallableFunctionINTEL, .mediaBlockIOINTEL,
   .initModeINTEL, .implementInRegisterMapINTEL, .hostAccessINTEL, .fpMaxErrorDecorationINTEL,
   .latencyControlLabelINTEL, .latencyControlConstraintINTEL, .conduitKernelArgumentINTEL,
   .registerMapKernelArgumentINTEL, .mmHostInterfaceAddressWidthINTEL,
   .mmHostInterfaceDataWidthINTEL, .mmHostInterfaceLatencyINTEL,
   .mmHostInterfaceReadWriteModeINTEL, .mmHostInterfaceMaxBurstINTEL,
   .mmHostInterfaceWaitRequestINTEL, .stableKernelArgumentINTEL, .cacheControlLoadINTEL,
   .cacheControlStoreINTEL]

def ofName? (s : String) : Option DecorationKind := all.find? (·.name = s)

def ofValue? (v : UInt32) : Option DecorationKind := all.find? (·.value = v)

theorem mem_all (k : DecorationKind) : k ∈ all := by
  cases k <;> decide +kernel

theorem ofValue?_value (k : DecorationKind) : ofValue? k.value = some k := by
  have h : ∀ k ∈ all, ofValue? k.value = some k := by decide +kernel
  exact h k (mem_all k)

theorem value_injective {j k : DecorationKind} (h : j.value = k.value) : j = k :=
  Option.some.inj (by rw [← ofValue?_value j, h, ofValue?_value k])

end DecorationKind

/-!
### Where kinds may be placed

Some kinds belong on members only, some never on members; some take ids and some take strings, and
these have instructions of their own.
-/

namespace DecorationKind

def takesIds : DecorationKind → Bool
  | .uniformId | .alignmentId | .maxByteOffsetId => true
  | _ => false

def takesStrings : DecorationKind → Bool
  | .userSemantic | .userTypeGOOGLE => true
  | _ => false

/-- Meaningless on a whole target. Offsets are not: transform feedback gives them to variables. -/
def onlyOnMembers : DecorationKind → Bool
  | .rowMajor | .colMajor | .matrixStride => true
  | _ => false

/-- Refused on members. `Restrict` is not: compilers do put it there. -/
def neverOnMembers : DecorationKind → Bool
  | .specId | .block | .bufferBlock | .arrayStride | .glslShared | .glslPacked | .cPacked
  | .aliased | .constant | .uniform | .uniformId | .saturatedConversion | .index | .binding
  | .descriptorSet | .funcParamAttr | .fpRoundingMode | .fpFastMathMode | .linkageAttributes
  | .noContraction | .inputAttachmentIndex | .alignment | .maxByteOffset | .alignmentId
  | .maxByteOffsetId | .noSignedWrap | .noUnsignedWrap | .nonUniform | .restrictPointer
  | .aliasedPointer => true
  | _ => false

end DecorationKind

end SpirvRules
