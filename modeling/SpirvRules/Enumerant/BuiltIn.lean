/-!
# Built-in variables

The built-ins a variable, constant or struct member can stand for.
-/

set_option autoImplicit false

namespace SpirvRules

inductive BuiltIn where
  | position | pointSize | clipDistance | cullDistance | vertexId | instanceId | primitiveId
  | invocationId | layer | viewportIndex | tessLevelOuter | tessLevelInner | tessCoord
  | patchVertices | fragCoord | pointCoord | frontFacing | sampleId | samplePosition | sampleMask
  | fragDepth | helperInvocation | numWorkgroups | workgroupSize | workgroupId
  | localInvocationId | globalInvocationId | localInvocationIndex | workDim | globalSize
  | enqueuedWorkgroupSize | globalOffset | globalLinearId | subgroupSize | subgroupMaxSize
  | numSubgroups | numEnqueuedSubgroups | subgroupId | subgroupLocalInvocationId | vertexIndex
  | instanceIndex | coreIDARM | coreCountARM | coreMaxIDARM | warpIDARM | warpMaxIDARM
  | subgroupEqMask | subgroupGeMask | subgroupGtMask | subgroupLeMask | subgroupLtMask
  | baseVertex | baseInstance | drawIndex | primitiveShadingRateKHR | deviceIndex | viewIndex
  | shadingRateKHR | baryCoordNoPerspAMD | baryCoordNoPerspCentroidAMD
  | baryCoordNoPerspSampleAMD | baryCoordSmoothAMD | baryCoordSmoothCentroidAMD
  | baryCoordSmoothSampleAMD | baryCoordPullModelAMD | fragStencilRefEXT
  | coalescedInputCountAMDX | shaderIndexAMDX | viewportMaskNV | secondaryPositionNV
  | secondaryViewportMaskNV | positionPerViewNV | viewportMaskPerViewNV | fullyCoveredEXT
  | taskCountNV | primitiveCountNV | primitiveIndicesNV | clipDistancePerViewNV
  | cullDistancePerViewNV | layerPerViewNV | meshViewCountNV | meshViewIndicesNV | baryCoordKHR
  | baryCoordNoPerspKHR | fragSizeEXT | fragInvocationCountEXT | primitivePointIndicesEXT
  | primitiveLineIndicesEXT | primitiveTriangleIndicesEXT | cullPrimitiveEXT | launchIdNV
  | launchSizeNV | worldRayOriginNV | worldRayDirectionNV | objectRayOriginNV
  | objectRayDirectionNV | rayTminNV | rayTmaxNV | instanceCustomIndexNV | objectToWorldNV
  | worldToObjectNV | hitTNV | hitKindNV | currentRayTimeNV | hitTriangleVertexPositionsKHR
  | hitMicroTriangleVertexPositionsNV | hitMicroTriangleVertexBarycentricsNV | incomingRayFlagsNV
  | rayGeometryIndexKHR | warpsPerSMNV | smCountNV | warpIDNV | smidNV
  | hitKindFrontFacingMicroTriangleNV | hitKindBackFacingMicroTriangleNV | cullMaskKHR
  deriving DecidableEq

namespace BuiltIn

def entry : BuiltIn → String × UInt32
  | .position => ("Position", 0)
  | .pointSize => ("PointSize", 1)
  | .clipDistance => ("ClipDistance", 3)
  | .cullDistance => ("CullDistance", 4)
  | .vertexId => ("VertexId", 5)
  | .instanceId => ("InstanceId", 6)
  | .primitiveId => ("PrimitiveId", 7)
  | .invocationId => ("InvocationId", 8)
  | .layer => ("Layer", 9)
  | .viewportIndex => ("ViewportIndex", 10)
  | .tessLevelOuter => ("TessLevelOuter", 11)
  | .tessLevelInner => ("TessLevelInner", 12)
  | .tessCoord => ("TessCoord", 13)
  | .patchVertices => ("PatchVertices", 14)
  | .fragCoord => ("FragCoord", 15)
  | .pointCoord => ("PointCoord", 16)
  | .frontFacing => ("FrontFacing", 17)
  | .sampleId => ("SampleId", 18)
  | .samplePosition => ("SamplePosition", 19)
  | .sampleMask => ("SampleMask", 20)
  | .fragDepth => ("FragDepth", 22)
  | .helperInvocation => ("HelperInvocation", 23)
  | .numWorkgroups => ("NumWorkgroups", 24)
  | .workgroupSize => ("WorkgroupSize", 25)
  | .workgroupId => ("WorkgroupId", 26)
  | .localInvocationId => ("LocalInvocationId", 27)
  | .globalInvocationId => ("GlobalInvocationId", 28)
  | .localInvocationIndex => ("LocalInvocationIndex", 29)
  | .workDim => ("WorkDim", 30)
  | .globalSize => ("GlobalSize", 31)
  | .enqueuedWorkgroupSize => ("EnqueuedWorkgroupSize", 32)
  | .globalOffset => ("GlobalOffset", 33)
  | .globalLinearId => ("GlobalLinearId", 34)
  | .subgroupSize => ("SubgroupSize", 36)
  | .subgroupMaxSize => ("SubgroupMaxSize", 37)
  | .numSubgroups => ("NumSubgroups", 38)
  | .numEnqueuedSubgroups => ("NumEnqueuedSubgroups", 39)
  | .subgroupId => ("SubgroupId", 40)
  | .subgroupLocalInvocationId => ("SubgroupLocalInvocationId", 41)
  | .vertexIndex => ("VertexIndex", 42)
  | .instanceIndex => ("InstanceIndex", 43)
  | .coreIDARM => ("CoreIDARM", 4160)
  | .coreCountARM => ("CoreCountARM", 4161)
  | .coreMaxIDARM => ("CoreMaxIDARM", 4162)
  | .warpIDARM => ("WarpIDARM", 4163)
  | .warpMaxIDARM => ("WarpMaxIDARM", 4164)
  | .subgroupEqMask => ("SubgroupEqMask", 4416)
  | .subgroupGeMask => ("SubgroupGeMask", 4417)
  | .subgroupGtMask => ("SubgroupGtMask", 4418)
  | .subgroupLeMask => ("SubgroupLeMask", 4419)
  | .subgroupLtMask => ("SubgroupLtMask", 4420)
  | .baseVertex => ("BaseVertex", 4424)
  | .baseInstance => ("BaseInstance", 4425)
  | .drawIndex => ("DrawIndex", 4426)
  | .primitiveShadingRateKHR => ("PrimitiveShadingRateKHR", 4432)
  | .deviceIndex => ("DeviceIndex", 4438)
  | .viewIndex => ("ViewIndex", 4440)
  | .shadingRateKHR => ("ShadingRateKHR", 4444)
  | .baryCoordNoPerspAMD => ("BaryCoordNoPerspAMD", 4992)
  | .baryCoordNoPerspCentroidAMD => ("BaryCoordNoPerspCentroidAMD", 4993)
  | .baryCoordNoPerspSampleAMD => ("BaryCoordNoPerspSampleAMD", 4994)
  | .baryCoordSmoothAMD => ("BaryCoordSmoothAMD", 4995)
  | .baryCoordSmoothCentroidAMD => ("BaryCoordSmoothCentroidAMD", 4996)
  | .baryCoordSmoothSampleAMD => ("BaryCoordSmoothSampleAMD", 4997)
  | .baryCoordPullModelAMD => ("BaryCoordPullModelAMD", 4998)
  | .fragStencilRefEXT => ("FragStencilRefEXT", 5014)
  | .coalescedInputCountAMDX => ("CoalescedInputCountAMDX", 5021)
  | .shaderIndexAMDX => ("ShaderIndexAMDX", 5073)
  | .viewportMaskNV => ("ViewportMaskNV", 5253)
  | .secondaryPositionNV => ("SecondaryPositionNV", 5257)
  | .secondaryViewportMaskNV => ("SecondaryViewportMaskNV", 5258)
  | .positionPerViewNV => ("PositionPerViewNV", 5261)
  | .viewportMaskPerViewNV => ("ViewportMaskPerViewNV", 5262)
  | .fullyCoveredEXT => ("FullyCoveredEXT", 5264)
  | .taskCountNV => ("TaskCountNV", 5274)
  | .primitiveCountNV => ("PrimitiveCountNV", 5275)
  | .primitiveIndicesNV => ("PrimitiveIndicesNV", 5276)
  | .clipDistancePerViewNV => ("ClipDistancePerViewNV", 5277)
  | .cullDistancePerViewNV => ("CullDistancePerViewNV", 5278)
  | .layerPerViewNV => ("LayerPerViewNV", 5279)
  | .meshViewCountNV => ("MeshViewCountNV", 5280)
  | .meshViewIndicesNV => ("MeshViewIndicesNV", 5281)
  | .baryCoordKHR => ("BaryCoordKHR", 5286)
  | .baryCoordNoPerspKHR => ("BaryCoordNoPerspKHR", 5287)
  | .fragSizeEXT => ("FragSizeEXT", 5292)
  | .fragInvocationCountEXT => ("FragInvocationCountEXT", 5293)
  | .primitivePointIndicesEXT => ("PrimitivePointIndicesEXT", 5294)
  | .primitiveLineIndicesEXT => ("PrimitiveLineIndicesEXT", 5295)
  | .primitiveTriangleIndicesEXT => ("PrimitiveTriangleIndicesEXT", 5296)
  | .cullPrimitiveEXT => ("CullPrimitiveEXT", 5299)
  | .launchIdNV => ("LaunchIdNV", 5319)
  | .launchSizeNV => ("LaunchSizeNV", 5320)
  | .worldRayOriginNV => ("WorldRayOriginNV", 5321)
  | .worldRayDirectionNV => ("WorldRayDirectionNV", 5322)
  | .objectRayOriginNV => ("ObjectRayOriginNV", 5323)
  | .objectRayDirectionNV => ("ObjectRayDirectionNV", 5324)
  | .rayTminNV => ("RayTminNV", 5325)
  | .rayTmaxNV => ("RayTmaxNV", 5326)
  | .instanceCustomIndexNV => ("InstanceCustomIndexNV", 5327)
  | .objectToWorldNV => ("ObjectToWorldNV", 5330)
  | .worldToObjectNV => ("WorldToObjectNV", 5331)
  | .hitTNV => ("HitTNV", 5332)
  | .hitKindNV => ("HitKindNV", 5333)
  | .currentRayTimeNV => ("CurrentRayTimeNV", 5334)
  | .hitTriangleVertexPositionsKHR => ("HitTriangleVertexPositionsKHR", 5335)
  | .hitMicroTriangleVertexPositionsNV => ("HitMicroTriangleVertexPositionsNV", 5337)
  | .hitMicroTriangleVertexBarycentricsNV => ("HitMicroTriangleVertexBarycentricsNV", 5344)
  | .incomingRayFlagsNV => ("IncomingRayFlagsNV", 5351)
  | .rayGeometryIndexKHR => ("RayGeometryIndexKHR", 5352)
  | .warpsPerSMNV => ("WarpsPerSMNV", 5374)
  | .smCountNV => ("SMCountNV", 5375)
  | .warpIDNV => ("WarpIDNV", 5376)
  | .smidNV => ("SMIDNV", 5377)
  | .hitKindFrontFacingMicroTriangleNV => ("HitKindFrontFacingMicroTriangleNV", 5405)
  | .hitKindBackFacingMicroTriangleNV => ("HitKindBackFacingMicroTriangleNV", 5406)
  | .cullMaskKHR => ("CullMaskKHR", 6021)

def name (k : BuiltIn) : String := k.entry.1

def value (k : BuiltIn) : UInt32 := k.entry.2

def all : List BuiltIn :=
  [.position, .pointSize, .clipDistance, .cullDistance, .vertexId, .instanceId, .primitiveId,
   .invocationId, .layer, .viewportIndex, .tessLevelOuter, .tessLevelInner, .tessCoord,
   .patchVertices, .fragCoord, .pointCoord, .frontFacing, .sampleId, .samplePosition,
   .sampleMask, .fragDepth, .helperInvocation, .numWorkgroups, .workgroupSize, .workgroupId,
   .localInvocationId, .globalInvocationId, .localInvocationIndex, .workDim, .globalSize,
   .enqueuedWorkgroupSize, .globalOffset, .globalLinearId, .subgroupSize, .subgroupMaxSize,
   .numSubgroups, .numEnqueuedSubgroups, .subgroupId, .subgroupLocalInvocationId, .vertexIndex,
   .instanceIndex, .coreIDARM, .coreCountARM, .coreMaxIDARM, .warpIDARM, .warpMaxIDARM,
   .subgroupEqMask, .subgroupGeMask, .subgroupGtMask, .subgroupLeMask, .subgroupLtMask,
   .baseVertex, .baseInstance, .drawIndex, .primitiveShadingRateKHR, .deviceIndex, .viewIndex,
   .shadingRateKHR, .baryCoordNoPerspAMD, .baryCoordNoPerspCentroidAMD,
   .baryCoordNoPerspSampleAMD, .baryCoordSmoothAMD, .baryCoordSmoothCentroidAMD,
   .baryCoordSmoothSampleAMD, .baryCoordPullModelAMD, .fragStencilRefEXT,
   .coalescedInputCountAMDX, .shaderIndexAMDX, .viewportMaskNV, .secondaryPositionNV,
   .secondaryViewportMaskNV, .positionPerViewNV, .viewportMaskPerViewNV, .fullyCoveredEXT,
   .taskCountNV, .primitiveCountNV, .primitiveIndicesNV, .clipDistancePerViewNV,
   .cullDistancePerViewNV, .layerPerViewNV, .meshViewCountNV, .meshViewIndicesNV, .baryCoordKHR,
   .baryCoordNoPerspKHR, .fragSizeEXT, .fragInvocationCountEXT, .primitivePointIndicesEXT,
   .primitiveLineIndicesEXT, .primitiveTriangleIndicesEXT, .cullPrimitiveEXT, .launchIdNV,
   .launchSizeNV, .worldRayOriginNV, .worldRayDirectionNV, .objectRayOriginNV,
   .objectRayDirectionNV, .rayTminNV, .rayTmaxNV, .instanceCustomIndexNV, .objectToWorldNV,
   .worldToObjectNV, .hitTNV, .hitKindNV, .currentRayTimeNV, .hitTriangleVertexPositionsKHR,
   .hitMicroTriangleVertexPositionsNV, .hitMicroTriangleVertexBarycentricsNV,
   .incomingRayFlagsNV, .rayGeometryIndexKHR, .warpsPerSMNV, .smCountNV, .warpIDNV, .smidNV,
   .hitKindFrontFacingMicroTriangleNV, .hitKindBackFacingMicroTriangleNV, .cullMaskKHR]

def ofName? (s : String) : Option BuiltIn := all.find? (·.name = s)

def ofValue? (v : UInt32) : Option BuiltIn := all.find? (·.value = v)

theorem mem_all (k : BuiltIn) : k ∈ all := by
  cases k <;> decide +kernel

theorem ofValue?_value (k : BuiltIn) : ofValue? k.value = some k := by
  have h : ∀ k ∈ all, ofValue? k.value = some k := by decide +kernel
  exact h k (mem_all k)

theorem value_injective {j k : BuiltIn} (h : j.value = k.value) : j = k :=
  Option.some.inj (by rw [← ofValue?_value j, h, ofValue?_value k])

end BuiltIn

end SpirvRules
