import Shader.Assembly.Opcode

/-!
# Names of opcodes

Messages call an opcode by the name that the instruction set and its extensions give it.  Where
several extensions share an opcode, that is the name under which it was adopted.
-/

namespace Shader.Assembly.Opcode

/-- The names, in runs: the code of the first, what all look like, and what those that follow one
another have in place of the star, with blanks between them. -/
def nameRuns : List (Nat × String × List String) := [
  (0, "*", ["Nop Undef SourceContinued Source SourceExtension Name MemberName String Line"]),
  (10, "*", ["Extension ExtInstImport ExtInst"]),
  (14, "*", ["MemoryModel EntryPoint ExecutionMode Capability"]),
  (19, "Type*", ["Void Bool Int Float Vector Matrix Image Sampler SampledImage Array",
    "RuntimeArray Struct Opaque Pointer Function Event DeviceEvent ReserveId Queue Pipe",
    "ForwardPointer"]),
  (41, "*", ["ConstantTrue ConstantFalse Constant ConstantComposite ConstantSampler",
    "ConstantNull"]),
  (48, "Spec*", ["ConstantTrue ConstantFalse Constant ConstantComposite ConstantOp"]),
  (54, "*", ["Function FunctionParameter FunctionEnd FunctionCall"]),
  (59, "*", ["Variable ImageTexelPointer Load Store CopyMemory CopyMemorySized AccessChain",
    "InBoundsAccessChain PtrAccessChain ArrayLength GenericPtrMemSemantics",
    "InBoundsPtrAccessChain Decorate MemberDecorate DecorationGroup GroupDecorate",
    "GroupMemberDecorate"]),
  (77, "Vector*Dynamic", ["Extract Insert"]),
  (79, "*", ["VectorShuffle CompositeConstruct CompositeExtract CompositeInsert CopyObject",
    "Transpose"]),
  (86, "*", ["SampledImage"]),
  (87, "ImageSample*Lod", ["Implicit Explicit DrefImplicit DrefExplicit ProjImplicit",
    "ProjExplicit ProjDrefImplicit ProjDrefExplicit"]),
  (95, "Image*", ["Fetch Gather DrefGather Read Write"]),
  (100, "*", ["Image"]),
  (101, "ImageQuery*", ["Format Order SizeLod Size Lod Levels Samples"]),
  (109, "Convert*", ["FToU FToS SToF UToF"]),
  (113, "*", ["UConvert SConvert FConvert QuantizeToF16 ConvertPtrToU SatConvertSToU",
    "SatConvertUToS ConvertUToPtr PtrCastToGeneric GenericCastToPtr GenericCastToPtrExplicit",
    "Bitcast"]),
  (126, "*", ["SNegate FNegate IAdd FAdd ISub FSub IMul FMul UDiv SDiv FDiv UMod SRem SMod FRem",
    "FMod VectorTimesScalar MatrixTimesScalar VectorTimesMatrix MatrixTimesVector",
    "MatrixTimesMatrix OuterProduct Dot IAddCarry ISubBorrow UMulExtended SMulExtended"]),
  (154, "*", ["Any All IsNan IsInf IsFinite IsNormal SignBitSet LessOrGreater Ordered Unordered",
    "LogicalEqual LogicalNotEqual LogicalOr LogicalAnd LogicalNot Select IEqual INotEqual",
    "UGreaterThan SGreaterThan UGreaterThanEqual SGreaterThanEqual ULessThan SLessThan"]),
  (178, "*Equal", ["ULessThan SLessThan FOrd FUnord FOrdNot FUnordNot"]),
  (184, "F*Than", ["OrdLess UnordLess OrdGreater UnordGreater"]),
  (188, "F*ThanEqual", ["OrdLess UnordLess OrdGreater UnordGreater"]),
  (194, "*", ["ShiftRightLogical ShiftRightArithmetic ShiftLeftLogical BitwiseOr BitwiseXor",
    "BitwiseAnd Not BitFieldInsert BitFieldSExtract BitFieldUExtract BitReverse BitCount"]),
  (207, "*", ["DPdx DPdy Fwidth DPdxFine DPdyFine FwidthFine DPdxCoarse DPdyCoarse FwidthCoarse"]),
  (218, "*", ["EmitVertex EndPrimitive EmitStreamVertex EndStreamPrimitive"]),
  (224, "*Barrier", ["Control Memory"]),
  (227, "Atomic*", ["Load Store Exchange CompareExchange CompareExchangeWeak IIncrement",
    "IDecrement IAdd ISub SMin UMin SMax UMax And Or Xor"]),
  (245, "*", ["Phi LoopMerge SelectionMerge Label Branch BranchConditional Switch Kill Return",
    "ReturnValue Unreachable LifetimeStart LifetimeStop"]),
  (259, "Group*", ["AsyncCopy WaitEvents All Any Broadcast IAdd FAdd FMin UMin SMin FMax UMax",
    "SMax"]),
  (274, "*", ["ReadPipe WritePipe ReservedReadPipe ReservedWritePipe ReserveReadPipePackets",
    "ReserveWritePipePackets CommitReadPipe CommitWritePipe IsValidReserveId"]),
  (283, "*PipePackets", ["GetNum GetMax GroupReserveRead GroupReserveWrite"]),
  (287, "GroupCommit*Pipe", ["Read Write"]),
  (291, "Enqueue*", ["Marker Kernel"]),
  (293, "GetKernel*", ["NDrangeSubGroupCount NDrangeMaxSubGroupSize WorkGroupSize",
    "PreferredWorkGroupSizeMultiple"]),
  (297, "*Event", ["Retain Release CreateUser IsValid"]),
  (301, "*", ["SetUserEventStatus CaptureEventProfilingInfo GetDefaultQueue BuildNDRange"]),
  (305, "ImageSparseSample*Lod", ["Implicit Explicit DrefImplicit DrefExplicit ProjImplicit",
    "ProjExplicit ProjDrefImplicit ProjDrefExplicit"]),
  (313, "ImageSparse*", ["Fetch Gather DrefGather TexelsResident"]),
  (317, "*", ["NoLine AtomicFlagTestAndSet AtomicFlagClear ImageSparseRead SizeOf",
    "TypePipeStorage ConstantPipeStorage CreatePipeFromPipeStorage",
    "GetKernelLocalSizeForSubgroupCount GetKernelMaxNumSubgroups TypeNamedBarrier",
    "NamedBarrierInitialize MemoryNamedBarrier ModuleProcessed ExecutionModeId DecorateId"]),
  (333, "GroupNonUniform*", ["Elect All Any AllEqual Broadcast BroadcastFirst Ballot",
    "InverseBallot BallotBitExtract BallotBitCount BallotFindLSB BallotFindMSB Shuffle",
    "ShuffleXor ShuffleUp ShuffleDown IAdd FAdd IMul FMul SMin UMin FMin SMax UMax FMax",
    "BitwiseAnd BitwiseOr BitwiseXor LogicalAnd LogicalOr LogicalXor QuadBroadcast QuadSwap"]),
  (400, "*", ["CopyLogical PtrEqual PtrNotEqual PtrDiff"]),
  (4160, "*AttachmentReadEXT", ["Color Depth Stencil"]),
  (4416, "*", ["TerminateInvocation"]),
  (4421, "Subgroup*KHR", ["Ballot FirstInvocation"]),
  (4428, "*KHR", ["SubgroupAll SubgroupAny SubgroupAllEqual GroupNonUniformRotate",
    "SubgroupReadInvocation"]),
  (4445, "*", ["TraceRayKHR ExecuteCallableKHR ConvertUToAccelerationStructureKHR",
    "IgnoreIntersectionKHR TerminateRayKHR SDot UDot SUDot SDotAccSat UDotAccSat SUDotAccSat",
    "TypeCooperativeMatrixKHR"]),
  (4457, "CooperativeMatrix*KHR", ["Load Store MulAdd Length"]),
  (4472, "*", ["TypeRayQueryKHR"]),
  (4473, "RayQuery*KHR", ["Initialize Terminate GenerateIntersection ConfirmIntersection",
    "Proceed"]),
  (4479, "*", ["RayQueryGetIntersectionTypeKHR"]),
  (4480, "Image*QCOM", ["SampleWeighted BoxFilter BlockMatchSSD BlockMatchSAD"]),
  (5000, "Group*NonUniformAMD", ["IAdd FAdd FMin UMin SMin FMax UMax SMax"]),
  (5011, "Fragment*AMD", ["MaskFetch Fetch"]),
  (5056, "*", ["ReadClockKHR"]),
  (5075, "*", ["FinalizeNodePayloadsAMDX"]),
  (5078, "*", ["FinishWritingNodePayloadAMDX"]),
  (5090, "*", ["InitializeNodePayloadsAMDX"]),
  (5249, "HitObjectRecord*MotionNV", ["Hit HitWithIndex Miss"]),
  (5252, "HitObject*NV", ["GetWorldToObject GetObjectToWorld GetObjectRayDirection",
    "GetObjectRayOrigin TraceRayMotion GetShaderRecordBufferHandle",
    "GetShaderBindingTableRecordIndex RecordEmpty TraceRay RecordHit RecordHitWithIndex",
    "RecordMiss ExecuteShader GetCurrentTime GetAttributes GetHitKind GetPrimitiveIndex",
    "GetGeometryIndex GetInstanceId GetInstanceCustomIndex GetWorldRayDirection",
    "GetWorldRayOrigin GetRayTMax GetRayTMin IsEmpty IsHit IsMiss"]),
  (5279, "*NV", ["ReorderThreadWithHitObject ReorderThreadWithHint TypeHitObject"]),
  (5283, "*", ["ImageSampleFootprintNV"]),
  (5294, "*", ["EmitMeshTasksEXT SetMeshOutputsEXT GroupNonUniformPartitionNV"]),
  (5299, "*", ["WritePackedPrimitiveIndices4x8NV"]),
  (5300, "FetchMicroTriangleVertex*NV", ["Position Barycentric"]),
  (5334, "*", ["ReportIntersectionKHR IgnoreIntersectionNV TerminateRayNV TraceNV TraceMotionNV",
    "TraceRayMotionNV RayQueryGetIntersectionTriangleVertexPositionsKHR",
    "TypeAccelerationStructureKHR"]),
  (5344, "*", ["ExecuteCallableNV"]),
  (5358, "*", ["TypeCooperativeMatrixNV"]),
  (5359, "CooperativeMatrix*NV", ["Load Store MulAdd Length"]),
  (5364, "*InvocationInterlockEXT", ["Begin End"]),
  (5380, "*", ["DemoteToHelperInvocation IsHelperInvocationEXT"]),
  (5391, "Convert*NV", ["UToImage UToSampler ImageToU SamplerToU UToSampledImage",
    "SampledImageToU"]),
  (5397, "*", ["SamplerImageAddressingModeNV"]),
  (5571, "Subgroup*INTEL", ["Shuffle ShuffleDown ShuffleUp ShuffleXor BlockRead BlockWrite",
    "ImageBlockRead ImageBlockWrite"]),
  (5580, "SubgroupImageMediaBlock*INTEL", ["Read Write"]),
  (5585, "*INTEL", ["UCountLeadingZeros UCountTrailingZeros AbsISub AbsUSub IAddSat UAddSat",
    "IAverage UAverage IAverageRounded UAverageRounded ISubSat USubSat IMul32x16 UMul32x16"]),
  (5600, "*INTEL", ["ConstantFunctionPointer FunctionPointerCall"]),
  (5609, "Asm*", ["TargetINTEL INTEL CallINTEL"]),
  (5614, "AtomicF*EXT", ["Min Max"]),
  (5630, "*", ["AssumeTrueKHR ExpectKHR DecorateString MemberDecorateString"]),
  (5699, "*ImageINTEL", ["Vme TypeVme"]),
  (5701, "TypeAvc*INTEL", ["ImePayload RefPayload SicPayload McePayload MceResult ImeResult",
    "ImeResultSingleReferenceStreamout ImeResultDualReferenceStreamout",
    "ImeSingleReferenceStreamin ImeDualReferenceStreamin RefResult SicResult"]),
  (5713, "SubgroupAvcMce*PenaltyINTEL", ["GetDefaultInterBaseMultiReference",
    "SetInterBaseMultiReference GetDefaultInterShape SetInterShape GetDefaultInterDirection",
    "SetInterDirection GetDefaultIntraLumaShape"]),
  (5720, "SubgroupAvcMceGetDefault*CostTableINTEL", ["InterMotionVector HighPenalty",
    "MediumPenalty LowPenalty"]),
  (5724, "SubgroupAvcMce*INTEL", ["SetMotionVectorCostFunction GetDefaultIntraLumaModePenalty",
    "GetDefaultNonDcLumaIntraPenalty GetDefaultIntraChromaModeBasePenalty SetAcOnlyHaar",
    "SetSourceInterlacedFieldPolarity SetSingleReferenceInterlacedFieldPolarity",
    "SetDualReferenceInterlacedFieldPolarities ConvertToImePayload ConvertToImeResult",
    "ConvertToRefPayload ConvertToRefResult ConvertToSicPayload ConvertToSicResult",
    "GetMotionVectors GetInterDistortions GetBestInterDistortions"]),
  (5741, "SubgroupAvcMceGetInter*INTEL", ["MajorShape MinorShape Directions MotionVectorCount",
    "ReferenceIds ReferenceInterlacedFieldPolarities"]),
  (5747, "SubgroupAvcIme*INTEL", ["Initialize SetSingleReference SetDualReference RefWindowSize",
    "AdjustRefOffset ConvertToMcePayload SetMaxMotionVectorCount SetUnidirectionalMixDisable",
    "SetEarlySearchTerminationThreshold SetWeightedSad"]),
  (5757, "SubgroupAvcImeEvaluateWith*INTEL", ["SingleReference DualReference",
    "SingleReferenceStreamin DualReferenceStreamin SingleReferenceStreamout",
    "DualReferenceStreamout SingleReferenceStreaminout DualReferenceStreaminout"]),
  (5765, "SubgroupAvcIme*INTEL", ["ConvertToMceResult GetSingleReferenceStreamin",
    "GetDualReferenceStreamin StripSingleReferenceStreamout StripDualReferenceStreamout"]),
  (5770, "SubgroupAvcImeGetStreamoutSingleReferenceMajorShape*INTEL", ["MotionVectors",
    "Distortions ReferenceIds"]),
  (5773, "SubgroupAvcImeGetStreamoutDualReferenceMajorShape*INTEL", ["MotionVectors Distortions",
    "ReferenceIds"]),
  (5776, "SubgroupAvc*INTEL", ["ImeGetBorderReached ImeGetTruncatedSearchIndication",
    "ImeGetUnidirectionalEarlySearchTermination ImeGetWeightingPatternMinimumMotionVector",
    "ImeGetWeightingPatternMinimumDistortion FmeInitialize BmeInitialize RefConvertToMcePayload",
    "RefSetBidirectionalMixDisable RefSetBilinearFilterEnable RefEvaluateWithSingleReference",
    "RefEvaluateWithDualReference RefEvaluateWithMultiReference",
    "RefEvaluateWithMultiReferenceInterlaced RefConvertToMceResult"]),
  (5791, "SubgroupAvcSic*INTEL", ["Initialize ConfigureSkc ConfigureIpeLuma",
    "ConfigureIpeLumaChroma GetMotionVectorMask ConvertToMcePayload SetIntraLumaShapePenalty",
    "SetIntraLumaModeCostFunction SetIntraChromaModeCostFunction SetBilinearFilterEnable",
    "SetSkcForwardTransformEnable SetBlockBasedRawSkipSad EvaluateIpe",
    "EvaluateWithSingleReference EvaluateWithDualReference EvaluateWithMultiReference",
    "EvaluateWithMultiReferenceInterlaced ConvertToMceResult GetIpeLumaShape",
    "GetBestIpeLumaDistortion GetBestIpeChromaDistortion GetPackedIpeLumaModes GetIpeChromaMode",
    "GetPackedSkcLumaCountThreshold GetPackedSkcLumaSumThreshold GetInterRawSads"]),
  (5818, "*INTEL", ["VariableLengthArray SaveMemory RestoreMemory"]),
  (5840, "ArbitraryFloat*INTEL", ["SinCosPi Cast CastFromInt CastToInt"]),
  (5846, "ArbitraryFloat*INTEL", ["Add Sub Mul Div GT GE LT LE EQ Recip RSqrt Cbrt Hypot Sqrt",
    "Log Log2 Log10 Log1p Exp Exp2 Exp10 Expm1 Sin Cos SinCos SinPi CosPi ASin ASinPi ACos",
    "ACosPi ATan ATanPi ATan2 Pow PowR PowN"]),
  (5887, "*", ["LoopControlINTEL"]),
  (5911, "Alias*DeclINTEL", ["Domain Scope ScopeList"]),
  (5923, "Fixed*INTEL", ["Sqrt Recip Rsqrt Sin Cos SinCos SinPi CosPi SinCosPi Log Exp"]),
  (5934, "*", ["PtrCastToCrossWorkgroupINTEL"]),
  (5938, "*", ["CrossWorkgroupCastToPtrINTEL"]),
  (5946, "*PipeBlockingINTEL", ["Read Write"]),
  (5949, "*", ["FPGARegINTEL"]),
  (6016, "RayQueryGetRay*KHR", ["TMin Flags"]),
  (6018, "RayQueryGetIntersection*KHR", ["T InstanceCustomIndex InstanceId",
    "InstanceShaderBindingTableRecordOffset GeometryIndex PrimitiveIndex Barycentrics FrontFace",
    "CandidateAABBOpaque ObjectRayDirection ObjectRayOrigin"]),
  (6029, "RayQueryGet*KHR", ["WorldRayDirection WorldRayOrigin IntersectionObjectToWorld",
    "IntersectionWorldToObject"]),
  (6035, "*", ["AtomicFAddEXT"]),
  (6086, "*", ["TypeBufferSurfaceINTEL"]),
  (6090, "*ContinuedINTEL", ["TypeStruct ConstantComposite SpecConstantComposite"]),
  (6116, "Convert*INTEL", ["FToBF16 BF16ToF"]),
  (6142, "ControlBarrier*INTEL", ["Arrive Wait"]),
  (6401, "Group*KHR", ["IMul FMul BitwiseAnd BitwiseOr BitwiseXor LogicalAnd LogicalOr",
    "LogicalXor"])]

/-- The name in one of some runs. -/
def nameIn? (runs : List (Nat × String × List String)) (code : Nat) : Option String :=
  runs.findSome? fun (first, shape, parts) =>
    if first ≤ code then ((parts.flatMap (·.splitOn " "))[code - first]?).map (shape.replace "*" ·)
    else none

/-- The name of an opcode; one without a name is called by its number. -/
def text (op : Opcode) : String := (nameIn? nameRuns op.code.toNat).getD s!"{op.code.toNat}"

end Shader.Assembly.Opcode
