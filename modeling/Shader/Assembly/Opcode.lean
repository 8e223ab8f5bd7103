/-!
# Opcodes

The opcodes of the target instruction set are numbers of sixteen bits.  Those that the library
emits have names here.
-/

namespace Shader.Assembly

structure Opcode where
  code : UInt16
deriving DecidableEq, Repr

namespace Opcode

def name : Opcode := ⟨5⟩
def memberName : Opcode := ⟨6⟩
def extInstImport : Opcode := ⟨11⟩
def extInst : Opcode := ⟨12⟩
def memoryModel : Opcode := ⟨14⟩
def entryPoint : Opcode := ⟨15⟩
def executionMode : Opcode := ⟨16⟩
def capability : Opcode := ⟨17⟩
def typeVoid : Opcode := ⟨19⟩
def typeBool : Opcode := ⟨20⟩
def typeInt : Opcode := ⟨21⟩
def typeFloat : Opcode := ⟨22⟩
def typeVector : Opcode := ⟨23⟩
def typeMatrix : Opcode := ⟨24⟩
def typeArray : Opcode := ⟨28⟩
def typeRuntimeArray : Opcode := ⟨29⟩
def typeStruct : Opcode := ⟨30⟩
def typePointer : Opcode := ⟨32⟩
def typeFunction : Opcode := ⟨33⟩
def constantTrue : Opcode := ⟨41⟩
def constantFalse : Opcode := ⟨42⟩
def constant : Opcode := ⟨43⟩
def constantComposite : Opcode := ⟨44⟩
def constantNull : Opcode := ⟨46⟩
def specConstantTrue : Opcode := ⟨48⟩
def specConstantFalse : Opcode := ⟨49⟩
def specConstant : Opcode := ⟨50⟩
def function : Opcode := ⟨54⟩
def functionParameter : Opcode := ⟨55⟩
def functionEnd : Opcode := ⟨56⟩
def functionCall : Opcode := ⟨57⟩
def «variable» : Opcode := ⟨59⟩
def load : Opcode := ⟨61⟩
def store : Opcode := ⟨62⟩
def accessChain : Opcode := ⟨65⟩
def arrayLength : Opcode := ⟨68⟩
def decorate : Opcode := ⟨71⟩
def memberDecorate : Opcode := ⟨72⟩
def vectorExtractDynamic : Opcode := ⟨77⟩
def vectorShuffle : Opcode := ⟨79⟩
def compositeConstruct : Opcode := ⟨80⟩
def compositeExtract : Opcode := ⟨81⟩
def transpose : Opcode := ⟨84⟩
def convertFToU : Opcode := ⟨109⟩
def convertFToS : Opcode := ⟨110⟩
def convertSToF : Opcode := ⟨111⟩
def convertUToF : Opcode := ⟨112⟩
def uConvert : Opcode := ⟨113⟩
def sConvert : Opcode := ⟨114⟩
def fConvert : Opcode := ⟨115⟩
def bitcast : Opcode := ⟨124⟩
def sNegate : Opcode := ⟨126⟩
def fNegate : Opcode := ⟨127⟩
def iAdd : Opcode := ⟨128⟩
def fAdd : Opcode := ⟨129⟩
def iSub : Opcode := ⟨130⟩
def fSub : Opcode := ⟨131⟩
def iMul : Opcode := ⟨132⟩
def fMul : Opcode := ⟨133⟩
def uDiv : Opcode := ⟨134⟩
def sDiv : Opcode := ⟨135⟩
def fDiv : Opcode := ⟨136⟩
def uMod : Opcode := ⟨137⟩
def sRem : Opcode := ⟨138⟩
def fRem : Opcode := ⟨140⟩
def vectorTimesScalar : Opcode := ⟨142⟩
def matrixTimesScalar : Opcode := ⟨143⟩
def vectorTimesMatrix : Opcode := ⟨144⟩
def matrixTimesVector : Opcode := ⟨145⟩
def matrixTimesMatrix : Opcode := ⟨146⟩
def dot : Opcode := ⟨148⟩
def logicalEqual : Opcode := ⟨164⟩
def logicalNotEqual : Opcode := ⟨165⟩
def logicalOr : Opcode := ⟨166⟩
def logicalAnd : Opcode := ⟨167⟩
def logicalNot : Opcode := ⟨168⟩
def select : Opcode := ⟨169⟩
def iEqual : Opcode := ⟨170⟩
def iNotEqual : Opcode := ⟨171⟩
def uGreaterThan : Opcode := ⟨172⟩
def sGreaterThan : Opcode := ⟨173⟩
def uGreaterThanEqual : Opcode := ⟨174⟩
def sGreaterThanEqual : Opcode := ⟨175⟩
def uLessThan : Opcode := ⟨176⟩
def sLessThan : Opcode := ⟨177⟩
def uLessThanEqual : Opcode := ⟨178⟩
def sLessThanEqual : Opcode := ⟨179⟩
def fOrdEqual : Opcode := ⟨180⟩
def fUnordNotEqual : Opcode := ⟨183⟩
def fOrdLessThan : Opcode := ⟨184⟩
def fOrdGreaterThan : Opcode := ⟨186⟩
def fOrdLessThanEqual : Opcode := ⟨188⟩
def fOrdGreaterThanEqual : Opcode := ⟨190⟩
def shiftRightLogical : Opcode := ⟨194⟩
def shiftRightArithmetic : Opcode := ⟨195⟩
def shiftLeftLogical : Opcode := ⟨196⟩
def bitwiseOr : Opcode := ⟨197⟩
def bitwiseXor : Opcode := ⟨198⟩
def bitwiseAnd : Opcode := ⟨199⟩
def not : Opcode := ⟨200⟩
def controlBarrier : Opcode := ⟨224⟩
def atomicLoad : Opcode := ⟨227⟩
def atomicStore : Opcode := ⟨228⟩
def atomicExchange : Opcode := ⟨229⟩
def atomicCompareExchange : Opcode := ⟨230⟩
def atomicIAdd : Opcode := ⟨234⟩
def atomicISub : Opcode := ⟨235⟩
def atomicSMin : Opcode := ⟨236⟩
def atomicUMin : Opcode := ⟨237⟩
def atomicSMax : Opcode := ⟨238⟩
def atomicUMax : Opcode := ⟨239⟩
def atomicAnd : Opcode := ⟨240⟩
def atomicOr : Opcode := ⟨241⟩
def atomicXor : Opcode := ⟨242⟩
def phi : Opcode := ⟨245⟩
def loopMerge : Opcode := ⟨246⟩
def selectionMerge : Opcode := ⟨247⟩
def label : Opcode := ⟨248⟩
def branch : Opcode := ⟨249⟩
def branchConditional : Opcode := ⟨250⟩
def switch : Opcode := ⟨251⟩
def kill : Opcode := ⟨252⟩
def «return» : Opcode := ⟨253⟩
def returnValue : Opcode := ⟨254⟩
def unreachable : Opcode := ⟨255⟩

/-- The opcodes that end a block. -/
def terminators : List Opcode :=
  [branch, branchConditional, switch, «return», returnValue, kill, unreachable]

def isTerminator (op : Opcode) : Bool := terminators.contains op

end Opcode

/-- An instruction of the extended set of mathematical functions. -/
structure ExtendedOp where
  word : UInt32
deriving DecidableEq, Repr

namespace ExtendedOp

def roundEven : ExtendedOp := ⟨2⟩
def trunc : ExtendedOp := ⟨3⟩
def fAbs : ExtendedOp := ⟨4⟩
def sAbs : ExtendedOp := ⟨5⟩
def fSign : ExtendedOp := ⟨6⟩
def sSign : ExtendedOp := ⟨7⟩
def floor : ExtendedOp := ⟨8⟩
def ceil : ExtendedOp := ⟨9⟩
def fract : ExtendedOp := ⟨10⟩
def radians : ExtendedOp := ⟨11⟩
def degrees : ExtendedOp := ⟨12⟩
def sin : ExtendedOp := ⟨13⟩
def cos : ExtendedOp := ⟨14⟩
def tan : ExtendedOp := ⟨15⟩
def asin : ExtendedOp := ⟨16⟩
def acos : ExtendedOp := ⟨17⟩
def atan : ExtendedOp := ⟨18⟩
def sinh : ExtendedOp := ⟨19⟩
def cosh : ExtendedOp := ⟨20⟩
def tanh : ExtendedOp := ⟨21⟩
def atan2 : ExtendedOp := ⟨25⟩
def pow : ExtendedOp := ⟨26⟩
def exp : ExtendedOp := ⟨27⟩
def log : ExtendedOp := ⟨28⟩
def exp2 : ExtendedOp := ⟨29⟩
def log2 : ExtendedOp := ⟨30⟩
def sqrt : ExtendedOp := ⟨31⟩
def inverseSqrt : ExtendedOp := ⟨32⟩
def determinant : ExtendedOp := ⟨33⟩
def fMin : ExtendedOp := ⟨37⟩
def uMin : ExtendedOp := ⟨38⟩
def sMin : ExtendedOp := ⟨39⟩
def fMax : ExtendedOp := ⟨40⟩
def uMax : ExtendedOp := ⟨41⟩
def sMax : ExtendedOp := ⟨42⟩
def fClamp : ExtendedOp := ⟨43⟩
def uClamp : ExtendedOp := ⟨44⟩
def sClamp : ExtendedOp := ⟨45⟩
def fMix : ExtendedOp := ⟨46⟩
def step : ExtendedOp := ⟨48⟩
def smoothStep : ExtendedOp := ⟨49⟩
def fma : ExtendedOp := ⟨50⟩
def length : ExtendedOp := ⟨66⟩
def distance : ExtendedOp := ⟨67⟩
def cross : ExtendedOp := ⟨68⟩
def normalize : ExtendedOp := ⟨69⟩
def reflect : ExtendedOp := ⟨71⟩

end ExtendedOp

end Shader.Assembly
