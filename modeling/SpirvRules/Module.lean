import SpirvRules.Enumerant.BuiltIn
import SpirvRules.Enumerant.DecorationKind
import SpirvRules.Enumerant.Opcode
import SpirvRules.Enumerant.Parameter
import SpirvRules.Target.Env
import SpirvRules.Word

/-!
# Modules

A module is its sections of instructions, and instructions are an opcode with operands. The order of
the binary form runs through all of them.
-/

set_option autoImplicit false

namespace SpirvRules

/-!
### Operands

What stands behind the result of an instruction. Three kinds of operand name an id; enumerants that
no rule reads are kept as the name of their family and their own.
-/

inductive Operand where
  | literal (value : UInt32)
  | literal64 (value : UInt64)
  | text (value : String)
  | id (id : Id)
  | scopeId (id : Id)
  | semanticsId (id : Id)
  | extInst (number : UInt32)
  | specOp (op : Opcode)
  | mask (family : Text.MaskFamily) (bits : UInt32)
  | decoration (kind : DecorationKind)
  | builtIn (b : BuiltIn)
  | storageClass (c : StorageClass)
  | executionModel (m : ExecutionModel)
  | capability (c : Capability)
  | roundingMode (m : RoundingMode)
  | linkage (l : Linkage)
  | attribute (a : ParameterAttribute)
  | dim (name : String)
  | enumerant (family name : String)
  deriving DecidableEq

namespace Operand

def anyId? : Operand → Option Id
  | .id i | .scopeId i | .semanticsId i => some i
  | _ => none

def literal? : Operand → Option UInt32
  | .literal v => some v
  | _ => none

def describe : Operand → String
  | .literal v => s!"LiteralBit32({v})"
  | .literal64 v => s!"LiteralBit64({v})"
  | .text s => s!"LiteralString({s})"
  | .id i => s!"IdRef({i})"
  | .scopeId i => s!"IdScope({i})"
  | .semanticsId i => s!"IdMemorySemantics({i})"
  | .extInst n => s!"LiteralExtInstInteger({n})"
  | .specOp op => s!"LiteralSpecConstantOpInteger({op.name})"
  | .mask family bits =>
    let inner := family.render bits.toNat
    s!"{family.name}({family.name}({inner}))"
  | .decoration k => s!"Decoration({k.name})"
  | .builtIn b => s!"BuiltIn({b.name})"
  | .storageClass c => s!"StorageClass({c.name})"
  | .executionModel m => s!"ExecutionModel({m.name})"
  | .capability c => s!"Capability({c.name})"
  | .roundingMode m => s!"FPRoundingMode({m.name})"
  | .linkage l => s!"LinkageType({l.name})"
  | .attribute a => s!"FunctionParameterAttribute({a.name})"
  | .dim d => s!"Dim({d})"
  | .enumerant family name => s!"{family}({name})"

end Operand

/-!
### Modules

A module is read already parted into its sections. Binary order is the order of the sections, then
function by function: its head, its parameters, its blocks and its end.
-/

structure Instruction where
  op : Opcode
  /-- The type of the result, not counted among the operands. -/
  resultType : Option Id
  result : Option Id
  operands : List Operand
  deriving DecidableEq

namespace Instruction

def idOperands (i : Instruction) : List (Nat × Id) :=
  i.operands.zipIdx.filterMap fun (o, n) => o.anyId?.map (n, ·)

def operand? (i : Instruction) (n : Nat) : Option Operand := i.operands[n]?

def idAt? (i : Instruction) (n : Nat) : Option Id := (i.operand? n).bind Operand.anyId?

def literalAt? (i : Instruction) (n : Nat) : Option UInt32 := (i.operand? n).bind Operand.literal?

end Instruction

structure Block where
  label : Option Instruction := none
  body : List Instruction := []

structure Function where
  head : Option Instruction := none
  parameters : List Instruction := []
  blocks : List Block := []
  tail : Option Instruction := none

structure Module where
  version : Option Version := none
  capabilities : List Instruction := []
  extensions : List Instruction := []
  extInstImports : List Instruction := []
  memoryModel : Option Instruction := none
  entryPoints : List Instruction := []
  executionModes : List Instruction := []
  debugStrings : List Instruction := []
  debugNames : List Instruction := []
  annotations : List Instruction := []
  /-- Types, constants and global variables. -/
  globals : List Instruction := []
  functions : List Function := []

namespace Block

def instructions (b : Block) : List Instruction := b.label.toList ++ b.body

end Block

namespace Function

def instructions (f : Function) : List Instruction :=
  f.head.toList ++ f.parameters ++ f.blocks.flatMap Block.instructions ++ f.tail.toList

end Function

namespace Module

def instructions (m : Module) : List Instruction :=
  m.capabilities ++ m.extensions ++ m.extInstImports ++ m.memoryModel.toList ++ m.entryPoints ++
    m.executionModes ++ m.debugStrings ++ m.debugNames ++ m.annotations ++ m.globals ++
    m.functions.flatMap Function.instructions

def statedVersion (m : Module) : Version := m.version.getD .unstated

def declares (m : Module) (c : Capability) : Bool :=
  m.capabilities.any fun i => i.operands.head? = some (.capability c)

def hasExtension (m : Module) (name : String) : Bool :=
  m.extensions.any fun i => i.operands.head? = some (.text name)

end Module

/-!
### The instruction stream

A module's instructions in binary order, each with its place and the function it stands in. A
function begins with its `OpFunction`, whose result names it, and ends after its `OpFunctionEnd`.
-/

structure Located where
  inst : Instruction
  position : Nat
  /-- The function the instruction stands in, none outside functions. -/
  function : Option Id

namespace Located

/-- The function an instruction stands in, given the one its predecessor left open. -/
def enter (current : Option Id) (i : Instruction) : Option Id :=
  if i.op = .opFunction then i.result else current

/-- The function left open after an instruction that stands in `current`. -/
def leave (current : Option Id) (i : Instruction) : Option Id :=
  if i.op = .opFunctionEnd then none else current

def scan : Nat → Option Id → List Instruction → List Located
  | _, _, [] => []
  | n, current, i :: rest =>
    let here := enter current i
    ⟨i, n, here⟩ :: scan (n + 1) (leave here i) rest

def mentions (l : Located) : List (Id × Id) :=
  match l.function with
  | some f => l.inst.idOperands.map fun (_, i) => (f, i)
  | none => []

def call? (l : Located) : Option (Id × Id) :=
  match l.function, l.inst.op with
  | some f, .opFunctionCall => (l.inst.idAt? 0).map (f, ·)
  | _, _ => none

end Located

def Module.stream (m : Module) : List Located := Located.scan 0 none m.instructions

end SpirvRules
