import SpirvRules.Diagnostic.Report
import SpirvRules.Index.TypeView
import SpirvRules.Rule.Basic

/-!
# Decorations of single kinds

Three kinds of decorations have rules of their own on the types and uses of what they are on.
-/

set_option autoImplicit false

namespace SpirvRules

/-!
### Components

A location has four components of 32 bits. A value starting at some component has to end within the
location; one of 64 bits takes two components for each of its own, and starts at an even one. Where
the end is past the largest word it cannot be computed, and nothing is reported.
-/

inductive ComponentFault where
  | notNumeric
  | aboveThree
  | tooWide
  | oddStart
  | tooLong (first last : UInt32) (wide : Bool)
  | overflow
  deriving DecidableEq

def ComponentFault.report? (id : Id) : ComponentFault → Option Report
  | .notNumeric => some <| .ids "Component decoration specified for invalid type" id (vuid 4924)
  | .aboveThree =>
    some <| .data "Component decoration value must not be greater than 3" id (vuid 4920)
  | .tooWide =>
    some <| .data "Component decoration only allowed on 64-bit scalar and 2-component vector" id
      (vuid 7703)
  | .oddStart =>
    some <| .data "Component decoration value must not be 1 or 3 for 64-bit data types" id
      (vuid 4923)
  | .tooLong first last wide =>
    some <| .data (s!"Sequence of components starting with {first} and ending with {last} gets " ++
      "larger than 3") id (vuid (if wide then 4922 else 4921))
  | .overflow => none
where
  vuid (number : Nat) : Option Vuid := some ⟨"Component", number⟩

namespace NumericShape

/-- The components of a location that a value takes. Of wide numbers there are two at most where
this is asked. -/
def consumed (s : NumericShape) : UInt32 := if s.width = 64 then 2 * s.count else s.count

def componentFault? (s : NumericShape) (first : UInt32) : Option ComponentFault :=
  if 3 < first then some .aboveThree
  else if s.width = 64 ∧ 2 < s.count then some .tooWide
  else if s.width = 64 ∧ first % 2 = 1 then some .oddStart
  else
    match Word.add? first s.consumed with
    | none => some .overflow
    | some stop => if 4 < stop then some (.tooLong first (stop - 1) (s.width = 64)) else none

end NumericShape

/-!
### Rounding modes

Outside kernels a rounding mode decorates a conversion between floating-point widths whose result is
only ever stored, as the object, through a pointer to 16-bit floats in memory that an interface or a
buffer shares; further conversions, and uses that are there for debugging only, do not count.
-/

inductive RoundingFault where
  | notConversion
  | mode
  | notStored
  | notHalf
  | storage
  deriving DecidableEq

def RoundingFault.report (id : Id) : RoundingFault → Report
  | .notConversion =>
    .ids ("FPRoundingMode decoration can be applied only to a width-only conversion " ++
      "instruction for floating-point object.") id
  | .mode =>
    .ids "In Vulkan, the FPRoundingMode mode must only by RTE or RTZ." id
      (some ⟨"FPRoundingMode", 4675⟩)
  | .notStored => store ""
  | .notHalf =>
    store " storing through a pointer to a 16-bit floating-point scalar or vector object"
  | .storage =>
    store (" in the StorageBuffer, PhysicalStorageBuffer, Uniform, PushConstant, Input, or " ++
      "Output Storage Classes")
where
  store (detail : String) : Report :=
    .ids ("FPRoundingMode decoration can be applied only to the Object operand of an " ++
      s!"OpStore{detail}.") id

namespace Rounding

def storage : List StorageClass :=
  [.storageBuffer, .physicalStorageBuffer, .uniform, .pushConstant, .input, .output]

def nonSemantic : String := "NonSemantic."

def isNonSemantic (i : Instruction) : Bool :=
  match i.operand? 0 with
  | some (.text name) => nonSemantic.toList.isPrefixOf name.toList
  | _ => false

def isDebug (ix : Index) (i : Instruction) : Bool :=
  match i.op with
  | .opLine | .opNoLine => true
  | .opExtInst => ((i.idAt? 0).bind ix.inst?).any isNonSemantic
  | _ => false

def isHalf (s : NumericShape) : Bool := s.floating && s.width = 16

def storeFault? (ix : Index) (store : Instruction) : Option RoundingFault :=
  match (store.idAt? 0).bind ix.pointer? with
  | none => some .notStored
  | some (c, pointee) =>
    if !(ix.numericShape? pointee).any isHalf then some .notHalf
    else if c ∉ storage then some .storage
    else none

def useFault? (ix : Index) (u : Use) : Option RoundingFault :=
  if u.inst.op = .opFConvert ∨ isDebug ix u.inst then none
  else if u.inst.op ≠ .opStore ∨ u.operand ≠ 1 then some .notStored
  else storeFault? ix u.inst

def modeAllowed : Option RoundingMode → Bool
  | some .rte | some .rtz => true
  | _ => false

def fault? (cx : Context) (id : Id) (d : Decoration) : Option RoundingFault :=
  if cx.index.module.declares .kernel then none
  else if cx.index.op? id ≠ some .opFConvert then some .notConversion
  else if cx.isVulkan ∧ !modeAllowed d.roundingMode? then some .mode
  else (cx.index.usesOfId id).findSome? (useFault? cx.index)

end Rounding

/-!
### Uniformity

A value may be declared uniform, or uniform within a scope. The scope is a constant of 32 bits, and
has to be known.
-/

inductive UniformityFault where
  | version
  | notObject (kind : DecorationKind)
  | void (kind : DecorationKind)
  | noScope
  | scopeType (scope : Id)
  | scopeUnknown (scope : Id)
  | scopeValue (value : UInt32)
  | scopeVulkan
  deriving DecidableEq

def UniformityFault.report (id : Id) : UniformityFault → Report
  | .version => .version "UniformId decoration requires SPIR-V version 1.4 or later" (some id)
  | .notObject kind => .ids s!"{kind.name} decoration applied to a non-object" id
  | .void kind => .ids s!"{kind.name} decoration applied to a value with void type" id
  | .noScope => .binary "UniformId decoration is missing its scope operand" (some id)
  | .scopeType scope => .data s!"UniformId scope <id> {scope} must be a 32-bit integer scalar" id
  | .scopeUnknown scope => .data s!"UniformId scope <id> {scope} must be an OpConstant" id
  | .scopeValue value => .data s!"Invalid scope value: {value}" id
  | .scopeVulkan =>
    .data ("UniformId: in Vulkan environment, Execution Scope is limited to Workgroup and " ++
      "Subgroup") id (some ⟨"None", 4636⟩)

namespace Uniformity

def isInt32 : TypeView → Bool
  | .int width _ => width = 32
  | _ => false

def largestScope : UInt32 := 6

def workgroupScope : UInt32 := 2

def subgroupScope : UInt32 := 3

def scopeFault? (cx : Context) (scope : Id) : Option UniformityFault :=
  if !((cx.index.typeOf? scope).bind cx.index.type?).any isInt32 then some (.scopeType scope)
  else
    match cx.index.constant? scope with
    | none => some (.scopeUnknown scope)
    | some v =>
      if largestScope < v then some (.scopeValue v)
      else if cx.isVulkan ∧ v ≠ workgroupScope ∧ v ≠ subgroupScope then some .scopeVulkan
      else none

def objectFault? (cx : Context) (id : Id) (kind : DecorationKind) : Option UniformityFault :=
  match cx.index.typeOf? id with
  | none => some (.notObject kind)
  | some t => if cx.index.type? t = some .void then some (.void kind) else none

def fault? (cx : Context) (id : Id) (d : Decoration) : Option UniformityFault :=
  if d.kind ≠ .uniformId then objectFault? cx id d.kind
  else if cx.index.version.before .v1_4 then some .version
  else objectFault? cx id d.kind <|>
    match d.id? with
    | none => some .noScope
    | some scope => scopeFault? cx scope

end Uniformity

end SpirvRules
