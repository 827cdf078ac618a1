import SpirvRules.Decoration.Table
import SpirvRules.Enumerant.DecorationKind
import SpirvRules.Index.Basic

/-!
# The annotation section

Instructions of the section put decorations on ids directly, or fill a group and put the whole group
on ids. A group counts with all that fills it, wherever in the section it is put to use; the records
of groups come after the direct ones. A group is no value, and nothing else may name it.
-/

set_option autoImplicit false

namespace SpirvRules

inductive TableFault where
  | malformed (op : Opcode)
  | undefinedTarget (op : Opcode) (target : Id)
  | groupTarget (op : Opcode) (target : Id)
  | takesIds (target : Id)
  | takesNoIds (target : Id)
  | takesNoStrings (op : Opcode) (target : Id)
  | onlyOnMembers (kind : DecorationKind) (target : Id)
  | neverOnMembers (kind : DecorationKind) (target : Id)
  | undefinedOperand (operand target : Id)
  | operandTooLate (operand target : Id)
  | notStruct (op : Opcode) (target : Id)
  | noSuchMember (op : Opcode) (target : Id) (member count : Nat)
  | notGroup (op : Opcode) (group : Id)
  | groupUsed (group : Id)
  deriving DecidableEq

def TableFault.report : TableFault → Report
  | .malformed op => .binary s!"{op.spelling} has malformed operands"
  | .undefinedTarget op t => .binary s!"{op.spelling} target id {t} is not defined" (some t)
  | .groupTarget op t => .ids s!"{op.spelling} may not target OpDecorationGroup <id> {t}" t
  | .takesIds t => .ids "Decorations taking ID parameters may not be used with OpDecorate" t
  | .takesNoIds t =>
    .ids "Decorations that don't take ID parameters may not be used with OpDecorateId" t
  | .takesNoStrings op t =>
    .ids s!"Decorations that don't take string parameters may not be used with {op.spelling}" t
  | .onlyOnMembers kind t => .ids s!"{kind.name} can only be applied to structure members" t
  | .neverOnMembers kind t => .ids s!"{kind.name} cannot be applied to structure members" t
  | .undefinedOperand o t => .binary s!"OpDecorateId operand id {o} is not defined" (some t)
  | .operandTooLate o t =>
    .ids s!"OpDecorateId operand id {o} must be defined before its target id {t}" t
  | .notStruct op t => .ids s!"{op.spelling} Structure type <id> {t} is not a struct type." t
  | .noSuchMember op t member count =>
    let largest := (count : Int) - 1
    .ids (s!"Index {member} provided in {op.spelling} for struct <id> {t} is out of bounds. " ++
      s!"The structure has {count} members. Largest valid index is {largest}.") t
  | .notGroup op g => .ids s!"{op.spelling} Decoration group <id> {g} is not a decoration group." g
  | .groupUsed g =>
    .ids ("Result id of OpDecorationGroup can only be targeted by OpName, OpGroupDecorate, " ++
      "OpDecorate, and OpGroupMemberDecorate") g

namespace Table

def target (ix : Index) (op : Opcode) (id : Id) : Except TableFault Located :=
  match ix.def? id with
  | some l => .ok l
  | none => .error (.undefinedTarget op id)

def value (ix : Index) (op : Opcode) (id : Id) : Except TableFault Located := do
  let l ← target ix op id
  if l.inst.op = .opDecorationGroup then throw (.groupTarget op id)
  return l

def checkMember (ix : Index) (op : Opcode) (id : Id) (member : Nat) : Except TableFault Unit :=
  match ix.type? id with
  | some (.struct members) =>
    if member < members.length then .ok ()
    else .error (.noSuchMember op id member members.length)
  | _ => .error (.notStruct op id)

def decorate (ix : Index) (id : Id) (kind : DecorationKind) : Except TableFault Unit := do
  let l ← target ix .opDecorate id
  if kind.takesIds then throw (.takesIds id)
  if l.inst.op ≠ .opDecorationGroup ∧ kind.onlyOnMembers then throw (.onlyOnMembers kind id)

/-- An id parameter has to be defined before what it decorates. -/
def checkIdParam (ix : Index) (l : Located) (id param : Id) : Except TableFault Unit :=
  match ix.def? param with
  | none => .error (.undefinedOperand param id)
  | some p => if p.position < l.position then .ok () else .error (.operandTooLate param id)

def decorateId (ix : Index) (id : Id) (kind : DecorationKind) (params : List Operand) :
    Except TableFault Unit := do
  let l ← value ix .opDecorateId id
  if !kind.takesIds then throw (.takesNoIds id)
  (params.filterMap Operand.anyId?).forM (checkIdParam ix l id)

def decorateString (ix : Index) (id : Id) (kind : DecorationKind) : Except TableFault Unit := do
  let _ ← value ix .opDecorateString id
  if !kind.takesStrings then throw (.takesNoStrings .opDecorateString id)

def decorateMember (ix : Index) (op : Opcode) (id : Id) (member : Nat) (kind : DecorationKind) :
    Except TableFault Unit := do
  checkMember ix op id member
  if kind.neverOnMembers then throw (.neverOnMembers kind id)
  if op = .opMemberDecorateString ∧ !kind.takesStrings then throw (.takesNoStrings op id)

def directRecord (ix : Index) (i : Instruction) : Except TableFault (Option Record) :=
  match i.op with
  | .opDecorate | .opDecorateId | .opDecorateString =>
    match i.operands with
    | .id t :: .decoration kind :: params => do
      match i.op with
      | .opDecorate => decorate ix t kind
      | .opDecorateId => decorateId ix t kind params
      | _ => decorateString ix t kind
      return some (t, .ofOperands kind params none)
    | _ => .error (.malformed i.op)
  | .opMemberDecorate | .opMemberDecorateString =>
    match i.operands with
    | .id t :: .literal m :: .decoration kind :: params => do
      decorateMember ix i.op t m.toNat kind
      return some (t, .ofOperands kind params (some m.toNat))
    | _ => .error (.malformed i.op)
  | _ => .ok none

def groupRecords (ix : Index) (ds : List Decoration) (targets : List Operand) :
    Except TableFault (List Record) := do
  let records ← targets.mapM fun o => do
    let some t := o.anyId? | throw (.malformed .opGroupDecorate)
    let _ ← value ix .opGroupDecorate t
    return ds.map (t, ·)
  return records.flatten

def groupMemberRecords (ix : Index) (ds : List Decoration) :
    List Operand → Except TableFault (List Record)
  | [] => .ok []
  | .id t :: .literal m :: rest => do
    let _ ← value ix .opGroupMemberDecorate t
    checkMember ix .opGroupMemberDecorate t m.toNat
    let here := (ds.filter (·.member.isNone)).map fun d => (t, d.onMember m.toNat)
    return here ++ (← groupMemberRecords ix ds rest)
  | _ => .error (.malformed .opGroupMemberDecorate)

def groups (ix : Index) : List Id :=
  ix.module.annotations.filterMap fun i => if i.op = .opDecorationGroup then i.result else none

def expand (ix : Index) (direct : Table) (i : Instruction) : Except TableFault (List Record) :=
  match i.operands with
  | .id g :: rest =>
    if g ∉ groups ix then .error (.notGroup i.op g)
    else if i.op = .opGroupDecorate then groupRecords ix (direct.decorations g) rest
    else if rest.length % 2 = 1 then .error (.malformed i.op)
    else groupMemberRecords ix (direct.decorations g) rest
  | _ => .error (.malformed i.op)

def usesGroup (i : Instruction) : Bool := i.op = .opGroupDecorate || i.op = .opGroupMemberDecorate

/-- A group named where values are named: outside functions first, then inside. -/
def misusedGroup? (ix : Index) : Option Id :=
  let m := ix.module
  let gs := groups ix
  let named := (m.globals ++ m.entryPoints ++ m.executionModes).flatMap fun i =>
    i.operands.filterMap Operand.anyId?
  (named.find? (· ∈ gs)).or (gs.find? fun g => !(ix.usesOfId g).isEmpty)

def records (ix : Index) : Except TableFault (List Record) := do
  let direct := (← ix.module.annotations.mapM (directRecord ix)).filterMap id
  let filled := ofRecords direct
  let expanded ← (ix.module.annotations.filter usesGroup).mapM (expand ix filled)
  if let some g := misusedGroup? ix then throw (.groupUsed g)
  return direct ++ expanded.flatten

def ofIndex (ix : Index) : Except TableFault Table := do return ofRecords (← records ix)

end Table

end SpirvRules
