import SpirvRules.Collection
import SpirvRules.Decoration.Table
import SpirvRules.Diagnostic.Report
import SpirvRules.Index.Basic
import SpirvRules.Target.Options

/-!
# Rules on decorations

What rules look at, and the two that look at decorations only: whether one repeats or contradicts
another, and whether built-ins are all or none of a struct.
-/

set_option autoImplicit false

namespace SpirvRules

/-!
### What rules look at

Rules read the index of a module, its decorations and the options, and say of an object what their
wording needs: whether it is a variable, what block it holds, what memory it points into.
-/

structure Context where
  index : Index
  table : Table
  options : Options

namespace Context

variable (cx : Context)

def isVulkan : Bool := cx.options.targetEnv.isVulkan

def isOpenGL : Bool := cx.options.targetEnv.isOpenGL

def isVariable (id : Id) : Bool := cx.index.op? id = some .opVariable

def isMemoryObject (id : Id) : Bool :=
  cx.isVariable id || cx.index.op? id = some .opFunctionParameter

/-- The struct a type is; `arrayed` takes one array level off first, if there is one. -/
def structBehind? (type : Id) (arrayed : Bool) : Option Id :=
  let id := if arrayed then (cx.index.element? type).getD type else type
  if (cx.index.type? id).any TypeView.isStruct then some id else none

def pointsToUniformBlock (c : StorageClass) (pointee : Id) : Bool :=
  c = .uniform && cx.table.has (cx.index.stripArrays pointee) .block

def pointsToStorageBuffer (c : StorageClass) (pointee : Id) : Bool :=
  match c with
  | .storageBuffer | .physicalStorageBuffer => true
  | .uniform => cx.table.has (cx.index.stripArrays pointee) .bufferBlock
  | _ => false

def pointsToStorageImage (c : StorageClass) (pointee : Id) : Bool :=
  match c, cx.index.type? (cx.index.stripArrays pointee) with
  | .uniformConstant, some (.image _ _ sampled) => sampled = 2
  | _, _ => false

def globalVariables : List (Id × StorageClass × Id) :=
  cx.index.module.globals.filterMap fun i => do
    guard (i.op = .opVariable)
    let id ← i.result
    let c ← cx.index.variableClass? id
    let (_, pointee) ← cx.index.pointer? id
    return (id, c, pointee)

end Context

/-!
### Repetition and contradiction

On one target or one member, decorations that lay out memory may be applied once only, and some
pairs of kinds may not stand together. Whether a decoration came directly or through a group makes
no difference.
-/

inductive RepetitionFault where
  | repeated (id : Id) (member : Option Nat) (kind : DecorationKind)
  | together (id : Id) (member : Option Nat) (first second : DecorationKind)
  deriving DecidableEq

def RepetitionFault.report : RepetitionFault → Report
  | .repeated id member kind =>
    .ids s!"{subject id member} decorated with {kind.name} multiple times is not allowed." id
  | .together id member first second =>
    .ids s!"{subject id member} decorated with both {first.name} and {second.name} not allowed."
      id
where
  subject (id : Id) : Option Nat → String
    | some n => s!"ID '{id}', member '{n}'"
    | none => s!"ID '{id}'"

namespace Repetition

def once : List DecorationKind := [.offset, .arrayStride, .matrixStride, .rowMajor, .colMajor]

def exclusive : List (DecorationKind × DecorationKind) :=
  [(.rowMajor, .colMajor), (.block, .bufferBlock), (.aliased, .restrict),
   (.aliasedPointer, .restrictPointer)]

def repeated? (applied : List Decoration) : Option Decoration :=
  firstRepeat? (fun d => (d.member, d.kind)) (applied.filter (·.kind ∈ once))

def together? (ds : List Decoration) (first second : DecorationKind) : Option Decoration :=
  (ds.filter (·.kind = first)).find? fun d =>
    ds.any fun e => e.kind = second ∧ e.member = d.member

def fault? (t : Table) (id : Id) : Option RepetitionFault :=
  ((repeated? (t.applied id)).map fun d => .repeated id d.member d.kind) <|>
    exclusive.findSome? fun (first, second) =>
      (together? (t.decorations id) first second).map fun d => .together id d.member first second

def check (t : Table) : Except RepetitionFault Unit :=
  t.targets.forM fun id =>
    match fault? t id with
    | some f => .error f
    | none => .ok ()

end Repetition

/-!
### Structs of built-ins

A struct with a built-in among its members has nothing else among them, and is no part of another
struct.
-/

inductive BuiltInStructFault where
  | mixed (struct : Id)
  | nested (outer inner : Id)
  deriving DecidableEq

def BuiltInStructFault.report : BuiltInStructFault → Report
  | .mixed id =>
    .ids ("When BuiltIn decoration is applied to a structure-type member, all members of " ++
      "that structure type must also be decorated with BuiltIn (No allowed mixing of " ++
      "built-in variables and non-built-in variables within a single structure). " ++
      s!"Structure id {id} does not meet this requirement.") id
  | .nested outer inner =>
    .ids (s!"Structure <id> {inner} contains members with BuiltIn decoration. Therefore " ++
      "this structure may not be contained as a member of another structure type. " ++
      s!"Structure <id> {outer} contains structure <id> {inner}.") outer

namespace BuiltInStruct

variable (ix : Index) (t : Table)

def builtInMembers (id : Id) (count : Nat) : List Nat :=
  (List.range count).filter fun i => t.memberHas id i .builtIn

def memberCount? (id : Id) : Option Nat :=
  match ix.type? id with
  | some (.struct ms) => some ms.length
  | _ => none

def isMixed (id : Id) : Bool :=
  (memberCount? ix id).any fun n =>
    let k := (builtInMembers t id n).length
    k ≠ 0 && k ≠ n

def hasBuiltIns (id : Id) : Bool :=
  (memberCount? ix id).any fun n => !(builtInMembers t id n).isEmpty

def nestedIn? (outer : Id) : Option BuiltInStructFault :=
  let members := ((ix.type? outer).map TypeView.memberIds).getD []
  ((members.map ix.stripArrays).find? (hasBuiltIns ix t)).map (.nested outer)

def structs : List Id :=
  ix.module.globals.filterMap fun i => if i.op = .opTypeStruct then i.result else none

def check : Except BuiltInStructFault Unit := do
  if let some id := t.targets.find? (isMixed ix t) then throw (.mixed id)
  if let some f := (structs ix).findSome? (nestedIn? ix t) then throw f

end BuiltInStruct

end SpirvRules
