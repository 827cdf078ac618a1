import SpirvRules.Decoration.Table
import SpirvRules.Diagnostic.Report
import SpirvRules.Index.Basic
import SpirvRules.Layout.Measure
import Std.Data.TreeSet

/-!
# Explicit layout

A block has to say where everything in it lies: each member of a struct its offset, each array its
stride, and each member holding a matrix the matrix's stride and majorness. Types known to be
explicit are not looked into again, and need no room.
-/

set_option autoImplicit false

namespace SpirvRules

/-!
### Nested blocks

A struct decorated as a block may hold no other such struct, at whatever depth and through whatever
arrays. Type graphs may be cyclic, and a block may not hold itself either.
-/

/-- The decoration that makes a struct a block; `Block` is named first where it has both. -/
def Table.blockKind? (t : Table) (id : Id) : Option DecorationKind :=
  if t.has id .block then some .block
  else if t.has id .bufferBlock then some .bufferBlock
  else none

structure NestingFault where
  inner : Id
  innerKind : DecorationKind
  outer : Id
  outerKind : DecorationKind
  parent : Id
  deriving DecidableEq

def NestingFault.report (f : NestingFault) : Report :=
  .ids (s!"Structure id {f.inner} decorated as {f.innerKind.name} cannot be nested within " ++
    s!"another Block or BufferBlock: it is reachable from structure id {f.outer} decorated as " ++
    s!"{f.outerKind.name} through structure id {f.parent}") f.outer

namespace Nesting

structure Met where
  type : Id
  parent : Id
  deriving DecidableEq

/-- The members of a struct, the last one first. -/
def members (ix : Index) (struct : Id) : List Met :=
  match ix.type? struct with
  | some t => (t.memberIds.map fun m => ⟨m, struct⟩).reverse
  | none => []

/-- An element counts as met in the struct its array was met in. -/
def inside (ix : Index) (m : Met) : List Met :=
  match ix.element? m.type with
  | some e => [⟨e, m.parent⟩]
  | none => members ix m.type

def below (ix : Index) (root : Id) : List Met :=
  Search.run Met.type (inside ix) ix.defs (members ix root)

def block? (ix : Index) (t : Table) (m : Met) : Option DecorationKind :=
  match ix.type? m.type with
  | some (.struct _) => t.blockKind? m.type
  | _ => none

def fault? (ix : Index) (t : Table) (root : Id) : Option NestingFault := do
  let outer ← t.blockKind? root
  (below ix root).findSome? fun m =>
    (block? ix t m).map fun inner => ⟨m.type, inner, root, outer, m.parent⟩

def check (ix : Index) (t : Table) (root : Id) : Except NestingFault Unit :=
  match fault? ix t root with
  | some f => .error f
  | none => .ok ()

end Nesting

/-! ### Explicit layout -/

/-- An offset of all ones counts as none. -/
def Table.usableOffset? (t : Table) (struct : Id) (member : Nat) : Option UInt32 :=
  (t.memberOffset? struct member).filter (· ≠ Word.top)

inductive Need where
  | arrayStride | matrixStride | majorness
  deriving DecidableEq

namespace Explicit

inductive Stop where
  | tooDeep (type : Id)
  | lacking
  deriving DecidableEq

abbrev Check := ExceptT Stop (StateM (Std.TreeSet Id))

def unlessKnown (id : Id) (otherwise : Check Unit) : Check Unit := do
  if !(← get).contains id then otherwise

def learn (id : Id) : Check Unit := modify (·.insert id)

variable (ix : Index) (t : Table)

def lacksOffset (id : Id) (members : List Operand) : Bool :=
  (List.range members.length).any fun i => (t.usableOffset? id i).isNone

def inner (id : Id) : List Id :=
  match ix.type? id with
  | some view => view.element?.toList ++ view.memberIds
  | none => []

def offsets : Nat → Id → Check Unit
  | 0, id => unlessKnown id (throw (.tooDeep id))
  | n + 1, id => unlessKnown id do
    if let some (.struct ms) := ix.type? id then
      if lacksOffset t id ms then throw .lacking
    (inner ix id).forM (offsets n)
    learn id

/-- A struct, or a type that a member of a struct is made of. -/
inductive Place where
  | struct (id : Id)
  | member (struct : Id) (number : Nat) (type : Id)

def meets (need : Need) (struct : Id) (member : Nat) : Bool :=
  match need with
  | .arrayStride => true
  | .matrixStride => t.memberHas struct member .matrixStride
  | .majorness => t.memberHas struct member .rowMajor || t.memberHas struct member .colMajor

def needs (need : Need) : Nat → Place → Check Unit
  | 0, .struct id => unlessKnown id (throw (.tooDeep id))
  | 0, .member _ _ id => throw (.tooDeep id)
  | n + 1, .struct id => unlessKnown id do
    if let some (.struct ms) := ix.type? id then
      (TypeView.struct ms).memberIds.zipIdx.forM fun (m, i) => needs need n (.member id i m)
      learn id
  | n + 1, .member s i id =>
    match ix.type? id with
    | some (.array e _) | some (.runtimeArray e) => do
      if need = .arrayStride ∧ !t.has id .arrayStride then throw .lacking
      needs need n (.member s i e)
    | some (.matrix ..) => if meets t need s i then pure () else throw .lacking
    | some (.struct _) => needs need n (.struct id)
    | _ => pure ()

def outcome (c : Check Unit) : Except Id Bool :=
  match (c ∅).1 with
  | .ok _ => .ok false
  | .error .lacking => .ok true
  | .error (.tooDeep id) => .error id

def missesOffset (root : Id) : Except Id Bool :=
  outcome (offsets ix t Quantity.maxTypeDepth root)

def misses (need : Need) (root : Id) : Except Id Bool :=
  outcome (needs ix t need Quantity.maxTypeDepth (.struct root))

end Explicit

end SpirvRules
