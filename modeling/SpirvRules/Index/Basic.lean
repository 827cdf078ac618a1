import SpirvRules.Collection
import SpirvRules.Diagnostic.Report
import SpirvRules.Index.TypeView
import SpirvRules.Module
import SpirvRules.Text.Quoted
import Std.Data.TreeSet

/-!
# The index of a module

Everything the rules ask about ids is answered here: what defines an id, where function bodies use
it, which entry points use it statically, and what type it is or has. An id may be defined once.
-/

set_option autoImplicit false

namespace SpirvRules

/-!
### Entry points

The stage, function, name and interface an `OpEntryPoint` gives.
-/

structure EntryPoint where
  model : ExecutionModel
  function : Id
  name : String
  interface : List Id

namespace EntryPoint

/-- Needs a stage and a function; a name that is no string counts as empty. -/
def ofInstruction? (i : Instruction) : Option EntryPoint :=
  match i.operand? 0, i.idAt? 1 with
  | some (.executionModel model), some function =>
    let name := match i.operand? 2 with
      | some (.text s) => s
      | _ => ""
    some ⟨model, function, name, (i.operands.drop 3).filterMap Operand.anyId?⟩
  | _, _ => none

end EntryPoint

/-!
### Static use

An entry point uses an id when a function that can be reached from its own by calls mentions the id.
Calls may recurse.
-/

structure CallGraph where
  mentions : Grouping Id
  calls : Grouping Id

namespace CallGraph

def ofStream (stream : List Located) : CallGraph :=
  ⟨.ofPairs (stream.flatMap Located.mentions), .ofPairs (stream.filterMap Located.call?)⟩

def reachedFrom (g : CallGraph) (f : Id) : List Id :=
  Search.run (fun i : Id => i) g.calls.under g.mentions [f]

def idsUsedFrom (g : CallGraph) (f : Id) : Std.TreeSet Id :=
  .ofList ((g.reachedFrom f).flatMap g.mentions.under)

def staticUse (g : CallGraph) (entryFunctions : List Id) : List (Id × Std.TreeSet Id) :=
  entryFunctions.eraseDups.map fun f => (f, g.idsUsedFrom f)

end CallGraph

/-! ### The index of a module -/

inductive IndexFault where
  | duplicateResult (id : Id)
  | incompleteEntryPoint
  deriving DecidableEq

def IndexFault.report : IndexFault → Report
  | .duplicateResult id => .binary s!"ID {id} has already been defined" (some id)
  | .incompleteEntryPoint =>
    .binary "OpEntryPoint is missing its execution model or function operand"

structure Use where
  inst : Instruction
  operand : Nat

structure Index where
  module : Module
  defs : Std.TreeMap Id Located
  uses : Grouping Use
  entryPoints : List EntryPoint
  /-- The entry point functions, each with the ids it uses statically. -/
  staticUse : List (Id × Std.TreeSet Id)

namespace Index

def define : List Located → Std.TreeMap Id Located → Except IndexFault (Std.TreeMap Id Located)
  | [], defs => .ok defs
  | l :: rest, defs =>
    match l.inst.result with
    | none => define rest defs
    | some id =>
      if defs.contains id then .error (.duplicateResult id)
      else define rest (defs.insert id l)

def usesOf (l : Located) : List (Id × Use) :=
  match l.function with
  | some _ => l.inst.idOperands.map fun (n, i) => (i, ⟨l.inst, n⟩)
  | none => []

def entryPointsOf (m : Module) : Except IndexFault (List EntryPoint) :=
  m.entryPoints.mapM fun i =>
    match EntryPoint.ofInstruction? i with
    | some e => .ok e
    | none => .error .incompleteEntryPoint

def ofModule (m : Module) : Except IndexFault Index := do
  let stream := m.stream
  let defs ← define stream ∅
  let entryPoints ← entryPointsOf m
  let staticUse := (CallGraph.ofStream stream).staticUse (entryPoints.map EntryPoint.function)
  return ⟨m, defs, .ofPairs (stream.flatMap usesOf), entryPoints, staticUse⟩

def version (ix : Index) : Version := ix.module.statedVersion

def def? (ix : Index) (id : Id) : Option Located := ix.defs[id]?

def inst? (ix : Index) (id : Id) : Option Instruction := (ix.def? id).map Located.inst

def op? (ix : Index) (id : Id) : Option Opcode := (ix.inst? id).map Instruction.op

/-- The type of the object an id stands for. -/
def typeOf? (ix : Index) (id : Id) : Option Id := (ix.inst? id).bind Instruction.resultType

/-- The type an id declares. -/
def type? (ix : Index) (id : Id) : Option TypeView := (ix.inst? id).bind TypeView.ofInstruction?

def usesOfId (ix : Index) (id : Id) : List Use := ix.uses.under id

def staticUsers (ix : Index) (id : Id) : List Id :=
  ix.staticUse.filterMap fun (f, ids) => if ids.contains id then some f else none

def nameGiven? (i : Instruction) : Option (Id × String) :=
  match i.op, i.operands with
  | .opName, [.id target, .text name] => some (target, name)
  | _, _ => none

/-- Names come from entry points, then from the debug section; the last one counts. -/
def name? (ix : Index) (id : Id) : Option String :=
  (ix.entryPoints.map (fun e => (e.function, e.name)) ++
    ix.module.debugNames.filterMap nameGiven?).reverse.lookup id

def variableClass? (ix : Index) (id : Id) : Option StorageClass :=
  match ix.inst? id with
  | some i =>
    match i.op, i.operand? 0 with
    | .opVariable, some (.storageClass c) => some c
    | _, _ => none
  | none => none

def pointer? (ix : Index) (id : Id) : Option (StorageClass × Id) :=
  match (ix.typeOf? id).bind ix.type? with
  | some (.pointer c p) => some (c, p)
  | _ => none

def element? (ix : Index) (id : Id) : Option Id := (ix.type? id).bind TypeView.element?

def stripWithin (ix : Index) : Nat → Id → Id
  | 0, id => id
  | n + 1, id =>
    match ix.element? id with
    | some e => ix.stripWithin n e
    | none => id

/-- What is left without any array levels. A chain longer than the number of definitions is a
cycle. -/
def stripArrays (ix : Index) (id : Id) : Id := ix.stripWithin (ix.defs.size + 1) id

/-- The value of an integer constant; a specialisation constant has none yet. -/
def integer? (ix : Index) (id : Id) : Option Nat := do
  let i ← ix.inst? id
  guard (i.op = .opConstant)
  match ← ix.type? (← i.resultType), ← i.operand? 0 with
  | .int .., .literal v => some v.toNat
  | .int .., .literal64 v => some v.toNat
  | _, _ => none

def constant? (ix : Index) (id : Id) : Option UInt32 :=
  (ix.integer? id).bind fun n => if n < 0x100000000 then some (UInt32.ofNat n) else none

theorem toNat_constant? {ix : Index} {id : Id} {n : Nat} (h : ix.integer? id = some n)
    (hn : n < 0x100000000) : ∃ c, ix.constant? id = some c ∧ c.toNat = n := by
  refine ⟨UInt32.ofNat n, ?_, UInt32.toNat_ofNat_of_lt' hn⟩
  simp [constant?, h, hn]

def numericShape? (ix : Index) (id : Id) : Option NumericShape :=
  match ix.type? id with
  | some (.vector component count) => do
    let shape ← (← ix.type? component).scalarShape?
    return { shape with count }
  | some t => t.scalarShape?
  | none => none

end Index

end SpirvRules
