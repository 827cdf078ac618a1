import SpirvRules.Enumerant.Parameter
import SpirvRules.Target.Options

/-!
# Layout policies

How a block has to be laid out depends on what holds it and on the options: uniform rules align
aggregates to sixteen bytes, storage rules do not, and either may be packed in three ways.
-/

set_option autoImplicit false

namespace SpirvRules

inductive BlockRules where
  | uniform | storage
  deriving DecidableEq

inductive Packing where
  | standard | relaxed | scalar
  deriving DecidableEq

namespace BlockRules

def all : List BlockRules := [.uniform, .storage]

def text : BlockRules → String
  | .uniform => "uniform buffer"
  | .storage => "storage buffer"

def rank : BlockRules → Nat
  | .uniform => 0
  | .storage => 1

end BlockRules

namespace Packing

def all : List Packing := [.standard, .relaxed, .scalar]

def text : Packing → String
  | .standard => "standard"
  | .relaxed => "relaxed"
  | .scalar => "scalar"

def rank : Packing → Nat
  | .standard => 0
  | .relaxed => 1
  | .scalar => 2

def stricter (p q : Packing) : Bool := p.rank < q.rank

end Packing

structure LayoutPolicy where
  rules : BlockRules
  packing : Packing
  deriving DecidableEq

namespace LayoutPolicy

def all : List LayoutPolicy :=
  BlockRules.all.flatMap fun rules => Packing.all.map fun packing => ⟨rules, packing⟩

def rank (p : LayoutPolicy) : Nat := p.rules.rank * 3 + p.packing.rank

theorem rank_injective {p q : LayoutPolicy} (h : p.rank = q.rank) : p = q := by
  obtain ⟨a, b⟩ := p
  obtain ⟨c, d⟩ := q
  revert h
  cases a <;> cases b <;> cases c <;> cases d <;> decide

def text (p : LayoutPolicy) : String := p.packing.text ++ " " ++ p.rules.text

/-- Only a plain block in uniform storage keeps uniform rules. -/
def rulesFor (c : StorageClass) (bufferBlock : Bool) (o : Options) : BlockRules :=
  if c = .uniform ∧ bufferBlock = false ∧ o.uniformBufferStandardLayout = false then .uniform
  else .storage

/-- Scalar packing wins over relaxed; workgroup memory has a switch of its own for it. -/
def packingFor (c : StorageClass) (o : Options) : Packing :=
  let scalar := if c = .workgroup then o.workgroupScalarBlockLayout else o.scalarBlockLayout
  if scalar then .scalar else if o.isRelaxed then .relaxed else .standard

def select (c : StorageClass) (bufferBlock : Bool) (o : Options) : Option LayoutPolicy :=
  if o.skipBlockLayout then none else some ⟨rulesFor c bufferBlock o, packingFor c o⟩

end LayoutPolicy

def StorageClass.allowsLayout (c : StorageClass) (v : Version) (workgroupLayout : Bool) : Bool :=
  match c with
  | .uniformConstant => false
  | .workgroup => workgroupLayout
  | .function | .privateStorage => v.before .v1_4
  | _ => true

end SpirvRules
