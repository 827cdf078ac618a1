import SpirvRules.Decoration.Table
import SpirvRules.Index.Basic
import SpirvRules.Layout.Policy
import Std.Data.TreeMap

/-!
# Alignments and sizes

What a type measures in bytes: its scalar alignment, that of its largest number; its base alignment,
where vectors count as a whole and aggregates may be rounded up to sixteen; and its size as its
decorations lay it out. Majorness and stride of a matrix are decorations of the member that holds
it.
-/

set_option autoImplicit false

namespace SpirvRules

/-!
### Quantities made of their parts

A recurrence says for each key which other keys its value is made of, and how. Its values are
computed with a memory that outlives each computation, also one that failed. The keys may form a
cycle, so a computation has room for a number of levels and fails at the key that finds none; what
the memory holds needs no room.
-/

structure Rule (κ ν : Type) where
  parts : List κ
  combine : List ν → ν

namespace Rule

variable {κ ν : Type}

def fixed (v : ν) : Rule κ ν := ⟨[], fun _ => v⟩

def single [Inhabited ν] (k : κ) (f : ν → ν) : Rule κ ν :=
  ⟨[k], fun vs => f (vs.headD default)⟩

def largest [Max ν] (least : ν) (ks : List κ) : Rule κ ν := ⟨ks, fun vs => vs.foldl max least⟩

/-- The value of a key computed without a memory; fails with the key that found no room. -/
def plain (rule : κ → Rule κ ν) : Nat → κ → Except κ ν
  | 0, k => .error k
  | n + 1, k => do return (rule k).combine (← (rule k).parts.mapM (plain rule n))

variable [Ord κ]

abbrev Memo (κ ν : Type) [Ord κ] := ExceptT κ (StateM (Std.TreeMap κ ν))

def lookUp (k : κ) (otherwise : Memo κ ν ν) : Memo κ ν ν := do
  match (← get)[k]? with
  | some v => return v
  | none => otherwise

def remember (k : κ) (v : ν) : Memo κ ν ν := do
  modify (·.insert k v)
  return v

def memoised (rule : κ → Rule κ ν) : Nat → κ → Memo κ ν ν
  | 0, k => lookUp k (throw k)
  | n + 1, k => lookUp k do
    remember k ((rule k).combine (← (rule k).parts.mapM (memoised rule n)))

end Rule

/-! ### Alignments and sizes -/

structure Constraints where
  rowMajor : Bool := false
  matrixStride : UInt32 := 0
  deriving DecidableEq

namespace Constraints

def apply (c : Constraints) (d : Decoration) : Constraints :=
  match d.kind with
  | .rowMajor => { c with rowMajor := true }
  | .colMajor => { c with rowMajor := false }
  | .matrixStride => { c with matrixStride := d.literal?.getD 0 }
  | _ => c

end Constraints

/-- The constraints of a member, a later decoration winning over an earlier one. -/
def Table.constraints (t : Table) (struct : Id) (member : Nat) : Constraints :=
  (t.memberDecorations struct member).foldl .apply {}

def Table.stride (t : Table) (array : Id) : UInt32 := (t.literal? array .arrayStride).getD 0

inductive Quantity where
  | scalarAlignment (type : Id)
  | baseAlignment (type : Id) (c : Constraints) (roundUp : Bool)
  | size (type : Id) (c : Constraints)
  deriving DecidableEq

namespace Quantity

def type : Quantity → Id
  | .scalarAlignment id | .baseAlignment id _ _ | .size id _ => id

def code : Quantity → List UInt32
  | .scalarAlignment id => [0, id]
  | .baseAlignment id c up => [1, id, c.rowMajor.toUInt32, c.matrixStride, up.toUInt32]
  | .size id c => [2, id, c.rowMajor.toUInt32, c.matrixStride]

theorem flag_injective {x y : Bool} (h : x.toUInt32 = y.toUInt32) : x = y := by
  revert h
  cases x <;> cases y <;> decide

theorem code_injective {p q : Quantity} (h : p.code = q.code) : p = q := by
  have fields {c d : Constraints} (h : c.rowMajor.toUInt32 = d.rowMajor.toUInt32)
      (h' : c.matrixStride = d.matrixStride) : c = d := by
    cases c
    cases d
    exact congr (congrArg Constraints.mk (flag_injective h)) h'
  cases p <;> cases q <;>
    simp only [code, List.cons.injEq, reduceCtorEq, and_true, and_false] at h
  case scalarAlignment.scalarAlignment => rw [h.2]
  case baseAlignment.baseAlignment =>
    rw [h.2.1, fields h.2.2.1 h.2.2.2.1, flag_injective h.2.2.2.2]
  case size.size => rw [h.2.1, fields h.2.2.1 h.2.2.2]

instance : Ord Quantity where
  compare := compareOn code

instance : Std.TransOrd Quantity := inferInstanceAs (Std.TransCmp (compareOn code))

instance : Std.LawfulEqOrd Quantity where
  eq_of_compare h := code_injective (Std.LawfulEqOrd.eq_of_compare (α := List UInt32) h)

/-- Three of anything are aligned like four. -/
def spread (count : UInt32) : UInt32 := if count = 3 then 4 else count

def aggregate (roundUp : Bool) (a : UInt32) : UInt32 := if roundUp then Word.roundUp a 16 else a

variable (ix : Index) (t : Table)

def scalarRule (id : Id) : Rule Quantity UInt32 :=
  match ix.type? id with
  | some (.int width _) | some (.float width) => .fixed (width / 8)
  | some (.vector e _) | some (.matrix e _) | some (.array e _) | some (.runtimeArray e) =>
    .single (.scalarAlignment e) fun a => a
  | some (.struct ms) => .largest 1 ((TypeView.struct ms).memberIds.map .scalarAlignment)
  | some (.pointer ..) => .fixed 8
  | _ => .fixed 1

def column (id : Id) : Id × UInt32 :=
  match ix.type? id with
  | some (.vector e n) => (e, n)
  | _ => (id, 1)

def baseRule (id : Id) (c : Constraints) (up : Bool) : Rule Quantity UInt32 :=
  match ix.type? id with
  | some (.int width _) | some (.float width) => .fixed (width / 8)
  | some (.vector e n) => .single (.baseAlignment e c up) fun a => Word.mulSat a (spread n)
  | some (.matrix col n) =>
    if c.rowMajor then
      .single (.baseAlignment (column ix col).1 c up) fun a =>
        aggregate up (Word.mulSat a (spread n))
    else .single (.baseAlignment col c up) (aggregate up)
  | some (.array e _) | some (.runtimeArray e) =>
    .single (.baseAlignment e c up) (aggregate up)
  | some (.struct ms) =>
    let members := (TypeView.struct ms).memberIds.zipIdx.map fun (m, i) =>
      Quantity.baseAlignment m (t.constraints id i) up
    ⟨members, fun vs => aggregate up (vs.foldl max 1)⟩
  | some (.pointer ..) => .fixed 8
  | _ => .fixed 1

def strided (count stride last : UInt32) : UInt32 :=
  Word.addSat (Word.mulSat (Word.pred count) stride) last

/-- A struct ends where its last member does; an array of unknown length takes no room. -/
def sizeRule (id : Id) (c : Constraints) : Rule Quantity UInt32 :=
  match ix.type? id with
  | some (.int width _) | some (.float width) => .fixed (width / 8)
  | some (.vector e n) => .single (.size e c) fun s => Word.mulSat s n
  | some (.array e length) =>
    match ix.constant? length with
    | some n => .single (.size e c) (strided n (t.stride id))
    | none => .fixed 0
  | some (.matrix col n) =>
    if c.rowMajor then
      let (component, rows) := column ix col
      .single (.size component c) fun s => strided rows c.matrixStride (Word.mulSat n s)
    else .fixed (Word.mulSat n c.matrixStride)
  | some (.struct ms) =>
    match ms.length with
    | 0 => .fixed 0
    | last + 1 =>
      let offset := (t.memberOffset? id last).getD 0
      let member := ((TypeView.struct ms).member? last).getD 0
      .single (.size member (t.constraints id last)) (Word.addSat offset)
  | some (.pointer ..) => .fixed 8
  | _ => .fixed 0

def rule : Quantity → Rule Quantity UInt32
  | .scalarAlignment id => scalarRule ix id
  | .baseAlignment id c up => baseRule ix t id c up
  | .size id c => sizeRule ix t id c

/-- Types nested deeper than this are refused. -/
def maxTypeDepth : Nat := 512

abbrev Measured := Std.TreeMap Quantity UInt32

def measure (q : Quantity) : ExceptT Quantity (StateM Measured) UInt32 :=
  Rule.memoised (rule ix t) maxTypeDepth q

end Quantity

def LayoutPolicy.alignment (p : LayoutPolicy) (type : Id) (c : Constraints) : Quantity :=
  if p.packing = .scalar then .scalarAlignment type
  else .baseAlignment type c (p.rules = .uniform)

end SpirvRules
