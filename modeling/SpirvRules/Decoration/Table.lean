import SpirvRules.Collection
import SpirvRules.Module
import SpirvRules.Text.Quoted

/-!
# Decorations and their table

A decoration is a kind with parameters, on an object or on one of its members. The table of a module
has the decorations of each id, as they were applied and in order.
-/

set_option autoImplicit false

namespace SpirvRules

/-!
### Decorations

A decoration is a kind, its parameters and, where it sits on a member of a struct, the member's
number. A parameter that no rule reads is kept as text.
-/

inductive DecorationParam where
  | literal (value : UInt32)
  | id (id : Id)
  | string (text : String)
  | builtIn (b : BuiltIn)
  | roundingMode (m : RoundingMode)
  | linkage (l : Linkage)
  | attribute (a : ParameterAttribute)
  | other (text : String)
  deriving DecidableEq

namespace DecorationParam

def ofOperand : Operand → DecorationParam
  | .literal v => .literal v
  | .text s => .string s
  | .builtIn b => .builtIn b
  | .roundingMode m => .roundingMode m
  | .linkage l => .linkage l
  | .attribute a => .attribute a
  | .id i | .scopeId i | .semanticsId i => .id i
  | o => .other o.describe

def text : DecorationParam → String
  | .literal v => toString v.toNat
  | .id i => s!"%{i}"
  | .string s => Text.quote s
  | .builtIn b => b.name
  | .roundingMode m => m.name
  | .linkage l => l.name
  | .attribute a => a.name
  | .other s => s

end DecorationParam

structure Decoration where
  kind : DecorationKind
  params : List DecorationParam
  /-- The member of the struct it sits on; none where it is on the whole target. -/
  member : Option Nat
  deriving DecidableEq

namespace Decoration

def ofOperands (kind : DecorationKind) (operands : List Operand) (member : Option Nat) :
    Decoration :=
  ⟨kind, operands.map DecorationParam.ofOperand, member⟩

def onMember (d : Decoration) (member : Nat) : Decoration := { d with member := some member }

def literal? (d : Decoration) : Option UInt32 :=
  match d.params.head? with
  | some (.literal v) => some v
  | _ => none

def id? (d : Decoration) : Option Id :=
  match d.params.head? with
  | some (.id i) => some i
  | _ => none

def builtIn? (d : Decoration) : Option BuiltIn :=
  match d.params.head? with
  | some (.builtIn b) => some b
  | _ => none

def roundingMode? (d : Decoration) : Option RoundingMode :=
  match d.params.head? with
  | some (.roundingMode m) => some m
  | _ => none

def string? (d : Decoration) : Option String :=
  d.params.findSome? fun
    | .string s => some s
    | _ => none

def text (d : Decoration) : String :=
  let place := match d.member with
    | some n => s!"member {n} "
    | none => ""
  place ++ " ".intercalate (d.kind.name :: d.params.map DecorationParam.text)

end Decoration

/-!
### The order of decorations

Decorations on the whole target come before those on members, and these by member; then the number
of the kind decides, then the parameters in turn. Parameters are ordered by form, then value; the
order of strings by code point is that of their UTF-8 octets.
-/

namespace DecorationParam

def rank : DecorationParam → Nat
  | .literal _ => 0
  | .id _ => 1
  | .string _ => 2
  | .builtIn _ => 3
  | .roundingMode _ => 4
  | .linkage _ => 5
  | .attribute _ => 6
  | .other _ => 7

def number : DecorationParam → UInt32
  | .literal v => v
  | .id i => i
  | .builtIn b => b.value
  | .roundingMode m => m.value
  | .linkage l => l.value
  | .attribute a => a.value
  | .string _ | .other _ => 0

def characters : DecorationParam → String
  | .string s | .other s => s
  | _ => ""

instance : Ord DecorationParam where
  compare := compareLex (compareOn rank) (compareLex (compareOn number) (compareOn characters))

end DecorationParam

instance : Ord Decoration where
  compare := compareLex (compareOn Decoration.member)
    (compareLex (compareOn fun d => d.kind.value) (compareOn Decoration.params))

/-!
### The decoration table

Which decorations each id carries, those on its members included. Every application is kept in the
order it was made; beside that each id has its distinct decorations in their own order.
-/

abbrev Record := Id × Decoration

structure Table where
  raw : Grouping Decoration
  sets : Std.TreeMap Id (List Decoration)

namespace Table

def ofRecords (rs : List Record) : Table :=
  let raw := Grouping.ofPairs rs
  ⟨raw, raw.map fun _ ds => Ordered.ofList ds⟩

/-- Every application to an id, repetitions included. -/
def applied (t : Table) (id : Id) : List Decoration := t.raw.under id

def decorations (t : Table) (id : Id) : List Decoration := t.sets[id]?.getD []

def targets (t : Table) : List Id := t.sets.keys

theorem applied_ofRecords (rs : List Record) (id : Id) :
    (ofRecords rs).applied id = (rs.filter (·.1 = id)).map (·.2) :=
  Grouping.under_ofPairs rs id

theorem decorations_ofRecords (rs : List Record) (id : Id) :
    (ofRecords rs).decorations id = Ordered.ofList ((ofRecords rs).applied id) := by
  simp only [decorations, applied, ofRecords, Grouping.under, Std.TreeMap.getElem?_map]
  cases (Grouping.ofPairs rs)[id]? <;> rfl

def objectDecorations (t : Table) (id : Id) : List Decoration :=
  (t.decorations id).filter (·.member.isNone)

def memberDecorations (t : Table) (id : Id) (member : Nat) : List Decoration :=
  (t.decorations id).filter (·.member = some member)

def has (t : Table) (id : Id) (kind : DecorationKind) : Bool :=
  (t.objectDecorations id).any (·.kind = kind)

def memberHas (t : Table) (id : Id) (member : Nat) (kind : DecorationKind) : Bool :=
  (t.memberDecorations id member).any (·.kind = kind)

def anyMemberHas (t : Table) (id : Id) (kind : DecorationKind) : Bool :=
  (t.decorations id).any fun d => d.member.isSome && d.kind = kind

def literal? (t : Table) (id : Id) (kind : DecorationKind) : Option UInt32 :=
  ((t.objectDecorations id).find? (·.kind = kind)).bind Decoration.literal?

def memberLiteral? (t : Table) (id : Id) (member : Nat) (kind : DecorationKind) : Option UInt32 :=
  ((t.memberDecorations id member).find? (·.kind = kind)).bind Decoration.literal?

def memberOffset? (t : Table) (id : Id) (member : Nat) : Option UInt32 :=
  t.memberLiteral? id member .offset

end Table

end SpirvRules
