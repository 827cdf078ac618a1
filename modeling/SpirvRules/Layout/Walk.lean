import SpirvRules.Layout.Explicit
import SpirvRules.Layout.Slot

/-!
# Walking a block

A block is explicit and every slot in it is right: those of the block, those of the structs in it,
and those of the structs that are elements of its arrays. What decides whether a struct is right at
an offset is that offset modulo 256, so a struct found right is not walked again at an offset of the
same class. Measures and walks are remembered from block to block; `walkAfresh` walks without
remembering. A walk also keeps the exact offsets and ends it met, for offsets stick or wrap where a
word cannot hold them.
-/

set_option autoImplicit false

namespace SpirvRules

structure BlockUse where
  kind : DecorationKind
  storage : StorageClass
  policy : LayoutPolicy
  deriving DecidableEq

inductive LayoutFault where
  | tooDeep (type : Id)
  | lacksOffset (root : Id) (kind : DecorationKind)
  | lacks (need : Need) (root : Id) (kind : DecorationKind)
  | slot (use : BlockUse) (struct : Id) (member : Nat) (fault : SlotFault)
  deriving DecidableEq

def Need.text : Need → String
  | .arrayStride => "ArrayStride"
  | .matrixStride => "MatrixStride"
  | .majorness => "RowMajor or ColMajor"

def LayoutFault.report : LayoutFault → Report
  | .tooDeep id =>
    .binary s!"Type id {id} is nested more than {Quantity.maxTypeDepth} levels deep" (some id)
  | .lacksOffset root kind => unlaid root kind "Offset"
  | .lacks need root kind => unlaid root kind need.text
  | .slot u struct member fault =>
    .ids (s!"Structure id {struct} decorated as {u.kind.name} for variable in " ++
      s!"{u.storage.name} storage class must follow {u.policy.text} layout rules: " ++
      s!"member {member} {fault.text}") struct
where
  unlaid (root : Id) (kind : DecorationKind) (what : String) : Report :=
    .ids (s!"Structure id {root} decorated as {kind.name} must be explicitly laid out with " ++
      s!"{what} decorations.") root

structure Visit where
  struct : Id
  offsetClass : UInt32
  policy : LayoutPolicy
  deriving DecidableEq

namespace Visit

def code (v : Visit) : List Nat := [v.struct.toNat, v.offsetClass.toNat, v.policy.rank]

theorem code_injective {v w : Visit} (h : v.code = w.code) : v = w := by
  obtain ⟨a, b, p⟩ := v
  obtain ⟨c, d, q⟩ := w
  simp only [code, List.cons.injEq, UInt32.toNat_inj, and_true] at h
  obtain ⟨rfl, rfl, h⟩ := h
  rw [LayoutPolicy.rank_injective h]

instance : Ord Visit where
  compare := compareOn code

instance : Std.TransOrd Visit := inferInstanceAs (Std.TransCmp (compareOn code))

instance : Std.LawfulEqOrd Visit where
  eq_of_compare h := code_injective (Std.LawfulEqOrd.eq_of_compare (α := List Nat) h)

end Visit

structure Walker where
  measured : Quantity.Measured := ∅
  verified : Std.TreeSet Visit := ∅
  /-- The offsets and ends met, by exact count, each with the struct it was met in. No check looks
  at them. -/
  met : List (Id × Nat) := []

abbrev Walk := ExceptT LayoutFault (StateM Walker)

/-- A member as it holds an array, whatever the array's level. -/
structure Holder where
  struct : Id
  member : Nat
  offset : UInt32
  alignment : UInt32
  constraints : Constraints

/-- A struct at an offset, or a level of the array a member holds. -/
inductive Site where
  | struct (id : Id) (base : UInt32)
  | array (holder : Holder) (id : Id) (alignment : UInt32)

namespace Site

def type : Site → Id
  | .struct id _ => id
  | .array _ id _ => id

def isVoid (ix : Index) : Site → Bool
  | .struct .. => false
  | .array _ id _ => (ix.element? id).isNone

def visit? (p : LayoutPolicy) : Site → Option Visit
  | .struct id base => some ⟨id, base % 256, p⟩
  | .array .. => none

end Site

namespace Walk

variable (ix : Index) (t : Table) (u : BlockUse)

def measure (q : Quantity) : Walk UInt32 :=
  ExceptT.mk fun (w : Walker) =>
    let (r, m) := Quantity.measure ix t q w.measured
    (r.mapError fun q => .tooDeep q.type, { w with measured := m })

def meet (struct : Id) (ns : List Nat) : Walk Unit :=
  modify fun w => { w with met := ns.map (struct, ·) ++ w.met }

def reject {α : Type} (struct : Id) (member : Nat) (f : SlotFault) : Walk α :=
  throw (.slot u struct member f)

def rejectAny (struct : Id) (member : Nat) : Option SlotFault → Walk Unit
  | some f => reject u struct member f
  | none => pure ()

/-- The component of a vector whose component alone has to be aligned. -/
def looseComponent? (view : Option TypeView) : Option Id :=
  match view with
  | some (.vector e _) => if u.policy.packing = .relaxed then some e else none
  | _ => none

def extent (type : Id) (offset : UInt32) (c : Constraints) : Walk Extent := do
  let view := ix.type? type
  let alignment ← measure ix t (u.policy.alignment type c)
  let size ← measure ix t (.size type c)
  let component ← (looseComponent? u view).mapM fun e => measure ix t (.scalarAlignment e)
  return ⟨view, c, offset, alignment, size, component⟩

def enter (inner : Site → Walk Unit) (view : Option TypeView) (s : Site) : Walk Unit :=
  if view.any TypeView.isStruct then inner s else pure ()

def contents (inner : Site → Walk Unit) (struct : Id) (s : Slot) (e : Extent) : Walk Unit := do
  enter inner e.view (.struct s.type e.offset)
  inner (.array ⟨struct, s.member, e.offset, e.alignment, e.constraints⟩ s.type e.alignment)

/-- Judges a slot by what it takes up and gives the free offset after it. -/
def settle (inner : Site → Walk Unit) (struct : Id) (free : UInt32) (s : Slot) (later : List Slot)
    (e : Extent) : Walk UInt32 := do
  rejectAny u struct s.member (e.fault? free later)
  contents inner struct s e
  meet struct [e.stop u.policy]
  return e.free u.policy

def occupied (inner : Site → Walk Unit) (struct : Id) (free : UInt32) (s : Slot)
    (later : List Slot) (offset : UInt32) : Walk UInt32 := do
  let e ← extent ix t u s.type offset (t.constraints struct s.member)
  settle u inner struct free s later e

/-- Checks a slot and gives the free offset after it. An empty struct takes up nothing. -/
def slot (inner : Site → Walk Unit) (struct : Id) (free : UInt32) (s : Slot)
    (later : List Slot) : Walk UInt32 :=
  match s.offset with
  | none => reject u struct s.member .noOffset
  | some offset =>
    if ix.type? s.type = some (.struct []) then pure free
    else occupied ix t u inner struct free s later offset

def slots (inner : Site → Walk Unit) (struct : Id) : UInt32 → List Slot → Walk Unit
  | _, [] => pure ()
  | free, s :: later => do slots inner struct (← slot ix t u inner struct free s later) later

def element (inner : Site → Walk Unit) (h : Holder) (e : Id) (stride : UInt32) (i : Nat) :
    Walk Unit := do
  meet h.struct [h.offset.toNat + i * stride.toNat]
  inner (.struct e (elementOffset h.offset stride i))

def elements (inner : Site → Walk Unit) (h : Holder) (e : Id) (stride length : UInt32) :
    Walk Unit :=
  if (ix.type? e).any TypeView.isStruct then
    (elementIndices stride length).forM (element inner h e stride)
  else pure ()

def elementFault? (stride size : UInt32) : Option SlotFault :=
  if stride < size then some (.elementSize stride size) else none

def deeper (inner : Site → Walk Unit) (h : Holder) (e : Id) (stride : UInt32) : Walk Unit := do
  let alignment ← measure ix t (u.policy.alignment e h.constraints)
  let size ← measure ix t (.size e h.constraints)
  rejectAny u h.struct h.member (elementFault? stride size)
  inner (.array h e alignment)

def level (inner : Site → Walk Unit) (h : Holder) (id : Id) (alignment : UInt32) (e : Id)
    (length : UInt32) : Walk Unit := do
  rejectAny u h.struct h.member (strideFault? (t.literal? id .arrayStride) alignment)
  elements ix inner h e (t.stride id) length
  rejectAny u h.struct h.member (matrixFault? (ix.type? e) h.constraints h.alignment)
  deeper ix t u inner h e (t.stride id)

/-- Checks a site, leaving the sites inside it to `inner`. -/
def within (inner : Site → Walk Unit) : Site → Walk Unit
  | .struct id base =>
    match ix.type? id with
    | some (.struct ms) => do
      let members := (TypeView.struct ms).memberIds
      meet id (Slot.places t id base members)
      slots ix t u inner id 0 (Slot.inOrder (Slot.ofStruct t id base members))
    | _ => pure ()
  | .array h id alignment =>
    match ix.type? id with
    | some (.array e length) =>
      level ix t u inner h id alignment e ((ix.constant? length).getD 0)
    | some (.runtimeArray e) => level ix t u inner h id alignment e 0
    | _ => pure ()

def unlessVerified (s : Site) (otherwise : Walk Unit) : Walk Unit := do
  let verified := (← get).verified
  if !(s.visit? u.policy).any verified.contains then otherwise

def verify (s : Site) : Walk Unit :=
  match s.visit? u.policy with
  | some v => modify fun w => { w with verified := w.verified.insert v }
  | none => pure ()

/-- Checks a site and all inside it that is not yet verified. -/
def walk : Nat → Site → Walk Unit
  | 0, s => unlessVerified u s (if s.isVoid ix then pure () else throw (.tooDeep s.type))
  | n + 1, s => unlessVerified u s do
    within ix t u (walk n) s
    verify u s

/-- Checks a site and all inside it. -/
def walkAfresh : Nat → Site → Walk Unit
  | 0, s => if s.isVoid ix then pure () else throw (.tooDeep s.type)
  | n + 1, s => within ix t u (walkAfresh n) s

def demand (lack : LayoutFault) : Except Id Bool → Walk Unit
  | .ok false => pure ()
  | .ok true => throw lack
  | .error id => throw (.tooDeep id)

def needs : List Need := [.arrayStride, .matrixStride, .majorness]

def explicit (root : Id) (kind : DecorationKind) : Walk Unit := do
  demand (.lacksOffset root kind) (Explicit.missesOffset ix t root)
  needs.forM fun n => demand (.lacks n root kind) (Explicit.misses ix t n root)

/-- Checks a block with a given way of walking; without a policy, and for what is no block, there is
nothing to check. -/
def blockBy (way : BlockUse → Nat → Site → Walk Unit) (root : Id) (storage : StorageClass)
    (policy : Option LayoutPolicy) : Walk Unit :=
  match policy, t.blockKind? root with
  | some p, some kind => do
    explicit ix t root kind
    way ⟨kind, storage, p⟩ Quantity.maxTypeDepth (.struct root 0)
  | _, _ => pure ()

def block (root : Id) (storage : StorageClass) (policy : Option LayoutPolicy) : Walk Unit :=
  blockBy ix t (walk ix t) root storage policy

def blockAfresh (root : Id) (storage : StorageClass) (policy : Option LayoutPolicy) : Walk Unit :=
  blockBy ix t (walkAfresh ix t) root storage policy

def checkBlock (root : Id) (storage : StorageClass) (policy : Option LayoutPolicy) :
    Except LayoutFault Unit :=
  (block ix t root storage policy {}).1

end Walk

end SpirvRules
