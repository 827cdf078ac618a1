import SpirvRules.Layout.Explicit

/-!
# Slots

A struct laid out at some offset has a slot for each member; slots are judged in the order of their
offsets. A slot is wrong if it is ill aligned, overlaps what came before, lets a vector straddle a
sixteen-byte boundary, or holds a matrix or an array whose stride does not do.
-/

set_option autoImplicit false

namespace SpirvRules

structure Slot where
  member : Nat
  type : Id
  /-- Counted from the start of the block; none where the member has no usable one. -/
  offset : Option UInt32
  deriving DecidableEq

namespace Slot

/-- Slots without an offset come last. -/
def key (s : Slot) : UInt32 := s.offset.getD Word.top

def place (s : Slot) : List Slot → List Slot
  | [] => [s]
  | r :: rest => if s.key ≤ r.key then s :: r :: rest else r :: place s rest

theorem place_perm (s : Slot) (rest : List Slot) : (s.place rest).Perm (s :: rest) := by
  fun_induction place s rest with
  | case1 => exact .refl _
  | case2 => exact .refl _
  | case3 r rest _ ih => exact (ih.cons r).trans (.swap s r rest)

theorem pairwise_place (s : Slot) (rest : List Slot)
    (h : rest.Pairwise fun x y => x.key ≤ y.key) :
    (s.place rest).Pairwise fun x y => x.key ≤ y.key := by
  fun_induction place s rest with
  | case1 => simp
  | case2 r rest hsr =>
    refine List.pairwise_cons.2 ⟨fun x hx => ?_, h⟩
    rcases List.mem_cons.1 hx with rfl | hx
    · exact hsr
    · exact UInt32.le_trans hsr ((List.pairwise_cons.1 h).1 x hx)
  | case3 r rest hsr ih =>
    obtain ⟨hr, hrest⟩ := List.pairwise_cons.1 h
    refine List.pairwise_cons.2 ⟨fun x hx => ?_, ih hrest⟩
    rcases List.mem_cons.1 ((place_perm s rest).mem_iff.1 hx) with rfl | hx
    · exact (UInt32.le_total r.key x.key).resolve_right hsr
    · exact hr x hx

def inOrder (slots : List Slot) : List Slot := slots.foldr place []

theorem inOrder_perm (slots : List Slot) : (inOrder slots).Perm slots := by
  induction slots with
  | nil => exact .refl _
  | cons s rest ih => exact (place_perm s (inOrder rest)).trans (ih.cons s)

theorem pairwise_inOrder (slots : List Slot) :
    (inOrder slots).Pairwise fun x y => x.key ≤ y.key := by
  induction slots with
  | nil => exact .nil
  | cons s rest ih => exact pairwise_place s (inOrder rest) ih

def ofStruct (t : Table) (struct : Id) (base : UInt32) (members : List Id) : List Slot :=
  members.zipIdx.map fun (m, i) => ⟨i, m, (t.usableOffset? struct i).map (Word.addSat base)⟩

/-- The offsets of members by exact count, whether or not a word can hold them. -/
def places (t : Table) (struct : Id) (base : UInt32) (members : List Id) : List Nat :=
  members.zipIdx.filterMap fun (_, i) =>
    (t.usableOffset? struct i).map fun o => base.toNat + o.toNat

end Slot

inductive SlotFault where
  | noOffset
  | notLast (offset : UInt32)
  | misalignedComponent (offset alignment : UInt32)
  | misaligned (offset alignment : UInt32)
  | overlaps (offset previous : UInt32)
  | straddles (offset : UInt32)
  | matrixStride (stride alignment : UInt32)
  | zeroStride
  | arrayStride (stride alignment : UInt32)
  | elementSize (stride size : UInt32)
  deriving DecidableEq

def SlotFault.text : SlotFault → String
  | .noOffset => "is missing an Offset decoration"
  | .notLast o => s!"has a runtime array at offset {o}, but other members at larger offsets"
  | .misalignedComponent o a => s!"at offset {o} is not aligned to scalar element size {a}"
  | .misaligned o a => s!"at offset {o} is not aligned to {a}"
  | .overlaps o p => s!"at offset {o} overlaps previous member ending at offset {p}"
  | .straddles o => s!"is an improperly straddling vector at offset {o}"
  | .matrixStride s a => s!"is a matrix with stride {s} not satisfying alignment to {a}"
  | .zeroStride => "contains an array with stride 0"
  | .arrayStride s a => s!"contains an array with stride {s} not satisfying alignment to {a}"
  | .elementSize s n => s!"contains an array with stride {s}, but with an element size of {n}"

structure Extent where
  view : Option TypeView
  constraints : Constraints
  offset : UInt32
  alignment : UInt32
  size : UInt32
  /-- The alignment of a vector's component, where a vector only has to be aligned to that. -/
  component : Option UInt32

def TypeView.isSizedArray : TypeView → Bool
  | .array .. => true
  | _ => false

def TypeView.isRuntimeArray : TypeView → Bool
  | .runtimeArray _ => true
  | _ => false

def TypeView.isMatrix : TypeView → Bool
  | .matrix .. => true
  | _ => false

/-- Nothing may lie in the padding of an array or a struct, but scalar packing knows no padding. -/
def LayoutPolicy.pads (p : LayoutPolicy) (view : Option TypeView) : Bool :=
  p.packing ≠ .scalar && view.any fun v => v.isSizedArray || v.isStruct

/-- A vector of at most sixteen bytes lies in one slot of sixteen, a longer one starts such a
slot. -/
def straddles (offset size : UInt32) : Bool :=
  if size ≤ 16 then offset / 16 ≠ Word.addSat offset (Word.pred size) / 16 else offset % 16 ≠ 0

def matrixFault? (view : Option TypeView) (c : Constraints) (alignment : UInt32) :
    Option SlotFault :=
  if view.any TypeView.isMatrix ∧ !Word.isAligned c.matrixStride alignment then
    some (.matrixStride c.matrixStride alignment)
  else none

namespace Extent

variable (e : Extent)

def orderFault? (later : List Slot) : Option SlotFault :=
  if e.view.any TypeView.isRuntimeArray ∧ later.any (fun s => s.offset.any (e.offset < ·)) then
    some (.notLast e.offset)
  else none

def alignmentFault? : Option SlotFault :=
  match e.component with
  | some a => if Word.isAligned e.offset a then none else some (.misalignedComponent e.offset a)
  | none =>
    if Word.isAligned e.offset e.alignment then none else some (.misaligned e.offset e.alignment)

/-- `free` is the first offset nothing lies at any more. -/
def overlapFault? (free : UInt32) : Option SlotFault :=
  if e.offset < free then some (.overlaps e.offset (free - 1)) else none

def straddleFault? : Option SlotFault :=
  if e.component.isSome ∧ straddles e.offset e.size then some (.straddles e.offset) else none

def fault? (free : UInt32) (later : List Slot) : Option SlotFault :=
  e.orderFault? later <|> e.alignmentFault? <|> e.overlapFault? free <|> e.straddleFault? <|>
    matrixFault? e.view e.constraints e.alignment

def free (p : LayoutPolicy) : UInt32 :=
  let stop := Word.addSat e.offset e.size
  if p.pads e.view then Word.roundUp stop e.alignment else stop

/-- The free offset by exact count, whether or not a word can hold it. -/
def stop (p : LayoutPolicy) : Nat :=
  if p.pads e.view then Word.ceil (e.offset.toNat + e.size.toNat) e.alignment.toNat
  else e.offset.toNat + e.size.toNat

theorem toNat_free (p : LayoutPolicy) : (e.free p).toNat = min (e.stop p) 0xFFFFFFFF := by
  by_cases h : p.pads e.view
  · simp only [free, stop, h, if_true, Word.toNat_roundUp, Word.toNat_addSat]
    have hl := Word.le_ceil (e.offset.toNat + e.size.toNat) e.alignment.toNat
    by_cases hs : e.offset.toNat + e.size.toNat ≤ 0xFFFFFFFF
    · rw [Nat.min_eq_left hs]
    · have hm := Word.le_ceil 0xFFFFFFFF e.alignment.toNat
      rw [Nat.min_eq_right (by omega : 0xFFFFFFFF ≤ e.offset.toNat + e.size.toNat)]
      omega
  · simp [free, stop, h]

end Extent

/-- An array may do without a stride here; one it has is neither zero nor ill aligned. -/
def strideFault? (stride : Option UInt32) (alignment : UInt32) : Option SlotFault :=
  stride.bind fun s =>
    if s = 0 then some .zeroStride
    else if Word.isAligned s alignment then none
    else some (.arrayStride s alignment)

/-- Which elements have to be looked at: their offsets modulo sixteen repeat after this many. A
runtime array is looked at as if it had one element. -/
def elementIndices (stride length : UInt32) : List Nat :=
  List.range (min (max length.toNat 1) (16 / Nat.gcd 16 stride.toNat))

def elementOffset (offset stride : UInt32) (i : Nat) : UInt32 := offset + UInt32.ofNat i * stride

end SpirvRules
