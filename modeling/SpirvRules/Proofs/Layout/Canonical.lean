import SpirvRules.Proofs.Layout.Alignments

/-!
# Canonical layouts

The one layout that uniform rules suggest: members one after the other, each as early as its
alignment lets it be, strides as short as they may be. A layout of this kind is a derivation over
the types of a struct, which gives each type its alignment and its size by exact count.
-/

set_option autoImplicit false

namespace SpirvRules

open Quantity

/-! ### How deep types go -/

namespace Index

variable (ix : Index)

def parts (id : Id) : List Id :=
  match ix.type? id with
  | some (.vector e _) => [e]
  | some (.matrix col _) => [col]
  | _ => Explicit.inner ix id

/-- No chain of types, each a part of the one before, has more than `n` of them, where a struct
counts as two. -/
def isShallow : (n : Nat) → Id → Bool
  | 0, _ => false
  | 1, id => !(ix.type? id).any TypeView.isStruct && (ix.parts id).isEmpty
  | n + 2, id => (ix.parts id).all fun x =>
    if (ix.type? id).any TypeView.isStruct then isShallow n x else isShallow (n + 1) x

variable {ix} {n m : Nat} {id x : Id}

theorem isShallow_succ (h : ix.isShallow n id) : ix.isShallow (n + 1) id := by
  induction n using Nat.strongRecOn generalizing id with
  | ind n ih =>
    match n with
    | 0 => cases h
    | 1 =>
      have hempty := ((Bool.and_eq_true _ _).mp h).2
      simp [isShallow, List.isEmpty_iff.1 hempty]
    | n + 2 =>
      simp only [isShallow, List.all_eq_true] at h ⊢
      intro x hx
      have hpart := h x hx
      split at hpart
      · next hstruct => exact if_pos hstruct ▸ ih n (by omega) hpart
      · next hstruct => exact if_neg hstruct ▸ ih (n + 1) (by omega) hpart

theorem isShallow_mono (h : ix.isShallow n id) (hnm : n ≤ m) : ix.isShallow m id := by
  induction m, hnm using Nat.le_induction with
  | base => exact h
  | succ m _ ih => exact isShallow_succ ih

theorem isShallow_part (h : ix.isShallow (n + 1) id) (hx : x ∈ ix.parts id) :
    ix.isShallow n x := by
  cases n with
  | zero =>
    have hempty := ((Bool.and_eq_true _ _).mp h).2
    simp [List.isEmpty_iff.1 hempty] at hx
  | succ n =>
    have hpart := List.all_eq_true.1 h x hx
    split at hpart
    · exact isShallow_succ hpart
    · exact hpart

theorem mem_parts_of_mem_inner (hx : x ∈ Explicit.inner ix id) : x ∈ ix.parts id := by
  unfold parts
  split
  · next e _ hv => simp [Explicit.inner, hv, TypeView.element?, TypeView.memberIds] at hx
  · next col _ hv => simp [Explicit.inner, hv, TypeView.element?, TypeView.memberIds] at hx
  · exact hx

theorem isShallow_inner (h : ix.isShallow (n + 1) id) (hx : x ∈ Explicit.inner ix id) :
    ix.isShallow n x := isShallow_part h (mem_parts_of_mem_inner hx)

theorem isShallow_element {e length : Id} (hv : ix.type? id = some (.array e length)) (n : Nat)
    (h : ix.isShallow (n + 1) id) : ix.isShallow n e :=
  isShallow_part h (by simp [parts, Explicit.inner, hv, TypeView.element?])

theorem isShallow_member {j : Nat} (hx : (ix.members id)[j]? = some x) (n : Nat)
    (h : ix.isShallow (n + 1) id) : ix.isShallow n x :=
  isShallow_inner h (Explicit.mem_inner_iff.2 (.inr (List.mem_of_getElem? hx)))

section Matrix

variable {col e : Id} {columns rows : UInt32}

theorem isShallow_component (hv : ix.type? id = some (.vector e rows)) (n : Nat)
    (h : ix.isShallow (n + 1) id) : ix.isShallow n e :=
  isShallow_part h (by simp [parts, hv])

theorem isShallow_column (hv : ix.type? id = some (.matrix col columns)) (n : Nat)
    (h : ix.isShallow (n + 1) id) : ix.isShallow n col :=
  isShallow_part h (by simp [parts, hv])

/-- A component is two levels below a matrix, so there is room enough for it one level below. -/
theorem isShallow_cell (hv : ix.type? id = some (.matrix col columns))
    (hcol : ix.type? col = some (.vector e rows)) (n : Nat) (h : ix.isShallow (n + 1) id) :
    ix.isShallow n e := by
  have hc := isShallow_column hv n h
  cases n with
  | zero => cases hc
  | succ n => exact isShallow_succ (isShallow_component hcol n hc)

end Matrix

section Struct

variable {ms : List Operand} (hv : ix.type? id = some (.struct ms))

include hv

theorem one_lt_of_isShallow (h : ix.isShallow n id) : 1 < n := by
  match n with
  | 0 => cases h
  | 1 => simp [isShallow, hv, TypeView.isStruct] at h
  | n + 2 => omega

theorem isShallow_member_of_struct (h : ix.isShallow (n + 2) id) (hx : x ∈ ix.members id) :
    ix.isShallow n x := by
  have hinner : x ∈ ix.parts id := by
    simpa [parts, hv] using Explicit.mem_inner_iff.2 (.inr hx)
  have hpart := List.all_eq_true.1 h x hinner
  rwa [if_pos (Index.isStruct_iff.2 ⟨ms, hv⟩)] at hpart

end Struct

end Index

/-! ### Derivations -/

structure Span where
  offset : Nat
  alignment : Nat
  size : Nat

namespace Span

def stop (s : Span) (padded : Bool) : Nat :=
  if padded then Word.ceil (s.offset + s.size) s.alignment else s.offset + s.size

end Span

def Index.isPadded (ix : Index) (id : Id) : Bool :=
  (ix.type? id).any fun v => v.isSizedArray || v.isStruct

def Index.Number (ix : Index) (id : Id) (octets : Nat) : Prop :=
  ∃ v s, ix.type? id = some v ∧ v.scalarShape? = some s ∧ s.width ∈ [8, 16, 32, 64] ∧
    s.width.toNat = 8 * octets

def Index.ShortVector (ix : Index) (id : Id) (octets : Nat) (count : UInt32) : Prop :=
  ∃ e, ix.type? id = some (.vector e count) ∧ count ∈ [2, 3, 4] ∧ ix.Number e octets

/-- A member says of the matrices in it which way they are stored, one way only, and with which
stride. -/
structure Table.Stores (t : Table) (struct : Id) (member : Nat) (rowMajor : Bool) (stride : Nat) :
    Prop where
  row : t.memberHas struct member .rowMajor = rowMajor
  col : t.memberHas struct member .colMajor = !rowMajor
  given : t.memberHas struct member .matrixStride = true
  stride : (t.constraints struct member).matrixStride.toNat = stride

instance (t : Table) (struct : Id) (member : Nat) (rowMajor : Bool) (stride : Nat) :
    Decidable (t.Stores struct member rowMajor stride) :=
  decidable_of_iff (t.memberHas struct member .rowMajor = rowMajor ∧
      t.memberHas struct member .colMajor = !rowMajor ∧
      t.memberHas struct member .matrixStride = true ∧
      (t.constraints struct member).matrixStride.toNat = stride)
    ⟨fun ⟨row, col, given, stride⟩ => ⟨row, col, given, stride⟩,
      fun h => ⟨h.row, h.col, h.given, h.stride⟩⟩

def matrixAlignment (octets : Nat) (columns rows : UInt32) (rowMajor : Bool) : Nat :=
  Word.ceil (octets * (spread (if rowMajor then columns else rows)).toNat) 16

def matrixSize (octets : Nat) (columns rows : UInt32) (rowMajor : Bool) (stride : Nat) : Nat :=
  if rowMajor then (rows.toNat - 1) * stride + columns.toNat * octets else columns.toNat * stride

def largest (members : List Id) (p : Nat → Span) : Nat :=
  (members.zipIdx.map fun m => (p m.2).alignment).foldl max 1

structure Consecutive (ix : Index) (t : Table) (struct : Id) (p : Nat → Span) : Prop where
  offset : ∀ j < (ix.members struct).length,
    (t.memberOffset? struct j).map UInt32.toNat = some (p j).offset
  first : (p 0).offset = 0
  next : ∀ j m, (ix.members struct)[j]? = some m → j + 1 < (ix.members struct).length →
    (p (j + 1)).offset = Word.ceil ((p j).stop (ix.isPadded m)) (p (j + 1)).alignment

instance (ix : Index) (t : Table) (struct : Id) (p : Nat → Span) :
    Decidable (Consecutive ix t struct p) :=
  decidable_of_iff ((∀ j < (ix.members struct).length,
        (t.memberOffset? struct j).map UInt32.toNat = some (p j).offset) ∧ (p 0).offset = 0 ∧
      ∀ x ∈ (ix.members struct).zipIdx, x.2 + 1 < (ix.members struct).length →
        (p (x.2 + 1)).offset =
          Word.ceil ((p x.2).stop (ix.isPadded x.1)) (p (x.2 + 1)).alignment)
    ⟨fun ⟨offset, first, next⟩ => ⟨offset, first, fun j m hm =>
        next (m, j) (List.mk_mem_zipIdx_iff_getElem?.2 hm)⟩,
      fun h => ⟨h.offset, h.first, fun x hx =>
        h.next x.2 x.1 (List.mk_mem_zipIdx_iff_getElem?.1 hx)⟩⟩

/-- A type is laid out canonically as a member of a struct holds it, with an alignment and a size.
A struct, whose members hold their own, does not look at what holds it. -/
inductive Canonical (ix : Index) (t : Table) :
    (struct : Id) → (member : Nat) → (type : Id) → (alignment size : Nat) → Prop where
  | number {x id : Id} {k b : Nat} (h : ix.Number id b) : Canonical ix t x k id b b
  | vector {x id : Id} {k b : Nat} {n : UInt32} (h : ix.ShortVector id b n) :
      Canonical ix t x k id (b * (spread n).toNat) (b * n.toNat)
  | matrix {x id col : Id} {k b : Nat} {n rows : UInt32} {r : Bool}
      (hv : ix.type? id = some (.matrix col n)) (hn : n ∈ [2, 3, 4])
      (hcol : ix.ShortVector col b rows)
      (hs : t.Stores x k r (matrixAlignment b n rows r)) :
      Canonical ix t x k id (matrixAlignment b n rows r)
        (matrixSize b n rows r (matrixAlignment b n rows r))
  | array {x id e length : Id} {k n a s : Nat} {stride : UInt32}
      (hv : ix.type? id = some (.array e length)) (hn : ix.integer? length = some n) (hpos : 0 < n)
      (hs : t.literal? id .arrayStride = some stride)
      (hstride : stride.toNat = Word.ceil s (Word.ceil a 16)) (he : Canonical ix t x k e a s) :
      Canonical ix t x k id (Word.ceil a 16) ((n - 1) * stride.toNat + s)
  | struct {x id : Id} {k : Nat} {ms : List Operand} {p : Nat → Span}
      (hv : ix.type? id = some (.struct ms)) (hne : ms ≠ []) (hids : ∀ o ∈ ms, o.anyId?.isSome)
      (hp : Consecutive ix t id p)
      (hm : ∀ j m, (ix.members id)[j]? = some m →
        Canonical ix t id j m (p j).alignment (p j).size) :
      Canonical ix t x k id (Word.ceil (largest (ix.members id) p) 16)
        ((p (ms.length - 1)).offset + (p (ms.length - 1)).size)

/-! ### Alignments and sizes in a derivation -/

section Facts

variable {ix : Index} {t : Table} {x id : Id} {k a s b stride : Nat} {n : UInt32}

def uniformAlignments : List Nat := [1, 2, 4, 8, 16, 32]

theorem uniformAlignments_dvd {a b : Nat} (ha : a ∈ uniformAlignments)
    (hb : b ∈ uniformAlignments) (h : a ≤ b) : a ∣ b := by
  have hall : ∀ a ∈ uniformAlignments, ∀ b ∈ uniformAlignments, a ≤ b → a ∣ b := by decide
  exact hall a ha b hb h

theorem ceil_mem_uniformAlignments (ha : a ∈ uniformAlignments) :
    Word.ceil a 16 ∈ uniformAlignments := by
  have hall : ∀ a ∈ uniformAlignments, Word.ceil a 16 ∈ uniformAlignments := by decide
  exact hall a ha

theorem dvd_ceil_of_mem (ha : a ∈ uniformAlignments) : a ∣ Word.ceil a 16 :=
  uniformAlignments_dvd ha (ceil_mem_uniformAlignments ha) (Word.le_ceil a 16)

theorem Index.Number.mem (h : ix.Number id b) : b ∈ [1, 2, 4, 8] := by
  obtain ⟨v, s, _, _, hw, hb⟩ := h
  simp only [List.mem_cons, List.not_mem_nil, or_false] at hw ⊢
  rcases hw with hw | hw | hw | hw
  all_goals
    rw [hw] at hb
    simp only [UInt32.reduceToNat] at hb
    omega

theorem count_bounds (hn : n ∈ [2, 3, 4]) :
    0 < n.toNat ∧ n.toNat ≤ 4 ∧ n.toNat ≤ (spread n).toNat := by
  simp only [List.mem_cons, List.not_mem_nil, or_false] at hn
  rcases hn with rfl | rfl | rfl <;> decide

theorem mul_spread_mem (hb : b ∈ [1, 2, 4, 8]) (hn : n ∈ [2, 3, 4]) :
    b * (spread n).toNat ∈ uniformAlignments := by
  simp only [List.mem_cons, List.not_mem_nil, or_false] at hb hn
  rcases hb with rfl | rfl | rfl | rfl <;> rcases hn with rfl | rfl | rfl <;> decide

theorem matrixAlignment_mem {rows : UInt32} (hb : b ∈ [1, 2, 4, 8]) (hn : n ∈ [2, 3, 4])
    (hrows : rows ∈ [2, 3, 4]) (r : Bool) : matrixAlignment b n rows r ∈ uniformAlignments := by
  apply ceil_mem_uniformAlignments
  cases r with
  | true => exact mul_spread_mem hb hn
  | false => exact mul_spread_mem hb hrows

theorem foldl_max_mem_uniform {as : List Nat} {a : Nat} (ha : a ∈ uniformAlignments)
    (h : ∀ b ∈ as, b ∈ uniformAlignments) : as.foldl max a ∈ uniformAlignments := by
  have hall : ∀ a ∈ uniformAlignments, ∀ b ∈ uniformAlignments, max a b ∈ uniformAlignments := by
    decide
  induction as generalizing a with
  | nil => exact ha
  | cons b as ih => exact ih (hall a ha b (h b (by simp))) fun c hc => h c (by simp [hc])

theorem le_foldl_max (as : List Nat) (a : Nat) :
    a ≤ as.foldl max a ∧ ∀ b ∈ as, b ≤ as.foldl max a := by
  induction as generalizing a with
  | nil => simp
  | cons c as ih =>
    obtain ⟨hle, hall⟩ := ih (max a c)
    refine ⟨Nat.le_trans (Nat.le_max_left a c) hle, fun b hb => ?_⟩
    rcases List.mem_cons.1 hb with rfl | hb
    · exact Nat.le_trans (Nat.le_max_right a b) hle
    · exact hall b hb

theorem largest_mem_uniform {l : List Id} {p : Nat → Span}
    (h : ∀ j m, l[j]? = some m → (p j).alignment ∈ uniformAlignments) :
    largest l p ∈ uniformAlignments := by
  apply foldl_max_mem_uniform (by decide)
  intro b hb
  obtain ⟨⟨m, j⟩, hm, rfl⟩ := List.mem_map.1 hb
  exact h j m (List.mk_mem_zipIdx_iff_getElem?.1 hm)

theorem le_largest {l : List Id} {p : Nat → Span} {j : Nat} {m : Id} (hm : l[j]? = some m) :
    (p j).alignment ≤ largest l p :=
  (le_foldl_max _ 1).2 _
    (List.mem_map.2 ⟨(m, j), List.mk_mem_zipIdx_iff_getElem?.2 hm, rfl⟩)

theorem Canonical.alignment_mem (h : Canonical ix t x k id a s) : a ∈ uniformAlignments := by
  induction h with
  | number h =>
    have hall : ∀ b ∈ [1, 2, 4, 8], b ∈ uniformAlignments := by decide
    exact hall _ h.mem
  | vector h =>
    obtain ⟨e, _, hn, he⟩ := h
    exact mul_spread_mem he.mem hn
  | matrix _ hn hcol _ =>
    obtain ⟨e, _, hrows, he⟩ := hcol
    exact matrixAlignment_mem he.mem hn hrows _
  | array _ _ _ _ _ _ ih => exact ceil_mem_uniformAlignments ih
  | struct _ _ _ _ _ ih => exact ceil_mem_uniformAlignments (largest_mem_uniform ih)

theorem Canonical.alignment_ne_zero (h : Canonical ix t x k id a s) : a ≠ 0 := by
  have hall : ∀ a ∈ uniformAlignments, a ≠ 0 := by decide
  exact hall a h.alignment_mem

theorem getElem?_members {ms : List Operand} (hv : ix.type? id = some (.struct ms))
    (hids : ∀ o ∈ ms, o.anyId?.isSome) (j : Nat) :
    (ix.members id)[j]? = (TypeView.struct ms).member? j := by
  rw [Index.members_eq hv]
  simp only [TypeView.memberIds, TypeView.member?]
  clear hv
  induction ms generalizing j with
  | nil => simp
  | cons o ms ih =>
    obtain ⟨m, hm⟩ := Option.isSome_iff_exists.1 (hids o (by simp))
    rw [List.filterMap_cons_some hm]
    cases j with
    | zero => simp [hm]
    | succ j => simpa using ih (fun o' ho' => hids o' (by simp [ho'])) j

theorem length_members {ms : List Operand} (hv : ix.type? id = some (.struct ms))
    (hids : ∀ o ∈ ms, o.anyId?.isSome) : (ix.members id).length = ms.length := by
  rw [Index.members_eq hv]
  clear hv
  induction ms with
  | nil => rfl
  | cons o ms ih =>
    obtain ⟨m, hm⟩ := Option.isSome_iff_exists.1 (hids o (by simp))
    simp only [TypeView.memberIds] at ih ⊢
    rw [List.filterMap_cons_some hm, List.length_cons, List.length_cons,
      ih fun o' ho' => hids o' (by simp [ho'])]

theorem exists_last {ms : List Operand} (hv : ix.type? id = some (.struct ms)) (hne : ms ≠ [])
    (hids : ∀ o ∈ ms, o.anyId?.isSome) :
    ∃ last m, ms.length = last + 1 ∧ (ix.members id)[last]? = some m := by
  have hlen := length_members hv hids
  have hpos := List.length_pos_iff.2 hne
  exact ⟨ms.length - 1, _, by omega, List.getElem?_eq_getElem (by omega)⟩

theorem Canonical.size_pos (h : Canonical ix t x k id a s) : 0 < s := by
  have octets : ∀ {b}, b ∈ [1, 2, 4, 8] → 0 < b := by decide
  induction h with
  | number h => exact octets h.mem
  | vector h =>
    obtain ⟨e, _, hn, he⟩ := h
    exact Nat.mul_pos (octets he.mem) (count_bounds hn).1
  | @matrix _ _ _ _ b n rows r _ hn hcol _ =>
    obtain ⟨e, _, hrows, he⟩ := hcol
    have hpos : matrixAlignment b n rows r ≠ 0 := by
      have hall : ∀ a ∈ uniformAlignments, a ≠ 0 := by decide
      exact hall _ (matrixAlignment_mem he.mem hn hrows r)
    have hcells := Nat.mul_pos (count_bounds hn).1 (octets he.mem)
    have hcolumns := Nat.mul_pos (count_bounds hn).1 (Nat.pos_of_ne_zero hpos)
    cases r with
    | true => simp only [matrixSize, if_true]; omega
    | false => simpa [matrixSize] using hcolumns
  | array _ _ _ _ _ _ ih => omega
  | struct hv hne hids _ _ ih =>
    obtain ⟨last, m, hlen, hm⟩ := exists_last hv hne hids
    have hlast := ih last m hm
    rw [hlen, Nat.add_sub_cancel]
    omega

theorem Span.end_le_stop (s : Span) (padded : Bool) : s.offset + s.size ≤ s.stop padded := by
  have hle := Word.le_ceil (s.offset + s.size) s.alignment
  unfold stop
  split
  · exact hle
  · exact Nat.le_refl _

namespace Consecutive

variable {p : Nat → Span} {j i : Nat} {m : Id}

theorem stop_le (hp : Consecutive ix t id p) (hm : (ix.members id)[j]? = some m)
    (hj : j + 1 < (ix.members id).length) :
    (p j).stop (ix.isPadded m) ≤ (p (j + 1)).offset := by
  rw [hp.next j m hm hj]
  exact Word.le_ceil _ _

theorem end_le_offset (hp : Consecutive ix t id p) (hj : j + 1 < (ix.members id).length) :
    (p j).offset + (p j).size ≤ (p (j + 1)).offset :=
  Nat.le_trans ((p j).end_le_stop _)
    (hp.stop_le (List.getElem?_eq_getElem (Nat.lt_of_succ_lt hj)) hj)

theorem offset_le (hp : Consecutive ix t id p) (hji : j ≤ i) (hi : i < (ix.members id).length) :
    (p j).offset ≤ (p i).offset := by
  induction i, hji using Nat.le_induction with
  | base => exact Nat.le_refl _
  | succ i _ ih =>
    have hle := hp.end_le_offset hi
    have hi' := ih (Nat.lt_of_succ_lt hi)
    omega

theorem end_le (hp : Consecutive ix t id p) (hji : j ≤ i) (hi : i < (ix.members id).length) :
    (p j).offset + (p j).size ≤ (p i).offset + (p i).size := by
  rcases Nat.lt_or_eq_of_le hji with hlt | rfl
  · have hend := hp.end_le_offset (Nat.lt_of_le_of_lt hlt hi)
    have hle : (p (j + 1)).offset ≤ (p i).offset := hp.offset_le hlt hi
    omega
  · exact Nat.le_refl _

theorem aligned (hp : Consecutive ix t id p) (hj : j < (ix.members id).length)
    (ha : (p j).alignment ≠ 0) : (p j).alignment ∣ (p j).offset := by
  cases j with
  | zero => simp [hp.first]
  | succ j =>
    rw [hp.next j _ (List.getElem?_eq_getElem (Nat.lt_of_succ_lt hj)) hj]
    exact Word.dvd_ceil _ ha

/-- An offset with something after it is not the one that counts as none. -/
theorem usable (hp : Consecutive ix t id p) (hji : j ≤ i) (hi : i < (ix.members id).length)
    (hpos : 0 < (p j).size) (hs : (p i).offset + (p i).size < 0x100000000) :
    ∃ o, t.usableOffset? id j = some o ∧ o.toNat = (p j).offset := by
  obtain ⟨o, ho, hoffset⟩ := Option.map_eq_some_iff.1 (hp.offset j (by omega))
  have hend := hp.end_le hji hi
  refine ⟨o, Table.usableOffset?_eq_some.2 ⟨ho, fun htop => ?_⟩, hoffset⟩
  rw [htop, show Word.top.toNat = 0xFFFFFFFF from rfl] at hoffset
  omega

end Consecutive

theorem dvd_ceil_largest {p : Nat → Span} {l : List Id} {j : Nat} {m : Id}
    (hmem : ∀ j m, l[j]? = some m → (p j).alignment ∈ uniformAlignments)
    (hm : l[j]? = some m) : (p j).alignment ∣ Word.ceil (largest l p) 16 := by
  apply uniformAlignments_dvd (hmem j m hm) (ceil_mem_uniformAlignments (largest_mem_uniform hmem))
  exact Nat.le_trans (le_largest hm) (Word.le_ceil _ 16)

namespace Canonical

theorem of_members {ms : List Operand} {l : List Id} {p : Nat → Span}
    (hv : ix.type? id = some (.struct ms)) (hl : ix.members id = l) (hne : ms ≠ [])
    (hids : ∀ o ∈ ms, o.anyId?.isSome) (hp : Consecutive ix t id p)
    (hm : ∀ j m, l[j]? = some m → Canonical ix t id j m (p j).alignment (p j).size) :
    Canonical ix t x k id (Word.ceil (largest l p) 16)
      ((p (ms.length - 1)).offset + (p (ms.length - 1)).size) := by
  subst hl
  exact .struct hv hne hids hp hm

/-! What a derivation for a type of some kind ends in. -/

theorem of_number {v : TypeView} (h : ix.Number id b) (hv : ix.type? id = some v) :
    v.scalarShape?.isSome := by
  obtain ⟨v', s, hv', hs, _⟩ := h
  cases hv.symm.trans hv'
  simp [hs]

theorem of_struct {ms : List Operand} (h : Canonical ix t x k id a s)
    (hv : ix.type? id = some (.struct ms)) :
    ms ≠ [] ∧ (∀ o ∈ ms, o.anyId?.isSome) ∧ ∃ p, Consecutive ix t id p ∧
      (∀ j m, (ix.members id)[j]? = some m →
        Canonical ix t id j m (p j).alignment (p j).size) ∧
      a = Word.ceil (largest (ix.members id) p) 16 ∧
      s = (p (ms.length - 1)).offset + (p (ms.length - 1)).size := by
  cases h with
  | number h => cases of_number h hv
  | vector h =>
    obtain ⟨e, hv', _⟩ := h
    cases hv.symm.trans hv'
  | matrix hv' => cases hv.symm.trans hv'
  | array hv' => cases hv.symm.trans hv'
  | struct hv' hne hids hp hm =>
    cases hv.symm.trans hv'
    exact ⟨hne, hids, _, hp, hm, rfl, rfl⟩

theorem of_matrix {col : Id} (h : Canonical ix t x k id a s)
    (hv : ix.type? id = some (.matrix col n)) :
    (∃ r, t.Stores x k r a) ∧ Word.ceil a 16 = a := by
  cases h with
  | number h => cases of_number h hv
  | vector h =>
    obtain ⟨e, hv', _⟩ := h
    cases hv.symm.trans hv'
  | matrix _ _ _ hs => exact ⟨⟨_, hs⟩, Word.ceil_ceil _ _⟩
  | array hv' => cases hv.symm.trans hv'
  | struct hv' => cases hv.symm.trans hv'

theorem of_element {e : Id} (h : Canonical ix t x k id a s) (he : ix.element? id = some e) :
    ∃ length n stride a' s', ix.type? id = some (.array e length) ∧
      ix.integer? length = some n ∧ 0 < n ∧ t.literal? id .arrayStride = some stride ∧
      stride.toNat = Word.ceil s' a ∧ Canonical ix t x k e a' s' ∧ a = Word.ceil a' 16 ∧
      s = (n - 1) * stride.toNat + s' := by
  obtain ⟨v, hv, hve⟩ := Option.bind_eq_some_iff.1 he
  cases h with
  | number h =>
    have hs := of_number h hv
    cases v <;> simp [TypeView.element?, TypeView.scalarShape?] at hve hs
  | vector h =>
    obtain ⟨_, hv', _⟩ := h
    cases hv.symm.trans hv'
    cases hve
  | matrix hv' =>
    cases hv.symm.trans hv'
    cases hve
  | array hv' hn hpos hs hstride h =>
    cases hv.symm.trans hv'
    cases hve
    exact ⟨_, _, _, _, _, hv, hn, hpos, hs, hstride, h, rfl, rfl⟩
  | struct hv' =>
    cases hv.symm.trans hv'
    cases hve

theorem not_runtimeArray (h : Canonical ix t x k id a s) :
    (ix.type? id).any TypeView.isRuntimeArray = false := by
  cases hv : ix.type? id with
  | none => rfl
  | some v =>
    cases v with
    | runtimeArray e =>
      obtain ⟨_, _, _, _, _, hv', _⟩ := h.of_element (Index.element?_runtimeArray hv)
      cases hv.symm.trans hv'
    | _ => rfl

end Canonical

end Facts

end SpirvRules
