import SpirvRules.Layout.Walk

/-!
# Faults of slots

What it takes for each of the tests on a slot, and on a level of an array, to find nothing; and that
none of them finds an offset missing.
-/

set_option autoImplicit false

namespace SpirvRules

namespace Extent

variable {e : Extent} {free : UInt32} {later : List Slot}

theorem orderFault?_eq_none :
    e.orderFault? later = none ↔ (e.view.any TypeView.isRuntimeArray →
      ∀ s ∈ later, ∀ o, s.offset = some o → o ≤ e.offset) := by
  simp only [orderFault?, ite_eq_right_iff, reduceCtorEq, imp_false, not_and, List.any_eq_true,
    Option.any_eq_true, decide_eq_true_eq, not_exists]
  constructor
  · intro h hv s hs o ho
    exact UInt32.not_lt.1 (h hv s hs o ho)
  · intro h hv s hs o ho
    exact UInt32.not_lt.2 (h hv s hs o ho)

theorem alignmentFault?_eq_none :
    e.alignmentFault? = none ↔
      Word.isAligned e.offset (e.component.getD e.alignment) = true := by
  unfold alignmentFault?
  cases e.component <;> simp

theorem overlapFault?_eq_none : e.overlapFault? free = none ↔ free ≤ e.offset := by
  simp [overlapFault?]

theorem straddleFault?_eq_none :
    e.straddleFault? = none ↔ (e.component.isSome → straddles e.offset e.size = false) := by
  simp [straddleFault?]

theorem matrixFault?_eq_none {view : Option TypeView} {c : Constraints} {a : UInt32} :
    matrixFault? view c a = none ↔
      (view.any TypeView.isMatrix → Word.isAligned c.matrixStride a = true) := by
  simp [matrixFault?]

theorem fault?_eq_none :
    e.fault? free later = none ↔ e.orderFault? later = none ∧ e.alignmentFault? = none ∧
      e.overlapFault? free = none ∧ e.straddleFault? = none ∧
      matrixFault? e.view e.constraints e.alignment = none := by
  simp [fault?]

theorem offset_le_stop (e : Extent) (p : LayoutPolicy) : e.offset.toNat ≤ e.stop p := by
  have h := Word.le_ceil (e.offset.toNat + e.size.toNat) e.alignment.toNat
  unfold stop
  split <;> omega

theorem end_le_stop (e : Extent) (p : LayoutPolicy) : e.offset.toNat + e.size.toNat ≤ e.stop p := by
  have h := Word.le_ceil (e.offset.toNat + e.size.toNat) e.alignment.toNat
  unfold stop
  split
  · exact h
  · exact Nat.le_refl _

theorem offset_le_free (e : Extent) (p : LayoutPolicy) : e.offset ≤ e.free p := by
  have ho := e.offset.toNat_lt
  have hs := offset_le_stop e p
  rw [UInt32.le_iff_toNat_le, toNat_free]
  omega

end Extent

theorem strideFault?_eq_none {stride : Option UInt32} {a : UInt32} :
    strideFault? stride a = none ↔
      ∀ s, stride = some s → s ≠ 0 ∧ Word.isAligned s a = true := by
  cases stride with
  | none => simp [strideFault?]
  | some s =>
    simp only [strideFault?, Option.bind_some, Option.some.injEq, forall_eq']
    by_cases hs : s = 0
    · simp [hs]
    · simp [hs]

theorem Walk.elementFault?_eq_none {stride size : UInt32} :
    elementFault? stride size = none ↔ size ≤ stride := by
  simp [elementFault?]

/-! ### Faults of slots other than a missing offset -/

theorem matrixFault?_ne_noOffset (view : Option TypeView) (c : Constraints) (a : UInt32) :
    matrixFault? view c a ≠ some .noOffset := by
  unfold matrixFault?
  split <;> simp

theorem strideFault?_ne_noOffset (stride : Option UInt32) (a : UInt32) :
    strideFault? stride a ≠ some .noOffset := by
  cases stride with
  | none => simp [strideFault?]
  | some s =>
    simp only [strideFault?, Option.bind_some]
    split
    · simp
    · split <;> simp

theorem Walk.elementFault?_ne_noOffset (stride size : UInt32) :
    elementFault? stride size ≠ some .noOffset := by
  unfold elementFault?
  split <;> simp

theorem Extent.fault?_ne_noOffset (e : Extent) (free : UInt32) (later : List Slot) :
    e.fault? free later ≠ some .noOffset := by
  have horder : e.orderFault? later ≠ some .noOffset := by
    unfold Extent.orderFault?
    split <;> simp
  have halign : e.alignmentFault? ≠ some .noOffset := by
    unfold Extent.alignmentFault?
    split <;> split <;> simp
  have hoverlap : e.overlapFault? free ≠ some .noOffset := by
    unfold Extent.overlapFault?
    split <;> simp
  have hstraddle : e.straddleFault? ≠ some .noOffset := by
    unfold Extent.straddleFault?
    split <;> simp
  have either : ∀ {a b : Option SlotFault}, a ≠ some .noOffset → b ≠ some .noOffset →
      (a <|> b) ≠ some .noOffset := by
    intro a b ha hb
    cases a with
    | none => exact hb
    | some f => exact ha
  exact either horder <| either halign <| either hoverlap <| either hstraddle <|
    matrixFault?_ne_noOffset e.view e.constraints e.alignment

end SpirvRules
