import SpirvRules.Proofs.Index.Arrays
import SpirvRules.Proofs.Rule.Target

/-!
# Components within a location

The components a valid Vulkan module places are those that exact counting places: the value takes
four components at most, and does not leave its location. The end of a value is counted in words,
and where it is no word there is no verdict.
-/

set_option autoImplicit false

namespace SpirvRules

open Outcome

namespace Index

variable (ix : Index)

def Holds (type : Id) (s : NumericShape) : Prop :=
  ∃ inner, ix.Strips type inner ∧ ix.element? inner = none ∧ ix.IsNumeric inner s

def placed? (id : Id) : Option Nat → Option Id
  | none => (ix.pointer? id).map Prod.snd
  | some n => (ix.type? id).bind (·.member? n)

variable {ix} {x : Id} {s : NumericShape}

theorem holds_of_numericShape? (h : ix.numericShape? (ix.stripArrays x) = some s) :
    ix.Holds x s :=
  have hs := numericShape?_eq_some.1 h
  ⟨ix.stripArrays x, strips_stripArrays x, hs.element?, hs⟩

end Index

namespace NumericShape

/-- From component `first` on, there is room for the numbers in a location. -/
structure Fits (s : NumericShape) (first : UInt32) : Prop where
  first_le : first ≤ 3
  narrow : s.width ≠ 64 → first.toNat + s.count.toNat ≤ 4
  wide : s.width = 64 →
    s.count ≤ 2 ∧ (first = 0 ∨ first = 2) ∧ first.toNat + 2 * s.count.toNat ≤ 4

variable {s : NumericShape} {first : UInt32}

theorem even_iff_of_le (h : first ≤ 3) : first % 2 ≠ 1 ↔ first = 0 ∨ first = 2 := by
  simp only [UInt32.le_iff_toNat_le, UInt32.reduceToNat] at h
  simp only [Ne, ← UInt32.toNat_inj, UInt32.toNat_mod, UInt32.reduceToNat]
  omega

theorem toNat_consumed_wide (hw : s.width = 64) (hcount : s.count ≤ 2) :
    s.consumed.toNat = 2 * s.count.toNat := by
  rw [UInt32.le_iff_toNat_le] at hcount
  have htwo : s.consumed = 2 * s.count := if_pos hw
  rw [htwo, UInt32.toNat_mul]
  exact Nat.mod_eq_of_lt (Nat.lt_of_le_of_lt (Nat.mul_le_mul_left 2 hcount) (by decide))

theorem componentFault?_eq_none : s.componentFault? first = none ↔
    first ≤ 3 ∧ ¬(s.width = 64 ∧ 2 < s.count) ∧ ¬(s.width = 64 ∧ first % 2 = 1) ∧
      first.toNat + s.consumed.toNat ≤ 4 := by
  unfold componentFault?
  cases hsum : Word.add? first s.consumed with
  | none =>
    have hlarge := Word.add?_eq_none.1 hsum
    have hpast : ¬first.toNat + s.consumed.toNat ≤ 4 := by omega
    simp only [hpast, and_false, iff_false]
    split_ifs <;> nofun
  | some stop =>
    rw [← Word.add?_eq_some.1 hsum]
    simp only [UInt32.le_iff_toNat_le, UInt32.lt_iff_toNat_lt, UInt32.reduceToNat]
    split_ifs <;> simp_all

/-- Numbers pass exactly when they fit. -/
theorem componentFault?_eq_none_iff_fits : s.componentFault? first = none ↔ s.Fits first := by
  rw [componentFault?_eq_none]
  by_cases hw : s.width = 64
  · simp only [hw, true_and, UInt32.not_lt]
    constructor
    · rintro ⟨hfirst, hfew, heven, hlast⟩
      rw [toNat_consumed_wide hw hfew] at hlast
      exact ⟨hfirst, (absurd hw ·), fun _ => ⟨hfew, (even_iff_of_le hfirst).1 heven, hlast⟩⟩
    · intro h
      obtain ⟨hfew, heven, hlast⟩ := h.wide hw
      rw [toNat_consumed_wide hw hfew]
      exact ⟨h.first_le, hfew, (even_iff_of_le h.first_le).2 heven, hlast⟩
  · have hconsumed : s.consumed = s.count := if_neg hw
    simp only [hw, false_and, not_false_eq_true, true_and, hconsumed]
    constructor
    · rintro ⟨hfirst, hlast⟩
      exact ⟨hfirst, fun _ => hlast, (absurd · hw)⟩
    · exact fun h => ⟨h.first_le, h.narrow hw⟩

/-- There is no verdict on narrow numbers whose end is no word. -/
theorem componentFault?_eq_overflow : s.componentFault? first = some .overflow ↔
    s.width ≠ 64 ∧ first ≤ 3 ∧ 0x100000000 ≤ first.toNat + s.count.toNat := by
  constructor
  · intro h
    unfold componentFault? at h
    split_ifs at h with hfirst hmany hodd
    · cases h
    · cases h
    · cases h
    split at h
    · next hsum =>
      have hlarge := Word.add?_eq_none.1 hsum
      simp only [UInt32.not_lt, UInt32.le_iff_toNat_le, UInt32.reduceToNat] at hfirst
      have hnarrow : s.width ≠ 64 := by
        intro hw
        have hfew : s.count ≤ 2 := UInt32.not_lt.1 fun hlt => hmany ⟨hw, hlt⟩
        rw [toNat_consumed_wide hw hfew] at hlarge
        simp only [UInt32.le_iff_toNat_le, UInt32.reduceToNat] at hfew
        omega
      have hconsumed : s.consumed = s.count := if_neg hnarrow
      rw [hconsumed] at hlarge
      exact ⟨hnarrow, UInt32.le_iff_toNat_le.2 hfirst, hlarge⟩
    · split at h <;> cases h
  · rintro ⟨hnarrow, hfirst, hlarge⟩
    have hconsumed : s.consumed = s.count := if_neg hnarrow
    simp [componentFault?, hnarrow, UInt32.not_lt.2 hfirst, hconsumed, Word.add?_eq_none.2 hlarge]

example : (⟨true, 32, 4294967295⟩ : NumericShape).componentFault? 1 = some .overflow := by decide

end NumericShape

namespace Target

variable {cx : Context} {id type : Id} {d : Decoration}

theorem componentFault?_eq_none (hvulkan : cx.isVulkan = true) :
    componentFault? cx d type = none ↔
      ∃ s, cx.index.numericShape? (cx.index.stripArrays type) = some s ∧
        s.componentFault? (d.literal?.getD 0) = none := by
  unfold componentFault?
  cases cx.index.numericShape? (cx.index.stripArrays type) <;> simp [hvulkan]

/-- A component that passes is one of a type of numbers, and fits. -/
theorem holds_of_componentFault? (hvulkan : cx.isVulkan = true)
    (h : componentFault? cx d type = none) :
    ∃ s, cx.index.Holds type s ∧ s.Fits (d.literal?.getD 0) := by
  obtain ⟨s, hs, hnone⟩ := (componentFault?_eq_none hvulkan).1 h
  exact ⟨s, Index.holds_of_numericShape? hs,
    NumericShape.componentFault?_eq_none_iff_fits.1 hnone⟩

theorem memoryFault?_eq_none : memoryFault? cx id d = none ↔
    cx.isMemoryObject id = true ∧ ∃ c p, cx.index.pointer? id = some (c, p) := by
  unfold memoryFault?
  cases cx.isMemoryObject id <;> rcases cx.index.pointer? id with _ | ⟨c, p⟩ <;> simp

theorem component_of_objectFault? {op : Opcode} (hd : d.kind = .component)
    (h : objectFault? cx id d op = none) :
    cx.isMemoryObject id = true ∧
      ∃ c p, cx.index.pointer? id = some (c, p) ∧ componentFault? cx d p = none := by
  obtain ⟨_, hinstruction, _, hkind⟩ := objectFault?_eq_none.1 h
  simp only [instructionFault?, hd] at hinstruction
  simp only [kindFault?, hd] at hkind
  obtain ⟨hobject, c, p, hp⟩ := memoryFault?_eq_none.1 hinstruction
  rw [hp, Option.bind_some] at hkind
  exact ⟨hobject, c, p, hp, hkind⟩

theorem component_of_memberFault? {n : Nat} (hd : d.kind = .component)
    (h : memberFault? cx id d n = none) (htype : cx.index.placed? id (some n) = some type) :
    componentFault? cx d type = none := by
  rw [memberFault?, if_pos hd, ← Index.placed?, htype, Option.bind_some] at h
  exact h

/-- In a module valid for Vulkan, a component placed on a variable, a parameter or a member of a
struct begins a run of numbers that stays within its location. -/
theorem component_fits {m : Module} {o : Options} {t : Table}
    (hvulkan : o.targetEnv.isVulkan = true) (hv : m.validate o = .ok t) :
    ∃ ix, Index.ofModule m = .ok ix ∧ ∀ id, ix.op? id ≠ some .opDecorationGroup →
      ∀ d ∈ t.decorations id, d.kind = .component →
        (d.member = none →
          (ix.op? id = some .opVariable ∨ ix.op? id = some .opFunctionParameter) ∧
            ∃ c p, ix.pointer? id = some (c, p)) ∧
        (∀ k, d.member = some k → ∃ ms, ix.type? id = some (.struct ms) ∧ k < ms.length) ∧
        ∀ type, ix.placed? id d.member = some type →
          ∃ s, ix.Holds type s ∧ s.Fits (d.literal?.getD 0) := by
  obtain ⟨ix, hix, ht, hfaultless⟩ := Module.faultless_of_validate hv
  refine ⟨ix, hix, fun id hgroup d hd hkind => ?_⟩
  obtain ⟨op, _, hobject, hmember⟩ := hfaultless id hgroup d hd
  refine ⟨fun hwhole => ?_, fun k hk => ?_, fun type htype => ?_⟩
  · obtain ⟨hmemory, c, p, hp, _⟩ := component_of_objectFault? hkind (hobject hwhole)
    simp only [Context.isMemoryObject, Context.isVariable, Bool.or_eq_true,
      decide_eq_true_eq] at hmemory
    exact ⟨hmemory, c, p, hp⟩
  · exact Table.exists_struct_of_mem_decorations hix ht hd hk
  · refine @holds_of_componentFault? ⟨ix, t, o⟩ type d hvulkan ?_
    cases hplace : d.member with
    | none =>
      obtain ⟨_, c, p, hp, hnone⟩ := component_of_objectFault? hkind (hobject hplace)
      rw [hplace, Index.placed?, hp] at htype
      cases htype
      exact hnone
    | some k =>
      rw [hplace] at htype
      exact component_of_memberFault? hkind (hmember k hplace) htype

def locatedModule : Module where
  annotations := [.declaring .opDecorationGroup 1 [], .decorating 1 .component [.literal 2],
    ⟨.opGroupDecorate, none, none, [.id 1, .id 8]⟩,
    ⟨.opMemberDecorate, none, none, [.id 10, .literal 0, .decoration .component, .literal 2]⟩]
  globals := [.declaring .opTypeFloat 2 [.literal 32],
    .declaring .opTypeVector 3 [.id 2, .literal 2],
    .declaring .opTypeInt 4 [.literal 32, .literal 0],
    ⟨.opConstant, some 4, some 5, [.literal 3]⟩, .declaring .opTypeArray 6 [.id 3, .id 5],
    .declaring .opTypePointer 7 [.storageClass .input, .id 6],
    ⟨.opVariable, some 7, some 8, [.storageClass .input]⟩,
    .declaring .opTypeFloat 9 [.literal 64], .declaring .opTypeStruct 10 [.id 9]]

theorem component_fits_locatedModule :
    ∃ ix, Index.ofModule locatedModule = .ok ix ∧
      ix.placed? 8 none = some 6 ∧ ix.placed? 10 (some 0) = some 9 ∧
      (∃ s, ix.Holds 6 s ∧ s.Fits 2) ∧ ∃ s, ix.Holds 9 s ∧ s.Fits 2 := by
  have hrun : bothPass (Index.ofModule locatedModule)
      (locatedModule.validate { targetEnv := .vulkan10 }) (fun ix t =>
        decide (ix.op? 8 = some .opVariable ∧ ix.op? 10 = some .opTypeStruct ∧
          ix.placed? 8 none = some 6 ∧ ix.placed? 10 (some 0) = some 9 ∧
          ⟨.component, [.literal 2], none⟩ ∈ t.decorations 8 ∧
          ⟨.component, [.literal 2], some 0⟩ ∈ t.decorations 10)) = true := by
    decide +kernel
  obtain ⟨ix, t, hix, hv, hq⟩ := exists_of_bothPass hrun
  obtain ⟨h8, h10, hplaced, hplaced', hd, hd'⟩ := of_decide_eq_true hq
  obtain ⟨ix', hix', hfits⟩ := component_fits (by decide) hv
  rw [hix] at hix'
  cases hix'
  refine ⟨ix, hix, hplaced, hplaced', ?_, ?_⟩
  · exact (hfits 8 (by rw [h8]; nofun) _ hd rfl).2.2 6 hplaced
  · exact (hfits 10 (by rw [h10]; nofun) _ hd' rfl).2.2 9 hplaced'

end Target

end SpirvRules
