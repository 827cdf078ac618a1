import Mathlib.Data.Nat.ModEq
import SpirvRules.Proofs.Layout.Alignments

/-!
# How far apart offsets are alike

What is aligned to some octets is found the same wherever it is moved by a multiple of them, and of
sixteen where it may hold vectors. The alignment of a type bounds those of its members and elements,
so offsets that are alike for a type are alike for all that is in it.
-/

set_option autoImplicit false

namespace SpirvRules

namespace Quantity

variable {ix : Index} {t : Table}

/-- The same is found at every so many octets of what is aligned to `a`. A vector is aligned to more
than one octet and has to be in a slot of sixteen. -/
def period (a : UInt32) : Nat := if a = 1 then 1 else max 16 a.toNat

theorem dvd_period {a : UInt32} (ha : a ∈ powers) : a.toNat ∣ period a := by
  have hall : ∀ a ∈ powers, a.toNat ∣ period a := by decide
  exact hall a ha

theorem sixteen_dvd_period {a : UInt32} (ha : a ∈ powers) (h : a ≠ 1) : 16 ∣ period a := by
  have hall : ∀ a ∈ powers, a ≠ 1 → 16 ∣ period a := by decide
  exact hall a ha h

theorem period_dvd_256 {a : UInt32} (ha : a ∈ powers) : period a ∣ 256 := by
  have hall : ∀ a ∈ powers, period a ∣ 256 := by decide
  exact hall a ha

theorem period_dvd_period {a b : UInt32} (ha : a ∈ powers) (hb : b ∈ powers) (h : a ≤ b) :
    period a ∣ period b := by
  have hall : ∀ a ∈ powers, ∀ b ∈ powers, a ≤ b → period a ∣ period b := by decide
  exact hall a ha b hb h

theorem mulSat_spread_ne_one {r n : UInt32} (hr : r ∈ units) (hn : n ∈ [2, 3, 4, 8, 16]) :
    Word.mulSat r (spread n) ≠ 1 := by
  have hall : ∀ r ∈ units, ∀ n ∈ [2, 3, 4, 8, 16], Word.mulSat r (spread n) ≠ 1 := by decide
  exact hall r hr n hn

/-- Steps of a stride that agree modulo sixteen agree for all that the stride is a multiple of. -/
theorem modEq_period {a : UInt32} (ha : a ∈ powers) {i j s : Nat} (hs : a.toNat ∣ s)
    (hij : i * s ≡ j * s [MOD 16]) : i * s ≡ j * s [MOD period a] := by
  have hzero : ∀ k, k * s ≡ 0 [MOD a.toNat] := fun k =>
    Nat.modEq_zero_iff_dvd.2 (Nat.dvd_mul_left_of_dvd hs k)
  have hcases : ∀ a ∈ powers, period a = 1 ∨ period a = 16 ∨ period a = a.toNat := by decide
  rcases hcases a ha with h | h | h
  · rw [h]
    exact Nat.modEq_one
  · rwa [h]
  · rw [h]
    exact (hzero i).trans (hzero j).symm

theorem word_le_foldl_max {vs : List UInt32} {x v : UInt32} (h : v ≤ x ∨ v ∈ vs) :
    v ≤ vs.foldl max x := by
  induction vs generalizing x with
  | nil => exact h.resolve_right (by simp)
  | cons w vs ih =>
    have hmax : x ≤ max x w ∧ w ≤ max x w := by
      simp only [max, UInt32.le_iff_toNat_le]
      split <;> omega
    rcases h with h | h
    · exact ih (.inl (UInt32.le_trans h hmax.1))
    · rcases List.mem_cons.1 h with rfl | h
      · exact ih (.inl hmax.2)
      · exact ih (.inr h)

end Quantity

namespace LayoutPolicy

variable {ix : Index} {t : Table} (p : LayoutPolicy) {id e : Id} {c : Constraints} {a : UInt32}

open Quantity

theorem alignment_array (he : ix.element? id = some e) :
    rule ix t (p.alignment id c) = .single (p.alignment e c)
      (if p.packing = .scalar then fun a => a else aggregate (p.rules = .uniform)) := by
  unfold alignment
  rcases Index.element?_eq_some_iff.1 he with ⟨length, hv⟩ | hv
  · split <;> simp [rule, scalarRule, baseRule, hv]
  · split <;> simp [rule, scalarRule, baseRule, hv]

theorem alignment_vector {n : UInt32} (hv : ix.type? id = some (.vector e n)) :
    rule ix t (p.alignment id c) = .single (p.alignment e c)
      (if p.packing = .scalar then fun a => a else fun a => Word.mulSat a (spread n)) := by
  unfold alignment
  split <;> simp [rule, scalarRule, baseRule, hv]

theorem alignment_columns {col : Id} {n : UInt32} (hv : ix.type? id = some (.matrix col n))
    (h : p.packing = .scalar ∨ c.rowMajor = false) :
    rule ix t (p.alignment id c) = .single (p.alignment col c)
      (if p.packing = .scalar then fun a => a else aggregate (p.rules = .uniform)) := by
  unfold alignment
  split
  · simp [rule, scalarRule, hv]
  · next hp => simp [rule, baseRule, hv, h.resolve_left hp]

theorem alignment_rows {col : Id} {n k : UInt32} (hv : ix.type? id = some (.matrix col n))
    (hcol : ix.type? col = some (.vector e k)) (hp : p.packing ≠ .scalar)
    (hr : c.rowMajor = true) :
    rule ix t (p.alignment id c) = .single (p.alignment e c)
      fun a => aggregate (p.rules = .uniform) (Word.mulSat a (spread n)) := by
  simp [alignment, hp, rule, baseRule, hv, hr, column, hcol]

theorem alignment_struct {ms : List Operand} (hv : ix.type? id = some (.struct ms)) :
    rule ix t (p.alignment id c) =
      ⟨(TypeView.struct ms).memberIds.zipIdx.map fun (m, i) => p.alignment m (t.constraints id i),
        fun vs => if p.packing = .scalar then vs.foldl max 1
          else aggregate (p.rules = .uniform) (vs.foldl max 1)⟩ := by
  unfold alignment
  split
  · exact scalar_struct hv
  · exact base_struct hv

theorem alignment_struct_congr {ms : List Operand} (hv : ix.type? id = some (.struct ms))
    (c c' : Constraints) :
    (p.alignment id c).Value ix t a ↔ (p.alignment id c').Value ix t a := by
  rw [Value, Value, Rule.value_iff, Rule.value_iff, alignment_struct p hv, alignment_struct p hv]

theorem exists_element_le (he : ix.element? id = some e)
    (ha : (p.alignment id c).Value ix t a) : ∃ w, (p.alignment e c).Value ix t w ∧ w ≤ a := by
  obtain ⟨w, hw, rfl⟩ := (Rule.value_single (alignment_array p he)).1 ha
  refine ⟨w, hw, ?_⟩
  split
  · exact UInt32.le_refl w
  · exact le_aggregate w _

theorem mem_parts_of_member {k : Nat} {m : Id} (hm : (ix.members id)[k]? = some m) :
    p.alignment m (t.constraints id k) ∈ (rule ix t (p.alignment id c)).parts := by
  obtain ⟨ms, hv⟩ := Index.exists_struct_of_mem_members (List.mem_of_getElem? hm)
  rw [Index.members_eq hv] at hm
  rw [alignment_struct p hv]
  exact List.mem_map_of_mem (List.mk_mem_zipIdx_iff_getElem?.2 hm)

theorem exists_member_le {k : Nat} {m : Id} (hm : (ix.members id)[k]? = some m)
    (ha : (p.alignment id c).Value ix t a) :
    ∃ w, (p.alignment m (t.constraints id k)).Value ix t w ∧ w ≤ a := by
  obtain ⟨ms, hv⟩ := Index.exists_struct_of_mem_members (List.mem_of_getElem? hm)
  obtain ⟨vs, hvs, hcombine⟩ := Rule.value_iff.1 ha
  obtain ⟨w, hw, hvalue⟩ := Rule.exists_right_of_mem hvs (p.mem_parts_of_member hm)
  refine ⟨w, hvalue, ?_⟩
  have hle : w ≤ vs.foldl max 1 := word_le_foldl_max (.inr hw)
  rw [← hcombine, alignment_struct p hv]
  dsimp only
  split
  · exact hle
  · exact UInt32.le_trans hle (le_aggregate _ _)

end LayoutPolicy

/-- Offsets a type with the alignment `q` is found the same at: they are a multiple of its period
apart, or of 256 where it has none. -/
def Alike (ix : Index) (t : Table) (q : Quantity) (x y : Nat) : Prop :=
  x ≡ y [MOD 256] ∨ ∃ a, q.Value ix t a ∧ x ≡ y [MOD Quantity.period a]

namespace Alike

variable {ix : Index} {t : Table} {q q' : Quantity} {x y z : Nat} {a : UInt32}

theorem modEq (hq : q.IsAlignment) (hl : ix.LegalShapes) (h : Alike ix t q x y)
    (ha : q.Value ix t a) : x ≡ y [MOD Quantity.period a] := by
  rcases h with h | ⟨b, hb, h⟩
  · exact h.of_dvd (Quantity.period_dvd_256 (Quantity.alignment_mem hl hq ha))
  · rwa [ha.unique hb]

theorem trans (hq : q.IsAlignment) (hl : ix.LegalShapes) (h : Alike ix t q x y)
    (h' : Alike ix t q y z) : Alike ix t q x z := by
  rcases h with h | ⟨a, ha, h⟩
  · rcases h' with h' | ⟨a, ha, h'⟩
    · exact .inl (h.trans h')
    · have hdvd := Quantity.period_dvd_256 (Quantity.alignment_mem hl hq ha)
      exact .inr ⟨a, ha, (h.of_dvd hdvd).trans h'⟩
  · exact .inr ⟨a, ha, h.trans (h'.modEq hq hl ha)⟩

theorem add (h : Alike ix t q x y) (n : Nat) : Alike ix t q (x + n) (y + n) :=
  h.imp (·.add_right n) fun ⟨a, ha, hxy⟩ => ⟨a, ha, hxy.add_right n⟩

theorem of_add_eq {m n : Nat} (h : Alike ix t q x y) (hmn : m + y = n + x) :
    Alike ix t q m n := by
  have cancel : ∀ k, x ≡ y [MOD k] → m ≡ n [MOD k] := by
    intro k hxy
    refine Nat.ModEq.add_right_cancel hxy.symm ?_
    rw [hmn]
  exact h.imp (cancel 256) fun ⟨a, ha, hxy⟩ => ⟨a, ha, cancel _ hxy⟩

theorem inner (hq : q.IsAlignment) (hq' : q'.IsAlignment) (hl : ix.LegalShapes)
    (hle : ∀ a, q.Value ix t a → ∃ w, q'.Value ix t w ∧ w ≤ a) (h : Alike ix t q x y) :
    Alike ix t q' x y := by
  rcases h with h | ⟨a, ha, h⟩
  · exact .inl h
  · obtain ⟨w, hw, hwa⟩ := hle a ha
    have hmem := Quantity.alignment_mem hl hq ha
    have hmem' := Quantity.alignment_mem hl hq' hw
    exact .inr ⟨w, hw, h.of_dvd (Quantity.period_dvd_period hmem' hmem hwa)⟩

section Policy

variable {p : LayoutPolicy} {id : Id} {c : Constraints} (hl : ix.LegalShapes)
  (h : Alike ix t (p.alignment id c) x y)

include hl h

theorem element {e : Id} (he : ix.element? id = some e) : Alike ix t (p.alignment e c) x y :=
  h.inner (p.isAlignment_alignment id c) (p.isAlignment_alignment e c) hl fun _ ha =>
    p.exists_element_le he ha

theorem member {k : Nat} {m : Id} (hm : (ix.members id)[k]? = some m) :
    Alike ix t (p.alignment m (t.constraints id k)) x y :=
  h.inner (p.isAlignment_alignment id c) (p.isAlignment_alignment m _) hl fun _ ha =>
    p.exists_member_le hm ha

theorem struct (hs : (ix.type? id).any TypeView.isStruct) (c' : Constraints) :
    Alike ix t (p.alignment id c') x y := by
  obtain ⟨ms, hv⟩ := Index.isStruct_iff.1 hs
  refine h.inner (p.isAlignment_alignment id c) (p.isAlignment_alignment id c') hl fun a ha => ?_
  exact ⟨a, (p.alignment_struct_congr hv c c').1 ha, UInt32.le_refl a⟩

end Policy

end Alike

end SpirvRules
