/-!
# Words

Ids and literals are 32-bit words. Sizes and offsets are computed so that a result too large for a
word sticks at the largest one; each operation is pinned by its value among the natural numbers.
-/

set_option autoImplicit false

namespace SpirvRules

abbrev Id := UInt32

namespace Word

def top : UInt32 := 0xFFFFFFFF

def saturate (n : Nat) : UInt32 := UInt32.ofNat (min n 0xFFFFFFFF)

@[simp] theorem toNat_saturate (n : Nat) : (saturate n).toNat = min n 0xFFFFFFFF := by
  rw [saturate, UInt32.toNat_ofNat']
  exact Nat.mod_eq_of_lt (by omega)

def addSat (a b : UInt32) : UInt32 := saturate (a.toNat + b.toNat)

def mulSat (a b : UInt32) : UInt32 := saturate (a.toNat * b.toNat)

def pred (a : UInt32) : UInt32 := saturate (a.toNat - 1)

@[simp] theorem toNat_addSat (a b : UInt32) :
    (addSat a b).toNat = min (a.toNat + b.toNat) 0xFFFFFFFF := toNat_saturate _

@[simp] theorem toNat_mulSat (a b : UInt32) :
    (mulSat a b).toNat = min (a.toNat * b.toNat) 0xFFFFFFFF := toNat_saturate _

@[simp] theorem toNat_pred (a : UInt32) : (pred a).toNat = a.toNat - 1 := by
  have h := a.toNat_lt
  rw [pred, toNat_saturate]
  omega

/-- The sum of two words, where it is one. -/
def add? (a b : UInt32) : Option UInt32 :=
  if a.toNat + b.toNat < 0x100000000 then some (a + b) else none

theorem add?_eq_some {a b c : UInt32} : add? a b = some c ↔ c.toNat = a.toNat + b.toNat := by
  have hc := c.toNat_lt
  simp only [add?, Option.ite_none_right_eq_some, Option.some.injEq, ← UInt32.toNat_inj,
    UInt32.toNat_add]
  omega

theorem add?_eq_none {a b : UInt32} : add? a b = none ↔ 0x100000000 ≤ a.toNat + b.toNat := by
  simp [add?]

/-- An alignment of zero asks for nothing. -/
def isAligned (offset alignment : UInt32) : Bool :=
  alignment == 0 || offset % alignment == 0

theorem isAligned_iff (offset alignment : UInt32) :
    isAligned offset alignment = true ↔
      alignment.toNat = 0 ∨ alignment.toNat ∣ offset.toNat := by
  simp [isAligned, ← UInt32.toNat_inj, Nat.dvd_iff_mod_eq_zero]

/-- The first multiple of `a` not below `n`; zero asks for nothing. -/
def ceil (n a : Nat) : Nat := if a = 0 then n else (n + a - 1) / a * a

theorem le_ceil (n a : Nat) : n ≤ ceil n a := by
  by_cases ha : a = 0
  · simp [ceil, ha]
  · have hm := Nat.mod_lt (n + a - 1) (Nat.pos_of_ne_zero ha)
    have hd := Nat.div_add_mod (n + a - 1) a
    rw [ceil, if_neg ha, Nat.mul_comm]
    omega

theorem dvd_ceil (n : Nat) {a : Nat} (ha : a ≠ 0) : a ∣ ceil n a := by
  rw [ceil, if_neg ha]
  exact Nat.dvd_mul_left a _

theorem ceil_le {n m a : Nat} (h : n ≤ m) (ha : a ∣ m) : ceil n a ≤ m := by
  by_cases hz : a = 0
  · simpa [ceil, hz] using h
  · obtain ⟨q, rfl⟩ := ha
    rw [ceil, if_neg hz, Nat.mul_comm]
    have hq : (n + a - 1) / a < q + 1 := by
      rw [Nat.div_lt_iff_lt_mul (Nat.pos_of_ne_zero hz), Nat.add_mul, Nat.mul_comm q a]
      omega
    exact Nat.mul_le_mul_left a (Nat.le_of_lt_succ hq)

theorem ceil_mono_right (n : Nat) {a b : Nat} (hb : b ≠ 0) (h : a ∣ b) : ceil n a ≤ ceil n b :=
  ceil_le (le_ceil n b) (Nat.dvd_trans h (dvd_ceil n hb))

theorem ceil_add (n : Nat) {d a : Nat} (h : a ∣ d) : ceil (n + d) a = ceil n a + d := by
  by_cases hz : a = 0
  · simp [ceil, hz]
  · obtain ⟨q, rfl⟩ := h
    have hs : n + a * q + a - 1 = n + a - 1 + a * q := by omega
    rw [ceil, if_neg hz, ceil, if_neg hz, hs, Nat.add_mul_div_left _ _ (Nat.pos_of_ne_zero hz),
      Nat.add_mul, Nat.mul_comm q a]

theorem ceil_ceil (n a : Nat) : ceil (ceil n a) a = ceil n a := by
  by_cases ha : a = 0
  · simp [ceil, ha]
  · exact Nat.le_antisymm (ceil_le (Nat.le_refl _) (dvd_ceil n ha)) (le_ceil _ a)

def roundUp (offset alignment : UInt32) : UInt32 := saturate (ceil offset.toNat alignment.toNat)

@[simp] theorem toNat_roundUp (offset alignment : UInt32) :
    (roundUp offset alignment).toNat = min (ceil offset.toNat alignment.toNat) 0xFFFFFFFF :=
  toNat_saturate _

end Word

end SpirvRules
