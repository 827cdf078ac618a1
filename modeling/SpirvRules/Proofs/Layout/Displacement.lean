import Mathlib.Data.Nat.ModEq
import SpirvRules.Proofs.Layout.Alignments
import SpirvRules.Proofs.Layout.Blocks
import SpirvRules.Proofs.Layout.Rounds

/-!
# Slots elsewhere

All offsets in a struct move alike when the struct does. Two displacements that no alignment tells
apart leave a slot right that was right, and the space free after it moves along.
-/

set_option autoImplicit false

namespace SpirvRules

/-- Straddling depends on the offset modulo sixteen, unless offsets stick. -/
theorem straddles_congr {o o' size : UInt32} (hfit : o.toNat + size.toNat < 0x100000000)
    (hmod : o.toNat % 16 = o'.toNat % 16) (h : straddles o size = false) :
    straddles o' size = false := by
  have ho' := o'.toNat_lt
  unfold straddles at h ⊢
  by_cases hs : size ≤ 16
  · rw [if_pos hs] at h ⊢
    simp only [ne_eq, decide_eq_false_iff_not, Decidable.not_not, ← UInt32.toNat_inj,
      UInt32.toNat_div, Word.toNat_addSat, Word.toNat_pred, UInt32.reduceToNat] at h ⊢
    omega
  · rw [if_neg hs] at h ⊢
    simp only [ne_eq, decide_eq_false_iff_not, Decidable.not_not, ← UInt32.toNat_inj,
      UInt32.toNat_mod, UInt32.reduceToNat] at h ⊢
    omega

namespace Slot

theorem forall₂_place {R : Slot → Slot → Prop}
    (hkey : ∀ s r x y, R s r → R x y → (s.key ≤ x.key ↔ r.key ≤ y.key)) {s r : Slot} (hs : R s r)
    {l l' : List Slot} (hl : List.Forall₂ R l l') : List.Forall₂ R (s.place l) (r.place l') := by
  induction hl with
  | nil => exact .cons hs .nil
  | @cons x y l l' hx hl ih =>
    have hiff := hkey s r x y hs hx
    unfold place
    by_cases h : s.key ≤ x.key
    · rw [if_pos h, if_pos (hiff.1 h)]
      exact .cons hs (.cons hx hl)
    · rw [if_neg h, if_neg fun h' => h (hiff.2 h')]
      exact .cons hx ih

theorem forall₂_inOrder {R : Slot → Slot → Prop}
    (hkey : ∀ s r x y, R s r → R x y → (s.key ≤ x.key ↔ r.key ≤ y.key)) {l l' : List Slot}
    (hl : List.Forall₂ R l l') : List.Forall₂ R (inOrder l) (inOrder l') := by
  induction hl with
  | nil => exact .nil
  | cons hs _ ih => exact forall₂_place hkey hs ih

end Slot

namespace Walk

variable {ix : Index} {t : Table} {u : BlockUse} {d d' : Nat}

/-- One walk beside the same with all offsets displaced, by two displacements that make up for the
difference. -/
def displaced (u : BlockUse) (d d' : Nat) : Comparison where
  first := u
  second := u
  strict := false
  boundFirst := true
  boundSecond := true
  verified _ _ := True
  offsets a b := a.toNat + d = b.toNat + d'

theorem isAligned_displaced {x y a : UInt32} (hd : d ≡ d' [MOD a.toNat])
    (hxy : x.toNat + d = y.toNat + d') (h : Word.isAligned x a = true) :
    Word.isAligned y a = true := by
  rw [Word.isAligned_iff] at h ⊢
  refine h.imp_right fun hx => ?_
  have hmod : x.toNat ≡ y.toNat [MOD a.toNat] := by
    refine Nat.ModEq.add_right_cancel hd ?_
    rw [hxy]
  exact (hmod.dvd_iff (Nat.dvd_refl _)).1 hx

theorem Measures.moved {type : Id} {c : Constraints} {o o' : UInt32} {e e' : Extent}
    (h : Measures ix t u type o c e) (h' : Measures ix t u type o' c e') :
    e' = { e with offset := o' } :=
  h'.unique ⟨h.view, h.constraints, rfl, h.alignment, h.size, h.component⟩

theorem ceil_displaced {n m a : Nat} (hd : d ≡ d' [MOD a]) (h : n + d = m + d') :
    Word.ceil n a + d = Word.ceil m a + d' := by
  rcases Nat.le_total d d' with hle | hle
  · obtain ⟨k, rfl⟩ := Nat.exists_eq_add_of_le hle
    obtain rfl : n = m + k := by omega
    have hk : a ∣ k := by simpa using (Nat.modEq_iff_dvd' hle).1 hd
    rw [Word.ceil_add m hk]
    omega
  · obtain ⟨k, rfl⟩ := Nat.exists_eq_add_of_le hle
    obtain rfl : m = n + k := by omega
    have hk : a ∣ k := by simpa using (Nat.modEq_iff_dvd' hle).1 hd.symm
    rw [Word.ceil_add n hk]
    omega

theorem stop_displaced {e : Extent} {p : LayoutPolicy} {o : UInt32}
    (hd : d ≡ d' [MOD e.alignment.toNat]) (ho : e.offset.toNat + d = o.toNat + d') :
    e.stop p + d = { e with offset := o }.stop p + d' := by
  unfold Extent.stop
  split
  · exact ceil_displaced hd (by dsimp only; omega)
  · dsimp only
    omega

theorem offsets_le_displaced {l l' : List Slot}
    (hslots : List.Forall₂ (displaced u d d').Slots l l')
    {x y : UInt32} (hxy : x.toNat + d = y.toNat + d')
    (h : ∀ s ∈ l, ∀ o, s.offset = some o → o ≤ x) : ∀ s ∈ l', ∀ o, s.offset = some o → o ≤ y := by
  induction hslots with
  | nil => simp
  | @cons s r l l' hs _ ih =>
    intro x' hx' o ho
    rcases List.mem_cons.1 hx' with rfl | hx'
    · have hrel := hs.offset
      rw [ho] at hrel
      cases hs' : s.offset with
      | none =>
        rw [hs'] at hrel
        cases hrel
      | some z =>
        rw [hs'] at hrel
        cases hrel with
        | some hz =>
          have hz : z.toNat + d = o.toNat + d' := hz
          have hle := h s (by simp) z hs'
          rw [UInt32.le_iff_toNat_le] at hle ⊢
          omega
    · exact ih (fun s hs => h s (by simp [hs])) x' hx' o ho

/-- A slot that is right and ends within a word is right where it is displaced to, if neither what
it is aligned to nor, for a vector, a boundary of sixteen tells the displacements apart. -/
theorem fault_displaced {e : Extent} {o free free' : UInt32} {l l' : List Slot}
    (ho : e.offset.toNat + d = o.toNat + d')
    (halign : d ≡ d' [MOD (e.component.getD e.alignment).toNat])
    (hslot : e.component.isSome → d ≡ d' [MOD 16])
    (hstop : e.stop u.policy < 0x100000000) (hfree : (displaced u d d').Frees free free')
    (hslots : List.Forall₂ (displaced u d d').Slots l l') (h : e.fault? free l = none) :
    { e with offset := o }.fault? free' l' = none := by
  obtain ⟨horder, hplace, hover, hstraddle, hmatrix⟩ := Extent.fault?_eq_none.1 h
  refine Extent.fault?_eq_none.2 ⟨?_, ?_, ?_, ?_, hmatrix⟩
  · rw [Extent.orderFault?_eq_none] at horder ⊢
    exact fun hview => offsets_le_displaced hslots ho (horder hview)
  · rw [Extent.alignmentFault?_eq_none] at hplace ⊢
    exact isAligned_displaced halign ho hplace
  · rw [Extent.overlapFault?_eq_none] at hover ⊢
    exact hfree.1 _ _ ho hover
  · rw [Extent.straddleFault?_eq_none] at hstraddle ⊢
    have hend := Extent.end_le_stop e u.policy
    intro hc
    have hmod : e.offset.toNat ≡ o.toNat [MOD 16] := by
      refine Nat.ModEq.add_right_cancel (hslot hc) ?_
      rw [ho]
    have hfit : e.offset.toNat + e.size.toNat < 0x100000000 := by omega
    exact straddles_congr hfit hmod (hstraddle hc)

theorem free_displaced {e : Extent} {o : UInt32} (hd : d ≡ d' [MOD e.alignment.toNat])
    (ho : e.offset.toNat + d = o.toNat + d') (hstop : e.stop u.policy < 0x100000000)
    (hstop' : { e with offset := o }.stop u.policy < 0x100000000) :
    (displaced u d d').Frees (e.free u.policy) ({ e with offset := o }.free u.policy) := by
  have hmoved := stop_displaced (p := u.policy) hd ho
  refine ⟨fun x y hxy hx => ?_, nofun⟩
  have hxy : x.toNat + d = y.toNat + d' := hxy
  rw [UInt32.le_iff_toNat_le, Extent.toNat_free] at hx ⊢
  omega

structure Moved (d d' : Nat) (s r : Slot) : Prop where
  member : s.member = r.member
  type : s.type = r.type
  offset : ∃ o o', s.offset = some o ∧ r.offset = some o' ∧ o.toNat + d = o'.toNat + d'

theorem Moved.key_le_iff {s r x y : Slot} (h : Moved d d' s r) (h' : Moved d d' x y) :
    s.key ≤ x.key ↔ r.key ≤ y.key := by
  obtain ⟨o, o', hs, hr, ho⟩ := h.offset
  obtain ⟨z, z', hx, hy, hz⟩ := h'.offset
  simp only [Slot.key, hs, hr, hx, hy, Option.getD_some, UInt32.le_iff_toNat_le]
  omega

theorem Moved.slots {s r : Slot} (h : Moved d d' s r) : (displaced u d d').Slots s r := by
  obtain ⟨o, o', hs, hr, ho⟩ := h.offset
  refine ⟨h.member, h.type, ?_⟩
  rw [hs, hr]
  exact .some ho

/-- The slots of a struct at two bases, where all members have offsets a word can hold. -/
theorem judged_displaced {id : Id} {a b : UInt32} (hab : a.toNat + d = b.toNat + d')
    (ha : ∀ n ∈ Slot.places t id a (ix.members id), n < 0x100000000)
    (hb : ∀ n ∈ Slot.places t id b (ix.members id), n < 0x100000000)
    (hall : ∀ s ∈ Slot.judged ix t id a, s.offset ≠ none) :
    List.Forall₂ (Moved d d') (Slot.judged ix t id a) (Slot.judged ix t id b) := by
  refine Slot.forall₂_inOrder (fun _ _ _ _ => Moved.key_le_iff) ?_
  refine List.forall₂_map_left_iff.2 (List.forall₂_map_right_iff.2 (List.forall₂_same.2 ?_))
  intro ⟨m, i⟩ hm
  have hmem := List.mk_mem_zipIdx_iff_getElem?.1 hm
  have hslot : ∃ s ∈ Slot.judged ix t id a, s.member = i ∧ s.type = m ∧
      s.offset = (t.usableOffset? id i).map (Word.addSat a) := Slot.exists_judged hmem
  obtain ⟨s, hs, _, _, hso⟩ := hslot
  cases ho : t.usableOffset? id i with
  | none =>
    rw [ho] at hso
    exact absurd hso (hall s hs)
  | some o =>
    have hao := ha _ (Slot.mem_places hmem ho)
    have hbo := hb _ (Slot.mem_places hmem ho)
    refine ⟨rfl, rfl, Word.addSat a o, Word.addSat b o, congrArg (Option.map _) ho,
      congrArg (Option.map _) ho, ?_⟩
    rw [Word.toNat_addSat, Word.toNat_addSat]
    omega

end Walk

end SpirvRules
