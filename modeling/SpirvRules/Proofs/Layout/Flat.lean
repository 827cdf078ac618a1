import SpirvRules.Proofs.Index.Arrays
import SpirvRules.Proofs.Layout.Blocks
import SpirvRules.Proofs.Layout.Completeness
import SpirvRules.Proofs.Layout.Explicitness

/-!
# Flat blocks

A block that has numbers and vectors of numbers for members, and nothing else, is accepted exactly
when each member has an offset, lies where its shape asks, ends by exact count before the next one
starts, and under relaxed packing straddles no boundary. One running end that sticks at the largest
word is enough to judge all pairs, for no usable offset is that large.
-/

set_option autoImplicit false

namespace SpirvRules

open Outcome Quantity Stateful

namespace NumericShape

def octets (s : NumericShape) : Nat := s.width.toNat / 8

def size (s : NumericShape) : Nat := s.octets * s.count.toNat

/-- What its offset has to be a multiple of. Zero asks for nothing. -/
def alignment (s : NumericShape) (p : Packing) : Nat :=
  match p with
  | .standard => s.octets * if s.count = 3 then 4 else s.count.toNat
  | .relaxed | .scalar => s.octets

end NumericShape

/-- What takes up at most sixteen octets has its first and its last one in the same slot of sixteen,
anything larger starts such a slot. The last octet counts as being where a word can say. -/
def InSlots (offset size : Nat) : Prop :=
  if size ≤ 16 then offset / 16 = min (offset + (size - 1)) 0xFFFFFFFF / 16 else 16 ∣ offset

section Flat

variable (ix : Index) (t : Table) (p : LayoutPolicy) (root : Id)

def Index.IsFlat : Prop :=
  ∃ ms, ix.type? root = some (.struct ms) ∧
    ∀ o ∈ ms, ∃ m, o.anyId? = some m ∧ (ix.numericShape? m).isSome

structure Lies (k : Nat) (m : Id) (s : NumericShape) (o : UInt32) : Prop where
  member : (ix.members root)[k]? = some m
  shape : ix.numericShape? m = some s
  offset : t.memberOffset? root k = some o

/-- Every member of a flat struct is in its place. -/
structure FlatLayout : Prop where
  offset : ∀ k m, (ix.members root)[k]? = some m →
    ∃ o, t.memberOffset? root k = some o ∧ o ≠ 0xFFFFFFFF
  aligned : ∀ k m s o, Lies ix t root k m s o →
    s.alignment p.packing = 0 ∨ s.alignment p.packing ∣ o.toNat
  apart : ∀ j k m n s r o q, Lies ix t root j m s o → Lies ix t root k n r q →
    o < q ∨ o = q ∧ j < k → o.toNat + s.size ≤ q.toNat
  straight : p.packing = .relaxed → ∀ k m s o e n, Lies ix t root k m s o →
    ix.type? m = some (.vector e n) → InSlots o.toNat s.size

end Flat

theorem Index.IsFlat.shape {ix : Index} {root m : Id} (h : ix.IsFlat root)
    (hm : m ∈ ix.members root) : ∃ s, ix.numericShape? m = some s := by
  obtain ⟨ms, hv, hms⟩ := h
  rw [Index.members_eq hv] at hm
  obtain ⟨o, ho, hom⟩ := List.mem_filterMap.1 hm
  obtain ⟨m', hm', hs⟩ := hms o ho
  cases hom.symm.trans hm'
  exact Option.isSome_iff_exists.1 hs

/-! ### What numbers and vectors measure -/

section Numeric

variable {ix : Index} {t : Table} {m e : Id} {s : NumericShape} {c : Constraints} {up : Bool}
variable {v : TypeView} {a n : UInt32}

theorem toNat_octets (w : UInt32) : (w / 8).toNat = w.toNat / 8 := by
  rw [UInt32.toNat_div]
  rfl

theorem toNat_alignment_number (hv : ix.type? m = some v) (hr : v.scalarShape? = some s)
    (p : LayoutPolicy) (ha : (p.alignment m c).Value ix t a) : a.toNat = s.octets := by
  obtain ⟨hscalar, hbase⟩ := number_rules (t := t) hv hr
  have hword : a = s.width / 8 := by
    unfold LayoutPolicy.alignment at ha
    split at ha
    · exact (Rule.value_fixed hscalar).1 ha
    · exact (Rule.value_fixed (hbase _ _)).1 ha
  rw [hword, toNat_octets]
  rfl

theorem toNat_required (hs : ix.numericShape? m = some s) (p : LayoutPolicy)
    (ha : (p.required ix m c).Value ix t a) :
    a.toNat = min (s.alignment p.packing) 0xFFFFFFFF := by
  have hoctets : s.octets ≤ 0xFFFFFFFF := by
    have hlt := s.width.toNat_lt
    unfold NumericShape.octets
    omega
  obtain ⟨rules, packing⟩ := p
  rcases Index.numericShape?_cases hs with ⟨v, hv, hr⟩ | ⟨e, n, v, r, hm, hv, hr, rfl⟩
  · have hcount := TypeView.count_of_scalarShape? hr
    have hrequired : (LayoutPolicy.alignment ⟨rules, packing⟩ m c).Value ix t a := by
      unfold LayoutPolicy.required at ha
      split at ha
      · next hm =>
        cases hv.symm.trans hm
        cases hr
      · exact ha
    rw [toNat_alignment_number hv hr _ hrequired]
    cases packing <;> simp [NumericShape.alignment, hcount] <;> omega
  · obtain ⟨hscalar, hbase⟩ := number_rules (t := t) hv hr
    cases packing with
    | standard =>
      simp only [LayoutPolicy.required, LayoutPolicy.alignment, reduceCtorEq, if_false] at ha
      rw [base_single (e := e) (f := fun a => Word.mulSat a (spread n))
        (by simp [baseRule, hm])] at ha
      obtain ⟨w, hw, rfl⟩ := ha
      rw [(Rule.value_fixed (hbase _ _)).1 hw, Word.toNat_mulSat, toNat_octets]
      simp only [NumericShape.alignment, NumericShape.octets, spread]
      split <;> rfl
    | relaxed =>
      simp only [LayoutPolicy.required, hm] at ha
      rw [(Rule.value_fixed hscalar).1 ha, toNat_octets]
      exact (Nat.min_eq_left hoctets).symm
    | scalar =>
      simp only [LayoutPolicy.required, LayoutPolicy.alignment, if_true] at ha
      rw [scalar_single (e := e) (by simp [scalarRule, hm])] at ha
      rw [(Rule.value_fixed hscalar).1 ha, toNat_octets]
      exact (Nat.min_eq_left hoctets).symm

theorem toNat_size (hs : ix.numericShape? m = some s)
    (hn : (Quantity.size m c).Value ix t n) : n.toNat = min s.size 0xFFFFFFFF := by
  rcases Index.numericShape?_cases hs with ⟨v, hv, hr⟩ | ⟨e, k, v, r, hm, hv, hr, rfl⟩
  · have hlt := s.width.toNat_lt
    rw [(Quantity.size_number hv hr).1 hn, toNat_octets, NumericShape.size,
      TypeView.count_of_scalarShape? hr, NumericShape.octets, UInt32.toNat_one, Nat.mul_one]
    omega
  · obtain ⟨w, hw, rfl⟩ := (Quantity.size_vector hm).1 hn
    rw [(Quantity.size_number hv hr).1 hw, Word.toNat_mulSat, toNat_octets]
    rfl

theorem exists_plain (hs : ix.numericShape? m = some s) {q : Quantity} (hq : q.type = m) :
    ∃ v, Rule.plain (rule ix t) maxTypeDepth q = .ok v := by
  have number : ∀ {x v r}, ix.type? x = some v → v.scalarShape? = some r → ∀ q : Quantity,
      q.type = x → rule ix t q = .fixed (r.width / 8) := by
    rintro _ v r hv hr q rfl
    obtain ⟨hscalar, hbase⟩ := number_rules (t := t) hv hr
    cases q with
    | scalarAlignment _ => exact hscalar
    | baseAlignment _ c up => exact hbase c up
    | size _ c => exact sizeRule_number hv hr c
  rcases Index.numericShape?_cases hs with ⟨v, hv, hr⟩ | ⟨e, k, v, r, hm, hv, hr, _⟩
  · exact ⟨_, Rule.plain_fixed (number hv hr q hq)⟩
  · have vector : ∃ p f, rule ix t q = .single p f ∧ p.type = e := by
      subst hq
      cases q with
      | scalarAlignment _ =>
        exact ⟨.scalarAlignment e, fun a => a, by simp_all [rule, scalarRule, Quantity.type], rfl⟩
      | baseAlignment _ c up =>
        exact ⟨.baseAlignment e c up, _, by simp_all [rule, baseRule, Quantity.type]; rfl, rfl⟩
      | size _ c => exact ⟨.size e c, _, by simp_all [rule, sizeRule, Quantity.type]; rfl, rfl⟩
    obtain ⟨p, f, hp, htype⟩ := vector
    exact ⟨_, Rule.plain_single hp (Rule.plain_fixed (number hv hr p htype))⟩

theorem view_of_numericShape? (hs : ix.numericShape? m = some s) :
    ∃ v, ix.type? m = some v ∧ v.isRuntimeArray = false ∧ v.isMatrix = false ∧
      v.isSizedArray = false ∧ v.isStruct = false ∧ v.element? = none := by
  rcases Index.numericShape?_cases hs with ⟨v, hv, hr⟩ | ⟨e, k, v, r, hm, hv, hr, _⟩
  · refine ⟨v, hv, ?_⟩
    cases v <;> simp only [TypeView.scalarShape?, reduceCtorEq] at hr
    all_goals exact ⟨rfl, rfl, rfl, rfl, rfl⟩
  · exact ⟨_, hm, rfl, rfl, rfl, rfl, rfl⟩

theorem ne_struct_of_numericShape? (hs : ix.numericShape? m = some s) (ms : List Operand) :
    ix.type? m ≠ some (.struct ms) := by
  obtain ⟨v, hv, _, _, _, hstruct, _⟩ := view_of_numericShape? hs
  intro hv'
  cases hv.symm.trans hv'
  cases hstruct

end Numeric

/-! ### Slots of numbers and vectors -/

theorem straddles_eq_false_iff {offset size : UInt32} :
    straddles offset size = false ↔ InSlots offset.toNat size.toNat := by
  unfold straddles InSlots
  by_cases h : size ≤ 16
  · have hle : size.toNat ≤ 16 := UInt32.le_iff_toNat_le.1 h
    rw [if_pos h, if_pos hle]
    simp [← UInt32.toNat_inj]
  · have hlt : ¬ size.toNat ≤ 16 := fun hle => h (UInt32.le_iff_toNat_le.2 hle)
    rw [if_neg h, if_neg hlt]
    simp [← UInt32.toNat_inj, Nat.dvd_iff_mod_eq_zero]

/-- Sizes that no word holds are as large as any. -/
theorem inSlots_min {o n : Nat} : InSlots o (min n 0xFFFFFFFF) ↔ InSlots o n := by
  unfold InSlots
  by_cases hn : n ≤ 0xFFFFFFFF
  · rw [Nat.min_eq_left hn]
  · rw [if_neg (by omega), if_neg (by omega)]

/-- Only the start of a block is a multiple of an alignment that no word holds. -/
theorem dvd_min_iff {o a : Nat} (ho : o < 0xFFFFFFFF) :
    (min a 0xFFFFFFFF = 0 ∨ min a 0xFFFFFFFF ∣ o) ↔ (a = 0 ∨ a ∣ o) := by
  by_cases ha : a ≤ 0xFFFFFFFF
  · rw [Nat.min_eq_left ha]
  · have only : ∀ b, 0xFFFFFFFF ≤ b → ((b = 0 ∨ b ∣ o) ↔ o = 0) := by
      intro b hb
      constructor
      · rintro (hz | hd)
        · omega
        · exact Nat.eq_zero_of_dvd_of_lt hd (by omega)
      · rintro rfl
        exact .inr (Nat.dvd_zero b)
    rw [only _ (by omega), only _ (by omega)]

namespace Walk

variable {ix : Index} {t : Table} {u : BlockUse} {root m : Id} {s : NumericShape}
variable {o free : UInt32} {c : Constraints} {x : Extent} {later : List Slot}

theorem isSome_component_iff (hx : Measures ix t u m o c x) :
    x.component.isSome ↔
      u.policy.packing = .relaxed ∧ ∃ e n, ix.type? m = some (.vector e n) := by
  have hrel := hx.component
  have hsome : x.component.isSome ↔ (looseComponent? u (ix.type? m)).isSome := by
    generalize looseComponent? u (ix.type? m) = l at hrel ⊢
    generalize x.component = k at hrel ⊢
    cases hrel <;> simp
  rw [hsome, Option.isSome_iff_exists]
  simp only [looseComponent?_eq_some]
  constructor
  · rintro ⟨e, hn, hp⟩
    exact ⟨hp, e, hn⟩
  · rintro ⟨hp, e, hn⟩
    exact ⟨e, hn, hp⟩

theorem fault?_flat (hx : Measures ix t u m o c x) (hs : ix.numericShape? m = some s)
    (ho : o ≠ Word.top) :
    x.fault? free later = none ↔
      (s.alignment u.policy.packing = 0 ∨ s.alignment u.policy.packing ∣ o.toNat) ∧ free ≤ o ∧
        (u.policy.packing = .relaxed → ∀ e n, ix.type? m = some (.vector e n) →
          InSlots o.toNat s.size) := by
  obtain ⟨v, hv, hruntime, hmatrix, _⟩ := view_of_numericShape? hs
  have hlt : o.toNat < 0xFFFFFFFF := by
    have hne : o.toNat ≠ 0xFFFFFFFF := fun h => ho (UInt32.toNat_inj.1 h)
    have hword := o.toNat_lt
    omega
  have horder : x.orderFault? later = none := by
    rw [Extent.orderFault?_eq_none, hx.view, hv, Option.any_some, hruntime]
    nofun
  have hstride : matrixFault? x.view x.constraints x.alignment = none := by
    rw [Extent.matrixFault?_eq_none, hx.view, hv, Option.any_some, hmatrix]
    nofun
  rw [Extent.fault?_eq_none, Extent.alignmentFault?_eq_none, Extent.overlapFault?_eq_none,
    Extent.straddleFault?_eq_none, Word.isAligned_iff, toNat_required hs _ hx.required,
    hx.offset, dvd_min_iff hlt, straddles_eq_false_iff, toNat_size hs hx.size, inSlots_min,
    isSome_component_iff hx]
  constructor
  · rintro ⟨_, ha, hf, hst, _⟩
    exact ⟨ha, hf, fun hp e n hm => hst ⟨hp, e, n, hm⟩⟩
  · rintro ⟨ha, hf, hst⟩
    exact ⟨horder, ha, hf, fun ⟨hp, e, n, hm⟩ => hst hp e n hm, hstride⟩

theorem toNat_free_flat (hx : Measures ix t u m o c x) (hs : ix.numericShape? m = some s) :
    (x.free u.policy).toNat = min (o.toNat + s.size) 0xFFFFFFFF := by
  obtain ⟨v, hv, _, _, hsized, hstruct, _⟩ := view_of_numericShape? hs
  have hpads : u.policy.pads x.view = false := by
    simp [LayoutPolicy.pads, hx.view, hv, hsized, hstruct]
  rw [Extent.toNat_free, Extent.stop, hpads, if_neg (by simp), hx.offset, toNat_size hs hx.size]
  omega

theorem exists_chain_of_accepts {kind : DecorationKind} {storage : StorageClass} {p : LayoutPolicy}
    (hk : t.blockKind? root = some kind) {ms : List Operand}
    (hv : ix.type? root = some (.struct ms))
    (h : checkBlock ix t root storage (some p) = .ok ()) :
    Chain ix t ⟨kind, storage, p⟩ (fun _ _ => True) (fun _ => True) root 0
      (Slot.judged ix t root 0) := by
  have hc : Carries ix t ⟨kind, storage, p⟩ (fun _ => True) (fun _ _ => True) (fun _ => True)
      fun _ => True :=
    carries_of_found (fun _ _ _ => trivial) (fun _ _ _ _ => trivial)
      (fun _ _ _ _ _ _ => trivial) fun _ _ => .rfl
  rcases hr : run (block ix t root storage (some p)) {} with ⟨r, w⟩
  obtain rfl : r = .ok () := (congrArg Prod.fst hr).symm.trans h
  simp only [block, blockBy, hk] at hr
  obtain ⟨_, w₁, hexplicit, hwalk⟩ := run_bind_eq_ok.1 hr
  have hempty : w₁ = {} := by
    have hkeeps : Keeping (· = {}) (explicit ix t root kind) := keeping_explicit root kind
    have hkept := hkeeps.after rfl
    rwa [hexplicit] at hkept
  subst hempty
  have hnot : ¬ Known ⟨kind, storage, p⟩ {} (.struct root 0) := by
    rintro ⟨v, _, hmem⟩
    simp at hmem
  rw [maxTypeDepth, walk, run_unlessVerified_of_not_known hnot] at hwalk
  obtain ⟨_, w₂, hwithin, _⟩ := run_bind_eq_ok.1 hwalk
  have hfound := (yields_within (growing_walk _) fun s' _ => yields_walk hc _ trivial).ok
    upholds_empty hwithin fun _ _ => trivial
  exact (hfound.2 ms hv).2

variable {M : Id → Nat → Prop} {P : Site → Prop} {k : Nat}

theorem exists_slot_of_lies (h : Lies ix t root k m s o)
    (hc : Chain ix t u M P root 0 (Slot.judged ix t root 0)) :
    ∃ r ∈ Slot.judged ix t root 0, r.member = k ∧ r.offset = some o ∧ o ≠ Word.top ∧
      ∃ x, Extends ix t u root r x ∧ Measures ix t u m o (t.constraints root k) x := by
  obtain ⟨r, hr, rfl, rfl, x, hx, ho, htop⟩ :=
    exists_extent hc h.member (ne_struct_of_numericShape? h.shape [])
  cases h.offset.symm.trans ho
  exact ⟨r, hr, rfl, hx.offset, htop, x, hx, hx.measures⟩

/-- Two relations that hold of the members of a list in its order: where the first tells the order,
so does it tell when the second holds. -/
theorem rel_of_pairwise {α : Type} {R S : α → α → Prop} {l : List α} {a b : α}
    (hR : ∀ a b, R a b → ¬ R b a) (hl : l.Pairwise R) (hl' : l.Pairwise S) (ha : a ∈ l)
    (hb : b ∈ l) (hab : R a b) : S a b := by
  induction l with
  | nil => cases ha
  | cons c l ih =>
    obtain ⟨hc, hl⟩ := List.pairwise_cons.1 hl
    obtain ⟨hc', hl'⟩ := List.pairwise_cons.1 hl'
    rcases List.mem_cons.1 ha with rfl | hal <;> rcases List.mem_cons.1 hb with rfl | hbl
    · exact absurd hab (hR _ _ hab)
    · exact hc' b hbl
    · exact absurd hab (hR _ _ (hc a hal))
    · exact ih hl hl' hal hbl

theorem flatLayout_of_chain
    (hc : Chain ix t u M P root 0 (Slot.judged ix t root 0)) :
    FlatLayout ix t u.policy root where
  offset := (laidOut_of_chain hc).offset
  aligned := by
    intro k m s o h
    obtain ⟨r, hr, _, _, htop, x, hx, hm⟩ := exists_slot_of_lies h hc
    obtain ⟨_, _, _, hocc⟩ := hc.occupies hr hx
    exact ((fault?_flat hm h.shape htop).1 hocc.sound).1
  apart := by
    intro j k m n s r o q h h' hbefore
    obtain ⟨a, ha, hj, hao, _, x, hx, hm⟩ := exists_slot_of_lies h hc
    obtain ⟨b, hb, hk, hbo, htop, y, hy, hm'⟩ := exists_slot_of_lies h' hc
    have hab : Slot.Before a b := by
      rw [Slot.Before, Slot.key, Slot.key, hao, hbo, hj, hk]
      exact hbefore
    have hle := rel_of_pairwise (fun _ _ => Slot.Before.asymm) Slot.pairwise_judged_before
      hc.pairwise ha hb hab x y hx hy
    -- the free offset sticks only at the largest word, where no usable offset lies
    rw [UInt32.le_iff_toNat_le, toNat_free_flat hm h.shape, hm'.offset] at hle
    have hne : q.toNat ≠ 0xFFFFFFFF := fun heq => htop (UInt32.toNat_inj.1 heq)
    have hlt := q.toNat_lt
    omega
  straight := by
    intro hp k m s o e n h hv
    obtain ⟨r, hr, _, _, htop, x, hx, hm⟩ := exists_slot_of_lies h hc
    obtain ⟨_, _, _, hocc⟩ := hc.occupies hr hx
    exact ((fault?_flat hm h.shape htop).1 hocc.sound).2.2 hp e n hv

/-! ### A flat layout is accepted -/

theorem passes_measure_flat (hs : ix.numericShape? m = some s) {q : Quantity} (hq : q.type = m) :
    Passes ix t False (measure ix t q) (q.Value ix t) := by
  obtain ⟨v, hv⟩ := exists_plain (t := t) hs hq
  refine Triple.mono (passes_measure_of_plain hv) (fun _ => id) (fun a w h => ⟨h.1, ?_⟩)
    fun _ _ => id
  rw [h.2]
  exact ⟨_, hv⟩

theorem numericShape?_component {e : Id} {n : UInt32} (hs : ix.numericShape? m = some s)
    (hm : ix.type? m = some (.vector e n)) : ∃ r, ix.numericShape? e = some r := by
  rcases Index.numericShape?_cases hs with ⟨v, hv, hr⟩ | ⟨e', k, v, r, hv, he, hr, _⟩
  · cases hm.symm.trans hv
    cases hr
  · cases hm.symm.trans hv
    refine ⟨r, ?_⟩
    cases v <;> simp only [TypeView.scalarShape?, reduceCtorEq] at hr
    all_goals simpa [Index.numericShape?, he, TypeView.scalarShape?] using hr

theorem passes_extent_flat (hs : ix.numericShape? m = some s) :
    Passes ix t False (extent ix t u m o c) (Measures ix t u m o c) := by
  unfold extent
  dsimp only
  refine (passes_measure_flat hs (LayoutPolicy.alignment_type _ _ _)).bindFact fun a ha => ?_
  refine (passes_measure_flat hs rfl).bindFact fun n hn => ?_
  refine Triple.bindFact (q := Option.Rel (fun x a => (Quantity.scalarAlignment x).Value ix t a)
    (looseComponent? u (ix.type? m))) ?_ fun k hk =>
      triple_pure fun _ hw => ⟨hw, rfl, rfl, rfl, ha, hn, hk⟩
  cases hl : looseComponent? u (ix.type? m) with
  | none => exact triple_pure fun _ hw => ⟨hw, .none⟩
  | some e =>
    obtain ⟨⟨n, hv⟩, _⟩ := looseComponent?_eq_some.1 hl
    obtain ⟨r, hr⟩ := numericShape?_component hs hv
    exact (passes_measure_flat hr rfl).bindFact fun b hb =>
      triple_pure fun _ hw => ⟨hw, .some hb⟩

section Inner

variable {inner : Site → Walk Unit} (hi : ∀ s : Site, s.isVoid ix → Passes ix t False (inner s)
  fun _ => True)

include hi

theorem passes_slot_flat {r : Slot} (hs : ix.numericShape? r.type = some s)
    (hr : r.offset = some o) (htop : o ≠ Word.top) (hfree : free ≤ o)
    (ha : s.alignment u.policy.packing = 0 ∨ s.alignment u.policy.packing ∣ o.toNat)
    (hst : u.policy.packing = .relaxed → ∀ e n, ix.type? r.type = some (.vector e n) →
      InSlots o.toNat s.size) :
    Passes ix t False (slot ix t u inner root free r later)
      fun next => next.toNat = min (o.toNat + s.size) 0xFFFFFFFF := by
  obtain ⟨v, hv, _, _, _, hstruct, helem⟩ := view_of_numericShape? hs
  unfold slot
  simp only [hr]
  rw [if_neg (ne_struct_of_numericShape? hs [])]
  refine (passes_extent_flat hs).bindFact fun x hx => ?_
  refine (passes_rejectAny ((fault?_flat hx hs htop).2 ⟨ha, hfree, hst⟩)).bindFact fun _ _ => ?_
  refine Triple.bindFact (q := fun _ => True) ?_ fun _ _ => (passes_meet _ _).bindFact fun _ _ =>
    triple_pure fun _ hw => ⟨hw, toNat_free_flat hx hs⟩
  have henter : Passes ix t False (enter inner x.view (.struct r.type x.offset)) fun _ => True := by
    rw [enter, hx.view, hv, Option.any_some, hstruct]
    exact triple_pure fun _ hw => ⟨hw, trivial⟩
  refine henter.bindFact fun _ _ => hi _ ?_
  simp [Site.isVoid, Index.element?, hv, helem]

/-- Slots in their order, each in its place, are all free where they start. -/
theorem passes_slots_flat {p : LayoutPolicy} (hp : u.policy = p) (h : FlatLayout ix t p root)
    {l : List Slot} (hl : l.Pairwise Slot.Before)
    (hlies : ∀ r ∈ l, ∃ s o, Lies ix t root r.member r.type s o ∧ r.offset = some o ∧ o ≠ Word.top)
    (hfree : ∀ r ∈ l, ∀ o, r.offset = some o → free ≤ o) :
    Passes ix t False (slots ix t u inner root free l) fun _ => True := by
  subst hp
  induction l generalizing free with
  | nil => exact triple_pure fun _ hw => ⟨hw, trivial⟩
  | cons r l ih =>
    obtain ⟨hr, hl⟩ := List.pairwise_cons.1 hl
    obtain ⟨s, o, hlie, ho, htop⟩ := hlies r (by simp)
    refine (passes_slot_flat hi hlie.shape ho htop (hfree r (by simp) o ho)
      (h.aligned _ _ _ _ hlie) fun hp e n hv => h.straight hp _ _ _ _ _ _ hlie hv).bindFact
      fun next hnext => ih hl (fun r' hr' => hlies r' (by simp [hr'])) fun r' hr' q hq => ?_
    obtain ⟨s', o', hlie', ho', _⟩ := hlies r' (by simp [hr'])
    cases hq.symm.trans ho'
    have hbefore := hr r' hr'
    rw [Slot.Before, Slot.key, Slot.key, ho, hq] at hbefore
    -- slots come in their order, so the condition on pairs holds of this one and each later one
    have hend := h.apart _ _ _ _ _ _ _ _ hlie hlie' hbefore
    rw [UInt32.le_iff_toNat_le, hnext]
    omega

end Inner

theorem passes_walk_void (n : Nat) {s : Site} (hs : s.isVoid ix) :
    Passes ix t False (walk ix t u n s) fun _ => True := by
  cases n with
  | zero =>
    apply passes_unlessVerified
    rw [if_pos hs]
    exact triple_pure fun _ hw => ⟨hw, trivial⟩
  | succ n =>
    apply passes_unlessVerified
    rw [within_of_isVoid hs]
    exact Triple.bind (triple_pure fun _ hw => hw) fun _ => passes_verify s

end Walk

namespace Explicit

variable {ix : Index} {t : Table} {p : LayoutPolicy} {root m : Id} {s : NumericShape}

theorem clear_offsets_flat (hflat : ix.IsFlat root) (h : FlatLayout ix t p root) (n : Nat) :
    Clear False (offsets ix t (n + 2) root) := by
  obtain ⟨ms, hv, hms⟩ := id hflat
  have hlacks : lacksOffset t root ms = false := by
    rw [Bool.eq_false_iff]
    intro hl
    obtain ⟨ms', k, hv', hk, ho⟩ := (lacksOffset_iff hv).1 hl
    cases hv.symm.trans hv'
    rw [← length_members hv fun o ho => by obtain ⟨m, hm, _⟩ := hms o ho; simp [hm]] at hk
    obtain ⟨o, ho', htop⟩ := h.offset k _ (List.getElem?_eq_getElem hk)
    rw [Table.usableOffset?_eq_some.2 ⟨ho', htop⟩] at ho
    cases ho
  have hinner : ∀ m ∈ inner ix root, Clear False (offsets ix t (n + 1) m) := by
    intro m hm
    have hmem : m ∈ ix.members root :=
      (mem_inner_iff.1 hm).resolve_left (by simp [Index.element?_struct hv])
    obtain ⟨s, hs⟩ := hflat.shape hmem
    obtain ⟨v, hv', _, _, _, hstruct, helem⟩ := view_of_numericShape? hs
    have hnone : inner ix m = [] := by
      cases v <;> simp_all [inner, TypeView.memberIds, TypeView.isStruct]
    apply invariant_unlessKnown
    rw [hv', hnone]
    cases v <;> first | exact (invariant_pure ()).bind fun _ => invariant_learn | cases hstruct
  apply invariant_unlessKnown
  rw [hv]
  dsimp only
  rw [hlacks, if_neg (by simp)]
  exact (invariant_forM hinner).bind fun _ => invariant_learn

theorem clear_needs_flat (hflat : ix.IsFlat root) (need : Need) (n : Nat) :
    Clear False (needs ix t need (n + 2) (.struct root)) := by
  obtain ⟨ms, hv, _⟩ := id hflat
  apply invariant_unlessKnown
  rw [hv]
  dsimp only
  rw [← Index.members_eq hv]
  refine Triple.bind (invariant_forM fun q hq => ?_) fun _ => invariant_learn
  have hmem := List.mem_of_getElem? (List.mk_mem_zipIdx_iff_getElem?.1 hq)
  obtain ⟨s, hs⟩ := hflat.shape hmem
  obtain ⟨v, hv', hruntime, hmatrix, hsized, hstruct, _⟩ := view_of_numericShape? hs
  simp only [needs, hv']
  cases v <;> first
    | exact invariant_pure ()
    | simp_all [TypeView.isRuntimeArray, TypeView.isMatrix, TypeView.isSizedArray,
        TypeView.isStruct]

end Explicit

namespace Walk

variable {ix : Index} {t : Table} {root : Id} {p : LayoutPolicy}

theorem passes_walk_flat {u : BlockUse} (hflat : ix.IsFlat root)
    (h : FlatLayout ix t u.policy root) (n : Nat) :
    Passes ix t False (walk ix t u (n + 1) (.struct root 0)) fun _ => True := by
  obtain ⟨ms, hv, _⟩ := id hflat
  apply passes_unlessVerified
  refine Triple.bindFact (q := fun _ => True) ?_ fun _ _ => passes_verify _
  simp only [within, hv]
  rw [← Index.members_eq hv]
  refine (passes_meet _ _).bindFact fun _ _ => passes_slots_flat (fun s => passes_walk_void n) rfl h
    Slot.pairwise_judged_before (fun r hr => ?_) fun _ _ o _ => ?_
  · obtain ⟨hm, hoff⟩ := Slot.mem_judged.1 hr
    obtain ⟨s, hs⟩ := hflat.shape (List.mem_of_getElem? hm)
    obtain ⟨o, ho, htop⟩ := h.offset _ _ hm
    refine ⟨s, o, ⟨hm, hs, ho⟩, ?_, htop⟩
    rw [hoff, Table.usableOffset?_eq_some.2 ⟨ho, htop⟩, Option.map_some, addSat_zero]
  · rw [UInt32.le_iff_toNat_le]
    exact Nat.zero_le _

theorem passes_block_flat (hflat : ix.IsFlat root) (h : FlatLayout ix t p root)
    (storage : StorageClass) :
    Passes ix t False (block ix t root storage (some p)) fun _ => True := by
  unfold block blockBy
  split
  · next q kind hq hk =>
    cases hq
    refine Triple.bindFact (I := Walker.Faithful ix t) (q := fun _ => True) ?_ fun _ _ => ?_
    · refine (passes_demand (Explicit.clear_offsets_flat hflat h 510)).bindFact fun _ _ =>
        passes_forM fun need _ => passes_demand (Explicit.clear_needs_flat hflat need 510)
    · exact passes_walk_flat (u := ⟨kind, storage, _⟩) hflat h 511
  · exact triple_pure fun _ hw => ⟨hw, trivial⟩

/-- The check of a flat block passes exactly when its layout is right. -/
theorem checkBlock_flat_iff (ix : Index) (t : Table) (root : Id) (storage : StorageClass)
    (p : LayoutPolicy) (hk : (t.blockKind? root).isSome) (hflat : ix.IsFlat root) :
    checkBlock ix t root storage (some p) = .ok () ↔ FlatLayout ix t p root := by
  obtain ⟨kind, hk⟩ := Option.isSome_iff_exists.1 hk
  obtain ⟨ms, hv, _⟩ := id hflat
  constructor
  · intro h
    exact flatLayout_of_chain (exists_chain_of_accepts hk hv h)
  · intro h
    rcases (passes_block_flat hflat h storage).outcome (Walker.faithful_empty ix t) with
      ⟨_, w, hrun, _⟩ | ⟨_, _, _, hfalse, _⟩
    · exact congrArg Prod.fst hrun
    · exact hfalse.elim

def looseBlock : Module where
  annotations := [.decorating 3 .block [], .placing 3 0 4, .placing 3 1 0]
  globals := [.declaring .opTypeFloat 1 [.literal 32],
    .declaring .opTypeVector 2 [.id 1, .literal 2], .declaring .opTypeStruct 3 [.id 2, .id 1]]

/-- The vector lies well where its component does, but not where it has to be aligned itself. -/
theorem checkBlock_flat_looseBlock :
    ∃ cx, looseBlock.context {} = .ok cx ∧
      FlatLayout cx.index cx.table ⟨.storage, .relaxed⟩ 3 ∧
      ¬ FlatLayout cx.index cx.table ⟨.storage, .standard⟩ 3 := by
  have hrun : (looseBlock.context {}).toOption.any (fun ⟨ix, t, _⟩ =>
      decide ((t.blockKind? 3).isSome ∧ ix.type? 3 = some (.struct [.id 2, .id 1]) ∧
        (ix.numericShape? 1).isSome ∧ (ix.numericShape? 2).isSome ∧
        (checkBlock ix t 3 .storageBuffer (some ⟨.storage, .relaxed⟩)).isOk ∧
        (checkBlock ix t 3 .storageBuffer (some ⟨.storage, .standard⟩)).isOk = false)) = true := by
    decide +kernel
  obtain ⟨cx, hcx, hq⟩ := exists_of_any hrun
  obtain ⟨hk, hv, h₁, h₂, hok, hfail⟩ := of_decide_eq_true hq
  have hflat : cx.index.IsFlat 3 := by
    refine ⟨_, hv, fun o ho => ?_⟩
    simp only [List.mem_cons, List.not_mem_nil, or_false] at ho
    rcases ho with rfl | rfl
    · exact ⟨2, rfl, h₂⟩
    · exact ⟨1, rfl, h₁⟩
  refine ⟨cx, hcx, (checkBlock_flat_iff _ _ 3 .storageBuffer _ hk hflat).1 (eq_ok_of_isOk hok), ?_⟩
  intro h
  rw [(checkBlock_flat_iff _ _ 3 .storageBuffer _ hk hflat).2 h] at hfail
  cases hfail

end Walk

end SpirvRules
