import Mathlib.Data.Nat.ModEq
import SpirvRules.Proofs.Layout.Leaves

/-!
# Vectors and boundaries of sixteen octets

Under relaxed packing a vector may lie wherever its component may, but not across a boundary of
sixteen octets. A walk that succeeds has looked at the elements of an array of structs for which all
outer indices are zero; what it found goes for every element that is as far in modulo sixteen, as
long as offsets fit a word.
-/

set_option autoImplicit false

namespace SpirvRules

open Outcome Stateful

/-- A vector of at most sixteen octets lies in one slot of sixteen, a longer one starts such a
slot. -/
def Straight (offset size : Nat) : Prop :=
  if size ≤ 16 then offset / 16 = (offset + (size - 1)) / 16 else offset % 16 = 0

instance (offset size : Nat) : Decidable (Straight offset size) :=
  inferInstanceAs (Decidable (ite _ _ _))

theorem Straight.congr {o o' size : Nat} (hmod : o % 16 = o' % 16) (h : Straight o size) :
    Straight o' size := by
  unfold Straight at h ⊢
  by_cases hs : size ≤ 16
  · rw [if_pos hs] at h ⊢
    omega
  · rw [if_neg hs] at h ⊢
    omega

theorem straight_of_straddles {offset size : UInt32}
    (hend : offset.toNat + size.toNat < 0x100000000) (h : straddles offset size = false) :
    Straight offset.toNat size.toNat := by
  unfold straddles at h
  unfold Straight
  by_cases hs : size ≤ 16
  · have hle : size.toNat ≤ 16 := UInt32.le_iff_toNat_le.1 hs
    rw [if_pos hs] at h
    rw [if_pos hle]
    simp only [ne_eq, decide_eq_false_iff_not, Decidable.not_not, ← UInt32.toNat_inj,
      UInt32.toNat_div, Word.toNat_addSat, Word.toNat_pred, UInt32.reduceToNat] at h
    omega
  · have hlt : ¬ size.toNat ≤ 16 := fun hle => hs (UInt32.le_iff_toNat_le.2 hle)
    rw [if_neg hs] at h
    rw [if_neg hlt]
    simpa [← UInt32.toNat_inj] using h

section Paths

variable (ix : Index) (t : Table)

def ElementAt (x e : Id) (i : Nat) : Prop :=
  ix.type? x = some (.runtimeArray e) ∨ ∃ length n, ix.type? x = some (.array e length) ∧
    ix.integer? length = some n ∧ i < n

/-- `y` is what `x` holds past all levels of arrays, `d` octets in: `x` itself if it is no array,
and else an element at whatever index each level has. -/
inductive Element : (x y : Id) → (d : Nat) → Prop where
  | whole {x : Id} (hx : ix.element? x = none) : Element x x 0
  | inside {x e y : Id} {i d : Nat} (hx : ElementAt ix x e i) (h : Element e y d) :
      Element x y (i * (t.stride x).toNat + d)

/-- What a walk looks at of that: index zero at each level, and at the last level every index below
a length that a word says. -/
inductive Walked : (x y : Id) → (d : Nat) → Prop where
  | whole {x : Id} (hx : ix.element? x = none) : Walked x x 0
  | first {x e y : Id} {d : Nat} (he : ix.element? x = some e) (h : Walked e y d) : Walked x y d
  | last {x e : Id} {i : Nat} (hx : ix.element? x = some e) (he : ix.element? e = none)
      (hi : i < (ix.arrayLength x).toNat) : Walked x e (i * (t.stride x).toNat)

/-- An element as far in, modulo sixteen, as one that a walk looks at. -/
def Sampled (x y : Id) (d : Nat) : Prop :=
  Element ix t x y d ∧ ∃ d', Walked ix t x y d' ∧ d' % 16 = d % 16

/-- `y` is `x`, or a struct in `x` at an exact offset, through members and those of their elements
that `E` admits. -/
inductive StructAt (E : Id → Id → Nat → Prop) : (x y : Id) → (offset : Nat) → Prop where
  | here (x : Id) : StructAt E x x 0
  | inside {x m y z : Id} {k d n : Nat} {o : UInt32} (hm : (ix.members x)[k]? = some m)
      (ho : t.memberOffset? x k = some o) (he : E m y d) (h : StructAt E y z n) :
      StructAt E x z (o.toNat + d + n)

/-- A vector that is a member of a struct in `x`, with its constraints and its exact offset. -/
inductive VectorAt (E : Id → Id → Nat → Prop) (x : Id) : Id → Constraints → Nat → Prop where
  | intro {y v e : Id} {count o : UInt32} {k n : Nat} (h : StructAt ix t E x y n)
      (hm : (ix.members y)[k]? = some v) (hv : ix.type? v = some (.vector e count))
      (ho : t.memberOffset? y k = some o) : VectorAt E x v (t.constraints y k) (n + o.toNat)

end Paths

section Paths

variable {ix : Index} {t : Table} {x y e length : Id} {d i : Nat} {stride count : UInt32}

theorem Walked.reaches (h : Walked ix t x y d) : ix.Reaches x y := by
  induction h with
  | whole => exact .refl
  | first he _ ih => exact .head (Explicit.mem_inner_iff.2 (.inl he)) ih
  | last he => exact .single (Explicit.mem_inner_iff.2 (.inl he))

theorem VectorAt.members_ne_nil {E : Id → Id → Nat → Prop} {v : Id} {c : Constraints} {n : Nat}
    (h : VectorAt ix t E x v c n) : ix.members x ≠ [] := by
  intro hx
  cases h with
  | intro h hm =>
    cases h with
    | here => simp [hx] at hm
    | inside hm' => simp [hx] at hm'

theorem ElementAt.element? (h : ElementAt ix x e i) : ix.element? x = some e := by
  rcases h with hv | ⟨length, n, hv, _⟩
  · exact Index.element?_runtimeArray hv
  · exact Index.element?_array hv

/-- All elements of one level are walked, if a word says how many there are. -/
theorem Element.sampled_of_constant (hv : ix.type? x = some (.array e length))
    (he : ix.element? e = none) (hn : ix.constant? length = some count)
    (h : Element ix t x y d) : Sampled ix t x y d := by
  have hx : ix.element? x = some e := Index.element?_array hv
  have hlen : ix.integer? length = some (ix.arrayLength x).toNat := by
    simp only [Index.constant?, Option.bind_eq_some_iff, Option.ite_none_right_eq_some,
      Option.some.injEq] at hn
    obtain ⟨k, hk, hlt, rfl⟩ := hn
    simp [Index.arrayLength, hv, Index.constant?, hk, hlt, Nat.mod_eq_of_lt hlt]
  refine ⟨h, d, ?_, rfl⟩
  cases h with
  | whole hx' => cases hx.symm.trans hx'
  | inside hi h =>
    cases hx.symm.trans hi.element?
    cases h with
    | inside he' => cases he.symm.trans he'.element?
    | whole _ =>
      rcases hi with hv' | ⟨length', k, hv', hk, hi⟩
      · cases hv.symm.trans hv'
      · cases hv.symm.trans hv'
        cases hlen.symm.trans hk
        exact .last hx he hi

theorem Element.sampled_of_strides
    (hs : ∀ a, ix.Reaches x a → (ix.element? a).isSome → 16 ∣ (t.stride a).toNat)
    (h : Element ix t x y d) : Sampled ix t x y d := by
  have walked : Walked ix t x y 0 ∧ 16 ∣ d := by
    induction h with
    | whole hx => exact ⟨.whole hx, Nat.dvd_zero _⟩
    | inside hi _ ih =>
      have hx := hi.element?
      obtain ⟨hw, hd⟩ := ih fun a ha => hs a (.head (Explicit.mem_inner_iff.2 (.inl hx)) ha)
      have hstride := hs _ .refl (by simp [hx])
      exact ⟨.first hx hw, Nat.dvd_add (Nat.dvd_mul_left_of_dvd hstride _) hd⟩
  exact ⟨h, 0, walked.1, by omega⟩

end Paths

section Indices

variable {stride length offset : UInt32} {i : Nat}

/-- Every element starts, modulo sixteen, like one that is looked at. -/
theorem exists_mem_elementIndices (stride : UInt32) (hi : i < max length.toNat 1) :
    ∃ j ∈ elementIndices stride length, j * stride.toNat % 16 = i * stride.toNat % 16 := by
  have hpos : 0 < 16 / Nat.gcd 16 stride.toNat :=
    Nat.div_pos (Nat.gcd_le_left _ (by decide)) (Nat.gcd_pos_of_pos_left _ (by decide))
  refine ⟨i % (16 / Nat.gcd 16 stride.toNat), ?_, ?_⟩
  · have hle := Nat.mod_le i (16 / Nat.gcd 16 stride.toNat)
    have hlt := Nat.mod_lt i hpos
    rw [elementIndices, List.mem_range]
    omega
  · -- so many strides make up a whole number of sixteens
    have hround : 16 ∣ 16 / Nat.gcd 16 stride.toNat * stride.toNat := by
      rw [Nat.div_mul_right_comm (Nat.gcd_dvd_left _ _)]
      exact Nat.dvd_lcm_left 16 stride.toNat
    exact ((Nat.mod_modEq i _).mul_right' stride.toNat).of_dvd hround

/-- Offsets of elements wrap at a multiple of sixteen. -/
theorem toNat_elementOffset_mod :
    (elementOffset offset stride i).toNat % 16 = (offset.toNat + i * stride.toNat) % 16 := by
  rw [toNat_elementOffset_eq_mod]
  exact Nat.mod_mod_of_dvd _ (by decide)

end Indices

namespace Walk

variable {ix : Index} {t : Table} {u : BlockUse} {root : Id}

/-- Vectors in `id` are straight wherever it starts, if that agrees with `base` modulo sixteen. -/
def StraightAt (ix : Index) (t : Table) (root id : Id) (base : Nat) : Prop :=
  ix.Reaches root id → ∀ b v c n, b % 16 = base % 16 → VectorAt ix t (Sampled ix t) id v c n →
    ∃ s, (Quantity.size v c).Value ix t s ∧ Straight (b + n) s.toNat

def VisitStraight (ix : Index) (t : Table) (root : Id) (v : Visit) : Prop :=
  v.policy.packing = .relaxed → StraightAt ix t root v.struct v.offsetClass.toNat

def SiteStraight (ix : Index) (t : Table) (u : BlockUse) (root : Id) : Site → Prop
  | .struct id base => u.policy.packing = .relaxed → StraightAt ix t root id base.toNat
  | .array h id _ => u.policy.packing = .relaxed → ∀ y d, (ix.element? id).isSome →
    Walked ix t id y d → StraightAt ix t root y (h.offset.toNat + d)

def Fitting (ix : Index) (root struct : Id) (n : Nat) : Prop :=
  ix.Reaches root struct → n < 0x100000000

theorem StraightAt.congr {id : Id} {b b' : Nat} (hmod : b % 16 = b' % 16)
    (h : StraightAt ix t root id b) : StraightAt ix t root id b' :=
  fun hr a v c n ha => h hr a v c n (ha.trans hmod.symm)

theorem straightAt_of_isStruct {id : Id} {b : Nat}
    (h : (ix.type? id).any TypeView.isStruct → StraightAt ix t root id b) :
    StraightAt ix t root id b := by
  intro hr a v c n ha hv
  exact h (Index.isStruct_of_members_ne_nil hv.members_ne_nil) hr a v c n ha hv

section Array

variable {id e : Id} {h : Holder} {alignment : UInt32}

theorem element_straightAt {length : UInt32} {i : Nat} (hp : u.policy.packing = .relaxed)
    (hl : Level ix t u (SiteStraight ix t u root) h id alignment e length)
    (hi : i < max length.toNat 1) :
    StraightAt ix t root e (h.offset.toNat + i * (t.stride id).toNat) := by
  obtain ⟨j, hj, hmod⟩ := exists_mem_elementIndices (t.stride id) hi
  apply straightAt_of_isStruct
  intro hstruct
  have hwalked := hl.elements hstruct j hj hp
  apply hwalked.congr
  rw [toNat_elementOffset_mod]
  omega

/-- What is walked in an array is an element of its level, or is walked in the level below. -/
theorem siteStraight_of_level (he : ix.element? id = some e)
    (hl : Level ix t u (SiteStraight ix t u root) h id alignment e (ix.arrayLength id)) :
    SiteStraight ix t u root (.array h id alignment) := by
  intro hp y d _ hw
  cases hw with
  | whole hx => cases he.symm.trans hx
  | first hx hw =>
    cases he.symm.trans hx
    by_cases hdeep : (ix.element? e).isSome
    · obtain ⟨a, _, ha⟩ := hl.deeper
      exact ha hp y d hdeep hw
    · cases hw with
      | whole _ => simpa using element_straightAt (i := 0) hp hl (by omega)
      | first hx => simp [hx] at hdeep
      | last hx => simp [hx] at hdeep
  | last hx _ hi =>
    cases he.symm.trans hx
    exact element_straightAt hp hl (by omega)

end Array

section Struct

variable {id : Id} {base : UInt32} {m : Id}
variable {P : Site → Prop}

theorem Occupies.straight {free : UInt32} {s : Slot} {later : List Slot} {e : Extent} {c : Id}
    {count : UInt32}
    (hocc : Occupies ix t u (Fitting ix root) P id free s later e.offset e)
    (hp : u.policy.packing = .relaxed) (hr : ix.Reaches root id)
    (hv : ix.type? s.type = some (.vector c count)) : Straight e.offset.toNat e.size.toNat := by
  have hend := e.end_le_stop u.policy
  have hstop := hocc.stop hr
  have hsome : e.component.isSome := by
    have hc := hocc.measures.component
    rw [hv, looseComponent?, if_pos hp] at hc
    generalize e.component = a at hc
    cases hc
    rfl
  apply straight_of_straddles (by omega)
  exact Extent.straddleFault?_eq_none.1 (Extent.fault?_eq_none.1 hocc.sound).2.2.2.1 hsome

theorem Occupies.straightAt {free : UInt32} {s : Slot} {later : List Slot} {e : Extent} {y : Id}
    {d : Nat}
    (hocc : Occupies ix t u (Fitting ix root) (SiteStraight ix t u root) id free s later e.offset e)
    (hp : u.policy.packing = .relaxed) (hw : Walked ix t s.type y d) :
    StraightAt ix t root y (e.offset.toNat + d) := by
  by_cases harray : (ix.element? s.type).isSome
  · exact hocc.array hp y d harray hw
  · cases hw with
    | whole _ =>
      apply straightAt_of_isStruct
      intro hstruct
      rw [← hocc.measures.view] at hstruct
      exact hocc.nested hstruct hp
    | first hx => simp [hx] at harray
    | last hx => simp [hx] at harray

theorem members_ne_nil_of_walked {y : Id} {d : Nat} (hw : Walked ix t m y d)
    (hy : ix.members y ≠ []) : ix.type? m ≠ some (.struct []) := by
  intro hm
  have hnone : ix.element? m = none := Index.element?_struct hm
  cases hw with
  | whole _ => exact hy (by simp [Index.members_eq hm, TypeView.memberIds])
  | first hx => cases hnone.symm.trans hx
  | last hx => cases hnone.symm.trans hx

/-- A vector in a struct is one of its members, or in what one of them holds. -/
theorem straightAt_of_chain (hp : u.policy.packing = .relaxed)
    (hplaces : ∀ n ∈ Slot.places t id base (ix.members id), Fitting ix root id n)
    (hc : Chain ix t u (Fitting ix root) (SiteStraight ix t u root) id 0
      (Slot.judged ix t id base)) :
    StraightAt ix t root id base.toNat := by
  intro hr b v c n hb hvec
  obtain ⟨hs, hm, hv, ho⟩ := hvec
  have hfit : ∀ n ∈ Slot.places t id base (ix.members id), n < 0x100000000 :=
    fun n hn => hplaces n hn hr
  cases hs with
  | here =>
    obtain ⟨s, e, _, _, _, rfl, rfl, _, hoff, hocc⟩ :=
      hc.exists_occupies hfit hm (by simp [hv]) ho
    refine ⟨e.size, hocc.measures.size, (hocc.straight hp hr hv).congr ?_⟩
    omega
  | inside hm' ho' hel hs =>
    obtain ⟨_, d', hw, hmod⟩ := hel
    have hvec := VectorAt.intro hs hm hv ho
    have hne := members_ne_nil_of_walked hw hvec.members_ne_nil
    obtain ⟨s, e, _, _, _, rfl, _, _, hoff, hocc⟩ := hc.exists_occupies hfit hm' hne ho'
    have hin : ix.Reaches root s.type :=
      .tail hr (Explicit.mem_inner_iff.2 (.inr (List.mem_of_getElem? hm')))
    obtain ⟨size, hsize, hstraight⟩ := hocc.straightAt hp hw (hin.trans hw.reaches) _ _ _ _ rfl hvec
    refine ⟨size, hsize, hstraight.congr ?_⟩
    omega

end Struct

/-- Vectors are found straight wherever a walk of the buffers succeeds. -/
theorem carries_siteStraight :
    Carries ix t u (VisitStraight ix t root) (Fitting ix root) (fun _ => True)
      (SiteStraight ix t u root) := by
  refine carries_of_found ?struct ?void (fun h id a e he hl => siteStraight_of_level he hl) ?visit
  case struct =>
    intro id base hf hp
    apply straightAt_of_isStruct
    intro hstruct
    obtain ⟨ms, hms⟩ := Index.isStruct_iff.1 hstruct
    exact straightAt_of_chain hp (hf ms hms).1 (hf ms hms).2
  case void =>
    intro h id a he _ y d harray
    simp [he] at harray
  case visit =>
    intro id base
    have hmod : (base % 256).toNat % 16 = base.toNat % 16 := by
      rw [UInt32.toNat_mod]
      exact Nat.mod_mod_of_dvd _ (by decide)
    constructor
    · intro h hp
      exact (h hp).congr hmod
    · intro h hp
      exact (h hp).congr hmod.symm

end Walk

namespace Buffer

open Walk

variable {m : Module} {o : Options} {t : Table}

theorem straightAt_of_accepts {cx : Context} (h : cx.Accepts) {b : Held} {p : LayoutPolicy}
    (hb : Checked cx b) (hk : (cx.table.blockKind? b.struct).isSome)
    (hp : policy? cx b = some p) (hrelaxed : p.packing = .relaxed)
    (hmet : ∀ x ∈ (checkAll cx {}).2.met, cx.index.Reaches b.struct x.1 → x.2 < 0x100000000) :
    StraightAt cx.index cx.table b.struct b.struct 0 := by
  obtain ⟨w, hw⟩ := h.buffers
  have held : ∀ b', Checked cx b' →
      Yields cx.index cx.table (VisitStraight cx.index cx.table b.struct)
        (Fitting cx.index b.struct) (checkHeld cx b') fun _ => ∀ p, policy? cx b' = some p →
          (cx.table.blockKind? b'.struct).isSome → p.packing = .relaxed →
            StraightAt cx.index cx.table b.struct b'.struct 0 :=
    fun b' _ => yields_checkHeld fun _ _ _ hk' => yields_block hk' carries_siteStraight trivial
  have hfit : ∀ x ∈ w.met, Fitting cx.index b.struct x.1 x.2 := by
    intro x hx
    apply hmet x
    rwa [show (checkAll cx {}).2 = w from congrArg Prod.snd hw]
  have hall := (yields_checkAll held).ok upholds_empty hw hfit
  exact hall.2 b hb p hp hk hrelaxed

/-- In a module that validates, no vector in a checked block under relaxed packing straddles a
boundary, if the elements it lies in are as far in, modulo sixteen, as those that are walked, and
all offsets and ends met in the structs of the block fit a word. -/
theorem straight_of_validate (h : m.validate o = .ok t) :
    ∃ ix, Index.ofModule m = .ok ix ∧ ∀ b p, Checked ⟨ix, t, o⟩ b →
      (t.blockKind? b.struct).isSome → policy? ⟨ix, t, o⟩ b = some p → p.packing = .relaxed →
      (∀ x ∈ (checkAll ⟨ix, t, o⟩ {}).2.met, ix.Reaches b.struct x.1 → x.2 < 0x100000000) →
      ∀ v c n, VectorAt ix t (Sampled ix t) b.struct v c n →
        ∃ s, (Quantity.size v c).Value ix t s ∧ Straight n s.toNat := by
  obtain ⟨_, ix, hix, _, ha⟩ := Module.validate_eq_ok.1 h
  refine ⟨ix, hix, fun b p hb hk hp hrelaxed hmet v c n hv => ?_⟩
  have hstraight := straightAt_of_accepts ha hb hk hp hrelaxed hmet
  simpa using hstraight .refl 0 v c n rfl hv

def relaxed : Options where
  relaxBlockLayout := true

def steppedBlock : Module where
  annotations := [.decorating 7 .block [], .decorating 6 .arrayStride [.literal 24],
    .placing 3 0 0, .placing 3 1 8, .placing 7 0 0, .placing 7 1 68]
  globals := [.declaring .opTypeFloat 1 [.literal 32],
    .declaring .opTypeVector 2 [.id 1, .literal 2],
    .declaring .opTypeStruct 3 [.id 1, .id 2],
    .declaring .opTypeInt 4 [.literal 32, .literal 0],
    ⟨.opConstant, some 4, some 5, [.literal 3]⟩,
    .declaring .opTypeArray 6 [.id 3, .id 5],
    .declaring .opTypeStruct 7 [.id 6, .id 2]] ++ Instruction.holding 8 9 7

/-- The vector in the second of the structs lies at 32. -/
theorem straight_steppedBlock :
    ∃ t ix, steppedBlock.validate relaxed = .ok t ∧ Index.ofModule steppedBlock = .ok ix ∧
      VectorAt ix t (Sampled ix t) 7 2 (t.constraints 3 1) 32 ∧
      ∀ v c n, VectorAt ix t (Sampled ix t) 7 v c n →
        ∃ s, (Quantity.size v c).Value ix t s ∧ Straight n s.toNat := by
  have hrun : bothPass (steppedBlock.validate relaxed) (Index.ofModule steppedBlock) (fun t ix =>
      decide (((9, .storageBuffer, 7) ∈ (⟨ix, t, relaxed⟩ : Context).globalVariables ∧
        held? ⟨ix, t, relaxed⟩ .storageBuffer 7 = some ⟨7, .storageBuffer⟩ ∧
        (t.blockKind? 7).isSome ∧
        policy? ⟨ix, t, relaxed⟩ ⟨7, .storageBuffer⟩ = some ⟨.storage, .relaxed⟩ ∧
        ∀ x ∈ (checkAll ⟨ix, t, relaxed⟩ {}).2.met, x.2 < 0x100000000) ∧
        (ix.members 7 = [6, 2] ∧ t.memberOffset? 7 0 = some 0 ∧
        ix.type? 6 = some (.array 3 5) ∧ ix.element? 3 = none ∧ ix.integer? 5 = some 3 ∧
        ix.constant? 5 = some 3 ∧ t.stride 6 = 24 ∧ ix.members 3 = [1, 2] ∧
        ix.type? 2 = some (.vector 1 2) ∧ t.memberOffset? 3 1 = some 8))) = true := by
    decide +kernel
  obtain ⟨t, ix, ht, hix, hq⟩ := exists_of_bothPass hrun
  obtain ⟨⟨hv, hh, hk, hp, hmet⟩, hm, ho, harray, hflat, hlen, hconst, hstride, hm', hvec, ho'⟩ :=
    of_decide_eq_true hq
  obtain ⟨ix', hix', hall⟩ := straight_of_validate ht
  cases hix.symm.trans hix'
  have helem : Element ix t 6 3 (1 * (t.stride 6).toNat + 0) :=
    .inside (.inr ⟨5, 3, harray, hlen, by decide⟩) (.whole hflat)
  rw [hstride] at helem
  refine ⟨t, ix, ht, hix, ?_, hall ⟨7, .storageBuffer⟩ _ (.global 9 _ 7 _ hv hh) hk hp rfl
    fun x hx _ => hmet x hx⟩
  exact .intro (.inside (k := 0) (by simp [hm]) ho
    (helem.sampled_of_constant harray hflat hconst) (.here 3)) (by simp [hm']) hvec ho'

def Straddles (m : Module) (b : Held) : Prop :=
  ∃ t ix, m.validate relaxed = .ok t ∧ Index.ofModule m = .ok ix ∧
    Checked ⟨ix, t, relaxed⟩ b ∧ (t.blockKind? b.struct).isSome ∧
    policy? ⟨ix, t, relaxed⟩ b = some ⟨.storage, .relaxed⟩ ∧
    ∃ v c n s, VectorAt ix t (Element ix t) b.struct v c n ∧ (Quantity.size v c).Value ix t s ∧
      n + s.toNat < 0x100000000 ∧ ¬ Straight n s.toNat

def pairTypes : List Instruction :=
  [.declaring .opTypeFloat 1 [.literal 32], .declaring .opTypeVector 2 [.id 1, .literal 2],
    .declaring .opTypeStruct 3 [.id 1, .id 2]]

def runtimeBlock : Module where
  annotations := [.decorating 7 .block [], .decorating 6 .arrayStride [.literal 24],
    .placing 3 0 0, .placing 3 1 4, .placing 7 0 0]
  globals := pairTypes ++ [.declaring .opTypeRuntimeArray 6 [.id 3],
    .declaring .opTypeStruct 7 [.id 6]] ++ Instruction.holding 8 9 7

def arraysBlock : Module where
  annotations := [.decorating 7 .block [], .decorating 6 .arrayStride [.literal 16],
    .decorating 10 .arrayStride [.literal 24], .placing 3 0 0, .placing 3 1 4, .placing 7 0 0]
  globals := pairTypes ++ [.declaring .opTypeInt 4 [.literal 32, .literal 0],
    ⟨.opConstant, some 4, some 5, [.literal 1]⟩, ⟨.opConstant, some 4, some 11, [.literal 2]⟩,
    .declaring .opTypeArray 6 [.id 3, .id 5], .declaring .opTypeArray 10 [.id 6, .id 11],
    .declaring .opTypeStruct 7 [.id 10]] ++ Instruction.holding 8 9 7

def endlessBlock : Module where
  annotations := [.decorating 7 .block [], .decorating 6 .arrayStride [.literal 24],
    .placing 3 0 0, .placing 3 1 4, .placing 7 0 0]
  globals := pairTypes ++ [.declaring .opTypeInt 4 [.literal 64, .literal 0],
    ⟨.opConstant, some 4, some 5, [.literal64 0x100000000]⟩,
    .declaring .opTypeArray 6 [.id 3, .id 5], .declaring .opTypeStruct 7 [.id 6]] ++
    Instruction.holding 8 9 7

/-- A struct whose vector sticks at the largest word in one block, and is not looked at in another
where it straddles, the struct being taken as verified. -/
def stickingBlocks : Module where
  annotations := [.decorating 6 .block [], .decorating 7 .block [], .placing 3 0 31,
    .placing 6 0 0xFFFFFFF0, .placing 7 0 0xF0]
  globals := [.declaring .opTypeInt 1 [.literal 8, .literal 0],
    .declaring .opTypeVector 2 [.id 1, .literal 2], .declaring .opTypeStruct 3 [.id 2],
    .declaring .opTypeStruct 6 [.id 3], .declaring .opTypeStruct 7 [.id 3]] ++
    Instruction.holding 4 5 6 ++ Instruction.holding 8 9 7

theorem straddles_of_run {m : Module} {x : Id} {d k : Nat} {o r s : UInt32}
    {Q : Index → Table → Bool} (he : ∀ ix t, Q ix t = true → Element ix t x 3 d)
    (hend : o.toNat + d + 0 + r.toNat + s.toNat < 0x100000000)
    (hs : ¬ Straight (o.toNat + d + 0 + r.toNat) s.toNat)
    (hrun : bothPass (m.validate relaxed) (Index.ofModule m) (fun t ix =>
      decide (((9, .storageBuffer, 7) ∈ (⟨ix, t, relaxed⟩ : Context).globalVariables ∧
        held? ⟨ix, t, relaxed⟩ .storageBuffer 7 = some ⟨7, .storageBuffer⟩ ∧
        (t.blockKind? 7).isSome ∧
        policy? ⟨ix, t, relaxed⟩ ⟨7, .storageBuffer⟩ = some ⟨.storage, .relaxed⟩) ∧
        (ix.members 7)[0]? = some x ∧ t.memberOffset? 7 0 = some o ∧ Q ix t = true ∧
        (ix.members 3)[k]? = some 2 ∧ ix.type? 2 = some (.vector 1 2) ∧
        t.memberOffset? 3 k = some r ∧
        Rule.plain (Quantity.rule ix t) 2 (.size 2 (t.constraints 3 k)) = .ok s)) = true) :
    Straddles m ⟨7, .storageBuffer⟩ := by
  obtain ⟨t, ix, ht, hix, hq⟩ := exists_of_bothPass hrun
  obtain ⟨⟨hv, hh, hk, hp⟩, hx, ho, helem, hm, hvec, hr, hsize⟩ := of_decide_eq_true hq
  exact ⟨t, ix, ht, hix, .global 9 _ _ _ hv hh, hk, hp, 2, _, _, s,
    .intro (.inside hx ho (he ix t helem) (.here 3)) hm hvec hr, ⟨2, hsize⟩, hend, hs⟩

theorem element_of_step {ix : Index} {x e : Id} (hx : ElementAt ix x e 1) (hs : t.stride x = 24)
    (he : Element ix t e 3 0) : Element ix t x 3 24 := by
  have h := Element.inside hx he
  rwa [hs] at h

/-- Elements past the first are not looked at in runtime arrays, in arrays of arrays and in arrays
whose length no word says; nor does a walk look twice at offsets of one class. -/
theorem vectors_straddle :
    Straddles runtimeBlock ⟨7, .storageBuffer⟩ ∧ Straddles arraysBlock ⟨7, .storageBuffer⟩ ∧
      Straddles endlessBlock ⟨7, .storageBuffer⟩ ∧
      Straddles stickingBlocks ⟨7, .storageBuffer⟩ := by
  refine ⟨?_, ?_, ?_, ?_⟩
  · refine straddles_of_run (x := 6) (d := 24) (k := 1) (o := 0) (r := 4) (s := 8)
      (Q := fun ix t => decide (ix.type? 6 = some (.runtimeArray 3) ∧ t.stride 6 = 24 ∧
        ix.element? 3 = none)) ?_ (by decide) (by decide) (by decide +kernel)
    intro ix t hq
    obtain ⟨hv, hs, hflat⟩ := of_decide_eq_true hq
    exact element_of_step (.inl hv) hs (.whole hflat)
  · refine straddles_of_run (x := 10) (d := 24) (k := 1) (o := 0) (r := 4) (s := 8)
      (Q := fun ix t => decide (ix.type? 10 = some (.array 6 11) ∧ ix.integer? 11 = some 2 ∧
        t.stride 10 = 24 ∧ ix.type? 6 = some (.array 3 5) ∧ ix.integer? 5 = some 1 ∧
        t.stride 6 = 16 ∧ ix.element? 3 = none)) ?_ (by decide) (by decide) (by decide +kernel)
    intro ix t hq
    obtain ⟨hv, hlen, hs, hv', hlen', _, hflat⟩ := of_decide_eq_true hq
    have hinner : Element ix t 6 3 (0 * (t.stride 6).toNat + 0) :=
      .inside (.inr ⟨5, 1, hv', hlen', by decide⟩) (.whole hflat)
    rw [Nat.zero_mul] at hinner
    exact element_of_step (.inr ⟨11, 2, hv, hlen, by decide⟩) hs hinner
  · refine straddles_of_run (x := 6) (d := 24) (k := 1) (o := 0) (r := 4) (s := 8)
      (Q := fun ix t => decide (ix.type? 6 = some (.array 3 5) ∧ ix.integer? 5 = some 0x100000000 ∧
        t.stride 6 = 24 ∧ ix.element? 3 = none)) ?_ (by decide) (by decide) (by decide +kernel)
    intro ix t hq
    obtain ⟨hv, hlen, hs, hflat⟩ := of_decide_eq_true hq
    exact element_of_step (.inr ⟨5, 0x100000000, hv, hlen, by decide⟩) hs (.whole hflat)
  · refine straddles_of_run (x := 3) (d := 0) (k := 0) (o := 0xF0) (r := 31) (s := 2)
      (Q := fun ix _ => decide (ix.element? 3 = none)) ?_ (by decide) (by decide)
      (by decide +kernel)
    intro ix t hq
    exact .whole (of_decide_eq_true hq)

end Buffer

end SpirvRules
