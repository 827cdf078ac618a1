import SpirvRules.Proofs.Layout.Displacement
import SpirvRules.Proofs.Layout.Periods
import SpirvRules.Proofs.Layout.Straddling

/-!
# The elements that are not looked at

A walk looks at as many elements of an array of structs as it takes for their offsets to repeat
modulo sixteen, although structs may be aligned to more. The stride is a multiple of the alignment
of the elements, so an element that is not looked at differs from one that is by a multiple of that
alignment and of sixteen; no check tells them apart, neither in the struct itself nor deeper in it.
-/

set_option autoImplicit false

namespace SpirvRules

open Outcome Stateful

section Paths

variable {ix : Index} {t : Table} {x y z m e length : Id} {b n d k i : Nat} {o : UInt32}

variable (ix t) in
/-- What a walk vouches for of an array: index zero at each level, and at the last level every index
below a length that a word says, or any where the stride is one octet at most. -/
inductive Vouched : (x y : Id) → (d : Nat) → Prop where
  | whole {x : Id} (hx : ix.element? x = none) : Vouched x x 0
  | first {x e y : Id} {d : Nat} (he : ix.element? x = some e) (h : Vouched e y d) : Vouched x y d
  | last {x e : Id} {i : Nat} (hx : ix.element? x = some e)
      (hi : i < (ix.arrayLength x).toNat ∨ (t.stride x).toNat ≤ 1) :
      Vouched x e (i * (t.stride x).toNat)

theorem Walked.vouched (h : Walked ix t x y d) : Vouched ix t x y d := by
  induction h with
  | whole hx => exact .whole hx
  | first he _ ih => exact .first he ih
  | last hx _ hi => exact .last hx (.inl hi)

theorem vouched_of_fit (hv : ix.type? x = some (.array e length))
    (hn : ix.integer? length = some n) (hi : i < n)
    (hfit : ∀ j < n, b + j * (t.stride x).toNat < 0x100000000) :
    Vouched ix t x e (i * (t.stride x).toNat) := by
  refine .last (Index.element?_array hv) ?_
  by_cases hword : n < 0x100000000
  · obtain ⟨count, hcount, rfl⟩ := Index.toNat_constant? hn hword
    exact .inl (by simpa [Index.arrayLength, hv, hcount] using hi)
  · have hlast := hfit 0xFFFFFFFF (by omega)
    exact .inr (by omega)

theorem StructAt.mono {E F : Id → Id → Nat → Prop} (hEF : ∀ x y d, E x y d → F x y d)
    (h : StructAt ix t E x y n) : StructAt ix t F x y n := by
  induction h with
  | here => exact .here _
  | inside hm ho he _ ih => exact .inside hm ho (hEF _ _ _ he) ih

theorem StructAt.tail {E : Id → Id → Nat → Prop} (h : StructAt ix t E x y n)
    (hm : (ix.members y)[k]? = some m) (ho : t.memberOffset? y k = some o) (he : E m z d) :
    StructAt ix t E x z (n + o.toNat + d) := by
  induction h with
  | here => simpa using StructAt.inside hm ho he (.here z)
  | inside hm' ho' he' _ ih =>
    have hnext := StructAt.inside hm' ho' he' (ih hm ho)
    simpa [Nat.add_assoc] using hnext

end Paths

namespace Walk

variable {ix : Index} {t : Table} {u : BlockUse} {α β : Type}

/-- From every walker that remembers nothing false a computation succeeds, unless it finds a type
nested too deep or meets a number that fits no word. -/
def Completes (ix : Index) (t : Table) (x : Walk α) (Q : α → Prop) : Prop :=
  Triple (Walker.Faithful ix t) x (fun a w => InRange w → w.Faithful ix t ∧ Q a)
    fun f w => InRange w → ∃ id, f = .tooDeep id

section Completes

variable {Q : α → Prop} {R : β → Prop}

theorem completes_pure {a : α} (h : Q a) : Completes ix t (pure a) Q :=
  triple_pure fun _ hw _ => ⟨hw, h⟩

theorem completes_tooDeep (id : Id) : Completes ix t (throw (.tooDeep id)) Q :=
  triple_throw fun _ _ _ => ⟨id, rfl⟩

theorem Completes.bind {x : Walk α} {f : α → Walk β} (hx : Completes ix t x Q)
    (hg : ∀ a, Growing InWord (f a)) (hf : ∀ a, Q a → Completes ix t (f a) R) :
    Completes ix t (x >>= f) R :=
  Triple.bindUnless hx (fun a => Triple.mono (hg a) (fun _ => id) (fun _ _ hn hr => absurd hr hn)
    fun _ _ hn hr => absurd hr hn) hf

theorem completes_forM {l : List α} {f : α → Walk Unit} (hg : ∀ a, Growing InWord (f a))
    (h : ∀ x ∈ l, Completes ix t (f x) fun _ => True) :
    Completes ix t (l.forM f) fun _ => True := by
  refine Triple.mono (triple_forM_unless (fun a => Triple.mono (hg a) (fun _ => id)
    (fun _ _ => id) fun _ _ hn hr => absurd hr hn) h) (fun _ => id) (fun _ _ hw hr => ?_)
    fun _ _ => id
  exact ⟨(hw hr).1, trivial⟩

theorem completes_meet (struct : Id) (ns : List Nat) :
    Completes ix t (meet struct ns) fun _ => ∀ n ∈ ns, n < 0x100000000 :=
  triple_meet fun _ hw hr => ⟨hw, fun n hn =>
    hr (struct, n) (List.mem_append_left _ (List.mem_map_of_mem hn))⟩

theorem completes_rejectAny {struct : Id} {member : Nat} {f : Option SlotFault} (h : f = none) :
    Completes ix t (rejectAny u struct member f) fun _ => True := by
  rw [h]
  exact completes_pure trivial

theorem Measuring.completes {x : Walk α} (hx : Measuring ix t x Q) : Completes ix t x Q :=
  Triple.mono (hx _ remembering_faithful) (fun _ => id) (fun _ _ h _ => h) fun _ _ h _ => h

end Completes

section Faultless

variable (ix t u)

def Faultless (id : Id) (n : Nat) : Prop :=
  ∀ o : UInt32, o.toNat = n → ∀ depth,
    Completes ix t (walkAfresh ix t u depth (.struct id o)) fun _ => True

/-- A struct is free of faults, and so are all structs in it that the walk vouches for. -/
def FaultlessIn (id : Id) (b : Nat) : Prop :=
  ∀ y n, StructAt ix t (Vouched ix t) id y n → Faultless ix t u y (b + n)

/-- No fault is found wherever a site is alike. -/
def SiteFaultless : Site → Prop
  | .struct id base => ∀ b, Alike ix t (u.policy.alignment id {}) base.toNat b →
    FaultlessIn ix t u id b
  | .array h id alignment => (u.policy.alignment id h.constraints).Value ix t alignment → ∀ b,
    Alike ix t (u.policy.alignment id h.constraints) h.offset.toNat b →
      (∀ o : UInt32, o.toNat = b → ∀ depth, Completes ix t
        (walkAfresh ix t u depth (.array { h with offset := o } id alignment)) fun _ => True) ∧
      ∀ y d, (ix.element? id).isSome → Vouched ix t id y d → FaultlessIn ix t u y (b + d)

end Faultless

section Faultless

variable {x : Id}

theorem faultless_of_members (hm : ix.members x = []) (n : Nat) : Faultless ix t u x n := by
  intro o _ depth
  cases depth with
  | zero => exact completes_tooDeep x
  | succ depth =>
    simp only [walkAfresh, within]
    split
    · next ms hv =>
      rw [← Index.members_eq hv, hm]
      exact (completes_meet _ _).bind (fun _ => invariant_pure _) fun _ _ => completes_pure trivial
    · exact completes_pure trivial

theorem faultlessIn_of_members (hm : ix.members x = []) (b : Nat) : FaultlessIn ix t u x b := by
  intro y n h
  cases h with
  | here => exact faultless_of_members hm _
  | inside hm' => simp [hm] at hm'

end Faultless

section Legal

variable (hl : ix.LegalShapes)

include hl

/-- Where offsets are alike for a slot, its own checks do not tell them apart. -/
theorem Measures.modEq {type : Id} {o : UInt32} {c : Constraints} {e : Extent} {x y : Nat}
    (he : Measures ix t u type o c e) (h : x ≡ y [MOD Quantity.period e.alignment]) :
    x ≡ y [MOD (e.component.getD e.alignment).toNat] ∧ (e.component.isSome → x ≡ y [MOD 16]) := by
  have hmem := LayoutPolicy.alignment_mem hl he.alignment
  have hcomp := he.component
  generalize hloose : looseComponent? u (ix.type? type) = m at hcomp
  generalize e.component = a at hcomp
  cases hcomp with
  | none => exact ⟨h.of_dvd (Quantity.dvd_period hmem), nofun⟩
  | @some v s hs =>
    obtain ⟨⟨n, hv⟩, hp⟩ := looseComponent?_eq_some.1 hloose
    have hbase : (Quantity.baseAlignment type c (u.policy.rules = .uniform)).Value ix t
        e.alignment := by
      have halign := he.alignment
      rwa [LayoutPolicy.alignment, if_neg (by simp [hp])] at halign
    have hdvd := (Quantity.vector_placed hl hv hbase hs he.size (Nat.dvd_refl _)).1
    have hne : e.alignment ≠ 1 := by
      obtain ⟨r, hr, _, hflat⟩ := Quantity.flat_vector (t := t) hl hv
      rw [(hflat.base _ _ _).1 hbase]
      exact Quantity.mulSat_spread_ne_one hr (hl.vector _ _ _ hv).1
    have hperiod := Quantity.dvd_period hmem
    exact ⟨h.of_dvd (Nat.dvd_trans hdvd hperiod),
      fun _ => h.of_dvd (Quantity.sixteen_dvd_period hmem hne)⟩

section Struct

variable {struct id m : Id} {free free' next base o : UInt32} {s r : Slot}
variable {later later' l l' : List Slot} {d d' b k depth : Nat}

theorem completes_contents {e : Extent}
    (hocc : Occupies ix t u InWord (SiteFaultless ix t u) struct free s later e.offset e)
    (hmoved : Moved d d' s r) (halike : Alike ix t
      (u.policy.alignment s.type (t.constraints struct s.member)) e.offset.toNat o.toNat) :
    Completes ix t (contents (walkAfresh ix t u depth) struct r { e with offset := o })
      fun _ => True := by
  have he := hocc.measures
  refine Completes.bind (Q := fun _ => True) ?_ (fun _ => growing_walkAfresh _ _) fun _ _ => ?_
  · unfold enter
    split
    · next hview =>
      have hstruct : (ix.type? s.type).any TypeView.isStruct := he.view ▸ hview
      rw [← hmoved.type]
      have hclear := hocc.nested hview o.toNat (halike.struct hl hstruct {})
      exact hclear _ _ (.here _) o (Nat.add_zero _).symm depth
    · exact completes_pure trivial
  · rw [← hmoved.type, ← hmoved.member]
    have harray := hocc.array
    simp only [SiteFaultless, he.constraints] at harray
    dsimp only
    rw [he.constraints]
    exact (harray he.alignment o.toNat halike).1 o rfl depth

theorem completes_settle {e : Extent}
    (hocc : Occupies ix t u InWord (SiteFaultless ix t u) struct free s later e.offset e)
    (hmoved : Moved d d' s r) (hlater : List.Forall₂ (Moved d d') later later')
    (ho : e.offset.toNat + d = o.toNat + d') (hfree : (displaced u d d').Frees free free')
    (ha : Alike ix t (u.policy.alignment s.type (t.constraints struct s.member)) d' d) :
    Completes ix t
      (settle u (walkAfresh ix t u depth) struct free' r later' { e with offset := o })
      fun next' => (displaced u d d').Frees (e.free u.policy) next' := by
  have he := hocc.measures
  have hmod := (ha.modEq (LayoutPolicy.isAlignment_alignment _ _ _) hl he.alignment).symm
  obtain ⟨hplace, hslot⟩ := he.modEq hl hmod
  have hsound := fault_displaced ho hplace hslot hocc.stop hfree (hlater.imp fun _ _ h => h.slots)
    hocc.sound
  refine (completes_rejectAny hsound).bind (fun _ => growing_contents_free (growing_walkAfresh _))
    fun _ _ => ?_
  refine (completes_contents hl hocc hmoved (ha.of_add_eq ho)).bind
    (fun _ => growing_meet_pure _) fun _ _ => ?_
  refine (completes_meet _ _).bind (fun _ => invariant_pure _) fun _ hstop => completes_pure ?_
  have hmem := LayoutPolicy.alignment_mem hl he.alignment
  exact free_displaced (hmod.of_dvd (Quantity.dvd_period hmem)) ho hocc.stop (hstop _ (by simp))

theorem completes_slot
    (hs : SlotRight ix t u InWord (SiteFaultless ix t u) struct free s later next)
    (hmoved : Moved d d' s r) (hlater : List.Forall₂ (Moved d d') later later')
    (hfree : (displaced u d d').Frees free free')
    (ha : Alike ix t (u.policy.alignment s.type (t.constraints struct s.member)) d' d) :
    Completes ix t (slot ix t u (walkAfresh ix t u depth) struct free' r later')
      fun next' => (displaced u d d').Frees next next' := by
  obtain ⟨x, o, hx, ho, hxo⟩ := hmoved.offset
  unfold slot
  rw [ho, ← hmoved.type]
  dsimp only
  cases hs with
  | empty _ _ hempty =>
    rw [if_pos hempty]
    exact completes_pure hfree
  | occupied x' e hx' hne hocc =>
    cases hx.symm.trans hx'
    rw [if_neg hne, occupied, ← hmoved.type, ← hmoved.member]
    have he := hocc.measures
    refine (measuring_extent _ _ _).completes.bind
      (fun _ => keeping_settle (growing_walkAfresh _) growing_meet _ _ _ _ _) fun e' he' => ?_
    rw [he.moved he']
    rw [← he.offset] at hocc hxo
    exact completes_settle hl hocc hmoved hlater hxo hfree ha

theorem completes_slots
    (hc : Chain ix t u InWord (SiteFaultless ix t u) struct free l)
    (hmoved : List.Forall₂ (Moved d d') l l') (hfree : (displaced u d d').Frees free free')
    (ha : ∀ s ∈ l, Alike ix t (u.policy.alignment s.type (t.constraints struct s.member)) d' d) :
    Completes ix t (slots ix t u (walkAfresh ix t u depth) struct free' l') fun _ => True := by
  induction hmoved generalizing free free' with
  | nil => exact completes_pure trivial
  | cons hs hlater ih =>
    cases hc with
    | cons _ next _ _ hright hrest =>
      refine (completes_slot hl hright hs hlater hfree (ha _ (by simp))).bind
        (fun _ => keeping_slots (growing_walkAfresh _) lasting_growing _ _ _) fun _ hnext => ?_
      exact ih hrest hnext fun x hx => ha x (by simp [hx])

/-- A struct found right is right wherever it is alike. -/
theorem faultless_of_chain
    (hplaces : ∀ n ∈ Slot.places t id base (ix.members id), n < 0x100000000)
    (hc : Chain ix t u InWord (SiteFaultless ix t u) id 0
      (Slot.judged ix t id base))
    (hb : Alike ix t (u.policy.alignment id {}) base.toNat b) : Faultless ix t u id b := by
  rintro o rfl depth
  cases depth with
  | zero => exact completes_tooDeep id
  | succ depth =>
    simp only [walkAfresh, within]
    split
    · next ms hv =>
      rw [← Index.members_eq hv]
      refine (completes_meet _ _).bind
        (fun _ => keeping_slots (growing_walkAfresh _) lasting_growing _ _ _) fun _ hfit => ?_
      have hmoved := judged_displaced (Nat.add_comm base.toNat o.toNat) hplaces hfit fun s hs => by
        obtain ⟨x, hx⟩ := hc.offset hs
        simp [hx]
      refine completes_slots hl hc hmoved ⟨fun _ _ _ _ => UInt32.zero_le, fun _ => rfl⟩
        fun s hs => ?_
      exact hb.member hl (Slot.mem_judged.1 hs).1
    · exact completes_pure trivial

theorem Occupies.faultlessIn {e : Extent}
    (hocc : Occupies ix t u InWord (SiteFaultless ix t u) struct free s later e.offset e)
    (halike : Alike ix t
      (u.policy.alignment s.type (t.constraints struct s.member)) e.offset.toNat b) {z : Id}
    (hz : Vouched ix t s.type z d) : FaultlessIn ix t u z (b + d) := by
  have he := hocc.measures
  by_cases harray : (ix.element? s.type).isSome
  · have hinside := hocc.array
    simp only [SiteFaultless, he.constraints] at hinside
    exact (hinside he.alignment b halike).2 z d harray hz
  · cases hz with
    | whole _ =>
      by_cases hstruct : (ix.type? s.type).any TypeView.isStruct
      · exact hocc.nested (he.view ▸ hstruct) b (halike.struct hl hstruct {})
      · exact faultlessIn_of_members (Index.members_eq_nil hstruct) _
    | first hx => simp [hx] at harray
    | last hx => simp [hx] at harray

theorem faultlessIn_of_chain
    (hplaces : ∀ n ∈ Slot.places t id base (ix.members id), n < 0x100000000)
    (hc : Chain ix t u InWord (SiteFaultless ix t u) id 0
      (Slot.judged ix t id base))
    (hb : Alike ix t (u.policy.alignment id {}) base.toNat b) : FaultlessIn ix t u id b := by
  intro y n hy
  cases hy with
  | here => exact faultless_of_chain hl hplaces hc hb
  | @inside _ m z _ k d n o hm ho hd hy =>
    have hin : FaultlessIn ix t u z (b + o.toNat + d) := by
      by_cases hempty : ix.type? m = some (.struct [])
      · have hm' : ix.members m = [] := by simp [Index.members_eq hempty, TypeView.memberIds]
        cases hd with
        | whole _ => exact faultlessIn_of_members hm' _
        | first hx => simp [Index.element?_struct hempty] at hx
        | last hx => simp [Index.element?_struct hempty] at hx
      · obtain ⟨s, e, _, _, _, rfl, rfl, _, hoff, hocc⟩ :=
          hc.exists_occupies hplaces hm hempty ho
        have halike := (hb.member hl hm).add o.toNat
        rw [← hoff] at halike
        exact hocc.faultlessIn hl halike hd
    simpa [Nat.add_assoc] using hin y n hy

end Struct

section Array

variable {id e : Id} {h : Holder} {alignment length : UInt32} {b d i : Nat}

omit hl in
theorem Level.dvd_stride {P : Site → Prop} (hlevel : Level ix t u P h id alignment e length)
    (ha : alignment.toNat ≠ 0) : alignment.toNat ∣ (t.stride id).toNat := by
  have hstride := strideFault?_eq_none.1 hlevel.stride
  unfold Table.stride
  cases hs : t.literal? id .arrayStride with
  | none => exact Nat.dvd_zero _
  | some s =>
    have haligned := (hstride s hs).2
    rw [Word.isAligned_iff] at haligned
    exact haligned.resolve_left ha

omit hl in
/-- Among the indices that are looked at there is one for each that is vouched for. -/
theorem exists_index {a s : UInt32} (ha : a ∈ Quantity.powers) (hs : a.toNat ∣ s.toNat)
    (hi : i < max length.toNat 1 ∨ s.toNat ≤ 1) :
    ∃ j ∈ elementIndices s length, j * s.toNat ≡ i * s.toNat [MOD Quantity.period a] := by
  rcases hi with hi | hle
  · obtain ⟨j, hj, hmod⟩ := exists_mem_elementIndices s hi
    exact ⟨j, hj, Quantity.modEq_period ha hs hmod⟩
  · refine ⟨0, zero_mem_elementIndices s length, ?_⟩
    by_cases hzero : s.toNat = 0
    · rw [hzero, Nat.mul_zero, Nat.mul_zero]
    · have hone : a.toNat = 1 := Nat.eq_one_of_dvd_one (by rwa [show s.toNat = 1 by omega] at hs)
      have hperiod : Quantity.period a = 1 := if_pos (UInt32.toNat_inj.1 hone)
      rw [hperiod]
      exact Nat.modEq_one

/-- Elements are right at every index that a walk vouches for: an index that is looked at gives an
offset that is alike. -/
theorem faultlessIn_of_level (he : ix.element? id = some e)
    (hlevel : Level ix t u (SiteFaultless ix t u) h id alignment e length)
    (ha : (u.policy.alignment id h.constraints).Value ix t alignment)
    (hb : Alike ix t (u.policy.alignment id h.constraints) h.offset.toNat b)
    (hi : i < max length.toNat 1 ∨ (t.stride id).toNat ≤ 1) :
    FaultlessIn ix t u e (b + i * (t.stride id).toNat) := by
  by_cases hstruct : (ix.type? e).any TypeView.isStruct
  · obtain ⟨w, hw, hle⟩ := u.policy.exists_element_le he ha
    have hmem := LayoutPolicy.alignment_mem hl hw
    have hmem' := LayoutPolicy.alignment_mem hl ha
    have hdvd : w.toNat ∣ (t.stride id).toNat :=
      Nat.dvd_trans (Quantity.dvd_of_mem_of_le hmem hmem' hle)
        (hlevel.dvd_stride (Quantity.dvd_256_of_mem hmem').1)
    -- `j` is looked at, and as far from `i` as no check of the element tells apart
    obtain ⟨j, hj, hij⟩ := exists_index hmem hdvd hi
    have hq := u.policy.isAlignment_alignment e h.constraints
    have hwrap : (elementOffset h.offset (t.stride id) j).toNat ≡
        h.offset.toNat + j * (t.stride id).toNat [MOD 256] := by
      rw [toNat_elementOffset_eq_mod]
      exact Nat.mod_mod_of_dvd _ (by decide)
    have hindex : Alike ix t (u.policy.alignment e h.constraints)
        (h.offset.toNat + j * (t.stride id).toNat) (h.offset.toNat + i * (t.stride id).toNat) :=
      .inr ⟨w, hw, hij.add_left _⟩
    have hmoved := (hb.element hl he).add (i * (t.stride id).toNat)
    have halike := Alike.trans hq hl (.inl hwrap) (hindex.trans hq hl hmoved)
    exact hlevel.elements hstruct j hj _ (halike.struct hl hstruct {})
  · exact faultlessIn_of_members (Index.members_eq_nil hstruct) _

section Level

variable {o : UInt32} {depth : Nat} (he : ix.element? id = some e)
variable (hlevel : Level ix t u (SiteFaultless ix t u) h id alignment e length)
variable (ha : (u.policy.alignment id h.constraints).Value ix t alignment)
variable (halike : Alike ix t (u.policy.alignment id h.constraints) h.offset.toNat o.toNat)

include he hlevel ha halike

theorem completes_elements :
    Completes ix t (elements ix (walkAfresh ix t u depth) { h with offset := o } e (t.stride id)
      length) fun _ => True := by
  unfold elements
  split
  · refine completes_forM (keeping_element (growing_walkAfresh _) growing_meet _ _ _) fun i hi => ?_
    refine (completes_meet _ _).bind (fun _ => growing_walkAfresh _ _) fun _ hfit => ?_
    have hlt : i < max length.toNat 1 :=
      Nat.lt_of_lt_of_le (List.mem_range.1 hi) (Nat.min_le_left _ _)
    have hin := faultlessIn_of_level hl he hlevel ha halike (.inl hlt)
    exact hin _ _ (.here e) _ (toNat_elementOffset (hfit _ (by simp))) depth
  · exact completes_pure trivial

omit ha in
theorem completes_deeper :
    Completes ix t (deeper ix t u (walkAfresh ix t u depth) { h with offset := o } e (t.stride id))
      fun _ => True := by
  obtain ⟨a, hvalue, hbelow⟩ := hlevel.deeper
  obtain ⟨n, hsize, hle⟩ := hlevel.size
  unfold deeper
  refine (measuring_measure _).completes.bind
    (fun _ => growing_measure_walk (growing_walkAfresh _)) fun a' ha' => ?_
  obtain rfl := hvalue.unique ha'
  refine (measuring_measure _).completes.bind
    (fun _ => growing_reject_walk (growing_walkAfresh _)) fun n' hn' => ?_
  obtain rfl := hsize.unique hn'
  refine (completes_rejectAny (elementFault?_eq_none.2 hle)).bind
    (fun _ => growing_walkAfresh _ _) fun _ _ => ?_
  exact (hbelow hvalue o.toNat (halike.element hl he)).1 o rfl depth

theorem completes_level :
    Completes ix t (level ix t u (walkAfresh ix t u depth) { h with offset := o } id alignment e
      length) fun _ => True := by
  refine (completes_rejectAny hlevel.stride).bind
    (fun _ => growing_elements_deeper (growing_walkAfresh _)) fun _ _ => ?_
  refine (completes_elements hl he hlevel ha halike).bind
    (fun _ => growing_reject_deeper (growing_walkAfresh _)) fun _ _ => ?_
  refine (completes_rejectAny hlevel.matrix).bind
    (fun _ => keeping_deeper (growing_walkAfresh _) lasting_growing _ _ _) fun _ _ => ?_
  exact completes_deeper hl he hlevel halike

end Level

omit hl in
theorem siteFaultless_of_void (he : ix.element? id = none) :
    SiteFaultless ix t u (.array h id alignment) := by
  have hvoid : ∀ o : UInt32, Site.isVoid ix (.array { h with offset := o } id alignment) = true :=
    fun _ => by simp [Site.isVoid, he]
  intro _ b _
  refine ⟨fun o _ depth => ?_, fun y d harray => ?_⟩
  · rw [walkAfresh_of_isVoid (hvoid o)]
    exact completes_pure trivial
  · simp [he] at harray

theorem siteFaultless_of_level (he : ix.element? id = some e)
    (hlevel : Level ix t u (SiteFaultless ix t u) h id alignment e (ix.arrayLength id)) :
    SiteFaultless ix t u (.array h id alignment) := by
  intro ha b hb
  refine ⟨?_, ?_⟩
  · rintro o rfl depth
    cases depth with
    | zero =>
      rw [walkAfresh]
      split
      · exact completes_pure trivial
      · exact completes_tooDeep id
    | succ depth =>
      rw [walkAfresh, within_array he]
      exact completes_level hl he hlevel ha hb
  · intro y d _ hd
    cases hd with
    | whole hx => cases he.symm.trans hx
    | first hx hd =>
      cases he.symm.trans hx
      -- at index zero there is another level, or else the first element itself
      by_cases hdeep : (ix.element? e).isSome
      · obtain ⟨a, hvalue, hbelow⟩ := hlevel.deeper
        exact (hbelow hvalue b (hb.element hl he)).2 y d hdeep hd
      · cases hd with
        | whole _ => simpa using faultlessIn_of_level (i := 0) hl he hlevel ha hb (.inl (by omega))
        | first hx => simp [hx] at hdeep
        | last hx => simp [hx] at hdeep
    | last hx hi =>
      cases he.symm.trans hx
      exact faultlessIn_of_level hl he hlevel ha hb (hi.imp_left fun hi => by omega)

end Array

/-- Sites are free of faults wherever they are alike, once a walk of them succeeds. -/
theorem carries_siteFaultless :
    Carries ix t u (fun v => SiteFaultless ix t u (.struct v.struct v.offsetClass))
      InWord (fun _ => True) (SiteFaultless ix t u) := by
  refine carries_of_found ?struct (fun h id a he => siteFaultless_of_void he)
    (fun h id a e he hl' => siteFaultless_of_level hl he hl') ?visit
  case struct =>
    intro id base hf b hb
    by_cases hstruct : (ix.type? id).any TypeView.isStruct
    · obtain ⟨ms, hms⟩ := Index.isStruct_iff.1 hstruct
      exact faultlessIn_of_chain hl (hf ms hms).1 (hf ms hms).2 hb
    · exact faultlessIn_of_members (Index.members_eq_nil hstruct) b
  case visit =>
    intro id base
    have hclass : (base % 256).toNat ≡ base.toNat [MOD 256] := by
      rw [UInt32.toNat_mod]
      exact Nat.mod_modEq _ _
    have hq := u.policy.isAlignment_alignment id {}
    constructor
    · exact fun h b hb => h b (.trans hq hl (.inl hclass) hb)
    · exact fun h b hb => h b (.trans hq hl (.inl hclass.symm) hb)

/-- What the walk of a block vouches for is free of faults where it lies. -/
theorem faultlessIn_of_checkBlock {root : Id} {storage : StorageClass} {p : LayoutPolicy}
    {kind : DecorationKind} (hk : t.blockKind? root = some kind)
    (hok : checkBlock ix t root storage (some p) = .ok ())
    (hmet : ∀ x ∈ (run (block ix t root storage (some p)) {}).2.met, x.2 < 0x100000000) :
    FaultlessIn ix t ⟨kind, storage, p⟩ root 0 := by
  have hrun : run (block ix t root storage (some p)) {} =
      (.ok (), (run (block ix t root storage (some p)) {}).2) := Prod.ext hok rfl
  have hroot := (yields_block hk (carries_siteFaultless hl) trivial).ok upholds_empty hrun hmet
  exact hroot.2 0 (.inl rfl)

/-- In a block that is accepted the elements of an array of structs are free of faults at every
index, looked at or not, if all offsets and ends met fit a word and no type is nested too deep. -/
theorem walkAfresh_element {root : Id} {storage : StorageClass} {p : LayoutPolicy}
    {kind : DecorationKind} (hk : t.blockKind? root = some kind)
    (hok : checkBlock ix t root storage (some p) = .ok ())
    (hmet : ∀ x ∈ (run (block ix t root storage (some p)) {}).2.met, x.2 < 0x100000000)
    {struct array e length : Id} {b k n i : Nat} {o : UInt32}
    (hs : StructAt ix t (Walked ix t) root struct b)
    (hm : (ix.members struct)[k]? = some array) (ho : t.memberOffset? struct k = some o)
    (hv : ix.type? array = some (.array e length)) (hn : ix.integer? length = some n) (hi : i < n)
    (hfit : ∀ j < n, b + o.toNat + j * (t.stride array).toNat < 0x100000000) {offset : UInt32}
    (hoffset : offset.toNat = b + o.toNat + i * (t.stride array).toNat) {depth : Nat} {w : Walker}
    (hw : w.Faithful ix t)
    (hdeep : ∀ id, (run (walkAfresh ix t ⟨kind, storage, p⟩ depth (.struct e offset)) w).1 ≠
      .error (.tooDeep id))
    (hmet' : ∀ x ∈ (run (walkAfresh ix t ⟨kind, storage, p⟩ depth (.struct e offset)) w).2.met,
      x.2 < 0x100000000) :
    (run (walkAfresh ix t ⟨kind, storage, p⟩ depth (.struct e offset)) w).1 = .ok () := by
  have hat := (hs.mono fun _ _ _ => Walked.vouched).tail hm ho (vouched_of_fit hv hn hi hfit)
  have hclear := faultlessIn_of_checkBlock hl hk hok hmet e _ hat offset (by omega) depth w hw
  generalize run (walkAfresh ix t ⟨kind, storage, p⟩ depth (.struct e offset)) w = r at *
  cases hclear with
  | ok _ => rfl
  | error hf =>
    obtain ⟨id, rfl⟩ := hf hmet'
    exact absurd rfl (hdeep id)

end Legal

def wideBlock : Module where
  annotations := [.decorating 7 .block [], .decorating 6 .arrayStride [.literal 64],
    .placing 3 0 0, .placing 7 0 0, .placing 7 1 32]
  globals := [.declaring .opTypeFloat 1 [.literal 64],
    .declaring .opTypeVector 2 [.id 1, .literal 4], .declaring .opTypeStruct 3 [.id 2],
    .declaring .opTypeInt 4 [.literal 32, .literal 0],
    ⟨.opConstant, some 4, some 5, [.literal 3]⟩, .declaring .opTypeArray 6 [.id 3, .id 5],
    .declaring .opTypeStruct 7 [.id 4, .id 6]] ++ Instruction.holding 8 9 7

/-- Only the first of the structs is looked at; the third lies at 160. -/
theorem walkAfresh_wideBlock :
    ∃ t ix, wideBlock.validate {} = .ok t ∧ Index.ofModule wideBlock = .ok ix ∧
      elementIndices (t.stride 6) (ix.arrayLength 6) = [0] ∧
      (run (walkAfresh ix t ⟨.block, .storageBuffer, ⟨.storage, .standard⟩⟩ 2 (.struct 3 160))
        {}).1 = .ok () := by
  have hrun : bothPass (wideBlock.validate {}) (Index.ofModule wideBlock) (fun t ix =>
      decide ix.LegalShapes && decide (t.blockKind? 7 = some .block) &&
      ((checkBlock ix t 7 .storageBuffer (some ⟨.storage, .standard⟩)).isOk &&
        (run (block ix t 7 .storageBuffer (some ⟨.storage, .standard⟩)) {}).2.met.all
          fun x => x.2 < 0x100000000) &&
      decide (ix.members 7 = [4, 6] ∧ t.memberOffset? 7 1 = some 32 ∧
        ix.type? 6 = some (.array 3 5) ∧ ix.integer? 5 = some 3 ∧ t.stride 6 = 64 ∧
        elementIndices (t.stride 6) (ix.arrayLength 6) = [0]) &&
      (run (walkAfresh ix t ⟨.block, .storageBuffer, ⟨.storage, .standard⟩⟩ 2 (.struct 3 160))
        {}).1.isOk &&
      ((run (walkAfresh ix t ⟨.block, .storageBuffer, ⟨.storage, .standard⟩⟩ 2 (.struct 3 160))
          {}).2.met.all fun x => x.2 < 0x100000000)) = true := by
    decide +kernel
  obtain ⟨t, ix, ht, hix, hq⟩ := exists_of_bothPass hrun
  simp only [Bool.and_eq_true, decide_eq_true_eq, List.all_eq_true] at hq
  obtain ⟨⟨⟨⟨⟨hl, hk⟩, hok, hmet⟩, hm, ho, hv, hn, hs, hindices⟩, hok'⟩, hmet'⟩ := hq
  have hdeep := eq_ok_of_isOk hok'
  refine ⟨t, ix, ht, hix, hindices, ?_⟩
  refine walkAfresh_element hl hk (eq_ok_of_isOk hok) hmet (.here 7) (k := 1) (i := 2)
    (by simp [hm]) ho hv hn (by decide) ?_ ?_ (Walker.faithful_empty ix t) (by simp [hdeep]) hmet'
  · intro j hj
    simp only [hs, UInt32.reduceToNat]
    omega
  · simp [hs]

end Walk

end SpirvRules
