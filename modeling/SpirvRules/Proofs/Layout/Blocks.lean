import SpirvRules.Proofs.Layout.Buffers
import SpirvRules.Proofs.Layout.Chain
import SpirvRules.Proofs.Layout.Nesting
import SpirvRules.Proofs.Validation

/-!
# The layout of blocks

In a module that validates, each member of a checked block has its place: an offset it may have, and
from there to its end no room of another member, padding included. Blocks are walked at offset zero
and, not being nested, nowhere else.
-/

set_option autoImplicit false

namespace SpirvRules

open Outcome Stateful

/-- What the offset of a member has to be a multiple of. Relaxed packing asks of a vector only what
its component asks. -/
def LayoutPolicy.required (p : LayoutPolicy) (ix : Index) (type : Id) (c : Constraints) :
    Quantity :=
  match p.packing, ix.type? type with
  | .relaxed, some (.vector e _) => .scalarAlignment e
  | _, _ => p.alignment type c

section Room

variable (ix : Index) (t : Table) (p : LayoutPolicy) (struct : Id)

/-- The room of a member, from its offset to its end by exact count, padding included where the
policy knows any. Empty structs take up none. -/
inductive Room (i : Nat) : (start stop : Nat) → Prop where
  | intro (m : Id) (o a s : UInt32) (hm : (ix.members struct)[i]? = some m)
      (hn : ix.type? m ≠ some (.struct [])) (ho : t.memberOffset? struct i = some o)
      (ha : (p.alignment m (t.constraints struct i)).Value ix t a)
      (hs : (Quantity.size m (t.constraints struct i)).Value ix t s) :
      Room i o.toNat (if p.pads (ix.type? m) then Word.ceil (o.toNat + s.toNat) a.toNat
        else o.toNat + s.toNat)

/-- Every member of a struct is in its place. An alignment of zero, which a number narrower than an
octet has, asks for nothing. -/
structure LaidOut : Prop where
  offset : ∀ i m, (ix.members struct)[i]? = some m →
    ∃ o, t.memberOffset? struct i = some o ∧ o ≠ Word.top
  room : ∀ i m, (ix.members struct)[i]? = some m → ix.type? m ≠ some (.struct []) →
    ∃ start stop, Room ix t p struct i start stop
  aligned : ∀ i m o, (ix.members struct)[i]? = some m → ix.type? m ≠ some (.struct []) →
    t.memberOffset? struct i = some o →
    ∃ a, (p.required ix m (t.constraints struct i)).Value ix t a ∧
      (a.toNat = 0 ∨ a.toNat ∣ o.toNat)
  apart : ∀ i j start stop start' stop', i ≠ j → Room ix t p struct i start stop →
    Room ix t p struct j start' stop' → stop ≤ start' ∨ stop' ≤ start
  last : ∀ i j m m' o o', (ix.members struct)[i]? = some m →
    (ix.type? m).any TypeView.isRuntimeArray → t.memberOffset? struct i = some o →
    (ix.members struct)[j]? = some m' → t.memberOffset? struct j = some o' → o' ≤ o

end Room

namespace Walk

variable {ix : Index} {t : Table} {u : BlockUse} {M : Id → Nat → Prop} {P : Site → Prop}
variable {struct : Id}

theorem addSat_zero (o : UInt32) : Word.addSat 0 o = o := by
  have h := o.toNat_lt
  rw [← UInt32.toNat_inj, Word.toNat_addSat, UInt32.toNat_zero]
  omega

theorem exists_rootSlot {i : Nat} {m : Id} (hm : (ix.members struct)[i]? = some m) :
    ∃ s ∈ Slot.judged ix t struct 0, s.member = i ∧ s.type = m ∧
      s.offset = t.usableOffset? struct i := by
  obtain ⟨s, hs, hi, ht, ho⟩ := Slot.exists_judged (t := t) hm
  refine ⟨s, hs, hi, ht, ho.trans ?_⟩
  cases t.usableOffset? struct i with
  | none => rfl
  | some o => rw [Option.map_some, addSat_zero]

theorem Measures.required {type : Id} {offset : UInt32} {c : Constraints} {e : Extent}
    (h : Measures ix t u type offset c e) :
    (u.policy.required ix type c).Value ix t (e.component.getD e.alignment) := by
  have hc := h.component
  unfold LayoutPolicy.required
  split
  · next x _ hp hv =>
    rw [hv, looseComponent?, if_pos hp] at hc
    generalize e.component = k at hc ⊢
    cases hc with
    | some ha => exact ha
  · next hn =>
    have hloose : looseComponent? u (ix.type? type) = none := by
      unfold looseComponent?
      split
      · next x n hv => exact if_neg fun hp => hn x n hp hv
      · rfl
    rw [hloose] at hc
    generalize e.component = k at hc ⊢
    cases hc with
    | none => exact h.alignment

/-- The slot of a member that takes up something, and what it takes up where its offset says. -/
theorem exists_extent {i : Nat} {m : Id}
    (hc : Chain ix t u M P struct 0 (Slot.judged ix t struct 0))
    (hm : (ix.members struct)[i]? = some m) (hn : ix.type? m ≠ some (.struct [])) :
    ∃ s ∈ Slot.judged ix t struct 0, s.member = i ∧ s.type = m ∧
      ∃ e, Extends ix t u struct s e ∧ t.memberOffset? struct i = some e.offset ∧
        e.offset ≠ Word.top := by
  obtain ⟨s, hs, rfl, rfl, hoff⟩ := exists_rootSlot (t := t) hm
  obtain ⟨e, he⟩ := hc.extends hs hn
  rw [he.offset] at hoff
  exact ⟨s, hs, rfl, rfl, e, he, Table.usableOffset?_eq_some.1 hoff.symm⟩

theorem exists_of_room {i start stop : Nat}
    (hc : Chain ix t u M P struct 0 (Slot.judged ix t struct 0))
    (h : Room ix t u.policy struct i start stop) :
    ∃ s ∈ Slot.judged ix t struct 0, s.member = i ∧ ∃ e, Extends ix t u struct s e ∧
      e.offset ≠ Word.top ∧ start = e.offset.toNat ∧ stop = e.stop u.policy := by
  cases h with
  | intro m o a n hm hn ho ha hs =>
    obtain ⟨s, hmem, rfl, rfl, e, he, ho', htop⟩ := exists_extent hc hm hn
    refine ⟨s, hmem, rfl, e, he, htop, ?_⟩
    cases ho.symm.trans ho'
    cases ha.unique he.measures.alignment
    cases hs.unique he.measures.size
    rw [Extent.stop, he.measures.view]
    exact ⟨rfl, rfl⟩

/-- A struct walked at offset zero without a fault is laid out. -/
theorem laidOut_of_chain (hc : Chain ix t u M P struct 0 (Slot.judged ix t struct 0)) :
    LaidOut ix t u.policy struct where
  offset := by
    intro i m hm
    obtain ⟨s, hmem, rfl, rfl, hoff⟩ := exists_rootSlot hm
    obtain ⟨o, ho⟩ := hc.offset hmem
    rw [ho] at hoff
    exact ⟨o, Table.usableOffset?_eq_some.1 hoff.symm⟩
  room := by
    intro i m hm hn
    obtain ⟨s, hmem, rfl, rfl, e, he, ho, _⟩ := exists_extent hc hm hn
    exact ⟨_, _, .intro _ _ _ _ hm hn ho he.measures.alignment he.measures.size⟩
  aligned := by
    intro i m o hm hn ho
    obtain ⟨s, hmem, rfl, rfl, e, he, ho', _⟩ := exists_extent hc hm hn
    cases ho.symm.trans ho'
    obtain ⟨_, _, _, hocc⟩ := hc.occupies hmem he
    have ha := Extent.alignmentFault?_eq_none.1 (Extent.fault?_eq_none.1 hocc.sound).2.1
    exact ⟨_, he.measures.required, (Word.isAligned_iff _ _).1 ha⟩
  apart := by
    intro i j start stop start' stop' hij hi hj
    obtain ⟨s, hs, rfl, e, he, htop, rfl, rfl⟩ := exists_of_room hc hi
    obtain ⟨r, hr, rfl, e', he', htop', rfl, rfl⟩ := exists_of_room hc hj
    have hne : s ≠ r := fun h => hij (congrArg Slot.member h)
    exact hc.apart hs hr hne he he' htop htop'
  last := by
    intro i j m m' o o' hm hv ho hm' ho'
    have hn : ix.type? m ≠ some (.struct []) := by
      intro hv'
      simp [hv', TypeView.isRuntimeArray] at hv
    obtain ⟨s, hs, rfl, rfl, e, he, hoff, _⟩ := exists_extent hc hm hn
    cases ho.symm.trans hoff
    obtain ⟨r, hr, rfl, rfl, hoff'⟩ := exists_rootSlot (t := t) hm'
    obtain ⟨x, hx⟩ := hc.offset hr
    rw [hx] at hoff'
    cases ho'.symm.trans (Table.usableOffset?_eq_some.1 hoff'.symm).1
    rw [← he.measures.view] at hv
    exact hc.last Slot.pairwise_judged hs hr he hv hx

def LaidOutVisit (ix : Index) (t : Table) (v : Visit) : Prop :=
  ∀ ms, ix.type? v.struct = some (.struct ms) → (t.blockKind? v.struct).isSome →
    LaidOut ix t v.policy v.struct

/-- A site where a walk of a block may come: only the block itself is a block there, and it starts
at zero. -/
structure Blockless (ix : Index) (t : Table) (s : Site) : Prop where
  base : ∀ id base ms, s = .struct id base → ix.type? id = some (.struct ms) →
    (t.blockKind? id).isSome → base = 0
  inside : ∀ x ms, ix.Inside s.type x → ix.type? x = some (.struct ms) → t.blockKind? x = none

theorem blockless_inner {s s' : Site} (h : Blockless ix t s)
    (hs : s'.type ∈ Explicit.inner ix s.type) : Blockless ix t s' where
  base := by
    intro id base ms hs' hms hk
    rw [hs'] at hs
    rw [h.inside id ms (.single hs) hms] at hk
    cases hk
  inside := fun x ms hx => h.inside x ms (.head hs hx)

theorem carries_laidOut :
    Carries ix t u (LaidOutVisit ix t) (fun _ _ => True) (Blockless ix t)
      (fun s => ∀ v, s.visit? u.policy = some v → LaidOutVisit ix t v) where
  inward := fun s s' h hs => blockless_inner h hs
  void := by
    intro s hs v hv
    cases s with
    | struct id base => cases hs
    | array h id alignment => cases hv
  found := by
    intro s hs hf v hv
    cases s with
    | struct id base =>
      cases hv
      intro ms hms hk
      obtain rfl := hs.base id base ms rfl hms hk
      exact laidOut_of_chain (hf ms hms).2
    | array h id alignment => cases hv
  visit := by
    intro s v hv
    constructor
    · intro h v' hv'
      cases hv.symm.trans hv'
      exact h
    · intro h
      exact h v hv

end Walk

namespace Buffer

variable {m : Module} {o : Options} {t : Table}

open Walk

theorem blockless_root {cx : Context} (hskip : cx.options.skipBlockLayout = false)
    (hn : checkNesting cx = .ok ()) {h : Held} (hc : Checked cx h)
    (hk : (cx.table.blockKind? h.struct).isSome) :
    Blockless cx.index cx.table (.struct h.struct 0) where
  base := by
    intro id base ms hs _ _
    cases hs
    rfl
  inside := fun x ms hx hv => not_block_of_inside hskip hn hc.isStruct hk hx hv

theorem laidOut_of_accepts {cx : Context} (h : cx.Accepts)
    (hskip : cx.options.skipBlockLayout = false) {b : Held} {p : LayoutPolicy}
    (hb : Checked cx b) (hk : (cx.table.blockKind? b.struct).isSome)
    (hp : policy? cx b = some p) : LaidOut cx.index cx.table p b.struct := by
  obtain ⟨w, hw⟩ := h.buffers
  have held : ∀ b, Checked cx b →
      Yields cx.index cx.table (LaidOutVisit cx.index cx.table) (fun _ _ => True) (checkHeld cx b)
        fun _ => ∀ p, policy? cx b = some p → (cx.table.blockKind? b.struct).isSome →
          LaidOut cx.index cx.table p b.struct := by
    intro b hb
    refine yields_checkHeld fun p kind hp hk => ?_
    have hroot := blockless_root hskip h.nesting hb (by simp [hk])
    obtain ⟨ms, hms⟩ := Index.isStruct_iff.1 hb.isStruct
    refine (yields_block hk carries_laidOut hroot).mono fun _ hv => ?_
    exact hv ⟨b.struct, 0, p⟩ rfl ms hms (by simp [hk])
  have hall := (yields_checkAll held).ok upholds_empty hw fun _ _ => trivial
  exact hall.2 b hb p hp hk

/-- In a module that validates with layout checked, every block that is checked is laid out as its
policy asks. -/
theorem laidOut_of_validate (h : m.validate o = .ok t) (hskip : o.skipBlockLayout = false) :
    ∃ ix, Index.ofModule m = .ok ix ∧ ∀ b p, Checked ⟨ix, t, o⟩ b →
      (t.blockKind? b.struct).isSome → policy? ⟨ix, t, o⟩ b = some p →
      LaidOut ix t p b.struct := by
  obtain ⟨_, ix, hix, _, ha⟩ := Module.validate_eq_ok.1 h
  exact ⟨ix, hix, fun b p hb hk hp => laidOut_of_accepts ha hskip hb hk hp⟩

def plainBlock : Module where
  annotations := [.decorating 3 .block [], .placing 3 0 0, .placing 3 1 16]
  globals := [.declaring .opTypeFloat 1 [.literal 32],
    .declaring .opTypeVector 2 [.id 1, .literal 4],
    .declaring .opTypeStruct 3 [.id 1, .id 2]] ++ Instruction.holding 4 5 3

theorem laidOut_plainBlock :
    ∃ t ix, plainBlock.validate {} = .ok t ∧ Index.ofModule plainBlock = .ok ix ∧
      LaidOut ix t ⟨.storage, .standard⟩ 3 := by
  have hrun : bothPass (plainBlock.validate {}) (Index.ofModule plainBlock) (fun t ix =>
      decide ((5, .storageBuffer, 3) ∈ (⟨ix, t, {}⟩ : Context).globalVariables ∧
        held? ⟨ix, t, {}⟩ .storageBuffer 3 = some ⟨3, .storageBuffer⟩ ∧
        (t.blockKind? 3).isSome ∧
        policy? ⟨ix, t, {}⟩ ⟨3, .storageBuffer⟩ = some ⟨.storage, .standard⟩)) = true := by
    decide +kernel
  obtain ⟨t, ix, ht, hix, hq⟩ := exists_of_bothPass hrun
  obtain ⟨hv, hh, hk, hp⟩ := of_decide_eq_true hq
  obtain ⟨ix', hix', hall⟩ := laidOut_of_validate ht rfl
  cases hix.symm.trans hix'
  exact ⟨t, ix, ht, hix, hall ⟨3, .storageBuffer⟩ _ (.global 5 _ 3 _ hv hh) hk hp⟩

def narrowBlock : Module where
  annotations := [.decorating 2 .block [], .placing 2 0 5]
  globals := [.declaring .opTypeInt 1 [.literal 4, .literal 0],
    .declaring .opTypeStruct 2 [.id 1]] ++ Instruction.holding 4 5 2

/-- A number of four bits at offset five: it asks for the alignment zero, of which five is no
multiple. -/
theorem narrowBlock_not_aligned :
    ∃ t ix, narrowBlock.validate {} = .ok t ∧ Index.ofModule narrowBlock = .ok ix ∧
      Checked ⟨ix, t, {}⟩ ⟨2, .storageBuffer⟩ ∧ (t.blockKind? 2).isSome ∧
      ∃ p, policy? ⟨ix, t, {}⟩ ⟨2, .storageBuffer⟩ = some p ∧ (ix.members 2)[0]? = some 1 ∧
        ix.type? 1 ≠ some (.struct []) ∧ t.memberOffset? 2 0 = some 5 ∧
        ∃ a, (p.required ix 1 (t.constraints 2 0)).Value ix t a ∧ ¬ a.toNat ∣ 5 := by
  have hrun : bothPass (narrowBlock.validate {}) (Index.ofModule narrowBlock) (fun t ix =>
      decide (((5, .storageBuffer, 2) ∈ (⟨ix, t, {}⟩ : Context).globalVariables ∧
        held? ⟨ix, t, {}⟩ .storageBuffer 2 = some ⟨2, .storageBuffer⟩ ∧
        (t.blockKind? 2).isSome ∧
        policy? ⟨ix, t, {}⟩ ⟨2, .storageBuffer⟩ = some ⟨.storage, .standard⟩) ∧
        ix.members 2 = [1] ∧ ix.type? 1 ≠ some (.struct []) ∧ t.memberOffset? 2 0 = some 5 ∧
        Rule.plain (Quantity.rule ix t) 1
          (LayoutPolicy.required ⟨.storage, .standard⟩ ix 1 (t.constraints 2 0)) = .ok 0)) =
      true := by
    decide +kernel
  obtain ⟨t, ix, ht, hix, hq⟩ := exists_of_bothPass hrun
  obtain ⟨⟨hv, hh, hk, hp⟩, hm, hn, ho, ha⟩ := of_decide_eq_true hq
  exact ⟨t, ix, ht, hix, .global 5 _ 2 _ hv hh, hk, _, hp, by simp [hm], hn, ho, 0, ⟨1, ha⟩,
    by decide⟩

end Buffer

end SpirvRules
